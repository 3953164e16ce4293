import Phrasebook.Definition.Reader
import Phrasebook.Template.Parser
import Phrasebook.Text.Hexadecimal

/-!
Quoted texts of a source of definitions. A backslash introduces an escape: a quote, a backslash, a
line end, a tab, or a code point in hexadecimal. Each character is kept with its spelling, so that
a place in the text can be found again in the source.
-/

namespace Phrasebook

open Text

/-- A character and how the source spells it. -/
structure Glyph where
  char : Char
  spelling : List Char
deriving DecidableEq, Repr

/-- A quoted text, with the number of characters left at its opening quote. -/
structure Quoted where
  glyphs : List Glyph
  left : Nat
deriving DecidableEq, Repr

namespace Quoted

open Reader

def text (q : Quoted) : String :=
  String.ofList (q.glyphs.map Glyph.char)

def letterEscape : Reader Char :=
  ofOption fun
    | 'n' :: rest => some ('\n', rest)
    | 't' :: rest => some ('\t', rest)
    | '"' :: rest => some ('"', rest)
    | '\\' :: rest => some ('\\', rest)
    | _ => none

/-- The value of the hexadecimal digits at the start of a text, at most so many of them, and what
follows them. -/
def hexRun : Nat → List Char → Nat → Nat × List Char
  | 0, text, value => (value, text)
  | _, [], value => (value, [])
  | count + 1, c :: rest, value =>
    match hexDigit? c with
    | some digit => hexRun count rest (value * 16 + digit)
    | none => (value, c :: rest)

def hexDigits : Reader Nat :=
  ofOption fun
    | c :: rest => if (hexDigit? c).isSome then some (hexRun 6 (c :: rest) 0) else none
    | [] => none

def hexOpening : Reader Unit :=
  ofOption fun
    | 'u' :: '{' :: rest => some ((), rest)
    | _ => none

/-- Six digits at most; a value that is no character is declined where the escape starts. -/
def hexEscape : Reader Char :=
  fun text =>
    let value : Reader Nat := do
      hexOpening
      let value ← hexDigits
      char '}'
      return value
    match value text with
    | .done n rest =>
      match scalar? n with
      | some c => .done c rest
      | none => .declined .nothing text
    | .declined wanted rest => .declined wanted rest
    | .stuck wanted rest => .stuck wanted rest

def escape : Reader Char :=
  orElse letterEscape hexEscape

/-- One character of a quoted text, up to the closing quote. -/
def glyph : Reader Glyph
  | '"' :: rest => .declined .nothing ('"' :: rest)
  | [] => .declined .nothing []
  | '\\' :: rest =>
    match commit (labelled "escape sequence" escape) rest with
    | .done c after => .done ⟨c, '\\' :: rest.take (rest.length - after.length)⟩ after
    | .declined wanted after => .declined wanted after
    | .stuck wanted after => .stuck wanted after
  | c :: rest => .done ⟨c, [c]⟩ rest

/-- How a character is spelled between quotes. -/
def spelling : Char → List Char
  | '"' => ['\\', '"']
  | '\\' => ['\\', '\\']
  | '\n' => ['\\', 'n']
  | '\t' => ['\\', 't']
  | c => [c]

/-- A text in quotes. -/
def quote (text : List Char) : List Char :=
  '"' :: text.flatMap spelling ++ ['"']

def quoted : Reader Quoted := do
  let left ← Reader.left
  char '"'
  let glyphs ← many glyph
  commit (expect '"')
  return ⟨glyphs, left⟩

/-- How many characters the source spells the first so many characters of the text with. -/
def spelled (q : Quoted) (count : Nat) : Nat :=
  ((q.glyphs.take count).flatMap Glyph.spelling).length

/-- Reads the text as a template. A fault is reported where the source spells the offending
character, or at the closing quote for a fault at the end. -/
def template (q : Quoted) (source : List Char) : Except ParseError Template :=
  match Template.scan (q.glyphs.map Glyph.char) with
  | .ok pieces => .ok (Template.ofPieces pieces)
  | .error fault =>
    let before := q.spelled (q.glyphs.length - fault.left)
    .error ⟨fault.cause, Position.ahead source (q.left - 1 - before)⟩

end Quoted

end Phrasebook
