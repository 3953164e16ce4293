import Phrasebook.Embedded.Header

/-!
Definitions that are embedded in a program. Their tokens are spelled as a source of definitions,
one definition a line, so that embedded definitions are read by the rules of all others, and a
position in the source can be led back to a token.
-/

namespace Phrasebook

open Text (Position)

structure Embedded where
  language : String
  lines : List Embedded.Line

namespace Embedded

/-- English, unless a header says otherwise. -/
def empty : Embedded := ⟨"en", []⟩

def add (e : Embedded) (line : Line) : Embedded :=
  { e with lines := e.lines ++ [line] }

/-- Reads on with the line begun so far. Attributes stand between definitions; those that are not
headers mean nothing here. A semicolon outside of brackets ends a line. -/
def readFrom (e : Embedded) (line : Line) : List Token → Except Fault Embedded
  | [] => .ok (if line.isEmpty then e else e.add line)
  | token :: rest =>
    if line.isEmpty && token.isMark '#' then
      match rest with
      | .mark '!' _ :: .group .square tokens _ _ :: rest =>
        (Header.language tokens).bind fun language => readFrom { e with language } [] rest
      | .group .square _ _ _ :: rest => readFrom e [] rest
      | _ => .error ⟨.noAttribute, some token.place⟩
    else if token.isMark ';' then readFrom (e.add (line ++ [⟨";", token.place, false⟩])) [] rest
    else token.lexemes.bind fun lexemes => readFrom e (line ++ lexemes) rest

def read (tokens : List Token) : Except Fault Embedded :=
  readFrom empty [] tokens

def source (e : Embedded) : String :=
  "\n".intercalate (e.lines.map Line.text)

/-- The part of the language in front of the first hyphen or underscore. -/
def baseLanguage (e : Embedded) : String :=
  String.ofList (e.language.toList.takeWhile fun c => c ≠ '-' ∧ c ≠ '_')

/-- Lines are counted from one. -/
def lineAt? (e : Embedded) : Nat → Option Line
  | 0 => none
  | line + 1 => e.lines[line]?

/-- The place of the token that a position of the source belongs to. Where there is no such line it
is the last token. -/
def placeAt (e : Embedded) (position : Position) : Option Nat :=
  match e.lineAt? position.line with
  | some line => line.placeAt position.column
  | none => e.lines.getLast?.bind Line.lastPlace

end Embedded

end Phrasebook
