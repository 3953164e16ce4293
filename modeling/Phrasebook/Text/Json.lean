import Phrasebook.Text.Hexadecimal
import Phrasebook.Text.Integer
import Phrasebook.Text.Word

/-!
Reading JSON texts. Whole numbers keep their value and other numbers do not; a string that spells
half of a surrogate pair is well formed but has no value. A reader takes the characters to come,
with a bound on the steps it may take, and answers with those it left.
-/

namespace Phrasebook.Text

inductive Json where
  | null
  | bool (value : Bool)
  | whole (value : Nat)
  | number
  | string (value : Option String)
  | array (items : List Json)
  | object (fields : List (Option String × Json))

namespace Json

def isSpace (c : Char) : Bool :=
  c == ' ' || c == '\n' || c == '\t' || c == '\r'

def skipSpace (text : List Char) : List Char :=
  text.dropWhile isSpace

def keyword? (word : String) (value : Json) (text : List Char) : Option (Json × List Char) :=
  if word.toList.isPrefixOf text then some (value, text.drop word.length) else none

/-! ### Numbers -/

/-- Digits of a whole part: a zero stands alone. -/
def wholePart? : List Char → Option (List Char × List Char)
  | '0' :: rest => some (['0'], rest)
  | text =>
    match text.takeWhile Char.isDigit with
    | [] => none
    | digits => some (digits, text.dropWhile Char.isDigit)

/-- Drops digits, of which there must be at least one. -/
def someDigits? (text : List Char) : Option (List Char) :=
  match text with
  | c :: rest => if c.isDigit then some (rest.dropWhile Char.isDigit) else none
  | [] => none

def fraction? : List Char → Option (Bool × List Char)
  | '.' :: rest => (someDigits? rest).map (true, ·)
  | rest => some (false, rest)

def exponent? : List Char → Option (Bool × List Char)
  | c :: rest =>
    if c = 'e' ∨ c = 'E' then
      let digits := match rest with
        | '+' :: more => more
        | '-' :: more => more
        | more => more
      (someDigits? digits).map (true, ·)
    else some (false, c :: rest)
  | [] => some (false, [])

def number? (text : List Char) : Option (Json × List Char) := do
  let (negative, text) := match text with
    | '-' :: rest => (true, rest)
    | rest => (false, rest)
  let (digits, text) ← wholePart? text
  let (fraction, text) ← fraction? text
  let (exponent, text) ← exponent? text
  let value ← decimal? digits
  return (if negative || fraction || exponent then .number else .whole value, text)

/-! ### Strings -/

def unit? : List Char → Option (Nat × List Char)
  | a :: b :: c :: d :: rest => do
    let digits ← [a, b, c, d].mapM hexDigit?
    return (digits.foldl (fun value digit => value * 16 + digit) 0, rest)
  | _ => none

def short? : Char → Option Char
  | '"' => some '"'
  | '\\' => some '\\'
  | '/' => some '/'
  | 'b' => some '\x08'
  | 'f' => some '\x0c'
  | 'n' => some '\n'
  | 'r' => some '\r'
  | 't' => some '\t'
  | _ => none

/-- The units of a string up to its closing quote; a character beyond the first plane is one unit
here unless it is spelled as two. -/
def units? : Nat → List Char → Option (List Nat × List Char)
  | 0, _ => none
  | _ + 1, '"' :: rest => some ([], rest)
  | steps + 1, '\\' :: 'u' :: text => do
    let (unit, text) ← unit? text
    let (units, rest) ← units? steps text
    return (unit :: units, rest)
  | steps + 1, '\\' :: c :: text => do
    let c ← short? c
    let (units, rest) ← units? steps text
    return (c.toNat :: units, rest)
  | steps + 1, c :: text => do
    if c.toNat < 0x20 ∨ c = '\\' then none
    let (units, rest) ← units? steps text
    return (c.toNat :: units, rest)
  | _ + 1, [] => none

/-- Pairs up surrogates; one that stands alone has no character. -/
def characters? : List Nat → Option (List Char)
  | [] => some []
  | unit :: rest =>
    if 0xD800 ≤ unit ∧ unit < 0xDC00 then
      match rest with
      | low :: more =>
        if 0xDC00 ≤ low ∧ low < 0xE000 then
          (characters? more).map
            (Char.ofNat (0x10000 + (unit - 0xD800) * 0x400 + (low - 0xDC00)) :: ·)
        else none
      | [] => none
    else if 0xDC00 ≤ unit ∧ unit < 0xE000 then none
    else (characters? rest).map (Char.ofNat unit :: ·)

def string? (steps : Nat) (text : List Char) : Option (Option String × List Char) :=
  (units? steps text).map fun (units, rest) => ((characters? units).map String.ofList, rest)

/-! ### Values -/

mutual

def value? : Nat → List Char → Option (Json × List Char)
  | 0, _ => none
  | steps + 1, text =>
    match skipSpace text with
    | '{' :: rest =>
      match skipSpace rest with
      | '}' :: rest => some (.object [], rest)
      | rest => (fields? steps rest).map fun (fields, rest) => (.object fields, rest)
    | '[' :: rest =>
      match skipSpace rest with
      | ']' :: rest => some (.array [], rest)
      | rest => (items? steps rest).map fun (items, rest) => (.array items, rest)
    | '"' :: rest => (string? steps rest).map fun (value, rest) => (.string value, rest)
    | text =>
      (keyword? "null" .null text).orElse fun _ =>
      (keyword? "true" (.bool true) text).orElse fun _ =>
      (keyword? "false" (.bool false) text).orElse fun _ => number? text

def items? : Nat → List Char → Option (List Json × List Char)
  | 0, _ => none
  | steps + 1, text => do
    let (item, rest) ← value? steps text
    match skipSpace rest with
    | ',' :: rest =>
      let (items, rest) ← items? steps rest
      return (item :: items, rest)
    | ']' :: rest => return ([item], rest)
    | _ => none

def fields? : Nat → List Char → Option (List (Option String × Json) × List Char)
  | 0, _ => none
  | steps + 1, text =>
    match skipSpace text with
    | '"' :: text => do
      let (name, rest) ← string? steps text
      match skipSpace rest with
      | ':' :: rest =>
        let (value, rest) ← value? steps rest
        match skipSpace rest with
        | ',' :: rest =>
          let (fields, rest) ← fields? steps rest
          return ((name, value) :: fields, rest)
        | '}' :: rest => return ([(name, value)], rest)
        | _ => none
      | _ => none
    | _ => none

end

/-- Reads a whole text, with nothing but space around the value. -/
def parse? (text : String) : Option Json := do
  let (value, rest) ← value? (2 * text.length + 2) text.toList
  if (skipSpace rest).isEmpty then some value else none

end Json

end Phrasebook.Text
