import Phrasebook.Text.Hexadecimal
import Phrasebook.Text.Word

/-!
Literals of a program in which definitions are embedded. Texts and integers have a value here, by
the rules of that program's language; all other literals are only known to be there.
-/

namespace Phrasebook.Embedded

open Text

inductive Literal where
  | text (value : String)
  | integer (value : Nat)
  | other
deriving DecidableEq, Repr

namespace Literal

/-! ### Integers -/

/-- Letters count as digits only above base ten. -/
def digit? (base : Nat) (c : Char) : Option Nat :=
  if c.isDigit || base > 10 then hexDigit? c else none

/-- Digits behind the letter make it an exponent. -/
def isExponent : List Char → Bool
  | c :: rest =>
    (c == 'e' || c == 'E') &&
      ((rest.dropWhile (· == '_')).head?.map fun d => d.isDigit || d == '+' || d == '-').getD false
  | [] => false

/-- The name of a type, such as a literal may end in. -/
def isSuffix (base : Nat) (text : List Char) : Bool :=
  (name? text).isSome && !(base == 10 && isExponent text)

/-- Underscores between the digits do not count, nor does the suffix. -/
def digitsFrom (base value : Nat) (read : Bool) : List Char → Option Nat
  | [] => if read then some value else none
  | c :: rest =>
    if c = '_' then digitsFrom base value read rest
    else
      match digit? base c with
      | some d => if d < base then digitsFrom base (value * base + d) true rest else none
      | none => if read && isSuffix base (c :: rest) then some value else none

def integer? : List Char → Option Nat
  | '0' :: 'x' :: rest => digitsFrom 16 0 false rest
  | '0' :: 'o' :: rest => digitsFrom 8 0 false rest
  | '0' :: 'b' :: rest => digitsFrom 2 0 false rest
  | spelling => digitsFrom 10 0 false spelling

/-! ### Texts -/

def codePoint (digits : List Char) : Option Nat :=
  (digits.filter (· ≠ '_')).foldlM (fun value c => (hexDigit? c).map (value * 16 + ·)) 0

/-- The character of an escape, and what follows it. -/
def escape? : List Char → Option (Char × List Char)
  | 'n' :: rest => some ('\n', rest)
  | 'r' :: rest => some ('\r', rest)
  | 't' :: rest => some ('\t', rest)
  | '0' :: rest => some ('\x00', rest)
  | '\\' :: rest => some ('\\', rest)
  | '\'' :: rest => some ('\'', rest)
  | '"' :: rest => some ('"', rest)
  | 'x' :: high :: low :: rest =>
    ((codePoint [high, low]).bind scalar?).map (·, rest)
  | 'u' :: '{' :: rest =>
    ((codePoint (rest.takeWhile (· ≠ '}'))).bind scalar?).map
      (·, (rest.dropWhile (· ≠ '}')).tail)
  | _ => none

theorem length_lt_of_escape? {text rest : List Char} {c : Char}
    (h : escape? text = some (c, rest)) : rest.length < text.length := by
  unfold escape? at h
  split at h <;> simp only [Option.map_eq_some_iff, Option.some.injEq, Prod.mk.injEq, reduceCtorEq]
    at h
  case h_9 after =>
    obtain ⟨_, _, _, rfl⟩ := h
    have := length_dropWhile_le (· ≠ '}') after
    simp only [List.length_tail, List.length_cons]
    omega
  case h_8 => obtain ⟨_, _, _, rfl⟩ := h; simp only [List.length_cons]; omega
  all_goals obtain ⟨_, rfl⟩ := h; simp

/-- The indentation of the line that follows an escaped line end. -/
def isIndent (c : Char) : Bool :=
  c == ' ' || c == '\t' || c == '\n' || c == '\r'

/-- The text up to the closing quote. An escaped line end leaves out the indentation behind it. -/
def escaped? (text : List Char) : Option (List Char) :=
  match text with
  | [] => none
  | '"' :: _ => some []
  | '\r' :: '\n' :: rest => (escaped? rest).map ('\n' :: ·)
  | '\\' :: '\n' :: rest => escaped? (rest.dropWhile isIndent)
  | '\\' :: '\r' :: rest => escaped? (rest.dropWhile isIndent)
  | '\\' :: rest =>
    match _h : escape? rest with
    | some (c, after) => (escaped? after).map (c :: ·)
    | none => none
  | c :: rest => (escaped? rest).map (c :: ·)
termination_by text.length
decreasing_by
  · simp only [List.length_cons]; omega
  · have := length_dropWhile_le isIndent rest
    simp only [List.length_cons]; omega
  · have := length_dropWhile_le isIndent rest
    simp only [List.length_cons]; omega
  · have := length_lt_of_escape? _h
    simp only [List.length_cons]; omega
  · simp

/-- The text up to a quote with as many number signs behind it as stand before the opening one. -/
def closedBy? (signs : List Char) : List Char → Option (List Char)
  | [] => none
  | c :: rest =>
    if c = '"' ∧ signs.isPrefixOf rest then some [] else (closedBy? signs rest).map (c :: ·)

/-- A text without escapes. -/
def verbatim? (text : List Char) : Option (List Char) :=
  match text.dropWhile (· == '#') with
  | '"' :: rest => closedBy? (text.takeWhile (· == '#')) rest
  | _ => none

def ofText? (text : Option (List Char)) : Literal :=
  match text with
  | some value => .text (String.ofList value)
  | none => .other

/-- Reads a literal as the program spells it. -/
def read : List Char → Literal
  | '"' :: rest => ofText? (escaped? rest)
  | 'r' :: rest => ofText? (verbatim? rest)
  | spelling =>
    match integer? spelling with
    | some value => .integer value
    | none => .other

end Literal

end Phrasebook.Embedded
