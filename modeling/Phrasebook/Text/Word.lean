/-!
Words and names. A name starts with an ASCII letter or an underscore; a word may start with a digit
as well. Every reader here takes the longest run it can and says what follows it.
-/

namespace Phrasebook.Text

def isNameStart (c : Char) : Bool :=
  c.isAlpha || c == '_'

def isWordChar (c : Char) : Bool :=
  c.isAlphanum || c == '_'

/-- The longest run of characters of one class, and what follows it. -/
def run (p : Char → Bool) (text : List Char) : String × List Char :=
  (String.ofList (text.takeWhile p), text.dropWhile p)

/-- A run of at least one character. -/
def run? (p : Char → Bool) : List Char → Option (String × List Char)
  | [] => none
  | c :: rest => if p c then some (run p (c :: rest)) else none

def name? : List Char → Option (String × List Char)
  | [] => none
  | c :: rest => if isNameStart c then some (run isWordChar (c :: rest)) else none

def word? : List Char → Option (String × List Char) :=
  run? isWordChar

def dottedWord? : List Char → Option (String × List Char) :=
  run? fun c => isWordChar c || c == '.'

/-- A name behind a dollar sign. -/
def parameter? : List Char → Option (String × List Char)
  | '$' :: rest => name? rest
  | _ => none

theorem length_dropWhile_le (p : Char → Bool) (text : List Char) :
    (text.dropWhile p).length ≤ text.length :=
  (List.dropWhile_suffix p).length_le

theorem isWordChar_of_isNameStart {c : Char} (h : isNameStart c) : isWordChar c := by
  simp only [isNameStart, isWordChar, Char.isAlphanum, Bool.or_eq_true] at *
  exact h.elim (fun h => .inl (.inl h)) .inr

theorem run_cons_length {p : Char → Bool} {c : Char} (h : p c) (rest : List Char) :
    (run p (c :: rest)).2.length < (c :: rest).length := by
  simp only [run, List.dropWhile_cons, h, if_true, List.length_cons]
  exact Nat.lt_succ_of_le (length_dropWhile_le p rest)

theorem length_lt_of_run? {p : Char → Bool} {text rest : List Char} {w : String}
    (h : run? p text = some (w, rest)) : rest.length < text.length := by
  cases text with
  | nil => cases h
  | cons c cs =>
    simp only [run?] at h
    split at h
    · next hc => cases h; exact run_cons_length hc cs
    · cases h

theorem length_lt_of_name? {text rest : List Char} {w : String}
    (h : name? text = some (w, rest)) : rest.length < text.length := by
  cases text with
  | nil => cases h
  | cons c cs =>
    simp only [name?] at h
    split at h
    · next hc => cases h; exact run_cons_length (isWordChar_of_isNameStart hc) cs
    · cases h

theorem length_lt_of_parameter? {text rest : List Char} {w : String}
    (h : parameter? text = some (w, rest)) : rest.length < text.length := by
  unfold parameter? at h
  split at h
  · exact Nat.lt_succ_of_lt (length_lt_of_name? h)
  · cases h

end Phrasebook.Text
