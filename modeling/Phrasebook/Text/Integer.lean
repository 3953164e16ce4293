/-!
Decimal integers of 64 bits: an optional sign, then at least one ASCII digit, and a value in range.
-/

namespace Phrasebook.Text

def digit? (c : Char) : Option Nat :=
  if c.isDigit then some (c.toNat - '0'.toNat) else none

/-- The value of a run of digits that follows digits worth `high`. -/
def decimalFrom (high : Nat) : List Char → Option Nat
  | [] => some high
  | c :: rest => (digit? c).bind fun low => decimalFrom (high * 10 + low) rest

def decimal? : List Char → Option Nat
  | [] => none
  | digits => decimalFrom 0 digits

def int64? (n : Int) : Option Int64 :=
  if Int64.minValue.toInt ≤ n ∧ n ≤ Int64.maxValue.toInt then some (Int64.ofInt n) else none

def integer? : List Char → Option Int64
  | '-' :: digits => (decimal? digits).bind fun n => int64? (-(n : Int))
  | '+' :: digits => (decimal? digits).bind fun n => int64? n
  | digits => (decimal? digits).bind fun n => int64? n

/-- The shortest decimal text of an integer: no plus sign and no leading zeros. -/
def showInteger (n : Int64) : String :=
  toString n.toInt

end Phrasebook.Text
