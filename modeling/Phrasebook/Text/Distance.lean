/-!
The edit distance of two texts, and the names that a misspelt name may have stood for.
-/

namespace Phrasebook.Text

/-- The distances of one more character's row, from the row above and the distance to the left. -/
def rowAfter (c : Char) (left : Nat) : List Char → List Nat → List Nat
  | d :: rest, diagonal :: above :: row =>
    let here := min (min (left + 1) (above + 1)) (diagonal + if c = d then 0 else 1)
    here :: rowAfter c here rest (above :: row)
  | _, _ => []

def nextRow (c : Char) (text : List Char) : List Nat → List Nat
  | [] => []
  | corner :: row => (corner + 1) :: rowAfter c (corner + 1) text (corner :: row)

/-- How many insertions, deletions and replacements of single characters lie between two texts. -/
def distance (a b : List Char) : Nat :=
  ((a.foldl (fun row c => nextRow c b row) (List.range (b.length + 1))).getLast?).getD 0

/-- Short names admit one edit, longer ones two. -/
def tolerance (key : String) : Nat :=
  if key.length ≤ 3 then 1 else 2

/-- Nearer first; names at one distance go by name. -/
def closer (a b : Nat × String) : Bool :=
  a.1 < b.1 || (a.1 == b.1 && decide (a.2 ≤ b.2))

/-- The other names within tolerance, with their distances. -/
def scored (key : String) (available : List String) : List (Nat × String) :=
  ((available.filter (· ≠ key)).map fun name => (distance key.toList name.toList, name)).filter
    fun entry => entry.1 ≤ tolerance key

/-- These in order, the closest first and each but once. -/
def ranking (key : String) (available : List String) : List (Nat × String) :=
  ((scored key available).mergeSort closer).eraseReps

/-- At most three other names within tolerance, the closest first. -/
def suggestions (key : String) (available : List String) : List String :=
  ((ranking key available).take 3).map (·.2)

end Phrasebook.Text
