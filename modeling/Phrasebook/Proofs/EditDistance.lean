import Mathlib.Order.Bounds.Basic
import Mathlib.Order.MinMax
import Phrasebook.Text.Distance

/-!
What the distance of two texts is. It is the least number of edits that turn the one into the
other, where an edit puts in, takes out or replaces one character anywhere. The rows that are
computed hold the costs of the texts as far as they have been read.
-/

namespace Phrasebook.Text

/-! ### Edits -/

/-- One character is put in, taken out or replaced. -/
inductive Edit : List Char → List Char → Prop where
  | insert (before after : List Char) (c : Char) : Edit (before ++ after) (before ++ c :: after)
  | delete (before after : List Char) (c : Char) : Edit (before ++ c :: after) (before ++ after)
  | replace (before after : List Char) (c d : Char) :
    Edit (before ++ c :: after) (before ++ d :: after)

/-- So many edits, one after the other, turn a text into another one. -/
inductive Edits : Nat → List Char → List Char → Prop where
  | none (a : List Char) : Edits 0 a a
  | next {n : Nat} {a b c : List Char} (first : Edit a b) (rest : Edits n b c) : Edits (n + 1) a c

variable {n : Nat} {a b : List Char}

theorem Edit.cons (h : Edit a b) (c : Char) : Edit (c :: a) (c :: b) := by
  cases h with
  | insert before after d => exact .insert (c :: before) after d
  | delete before after d => exact .delete (c :: before) after d
  | replace before after d e => exact .replace (c :: before) after d e

theorem Edit.reverse (h : Edit a b) : Edit a.reverse b.reverse := by
  cases h with
  | insert before after c => simpa using Edit.insert after.reverse before.reverse c
  | delete before after c => simpa using Edit.delete after.reverse before.reverse c
  | replace before after c d => simpa using Edit.replace after.reverse before.reverse c d

theorem Edits.cons (h : Edits n a b) (c : Char) : Edits n (c :: a) (c :: b) := by
  induction h with
  | none a => exact .none (c :: a)
  | next first _ ih => exact .next (first.cons c) ih

theorem Edits.reverse (h : Edits n a b) : Edits n a.reverse b.reverse := by
  induction h with
  | none a => exact .none a.reverse
  | next first _ ih => exact .next first.reverse ih

theorem Edits.min {m : Nat} (h : Edits m a b) (h' : Edits n a b) : Edits (min m n) a b := by
  rcases min_choice m n with he | he
  · rw [he]
    exact h
  · rw [he]
    exact h'

/-! ### Costs -/

/-- What it costs to turn one text into the other from the front, where a first character is put
in, taken out, or replaced by the other one if it is not the same. -/
def cost : List Char → List Char → Nat
  | [], b => b.length
  | _ :: a, [] => a.length + 1
  | c :: a, d :: b =>
    min (min (cost (c :: a) b + 1) (cost a (d :: b) + 1)) (cost a b + if c = d then 0 else 1)
termination_by a b => a.length + b.length

@[simp] theorem cost_nil_left (b : List Char) : cost [] b = b.length := by
  rw [cost]

@[simp] theorem cost_nil_right (a : List Char) : cost a [] = a.length := by
  cases a <;> simp [cost]

theorem cost_cons_cons (c d : Char) (a b : List Char) : cost (c :: a) (d :: b) =
    min (min (cost (c :: a) b + 1) (cost a (d :: b) + 1)) (cost a b + if c = d then 0 else 1) := by
  rw [cost]

theorem cost_self (a : List Char) : cost a a = 0 := by
  induction a with
  | nil => simp
  | cons c a ih =>
    rw [cost_cons_cons, ih, if_pos rfl]
    omega

/-- The cost is paid by edits. -/
theorem edits_cost (a b : List Char) : Edits (cost a b) a b := by
  fun_induction cost a b with
  | case1 b =>
    induction b with
    | nil => exact .none []
    | cons d b ih => exact .next (.insert [] [] d) (ih.cons d)
  | case2 c a =>
    induction a generalizing c with
    | nil => exact .next (.delete [] [] c) (.none [])
    | cons d a ih => exact .next (.delete [] (d :: a) c) (ih d)
  | case3 c a d b insert delete replace =>
    have hinsert : Edits (cost (c :: a) b + 1) (c :: a) (d :: b) :=
      .next (.insert [] (c :: a) d) (insert.cons d)
    have hdelete : Edits (cost a (d :: b) + 1) (c :: a) (d :: b) :=
      .next (.delete [] a c) delete
    have hreplace : Edits (cost a b + if c = d then 0 else 1) (c :: a) (d :: b) := by
      split
      · next h =>
        subst h
        exact replace.cons c
      · exact .next (.replace [] a c d) (replace.cons d)
    exact (hinsert.min hdelete).min hreplace

/-! ### One edit changes the cost by one -/

theorem cost_cons_right_le (c : Char) (a b : List Char) : cost a (c :: b) ≤ cost a b + 1 := by
  cases a with
  | nil => simp
  | cons d a =>
    rw [cost_cons_cons]
    omega

theorem cost_cons_left_le (c : Char) (a b : List Char) : cost (c :: a) b ≤ cost a b + 1 := by
  cases b with
  | nil => simp
  | cons d b =>
    rw [cost_cons_cons]
    omega

theorem cost_le_cons_left (c : Char) (a b : List Char) : cost a b ≤ cost (c :: a) b + 1 := by
  induction b with
  | nil =>
    simp only [cost_nil_right, List.length_cons]
    omega
  | cons d b ih =>
    have hinsert : cost a (d :: b) ≤ cost a b + 1 := cost_cons_right_le d a b
    rw [cost_cons_cons]
    omega

theorem cost_replace_le (c d : Char) (a b : List Char) :
    cost (c :: a) b ≤ cost (d :: a) b + 1 := by
  induction b with
  | nil => simp
  | cons e b ih =>
    have hinsert : cost (c :: a) (e :: b) ≤ cost (c :: a) b + 1 := cost_cons_right_le e (c :: a) b
    have hdelete : cost (c :: a) (e :: b) ≤ cost a (e :: b) + 1 := cost_cons_left_le c a (e :: b)
    have hreplace : cost (c :: a) (e :: b) ≤ cost a b + 1 := by
      rw [cost_cons_cons]
      split <;> omega
    rw [cost_cons_cons d e]
    omega

theorem cost_cons_le_of_le (h : ∀ x, cost a x ≤ cost b x + 1) (c : Char) (x : List Char) :
    cost (c :: a) x ≤ cost (c :: b) x + 1 := by
  induction x with
  | nil => simpa using h []
  | cons d x ih =>
    have hdelete : cost a (d :: x) ≤ cost b (d :: x) + 1 := h (d :: x)
    have hreplace : cost a x ≤ cost b x + 1 := h x
    rw [cost_cons_cons, cost_cons_cons c d b x]
    omega

theorem cost_append_le_of_le (h : ∀ x, cost a x ≤ cost b x + 1) (before x : List Char) :
    cost (before ++ a) x ≤ cost (before ++ b) x + 1 := by
  induction before generalizing x with
  | nil => exact h x
  | cons c before ih => exact cost_cons_le_of_le ih c x

theorem cost_le_of_edit (h : Edit a b) (x : List Char) : cost a x ≤ cost b x + 1 := by
  cases h with
  | insert before after c => exact cost_append_le_of_le (cost_le_cons_left c after) before x
  | delete before after c => exact cost_append_le_of_le (cost_cons_left_le c after) before x
  | replace before after c d => exact cost_append_le_of_le (cost_replace_le c d after) before x

theorem cost_le_of_edits (h : Edits n a b) : cost a b ≤ n := by
  induction h with
  | none a => exact (cost_self a).le
  | next first _ ih => exact (cost_le_of_edit first _).trans (Nat.succ_le_succ ih)

/-- The texts may as well be read from their ends. -/
theorem cost_reverse (a b : List Char) : cost a.reverse b.reverse = cost a b := by
  apply Nat.le_antisymm
  · exact cost_le_of_edits (edits_cost a b).reverse
  · simpa using cost_le_of_edits (edits_cost a.reverse b.reverse).reverse

/-! ### Rows -/

/-- A row: the costs of one text against another one that grows at the front by the characters of a
third. -/
def costs (a b : List Char) : List Char → List Nat
  | [] => [cost a b]
  | d :: text => cost a b :: costs a (d :: b) text

theorem costs_eq_cons (a b text : List Char) :
    costs a b text = cost a b :: (costs a b text).tail := by
  cases text <;> rfl

theorem rowAfter_costs (c : Char) (a b text : List Char) :
    rowAfter c (cost (c :: a) b) text (costs a b text) = (costs (c :: a) b text).tail := by
  induction text generalizing b with
  | nil => rfl
  | cons d text ih =>
    -- The cell that has been filled last is the one to the left of the cells that are still open.
    have hrest : rowAfter c (cost (c :: a) (d :: b)) text (costs a (d :: b) text) =
        (costs (c :: a) (d :: b) text).tail := ih (d :: b)
    rw [costs, costs, List.tail_cons, costs_eq_cons (c :: a) (d :: b) text, ← hrest,
      costs_eq_cons a (d :: b) text, rowAfter, ← cost_cons_cons]

theorem nextRow_costs (c : Char) (a text : List Char) :
    nextRow c text (costs a [] text) = costs (c :: a) [] text := by
  have hcorner : cost a [] + 1 = cost (c :: a) [] := by simp
  rw [costs_eq_cons a, nextRow, ← costs_eq_cons, hcorner, rowAfter_costs, ← costs_eq_cons]

/-- Each row that is computed holds the costs of what has been read, its last character first. -/
theorem foldl_nextRow (read a text : List Char) :
    read.foldl (fun row c => nextRow c text row) (costs a [] text) =
      costs (read.reverse ++ a) [] text := by
  induction read generalizing a with
  | nil => rfl
  | cons c read ih =>
    rw [List.foldl_cons, nextRow_costs, ih]
    simp

theorem costs_nil (b text : List Char) :
    costs [] b text = List.range' b.length (text.length + 1) := by
  induction text generalizing b with
  | nil => simp [costs]
  | cons d text ih =>
    rw [costs, ih]
    simp [List.range'_succ]

theorem getLast?_costs (a b text : List Char) :
    (costs a b text).getLast? = some (cost a (text.reverse ++ b)) := by
  induction text generalizing b with
  | nil => rfl
  | cons d text ih =>
    have hrest : (costs a (d :: b) text).getLast? = some (cost a (text.reverse ++ d :: b)) :=
      ih (d :: b)
    rw [costs, List.getLast?_cons, hrest]
    simp

theorem distance_eq_cost (a b : List Char) : distance a b = cost a b := by
  have hfirst : List.range (b.length + 1) = costs [] [] b := by
    rw [costs_nil, List.range_eq_range', List.length_nil]
  rw [distance, hfirst, foldl_nextRow, getLast?_costs, Option.getD_some, List.append_nil,
    List.append_nil, cost_reverse]

/-- No fewer edits turn one text into the other than the distance says, and so many do. -/
theorem isLeast_distance (a b : List Char) : IsLeast {n | Edits n a b} (distance a b) := by
  rw [distance_eq_cost]
  exact ⟨edits_cost a b, fun _ h => cost_le_of_edits h⟩

example : distance "kitten".toList "sitting".toList = 3 := by decide

end Phrasebook.Text
