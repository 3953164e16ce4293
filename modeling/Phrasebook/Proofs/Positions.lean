import Mathlib.Data.List.Induction
import Mathlib.Data.String.Basic
import Phrasebook.Text.Position

/-!
Lines and columns against bytes: the bytes before a position are those of the text that stands
before it.
-/

namespace Phrasebook.Text.Position

variable {c : Char} {text rest : List Char}

theorem after_concat (text : List Char) (c : Char) : after (text ++ [c]) = (after text).next c :=
  List.foldl_concat next start c text

theorem line_after (text : List Char) : (after text).line = text.count '\n' + 1 := by
  induction text using List.reverseRecOn with
  | nil => rfl
  | append_singleton text c ih =>
    rw [after_concat, next]
    split
    · next hc => simp [ih, hc]
    · next hc => simp [ih, hc]

/-- A character in front moves a position down a line if it ends one, and else to the right, as long
as the position is still on that line. -/
theorem after_cons (c : Char) (text : List Char) : after (c :: text) =
    ⟨(after text).line + if c = '\n' then 1 else 0,
      (after text).column + if c = '\n' ∨ '\n' ∈ text then 0 else 1⟩ := by
  induction text using List.reverseRecOn with
  | nil => by_cases hc : c = '\n' <;> simp [after, next, start, hc]
  | append_singleton text d ih =>
    rw [← List.cons_append, after_concat, after_concat, ih]
    by_cases hd : d = '\n'
    · simp [next, hd]
      omega
    · have hmem : '\n' ∈ text ++ [d] ↔ '\n' ∈ text := by simp [Ne.symm hd]
      simp only [next, hd, if_false, hmem, Nat.add_right_comm]

theorem after_of_not_mem (h : '\n' ∉ text) : after text = ⟨1, 1 + text.length⟩ := by
  induction text with
  | nil => rfl
  | cons c text ih =>
    obtain ⟨hc, htext⟩ := not_or.1 (mt List.mem_cons.2 h)
    rw [after_cons, ih htext]
    simp [Ne.symm hc, htext, Nat.add_assoc]

theorem column_after_pos (text : List Char) : 0 < (after text).column := by
  cases text using List.reverseRecOn with
  | nil => decide
  | append_singleton text c =>
    rw [after_concat, next]
    split <;> exact Nat.succ_pos _

/-- The walk to the position behind a text passes over the text. -/
theorem offsetFrom_after (text rest : List Char) :
    offsetFrom ((after text).line - 1) ((after text).column - 1) (text ++ rest) =
      String.utf8Len text := by
  induction text with
  | nil => cases rest <;> simp [after, start, offsetFrom]
  | cons c text ih =>
    have hcolumn : 0 < (after text).column := column_after_pos text
    rw [line_after, Nat.add_sub_cancel] at ih
    rw [after_cons, line_after, List.cons_append, String.utf8Len_cons, ← ih,
      Nat.add_comm _ c.utf8Size]
    by_cases hc : c = '\n'
    · simp [hc, offsetFrom]
    · by_cases hmem : '\n' ∈ text
      · -- The position is on a later line, which the walk has yet to reach.
        obtain ⟨n, hn⟩ := Nat.exists_eq_add_of_lt (List.count_pos_iff.2 hmem)
        simp [hc, hmem, hn, offsetFrom]
      · have hn : text.count '\n' = 0 := List.count_eq_zero_of_not_mem hmem
        have hne : (after text).column ≠ 0 := Nat.pos_iff_ne_zero.1 hcolumn
        simp [hc, hmem, hn, hne, offsetFrom]

theorem takeBytes_append (text rest : List Char) :
    takeBytes (String.utf8Len text) (text ++ rest) = some text := by
  induction text with
  | nil => cases rest <;> rfl
  | cons c text ih =>
    have hc : 0 < c.utf8Size := c.utf8Size_pos
    rw [String.utf8Len_cons, List.cons_append, takeBytes, Nat.add_sub_cancel, ih,
      if_neg (Nat.not_lt.2 (Nat.le_add_left _ _))]
    · rfl
    · exact fun hzero => Nat.ne_of_gt (Nat.add_pos_right _ hc) hzero

/-- The bytes before the position behind a text are its own. -/
theorem offsetIn_after {source : String} (h : source.toList = text ++ rest) :
    (after text).offsetIn source = String.utf8Len text := by
  rw [offsetIn, h, offsetFrom_after]

/-- The position at those bytes is the one behind the text. -/
theorem at?_utf8Len {source : String} (h : source.toList = text ++ rest) :
    at? source (String.utf8Len text) = some (after text) := by
  rw [at?, h, takeBytes_append]
  rfl

/-- With no more characters to come than there are, a position is behind those before them. -/
theorem ahead_eq_after {left : Nat} (h : left ≤ text.length) :
    ahead (rest ++ text) left = after (rest ++ text.take (text.length - left)) := by
  rw [ahead, List.length_append, Nat.add_sub_assoc h, List.take_length_add_append]

end Phrasebook.Text.Position
