import Mathlib.Data.String.Basic
import Phrasebook.Text.Blank
import Phrasebook.Text.Segment

/-!
Texts taken apart and put together: at their dots, and from the blanks around them.
-/

namespace Phrasebook.Text

/-! ### Dots -/

section

variable {separator : Char} {text head rest : List Char}

theorem cutFirst_of_not_mem (h : separator ∉ text) : cutFirst separator text = (text, none) := by
  induction text with
  | nil => rfl
  | cons c rest ih =>
    obtain ⟨hc, hrest⟩ := not_or.1 (mt List.mem_cons.2 h)
    rw [cutFirst, if_neg (Ne.symm hc), ih hrest]

theorem cutFirst_append (h : separator ∉ head) :
    cutFirst separator (head ++ separator :: rest) = (head, some rest) := by
  induction head with
  | nil => exact if_pos rfl
  | cons c head ih =>
    obtain ⟨hc, hhead⟩ := not_or.1 (mt List.mem_cons.2 h)
    rw [List.cons_append, cutFirst, if_neg (Ne.symm hc), ih hhead]

theorem cutAll_eq_splitOn : cutAll separator text = text.splitOn separator := by
  induction text with
  | nil => rfl
  | cons c rest ih =>
    rw [cutAll, List.splitOn_cons_eq_if_modifyHead, ih]
    by_cases hc : c = separator
    · rw [if_pos hc, if_pos (by simpa using hc)]
    · rw [if_neg hc, if_neg (by simpa using hc)]
      cases hpieces : rest.splitOn separator with
      | nil => exact absurd hpieces (List.splitOn_ne_nil separator rest)
      | cons piece pieces => rfl

end

theorem joinSegments_segments (text : String) : joinSegments (segments text) = text := by
  apply String.toList_injective
  rw [joinSegments, String.toList_intercalate, segments, List.map_map, cutAll_eq_splitOn]
  simp [List.intercalate_splitOn]

theorem segments_joinSegments {pieces : List String} (hne : pieces ≠ [])
    (hdots : ∀ piece ∈ pieces, '.' ∉ piece.toList) : segments (joinSegments pieces) = pieces := by
  rw [joinSegments, segments, String.toList_intercalate, cutAll_eq_splitOn]
  change ((['.'].intercalate (pieces.map String.toList)).splitOn '.').map String.ofList = pieces
  rw [List.splitOn_intercalate '.' (by simpa using hdots) (by simpa using hne), List.map_map]
  simp

/-- A dot ends a piece, whatever stands around it. -/
theorem segments_append (before after : String) :
    segments (before ++ "." ++ after) = segments before ++ segments after := by
  have htext : (before ++ "." ++ after).toList = before.toList ++ '.' :: after.toList := by
    simp
  rw [segments, htext, cutAll_eq_splitOn, List.splitOn_append_cons_self, List.map_append,
    ← cutAll_eq_splitOn, ← cutAll_eq_splitOn]
  rfl

/-! ### Blanks -/

section

variable {before middle after text : List Char}

theorem skipBlanks_append (hb : ∀ c ∈ before, isBlank c) :
    skipBlanks (before ++ text) = skipBlanks text :=
  List.dropWhile_append_of_pos hb

theorem skipBlanks_cons {c : Char} (hc : isBlank c = false) :
    skipBlanks (c :: text) = c :: text :=
  List.dropWhile_cons_of_neg (by simp [hc])

theorem skipBlanks_eq_self (h : ∀ c ∈ text, isBlank c = false) : skipBlanks text = text := by
  cases text with
  | nil => rfl
  | cons c rest => exact skipBlanks_cons (h c List.mem_cons_self)

theorem trim_append (hb : ∀ c ∈ before, isBlank c) (hm : ∀ c ∈ middle, isBlank c = false)
    (ha : ∀ c ∈ after, isBlank c) : trim (before ++ middle ++ after) = middle := by
  rw [trim, List.append_assoc, skipBlanks_append hb]
  cases middle with
  | nil =>
    have hnone : skipBlanks (after ++ []) = [] := skipBlanks_append ha
    rw [List.append_nil] at hnone
    rw [List.nil_append, hnone]
    rfl
  | cons c cs =>
    have hback : skipBlanks (c :: cs ++ after).reverse = (c :: cs).reverse := by
      rw [List.reverse_append, skipBlanks_append (by simpa using ha)]
      exact skipBlanks_eq_self fun c hc => hm c (List.mem_reverse.1 hc)
    rw [List.cons_append, skipBlanks_cons (hm c List.mem_cons_self), ← List.cons_append, hback,
      List.reverse_reverse]

theorem trim_eq_self (h : ∀ c ∈ text, isBlank c = false) : trim text = text := by
  have htrim := @trim_append [] text [] nofun h nofun
  rwa [List.append_nil] at htrim

theorem exists_trim (text : List Char) : ∃ before after, text = before ++ trim text ++ after ∧
    (∀ c ∈ before, isBlank c) ∧ ∀ c ∈ after, isBlank c := by
  have hblank (text : List Char) : ∀ c ∈ text.takeWhile isBlank, isBlank c :=
    List.all_eq_true.1 List.all_takeWhile
  refine ⟨text.takeWhile isBlank, ((skipBlanks text).reverse.takeWhile isBlank).reverse, ?_,
    hblank text, fun c hc => hblank _ c (List.mem_reverse.1 hc)⟩
  rw [trim, List.append_assoc, ← List.reverse_append, skipBlanks, skipBlanks,
    List.takeWhile_append_dropWhile, List.reverse_reverse, List.takeWhile_append_dropWhile]

end

end Phrasebook.Text
