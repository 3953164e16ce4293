import Mathlib.Data.List.Infix
import Phrasebook.Proofs.Positions

/-!
Lines and columns as a code for offsets. Along the boundaries of a text's characters positions
increase, each leads back to its offset, and any position at all, in the text or not, leads to a
boundary.
-/

namespace Phrasebook.Text

/-- No character of the text lies on both sides of the offset. -/
def IsBoundary (source : String) (offset : Nat) : Prop :=
  (⟨offset⟩ : String.Pos.Raw).IsValid source

instance (source : String) (offset : Nat) : Decidable (IsBoundary source offset) :=
  inferInstanceAs (Decidable ((⟨offset⟩ : String.Pos.Raw).IsValid source))

/-- A boundary has a part of the text before it. -/
theorem isBoundary_iff {source : String} {offset : Nat} : IsBoundary source offset ↔
    ∃ text rest, source.toList = text ++ rest ∧ String.utf8Len text = offset := by
  rw [IsBoundary, String.Pos.Raw.isValid_iff_exists_append]
  constructor
  · rintro ⟨before, after, rfl, he⟩
    refine ⟨before.toList, after.toList, String.toList_append, ?_⟩
    rw [← String.utf8ByteSize_ofList, String.ofList_toList]
    exact (congrArg String.Pos.Raw.byteIdx he).symm
  · rintro ⟨text, rest, hsource, rfl⟩
    refine ⟨.ofList text, .ofList rest, String.toList_injective ?_, ?_⟩
    · rw [String.toList_append, String.toList_ofList, String.toList_ofList, hsource]
    · rw [← String.utf8ByteSize_ofList]
      rfl

theorem IsBoundary.le_utf8ByteSize {source : String} {offset : Nat} (h : IsBoundary source offset) :
    offset ≤ source.utf8ByteSize :=
  h.le_rawEndPos

namespace Position

variable {source : String} {text more : List Char} {offset : Nat}

/-! ### From offsets to positions -/

/-- Only an offset within a character has no characters before it. -/
theorem of_takeBytes {before : List Char} (h : takeBytes offset text = some before) :
    (∃ rest, text = before ++ rest) ∧
      (String.utf8Len before = offset ∨ before = text ∧ String.utf8Len text < offset) := by
  fun_induction takeBytes offset text generalizing before with
  | case1 text =>
    cases h
    exact ⟨⟨text, rfl⟩, .inl rfl⟩
  | case2 offset hne =>
    cases h
    exact ⟨⟨[], rfl⟩, .inr ⟨rfl, Nat.pos_of_ne_zero hne⟩⟩
  | case3 => cases h
  | case4 offset c rest hne hlt ih =>
    obtain ⟨before, hb, rfl⟩ := Option.map_eq_some_iff.1 h
    obtain ⟨⟨after, hafter⟩, hlength⟩ := ih hb
    refine ⟨⟨after, congrArg (c :: ·) hafter⟩, ?_⟩
    rw [String.utf8Len_cons, String.utf8Len_cons]
    rcases hlength with hlength | ⟨rfl, hlength⟩
    · exact .inl (by omega)
    · exact .inr ⟨rfl, by omega⟩

theorem takeBytes_of_le (h : String.utf8Len text ≤ offset) : takeBytes offset text = some text := by
  induction text generalizing offset with
  | nil => cases offset <;> rfl
  | cons c rest ih =>
    rw [String.utf8Len_cons] at h
    have hc : 0 < c.utf8Size := c.utf8Size_pos
    rw [takeBytes, if_neg (by omega), ih (by omega)]
    · rfl
    · omega

/-- Every offset has a position, except within a character. -/
theorem isSome_at?_iff : (at? source offset).isSome ↔
    IsBoundary source offset ∨ source.utf8ByteSize < offset := by
  rw [at?, Option.isSome_map, isBoundary_iff]
  constructor
  · intro h
    obtain ⟨before, hb⟩ := Option.isSome_iff_exists.1 h
    obtain ⟨⟨rest, hrest⟩, hlength | ⟨rfl, hlength⟩⟩ := of_takeBytes hb
    · exact .inl ⟨before, rest, hrest, hlength⟩
    · rw [← String.utf8ByteSize_ofList, String.ofList_toList] at hlength
      exact .inr hlength
  · rintro (⟨text, rest, hsource, rfl⟩ | h)
    · rw [hsource, takeBytes_append]
      rfl
    · rw [← String.ofList_toList (s := source), String.utf8ByteSize_ofList] at h
      rw [takeBytes_of_le h.le]
      rfl

protected theorem lt_trans {p q r : Position} (hpq : p < q) (hqr : q < r) : p < r := by
  change Position.lt _ _ at *
  unfold Position.lt at *
  omega

theorem lt_next (p : Position) (c : Char) : p < p.next c := by
  unfold next
  split
  · exact .inl (Nat.lt_succ_self _)
  · exact .inr ⟨rfl, Nat.lt_succ_self _⟩

/-- More text leads to a later position. -/
theorem after_lt_append (h : more ≠ []) : after text < after (text ++ more) := by
  induction more using List.reverseRecOn with
  | nil => exact absurd rfl h
  | append_singleton more c ih =>
    rw [← List.append_assoc, after_concat]
    by_cases hmore : more = []
    · rw [hmore, List.append_nil]
      exact lt_next _ c
    · exact Position.lt_trans (ih hmore) (lt_next _ c)

theorem after_lt {text' rest rest' : List Char} (h : text ++ rest = text' ++ rest')
    (hlt : String.utf8Len text < String.utf8Len text') : after text < after text' := by
  have hprefix : text <+: text' ∨ text' <+: text :=
    List.prefix_or_prefix_of_prefix ⟨rest, h⟩ ⟨rest', rfl⟩
  obtain ⟨more, rfl⟩ := hprefix.resolve_right fun hp =>
    Nat.not_lt.2 (String.utf8Len_le_of_prefix hp) hlt
  refine after_lt_append fun hmore => ?_
  rw [hmore, List.append_nil] at hlt
  exact Nat.lt_irrefl _ hlt

/-! ### From positions to offsets -/

/-- The walk to a position, wherever it ends, passes over whole characters. -/
theorem exists_offsetFrom (lines columns : Nat) (text : List Char) : ∃ before rest,
    text = before ++ rest ∧ String.utf8Len before = offsetFrom lines columns text := by
  fun_induction offsetFrom lines columns text with
  | case1 => exact ⟨[], [], rfl, rfl⟩
  | case2 columns c rest => exact ⟨[], c :: rest, rfl, rfl⟩
  | case3 columns c rest _ ih =>
    obtain ⟨before, after, rfl, hlength⟩ := ih
    exact ⟨c :: before, after, rfl, by rw [String.utf8Len_cons, hlength, Nat.add_comm]⟩
  | case4 lines columns c rest ih =>
    obtain ⟨before, after, rfl, hlength⟩ := ih
    exact ⟨c :: before, after, rfl, by rw [String.utf8Len_cons, hlength, Nat.add_comm]⟩

theorem isBoundary_offsetIn (p : Position) (source : String) :
    IsBoundary source (p.offsetIn source) :=
  isBoundary_iff.2 (exists_offsetFrom _ _ _)

/-- Positions encode the boundaries: they increase with them and lead back to them. Any position
leads to a boundary, which has a position again. -/
theorem positions_encode_offsets (source : String) :
    (∀ offset other, IsBoundary source offset → IsBoundary source other → offset < other →
      ∃ p q, at? source offset = some p ∧ at? source other = some q ∧ p < q) ∧
    (∀ offset, IsBoundary source offset →
      ∃ p, at? source offset = some p ∧ p.offsetIn source = offset) ∧
    ∀ p : Position, IsBoundary source (p.offsetIn source) ∧
      p.offsetIn source ≤ source.utf8ByteSize ∧ (at? source (p.offsetIn source)).isSome := by
  refine ⟨?_, ?_, fun p => ?_⟩
  · intro offset other ho ho' hlt
    obtain ⟨text, rest, hsource, rfl⟩ := isBoundary_iff.1 ho
    obtain ⟨text', rest', hsource', rfl⟩ := isBoundary_iff.1 ho'
    exact ⟨after text, after text', at?_utf8Len hsource, at?_utf8Len hsource',
      after_lt (hsource.symm.trans hsource') hlt⟩
  · intro offset ho
    obtain ⟨text, rest, hsource, rfl⟩ := isBoundary_iff.1 ho
    exact ⟨after text, at?_utf8Len hsource, offsetIn_after hsource⟩
  · have hboundary : IsBoundary source (p.offsetIn source) := isBoundary_offsetIn p source
    exact ⟨hboundary, hboundary.le_utf8ByteSize, isSome_at?_iff.2 (.inl hboundary)⟩

/-- The end of a line and the beginning of the next, behind a letter of two bytes, and a column that
the text does not have. -/
theorem positions_encode_offsets_accent :
    (IsBoundary "é\n" 2 ∧ IsBoundary "é\n" 3 ∧ ¬ IsBoundary "é\n" 1) ∧
      (∃ p q, at? "é\n" 2 = some p ∧ at? "é\n" 3 = some q ∧ p < q) ∧
      (∃ p, at? "é\n" 3 = some p ∧ p.offsetIn "é\n" = 3) ∧
      offsetIn ⟨1, 9⟩ "é\n" = 2 ∧ IsBoundary "é\n" (offsetIn ⟨1, 9⟩ "é\n") := by
  have h : IsBoundary "é\n" 2 ∧ IsBoundary "é\n" 3 ∧ ¬ IsBoundary "é\n" 1 := by decide
  obtain ⟨increase, back, clamp⟩ := positions_encode_offsets "é\n"
  exact ⟨h, increase 2 3 h.1 h.2.1 (by decide), back 3 h.2.1, by decide, (clamp ⟨1, 9⟩).1⟩

end Position

end Phrasebook.Text
