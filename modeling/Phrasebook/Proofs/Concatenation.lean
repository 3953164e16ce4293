import Phrasebook.Proofs.Faults
import Phrasebook.Proofs.Positions

/-!
Templates written one behind the other. A text that can be read is read the same with more text
behind it, whatever that is: no brace of it pairs with one that follows, and no hole or verbatim
span is still open at its end.
-/

namespace Phrasebook.Template

open Text Template.Grammar

/-! ### Segments -/

/-- Segments one behind the other. A literal that ends the first joins one that starts the
second. -/
def join : List Segment → List Segment → List Segment
  | [], rest => rest
  | [.literal text], .literal more :: rest => .literal (text ++ more) :: rest
  | segment :: segments, rest => segment :: join segments rest

section

variable {segment : Segment} {segments rest : List Segment}

theorem pieces_join (segments rest : List Segment) :
    pieces ⟨join segments rest⟩ = pieces ⟨segments ++ rest⟩ := by
  fun_induction join segments rest with
  | case1 => rfl
  | case2 text more rest => simp
  | case3 segment segments rest _ ih =>
    cases segment with
    | literal text => rw [List.cons_append, pieces_literal, pieces_literal, ih]
    | interpolation hole => rw [List.cons_append, pieces_interpolation, pieces_interpolation, ih]

theorem startsApart_join (hs : StartsApart segments) (hne : segments ≠ []) (rest : List Segment) :
    StartsApart (join segments rest) := by
  cases segments with
  | nil => exact absurd rfl hne
  | cons segment segments =>
    cases segment with
    | literal text => exact absurd rfl (hs text segments)
    | interpolation hole =>
      rw [join]
      · exact startsApart_interpolation hole
      · exact nofun

theorem tidy_join (hs : Tidy segments) (hr : Tidy rest) : Tidy (join segments rest) := by
  fun_induction join segments rest with
  | case1 => exact hr
  | case2 text more rest =>
    refine hr.tail.literal hr.startsApart fun he => ?_
    have htext : text = "" := (String.append_eq_empty_iff.1 he).1
    exact hs.nonempty (htext ▸ List.mem_cons_self)
  | case3 segment segments rest hseam ih =>
    have hjoin := ih hs.tail hr
    cases segment with
    | interpolation hole => exact hjoin.interpolation hole
    | literal text =>
      have htext : text ≠ "" := fun he => hs.nonempty (he ▸ List.mem_cons_self)
      refine hjoin.literal ?_ htext
      by_cases hne : segments = []
      · subst hne
        rw [join]
        exact fun more rest' hrest => hseam text more rest' hrest rfl rfl
      · exact startsApart_join hs.startsApart hne rest

end

/-! ### Reading -/

section

variable {x y : String} {s t : Template} {e : ParseError}

/-- A reading is that of the scanned pieces, and a fault is reported with so many characters to
come. -/
theorem parse_eq_error : parse x = .error e ↔ ∃ fault, scan x.toList = .error fault ∧
    e = ⟨fault.cause, Position.ahead x.toList fault.left⟩ := by
  unfold parse
  cases scan x.toList with
  | ok pieces => simp
  | error fault => simp [eq_comm]

theorem scan_append_of_parse (hx : parse x = .ok s) :
    Tidy s.segments ∧ scan (x ++ y).toList = (scan y.toList).map (pieces s ++ ·) := by
  obtain ⟨segments, hs, hm⟩ := parse_eq_ok.1 hx
  refine ⟨hm.toTidy, ?_⟩
  rw [String.toList_append, scan_append_of_segments hs, ← hm.pieces]

theorem parse_append_of_ok (hx : parse x = .ok s) (hy : parse y = .ok t) :
    parse (x ++ y) = .ok ⟨join s.segments t.segments⟩ := by
  obtain ⟨hs, hscan⟩ := scan_append_of_parse (y := y) hx
  obtain ⟨segments, hseg, hm⟩ := parse_eq_ok.1 hy
  rw [scan_eq_ok.2 ⟨segments, hseg, rfl⟩, ← hm.pieces] at hscan
  have hjoin : Merged (s.segments ++ t.segments) (join s.segments t.segments) :=
    ⟨tidy_join hs hm.toTidy, pieces_join _ _⟩
  have happend : pieces ⟨s.segments ++ t.segments⟩ = pieces s ++ pieces t := List.flatMap_append
  rw [merged_iff, happend] at hjoin
  rw [parse, hscan]
  exact congrArg Except.ok hjoin

/-- The fault of the second text is found again, as many bytes further on as the first text has. -/
theorem parse_append_of_error (hx : parse x = .ok s) (hy : parse y = .error e) :
    ∃ position, Position.at? (x ++ y) (x.utf8ByteSize + e.position.offsetIn y) = some position ∧
      parse (x ++ y) = .error ⟨e.cause, position⟩ := by
  obtain ⟨fault, hf, rfl⟩ := parse_eq_error.1 hy
  have hleft : fault.left ≤ y.toList.length := scan_within _ fault hf
  obtain ⟨before, after, hbefore, hy'⟩ : ∃ before after,
      before = y.toList.take (y.toList.length - fault.left) ∧ y.toList = before ++ after :=
    ⟨_, _, rfl, (List.take_append_drop _ _).symm⟩
  have hoffset : (Position.ahead y.toList fault.left).offsetIn y = String.utf8Len before := by
    have := @Position.ahead_eq_after _ [] _ hleft
    rw [List.nil_append, List.nil_append, ← hbefore] at this
    rw [this, Position.offsetIn_after hy']
  have hx' : x.utf8ByteSize = String.utf8Len x.toList := by
    rw [← String.utf8ByteSize_ofList, String.ofList_toList]
  have hxy : (x ++ y).toList = (x.toList ++ before) ++ after := by
    rw [String.toList_append, hy', List.append_assoc]
  refine ⟨Position.after (x.toList ++ before), ?_, parse_eq_error.2 ⟨fault, ?_, ?_⟩⟩
  · rw [hoffset, hx', ← String.utf8Len_append, Position.at?_utf8Len hxy]
  · rw [(scan_append_of_parse hx).2, hf]
    rfl
  · rw [String.toList_append, Position.ahead_eq_after hleft, hbefore]

/-- Templates can be put together: behind a text that can be read, a second text means what it means
alone, and fails as it fails alone, at the same byte of it. -/
theorem parse_append (hx : parse x = .ok s) :
    (∀ t, parse y = .ok t → parse (x ++ y) = .ok ⟨join s.segments t.segments⟩) ∧
    ∀ e, parse y = .error e → ∃ position,
      Position.at? (x ++ y) (x.utf8ByteSize + e.position.offsetIn y) = some position ∧
        parse (x ++ y) = .error ⟨e.cause, position⟩ :=
  ⟨fun _ hy => parse_append_of_ok hx hy, fun _ hy => parse_append_of_error hx hy⟩

end

/-- Braces on the two sides of a seam do not pair, and a fault behind a line end and an accented
letter is found at its own place. -/
theorem parse_append_braces :
    parse "a\n\x7d\x7d" = .ok ⟨[.literal "a\n\x7d"]⟩ ∧
    parse ("a\n\x7d\x7d" ++ "\x7d\x7d\x7b$n\x7d") =
      .ok ⟨[.literal "a\n\x7d\x7d", .interpolation ⟨none, .parameter "n", []⟩]⟩ ∧
    parse ("a\n\x7d\x7d" ++ "é\x7b:n\x7d") = .error ⟨.unknownDirective "n", ⟨2, 5⟩⟩ := by
  have hx : parse "a\n\x7d\x7d" = .ok ⟨[.literal "a\n\x7d"]⟩ := by decide +kernel
  have hy : parse "\x7d\x7d\x7b$n\x7d" =
      .ok ⟨[.literal "\x7d", .interpolation ⟨none, .parameter "n", []⟩]⟩ := by decide +kernel
  have he : parse "é\x7b:n\x7d" = .error ⟨.unknownDirective "n", ⟨1, 3⟩⟩ := by decide +kernel
  refine ⟨hx, (parse_append hx).1 _ hy, ?_⟩
  obtain ⟨position, hp, h⟩ := (parse_append hx).2 _ he
  have hplace : Position.at? ("a\n\x7d\x7d" ++ "é\x7b:n\x7d") ("a\n\x7d\x7d".utf8ByteSize +
      (⟨1, 3⟩ : Position).offsetIn "é\x7b:n\x7d") = some ⟨2, 5⟩ := by decide +kernel
  cases hp.symm.trans hplace
  exact h

end Phrasebook.Template
