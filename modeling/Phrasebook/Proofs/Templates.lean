import Phrasebook.Proofs.Holes
import Phrasebook.Template.Parser

/-!
Reading templates. A text is read exactly when the grammar cuts it into segments, and then as those
segments with adjacent literals merged and empty ones left out.
-/

namespace Phrasebook.Template

open Text Template.Grammar

/-! ### Spans -/

section

variable {text inside after : List Char}

/-- What follows the first closing brace does not matter to what stands first. -/
theorem singleton_prefix_iff {rest : List Char} :
    ['}'] <+: inside ++ ['}'] ↔ ∃ more, inside ++ '}' :: rest = '}' :: more := by
  cases inside with
  | nil => simp
  | cons c more => simp [List.cons_prefix_cons, eq_comm]

/-- A verbatim span ends at the first two closing braces. -/
theorem verbatim?_eq_some : verbatim? text = some (inside, after) ↔
    text = inside ++ '}' :: '}' :: after ∧ ¬ ['}', '}'] <:+: inside ++ ['}'] := by
  constructor
  · intro h
    fun_induction verbatim? text generalizing inside after with
    | case1 => cases h
    | case2 rest =>
      cases h
      exact ⟨rfl, by decide⟩
    | case3 c rest hne ih =>
      obtain ⟨⟨more, after⟩, hv, he⟩ := Option.map_eq_some_iff.1 h
      cases he
      obtain ⟨rfl, hfirst⟩ := ih hv
      refine ⟨rfl, fun hi => ?_⟩
      rcases List.infix_cons_iff.1 hi with hp | hi
      · obtain ⟨rfl, hbrace⟩ := List.cons_prefix_cons.1 hp
        obtain ⟨rest, hr⟩ := singleton_prefix_iff.1 hbrace
        exact hne rest rfl hr
      · exact hfirst hi
  · rintro ⟨rfl, hfirst⟩
    induction inside with
    | nil => rfl
    | cons c more ih =>
      have hmore := ih fun hi => hfirst (List.infix_cons hi)
      have hne (rest : List Char) (hc : c = '}') :
          more ++ '}' :: '}' :: after = '}' :: rest → False := by
        subst hc
        intro hr
        refine hfirst (List.infix_cons_iff.2 (.inl (List.cons_prefix_cons.2 ⟨rfl, ?_⟩)))
        exact singleton_prefix_iff.2 ⟨rest, hr⟩
      rw [List.cons_append, verbatim?.eq_3 _ _ hne, hmore]
      rfl

/-- Are quotes open behind these characters? -/
def opened (quoted : Bool) (before : List Char) : Bool :=
  quoted ^^ (before.count '"' % 2 == 1)

@[simp] theorem opened_nil (quoted : Bool) : opened quoted [] = quoted := by
  simp [opened]

theorem opened_cons (quoted : Bool) (c : Char) (before : List Char) :
    opened quoted (c :: before) = opened (quoted ^^ c = '"') before := by
  by_cases hc : c = '"'
  · rw [opened, opened, hc, List.count_cons_self]
    rcases Nat.mod_two_eq_zero_or_one (before.count '"') with h | h
    · simp [h, Nat.add_mod]
    · simp [h, Nat.add_mod]
  · rw [opened, opened, List.count_cons_of_ne hc]
    simp [hc]

theorem outside_iff {before : List Char} : Outside before ↔ opened false before = false := by
  rw [Outside, opened]
  rcases Nat.mod_two_eq_zero_or_one (before.count '"') with h | h
  · simp [h]
  · simp [h]

/-- A hole ends at the first closing brace behind which no quotes are open. -/
theorem hole?_eq_some {quoted : Bool} : hole? quoted text = some (inside, after) ↔
    text = inside ++ '}' :: after ∧ opened quoted inside = false ∧
      ∀ before rest, inside = before ++ '}' :: rest → opened quoted before = true := by
  constructor
  · intro h
    induction text generalizing quoted inside with
    | nil => cases h
    | cons c text ih =>
      rw [hole?] at h
      split at h
      · next hc =>
        obtain ⟨rfl, rfl⟩ := hc
        cases h
        exact ⟨rfl, rfl, fun before rest hb => by simp at hb⟩
      · next hc =>
        obtain ⟨⟨more, after⟩, hm, he⟩ := Option.map_eq_some_iff.1 h
        cases he
        obtain ⟨rfl, hopened, hfirst⟩ := ih hm
        refine ⟨rfl, by rw [opened_cons, hopened], fun before rest hb => ?_⟩
        cases before with
        | nil =>
          cases hb
          simpa using hc
        | cons d before =>
          cases hb
          rw [opened_cons]
          exact hfirst before rest rfl
  · rintro ⟨rfl, hopened, hfirst⟩
    induction inside generalizing quoted with
    | nil =>
      rw [opened_nil] at hopened
      simp [hole?, hopened]
    | cons c more ih =>
      have hc : ¬ (c = '}' ∧ quoted = false) := by
        rintro ⟨rfl, rfl⟩
        cases hfirst [] more rfl
      rw [opened_cons] at hopened
      rw [List.cons_append, hole?, if_neg hc, ih hopened fun before rest hb => ?_]
      · rfl
      · rw [← opened_cons]
        exact hfirst (c :: before) rest (by rw [hb]; rfl)

theorem hole?_eq_some_iff_enclosed :
    hole? false text = some (inside, after) ↔ text = inside ++ '}' :: after ∧ Enclosed inside := by
  rw [hole?_eq_some]
  constructor
  · rintro ⟨ht, hopened, hfirst⟩
    refine ⟨ht, outside_iff.2 hopened, fun before rest hb ho => ?_⟩
    rw [outside_iff, hfirst before rest hb] at ho
    cases ho
  · rintro ⟨ht, ho, hfirst⟩
    refine ⟨ht, outside_iff.1 ho, fun before rest hb => ?_⟩
    have hopen := hfirst before rest hb
    rwa [outside_iff, Bool.not_eq_false] at hopen

end

/-! ### Segments -/

section

variable {text rest : List Char} {found : List Piece} {segments : List Segment}

@[simp] theorem pieces_nil : pieces ⟨[]⟩ = [] := rfl

@[simp] theorem pieces_literal (s : String) :
    pieces ⟨.literal s :: segments⟩ = s.toList.map .char ++ pieces ⟨segments⟩ := rfl

@[simp] theorem pieces_interpolation (hole : Interpolation) :
    pieces ⟨.interpolation hole :: segments⟩ = .hole hole :: pieces ⟨segments⟩ := rfl

/-- A character that is no brace stands for itself. -/
theorem scan_cons {c : Char} (hopen : c ≠ '{') (hclose : c ≠ '}') (text : List Char) :
    scan (c :: text) = (scan text).map (Piece.char c :: ·) := by
  rw [scan]
  · rfl
  · exact fun _ hc _ => hopen hc
  · exact hopen
  · exact fun _ hc _ => hclose hc
  · exact hclose

theorem scan_append (hopen : '{' ∉ text) (hclose : '}' ∉ text) (rest : List Char) :
    scan (text ++ rest) = (scan rest).map (text.map Piece.char ++ ·) := by
  induction text with
  | nil => exact (congrFun Except.map_id (scan rest)).symm
  | cons c text ih =>
    rw [List.mem_cons, not_or] at hopen hclose
    rw [List.cons_append, scan_cons (Ne.symm hopen.1) (Ne.symm hclose.1), ih hopen.2 hclose.2]
    cases scan rest <;> rfl

/-- A hole does not start with another brace, which would open a verbatim span. -/
theorem Grammar.Hole.ne_brace {content : List Char} {hole : Interpolation} (h : Hole content hole)
    (text : List Char) : content ++ '}' :: rest ≠ '{' :: text := by
  intro ht
  cases content with
  | nil => cases ht
  | cons c more =>
    cases ht
    have hread : Template.interpolation ('{' :: more) =
        malformed .referenceName ('{' :: more) := rfl
    cases hread.symm.trans (interpolation_eq_ok.2 h)

/-- What is scanned has segments. -/
theorem segments_of_scan (h : scan text = .ok found) :
    ∃ segments, Segments text segments ∧ found = pieces ⟨segments⟩ := by
  fun_induction scan text generalizing found with
  | case1 =>
    cases h
    exact ⟨[], .nil, rfl⟩
  | case2 => cases h
  | case3 text inside after hv this ih =>
    obtain ⟨more, hm, he⟩ := bind_eq_ok.1 h
    cases he
    obtain ⟨segments, hs, rfl⟩ := ih hm
    obtain ⟨rfl, hfirst⟩ := verbatim?_eq_some.1 hv
    exact ⟨_, .verbatim hfirst hs, by simp⟩
  | case4 => cases h
  | case5 text hne inside after hh this ih =>
    obtain ⟨hole, hi, h⟩ := bind_eq_ok.1 h
    obtain ⟨more, hm, he⟩ := bind_eq_ok.1 h
    cases he
    obtain ⟨segments, hs, rfl⟩ := ih hm
    obtain ⟨rfl, henclosed⟩ := hole?_eq_some_iff_enclosed.1 hh
    have hhole := interpolation_eq_ok.1 (mapError_eq_ok.1 hi)
    exact ⟨_, .hole henclosed hhole hs, rfl⟩
  | case6 text ih =>
    obtain ⟨more, hm, he⟩ := bind_eq_ok.1 h
    cases he
    obtain ⟨segments, hs, rfl⟩ := ih hm
    exact ⟨_, .brace hs, by simp⟩
  | case7 => cases h
  | case8 c text _ hopen _ hclose ih =>
    obtain ⟨more, hm, he⟩ := bind_eq_ok.1 h
    cases he
    obtain ⟨segments, hs, rfl⟩ := ih hm
    -- One character is a run: runs may be cut anywhere, since literals are merged.
    have hrun : Segments ([c] ++ text) (.literal (String.ofList [c]) :: segments) := by
      refine .run (List.cons_ne_nil c []) ?_ ?_ hs
      · exact fun hc => hopen (List.mem_singleton.1 hc).symm
      · exact fun hc => hclose (List.mem_singleton.1 hc).symm
    exact ⟨_, hrun, by simp⟩

/-- What a text that can be read means does not depend on the text behind it. -/
theorem scan_append_of_segments (h : Segments text segments) (rest : List Char) :
    scan (text ++ rest) = (scan rest).map (pieces ⟨segments⟩ ++ ·) := by
  induction h with
  | nil => exact (congrFun Except.map_id (scan rest)).symm
  | run hne hopen hclose hs ih =>
    rw [List.append_assoc, scan_append hopen hclose, ih]
    cases scan rest <;> simp [Except.map]
  | brace hs ih =>
    rw [List.cons_append, List.cons_append, scan, ih]
    cases scan rest <;> rfl
  | @verbatim content after segments hfirst hs ih =>
    have hv : verbatim? _ = some (_, after ++ rest) := verbatim?_eq_some.2 ⟨rfl, hfirst⟩
    simp only [List.cons_append, List.append_assoc]
    rw [scan]
    split
    · next hnone => cases hnone.symm.trans hv
    · next h =>
      cases h.symm.trans hv
      rw [ih]
      cases scan rest <;> simp [Except.map, bind, Except.bind, pure, Except.pure]
  | @hole content after hole segments he hh hs ih =>
    have hv : hole? false _ = some (_, after ++ rest) := hole?_eq_some_iff_enclosed.2 ⟨rfl, he⟩
    simp only [List.cons_append, List.append_assoc]
    rw [scan]
    · split
      · next hnone => cases hnone.symm.trans hv
      · next h =>
        cases h.symm.trans hv
        rw [ih, interpolation_eq_ok.2 hh]
        cases scan rest <;> rfl
    · intro text ht
      exact hh.ne_brace _ ht

theorem scan_eq_ok : scan text = .ok found ↔
    ∃ segments, Segments text segments ∧ found = pieces ⟨segments⟩ := by
  constructor
  · exact segments_of_scan
  · rintro ⟨segments, h, rfl⟩
    have hscan := scan_append_of_segments h []
    rw [List.append_nil, scan] at hscan
    rw [hscan]
    simp [Except.map]

end

/-! ### Literals -/

section

variable {segments rest : List Segment} {pending : List Char} {found : List Piece}

/-- Segments of which the first is no literal. -/
def StartsApart (segments : List Segment) : Prop :=
  ∀ text rest, segments ≠ .literal text :: rest

theorem startsApart_nil : StartsApart [] :=
  fun _ _ h => by cases h

theorem startsApart_interpolation (hole : Interpolation) :
    StartsApart (.interpolation hole :: rest) :=
  fun _ _ h => by cases h

theorem Grammar.Tidy.nil : Tidy [] :=
  ⟨List.not_mem_nil, fun _ _ h => by simp at h⟩

theorem Grammar.Tidy.interpolation (h : Tidy rest) (hole : Interpolation) :
    Tidy (.interpolation hole :: rest) := by
  refine ⟨?_, fun a b hi => ?_⟩
  · simp [h.nonempty]
  · rcases List.infix_cons_iff.1 hi with hp | hi
    · cases (List.cons_prefix_cons.1 hp).1
    · exact h.apart a b hi

theorem Grammar.Tidy.literal (h : Tidy rest) (hr : StartsApart rest) {text : String}
    (ht : text ≠ "") : Tidy (.literal text :: rest) := by
  refine ⟨?_, fun a b hi => ?_⟩
  · simp [h.nonempty, ht.symm]
  · rcases List.infix_cons_iff.1 hi with hp | hi
    · obtain ⟨more, hm⟩ := (List.cons_prefix_cons.1 hp).2
      exact hr b more hm.symm
    · exact h.apart a b hi

theorem Grammar.Tidy.tail {segment : Segment} (h : Tidy (segment :: rest)) : Tidy rest :=
  ⟨fun hm => h.nonempty (List.mem_cons_of_mem _ hm), fun a b hi => h.apart a b (List.infix_cons hi)⟩

theorem Grammar.Tidy.startsApart {text : String} (h : Tidy (.literal text :: rest)) :
    StartsApart rest := by
  rintro next more rfl
  exact h.apart text next ⟨[], more, rfl⟩

theorem tidy_close (h : Tidy rest) (hr : StartsApart rest) : Tidy (close pending rest) := by
  unfold close
  split
  · exact h
  · next hp =>
    refine h.literal hr fun ht => hp ?_
    have : pending.reverse = [] := by rw [← String.toList_ofList (l := pending.reverse), ht]; rfl
    simpa using this

theorem tidy_gather : Tidy (gather pending found) := by
  induction found generalizing pending with
  | nil => exact tidy_close .nil startsApart_nil
  | cons piece more ih =>
    cases piece with
    | char c => exact ih
    | hole hole => exact tidy_close (.interpolation ih hole) (startsApart_interpolation hole)

theorem pieces_close :
    pieces ⟨close pending rest⟩ = pending.reverse.map .char ++ pieces ⟨rest⟩ := by
  unfold close
  split
  · next hp => simp [List.isEmpty_iff.1 hp]
  · simp

theorem pieces_gather : pieces ⟨gather pending found⟩ = pending.reverse.map .char ++ found := by
  induction found generalizing pending with
  | nil => simp [gather, pieces_close]
  | cons piece more ih =>
    cases piece with
    | char c => simp [gather, ih]
    | hole hole => simp [gather, pieces_close, ih]

theorem gather_append (chars : List Char) :
    gather pending (chars.map .char ++ found) = gather (chars.reverse ++ pending) found := by
  induction chars generalizing pending with
  | nil => rfl
  | cons c more ih =>
    rw [List.map_cons, List.cons_append, gather, ih, List.reverse_cons, List.append_assoc]
    rfl

theorem gather_of_startsApart (h : StartsApart rest) :
    gather pending (pieces ⟨rest⟩) = close pending (gather [] (pieces ⟨rest⟩)) := by
  cases rest with
  | nil => rfl
  | cons segment more =>
    cases segment with
    | literal text => exact absurd rfl (h text more)
    | interpolation hole => rfl

/-- Tidy segments are found again in their pieces. -/
theorem gather_of_tidy (h : Tidy segments) : gather [] (pieces ⟨segments⟩) = segments := by
  induction segments with
  | nil => rfl
  | cons segment rest ih =>
    cases segment with
    | interpolation hole =>
      rw [pieces_interpolation, gather, ih h.tail]
      rfl
    | literal text =>
      have hne : text ≠ "" := fun ht => h.nonempty (ht ▸ List.mem_cons_self)
      rw [pieces_literal, gather_append, gather_of_startsApart h.startsApart, ih h.tail, close]
      simp [String.toList_eq_nil_iff, hne]

theorem merged_iff {merged : List Segment} :
    Merged segments merged ↔ ofPieces (pieces ⟨segments⟩) = ⟨merged⟩ := by
  constructor
  · rintro ⟨ht, hp⟩
    rw [ofPieces, ← hp, gather_of_tidy ht]
  · intro h
    cases h
    exact ⟨tidy_gather, pieces_gather⟩

end

/-- A text is read exactly when the grammar cuts it into segments, as the template of these segments
with adjacent literals merged and none empty. -/
theorem parse_eq_ok {source : String} {t : Template} : parse source = .ok t ↔
    ∃ segments, Segments source.toList segments ∧ Merged segments t.segments := by
  constructor
  · intro h
    unfold parse at h
    split at h
    · next found hf =>
      cases h
      obtain ⟨segments, hs, rfl⟩ := scan_eq_ok.1 hf
      exact ⟨segments, hs, merged_iff.2 rfl⟩
    · cases h
  · rintro ⟨segments, hs, hm⟩
    rw [parse, scan_eq_ok.2 ⟨segments, hs, rfl⟩]
    exact congrArg Except.ok (merged_iff.1 hm)

/-- A brace in quotes does not end a hole, and braces that stand for themselves join the text. -/
example : (parse "\x7bCard(-7, \"\x7d\"):$n\x7d \x7b\x7bx\x7d\x7d\x7d\x7d").toOption =
    some ⟨[
      .interpolation
        ⟨some ⟨"cap", none⟩, .call "card" [.number (-7), .text "\x7d"], [.parameter "n"]⟩,
      .literal " \x7bx\x7d\x7d"]⟩ := by
  decide +kernel

end Phrasebook.Template
