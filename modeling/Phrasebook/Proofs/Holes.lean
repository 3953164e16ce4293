import Phrasebook.Proofs.Arguments

/-!
Reading the inside of a hole, as the grammar has it: a transform, a reference and selectors.
-/

namespace Phrasebook.Template

open Text Template.Grammar

/-! ### References -/

section

variable {text rest : List Char}

theorem isUpper_iff {c : Char} : isUpper c ↔ 'A' ≤ c ∧ c ≤ 'Z' := by
  simp [isUpper]

theorem decapitalise_eq_iff {written name : String} {capital : Bool} (h : written ≠ "") :
    decapitalise written = (name, capital) ↔ Meant written name capital := by
  constructor
  · intro hd
    unfold decapitalise at hd
    split at hd
    · next c more hw =>
      have hwritten : String.ofList (c :: more) = written := by rw [← hw, String.ofList_toList]
      split at hd
      · next hc =>
        cases hd
        rw [← hwritten]
        exact .capital (isUpper_iff.1 hc)
      · next hc =>
        cases hd
        rw [← hwritten]
        exact .small (mt isUpper_iff.2 hc)
    · next hw => exact absurd (String.toList_eq_nil_iff.1 hw) h
  · intro hm
    unfold decapitalise
    cases hm with
    | small hc => simp only [String.toList_ofList, if_neg (mt isUpper_iff.1 hc)]
    | capital hc => simp only [String.toList_ofList, if_pos (isUpper_iff.2 hc)]

theorem reference_eq_ok {reference : Phrasebook.Reference} {capital : Bool} :
    Template.reference text = .ok ((reference, capital), rest) ↔
      Grammar.Reference text reference capital rest := by
  constructor
  · intro h
    unfold Template.reference at h
    split at h
    · split at h
      · next name more hp =>
        cases h
        obtain ⟨text, rfl, hn⟩ := parameter?_eq_some.1 hp
        exact .parameter hn
      · cases h
    · split at h
      · cases h
      · next written more hw =>
        have hn := name?_eq_some.1 hw
        have hm := (decapitalise_eq_iff hn.nonempty).1 rfl
        dsimp only at h
        split at h
        · obtain ⟨⟨args, last⟩, ha, he⟩ := bind_eq_ok.1 h
          cases he
          exact .call hn hm (allArguments_eq_ok.1 ha)
        · next hne =>
          cases h
          refine .term hn (fun hd => ?_) hm
          obtain ⟨more, rfl⟩ := List.head?_eq_some_iff.1 hd
          exact hne _ rfl
  · intro h
    cases h with
    | parameter hn =>
      rw [Template.reference, if_pos List.head?_cons, parameter?_eq_some.2 ⟨_, rfl, hn⟩]
    | term hn hcall hm =>
      rw [Template.reference, if_neg (hn.head?_ne rfl), name?_eq_some.2 hn]
      simp only [(decapitalise_eq_iff hn.nonempty).2 hm]
      split
      · exact absurd rfl hcall
      · rfl
    | call hn hm ha =>
      rw [Template.reference, if_neg (hn.head?_ne rfl), name?_eq_some.2 hn]
      simp only [(decapitalise_eq_iff hn.nonempty).2 hm]
      exact bind_eq_ok.2 ⟨_, allArguments_eq_ok.2 ha, rfl⟩

theorem Grammar.Reference.head?_ne {reference : Phrasebook.Reference} {capital : Bool}
    (h : Grammar.Reference text reference capital rest) {c : Char} (hc : isNameStart c = false)
    (hp : c ≠ '$') : text.head? ≠ some c := by
  cases h with
  | parameter => exact fun hd => hp (Option.some.inj hd).symm
  | term hn => exact hn.head?_ne hc
  | call hn => exact hn.head?_ne hc

end

/-! ### Whole holes -/

section

variable {text rest : List Char}

theorem selectors_eq_ok {keys : List Selector} :
    Template.selectors text = .ok (keys, rest) ↔ Selectors text keys rest := by
  constructor
  · intro h
    fun_induction Template.selectors text generalizing keys rest with
    | case1 => cases h
    | case2 text key stop hk this ih =>
      obtain ⟨⟨keys, rest⟩, hs, he⟩ := bind_eq_ok.1 h
      cases he
      exact .cons (selector?_eq_some.1 hk) (ih hs)
    | case3 text hne =>
      cases h
      refine .nil fun hd => ?_
      obtain ⟨more, rfl⟩ := List.head?_eq_some_iff.1 hd
      exact hne more rfl
  · intro h
    induction h with
    | nil hc =>
      unfold Template.selectors
      split
      · exact absurd rfl hc
      · rfl
    | cons hk hs ih =>
      rw [Template.selectors]
      split
      · next hnone => cases hnone.symm.trans (selector?_eq_some.2 hk)
      · next hkey =>
        cases hkey.symm.trans (selector?_eq_some.2 hk)
        exact bind_eq_ok.2 ⟨_, ih, rfl⟩

theorem optionalContext_of_head? (h : text.head? ≠ some ':') :
    optionalContext text = (none, text) := by
  unfold optionalContext
  split
  · exact absurd rfl h
  · rfl

/-- A name behind an at sign, and a context if one follows a colon. -/
theorem transforming_of_transform? {call : TransformCall} {stop : List Char}
    (h : transform? text = some (call, stop)) :
    Transforming text (some call) (skipBlanks stop) := by
  unfold transform? at h
  split at h
  · next more =>
    obtain ⟨⟨name, next⟩, hn, he⟩ := Option.map_eq_some_iff.1 h
    have hn := name?_eq_some.1 hn
    dsimp only at he
    unfold optionalContext at he
    split at he
    · split at he
      · next hc =>
        cases he
        exact .inContext hn (context?_eq_some.1 hc) (skipBlanks_eq_iff.1 rfl)
      · cases he
        exact .plain hn (skipBlanks_eq_iff.1 rfl)
    · cases he
      exact .plain hn (skipBlanks_eq_iff.1 rfl)
  · cases h

/-- Behind a transform call stands what neither calls a second one nor continues the first. -/
theorem optionalTransform_of_transform? {call : TransformCall} {stop : List Char}
    (h : transform? text = some (call, stop)) (hb : Blanks stop rest)
    (hat : rest.head? ≠ some '@') : optionalTransform text = .ok (some call, rest) := by
  have hhead : text.head? = some '@' := by
    unfold transform? at h
    split at h
    · rfl
    · cases h
  rw [optionalTransform, if_pos hhead, h]
  simp only [skipBlanks_eq_iff.2 hb]
  split
  · exact absurd rfl hat
  · rfl

/-- The transform of a hole, with the reference behind it. -/
theorem optionalTransform_eq_ok {transform : Option TransformCall}
    {reference : Phrasebook.Reference} {capital : Bool} {stop : List Char}
    (hr : Grammar.Reference rest reference capital stop) :
    optionalTransform text = .ok (transform, rest) ↔ Transforming text transform rest := by
  have hat : rest.head? ≠ some '@' := hr.head?_ne (by decide) (by decide)
  have hcolon : rest.head? ≠ some ':' := hr.head?_ne (by decide) (by decide)
  constructor
  · intro h
    unfold optionalTransform at h
    split at h
    · split at h
      · cases h
      · next call stop ht =>
        split at h
        · cases h
        · cases h
          exact transforming_of_transform? ht
    · cases h
      exact .none
  · intro h
    cases h with
    | none => rw [optionalTransform, if_neg hat]
    | plain hn hb =>
      refine optionalTransform_of_transform? (Option.map_eq_some_iff.2 ⟨_, name?_eq_some.2 hn, ?_⟩)
        hb hat
      -- A colon that no blanks follow would be the first character of the reference.
      have hstop : optionalContext _ = _ := optionalContext_of_head? fun hd =>
        hcolon (hb.eq_of_head? hd (by decide) ▸ hd)
      simp only [hstop]
    | inContext hn hk hb =>
      refine optionalTransform_of_transform? (Option.map_eq_some_iff.2 ⟨_, name?_eq_some.2 hn, ?_⟩)
        hb hat
      simp only [optionalContext, context?_eq_some.2 hk]

/-- The steps of reading a hole, each of which succeeds. -/
theorem interpolation_steps {hole : Interpolation} :
    Template.interpolation text = .ok hole ↔
      (skipBlanks text).head? ≠ some ':' ∧ ∃ transform next reference capital stop selectors rest,
        optionalTransform (skipBlanks text) = .ok (transform, next) ∧
        Template.reference next = .ok ((reference, capital), stop) ∧
        capitalised transform capital next = .ok hole.transform ∧
        Template.selectors stop = .ok (selectors, rest) ∧ skipBlanks rest = [] ∧
        reference = hole.reference ∧ selectors = hole.selectors := by
  unfold Template.interpolation
  constructor
  · intro h
    dsimp only at h
    split at h
    · cases h
    · next hne =>
      obtain ⟨⟨transform, next⟩, ht, h⟩ := bind_eq_ok.1 h
      obtain ⟨⟨⟨reference, capital⟩, stop⟩, hr, h⟩ := bind_eq_ok.1 h
      obtain ⟨result, hc, h⟩ := bind_eq_ok.1 h
      obtain ⟨⟨selectors, rest⟩, hs, h⟩ := bind_eq_ok.1 h
      split at h
      · next he =>
        cases h
        refine ⟨fun hd => ?_, transform, next, _, capital, stop, _, rest, ht, hr, hc, hs, he, rfl,
          rfl⟩
        obtain ⟨more, hd⟩ := List.head?_eq_some_iff.1 hd
        exact hne more hd
      · cases h
  · rintro ⟨hne, transform, next, reference, capital, stop, selectors, rest, ht, hr, hc, hs, he,
      rfl, rfl⟩
    dsimp only
    split
    · next hd => exact absurd (by rw [hd]; rfl) hne
    · refine bind_eq_ok.2 ⟨_, ht, bind_eq_ok.2 ⟨_, hr, ?_⟩⟩
      refine bind_eq_ok.2 ⟨_, hc, bind_eq_ok.2 ⟨_, hs, ?_⟩⟩
      simp only [he]
      rfl

/-- What a hole starts with, its blanks aside. -/
theorem Grammar.Transforming.head?_ne {transform : Option TransformCall} {start : List Char}
    {reference : Phrasebook.Reference} {capital : Bool} (h : Transforming start transform text)
    (hr : Grammar.Reference text reference capital rest) : start.head? ≠ some ':' := by
  cases h with
  | none => exact hr.head?_ne (by decide) (by decide)
  | plain => simp
  | inContext => simp

theorem interpolation_eq_ok {hole : Interpolation} :
    Template.interpolation text = .ok hole ↔ Hole text hole := by
  rw [interpolation_steps]
  constructor
  · rintro ⟨-, transform, next, reference, capital, stop, selectors, rest, ht, hr, hc, hs, he, rfl,
      rfl⟩
    have hr := reference_eq_ok.1 hr
    have ht := (optionalTransform_eq_ok hr).1 ht
    have hs := selectors_eq_ok.1 hs
    have he := skipBlanks_eq_iff.1 he
    have hb : Blanks text (skipBlanks text) := skipBlanks_eq_iff.1 rfl
    generalize skipBlanks text = start at hb ht
    obtain ⟨result, reference, selectors⟩ := hole
    cases capital with
    | false =>
      cases hc
      exact .small hb ht hr hs he
    | true =>
      cases transform with
      | none =>
        cases hc
        cases ht
        exact .capital hb hr hs he
      | some call => cases hc
  · intro h
    cases h with
    | small hb ht hr hs he =>
      rw [skipBlanks_eq_iff.2 hb]
      exact ⟨ht.head?_ne hr, _, _, _, _, _, _, _, (optionalTransform_eq_ok hr).2 ht,
        reference_eq_ok.2 hr, rfl, selectors_eq_ok.2 hs, skipBlanks_eq_iff.2 he, rfl, rfl⟩
    | capital hb hr hs he =>
      rw [skipBlanks_eq_iff.2 hb]
      exact ⟨hr.head?_ne (by decide) (by decide), _, _, _, _, _, _, _,
        (optionalTransform_eq_ok hr).2 .none, reference_eq_ok.2 hr, rfl, selectors_eq_ok.2 hs,
        skipBlanks_eq_iff.2 he, rfl, rfl⟩

end

end Phrasebook.Template
