import Phrasebook.Proofs.Templates

/-!
Where the faults of a template lie: with no more characters to come than the reader was given.
-/

namespace Phrasebook.Template

open Text

/-- Whatever goes wrong is noticed with at most so many characters to come. -/
abbrev FailsWithin {α : Type} (most : Nat) (x : Except Fault α) : Prop :=
  FailsOnly (fun fault => fault.left ≤ most) x

section

variable {α : Type} {most : Nat} {text : List Char}

theorem FailsWithin.mono {less : Nat} {x : Except Fault α} (h : FailsWithin less x)
    (hl : less ≤ most) : FailsWithin most x :=
  fun fault hf => Nat.le_trans (h fault hf) hl

theorem malformed_within (detail : Malformed) (text : List Char) :
    FailsWithin text.length (malformed detail text : Except Fault α) :=
  .error (Nat.le_refl _)

theorem argument_within (callee : String) (text : List Char) :
    FailsWithin text.length (argument callee text) := by
  unfold argument
  split
  · exact .error (Nat.le_refl _)
  · split
    · exact malformed_within _ text
    · next arg rest ha =>
      have hrest := Nat.le_of_lt (length_lt_of_argument? ha)
      split
      · split
        · exact .error (Nat.le_refl _)
        · exact (malformed_within _ rest).mono hrest
      · split
        · exact .error (Nat.le_refl _)
        · exact .ok _

theorem arguments_within (callee : String) (text : List Char) :
    FailsWithin text.length (arguments callee text) := by
  fun_induction arguments callee text with
  | case1 text fault hf =>
    exact .error (Nat.le_trans (argument_within callee _ fault hf) (length_skipBlanks_le text))
  | case2 text arg rest ha more hb this ih =>
    exact (ih.mono (Nat.le_of_lt this)).bind fun _ _ => .ok _
  | case3 => exact .ok _
  | case4 text arg rest ha =>
    refine (malformed_within _ (skipBlanks rest)).mono ?_
    have hrest := length_lt_of_argument ha
    have htext := length_skipBlanks_le text
    have hskip := length_skipBlanks_le rest
    omega

theorem allArguments_within (callee : String) (text : List Char) :
    FailsWithin text.length (allArguments callee text) := by
  unfold allArguments
  split
  · exact .ok _
  · exact (arguments_within callee _).mono (length_skipBlanks_le text)

theorem reference_within (text : List Char) : FailsWithin text.length (reference text) := by
  unfold reference
  split
  · split
    · exact .ok _
    · exact malformed_within _ text
  · split
    · exact malformed_within _ text
    · next written rest hn =>
      have hrest := length_lt_of_name? hn
      dsimp only
      split
      · next more =>
        rw [List.length_cons] at hrest
        exact ((allArguments_within _ more).mono (by omega)).bind fun _ _ => .ok _
      · exact .ok _

theorem selectors_within (text : List Char) : FailsWithin text.length (selectors text) := by
  fun_induction selectors text with
  | case1 => exact malformed_within _ _
  | case2 text key rest hk this ih =>
    refine (ih.mono ?_).bind fun _ _ => .ok _
    exact Nat.le_succ_of_le (Nat.le_of_lt this)
  | case3 => exact .ok _

/-! ### What a reader leaves -/

theorem length_le_of_optionalContext {rest : List Char} {context : Option Selector}
    (h : optionalContext text = (context, rest)) : rest.length ≤ text.length := by
  unfold optionalContext at h
  split at h
  · next more =>
    split at h
    · next hc =>
      cases h
      have hlt : rest.length < more.length := by
        unfold context? at hc
        split at hc
        · next hp =>
          cases hc
          exact length_lt_of_parameter? hp
        · obtain ⟨_, hw, he⟩ := Option.map_eq_some_iff.1 hc
          cases he
          exact length_lt_of_run? hw
      exact Nat.le_succ_of_le (Nat.le_of_lt hlt)
    · cases h
      exact Nat.le_refl _
  · cases h
    exact Nat.le_refl _

theorem length_le_of_transform? {rest : List Char} {call : TransformCall}
    (h : transform? text = some (call, rest)) : rest.length ≤ text.length := by
  unfold transform? at h
  split at h
  · next more =>
    obtain ⟨⟨name, after⟩, hn, he⟩ := Option.map_eq_some_iff.1 h
    cases he
    have hafter := length_lt_of_name? hn
    have hrest : (optionalContext after).2.length ≤ after.length :=
      length_le_of_optionalContext rfl
    exact Nat.le_succ_of_le (Nat.le_trans hrest (Nat.le_of_lt hafter))
  · cases h

theorem length_le_of_optionalTransform {rest : List Char} {transform : Option TransformCall}
    (h : optionalTransform text = .ok (transform, rest)) : rest.length ≤ text.length := by
  unfold optionalTransform malformed at h
  split at h
  · split at h
    · cases h
    · next call after ht =>
      have hskip := length_skipBlanks_le after
      split at h
      · cases h
      · cases h
        exact Nat.le_trans hskip (length_le_of_transform? ht)
  · cases h
    exact Nat.le_refl _

theorem length_le_of_arguments {callee : String} {rest : List Char} {args : List Argument}
    (h : arguments callee text = .ok (args, rest)) : rest.length ≤ text.length := by
  fun_induction arguments callee text generalizing args rest with
  | case1 => cases h
  | case2 text arg stop ha more hb this ih =>
    obtain ⟨⟨args, rest⟩, hm, he⟩ := bind_eq_ok.1 h
    cases he
    exact Nat.le_trans (ih hm) (Nat.le_of_lt this)
  | case3 text arg stop ha more hb =>
    cases h
    have hstop := length_lt_of_argument ha
    have htext := length_skipBlanks_le text
    have hskip := length_skipBlanks_le stop
    rw [hb, List.length_cons] at hskip
    omega
  | case4 => cases h

theorem length_le_of_reference {rest : List Char} {reference : Reference} {capital : Bool}
    (h : Template.reference text = .ok ((reference, capital), rest)) :
    rest.length ≤ text.length := by
  unfold Template.reference malformed at h
  split at h
  · split at h
    · next hp =>
      cases h
      exact Nat.le_of_lt (length_lt_of_parameter? hp)
    · cases h
  · split at h
    · cases h
    · next written after hn =>
      have hafter := length_lt_of_name? hn
      dsimp only at h
      split at h
      · next more =>
        obtain ⟨⟨args, stop⟩, ha, he⟩ := bind_eq_ok.1 h
        cases he
        rw [List.length_cons] at hafter
        unfold allArguments at ha
        have hskip := length_skipBlanks_le more
        split at ha
        · next hs =>
          cases ha
          rw [hs, List.length_cons] at hskip
          dsimp only
          omega
        · have hstop := length_le_of_arguments ha
          dsimp only
          omega
      · cases h
        exact Nat.le_of_lt hafter

theorem length_le_of_selectors {rest : List Char} {keys : List Selector}
    (h : selectors text = .ok (keys, rest)) : rest.length ≤ text.length := by
  fun_induction selectors text generalizing keys rest with
  | case1 => cases h
  | case2 text key stop hk this ih =>
    obtain ⟨⟨keys, rest⟩, hs, he⟩ := bind_eq_ok.1 h
    cases he
    exact Nat.le_succ_of_le (Nat.le_trans (ih hs) (Nat.le_of_lt this))
  | case3 =>
    cases h
    exact Nat.le_refl _

/-! ### Whole holes and templates -/

theorem optionalTransform_within (text : List Char) :
    FailsWithin text.length (optionalTransform text) := by
  unfold optionalTransform
  split
  · split
    · exact malformed_within _ text
    · next call rest ht =>
      have hrest := length_le_of_transform? ht
      have hskip := length_skipBlanks_le rest
      split
      · next more hs =>
        rw [hs, List.length_cons] at hskip
        exact .error (Nat.le_trans hskip hrest)
      · exact .ok _
  · exact .ok _

theorem capitalised_within (transform : Option TransformCall) (capital : Bool)
    (text : List Char) : FailsWithin text.length (capitalised transform capital text) := by
  unfold capitalised
  split
  · exact .ok _
  · exact .ok _
  · exact .error (Nat.le_refl _)

theorem interpolation_within (text : List Char) :
    FailsWithin text.length (interpolation text) := by
  refine FailsWithin.mono ?_ (length_skipBlanks_le text)
  unfold interpolation
  generalize skipBlanks text = text
  dsimp only
  split
  · exact .error (Nat.le_refl _)
  refine (optionalTransform_within text).bind fun found ht => ?_
  obtain ⟨transform, start⟩ := found
  have hstart := length_le_of_optionalTransform ht
  refine ((reference_within start).mono hstart).bind fun found hr => ?_
  obtain ⟨⟨reference, capital⟩, stop⟩ := found
  have hstop := Nat.le_trans (length_le_of_reference hr) hstart
  refine ((capitalised_within transform capital start).mono hstart).bind fun transform _ => ?_
  refine ((selectors_within stop).mono hstop).bind fun found hk => ?_
  obtain ⟨keys, rest⟩ := found
  have hrest := Nat.le_trans (length_le_of_selectors hk) hstop
  dsimp only
  split
  · exact .ok _
  · next c more hs =>
    rw [← hs]
    exact (malformed_within _ _).mono (Nat.le_trans (length_skipBlanks_le rest) hrest)

theorem scan_within (text : List Char) : FailsWithin text.length (scan text) := by
  fun_induction scan text with
  | case1 => exact .ok _
  | case2 => exact .error (Nat.le_refl _)
  | case3 text inside after hv this ih =>
    refine (ih.mono ?_).bind fun _ _ => .ok _
    exact Nat.le_succ_of_le (Nat.le_succ_of_le (Nat.le_of_lt this))
  | case4 => exact .error (Nat.le_refl _)
  | case5 text hne inside after hh this ih =>
    obtain ⟨rfl, -⟩ := hole?_eq_some.1 hh
    simp only [List.length_cons, List.length_append] at *
    refine FailsOnly.bind (.mapError fun fault hf => ?_) fun hole _ => ?_
    · have hinside := interpolation_within inside fault hf
      dsimp only
      omega
    · exact (ih.mono (by omega)).bind fun _ _ => .ok _
  | case6 text ih =>
    exact (ih.mono (Nat.le_succ_of_le (Nat.le_succ _))).bind fun _ _ => .ok _
  | case7 => exact malformed_within _ _
  | case8 c text _ _ _ _ ih => exact (ih.mono (Nat.le_succ _)).bind fun _ _ => .ok _

end

end Phrasebook.Template
