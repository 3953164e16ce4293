import Phrasebook.Definition.Check
import Phrasebook.Proofs.Mention

/-!
What a check that finds nothing says about a definition: all that its templates mention is there.
-/

namespace Phrasebook

/-- The definition finds everything it mentions: parameters among its own, phrases with as many
parameters as it calls them with, and transforms. A plain block has a form for `other`. -/
structure Definition.Supported (s : Definition.Surroundings) (d : Definition) : Prop where
  inherits : ∀ name ∈ d.inherits, name ∈ d.parameters
  selectors : ∀ name ∈ d.selectors, name ∈ d.parameters
  reads : ∀ hole ∈ d.interpolations, ∀ name ∈ hole.reads, name ∈ d.parameters
  calls : ∀ k ∈ d.calls, s.arities.get? k.1 = some k.2
  transforms : ∀ hole ∈ d.interpolations, ∀ t ∈ hole.transform, t.name ∈ s.transforms
  other : ∀ entries, d.body = .entries entries → d.selectors = [] →
    ∃ key ∈ entries.flatMap Entry.keys, endsInOther key.variantKey

namespace Definition

variable {s : Surroundings} {d : Definition}

theorem checkParameter_eq_nil {name : String} :
    d.checkParameter name = [] ↔ name ∈ d.parameters := by
  unfold checkParameter
  split <;> simp_all

theorem checkCall_eq_nil {callee : String} {count : Nat} :
    d.checkCall s callee count = [] ↔ s.arities.get? callee = some count := by
  unfold checkCall
  split
  · next expected h =>
    split <;> simp_all
  · next h => simp [h]

theorem checkSelector_eq_nil {selector : Selector} :
    d.checkSelector selector = [] ↔ ∀ name ∈ selector.reads, name ∈ d.parameters := by
  cases selector with
  | literal key => simp [checkSelector, Selector.reads]
  | parameter name => simp [checkSelector, Selector.reads, checkParameter_eq_nil]

theorem checkTransform_eq_nil {t : TransformCall} :
    d.checkTransform s t = [] ↔ t.name ∈ s.transforms ∧
      ∀ name ∈ t.context.toList.flatMap Selector.reads, name ∈ d.parameters := by
  unfold checkTransform
  rw [List.append_eq_nil_iff]
  refine and_congr ?_ ?_
  · split <;> simp_all
  · cases t.context with
    | none => simp
    | some selector => simp [checkSelector_eq_nil]

theorem checkArgument_eq_nil {a : Argument} :
    d.checkArgument s a = [] ↔ (∀ name ∈ a.reads, name ∈ d.parameters) ∧
      ∀ k ∈ a.calls, s.arities.get? k.1 = some k.2 := by
  cases a with
  | parameter name => simp [checkArgument, Argument.reads, Argument.calls, checkParameter_eq_nil]
  | term name => simp [checkArgument, Argument.reads, Argument.calls, checkCall_eq_nil]
  | number n => simp [checkArgument, Argument.reads, Argument.calls]
  | text content => simp [checkArgument, Argument.reads, Argument.calls]

theorem checkReference_eq_nil {r : Reference} :
    d.checkReference s r = [] ↔ (∀ name ∈ r.reads, name ∈ d.parameters) ∧
      ∀ k ∈ r.calls, s.arities.get? k.1 = some k.2 := by
  cases r with
  | parameter name =>
    simp [checkReference, Reference.reads, Reference.calls, checkParameter_eq_nil]
  | term name => simp [checkReference, Reference.reads, Reference.calls, checkCall_eq_nil]
  | call name arguments =>
    have ha : arguments.flatMap (d.checkArgument s) = [] ↔
        (∀ n ∈ arguments.flatMap Argument.reads, n ∈ d.parameters) ∧
          ∀ k ∈ arguments.flatMap Argument.calls, s.arities.get? k.1 = some k.2 := by
      simp only [List.flatMap_eq_nil_iff, checkArgument_eq_nil, List.forall_mem_flatMap]
      exact forall₂_and
    simp only [checkReference, Reference.reads, Reference.calls, List.append_eq_nil_iff,
      checkCall_eq_nil, ha, List.forall_mem_cons]
    exact and_left_comm

theorem checkInterpolation_eq_nil {hole : Interpolation} :
    d.checkInterpolation s hole = [] ↔ (∀ name ∈ hole.reads, name ∈ d.parameters) ∧
      (∀ k ∈ hole.calls, s.arities.get? k.1 = some k.2) ∧
      ∀ t ∈ hole.transform, t.name ∈ s.transforms := by
  obtain ⟨t, r, selectors⟩ := hole
  have ht : t.toList.flatMap (d.checkTransform s) = [] ↔
      (∀ c ∈ t, c.name ∈ s.transforms) ∧
        ∀ name ∈ (t.bind TransformCall.context).toList.flatMap Selector.reads,
          name ∈ d.parameters := by
    cases t with
    | none => simp
    | some c => simp [checkTransform_eq_nil]
  have hs : selectors.flatMap d.checkSelector = [] ↔
      ∀ name ∈ selectors.flatMap Selector.reads, name ∈ d.parameters := by
    simp only [List.flatMap_eq_nil_iff, checkSelector_eq_nil, List.forall_mem_flatMap]
  simp only [checkInterpolation, List.append_eq_nil_iff, ht, hs, checkReference_eq_nil,
    Interpolation.reads, Interpolation.calls, List.forall_mem_append]
  tauto

theorem exists_other_of_checkForms {keys : List EntryKey} (h : d.checkForms keys = []) :
    ∃ key ∈ keys, endsInOther key.variantKey := by
  simp only [checkForms, List.append_eq_nil_iff] at h
  have ho := h.2
  split at ho
  · next hk =>
    obtain ⟨key, hm, he⟩ := List.any_eq_true.1 hk
    exact ⟨key, hm, by simpa [endsInOther] using he⟩
  · cases ho

theorem length_marked_of_checkForms {keys : List EntryKey} (h : d.checkForms keys = []) :
    (keys.filter EntryKey.isDefaultMarker).length ≤ 1 := by
  simp only [checkForms, List.append_eq_nil_iff] at h
  have hm := h.1.2
  split at hm
  · cases hm
  · next hle => exact Nat.le_of_not_lt hle

theorem checkForms_of_checkBody {entries : List Entry} (h : d.checkBody = [])
    (hb : d.body = .entries entries) (hs : d.selectors = []) :
    d.checkForms (entries.flatMap Entry.keys) = [] := by
  simpa only [checkBody, hb, hs, List.isEmpty_nil, ↓reduceIte] using h

theorem checkBody_of_check (h : d.check s = []) : d.checkBody = [] := by
  simp only [check, List.append_eq_nil_iff] at h
  exact h.1.2

theorem supported_of_check (h : d.check s = []) : d.Supported s := by
  simp only [check, List.append_eq_nil_iff, List.flatMap_eq_nil_iff, checkParameter_eq_nil,
    checkInterpolation_eq_nil, Option.mem_toList] at h
  obtain ⟨⟨⟨hi, hs⟩, hb⟩, hh⟩ := h
  refine ⟨hi, hs, fun hole hm => (hh hole hm).1, ?_, fun hole hm => (hh hole hm).2.2, ?_⟩
  · intro k hk
    obtain ⟨hole, hm, hk⟩ := List.mem_flatMap.1 hk
    exact (hh hole hm).2.1 k hk
  · intro entries hbody hsel
    exact exists_other_of_checkForms (checkForms_of_checkBody hb hbody hsel)

end Definition

end Phrasebook
