import Phrasebook.Proofs.Mention
import Phrasebook.Proofs.NumericContexts

/-!
Parameters without values. A template that renders has looked up each parameter it reads, but for
one place: a value that is no phrase has no forms, and the selectors behind it are not looked at.
-/

namespace Phrasebook

namespace Bindings

/-- There is a value for the name. -/
def Binds (b : Bindings) (name : String) : Prop :=
  ∃ v, b.value name = .ok v

theorem not_binds {b : Bindings} {name : String} (h : b.lookup name = none) : ¬ b.Binds name := by
  rintro ⟨v, hv⟩
  simp [value, h] at hv

end Bindings

namespace Interpolation

/-- The parameters that choose a form. -/
def selectorReads (hole : Interpolation) : List String :=
  hole.selectors.flatMap Selector.reads

/-- The parameters that a transform takes for its context. -/
def contextReads (hole : Interpolation) : List String :=
  (hole.transform.bind TransformCall.context).toList.flatMap Selector.reads

theorem mem_reads {hole : Interpolation} {name : String} :
    name ∈ hole.reads ↔
      name ∈ hole.reference.reads ∨ name ∈ hole.selectorReads ∨ name ∈ hole.contextReads := by
  rw [reads, List.mem_append, List.mem_append, or_assoc]
  rfl

/-- The hole shows a parameter that is a number or a text. -/
def Formless (hole : Interpolation) (b : Bindings) : Prop :=
  ∃ parameter v, hole.reference = .parameter parameter ∧ b.value parameter = .ok v ∧
    v.phrase? = none

end Interpolation

namespace Rendering

variable {c : Conventions} {call : Call} {b : Bindings} {value : Value} {name : String}

theorem binds_of_argument {a : Argument} (h : argument call b a = .ok value)
    (hn : name ∈ a.reads) : b.Binds name := by
  cases a with
  | parameter first =>
    cases List.mem_singleton.1 hn
    exact ⟨value, h⟩
  | number n => cases hn
  | text content => cases hn
  | term phrase => cases hn

theorem binds_of_reference {r : Reference} (h : reference call b r = .ok value)
    (hn : name ∈ r.reads) : b.Binds name := by
  cases r with
  | parameter first =>
    cases List.mem_singleton.1 hn
    exact ⟨value, h⟩
  | term phrase => cases hn
  | call phrase arguments =>
    obtain ⟨values, hvalues, -⟩ := bind_eq_ok.1 h
    obtain ⟨a, ha, hn⟩ := List.mem_flatMap.1 hn
    obtain ⟨v, hv⟩ := exists_of_mapM_eq_ok hvalues ha
    exact binds_of_argument hv hn

/-- What refers to no phrase is a parameter. -/
theorem formless_of_reference {hole : Interpolation} (h : reference call b hole.reference = .ok value)
    (hp : value.phrase? = none) : hole.Formless b := by
  obtain ⟨transform, r, selectors⟩ := hole
  cases r with
  | parameter first => exact ⟨first, value, rfl, h, hp⟩
  | term phrase =>
    obtain ⟨p, -, rfl⟩ := map_eq_ok.1 h
    cases hp
  | call phrase arguments =>
    obtain ⟨values, -, h⟩ := bind_eq_ok.1 h
    obtain ⟨p, -, rfl⟩ := map_eq_ok.1 h
    cases hp

theorem binds_of_selectorKey {s : Selector} {key : String} (h : selectorKey c b s = .ok key)
    (hn : name ∈ s.reads) : b.Binds name := by
  cases s with
  | literal key => cases hn
  | parameter first =>
    cases List.mem_singleton.1 hn
    obtain ⟨v, hv, -⟩ := bind_eq_ok.1 h
    exact ⟨v, hv⟩

/-- The form of a phrase is chosen by all of the selectors. -/
theorem binds_of_select {p : Phrase} {selectors : List Selector}
    (h : select c b (.phrase p) selectors = .ok value)
    (hn : name ∈ selectors.flatMap Selector.reads) : b.Binds name := by
  cases selectors with
  | nil => cases hn
  | cons first rest =>
    obtain ⟨keys, hkeys, -⟩ := bind_eq_ok.1 h
    obtain ⟨s, hs, hn⟩ := List.mem_flatMap.1 hn
    obtain ⟨key, hkey⟩ := exists_of_mapM_eq_ok hkeys hs
    exact binds_of_selectorKey hkey hn

theorem binds_of_context {s : Selector} {text : String} (h : context b s = .ok text)
    (hn : name ∈ s.reads) : b.Binds name := by
  cases s with
  | literal key => cases hn
  | parameter first =>
    cases List.mem_singleton.1 hn
    obtain ⟨v, hv, -⟩ := map_eq_ok.1 h
    exact ⟨v, hv⟩

theorem binds_of_transform {t : Option TransformCall} {text : String}
    (h : transform c b value t = .ok text)
    (hn : name ∈ (t.bind TransformCall.context).toList.flatMap Selector.reads) :
    b.Binds name := by
  rcases t with _ | ⟨called, _ | s⟩
  · cases hn
  · cases hn
  · obtain ⟨shown, hs, -⟩ := bind_eq_ok.1 h
    obtain ⟨shown, hs, -⟩ := map_eq_ok.1 hs
    exact binds_of_context hs (by simpa using hn)

/-- A hole that renders has values for its parameters, but for the selectors of a hole without
forms. -/
theorem binds_of_interpolation {hole : Interpolation} {text : String}
    (h : interpolation c call b hole = .ok text) (hn : name ∈ hole.reads) :
    b.Binds name ∨ hole.Formless b ∧ name ∈ hole.selectorReads := by
  obtain ⟨v, hr, h⟩ := bind_eq_ok.1 h
  obtain ⟨selected, hs, ht⟩ := bind_eq_ok.1 h
  rcases Interpolation.mem_reads.1 hn with hn | hn | hn
  · exact .inl (binds_of_reference hr hn)
  · cases v with
    | phrase p => exact .inl (binds_of_select hs hn)
    | number n => exact .inr ⟨formless_of_reference hr rfl, hn⟩
    | text content => exact .inr ⟨formless_of_reference hr rfl, hn⟩
  · exact .inl (binds_of_transform ht hn)

theorem binds_of_template {t : Template} {text : String} (h : template c call b t = .ok text)
    {hole : Interpolation} (hh : hole ∈ t.interpolations) (hn : name ∈ hole.reads) :
    b.Binds name ∨ hole.Formless b ∧ name ∈ hole.selectorReads := by
  obtain ⟨texts, htexts, -⟩ := map_eq_ok.1 h
  obtain ⟨shown, hs⟩ := exists_of_mapM_eq_ok htexts (Template.mem_interpolations.1 hh)
  exact binds_of_interpolation hs hn

end Rendering

namespace Locale

variable {l : Locale} {source text : String} {b : Bindings}

/-- A parameter without a value stays unnoticed as a selector of a hole without forms, and nowhere
else. -/
theorem evaluate_binds (h : l.evaluate source b = .ok text) :
    ∃ t, Template.parse source = .ok t ∧
      (∀ hole ∈ t.interpolations, ∀ name ∈ hole.reads,
        b.Binds name ∨ hole.Formless b ∧ name ∈ hole.selectorReads) ∧
      ((∀ name ∈ t.reads, b.Binds name) ↔
        ∀ hole ∈ t.interpolations, hole.Formless b → ∀ name ∈ hole.selectorReads, b.Binds name) := by
  obtain ⟨t, ht, hr⟩ := bind_eq_ok.1 h
  have hholes : ∀ hole ∈ t.interpolations, ∀ name ∈ hole.reads,
      b.Binds name ∨ hole.Formless b ∧ name ∈ hole.selectorReads :=
    fun hole hh name hn => Rendering.binds_of_template hr hh hn
  refine ⟨t, mapError_eq_ok.1 ht, hholes, ?_, ?_⟩
  · intro hall hole hh _ name hn
    exact hall name (List.mem_flatMap.2 ⟨hole, hh, Interpolation.mem_reads.2 (.inr (.inl hn))⟩)
  · intro hselectors name hn
    obtain ⟨hole, hh, hn⟩ := List.mem_flatMap.1 hn
    rcases hholes hole hh name hn with hb | ⟨hf, hs⟩
    · exact hb
    · exact hselectors hole hh hf name hs

/-- Three, under the name `n`. -/
def three : Bindings :=
  [("n", .number 3)]

/-- The selector of the second hole is without a value. -/
def unnoticed : String :=
  "\x7bcard:$n\x7d \x7b$n:$m\x7d"

theorem unnoticed_shown : ∃ l, cards.build = .ok l ∧ l.evaluate unnoticed three = .ok "cards 3" := by
  have h : ∃ l, cards.build = .ok l ∧ decide (
      (l.evaluate unnoticed three).toOption = some "cards 3") :=
    exists_of_build (by decide +kernel)
  obtain ⟨l, hl, ht⟩ := h
  exact ⟨l, hl, eq_ok_of_toOption (of_decide_eq_true ht)⟩

theorem evaluate_binds_unnoticed : ∃ l, cards.build = .ok l ∧
    l.evaluate unnoticed three = .ok "cards 3" ∧
    ∃ t, Template.parse unnoticed = .ok t ∧
      (∀ hole ∈ t.interpolations, ∀ name ∈ hole.reads,
        three.Binds name ∨ hole.Formless three ∧ name ∈ hole.selectorReads) ∧
      ((∀ name ∈ t.reads, three.Binds name) ↔
        ∀ hole ∈ t.interpolations, hole.Formless three →
          ∀ name ∈ hole.selectorReads, three.Binds name) := by
  obtain ⟨l, hl, he⟩ := unnoticed_shown
  exact ⟨l, hl, he, evaluate_binds he⟩

/-- Not every parameter of a template that renders has a value: a number is shown as it is, and
nothing looks up the selector behind it. -/
theorem not_evaluate_binds_all : ¬ ∀ (blueprint : Blueprint) (l : Locale) (source : String)
    (parameters : Bindings) (text : String), blueprint.build = .ok l →
    l.evaluate source parameters = .ok text →
    ∃ t, Template.parse source = .ok t ∧ ∀ name ∈ t.reads, parameters.Binds name := by
  intro always
  obtain ⟨l, hl, he⟩ := unnoticed_shown
  obtain ⟨t, ht, hall⟩ := always _ l _ _ _ hl he
  have hreads : (Template.parse unnoticed).toOption.all (fun t => "m" ∈ t.reads) = true := by
    decide +kernel
  rw [ht] at hreads
  exact Bindings.not_binds rfl (hall "m" (of_decide_eq_true hreads))

end Locale

end Phrasebook
