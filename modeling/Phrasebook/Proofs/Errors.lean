import Phrasebook.Proofs.Bodies
import Phrasebook.Proofs.Built
import Phrasebook.Proofs.TransformErrors

/-!
The errors of rendering. In a locale that has been built nothing is missing: a call with as many
arguments as the phrase has parameters fails by its arguments or by a transform.
-/

namespace Phrasebook

open EvalError (OfArguments)

namespace Rendering

variable {Q : EvalError → Prop} {c : Conventions} {call : Call} {b : Bindings}

/-- Calls with the right number of arguments fail only as `Q` allows. -/
def CallsFail (Q : EvalError → Prop) (call : Call) (calls : List (String × Nat)) : Prop :=
  ∀ k ∈ calls, ∀ arguments, arguments.length = k.2 → FailsOnly Q (call k.1 arguments)

/-- The transforms of these names fail only as `Q` allows. -/
def TransformsFail (Q : EvalError → Prop) (c : Conventions) (names : List String) : Prop :=
  ∀ name ∈ names, ∀ value context, FailsOnly Q (c.apply name value context)

/-! ### Holes -/

theorem argument_fails {a : Argument} (hb : ∀ n ∈ a.reads, FailsOnly Q (b.value n))
    (hc : CallsFail Q call a.calls) : FailsOnly Q (argument call b a) := by
  cases a with
  | parameter name => exact hb name (by simp [Argument.reads])
  | number n => exact .ok _
  | text content => exact .ok _
  | term name => exact (hc (name, 0) (by simp [Argument.calls]) [] rfl).map _

theorem reference_fails {r : Reference} (hb : ∀ n ∈ r.reads, FailsOnly Q (b.value n))
    (hc : CallsFail Q call r.calls) : FailsOnly Q (reference call b r) := by
  cases r with
  | parameter name => exact hb name (by simp [Reference.reads])
  | term name => exact (hc (name, 0) (by simp [Reference.calls]) [] rfl).map _
  | call name arguments =>
    refine FailsOnly.bind ?_ fun values hv => ?_
    · apply FailsOnly.mapM
      intro a ha
      apply argument_fails
      · exact fun n hn => hb n (List.mem_flatMap.2 ⟨a, ha, hn⟩)
      · exact fun k hk => hc k (List.mem_cons_of_mem _ (List.mem_flatMap.2 ⟨a, ha, hk⟩))
    · have hl : values.length = arguments.length := (mapM_eq_ok.1 hv).length_eq.symm
      exact (hc (name, arguments.length) (by simp [Reference.calls]) values hl).map _

theorem context_fails {s : Selector} (hb : ∀ n ∈ s.reads, FailsOnly Q (b.value n)) :
    FailsOnly Q (context b s) := by
  cases s with
  | literal text => exact .ok _
  | parameter name => exact (hb name (by simp [Selector.reads])).map _

theorem transform_fails {value : Value} {t : Option TransformCall} {names : List String}
    (hb : ∀ n ∈ (t.bind TransformCall.context).toList.flatMap Selector.reads,
      FailsOnly Q (b.value n))
    (ht : ∀ call ∈ t, call.name ∈ names) (hf : TransformsFail Q c names) :
    FailsOnly Q (transform c b value t) := by
  cases t with
  | none => exact .ok _
  | some t =>
    refine FailsOnly.bind ?_ fun context _ => ?_
    · rcases t with ⟨name, _ | s⟩
      · exact .ok _
      · exact (context_fails (by simpa using hb)).bind fun _ _ => .ok _
    · exact hf t.name (ht t rfl) value context

section

variable (hQ : ∀ e, OfArguments e → Q e)
include hQ

theorem keyOf_fails (parameter : String) (value : Value) :
    FailsOnly Q (keyOf c parameter value) := by
  unfold keyOf
  split
  · exact .ok _
  · split
    · split
      · exact .ok _
      · exact .error (hQ _ (.untaggedSelector ..))
    · exact .ok _

theorem selectorKey_fails {s : Selector} (hb : ∀ n ∈ s.reads, FailsOnly Q (b.value n)) :
    FailsOnly Q (selectorKey c b s) := by
  cases s with
  | literal key => exact .ok _
  | parameter name =>
    exact (hb name (by simp [Selector.reads])).bind fun value _ => keyOf_fails hQ name value

theorem select_fails {value : Value} {selectors : List Selector}
    (hb : ∀ n ∈ selectors.flatMap Selector.reads, FailsOnly Q (b.value n)) :
    FailsOnly Q (select c b value selectors) := by
  unfold select
  split
  · refine FailsOnly.bind ?_ fun _ _ => .ok _
    apply FailsOnly.mapM
    intro s hs
    exact selectorKey_fails hQ fun n hn => hb n (List.mem_flatMap.2 ⟨s, hs, hn⟩)
  · exact .ok _

/-- What a hole renders fails only as the calls and the transforms do, or by the arguments. -/
theorem interpolation_fails {hole : Interpolation} {names : List String}
    (hb : ∀ n ∈ hole.reads, FailsOnly Q (b.value n)) (hc : CallsFail Q call hole.calls)
    (ht : ∀ t ∈ hole.transform, t.name ∈ names) (hf : TransformsFail Q c names) :
    FailsOnly Q (interpolation c call b hole) := by
  simp only [Interpolation.reads, List.mem_append] at hb
  refine (reference_fails (fun n hn => hb n (.inl (.inl hn))) hc).bind fun value _ => ?_
  refine (select_fails hQ fun n hn => hb n (.inl (.inr hn))).bind fun value _ => ?_
  exact transform_fails (fun n hn => hb n (.inr hn)) ht hf

end

/-! ### Bodies -/

/-- All that a definition relies on is there and fails only as `Q` allows, which allows all that
arguments can bring about. -/
structure Reliable (Q : EvalError → Prop) (c : Conventions) (call : Call)
    (s : Definition.Surroundings) (d : Definition) : Prop where
  supported : d.Supported s
  ofArguments : ∀ e, OfArguments e → Q e
  calls : CallsFail Q call d.calls
  transforms : TransformsFail Q c s.transforms

theorem table_fails {forms : List (String × String)}
    (ho : ∃ key ∈ forms.map Prod.fst, endsInOther key) : FailsOnly Q (table forms) := by
  obtain ⟨t, ht⟩ := VariantTable.exists_ofForms ho
  simp only [table, ht]
  exact .ok t

namespace Reliable

variable {s : Definition.Surroundings} {d : Definition}

theorem template_fails (h : Reliable Q c call s d)
    (hb : ∀ n ∈ d.parameters, FailsOnly Q (b.value n)) {t : Template} (hm : t ∈ d.templates) :
    FailsOnly Q (template c call b t) := by
  apply FailsOnly.map
  apply FailsOnly.mapM
  intro segment hseg
  cases segment with
  | literal text => exact .ok _
  | interpolation hole =>
    have hh := Definition.mem_interpolations_of_mem_templates hm
      (Template.mem_interpolations.2 hseg)
    apply interpolation_fails h.ofArguments
    · exact fun n hn => hb n (h.supported.reads hole hh n hn)
    · exact fun k hk => h.calls k (List.mem_flatMap.2 ⟨hole, hh, hk⟩)
    · exact h.supported.transforms hole hh
    · exact h.transforms

theorem chosen_fails (h : Reliable Q c call s d)
    (hb : ∀ n ∈ d.parameters, FailsOnly Q (b.value n)) : FailsOnly Q (chosen c d b) := by
  unfold chosen
  split
  · exact .ok _
  · refine FailsOnly.bind ?_ fun values _ => ?_
    · exact FailsOnly.mapM fun name hn => hb name (h.supported.selectors name hn)
    · split
      · exact .ok _
      · exact .error (h.ofArguments _ (.noMatchingVariant ..))

theorem body_fails (h : Reliable Q c call s d)
    (hb : ∀ n ∈ d.parameters, FailsOnly Q (b.value n)) : FailsOnly Q (body c call d b) :=
  (h.chosen_fails hb).bind fun _ ht => h.template_fails hb (template_mem_of_chosen ht)

theorem block_fails (h : Reliable Q c call s d)
    (hb : ∀ n ∈ d.parameters, FailsOnly Q (b.value n)) {entries : List Entry}
    (he : d.body = .entries entries) (hn : d.selectors = []) :
    FailsOnly Q (block c call b entries) := by
  rw [block_eq]
  refine FailsOnly.bind ?_ fun found hfound => ?_
  · apply FailsOnly.mapM
    intro entry hm
    exact h.template_fails hb (Definition.template_mem_templates he hm)
  · obtain ⟨t, ht⟩ := exists_tableOf (h.supported.other entries he hn)
      (length_of_texts_eq_ok hfound)
    rw [outcome, ht]
    exact .ok _

theorem perForm_fails (h : Reliable Q c call s d)
    (hb : ∀ n ∈ d.parameters, FailsOnly Q (b.value n)) (source : Option (String × Value)) :
    FailsOnly Q (perForm c call d b source) := by
  refine (h.body_fails hb).bind fun text _ => ?_
  split
  · next parameter p =>
    split
    · exact .ok _
    · next hne =>
      refine FailsOnly.bind ?_ fun forms hforms => ?_
      · apply FailsOnly.mapM
        intro form _
        refine FailsOnly.bind ?_ fun _ _ => .ok _
        apply h.body_fails
        intro name hn
        rw [Bindings.value_cons]
        split
        · exact .ok _
        · exact hb name hn
      · -- The keys are those of the inherited table, which has a form for `other`.
        refine FailsOnly.bind (table_fails ?_) fun _ _ => .ok _
        have hwise := (mapM_form_eq_ok (fun held =>
          body c call d ((parameter, .phrase (p.withText held)) :: b)) _ forms).1 hforms
        rw [hwise.keys]
        obtain ⟨form, hm, ho⟩ := p.variants.total.resolve_left fun h => hne (List.isEmpty_iff.2 h)
        exact ⟨form.1, List.mem_map.2 ⟨form, hm, rfl⟩, ho⟩
  · exact .ok _

theorem forms_fails (h : Reliable Q c call s d)
    (hb : ∀ n ∈ d.parameters, FailsOnly Q (b.value n)) (source : Option (String × Value)) :
    FailsOnly Q (forms c call d b source) := by
  unfold forms
  split
  · next entries he hn => exact h.block_fails hb he hn
  · exact h.perForm_fails hb source

/-- A definition that is given all its arguments fails only as the calls and the transforms do, or
by the arguments. -/
theorem definition_fails (h : Reliable Q c call s d) {arguments : List Value}
    (ha : arguments.length = d.arity) : FailsOnly Q (definition c call d arguments) := by
  have hb (name : String) (hn : name ∈ d.parameters) :
      FailsOnly Q ((Bindings.ofArguments d.parameters arguments).value name) := by
    obtain ⟨v, hv⟩ := Bindings.exists_value hn ha
    rw [hv]
    exact .ok v
  refine FailsOnly.bind ?_ fun source _ => ?_
  · unfold source
    cases hi : d.inherits with
    | none => exact .ok _
    | some parameter =>
      have hv := hb parameter (h.supported.inherits parameter hi)
      exact (hv.map _).bind fun _ _ => .ok _
  · exact (h.forms_fails hb source).bind fun _ _ => .ok _

end Reliable

end Rendering

namespace Locale

/-- Calls go to phrases of lower rank, so that no call of a checked locale misses anything. -/
theorem Checked.call_fails {Q : EvalError → Prop} {l : Locale} (h : l.Checked)
    (hQ : ∀ e, OfArguments e → Q e)
    (hf : Rendering.TransformsFail Q l.conventions l.transforms.names)
    {name : String} {d : Definition} {arguments : List Value}
    (hd : l.phrases.get? name = some d) (ha : arguments.length = d.arity) :
    FailsOnly Q (l.call name arguments) := by
  obtain ⟨rank, hr⟩ := h.ranked
  induction hn : rank name using Nat.strongRecOn generalizing name d arguments with
  | ind n ih =>
    rw [h.call_of_get? hd ha]
    have hcalls : Rendering.CallsFail Q l.call d.calls := by
      intro k hk arguments' ha'
      obtain ⟨callee, hcallee, hlen⟩ := callee_of_supported (h.supported name d hd) hk
      have hlt := (hr name d hd).2 k hk
      exact ih (rank k.1) (hn ▸ hlt) hcallee (ha'.trans hlen.symm) rfl
    have hd : Rendering.Reliable Q l.conventions l.call l.surroundings d :=
      ⟨h.supported name d hd, hQ, hcalls, hf⟩
    exact hd.definition_fails ha

/-- A phrase of a locale that has been built, called with as many arguments as it has parameters,
renders or fails by its arguments or by a transform that was added. -/
theorem call_of_build {b : Blueprint} {l : Locale} (h : b.build = .ok l) {name : String}
    {d : Definition} {arguments : List Value} (hd : l.phrases.get? name = some d)
    (ha : arguments.length = d.arity) :
    (∃ p, l.call name arguments = .ok p) ∨
      ∃ e, l.call name arguments = .error e ∧ (e.OfArguments ∨
        ∃ entry ∈ b.transforms, ∃ value context,
          entry.2 value context l.toSetting = .error e) := by
  obtain ⟨language, -, hr⟩ := Blueprint.registry_of_build h
  have hf : FailsOnly (fun e => e.OfArguments ∨ ∃ entry ∈ b.transforms, ∃ value context,
      entry.2 value context l.toSetting = .error e) (l.call name arguments) := by
    refine (checked_of_build h).call_fails (fun e he => .inl he) ?_ hd ha
    intro name hn value context e he
    obtain ⟨t, ht⟩ := Registry.exists_get?_of_mem_names hn
    simp only [conventions, Registry.apply, ht] at he
    rw [hr] at ht
    rcases Registry.get?_registerAll ht with hm | hb
    · exact .inr ⟨(name, t), hm, value, context, he⟩
    · obtain ⟨builtin, rfl⟩ := Registry.exists_builtin_of_get? hb
      exact .inl (builtin.proper value context _ e he)
  cases hcall : l.call name arguments with
  | ok p => exact .inl ⟨p, rfl⟩
  | error e => exact .inr ⟨e, rfl, hf e hcall⟩

/-- A call that goes through another phrase and a transform. -/
def drawing : Blueprint where
  language := "en"
  source := "card = :a \x7b one: \"card\", other: \"cards\" \x7d; " ++
    "one($p) = :from($p) \"\x7b$p:one\x7d\"; draw($p) = \"Draw \x7b@a one($p)\x7d.\";"

theorem call_of_build_drawing : ∃ l d, drawing.build = .ok l ∧
    l.phrases.get? "draw" = some d ∧ [Value.number 2].length = d.arity ∧
    ((∃ p, l.call "draw" [.number 2] = .ok p) ∨
      ∃ e, l.call "draw" [.number 2] = .error e ∧ (e.OfArguments ∨
        ∃ entry ∈ drawing.transforms, ∃ value context,
          entry.2 value context l.toSetting = .error e)) := by
  have h : ∃ l, drawing.build = .ok l ∧
      decide ((l.phrases.get? "draw").map Definition.arity = some 1) :=
    exists_of_build (by decide +kernel)
  obtain ⟨l, hl, ht⟩ := h
  obtain ⟨d, hd, ha⟩ := Option.map_eq_some_iff.1 (of_decide_eq_true ht)
  exact ⟨l, d, hl, hd, ha.symm, call_of_build hl hd ha.symm⟩

end Locale

end Phrasebook
