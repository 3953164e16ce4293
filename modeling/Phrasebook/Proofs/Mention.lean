import Phrasebook.Locale.Rendering
import Phrasebook.Definition.Cycle
import Phrasebook.Proofs.Outcomes

/-!
What templates mention: the parameters they read and the phrases they call. What they render
depends on nothing else.
-/

namespace Phrasebook

/-- The parameters that a selector reads. -/
def Selector.reads : Selector → List String
  | literal _ => []
  | parameter name => [name]

namespace Argument

def reads : Argument → List String
  | parameter name => [name]
  | _ => []

/-- The phrases that an argument calls, each with the number of arguments. -/
def calls : Argument → List (String × Nat)
  | term name => [(name, 0)]
  | _ => []

end Argument

namespace Reference

def reads : Reference → List String
  | parameter name => [name]
  | term _ => []
  | call _ arguments => arguments.flatMap Argument.reads

def calls : Reference → List (String × Nat)
  | parameter _ => []
  | term name => [(name, 0)]
  | call name arguments => (name, arguments.length) :: arguments.flatMap Argument.calls

theorem map_fst_calls (r : Reference) : r.calls.map Prod.fst = r.phrases := by
  cases r with
  | parameter name => rfl
  | term name => rfl
  | call name arguments =>
    have h : (arguments.flatMap Argument.calls).map Prod.fst =
        arguments.filterMap fun | .term name => some name | _ => none := by
      induction arguments with
      | nil => rfl
      | cons a rest ih => cases a <;> simp [Argument.calls, ih]
    simp only [calls, List.map_cons, h]
    rfl

end Reference

namespace Interpolation

def reads (hole : Interpolation) : List String :=
  hole.reference.reads ++ hole.selectors.flatMap Selector.reads ++
    (hole.transform.bind TransformCall.context).toList.flatMap Selector.reads

def calls (hole : Interpolation) : List (String × Nat) :=
  hole.reference.calls

end Interpolation

namespace Template

def reads (t : Template) : List String :=
  t.interpolations.flatMap Interpolation.reads

def calls (t : Template) : List (String × Nat) :=
  t.interpolations.flatMap Interpolation.calls

theorem mem_interpolations {t : Template} {hole : Interpolation} :
    hole ∈ t.interpolations ↔ .interpolation hole ∈ t.segments := by
  rw [interpolations, List.mem_filterMap]
  constructor
  · rintro ⟨s, hs, he⟩
    cases s with
    | literal text => cases he
    | interpolation h => cases he; exact hs
  · intro hs
    exact ⟨_, hs, rfl⟩

end Template

namespace Definition

def calls (d : Definition) : List (String × Nat) :=
  d.interpolations.flatMap Interpolation.calls

theorem mem_references {d : Definition} {name : String} :
    name ∈ d.references ↔ name ∈ d.calls.map Prod.fst := by
  rw [references, Dictionary.mem_sortNames, calls, List.map_flatMap]
  simp only [Interpolation.calls, Reference.map_fst_calls]

theorem mem_interpolations_of_mem_templates {d : Definition} {t : Template}
    {hole : Interpolation} (ht : t ∈ d.templates) (hh : hole ∈ t.interpolations) :
    hole ∈ d.interpolations :=
  List.mem_flatMap.2 ⟨t, ht, hh⟩

theorem mem_calls_of_mem_templates {d : Definition} {t : Template} {k : String × Nat}
    (ht : t ∈ d.templates) (hk : k ∈ t.calls) : k ∈ d.calls := by
  obtain ⟨hole, hh, hk⟩ := List.mem_flatMap.1 hk
  exact List.mem_flatMap.2 ⟨hole, mem_interpolations_of_mem_templates ht hh, hk⟩

theorem template_mem_templates {d : Definition} {entries : List Entry} {entry : Entry}
    (hb : d.body = .entries entries) (he : entry ∈ entries) : entry.template ∈ d.templates := by
  rw [templates, hb]
  exact List.mem_map.2 ⟨entry, he, rfl⟩

end Definition

/-- An arm that is chosen belongs to one of the entries. -/
theorem Arm.template_of_select? {entries : List Entry} {candidates : List (List String)}
    {t : Template} (h : select? entries candidates = some t) :
    ∃ entry ∈ entries, entry.template = t := by
  obtain ⟨arm, ha, rfl⟩ := Option.map_eq_some_iff.1 h
  have hm : arm ∈ arms entries := by
    rcases Option.or_eq_some_iff.1 ha with he | ⟨-, hr⟩
    · obtain ⟨tuple, -, hf⟩ := List.exists_of_findSome?_eq_some he
      exact List.mem_of_find?_eq_some hf
    · rcases Option.or_eq_some_iff.1 hr with hf | ⟨-, hc⟩
      · exact List.mem_of_find?_eq_some hf
      · exact List.mem_of_find?_eq_some hc
  obtain ⟨entry, he, hk⟩ := List.mem_flatMap.1 hm
  obtain ⟨key, -, rfl⟩ := List.mem_map.1 hk
  exact ⟨entry, he, rfl⟩

namespace Rendering

variable {c : Conventions} {call call' : Call} {b b' : Bindings}

theorem template_mem_of_chosen {d : Definition} {t : Template} (h : chosen c d b = .ok t) :
    t ∈ d.templates := by
  unfold chosen at h
  split at h
  · next t' hb =>
    cases h
    simp [Definition.templates, hb, Body.templates]
  · next entries hb =>
    obtain ⟨values, -, hs⟩ := bind_eq_ok.1 h
    split at hs
    · next t' ha =>
      cases hs
      obtain ⟨entry, he, rfl⟩ := Arm.template_of_select? ha
      exact Definition.template_mem_templates hb he
    · cases hs

/-! ### Rendering depends on what is mentioned -/

theorem argument_congr {a : Argument} (hb : ∀ n ∈ a.reads, b.value n = b'.value n)
    (hc : ∀ k ∈ a.calls, call k.1 = call' k.1) : argument call b a = argument call' b' a := by
  cases a with
  | parameter name => exact hb name (by simp [Argument.reads])
  | number n => rfl
  | text content => rfl
  | term name =>
    have := hc (name, 0) (by simp [Argument.calls])
    simp only [argument, this]

theorem reference_congr {r : Reference} (hb : ∀ n ∈ r.reads, b.value n = b'.value n)
    (hc : ∀ k ∈ r.calls, call k.1 = call' k.1) : reference call b r = reference call' b' r := by
  cases r with
  | parameter name => exact hb name (by simp [Reference.reads])
  | term name =>
    have := hc (name, 0) (by simp [Reference.calls])
    simp only [reference, this]
  | call name arguments =>
    have hn : call name = call' name := hc (name, arguments.length) (by simp [Reference.calls])
    have ha : arguments.mapM (argument call b) = arguments.mapM (argument call' b') := by
      apply mapM_congr
      intro a ha
      apply argument_congr
      · exact fun n hn => hb n (List.mem_flatMap.2 ⟨a, ha, hn⟩)
      · exact fun k hk => hc k (List.mem_cons_of_mem _ (List.mem_flatMap.2 ⟨a, ha, hk⟩))
    simp only [reference, ha, hn]

theorem selectorKey_congr {s : Selector} (hb : ∀ n ∈ s.reads, b.value n = b'.value n) :
    selectorKey c b s = selectorKey c b' s := by
  cases s with
  | literal key => rfl
  | parameter name => simp only [selectorKey, hb name (by simp [Selector.reads])]

theorem context_congr {s : Selector} (hb : ∀ n ∈ s.reads, b.value n = b'.value n) :
    context b s = context b' s := by
  cases s with
  | literal text => rfl
  | parameter name => simp only [context, hb name (by simp [Selector.reads])]

theorem select_congr {value : Value} {selectors : List Selector}
    (hb : ∀ n ∈ selectors.flatMap Selector.reads, b.value n = b'.value n) :
    select c b value selectors = select c b' value selectors := by
  have h : selectors.mapM (selectorKey c b) = selectors.mapM (selectorKey c b') :=
    mapM_congr fun s hs => selectorKey_congr fun n hn => hb n (List.mem_flatMap.2 ⟨s, hs, hn⟩)
  unfold select
  split
  · rw [h]
  · rfl

theorem transform_congr {value : Value} {t : Option TransformCall}
    (hb : ∀ n ∈ (t.bind TransformCall.context).toList.flatMap Selector.reads,
      b.value n = b'.value n) :
    transform c b value t = transform c b' value t := by
  rcases t with _ | ⟨name, _ | s⟩
  · rfl
  · rfl
  · have : context b s = context b' s := context_congr (by simpa using hb)
    simp only [transform, Option.mapM_some, this]

theorem interpolation_congr {hole : Interpolation}
    (hb : ∀ n ∈ hole.reads, b.value n = b'.value n)
    (hc : ∀ k ∈ hole.calls, call k.1 = call' k.1) :
    interpolation c call b hole = interpolation c call' b' hole := by
  simp only [Interpolation.reads, List.mem_append] at hb
  have hr : reference call b hole.reference = reference call' b' hole.reference :=
    reference_congr (fun n hn => hb n (.inl (.inl hn))) hc
  have hs (value : Value) : select c b value hole.selectors = select c b' value hole.selectors :=
    select_congr fun n hn => hb n (.inl (.inr hn))
  have ht (value : Value) : transform c b value hole.transform =
      transform c b' value hole.transform :=
    transform_congr fun n hn => hb n (.inr hn)
  simp only [interpolation, hr, hs, ht]

/-- What a template renders depends only on the parameters it reads and the phrases it calls. -/
theorem template_congr {t : Template} (hb : ∀ n ∈ t.reads, b.value n = b'.value n)
    (hc : ∀ k ∈ t.calls, call k.1 = call' k.1) :
    template c call b t = template c call' b' t := by
  have h : t.segments.mapM (segment c call b) = t.segments.mapM (segment c call' b') := by
    apply mapM_congr
    intro s hs
    cases s with
    | literal text => rfl
    | interpolation hole =>
      have hm := Template.mem_interpolations.2 hs
      apply interpolation_congr
      · exact fun n hn => hb n (List.mem_flatMap.2 ⟨hole, hm, hn⟩)
      · exact fun k hk => hc k (List.mem_flatMap.2 ⟨hole, hm, hk⟩)
  simp only [template, h]

theorem chosen_congr {d : Definition} (hb : ∀ n, b.value n = b'.value n) :
    chosen c d b = chosen c d b' := by
  have h : b.value = b'.value := funext hb
  simp only [chosen, h]

theorem body_congr {d : Definition} (hb : ∀ n, b.value n = b'.value n)
    (hc : ∀ k ∈ d.calls, call k.1 = call' k.1) : body c call d b = body c call' d b' := by
  unfold body
  rw [chosen_congr hb]
  cases hd : chosen c d b' with
  | error e => rfl
  | ok t =>
    exact template_congr (fun n _ => hb n) fun k hk =>
      hc k (Definition.mem_calls_of_mem_templates (template_mem_of_chosen hd) hk)

theorem block_congr {entries : List Entry}
    (hc : ∀ entry ∈ entries, ∀ k ∈ entry.template.calls, call k.1 = call' k.1) :
    block c call b entries = block c call' b entries := by
  have h : entries.mapM (entryForms c call b) = entries.mapM (entryForms c call' b) := by
    apply mapM_congr
    intro entry he
    have := template_congr (c := c) (b := b) (fun _ _ => rfl) (hc entry he)
    simp only [entryForms, this]
  simp only [block, h]

/-- A definition depends on other phrases only by the calls in its templates. -/
theorem definition_congr {d : Definition} {arguments : List Value}
    (hc : ∀ k ∈ d.calls, call k.1 = call' k.1) :
    definition c call d arguments = definition c call' d arguments := by
  have hbody (b : Bindings) : body c call d b = body c call' d b :=
    body_congr (fun _ => rfl) hc
  have hforms (b : Bindings) (source : Option (String × Value)) :
      forms c call d b source = forms c call' d b source := by
    unfold forms
    split
    · next entries hb _ =>
      apply block_congr
      intro entry he k hk
      exact hc k (Definition.mem_calls_of_mem_templates
        (Definition.template_mem_templates hb he) hk)
    · simp only [perForm, hbody]
  simp only [definition, hforms]

end Rendering

end Phrasebook
