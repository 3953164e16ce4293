import Phrasebook.Proofs.Edits
import Phrasebook.Proofs.Inheritance
import Phrasebook.Proofs.Settling
import Phrasebook.Proofs.TagInheritance

/-!
Phrases without a body. Such a phrase gives what is passed to it: its result is rendered anew, the
text and each of the forms, and comes out as the phrase that went in, with the tags of the wrapper
over its own.
-/

namespace Phrasebook

namespace Draft

theorem body_of_settle? {draft : Draft} {d : Definition} (h : draft.settle? = some d)
    (hb : d.bodyless) : ∃ parameter, d.inherits = some parameter ∧
      d.body = .template (RawDefinition.parameterAlone parameter) := by
  simp only [settle?, Option.bind_eq_bind, Option.bind_eq_some_iff] at h
  obtain ⟨header, -, body, hbody, hd⟩ := h
  cases hd
  have habsent : draft.body = .absent := eq_of_beq hb
  rw [habsent, Body.settle?, Option.map_eq_some_iff] at hbody
  obtain ⟨parameter, hi, rfl⟩ := hbody
  exact ⟨parameter, hi, rfl⟩

end Draft

namespace Definition

/-- A missing body is read as the inherited parameter alone. -/
theorem body_of_bodyless {source : String} {read : List Definition} (h : parseAll source = .ok read)
    {d : Definition} (hd : d ∈ read) (hb : d.bodyless) : ∃ parameter, d.inherits = some parameter ∧
      d.body = .template (RawDefinition.parameterAlone parameter) := by
  obtain ⟨draft, -, -, -, hset⟩ := exists_draft h hd
  exact Draft.body_of_settle? (d := d.placeless) hset hb

end Definition

namespace Rendering

variable {c : Conventions} {call : Call} {d : Definition} {b : Bindings} {parameter : String}

theorem template_parameterAlone {v : Value} (hv : b.value parameter = .ok v) :
    template c call b (RawDefinition.parameterAlone parameter) = .ok v.shown := by
  have htexts : [Segment.bare parameter].mapM (segment c call b) = .ok [v.shown] :=
    mapM_eq_ok.2 (.cons (segment_bare hv) .nil)
  exact map_eq_ok.2 ⟨_, htexts, by simp [String.join]⟩

theorem body_parameterAlone (hb : d.body = .template (RawDefinition.parameterAlone parameter))
    {v : Value} (hv : b.value parameter = .ok v) : body c call d b = .ok v.shown := by
  have hchosen : chosen c d b = .ok (RawDefinition.parameterAlone parameter) := by
    unfold chosen
    rw [hb]
  exact bind_eq_ok.2 ⟨_, hchosen, template_parameterAlone hv⟩

theorem forms_parameterAlone (hb : d.body = .template (RawDefinition.parameterAlone parameter))
    (inherited : Option (String × Value)) :
    forms c call d b inherited = perForm c call d b inherited :=
  forms_of_selectors (fun entries he => by rw [hb] at he; cases he) inherited

/-- Every form is rendered as it was, with itself in the place of the parameter. -/
theorem perForm_parameterAlone (hb : d.body = .template (RawDefinition.parameterAlone parameter))
    {p : Phrase} (hv : b.value parameter = .ok (.phrase p)) :
    perForm c call d b (some (parameter, .phrase p)) = .ok (p.text, p.variants) := by
  have hform (held : String) :
      body c call d ((parameter, .phrase (p.withText held)) :: b) = .ok held :=
    body_parameterAlone hb ((Bindings.value_cons ..).trans (if_pos rfl))
  refine perForm_eq_ok.2 ⟨body_parameterAlone hb hv, ?_⟩
  exact List.forall₂_same.2 fun form _ => ⟨rfl, hform form.2⟩

theorem perForm_of_formless (hb : d.body = .template (RawDefinition.parameterAlone parameter))
    {v : Value} (hv : b.value parameter = .ok v) (hf : v.phrase? = none) :
    perForm c call d b (some (parameter, v)) = .ok (v.shown, .empty) := by
  refine bind_eq_ok.2 ⟨v.shown, body_parameterAlone hb hv, ?_⟩
  cases v with
  | phrase p => cases hf
  | number n => rfl
  | text content => rfl

end Rendering

namespace Locale

theorem body_of_bodyless {b : Blueprint} {l : Locale} (h : b.build = .ok l) {name : String}
    {d : Definition} (hd : l.phrases.get? name = some d) (hb : d.bodyless) :
    ∃ parameter, d.inherits = some parameter ∧
      d.body = .template (RawDefinition.parameterAlone parameter) := by
  obtain ⟨_, definitions, -, hread, -, -, hp⟩ := Blueprint.build_eq_ok h
  exact Definition.body_of_bodyless hread (mem_of_get? hp hd).2 hb

/-- A phrase without a body, with arguments for its parameters. What is passed to it goes into the
place of the parameter that it inherits from. -/
structure Wrapper (l : Locale) where
  name : String
  definition : Definition
  found : l.phrases.get? name = some definition
  bodyless : definition.bodyless
  distinct : definition.parameters.Nodup
  parameter : String
  inherits : definition.inherits = some parameter
  place : Nat
  placed : definition.parameters[place]? = some parameter
  arguments : List Value
  complete : arguments.length = definition.arity

namespace Wrapper

variable {l : Locale}

def call (w : l.Wrapper) (v : Value) : Except EvalError Phrase :=
  l.call w.name (w.arguments.set w.place v)

/-- The phrase goes through one wrapper after the other. -/
def callAll (ws : List l.Wrapper) (p : Phrase) : Except EvalError Phrase :=
  ws.foldlM (fun p w => w.call (.phrase p)) p

/-- The phrases without a body are wrappers, with whatever arguments there are for them. -/
theorem exists_wrapper {b : Blueprint} (h : b.build = .ok l) {name : String} {d : Definition}
    (hd : l.phrases.get? name = some d) (hb : d.bodyless) (hn : d.parameters.Nodup)
    {arguments : List Value} (ha : arguments.length = d.arity) :
    ∃ w : l.Wrapper, w.name = name ∧ w.definition = d ∧ w.arguments = arguments := by
  obtain ⟨parameter, hi, -⟩ := body_of_bodyless h hd hb
  have hp : parameter ∈ d.parameters :=
    ((checked_of_build h).supported name d hd).inherits parameter hi
  obtain ⟨place, hplace⟩ := List.mem_iff_getElem?.1 hp
  exact ⟨⟨name, d, hd, hb, hn, parameter, hi, place, hplace, arguments, ha⟩, rfl, rfl, rfl⟩

def ownTags (w : l.Wrapper) : TagSet :=
  .ofList w.definition.tags

theorem body_eq {b : Blueprint} (h : b.build = .ok l) (w : l.Wrapper) :
    w.definition.body = .template (RawDefinition.parameterAlone w.parameter) := by
  obtain ⟨parameter, hi, hbody⟩ := body_of_bodyless h w.found w.bodyless
  cases w.inherits.symm.trans hi
  exact hbody

/-- A call renders the parameter that it inherits from and nothing else. -/
theorem call_eq_ok {b : Blueprint} (h : b.build = .ok l) (w : l.Wrapper) {v : Value}
    {text : String} {variants : VariantTable}
    (hf : ∀ b : Bindings, b.value w.parameter = .ok v →
      Rendering.perForm l.conventions l.call w.definition b (some (w.parameter, v)) =
        .ok (text, variants)) :
    w.call v = .ok ⟨text, variants, l.conventions.groups.inherit w.ownTags v.tags⟩ := by
  have hlength : (w.arguments.set w.place v).length = w.definition.arity := by
    rw [List.length_set, w.complete]
  have hplace : w.place < w.arguments.length := by
    obtain ⟨hlt, -⟩ := List.getElem?_eq_some_iff.1 w.placed
    rw [w.complete]
    exact hlt
  have hset : (w.arguments.set w.place v)[w.place]? = some v := List.getElem?_set_self hplace
  have hv := Bindings.value_of_getElem? w.distinct w.placed hset
  rw [call, (checked_of_build h).call_of_get? w.found hlength]
  refine Rendering.definition_eq_ok.2 ⟨_, Rendering.source_of_inherits w.inherits hv, ?_, rfl⟩
  rw [Rendering.forms_parameterAlone (w.body_eq h)]
  exact hf _ hv

theorem call_phrase {b : Blueprint} (h : b.build = .ok l) (w : l.Wrapper) (p : Phrase) :
    w.call (.phrase p) =
      .ok ⟨p.text, p.variants, l.conventions.groups.inherit w.ownTags p.tags⟩ :=
  w.call_eq_ok h fun _ hv => Rendering.perForm_parameterAlone (w.body_eq h) hv

theorem call_of_formless {b : Blueprint} (h : b.build = .ok l) (w : l.Wrapper) {v : Value}
    (hv : v.phrase? = none) : w.call v = .ok ⟨v.shown, .empty, w.ownTags⟩ := by
  have htags : v.tags = .empty := by
    cases v with
    | phrase p => cases hv
    | number n => rfl
    | text content => rfl
  have hcall := w.call_eq_ok h fun _ hb => Rendering.perForm_of_formless (w.body_eq h) hb hv
  rwa [htags, TagGroups.inherit_empty] at hcall

theorem call_untagged {b : Blueprint} (h : b.build = .ok l) {w : l.Wrapper}
    (hw : w.definition.tags = []) (p : Phrase) : w.call (.phrase p) = .ok p := by
  have htags : w.ownTags = .empty := by
    rw [ownTags, hw]
    rfl
  rw [w.call_phrase h, htags, TagGroups.empty_inherit]

theorem callAll_untagged {b : Blueprint} (h : b.build = .ok l) {ws : List l.Wrapper}
    (hws : ∀ w ∈ ws, w.definition.tags = []) (p : Phrase) : callAll ws p = .ok p := by
  induction ws with
  | nil => rfl
  | cons w ws ih =>
    obtain ⟨hw, hws⟩ := List.forall_mem_cons.1 hws
    rw [callAll, List.foldlM_cons, call_untagged h hw]
    exact ih hws

end Wrapper

/-- A phrase without a body is transparent. A phrase goes through it as it is, but for the tags that
are laid over its own, and so through any number of them that have no tags; of another value there
is the text alone. -/
theorem call_wrapper {b : Blueprint} {l : Locale} (h : b.build = .ok l) :
    (∀ name d, l.phrases.get? name = some d → d.bodyless → d.parameters.Nodup →
      ∀ arguments : List Value, arguments.length = d.arity →
        ∃ w : l.Wrapper, w.name = name ∧ w.definition = d ∧ w.arguments = arguments) ∧
    (∀ (w : l.Wrapper) (p : Phrase), w.call (.phrase p) = .ok
      ⟨p.text, p.variants, l.conventions.groups.inherit (.ofList w.definition.tags) p.tags⟩) ∧
    (∀ (w : l.Wrapper) (v : Value), v.phrase? = none →
      w.call v = .ok ⟨v.shown, .empty, .ofList w.definition.tags⟩) ∧
    ∀ ws : List l.Wrapper, (∀ w ∈ ws, w.definition.tags = []) →
      ∀ p, Wrapper.callAll ws p = .ok p :=
  ⟨fun _ _ hd hb hn _ ha => Wrapper.exists_wrapper h hd hb hn ha, fun w p => w.call_phrase h p,
    fun w _ hv => w.call_of_formless h hv, fun _ hws p => Wrapper.callAll_untagged h hws p⟩

/-- Two phrases without a body, one of them with a tag and a parameter that it does not use. -/
def wrapping : Blueprint where
  language := "es"
  source := "plain($t) = :from($t);\nfemale($x, $t) = :fem :from($t);"

def plain : Definition where
  name := "plain"
  parameters := ["t"]
  tags := []
  inherits := some "t"
  selectors := []
  body := .template (RawDefinition.parameterAlone "t")
  bodyless := true
  position := ⟨1, 1⟩

def female : Definition where
  name := "female"
  parameters := ["x", "t"]
  tags := ["fem"]
  inherits := some "t"
  selectors := []
  body := .template (RawDefinition.parameterAlone "t")
  bodyless := true
  position := ⟨2, 1⟩

theorem call_wrapper_female : ∃ l, wrapping.build = .ok l ∧
    (∃ w : l.Wrapper, w.definition = female ∧
      w.call (.phrase { card with tags := .ofList ["masc", "anim"] }) =
        .ok { card with tags := .ofList ["fem", "anim"] }) ∧
    (∃ w : l.Wrapper, w.definition = female ∧
      w.call (.number 3) = .ok ⟨"3", .empty, .ofList ["fem"]⟩) ∧
    ∃ w : l.Wrapper, w.definition = plain ∧ Wrapper.callAll [w, w] card = .ok card := by
  have h : ∃ l, wrapping.build = .ok l ∧ decide (l.phrases.get? "plain" = some plain ∧
      l.phrases.get? "female" = some female ∧
      l.conventions.groups = .forLanguage "es") := exists_of_build (by decide +kernel)
  obtain ⟨l, hl, ht⟩ := h
  obtain ⟨hplain, hfemale, hgroups⟩ := of_decide_eq_true ht
  obtain ⟨hexists, hphrase, hother, hall⟩ := call_wrapper hl
  obtain ⟨w, -, hw, -⟩ := hexists "plain" plain hplain rfl (by decide) [.number 0] rfl
  obtain ⟨w', -, hw', -⟩ := hexists "female" female hfemale rfl (by decide)
    [.text "x", .number 0] rfl
  refine ⟨l, hl, ⟨w', hw', ?_⟩, ⟨w', hw', ?_⟩, w, hw, hall [w, w] (by simp [hw, plain]) card⟩
  · rw [hphrase, hw', hgroups]
    decide +kernel
  · rw [hother w' (.number 3) rfl, hw']
    decide +kernel

end Locale

end Phrasebook
