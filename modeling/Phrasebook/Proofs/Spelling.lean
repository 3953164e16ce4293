import Phrasebook.Proofs.Integers
import Phrasebook.Proofs.TransformErrors
import Phrasebook.Proofs.Bodies
import Phrasebook.Proofs.Built

/-!
Numbers and the texts that show them. Nothing that renders tells one from the other: they print
alike, count alike and select alike, neither has tags or forms, and the built-in transforms see
nothing else of a value.
-/

namespace Phrasebook

open Text

namespace Value

/-- A number in the form of the text that shows it. Other values stay as they are. -/
def spelled : Value → Value
  | number n => .text (showInteger n)
  | v => v

/-- The same value, but for numbers that are spelled out. -/
def Alike (v v' : Value) : Prop :=
  v.spelled = v'.spelled

theorem Alike.refl (v : Value) : v.Alike v := rfl

theorem alike_number (n : Int64) : (text (showInteger n)).Alike (number n) := rfl

theorem shown_spelled (v : Value) : v.spelled.shown = v.shown := by
  cases v <;> rfl

theorem numeric?_spelled (v : Value) : v.spelled.numeric? = v.numeric? := by
  cases v with
  | number n =>
    have hblank := isBlank_of_integer? (integer?_showInteger n)
    simp only [spelled, numeric?, trim_eq_self hblank, integer?_showInteger]
  | text content => rfl
  | phrase p => rfl

theorem phrase?_spelled (v : Value) : v.spelled.phrase? = v.phrase? := by
  cases v <;> rfl

theorem tags_spelled (v : Value) : v.spelled.tags = v.tags := by
  cases v <;> rfl

theorem variantText_spelled (v : Value) (key : String) :
    v.spelled.variantText key = v.variantText key := by
  cases v <;> rfl

theorem candidates_spelled (category : Int64 → PluralCategory) (v : Value) :
    candidates category v.spelled = candidates category v := by
  cases v with
  | number n =>
    have hn : (text (showInteger n)).numeric? = some n := numeric?_spelled (number n)
    simp only [spelled, candidates, hn]
    rfl
  | text content => rfl
  | phrase p => rfl

namespace Alike

variable {v v' : Value}

theorem shown (h : v.Alike v') : v.shown = v'.shown := by
  rw [← shown_spelled, h, shown_spelled]

theorem numeric? (h : v.Alike v') : v.numeric? = v'.numeric? := by
  rw [← numeric?_spelled, h, numeric?_spelled]

theorem phrase? (h : v.Alike v') : v.phrase? = v'.phrase? := by
  rw [← phrase?_spelled, h, phrase?_spelled]

theorem tags (h : v.Alike v') : v.tags = v'.tags := by
  rw [← tags_spelled, h, tags_spelled]

theorem hasTag (h : v.Alike v') (tag : String) : v.hasTag tag = v'.hasTag tag := by
  rw [Value.hasTag, h.tags, Value.hasTag]

theorem variantText (h : v.Alike v') (key : String) : v.variantText key = v'.variantText key := by
  rw [← variantText_spelled, h, variantText_spelled]

theorem candidates (h : v.Alike v') (category : Int64 → PluralCategory) :
    candidates category v = Phrasebook.candidates category v' := by
  rw [← candidates_spelled, h, candidates_spelled]

/-- A phrase is like nothing but itself. -/
theorem phrase {p : Phrase} (h : v.Alike (.phrase p)) : v = .phrase p := by
  cases v with
  | phrase q => exact h
  | _ => cases h

end Alike

theorem forall₂_set {values : List Value} {i : Nat} {v v' : Value} (hi : values[i]? = some v')
    (h : v.Alike v') : List.Forall₂ Alike (values.set i v) values := by
  induction values generalizing i with
  | nil => simp at hi
  | cons w rest ih =>
    cases i with
    | zero =>
      cases hi
      exact .cons h (List.forall₂_same.2 fun w _ => Alike.refl w)
    | succ i => exact .cons (Alike.refl w) (ih hi)

end Value

open Value (Alike)

/-! ### Transforms -/

namespace Transform

/-- The transform does not tell values apart that are alike. -/
def Uniform (t : Transform) : Prop :=
  ∀ v v' : Value, v.Alike v' → ∀ context setting, t v context setting = t v' context setting

section

variable {α : Type} {v v' : Value} (h : v.Alike v')
include h

theorem choose_alike (name : String) (options : List (String × α)) :
    choose name v options = choose name v' options := by
  simp only [choose, h.hasTag, h.shown]

theorem form_alike (keys : List String) : form v keys = form v' keys := by
  simp only [form, h.phrase?, h.shown]

theorem onset_alike : Onset.of v = Onset.of v' := by
  simp only [Onset.of, h.hasTag]

end

theorem cap_uniform : cap.Uniform := by
  intro v v' h context setting
  simp only [cap, h.shown]

theorem upper_uniform : upper.Uniform := by
  intro v v' h context setting
  simp only [upper, h.shown]

theorem lower_uniform : lower.Uniform := by
  intro v v' h context setting
  simp only [lower, h.shown]

theorem englishA_uniform : englishA.Uniform := by
  intro v v' h context setting
  simp only [englishA, choose_alike h, h.shown]

theorem englishThe_uniform : englishThe.Uniform := by
  intro v v' h context setting
  simp only [englishThe, h.shown]

theorem englishPlural_uniform : englishPlural.Uniform := by
  intro v v' h context setting
  simp only [englishPlural, h.variantText]

theorem dutchDe_uniform : dutchDe.Uniform := by
  intro v v' h context setting
  simp only [dutchDe, choose_alike h, form_alike h]

theorem dutchEen_uniform : dutchEen.Uniform := by
  intro v v' h context setting
  simp only [dutchEen, form_alike h]

theorem gendered_uniform (name : String) (articles : Articles) :
    (gendered name articles).Uniform := by
  intro v v' h context setting
  simp only [gendered, choose_alike h, form_alike h, onset_alike h]

theorem declined_uniform (name : String) (cases : List (String × Case))
    (article : Case → Number → Gender → Option String) :
    (declined name cases article).Uniform := by
  intro v v' h context setting
  simp only [declined, declinedForm, choose_alike h, form_alike h]

theorem romanianDef_uniform : romanianDef.Uniform := by
  intro v v' h context setting
  simp only [romanianDef, choose_alike h, form_alike h, h.phrase?]

theorem arabicAl_uniform : arabicAl.Uniform := by
  intro v v' h context setting
  simp only [arabicAl, choose_alike h, h.shown]

theorem counted_uniform (measures : List (String × String))
    (arrange : String → String → String → String) : (counted measures arrange).Uniform := by
  intro v v' h context setting
  simp only [counted, choose_alike h, h.shown]

theorem koreanParticle_uniform : koreanParticle.Uniform := by
  intro v v' h context setting
  simp only [koreanParticle, h.shown]

theorem turkishInflect_uniform : turkishInflect.Uniform := by
  intro v v' h context setting
  simp only [turkishInflect, choose_alike h, h.shown]

theorem finnishInflect_uniform : finnishInflect.Uniform := by
  intro v v' h context setting
  simp only [finnishInflect, choose_alike h, form_alike h]

theorem postposition_uniform (name word : String) : (postposition name word).Uniform := by
  intro v v' h context setting
  simp only [postposition, oblique, form_alike h]

theorem hindiKa_uniform : hindiKa.Uniform := by
  intro v v' h context setting
  simp only [hindiKa, oblique, form_alike h]

end Transform

/-- No built-in transform tells a number from the text that shows it. -/
theorem Builtin.uniform (t : Builtin) : t.transform.Uniform := by
  unfold transform
  cases t with
  | cap => exact Transform.cap_uniform
  | upper => exact Transform.upper_uniform
  | lower => exact Transform.lower_uniform
  | englishA => exact Transform.englishA_uniform
  | englishThe => exact Transform.englishThe_uniform
  | englishPlural => exact Transform.englishPlural_uniform
  | dutchDe => exact Transform.dutchDe_uniform
  | dutchEen => exact Transform.dutchEen_uniform
  | spanishEl | spanishUn | portugueseO | portugueseUm | portugueseDe | portugueseEm
  | frenchLe | frenchUn | frenchDe | frenchAu | italianIl | italianUn | italianDi | italianA =>
    exact Transform.gendered_uniform _ _
  | germanDer | germanEin | greekO | greekEnas => exact Transform.declined_uniform _ _ _
  | romanianDef => exact Transform.romanianDef_uniform
  | arabicAl => exact Transform.arabicAl_uniform
  | chineseCount | japaneseCount | koreanCount | vietnameseCount | thaiCount =>
    exact Transform.counted_uniform _ _
  | koreanParticle => exact Transform.koreanParticle_uniform
  | turkishInflect => exact Transform.turkishInflect_uniform
  | finnishInflect => exact Transform.finnishInflect_uniform
  | hindiKa => exact Transform.hindiKa_uniform
  | hindiKo | hindiSe | hindiMe | hindiPar | hindiNe => exact Transform.postposition_uniform _ _

/-! ### Rendering -/

theorem map_alike {α : Type} {f : Value → α} (hf : ∀ v v', Alike v v' → f v = f v')
    {values values' : List Value} (h : List.Forall₂ Alike values values') :
    values.map f = values'.map f := by
  induction h with
  | nil => rfl
  | cons hv _ ih => rw [List.map_cons, List.map_cons, hf _ _ hv, ih]

/-- The transforms make the same of values that are alike. -/
def Conventions.Uniform (c : Conventions) : Prop :=
  ∀ name (v v' : Value), v.Alike v' → ∀ context, c.apply name v context = c.apply name v' context

/-- Arguments that are alike give one result. -/
def Call.Uniform (call : Call) : Prop :=
  ∀ name arguments arguments', List.Forall₂ Value.Alike arguments arguments' →
    call name arguments = call name arguments'

namespace Bindings

/-- The parameters have values that are alike. -/
def Alike (b b' : Bindings) : Prop :=
  ∀ name, Agree Value.Alike (b.value name) (b'.value name)

theorem Alike.refl (b : Bindings) : b.Alike b :=
  fun name => Agree.refl Value.Alike.refl (b.value name)

theorem Alike.cons {b b' : Bindings} (hb : b.Alike b') (key : String) {v v' : Value}
    (hv : v.Alike v') : Alike ((key, v) :: b) ((key, v') :: b') := by
  intro name
  rw [value_cons, value_cons]
  split
  · exact .ok hv
  · exact hb name

theorem alike_of_forall₂ {b b' : Bindings}
    (h : List.Forall₂ (fun e e' => e.1 = e'.1 ∧ e.2.Alike e'.2) b b') : b.Alike b' := by
  induction h with
  | nil => exact Alike.refl []
  | @cons e e' _ _ he _ ih =>
    obtain ⟨key, v⟩ := e
    obtain ⟨_, v'⟩ := e'
    obtain ⟨rfl, hv⟩ := he
    exact ih.cons key hv

theorem alike_ofArguments {arguments arguments' : List Value} (parameters : List String)
    (h : List.Forall₂ Value.Alike arguments arguments') :
    (ofArguments parameters arguments).Alike (ofArguments parameters arguments') := by
  refine alike_of_forall₂ (List.rel_reverse ?_)
  induction h generalizing parameters with
  | nil => simp
  | cons hv _ ih =>
    cases parameters with
    | nil => exact .nil
    | cons parameter parameters => exact .cons ⟨rfl, hv⟩ (ih parameters)

end Bindings

namespace Rendering

variable {c : Conventions} {call : Call} {b b' : Bindings} {v v' : Value}

theorem keyOf_alike (h : v.Alike v') (parameter : String) :
    keyOf c parameter v = keyOf c parameter v' := by
  cases v' with
  | phrase p => rw [h.phrase]
  | _ =>
    cases v with
    | phrase p => cases h
    | _ => simp only [keyOf, h.numeric?, h.shown]

theorem contextOf_alike (h : v.Alike v') : contextOf v = contextOf v' := by
  cases v' with
  | phrase p => rw [h.phrase]
  | _ =>
    cases v with
    | phrase p => cases h
    | _ => exact h.shown

/-! Parameters that are alike -/

section

variable (hb : b.Alike b')
include hb

theorem selectorKey_alike (s : Selector) : selectorKey c b s = selectorKey c b' s := by
  cases s with
  | literal key => rfl
  | parameter name => exact (hb name).bind_eq fun v v' h => keyOf_alike h name

theorem context_alike (s : Selector) : context b s = context b' s := by
  cases s with
  | literal text => rfl
  | parameter name => exact ((hb name).map fun v v' h => contextOf_alike h).eq

theorem select_alike (h : v.Alike v') (selectors : List Selector) :
    Agree Value.Alike (select c b v selectors) (select c b' v' selectors) := by
  cases v' with
  | phrase p =>
    rw [h.phrase]
    cases selectors with
    | nil => exact .ok (Value.Alike.refl _)
    | cons s rest =>
      simp only [select, mapM_congr fun s _ => selectorKey_alike (c := c) hb s]
      exact Agree.refl Value.Alike.refl _
  | _ =>
    cases v with
    | phrase p => cases h
    | _ => exact .ok h

theorem argument_alike (a : Argument) :
    Agree Value.Alike (argument call b a) (argument call b' a) := by
  cases a with
  | parameter name => exact hb name
  | _ => exact Agree.refl Value.Alike.refl _

theorem chosen_alike (d : Definition) : chosen c d b = chosen c d b' := by
  unfold chosen
  split
  · rfl
  · refine (Agree.mapM hb d.selectors).bind_eq fun values values' h => ?_
    rw [map_alike (fun v v' hv => hv.candidates _) h, map_alike (fun v v' hv => hv.shown) h]

/-- Both inherit from nothing, or through one parameter. -/
theorem source_alike (d : Definition) :
    Agree (Option.Rel fun s s' => s.1 = s'.1 ∧ s.2.Alike s'.2) (source d b) (source d b') := by
  unfold source
  cases d.inherits with
  | none => exact .ok .none
  | some name =>
    rw [Option.mapM_some, Option.mapM_some]
    refine Agree.map (R := fun s s' => s.1 = s'.1 ∧ s.2.Alike s'.2) ?_ fun s s' h => .some h
    exact (hb name).map fun v v' h => ⟨rfl, h⟩

end

/-! Calls and transforms that do not tell arguments apart -/

section

variable (hcall : call.Uniform)
  (ht : c.Uniform)

theorem reference_alike (hcall : call.Uniform) (hb : b.Alike b') (r : Reference) :
    Agree Value.Alike (reference call b r) (reference call b' r) := by
  cases r with
  | parameter name => exact hb name
  | term name => exact Agree.refl Value.Alike.refl _
  | call name arguments =>
    refine (Agree.mapM (argument_alike hb) arguments).bind fun values values' h => ?_
    rw [hcall name values values' h]
    exact Agree.refl Value.Alike.refl _

include ht

theorem transform_alike (hb : b.Alike b') (h : v.Alike v') (t : Option TransformCall) :
    transform c b v t = transform c b' v' t := by
  cases t with
  | none => exact congrArg _ h.shown
  | some t =>
    obtain ⟨name, s⟩ := t
    have hc : s.mapM (context b) = s.mapM (context b') := by
      cases s with
      | none => rfl
      | some s => simp only [Option.mapM_some, context_alike hb s]
    simp only [transform, hc, ht name v v' h]

include hcall

theorem interpolation_alike (hb : b.Alike b') (hole : Interpolation) :
    interpolation c call b hole = interpolation c call b' hole := by
  refine (reference_alike hcall hb hole.reference).bind_eq fun v v' hv => ?_
  refine (select_alike hb hv hole.selectors).bind_eq fun w w' hw => ?_
  exact transform_alike ht hb hw hole.transform

theorem template_alike (hb : b.Alike b') (t : Template) :
    template c call b t = template c call b' t := by
  have h : t.segments.mapM (segment c call b) = t.segments.mapM (segment c call b') := by
    refine mapM_congr fun s _ => ?_
    cases s with
    | literal text => rfl
    | interpolation hole => exact interpolation_alike hcall ht hb hole
  simp only [template, h]

theorem block_alike (hb : b.Alike b') (entries : List Entry) :
    block c call b entries = block c call b' entries := by
  have h : entries.mapM (entryForms c call b) = entries.mapM (entryForms c call b') :=
    mapM_congr fun entry _ => by simp only [entryForms, template_alike hcall ht hb]
  simp only [block, h]

theorem body_alike (hb : b.Alike b') (d : Definition) : body c call d b = body c call d b' := by
  simp only [body, chosen_alike hb, template_alike hcall ht hb]

theorem perForm_alike (hb : b.Alike b') (d : Definition) {s s' : Option (String × Value)}
    (hs : Option.Rel (fun s s' => s.1 = s'.1 ∧ s.2.Alike s'.2) s s') :
    perForm c call d b s = perForm c call d b' s' := by
  have hforms (parameter : String) (p : Phrase) :
      p.variants.entries.mapM (fun form => do
        let text ← body c call d ((parameter, .phrase (p.withText form.2)) :: b)
        return (form.1, text)) =
      p.variants.entries.mapM (fun form => do
        let text ← body c call d ((parameter, .phrase (p.withText form.2)) :: b')
        return (form.1, text)) :=
    mapM_congr fun form _ => by
      rw [body_alike hcall ht (hb.cons parameter (Value.Alike.refl _))]
  unfold perForm
  rw [body_alike hcall ht hb]
  cases hs with
  | none => rfl
  | @some s s' h =>
    obtain ⟨parameter, v⟩ := s
    obtain ⟨_, v'⟩ := s'
    obtain ⟨rfl, hv⟩ := h
    cases v' with
    | phrase p =>
      cases hv.phrase
      simp only [hforms]
    | _ =>
      cases v with
      | phrase p => cases hv
      | _ => rfl

theorem definition_alike (d : Definition) {arguments arguments' : List Value}
    (h : List.Forall₂ Value.Alike arguments arguments') :
    definition c call d arguments = definition c call d arguments' := by
  have hb := Bindings.alike_ofArguments d.parameters h
  refine (source_alike hb d).bind_eq fun s s' hs => ?_
  have htags : tags c d s = tags c d s' := by
    cases hs with
    | none => rfl
    | some hv => simp only [tags, hv.2.tags]
  have hforms : forms c call d (.ofArguments d.parameters arguments) s =
      forms c call d (.ofArguments d.parameters arguments') s' := by
    unfold forms
    split
    · exact block_alike hcall ht hb _
    · exact perForm_alike hcall ht hb d hs
  rw [hforms, htags]

end

end Rendering

/-! ### Locales -/

namespace Locale

variable {l : Locale} (ht : l.conventions.Uniform)
include ht

theorem callWithin_uniform (depth : Nat) : Call.Uniform (l.callWithin depth) := by
  induction depth with
  | zero =>
    intro name arguments arguments' h
    simp only [callWithin, enter, h.length_eq]
  | succ depth ih =>
    intro name arguments arguments' h
    simp only [callWithin, enter, h.length_eq, Rendering.definition_alike ih ht _ h]

theorem call_uniform : Call.Uniform l.call :=
  callWithin_uniform ht l.phrases.size

theorem evaluate_alike {b b' : Bindings} (hb : b.Alike b') (template : String) :
    l.evaluate template b = l.evaluate template b' := by
  simp only [evaluate, Rendering.template_alike (call_uniform ht) ht hb]

omit ht

/-- The transforms of a locale without transforms of its own are the built-in ones. -/
theorem uniform_of_build {b : Blueprint} (h : b.build = .ok l) (hb : b.transforms = []) :
    l.conventions.Uniform := by
  obtain ⟨language, -, hr⟩ := Blueprint.registry_of_build h
  rw [Blueprint.registry, hb] at hr
  intro name v v' hv context
  simp only [conventions, Registry.apply]
  cases hg : l.transforms.get? name with
  | none => rfl
  | some t =>
    rw [hr] at hg
    obtain ⟨builtin, rfl⟩ := Registry.exists_builtin_of_get? hg
    exact builtin.uniform v v' hv context _

/-- A number and the text that shows it cannot be told apart: in a locale without transforms of its
own, an argument or a parameter gives the same result, or the same error, as the one or the
other. -/
theorem call_shown_number {b : Blueprint} (h : b.build = .ok l) (hb : b.transforms = []) :
    (∀ name (arguments : List Value) (i : Nat) n, arguments[i]? = some (.number n) →
      l.call name (arguments.set i (.text (showInteger n))) = l.call name arguments) ∧
    ∀ template (parameters : Bindings) name n, parameters.value name = .ok (.number n) →
      l.evaluate template ((name, .text (showInteger n)) :: parameters) =
        l.evaluate template parameters := by
  have ht := uniform_of_build h hb
  constructor
  · intro name arguments i n hi
    exact call_uniform ht name _ _ (Value.forall₂_set hi (Value.alike_number n))
  · intro template parameters name n hn
    refine evaluate_alike ht (fun other => ?_) template
    rw [Bindings.value_cons]
    split
    · next he =>
      rw [he, hn]
      exact .ok (Value.alike_number n)
    · exact Agree.refl Value.Alike.refl _

/-- A draw of cards, which shows its number and counts by it. -/
def draw : Blueprint where
  language := "en"
  source := "card = \x7b one: \"card\", other: \"cards\" \x7d;
    draw($n) = :match($n) \x7b 0: \"Draw nothing.\", *: \"Draw \x7b$n\x7d \x7bcard:$n\x7d.\" \x7d;"

theorem call_shown_number_draw : ∃ l, draw.build = .ok l ∧ draw.transforms = [] ∧
    l.call "draw" [.text "-3"] = l.call "draw" [.number (-3)] ∧
    l.evaluate "\x7bdraw($n)\x7d" [("n", .text "-3"), ("n", .number (-3))] =
      l.evaluate "\x7bdraw($n)\x7d" [("n", .number (-3))] ∧
    (l.call "draw" [.number (-3)]).map Phrase.text = .ok "Draw -3 cards." := by
  have h : ∃ l, draw.build = .ok l ∧ decide (
      ((l.call "draw" [.number (-3)]).map Phrase.text).toOption = some "Draw -3 cards.") :=
    exists_of_build (by decide +kernel)
  obtain ⟨l, hl, hcall⟩ := h
  obtain ⟨hc, he⟩ := call_shown_number hl rfl
  have hshown : showInteger (-3) = "-3" := by decide +kernel
  refine ⟨l, hl, rfl, ?_, ?_, eq_ok_of_toOption (of_decide_eq_true hcall)⟩
  · exact hshown ▸ hc "draw" [.number (-3)] 0 (-3) rfl
  · exact hshown ▸ he "\x7bdraw($n)\x7d" [("n", .number (-3))] "n" (-3) rfl

end Locale

end Phrasebook
