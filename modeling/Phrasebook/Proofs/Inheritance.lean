import Phrasebook.Proofs.Bodies
import Phrasebook.Proofs.Built

/-!
Phrases that inherit. The forms of a phrase with a single template, or with arms, are what the
phrase gives for the forms of the phrase it inherits from.
-/

namespace Phrasebook

namespace Phrase

/-- A form that is looked up in two phrases with the same keys is either one under the same key or
the text of both. -/
theorem variant_rel {S : String → String → Prop} {p result : Phrase}
    (hf : FormWise S p.variants.entries result.variants.entries) (ht : S p.text result.text)
    (key : String) : S (p.variant key) (result.variant key) := by
  have hg := hf.get? key
  unfold variant
  generalize p.variants.get? key = held, result.variants.get? key = text at hg ⊢
  cases hg with
  | none => exact ht
  | some hs => exact hs

end Phrase

namespace Bindings

theorem lookup_reverse_cons (entries : Bindings) (key name : String) (v : Value) :
    ((key, v) :: entries).reverse.lookup name =
      (entries.reverse.lookup name).or (if name = key then some v else none) := by
  rw [List.reverse_cons, List.lookup_append, lookup_cons_ite]
  rfl

variable {parameters : List String} {arguments : List Value} {i : Nat} {parameter : String}

/-- Another argument for a parameter is another binding of it. -/
theorem value_set (hn : parameters.Nodup) (hp : parameters[i]? = some parameter) (v : Value)
    (hi : i < arguments.length) (name : String) :
    (ofArguments parameters (arguments.set i v)).value name =
      value ((parameter, v) :: ofArguments parameters arguments) name := by
  suffices h : (parameters.zip (arguments.set i v)).reverse.lookup name =
      if name = parameter then some v else (parameters.zip arguments).reverse.lookup name by
    simp only [value, ofArguments, h, lookup_cons_ite]
  induction parameters generalizing arguments i with
  | nil => simp at hp
  | cons first rest ih =>
    obtain ⟨hfirst, hrest⟩ := List.nodup_cons.1 hn
    cases arguments with
    | nil => simp at hi
    | cons a as =>
      cases i with
      | zero =>
        obtain rfl : first = parameter := by simpa using hp
        have hnone : (rest.zip as).reverse.lookup first = none := by
          refine lookup_of_not_mem fun hm => hfirst ?_
          obtain ⟨entry, he, rfl⟩ := List.mem_map.1 hm
          exact (List.of_mem_zip (List.mem_reverse.1 he)).1
        simp only [List.set_cons_zero, List.zip_cons_cons, lookup_reverse_cons]
        split
        · next h => rw [h, hnone, Option.none_or]
        · rfl
      | succ i =>
        have h := ih hrest (by simpa using hp) (by simpa using hi)
        simp only [List.set_cons_succ, List.zip_cons_cons, lookup_reverse_cons, h]
        split
        · rfl
        · rfl

theorem value_of_getElem? (hn : parameters.Nodup) (hp : parameters[i]? = some parameter) {v : Value}
    (hv : arguments[i]? = some v) : (ofArguments parameters arguments).value parameter = .ok v := by
  obtain ⟨hi, rfl⟩ := List.getElem?_eq_some_iff.1 hv
  have h := value_set hn hp arguments[i] hi parameter
  rwa [List.set_getElem_self, value_cons, if_pos rfl] at h

end Bindings

namespace Rendering

variable {c : Conventions} {call : Call} {d : Definition} {b : Bindings} {parameter : String}

theorem source_of_inherits (hi : d.inherits = some parameter) {v : Value}
    (hv : b.value parameter = .ok v) : source d b = .ok (some (parameter, v)) := by
  unfold source
  rw [hi, Option.mapM_some, hv]
  rfl

theorem forms_of_selectors (hd : ∀ entries, d.body = .entries entries → d.selectors ≠ [])
    (inherited : Option (String × Value)) :
    forms c call d b inherited = perForm c call d b inherited := by
  unfold forms
  split
  · next entries hb hs => exact absurd hs (hd entries hb)
  · rfl

/-- Each form of the result is the body with that form of the inherited phrase in its place. -/
theorem variant_of_perForm {p result : Phrase} (hv : b.value parameter = .ok (.phrase p))
    (h : perForm c call d b (some (parameter, .phrase p)) = .ok (result.text, result.variants))
    (key : String) :
    body c call d ((parameter, .phrase (p.withText (p.variant key))) :: b) =
      .ok (result.variant key) := by
  obtain ⟨ht, hf⟩ := perForm_eq_ok.1 h
  refine Phrase.variant_rel hf ?_ key
  rw [← ht]
  refine body_congr (fun name => ?_) fun _ _ => rfl
  rw [Bindings.value_cons]
  split
  · next hn => rw [hn, hv]; rfl
  · rfl

/-- With a form of the inherited phrase in its place the text is that form of the result, and the
forms are the same. -/
theorem perForm_withText {b' : Bindings} {p result : Phrase} {key : String}
    (hv : b.value parameter = .ok (.phrase p))
    (hb' : ∀ name, b'.value name =
      Bindings.value ((parameter, .phrase (p.withText (p.variant key))) :: b) name)
    (h : perForm c call d b (some (parameter, .phrase p)) = .ok (result.text, result.variants)) :
    perForm c call d b' (some (parameter, .phrase (p.withText (p.variant key)))) =
      .ok (result.variant key, result.variants) := by
  obtain ⟨-, hf⟩ := perForm_eq_ok.1 h
  -- Where the forms are rendered, both bindings have the parameter bound anew.
  have hbody (v : Value) :
      body c call d ((parameter, v) :: b') = body c call d ((parameter, v) :: b) := by
    refine body_congr (fun name => ?_) fun _ _ => rfl
    rw [Bindings.value_cons, Bindings.value_cons]
    split
    · rfl
    · next hne => rw [hb', Bindings.value_cons, if_neg hne]
  refine perForm_eq_ok.2 ⟨?_, ?_⟩
  · rw [← variant_of_perForm hv h key]
    exact body_congr hb' fun _ _ => rfl
  · simp only [hbody]
    exact hf

/-- A definition that inherits and is not a block gives each form of its result when it is called
with that form. -/
theorem definition_variant (hd : ∀ entries, d.body = .entries entries → d.selectors ≠ [])
    (hn : d.parameters.Nodup) (hi : d.inherits = some parameter) {i : Nat}
    (hp : d.parameters[i]? = some parameter) {arguments : List Value} {p result : Phrase}
    (hv : arguments[i]? = some (.phrase p))
    (hr : definition c call d arguments = .ok result) :
    (∀ key, ∃ result',
      definition c call d (arguments.set i (.phrase (p.withText (p.variant key)))) = .ok result' ∧
        result.variant key = result'.text) ∧
      result.variants.keys = p.variants.keys ∧
      result.variants.defaultKey? = p.variants.defaultKey? := by
  obtain ⟨inherited, hs, hf, -⟩ := definition_eq_ok.1 hr
  have hb := Bindings.value_of_getElem? hn hp hv
  rw [source_of_inherits hi hb] at hs
  cases hs
  rw [forms_of_selectors hd] at hf
  obtain ⟨-, hforms⟩ := perForm_eq_ok.1 hf
  refine ⟨fun key => ?_, hforms.keys, hforms.defaultKey?⟩
  obtain ⟨hlt, -⟩ := List.getElem?_eq_some_iff.1 hv
  have hset := Bindings.value_set hn hp (.phrase (p.withText (p.variant key))) hlt
  have hb' : (Bindings.ofArguments d.parameters
      (arguments.set i (.phrase (p.withText (p.variant key))))).value parameter =
        .ok (.phrase (p.withText (p.variant key))) := by
    rw [hset, Bindings.value_cons, if_pos rfl]
  refine ⟨⟨result.variant key, result.variants, tags c d (some (parameter, _))⟩,
    definition_eq_ok.2 ⟨_, source_of_inherits hi hb', ?_, rfl⟩, rfl⟩
  rw [forms_of_selectors hd]
  exact perForm_withText hb hset hf

end Rendering

namespace Locale

/-- In a locale that has been built, selecting a form and inheriting it may change places. -/
theorem variant_call {b : Blueprint} {l : Locale} (h : b.build = .ok l) {name : String}
    {d : Definition} (hd : l.phrases.get? name = some d) (hn : d.parameters.Nodup)
    (hb : ∀ entries, d.body = .entries entries → d.selectors ≠ []) {parameter : String}
    (hi : d.inherits = some parameter) {i : Nat} (hp : d.parameters[i]? = some parameter)
    {arguments : List Value} {p result : Phrase} (hv : arguments[i]? = some (.phrase p))
    (hr : l.call name arguments = .ok result) :
    (∀ key, ∃ result',
      l.call name (arguments.set i (.phrase (p.withText (p.variant key)))) = .ok result' ∧
        result.variant key = result'.text) ∧
      result.variants.keys = p.variants.keys ∧
      result.variants.defaultKey? = p.variants.defaultKey? := by
  have hc := checked_of_build h
  have ha := hc.length_of_call_eq_ok hd hr
  have hset (v : Value) : (arguments.set i v).length = d.arity := by
    rw [List.length_set, ha]
  rw [hc.call_of_get? hd ha] at hr
  simp only [hc.call_of_get? hd (hset _)]
  exact Rendering.definition_variant hb hn hi hp hv hr

/-- A phrase that inherits from its parameter and reads two forms of it. -/
def pairing : Blueprint where
  language := "en"
  source := "pair($p) = :from($p) \"\x7b$p\x7d of the \x7b$p:other\x7d\";"

def pair : Definition where
  name := "pair"
  parameters := ["p"]
  tags := []
  inherits := some "p"
  selectors := []
  body := .template ⟨[.interpolation ⟨none, .parameter "p", []⟩, .literal " of the ",
    .interpolation ⟨none, .parameter "p", [.literal "other"]⟩]⟩
  bodyless := false
  position := ⟨1, 1⟩

def card : Phrase where
  text := "card"
  variants := ⟨[("one", "card"), ("other", "cards")], by decide, by decide⟩
  tags := .empty

theorem variant_call_pairing : ∃ l result, pairing.build = .ok l ∧
    l.phrases.get? "pair" = some pair ∧ l.call "pair" [.phrase card] = .ok result ∧
    result.text = "card of the cards" ∧
    result.variants.entries = [("one", "card of the cards"), ("other", "cards of the cards")] ∧
    (∀ key, ∃ result',
      l.call "pair" ([.phrase card].set 0 (.phrase (card.withText (card.variant key)))) =
          .ok result' ∧
        result.variant key = result'.text) ∧
    result.variants.keys = card.variants.keys ∧
    result.variants.defaultKey? = card.variants.defaultKey? := by
  have h : ∃ l, pairing.build = .ok l ∧
      decide (l.phrases.get? "pair" = some pair ∧
        (l.call "pair" [.phrase card]).toOption.map (fun p => (p.text, p.variants.entries)) =
          some ("card of the cards",
            [("one", "card of the cards"), ("other", "cards of the cards")])) :=
    exists_of_build (by decide +kernel)
  obtain ⟨l, hl, ht⟩ := h
  obtain ⟨hd, hr⟩ := of_decide_eq_true ht
  obtain ⟨result, hr, hresult⟩ := Option.map_eq_some_iff.1 hr
  obtain ⟨htext, hentries⟩ := Prod.mk.inj hresult
  have hr := eq_ok_of_toOption hr
  have hb : ∀ entries, pair.body = .entries entries → pair.selectors ≠ [] := by
    intro entries hb
    cases hb
  exact ⟨l, result, hl, hd, hr, htext, hentries,
    variant_call hl hd (by decide) hb rfl (i := 0) rfl rfl hr⟩

end Locale

end Phrasebook
