import Phrasebook.Proofs.Edits
import Phrasebook.Proofs.Inheritance

/-!
Holes that are reported to select needlessly: the entry of a block passes on the form of the
inherited parameter under one of its own keys. A block does not bind the parameter anew for its
entries, so that the parameter alone reads as the text of the phrase and not as that form.
-/

namespace Phrasebook

namespace Definition

variable {d : Definition} {parameter key : String} {entries : List Entry}

theorem inheritingBlock?_eq_some :
    d.inheritingBlock? = some (parameter, entries) ↔
      d.inherits = some parameter ∧ d.body = .entries entries ∧ d.selectors = [] := by
  unfold inheritingBlock?
  split
  · next p es hi hb hs =>
    simp only [Option.some.injEq, Prod.mk.injEq, hi, hb, hs, Body.entries.injEq, and_true]
  · next hne =>
    constructor
    · intro h
      cases h
    · rintro ⟨hi, hb, hs⟩
      exact (hne _ _ hi hb hs).elim

theorem passedKey?_eq_some {hole : Interpolation} {keys : List EntryKey} :
    passedKey? hole parameter keys = some key ↔
      hole = ⟨none, .parameter parameter, [.literal key]⟩ ∧
        ∃ own ∈ keys, own.variantKey = key := by
  unfold passedKey?
  split
  · next name key' =>
    simp only [Option.ite_none_right_eq_some, List.any_eq_true, decide_eq_true_eq,
      Option.some.injEq, Interpolation.mk.injEq, Reference.parameter.injEq, List.cons.injEq,
      Selector.literal.injEq, and_true, true_and]
    constructor
    · rintro ⟨⟨rfl, hk⟩, rfl⟩
      exact ⟨⟨rfl, rfl⟩, hk⟩
    · rintro ⟨⟨rfl, rfl⟩, hk⟩
      exact ⟨⟨rfl, hk⟩, rfl⟩
  · next hne =>
    constructor
    · intro h
      cases h
    · rintro ⟨rfl, -⟩
      exact (hne _ _ rfl).elim

/-- Entry `i` of a block passes on, at place `j`, the form of the inherited parameter under one of
the entry's own keys. -/
structure Passes (d : Definition) (entries : List Entry) (i : Nat) (entry : Entry) (j : Nat)
    (parameter key : String) : Prop where
  block : d.inheritingBlock? = some (parameter, entries)
  place : entries[i]? = some entry
  hole : entry.template.segments[j]? = some (.formOf parameter key)
  own : ∃ own ∈ entry.keys, own.variantKey = key

/-- The holes that pass a form on are the ones that are reported. -/
theorem mem_redundantSelectors {language : String} {w : Warning} :
    w ∈ d.redundantSelectors language ↔
      ∃ entries i entry j parameter key, d.Passes entries i entry j parameter key ∧
        w = .redundantSelector d.name language key parameter := by
  unfold redundantSelectors
  constructor
  · intro hw
    split at hw
    · next parameter entries hb =>
      obtain ⟨entry, he, hw⟩ := List.mem_flatMap.1 hw
      obtain ⟨hole, hh, hw⟩ := List.mem_filterMap.1 hw
      obtain ⟨key, hk, rfl⟩ := Option.map_eq_some_iff.1 hw
      obtain ⟨rfl, hown⟩ := passedKey?_eq_some.1 hk
      obtain ⟨i, hi⟩ := List.mem_iff_getElem?.1 he
      obtain ⟨j, hj⟩ := List.mem_iff_getElem?.1 (Template.mem_interpolations.1 hh)
      exact ⟨entries, i, entry, j, parameter, key, ⟨hb, hi, hj, hown⟩, rfl⟩
    · cases hw
  · rintro ⟨entries, i, entry, j, parameter, key, ⟨hb, hi, hj, hown⟩, rfl⟩
    rw [hb]
    refine List.mem_flatMap.2 ⟨entry, List.mem_of_getElem? hi, List.mem_filterMap.2 ?_⟩
    refine ⟨_, Template.mem_interpolations.2 (List.mem_of_getElem? hj), ?_⟩
    rw [passedKey?_eq_some.2 ⟨rfl, hown⟩]
    rfl

theorem Passes.template_mem {i j : Nat} {entry : Entry}
    (h : d.Passes entries i entry j parameter key) : entry.template ∈ d.templates :=
  template_mem_templates (inheritingBlock?_eq_some.1 h.block).2.1 (List.mem_of_getElem? h.place)

end Definition

namespace Rendering

variable {c : Conventions} {call : Call} {d : Definition} {arguments : List Value}

/-- A block that inherits takes from its parameter no more than the tags. -/
theorem definition_of_block {parameter : String} {entries : List Entry}
    (hb : d.inheritingBlock? = some (parameter, entries)) {v : Value}
    (hv : (Bindings.ofArguments d.parameters arguments).value parameter = .ok v) :
    definition c call d arguments =
      (block c call (.ofArguments d.parameters arguments) entries).map fun r =>
        ⟨r.1, r.2, tags c d (some (parameter, v))⟩ := by
  obtain ⟨hi, hbody, hs⟩ := Definition.inheritingBlock?_eq_some.1 hb
  rw [definition, source_of_inherits hi hv]
  simp only [forms, hbody, hs]
  cases block c call (.ofArguments d.parameters arguments) entries with
  | error e => rfl
  | ok r => rfl

/-- With the bare parameter in the place of a form that is passed on, the outcome is another one
just when the two read differently and the entry shows. -/
theorem definition_bare_iff {entries : List Entry} {i j : Nat} {entry : Entry}
    {parameter key : String} (hp : d.Passes entries i entry j parameter key)
    (ho : ∃ own ∈ entries.flatMap Entry.keys, endsInOther own.variantKey) {v : Value}
    (hv : (Bindings.ofArguments d.parameters arguments).value parameter = .ok v) :
    definition c call (d.withBody (.entries (entries.set i (entry.put j (.bare parameter)))))
        arguments = definition c call d arguments ↔
      ¬ ((∃ result, definition c call d arguments = .ok result) ∧ Shows c entries i ∧
        v.variantText key ≠ v.shown) := by
  obtain ⟨hi, -, hs⟩ := Definition.inheritingBlock?_eq_some.1 hp.block
  have hb : (d.withBody (.entries
      (entries.set i (entry.put j (.bare parameter))))).inheritingBlock? =
        some (parameter, entries.set i (entry.put j (.bare parameter))) :=
    Definition.inheritingBlock?_eq_some.2 ⟨hi, rfl, hs⟩
  have hform : segment c call (Bindings.ofArguments d.parameters arguments)
      (.formOf parameter key) = .ok (v.variantText key) := segment_formOf hv key
  have hblock := block_put_iff hp.place (List.getElem?_eq_some_iff.1 hp.hole).1 ho hform
    (segment_bare hv)
  rw [Entry.set_put_of_getElem? hp.place hp.hole] at hblock
  rw [definition_of_block hb hv, definition_of_block hp.block hv]
  refine (map_inj ?_).trans (hblock.trans (not_congr (and_congr_left' ?_)))
  · rintro ⟨text, t⟩ ⟨text', t'⟩ h
    cases h
    rfl
  · constructor
    · rintro ⟨r, hr⟩
      exact ⟨_, map_eq_ok.2 ⟨r, hr, rfl⟩⟩
    · rintro ⟨result, hr⟩
      obtain ⟨r, hr, -⟩ := map_eq_ok.1 hr
      exact ⟨r, hr⟩

end Rendering

namespace Locale

variable {l : Locale} {name : String} {d : Definition}

theorem mem_lint {w : Warning} :
    w ∈ l.lint ↔ ∃ name d, l.phrases.get? name = some d ∧ w ∈ d.lint l.language := by
  rw [lint, lintAll, List.mem_flatMap]
  constructor
  · rintro ⟨d, hd, hw⟩
    obtain ⟨name, hd⟩ := Dictionary.mem_values.1 hd
    exact ⟨name, d, hd, hw⟩
  · rintro ⟨name, d, hd, hw⟩
    exact ⟨d, Dictionary.mem_values.2 ⟨name, hd⟩, hw⟩

variable {entries : List Entry} {i j : Nat} {entry : Entry} {parameter key : String}

theorem Checked.replaces_bare (h : l.Checked) (hd : l.phrases.get? name = some d)
    (hp : d.Passes entries i entry j parameter key) :
    l.Replaces d (d.withBody (.entries (entries.set i (entry.put j (.bare parameter))))) := by
  obtain ⟨hi, hb, hs⟩ := Definition.inheritingBlock?_eq_some.1 hp.block
  apply h.replaces_withBody hd hi
  · intro t ht hole hh
    obtain ⟨e, he, rfl⟩ := List.mem_map.1 ht
    rcases List.mem_or_eq_of_mem_set he with hm | rfl
    · have ht := Definition.template_mem_templates hb hm
      exact .inl (Definition.mem_interpolations_of_mem_templates ht hh)
    · refine (Template.mem_interpolations_put hh).imp_left fun hm => ?_
      exact Definition.mem_interpolations_of_mem_templates hp.template_mem hm
  · intro entries' he _
    obtain ⟨own, hown, ho⟩ := (h.supported name d hd).other entries hb hs
    cases he
    refine ⟨own, ?_, ho⟩
    rwa [List.flatMap_def, Entry.map_keys_set_put hp.place, ← List.flatMap_def]

/-- A hole that is reported reads as the bare parameter in every call, but for those that succeed
with a phrase whose form is not its text, where the entry shows. A transform that reads the phrases
of its locale would tell the two definitions apart by itself. -/
theorem redundantSelector_iff {b : Blueprint} (h : b.build = .ok l)
    (hd : l.phrases.get? name = some d) (hp : d.Passes entries i entry j parameter key) :
    .redundantSelector name l.language key parameter ∈ l.lint ∧
      (b.KeepsToLanguage → ∀ arguments,
        (l.redefine (d.withBody (.entries (entries.set i (entry.put j (.bare parameter)))))).call
            name arguments = l.call name arguments ↔
          ¬ ∃ p result,
            (Bindings.ofArguments d.parameters arguments).value parameter = .ok (.phrase p) ∧
            l.call name arguments = .ok result ∧ Rendering.Shows l.conventions entries i ∧
            p.variant key ≠ p.text) := by
  have hc := checked_of_build h
  have hr := hc.replaces_bare hd hp
  obtain ⟨hi, hb, hs⟩ := Definition.inheritingBlock?_eq_some.1 hp.block
  obtain rfl := hc.named name d hd
  refine ⟨mem_lint.2 ⟨_, d, hd, ?_⟩, fun hk arguments => ?_⟩
  · have hw : .redundantSelector d.name l.language key parameter ∈
        d.redundantSelectors l.language :=
      Definition.mem_redundantSelectors.2 ⟨entries, i, entry, j, parameter, key, hp, rfl⟩
    simp only [Definition.lint, List.mem_append]
    exact .inl (.inl (.inr hw))
  by_cases ha : arguments.length = d.arity
  · have hmem := (hc.supported d.name d hd).inherits parameter hi
    obtain ⟨v, hv⟩ := Bindings.exists_value hmem ha
    have ho := (hc.supported d.name d hd).other entries hb hs
    have hcall := hr.call_redefine hc (hk.of_build h) ha
    rw [Definition.name_withBody] at hcall
    rw [hcall, hc.call_of_get? hd ha, Rendering.definition_bare_iff hp ho hv]
    refine not_congr ⟨?_, ?_⟩
    · rintro ⟨⟨result, hresult⟩, hshow, hne⟩
      cases v with
      | number n => exact absurd rfl hne
      | text content => exact absurd rfl hne
      | phrase p => exact ⟨p, result, hv, hresult, hshow, hne⟩
    · rintro ⟨p, result, hp', hresult, hshow, hne⟩
      cases hv.symm.trans hp'
      exact ⟨⟨result, hresult⟩, hshow, hne⟩
  · have hcall := hr.call_of_length_ne hc ha
    rw [Definition.name_withBody] at hcall
    refine iff_of_true hcall ?_
    rintro ⟨-, result, -, hresult, -⟩
    exact ha (hc.length_of_call_eq_ok hd hresult)

/-- A block that passes on both forms of its parameter. -/
def counting : Blueprint where
  language := "en"
  source := "count($p) = :from($p) \x7b one: \"\x7b$p:one\x7d\", other: \"\x7b$p:other\x7d\" \x7d;"

def passing (key : String) : Entry :=
  ⟨[⟨[.literal key]⟩], ⟨[.formOf "p" key]⟩⟩

def count : Definition where
  name := "count"
  parameters := ["p"]
  tags := []
  inherits := some "p"
  selectors := []
  body := .entries [passing "one", passing "other"]
  bodyless := false
  position := ⟨1, 1⟩

theorem passes_count :
    count.Passes [passing "one", passing "other"] 1 (passing "other") 0 "p" "other" :=
  ⟨rfl, rfl, rfl, _, List.mem_cons_self, by decide⟩

theorem redundantSelector_iff_counting : ∃ l, counting.build = .ok l ∧
    counting.KeepsToLanguage ∧ l.phrases.get? "count" = some count ∧
    .redundantSelector "count" l.language "other" "p" ∈ l.lint ∧
      ∀ arguments,
        (l.redefine (count.withBody (.entries
            ([passing "one", passing "other"].set 1 ((passing "other").put 0 (.bare "p")))))).call
            "count" arguments = l.call "count" arguments ↔
          ¬ ∃ p result,
            (Bindings.ofArguments count.parameters arguments).value "p" = .ok (.phrase p) ∧
            l.call "count" arguments = .ok result ∧
            Rendering.Shows l.conventions [passing "one", passing "other"] 1 ∧
            p.variant "other" ≠ p.text := by
  have h : ∃ l, counting.build = .ok l ∧ decide (l.phrases.get? "count" = some count) :=
    exists_of_build (by decide +kernel)
  obtain ⟨l, hl, ht⟩ := h
  have hd := of_decide_eq_true ht
  have hk : counting.KeepsToLanguage := .of_transforms_eq_nil rfl
  obtain ⟨hw, hsame⟩ := redundantSelector_iff hl hd passes_count
  exact ⟨l, hl, hk, hd, hw, hsame hk⟩

/-- What is reported does not always read the same: with the bare parameter the form for `other` of
one card is `card` and no longer `cards`. -/
theorem not_redundantSelector_sound : ¬ ∀ (b : Blueprint) (l : Locale) (name : String)
    (d : Definition) (entries : List Entry) (i : Nat) (entry : Entry) (j : Nat)
    (parameter key : String), b.build = .ok l → b.KeepsToLanguage →
    l.phrases.get? name = some d → d.Passes entries i entry j parameter key →
    .redundantSelector name l.language key parameter ∈ l.lint → ∀ arguments,
      (l.redefine (d.withBody (.entries (entries.set i (entry.put j (.bare parameter)))))).call
        name arguments = l.call name arguments := by
  intro sound
  have h : ∃ l, counting.build = .ok l ∧ decide (l.phrases.get? "count" = some count ∧
      .redundantSelector "count" l.language "other" "p" ∈ l.lint ∧
      ((l.redefine (count.withBody (.entries
        ([passing "one", passing "other"].set 1 ((passing "other").put 0 (.bare "p")))))).call
          "count" [.phrase card]).toOption.map (·.variant "other") = some "card" ∧
      (l.call "count" [.phrase card]).toOption.map (·.variant "other") = some "cards") :=
    exists_of_build (by decide +kernel)
  obtain ⟨l, hl, ht⟩ := h
  obtain ⟨hd, hw, hbare, hform⟩ := of_decide_eq_true ht
  rw [sound _ l _ _ _ _ _ _ _ _ hl (.of_transforms_eq_nil rfl) hd passes_count hw, hform] at hbare
  exact absurd hbare (by decide)

end Locale

end Phrasebook
