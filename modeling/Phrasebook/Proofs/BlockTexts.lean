import Phrasebook.Proofs.Blocks
import Phrasebook.Proofs.Built

/-!
The text of a phrase with a block of forms. One key of the block supplies it, by the string context,
by its mark or by standing first. The text is the form under that key unless a later entry declares
the key once more, which replaces the form and leaves the text as it is.
-/

namespace Phrasebook

/-- An element that no other one of its kind stands beside is the one that a search finds. -/
theorem find?_of_length_le_one {α : Type} {xs : List α} {q : α → Bool} {x : α}
    (h : (xs.filter q).length ≤ 1) (hx : x ∈ xs) (hq : q x) : xs.find? q = some x := by
  have hm : x ∈ xs.filter q := List.mem_filter.2 ⟨hx, hq⟩
  rw [← List.head?_filter]
  match xs.filter q, h, hm with
  | [found], _, hm => exact congrArg some (List.mem_singleton.1 hm).symm

namespace Rendering

variable {c : Conventions} {call : Call} {b : Bindings} {entries : List Entry}

/-- The key that gives a block its text, with the place of its entry: the first key that is stored
as the string context, or else the one with the mark, or else the first of all. -/
inductive Supplies (context : Option String) (entries : List Entry) : EntryKey × Nat → Prop where
  | context {form : EntryKey × Nat} {key : String} (hc : context = some key)
    (hf : (places entries).find? (fun form => form.1.variantKey = key) = some form) :
    Supplies context entries form
  | marked {form : EntryKey × Nat}
    (hc : ∀ key ∈ context, ∀ form ∈ places entries, form.1.variantKey ≠ key)
    (hm : form ∈ places entries) (hs : form.1.isDefaultMarker) : Supplies context entries form
  | first {form : EntryKey × Nat}
    (hc : ∀ key ∈ context, ∀ form ∈ places entries, form.1.variantKey ≠ key)
    (hn : ∀ form ∈ places entries, form.1.isDefaultMarker = false)
    (hf : (places entries).head? = some form) : Supplies context entries form

theorem Supplies.mem {context : Option String} {form : EntryKey × Nat}
    (h : Supplies context entries form) : form ∈ places entries := by
  cases h with
  | context _ hf => exact List.mem_of_find?_eq_some hf
  | marked _ hm _ => exact hm
  | first _ _ hf => exact List.mem_of_head? hf

theorem exists_supplies (context : Option String) (h : places entries ≠ []) :
    ∃ form, Supplies context entries form := by
  by_cases hc : ∀ key ∈ context, ∀ form ∈ places entries, form.1.variantKey ≠ key
  · by_cases hm : ∃ form ∈ places entries, form.1.isDefaultMarker
    · obtain ⟨form, hm, hs⟩ := hm
      exact ⟨form, .marked hc hm hs⟩
    · refine ⟨_, .first hc (fun form hf => ?_) (List.head?_eq_some_head h)⟩
      exact Bool.eq_false_iff.2 fun hs => hm ⟨form, hf, hs⟩
  · simp only [not_forall, not_not] at hc
    obtain ⟨key, hk, form, hf, hkey⟩ := hc
    have hs : ((places entries).find? fun form => form.1.variantKey = key).isSome := by
      rw [List.find?_isSome]
      exact ⟨form, hf, decide_eq_true hkey⟩
    obtain ⟨found, hfound⟩ := Option.isSome_iff_exists.1 hs
    exact ⟨found, .context hk hfound⟩

/-- Where one key at most is marked, the key that supplies the text has the default place. -/
theorem Supplies.defaultPlace_eq {form : EntryKey × Nat}
    (h : Supplies c.stringContext entries form)
    (hm : ((entries.flatMap Entry.keys).filter EntryKey.isDefaultMarker).length ≤ 1) :
    defaultPlace c entries = some form.2 := by
  have undeclared (hc : ∀ key ∈ c.stringContext, ∀ form ∈ places entries,
      form.1.variantKey ≠ key) : (c.stringContext.bind fun key =>
        ((places entries).find? fun form => form.1.variantKey = key).map Prod.snd) = none := by
    rw [Option.bind_eq_none_iff]
    intro key hk
    rw [Option.map_eq_none_iff, List.find?_eq_none]
    exact fun form hf => by simpa using hc key hk form hf
  unfold defaultPlace defaultOf
  dsimp only
  cases h with
  | context hc hf => rw [hc, Option.bind_some, hf]; rfl
  | marked hc hmem hs =>
    rw [← map_fst_places, List.filter_map, List.length_map] at hm
    have hfind : (places entries).find? (fun form => form.1.isDefaultMarker) = some form :=
      find?_of_length_le_one hm hmem hs
    rw [undeclared hc, Option.none_or, hfind]
    rfl
  | first hc hn hf =>
    have hfind : (places entries).find? (fun form => form.1.isDefaultMarker) = none := by
      rw [List.find?_eq_none]
      exact fun form hm => by simp [hn form hm]
    rw [undeclared hc, Option.none_or, hfind, hf]
    rfl

end Rendering

namespace Locale

open Rendering (Supplies)

/-- The text of a phrase with a plain block is the form under the key that supplies it just when the
entry that supplies it and the last one that declares the key render alike. -/
theorem text_eq_form_iff {b : Blueprint} {l : Locale} (h : b.build = .ok l) {name : String}
    {d : Definition} (hd : l.phrases.get? name = some d) {entries : List Entry}
    (hb : d.body = .entries entries) (hs : d.selectors = []) {arguments : List Value}
    {result : Phrase} (hr : l.call name arguments = .ok result) :
    (∃ form, Supplies l.conventions.stringContext entries form) ∧
    ∀ own i, Supplies l.conventions.stringContext entries (own, i) →
      ∃ entry last j, entries[i]? = some entry ∧ own ∈ entry.keys ∧
        Rendering.lastPlace own.variantKey entries = some j ∧ entries[j]? = some last ∧
        (result.variants.lookup? own.variantKey = some result.text ↔
          Rendering.template l.conventions l.call (.ofArguments d.parameters arguments)
              entry.template =
            Rendering.template l.conventions l.call (.ofArguments d.parameters arguments)
              last.template) := by
  have hc := checked_of_build h
  have hforms := Definition.checkForms_of_checkBody
    (Definition.checkBody_of_check (check_of_build h hd)) hb hs
  rw [hc.call_of_get? hd (hc.length_of_call_eq_ok hd hr)] at hr
  obtain ⟨inherited, -, hblock, -⟩ := Rendering.definition_eq_ok.1 hr
  simp only [Rendering.forms, hb, hs] at hblock
  refine ⟨Rendering.exists_supplies _ ?_, fun own i hsupplies => ?_⟩
  · obtain ⟨key, hk, -⟩ := Definition.exists_other_of_checkForms hforms
    rw [← Rendering.map_fst_places] at hk
    exact fun hnil => by simp [hnil] at hk
  · obtain ⟨entry, he, hown⟩ := Rendering.getElem?_of_mem_places hsupplies.mem
    have hplace := hsupplies.defaultPlace_eq (Definition.length_marked_of_checkForms hforms)
    obtain ⟨j, last, hj, hlast, -⟩ := Rendering.exists_lastPlace
      (List.mem_map_of_mem (f := EntryKey.variantKey)
        (List.mem_flatMap.2 ⟨entry, List.mem_of_getElem? he, hown⟩))
    obtain ⟨form, hform, hlookup⟩ := Rendering.template_of_lastPlace hblock hj hlast
    refine ⟨entry, last, j, he, hown, hj, hlast, ?_⟩
    rw [Rendering.template_of_defaultPlace hblock hplace he, hform, hlookup, Option.some.injEq,
      Except.ok.injEq, eq_comm]

/-- A block that declares its first key twice. -/
def doubled : Blueprint where
  language := "en"
  source := "card = \x7b one: \"card\", one: \"a card\", other: \"cards\" \x7d;"

def doubledEntries : List Entry :=
  [⟨[⟨[.literal "one"]⟩], ⟨[.literal "card"]⟩⟩, ⟨[⟨[.literal "one"]⟩], ⟨[.literal "a card"]⟩⟩,
    ⟨[⟨[.literal "other"]⟩], ⟨[.literal "cards"]⟩⟩]

def doubledCard : Definition where
  name := "card"
  parameters := []
  tags := []
  inherits := none
  selectors := []
  body := .entries doubledEntries
  bodyless := false
  position := ⟨1, 1⟩

theorem supplies_doubled : Supplies none doubledEntries (⟨[.literal "one"]⟩, 0) :=
  .first nofun (by decide) rfl

theorem doubled_built : ∃ l result, doubled.build = .ok l ∧
    l.phrases.get? "card" = some doubledCard ∧ l.conventions.stringContext = none ∧
    l.call "card" [] = .ok result ∧ result.text = "card" ∧
    result.variants.lookup? "one" = some "a card" := by
  have h : ∃ l, doubled.build = .ok l ∧ decide (l.phrases.get? "card" = some doubledCard ∧
      l.conventions.stringContext = none ∧
      (l.call "card" []).toOption.map (fun p => (p.text, p.variants.lookup? "one")) =
        some ("card", some "a card")) :=
    exists_of_build (by decide +kernel)
  obtain ⟨l, hl, ht⟩ := h
  obtain ⟨hd, hc, hr⟩ := of_decide_eq_true ht
  obtain ⟨result, hr, hv⟩ := Option.map_eq_some_iff.1 hr
  obtain ⟨htext, hform⟩ := Prod.mk.inj hv
  exact ⟨l, result, hl, hd, hc, eq_ok_of_toOption hr, htext, hform⟩

theorem text_eq_form_iff_doubled : ∃ l result, doubled.build = .ok l ∧
    l.phrases.get? "card" = some doubledCard ∧ l.call "card" [] = .ok result ∧
    (∃ form, Supplies l.conventions.stringContext doubledEntries form) ∧
    ∀ own i, Supplies l.conventions.stringContext doubledEntries (own, i) →
      ∃ entry last j, doubledEntries[i]? = some entry ∧ own ∈ entry.keys ∧
        Rendering.lastPlace own.variantKey doubledEntries = some j ∧
        doubledEntries[j]? = some last ∧
        (result.variants.lookup? own.variantKey = some result.text ↔
          Rendering.template l.conventions l.call (.ofArguments doubledCard.parameters [])
              entry.template =
            Rendering.template l.conventions l.call (.ofArguments doubledCard.parameters [])
              last.template) := by
  obtain ⟨l, result, hl, hd, -, hr, -⟩ := doubled_built
  exact ⟨l, result, hl, hd, hr, text_eq_form_iff hl hd rfl rfl hr⟩

/-- The text is not always the form under the key that supplies it: declared again, `one` stands for
`a card`, and the text is still `card`. -/
theorem not_text_eq_form : ¬ ∀ (b : Blueprint) (l : Locale) (name : String) (d : Definition)
    (entries : List Entry) (arguments : List Value) (result : Phrase), b.build = .ok l →
    l.phrases.get? name = some d → d.body = .entries entries → d.selectors = [] →
    l.call name arguments = .ok result →
    ∀ own i, Supplies l.conventions.stringContext entries (own, i) →
      result.variants.lookup? own.variantKey = some result.text := by
  intro same
  obtain ⟨l, result, hl, hd, hc, hr, htext, hform⟩ := doubled_built
  have heq := same _ l _ _ _ [] result hl hd rfl rfl hr _ _ (hc ▸ supplies_doubled)
  rw [show EntryKey.variantKey ⟨[.literal "one"]⟩ = "one" by decide, hform, htext] at heq
  exact absurd heq (by decide)

end Locale

end Phrasebook
