import Phrasebook.Proofs.Bodies

/-!
Where the text and the forms of a block come from: the text from one of its entries, and the form
under a key from the last entry that declares the key. The texts of these entries are all that the
outcome of a block depends on.
-/

namespace Phrasebook.Rendering

variable {α β : Type} {c : Conventions} {call : Call} {b : Bindings}

/-- The form that gives a plain block its text. -/
def defaultOf (c : Conventions) (forms : List (EntryKey × α)) : Option α :=
  let byContext := c.stringContext.bind fun key =>
    (forms.find? fun form => form.1.variantKey = key).map Prod.snd
  let marked := (forms.find? fun form => form.1.isDefaultMarker).map Prod.snd
  byContext.or (marked.or (forms.head?.map Prod.snd))

/-- The form that stands under a key: the last one that is declared for it. -/
def lastOf (key : String) (forms : List (EntryKey × α)) : Option α :=
  (forms.reverse.find? fun form => form.1.variantKey = key).map Prod.snd

theorem defaultText_eq (forms : List (EntryKey × String)) :
    defaultText c forms = (defaultOf c forms).getD "" := rfl

theorem defaultOf_map (f : α → β) (forms : List (EntryKey × α)) :
    defaultOf c (forms.map fun form => (form.1, f form.2)) = (defaultOf c forms).map f := by
  have found (test : EntryKey → Bool) :
      ((forms.map fun form => (form.1, f form.2)).find? fun form => test form.1).map Prod.snd =
        ((forms.find? fun form => test form.1).map Prod.snd).map f := by
    simp only [List.find?_map, Option.map_map]
    rfl
  have head : ((forms.map fun form => (form.1, f form.2)).head?).map Prod.snd =
      (forms.head?.map Prod.snd).map f := by
    simp only [List.head?_map, Option.map_map]
    rfl
  have byContext : (c.stringContext.bind fun key =>
      ((forms.map fun form => (form.1, f form.2)).find? fun form =>
        form.1.variantKey = key).map Prod.snd) =
      (c.stringContext.bind fun key =>
        (forms.find? fun form => form.1.variantKey = key).map Prod.snd).map f := by
    cases c.stringContext with
    | none => rfl
    | some key => exact found fun k => k.variantKey = key
  unfold defaultOf
  rw [byContext, found, head, Option.map_or, Option.map_or]

theorem lastOf_map (f : α → β) (key : String) (forms : List (EntryKey × α)) :
    lastOf key (forms.map fun form => (form.1, f form.2)) = (lastOf key forms).map f := by
  simp only [lastOf, ← List.map_reverse, List.find?_map, Option.map_map]
  rfl

/-- The keys of entries, each with the place of its entry. -/
def places (entries : List Entry) : List (EntryKey × Nat) :=
  keyed entries (List.range entries.length)

theorem map_fst_places (entries : List Entry) :
    (places entries).map Prod.fst = entries.flatMap Entry.keys :=
  map_fst_keyed List.length_range

/-- The entry that gives a block its text. -/
def defaultPlace (c : Conventions) (entries : List Entry) : Option Nat :=
  defaultOf c (places entries)

/-- The last entry that declares a key. -/
def lastPlace (key : String) (entries : List Entry) : Option Nat :=
  lastOf key (places entries)

theorem getElem?_of_mem_places {entries : List Entry} {own : EntryKey} {i : Nat}
    (h : (own, i) ∈ places entries) : ∃ entry, entries[i]? = some entry ∧ own ∈ entry.keys := by
  obtain ⟨forms, hf, hm⟩ := List.mem_flatten.1 h
  obtain ⟨m, hm'⟩ := List.mem_iff_getElem?.1 hf
  rw [List.getElem?_zipWith_eq_some] at hm'
  obtain ⟨keys, place, hk, hp, rfl⟩ := hm'
  obtain ⟨entry, he, rfl⟩ := Option.map_eq_some_iff.1 ((List.getElem?_map ..).symm.trans hk)
  obtain ⟨_, hplace⟩ := List.getElem?_eq_some_iff.1 hp
  rw [List.getElem_range] at hplace
  subst hplace
  obtain ⟨key, hkey, hform⟩ := List.mem_map.1 hm
  cases hform
  exact ⟨entry, he, hkey⟩

/-- The last entry that declares a key is there when any is. -/
theorem exists_lastPlace {entries : List Entry} {key : String}
    (hk : key ∈ (entries.flatMap Entry.keys).map EntryKey.variantKey) :
    ∃ i entry, lastPlace key entries = some i ∧ entries[i]? = some entry ∧
      ∃ own ∈ entry.keys, own.variantKey = key := by
  obtain ⟨own, hown, rfl⟩ := List.mem_map.1 hk
  rw [← map_fst_places] at hown
  obtain ⟨form, hform, rfl⟩ := List.mem_map.1 hown
  have hs : ((places entries).reverse.find? fun other =>
      other.1.variantKey = form.1.variantKey).isSome := by
    rw [List.find?_isSome]
    exact ⟨form, List.mem_reverse.2 hform, decide_eq_true rfl⟩
  obtain ⟨found, hf⟩ := Option.isSome_iff_exists.1 hs
  obtain ⟨entry, he, hm⟩ := getElem?_of_mem_places
    (List.mem_reverse.1 (List.mem_of_find?_eq_some hf))
  have hkey := List.find?_some hf
  refine ⟨found.2, entry, ?_, he, found.1, hm, of_decide_eq_true hkey⟩
  rw [lastPlace, lastOf, hf]
  rfl

/-- The entry gives the block its text, or a form that no later entry declares. -/
def Shows (c : Conventions) (entries : List Entry) (i : Nat) : Prop :=
  defaultPlace c entries = some i ∨ ∃ key, lastPlace key entries = some i

variable {entries : List Entry} {found found' : List String} {t : VariantTable}

theorem keyed_eq_places (hl : found.length = entries.length) :
    keyed entries found = (places entries).map fun form => (form.1, found.getD form.2 "") := by
  have hf : found = (List.range entries.length).map fun i => found.getD i "" := by
    apply List.ext_getElem
    · simp [hl]
    · intro i hi hi'
      simp [hi]
  rw [places, ← keyed_map fun i => found.getD i "", ← hf]

theorem defaultText_keyed (hl : found.length = entries.length) :
    defaultText c (keyed entries found) =
      ((defaultPlace c entries).map fun i => found.getD i "").getD "" := by
  rw [defaultText_eq, keyed_eq_places hl, defaultOf_map fun i => found.getD i "", defaultPlace]

theorem lookup_tableOf (ht : tableOf entries found = .ok t) (hl : found.length = entries.length)
    (key : String) : t.lookup? key = (lastPlace key entries).map fun i => found.getD i "" := by
  have lookup_eq (forms : List (EntryKey × String)) :
      (forms.map fun form => (form.1.variantKey, form.2)).lookup key =
        (forms.find? fun form => form.1.variantKey = key).map Prod.snd := by
    induction forms with
    | nil => rfl
    | cons form rest ih =>
      rw [List.map_cons, lookup_cons_ite, List.find?_cons, ih]
      by_cases hk : form.1.variantKey = key
      · simp [hk]
      · simp [hk, Ne.symm hk]
  rw [VariantTable.lookup?, VariantTable.entries_of_ofForms (mapError_eq_ok.1 ht),
    lookup_gatherForms, ← List.map_reverse, lookup_eq, lastPlace, ← lastOf_map,
    ← keyed_eq_places hl, lastOf]

theorem keys_tableOf (ht : tableOf entries found = .ok t) (hl : found.length = entries.length) :
    t.keys = ((entries.flatMap Entry.keys).map EntryKey.variantKey).foldl
      (fun keys key => if key ∈ keys then keys else keys ++ [key]) [] := by
  rw [VariantTable.keys, VariantTable.entries_of_ofForms (mapError_eq_ok.1 ht), keys_gatherForms,
    ← map_fst_keyed hl, List.map_map, List.map_map]
  rfl

/-- The outcome depends on the texts of the entries that show, and on nothing else. -/
theorem outcome_eq_iff (hl : found.length = entries.length)
    (hl' : found'.length = entries.length)
    (ho : ∃ key ∈ entries.flatMap Entry.keys, endsInOther key.variantKey) :
    outcome c entries found = outcome c entries found' ↔
      ∀ i, Shows c entries i → found.getD i "" = found'.getD i "" := by
  obtain ⟨t, ht⟩ := exists_tableOf ho hl
  obtain ⟨t', ht'⟩ := exists_tableOf ho hl'
  have hf : outcome c entries found = .ok (defaultText c (keyed entries found), t) := by
    rw [outcome, ht]
    rfl
  have hf' : outcome c entries found' = .ok (defaultText c (keyed entries found'), t') := by
    rw [outcome, ht']
    rfl
  rw [hf, hf', Except.ok.injEq, Prod.mk.injEq, defaultText_keyed hl, defaultText_keyed hl']
  constructor
  · rintro ⟨hd, rfl⟩ i (hi | ⟨key, hi⟩)
    · simpa only [hi, Option.map_some, Option.getD_some] using hd
    · have hk := (lookup_tableOf ht hl key).symm.trans (lookup_tableOf ht' hl' key)
      simpa only [hi, Option.map_some, Option.some.injEq] using hk
  · intro h
    have same {place : Option Nat} (hp : ∀ i, place = some i → Shows c entries i) :
        (place.map fun i => found.getD i "") = place.map fun i => found'.getD i "" := by
      cases place with
      | none => rfl
      | some i => exact congrArg some (h i (hp i rfl))
    refine ⟨by rw [same fun i hi => .inl hi], VariantTable.eq_of_entries ?_⟩
    apply eq_of_lookup t.nodup
    · exact (keys_tableOf ht hl).trans (keys_tableOf ht' hl').symm
    · intro key
      have hk := same fun i hi => .inr ⟨key, hi⟩
      rwa [← lookup_tableOf ht hl, ← lookup_tableOf ht' hl'] at hk

variable {text key : String} {i : Nat} {entry : Entry}

/-- The text of a block is that of the entry in its default place. -/
theorem template_of_defaultPlace (h : block c call b entries = .ok (text, t))
    (hi : defaultPlace c entries = some i) (he : entries[i]? = some entry) :
    template c call b entry.template = .ok text := by
  obtain ⟨found, hf, -, hd⟩ := block_eq_ok.1 h
  obtain ⟨text', hx, htext⟩ := getElem?_of_mapM_eq_ok hf he
  rw [defaultText_keyed (length_of_texts_eq_ok hf), hi, Option.map_some, Option.getD_some,
    List.getD_eq_getElem?_getD, hx, Option.getD_some] at hd
  rw [htext, hd]

/-- The form under a key is the text of the last entry that declares the key. -/
theorem template_of_lastPlace (h : block c call b entries = .ok (text, t))
    (hi : lastPlace key entries = some i) (he : entries[i]? = some entry) :
    ∃ form, template c call b entry.template = .ok form ∧ t.lookup? key = some form := by
  obtain ⟨found, hf, ht, -⟩ := block_eq_ok.1 h
  obtain ⟨form, hx, hform⟩ := getElem?_of_mapM_eq_ok hf he
  have hlookup := lookup_tableOf ht (length_of_texts_eq_ok hf) key
  rw [hi, Option.map_some, List.getD_eq_getElem?_getD, hx, Option.getD_some] at hlookup
  exact ⟨form, hform, hlookup⟩

theorem variant_of_block {result : Phrase}
    (h : block c call b entries = .ok (result.text, result.variants))
    (hi : lastPlace key entries = some i) (he : entries[i]? = some entry) :
    template c call b entry.template = .ok (result.variant key) := by
  obtain ⟨form, hform, hlookup⟩ := template_of_lastPlace h hi he
  rw [hform, Phrase.variant, VariantTable.get?_of_lookup? hlookup, Option.getD_some]

end Phrasebook.Rendering
