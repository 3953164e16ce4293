import Mathlib.Data.List.Induction
import Phrasebook.Proofs.Lookup

/-!
What holds of every table made of forms. It has each key once, in the order in which they first
come, with the last text under it, and one of its entries is the default. All but the texts depends
on the keys alone, so that a table with other texts is of the same shape.
-/

namespace Phrasebook

open Text

variable {forms : List (String × String)}

/-! ### Keys and their texts -/

/-- The keys stay in the order in which they first come. -/
theorem keys_gatherForms_eq_eraseDups (forms : List (String × String)) :
    (gatherForms forms).map Prod.fst = (forms.map Prod.fst).eraseDups := by
  rw [keys_gatherForms]
  induction forms.map Prod.fst using List.reverseRecOn with
  | nil => rfl
  | append_singleton keys key ih =>
    rw [List.foldl_concat, ih, List.eraseDups_append]
    by_cases hk : key ∈ keys
    · simp [hk, List.removeAll]
    · simp [hk, List.removeAll, List.eraseDups_cons]

/-- No form behind this one has its key. -/
def IsLast (forms : List (String × String)) (form : String × String) : Prop :=
  ∃ before after, forms = before ++ form :: after ∧ form.1 ∉ after.map Prod.fst

theorem mem_gatherForms {form : String × String} :
    form ∈ gatherForms forms ↔ IsLast forms form := by
  have hlookup : form ∈ gatherForms forms ↔ forms.reverse.lookup form.1 = some form.2 := by
    rw [← lookup_gatherForms]
    exact mem_iff_lookup (nodup_gatherForms forms)
  rw [hlookup, List.lookup_eq_some_iff]
  constructor
  · rintro ⟨after, before, hforms, hafter⟩
    refine ⟨before.reverse, after.reverse, ?_, ?_⟩
    · rw [← List.reverse_reverse forms, hforms]
      simp
    · intro hm
      obtain ⟨other, ho, he⟩ := List.mem_map.1 hm
      exact bne_iff_ne.1 (hafter other (List.mem_reverse.1 ho)) he.symm
  · rintro ⟨before, after, rfl, hafter⟩
    refine ⟨after.reverse, before.reverse, by simp, fun other ho => bne_iff_ne.2 fun he => ?_⟩
    exact hafter (List.mem_map.2 ⟨other, List.mem_reverse.1 ho, he.symm⟩)

namespace VariantTable

variable {t u : VariantTable}

theorem defaultKey?_eq_getElem? (t : VariantTable) :
    t.defaultKey? = t.defaultIndex?.bind fun i => t.keys[i]? := by
  rw [defaultKey?, default?, Option.map_bind]
  refine congrArg _ (funext fun i => ?_)
  rw [keys, List.getElem?_map]
  rfl

/-! ### Tables made of forms -/

/-- The table is the one that belongs to the forms. -/
structure Represents (t : VariantTable) (forms : List (String × String)) : Prop where
  nodup : t.keys.Nodup
  keys_eq : t.keys = (forms.map Prod.fst).eraseDups
  mem_iff : ∀ form, form ∈ t.entries ↔ IsLast forms form
  default : ∃ i entry, t.defaultIndex? = some i ∧ t.entries[i]? = some entry ∧
    t.default? = some entry ∧ Designates t.keys i

theorem represents_of_ofForms (h : ofForms forms = .ok t) : t.Represents forms := by
  have hentries : t.entries = gatherForms forms := entries_of_ofForms h
  obtain ⟨i, entry, hi, he⟩ := exists_designates (entries_ne_nil_of_ofForms h)
  exact
    { nodup := t.nodup
      keys_eq := by rw [keys, hentries, keys_gatherForms_eq_eraseDups]
      mem_iff := fun form => by rw [hentries, mem_gatherForms]
      default := ⟨i, entry, defaultIndex?_eq_some.2 hi, he, default?_eq_some.2 ⟨i, hi, he⟩, hi⟩ }

theorem ofForms_eq_error (h : ∀ form ∈ forms, lastSegment form.1 ≠ "other") :
    ofForms forms = .error ⟨(forms.map Prod.fst).eraseDups⟩ := by
  have hnone : ¬ ∃ entry ∈ gatherForms forms, endsInOther entry.1 := by
    rintro ⟨entry, he, ho⟩
    obtain ⟨form, hf, hk⟩ := List.mem_map.1 (mem_keys_gatherForms.1 (List.mem_map_of_mem he))
    exact h form hf (hk ▸ beq_iff_eq.1 ho)
  rw [← keys_gatherForms_eq_eraseDups]
  exact dif_neg hnone

theorem exists_ofForms_iff :
    (∃ t, ofForms forms = .ok t) ↔ ∃ form ∈ forms, lastSegment form.1 = "other" := by
  constructor
  · rintro ⟨t, ht⟩
    by_contra hnone
    rw [ofForms_eq_error fun form hf ho => hnone ⟨form, hf, ho⟩] at ht
    cases ht
  · rintro ⟨form, hf, ho⟩
    exact exists_ofForms ⟨form.1, List.mem_map_of_mem hf, beq_iff_eq.2 ho⟩

/-- Other texts under the keys of a table make a table with the same keys and default. -/
theorem exists_ofForms_of_keys (hne : t.entries ≠ []) (hk : forms.map Prod.fst = t.keys) :
    ∃ u, ofForms forms = .ok u ∧ u.entries = forms ∧ u.keys = t.keys ∧
      u.defaultIndex? = t.defaultIndex? ∧ u.defaultKey? = t.defaultKey? := by
  obtain ⟨entry, he, ho⟩ := t.total.resolve_left hne
  have hkey : entry.1 ∈ forms.map Prod.fst := hk ▸ List.mem_map_of_mem he
  obtain ⟨u, hu⟩ := exists_ofForms ⟨entry.1, hkey, ho⟩
  have hentries : u.entries = forms := by
    rw [entries_of_ofForms hu, gatherForms_of_nodup (hk ▸ t.nodup)]
  have hkeys : u.keys = t.keys := by rw [keys, hentries, hk]
  have hindex : u.defaultIndex? = t.defaultIndex? := by
    rw [defaultIndex?_eq_keys, defaultIndex?_eq_keys, hkeys]
  exact ⟨u, hu, hentries, hkeys, hindex, by
    rw [defaultKey?_eq_getElem?, defaultKey?_eq_getElem?, hindex, hkeys]⟩

/-- Forms make a table just when one of them is for `other`; the table represents them, and is made
again of its own entries, or, but for the texts, of any others under its keys. -/
theorem ofForms_invariant (forms : List (String × String)) :
    ((∃ t, ofForms forms = .ok t) ↔ ∃ form ∈ forms, lastSegment form.1 = "other") ∧
    ((∀ form ∈ forms, lastSegment form.1 ≠ "other") →
      ofForms forms = .error ⟨(forms.map Prod.fst).eraseDups⟩) ∧
    ∀ t, ofForms forms = .ok t → t.Represents forms ∧ ofForms t.entries = .ok t ∧
      ∀ others : List (String × String), others.map Prod.fst = t.keys →
        ∃ u, ofForms others = .ok u ∧ u.entries = others ∧ u.keys = t.keys ∧
          u.defaultIndex? = t.defaultIndex? ∧ u.defaultKey? = t.defaultKey? := by
  refine ⟨exists_ofForms_iff, ofForms_eq_error, fun t ht => ?_⟩
  have hne : t.entries ≠ [] := entries_ne_nil_of_ofForms ht
  exact ⟨represents_of_ofForms ht, ofForms_entries hne, fun _ => exists_ofForms_of_keys hne⟩

/-- The first of two dotted keys is the default, and a key keeps its place when its text is given
again; without a key for `other` all that is left is the keys. -/
theorem ofForms_invariant_dotted :
    (∃ t, ofForms [("one", "as"), ("nom.other", "asy"), ("one", "tuz"), ("acc.other", "tuzy")] =
        .ok t ∧ t.entries = [("one", "tuz"), ("nom.other", "asy"), ("acc.other", "tuzy")] ∧
      t.defaultIndex? = some 1 ∧
      t.Represents [("one", "as"), ("nom.other", "asy"), ("one", "tuz"), ("acc.other", "tuzy")] ∧
      ∃ u, ofForms [("one", "a"), ("nom.other", "b"), ("acc.other", "c")] = .ok u ∧
        u.keys = t.keys ∧ u.defaultIndex? = t.defaultIndex?) ∧
    ofForms [("one", "as"), ("few", "asy"), ("one", "tuz")] = .error ⟨["one", "few"]⟩ := by
  have ht : ofForms
      [("one", "as"), ("nom.other", "asy"), ("one", "tuz"), ("acc.other", "tuzy")] =
      .ok ⟨[("one", "tuz"), ("nom.other", "asy"), ("acc.other", "tuzy")], by decide,
        .inr (by decide +kernel)⟩ := by
    rfl
  obtain ⟨-, -, made⟩ := ofForms_invariant
    [("one", "as"), ("nom.other", "asy"), ("one", "tuz"), ("acc.other", "tuzy")]
  obtain ⟨hrepresents, -, retexted⟩ := made _ ht
  obtain ⟨u, hu, -, hkeys, hindex, -⟩ :=
    retexted [("one", "a"), ("nom.other", "b"), ("acc.other", "c")] (by decide)
  obtain ⟨-, refused, -⟩ := ofForms_invariant [("one", "as"), ("few", "asy"), ("one", "tuz")]
  exact ⟨⟨_, ht, rfl, by decide +kernel, hrepresents, u, hu, hkeys, hindex⟩,
    refused (by decide +kernel)⟩

end VariantTable

end Phrasebook
