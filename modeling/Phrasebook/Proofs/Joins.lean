import Phrasebook.Phrase
import Phrasebook.Proofs.Lookup

/-!
Joins of joined phrases. A join has the forms that all of its phrases have, or none at all if none
of these is for `other`; and so phrases may as well be joined group by group.
-/

namespace Phrasebook

theorem Text.intercalate_flatten {separator : String} {groups : List (List String)}
    (h : ∀ group ∈ groups, group ≠ []) :
    separator.intercalate (groups.map separator.intercalate) =
      separator.intercalate groups.flatten := by
  induction groups with
  | nil => rfl
  | cons group rest ih =>
    obtain ⟨hgroup, hrest⟩ := List.forall_mem_cons.1 h
    rw [List.map_cons, List.flatten_cons]
    by_cases hne : rest = []
    · subst hne
      rw [List.map_nil, List.flatten_nil, String.intercalate_singleton, List.append_nil]
    · have hflat : rest.flatten ≠ [] := by
        obtain ⟨other, hm⟩ := List.exists_mem_of_ne_nil rest hne
        exact fun he => hrest other hm (List.flatten_eq_nil_iff.1 he other hm)
      rw [String.intercalate_cons_of_ne_nil (by simpa using hne), ih hrest,
        String.intercalate_append_of_ne_nil hgroup hflat]

namespace Phrase

variable {separator key : String} {phrases : List Phrase} {groups : List (List Phrase)}

/-! ### What phrases share -/

/-- The keys that all the phrases have a form for, in the order of the first one. -/
def sharedKeys : List Phrase → List String
  | [] => []
  | first :: rest =>
    first.variants.keys.filter fun key => rest.all fun p => (p.variants.lookup? key).isSome

/-- The forms under a key, joined. -/
def joinedForm (separator : String) (phrases : List Phrase) (key : String) : String :=
  separator.intercalate (phrases.map fun p => (p.variants.lookup? key).getD "")

/-- The phrases have a form for `other` in common, so that their join has forms. -/
def ShareOther (phrases : List Phrase) : Prop :=
  ∃ key ∈ sharedKeys phrases, endsInOther key

instance (phrases : List Phrase) : Decidable (ShareOther phrases) :=
  inferInstanceAs (Decidable (∃ key ∈ sharedKeys phrases, endsInOther key))

theorem sharedKeys_cons (first : Phrase) (rest : List Phrase) :
    sharedKeys (first :: rest) =
      first.variants.keys.filter fun key => ∀ p ∈ first :: rest, key ∈ p.variants.keys := by
  refine List.filter_congr fun key hk => ?_
  have hhas (p : Phrase) : (p.variants.lookup? key).isSome ↔ key ∈ p.variants.keys := by
    rw [Option.isSome_iff_ne_none, Ne, VariantTable.lookup?_eq_none, not_not]
  rw [Bool.eq_iff_iff, List.all_eq_true, decide_eq_true_iff, List.forall_mem_cons]
  simp only [hhas, hk, true_and]

theorem mem_keys_of_mem_sharedKeys (hk : key ∈ sharedKeys phrases) {p : Phrase}
    (hp : p ∈ phrases) : key ∈ p.variants.keys := by
  cases phrases with
  | nil => cases hk
  | cons first rest =>
    rw [sharedKeys_cons, List.mem_filter, decide_eq_true_iff] at hk
    exact hk.2 p hp

theorem mem_sharedKeys (h : phrases ≠ []) :
    key ∈ sharedKeys phrases ↔ ∀ p ∈ phrases, key ∈ p.variants.keys := by
  refine ⟨fun hk p hp => mem_keys_of_mem_sharedKeys hk hp, fun hall => ?_⟩
  cases phrases with
  | nil => exact absurd rfl h
  | cons first rest =>
    rw [sharedKeys_cons, List.mem_filter, decide_eq_true_iff]
    exact ⟨hall first List.mem_cons_self, hall⟩

theorem nodup_sharedKeys (phrases : List Phrase) : (sharedKeys phrases).Nodup := by
  cases phrases with
  | nil => exact List.nodup_nil
  | cons first rest => exact first.variants.nodup.filter _

/-! ### One join -/

theorem text_join (phrases : List Phrase) (separator : String) :
    (join phrases separator).text = separator.intercalate (phrases.map Phrase.text) := by
  cases phrases <;> rfl

theorem tags_join (phrases : List Phrase) (separator : String) :
    (join phrases separator).tags = .empty := by
  cases phrases <;> rfl

theorem variants_join (phrases : List Phrase) (separator : String) :
    (join phrases separator).variants =
      match VariantTable.ofForms ((sharedKeys phrases).map fun key =>
        (key, joinedForm separator phrases key)) with
      | .ok table => table
      | .error _ => .empty := by
  cases phrases <;> rfl

theorem map_fst_joinedForm (separator : String) (phrases : List Phrase) (keys : List String) :
    (keys.map fun key => (key, joinedForm separator phrases key)).map Prod.fst = keys := by
  rw [List.map_map]
  exact List.map_id _

/-- The forms of a join are those under the keys that the phrases share. -/
theorem entries_join (phrases : List Phrase) (separator : String) :
    (join phrases separator).variants.entries =
      if ShareOther phrases then
        (sharedKeys phrases).map fun key => (key, joinedForm separator phrases key)
      else [] := by
  have hkeys := map_fst_joinedForm separator phrases (sharedKeys phrases)
  rw [variants_join]
  cases hf : VariantTable.ofForms ((sharedKeys phrases).map fun key =>
      (key, joinedForm separator phrases key)) with
  | ok table =>
    have hentries := VariantTable.entries_of_ofForms hf
    rw [gatherForms_of_nodup (by rw [hkeys]; exact nodup_sharedKeys phrases)] at hentries
    have hother : ShareOther phrases := by
      obtain ⟨entry, he, ho⟩ :=
        table.total.resolve_left (VariantTable.entries_ne_nil_of_ofForms hf)
      rw [hentries] at he
      exact ⟨entry.1, hkeys ▸ List.mem_map_of_mem he, ho⟩
    rw [if_pos hother]
    exact hentries
  | error e =>
    have hnone : ¬ ShareOther phrases := by
      intro ho
      rw [ShareOther, ← hkeys] at ho
      obtain ⟨table, ht⟩ := VariantTable.exists_ofForms ho
      rw [ht] at hf
      cases hf
    rw [if_neg hnone]
    rfl

theorem keys_join (phrases : List Phrase) (separator : String) :
    (join phrases separator).variants.keys =
      if ShareOther phrases then sharedKeys phrases else [] := by
  rw [VariantTable.keys, entries_join]
  split
  · exact map_fst_joinedForm separator phrases _
  · rfl

theorem lookup_join (h : ShareOther phrases) (hk : key ∈ sharedKeys phrases) :
    (join phrases separator).variants.lookup? key = some (joinedForm separator phrases key) := by
  rw [VariantTable.lookup?_eq_some, entries_join, if_pos h]
  exact List.mem_map.2 ⟨key, hk, rfl⟩

/-! ### Joins of joins -/

theorem mem_keys_join : key ∈ (join phrases separator).variants.keys ↔
    ShareOther phrases ∧ key ∈ sharedKeys phrases := by
  rw [keys_join]
  split
  · next h => exact (and_iff_right h).symm
  · next h => exact ⟨fun hk => absurd hk List.not_mem_nil, fun hk => absurd hk.1 h⟩

section

variable (h : ∀ group ∈ groups, group ≠ []) (ho : ∀ group ∈ groups, ShareOther group)
include h ho

/-- Where each group has forms left, a key that all joins have is one that all phrases have. -/
theorem forall_mem_keys_join :
    (∀ p ∈ groups.map fun group => join group separator, key ∈ p.variants.keys) ↔
      ∀ p ∈ groups.flatten, key ∈ p.variants.keys := by
  rw [List.forall_mem_map, List.forall_mem_flatten]
  refine forall₂_congr fun group hm => ?_
  rw [mem_keys_join, and_iff_right (ho group hm), mem_sharedKeys (h group hm)]

theorem sharedKeys_map_join :
    sharedKeys (groups.map fun group => join group separator) = sharedKeys groups.flatten := by
  have hall (key : String) := @forall_mem_keys_join separator key groups h ho
  cases groups with
  | nil => rfl
  | cons group rest =>
    cases group with
    | nil => exact absurd rfl (h [] List.mem_cons_self)
    | cons first others =>
      simp only [List.map_cons, List.flatten_cons, List.cons_append] at hall ⊢
      rw [sharedKeys_cons, keys_join, if_pos (ho _ List.mem_cons_self), sharedKeys_cons,
        sharedKeys_cons, List.filter_filter]
      refine List.filter_congr fun key _ => ?_
      rw [← Bool.decide_and]
      refine decide_eq_decide.2 ⟨fun hk => (hall key).1 hk.1, fun hk => ⟨(hall key).2 hk, ?_⟩⟩
      exact fun p hp => hk p (List.mem_append_left _ hp)

theorem joinedForm_map_join (hk : ∀ group ∈ groups, key ∈ sharedKeys group) :
    joinedForm separator (groups.map fun group => join group separator) key =
      joinedForm separator groups.flatten key := by
  have hforms : (groups.map fun group => join group separator).map
      (fun p => (p.variants.lookup? key).getD "") =
        (groups.map (List.map fun p => (p.variants.lookup? key).getD "")).map
          separator.intercalate := by
    rw [List.map_map, List.map_map]
    refine List.map_congr_left fun group hm => ?_
    rw [Function.comp_apply, lookup_join (ho group hm) (hk group hm)]
    rfl
  rw [joinedForm, hforms, Text.intercalate_flatten (by simpa using h), ← List.map_flatten]
  rfl

end

section

variable (h : ∀ group ∈ groups, group ≠ [])
include h

theorem mem_sharedKeys_of_flatten (hk : key ∈ sharedKeys groups.flatten) {group : List Phrase}
    (hm : group ∈ groups) : key ∈ sharedKeys group :=
  (mem_sharedKeys (h group hm)).2 fun _ hp =>
    mem_keys_of_mem_sharedKeys hk (List.mem_flatten.2 ⟨group, hm, hp⟩)

theorem variants_join_map_join :
    (join (groups.map fun group => join group separator) separator).variants =
      (join groups.flatten separator).variants := by
  apply VariantTable.eq_of_entries
  rw [entries_join, entries_join]
  by_cases ho : ∀ group ∈ groups, ShareOther group
  · have hs : sharedKeys (groups.map fun group => join group separator) =
        sharedKeys groups.flatten := sharedKeys_map_join h ho
    have hother : ShareOther (groups.map fun group => join group separator) ↔
        ShareOther groups.flatten := by
      rw [ShareOther, ShareOther, hs]
    by_cases hf : ShareOther groups.flatten
    · rw [if_pos (hother.2 hf), if_pos hf, hs]
      refine List.map_congr_left fun key hk => ?_
      rw [joinedForm_map_join h ho fun group hm => mem_sharedKeys_of_flatten h hk hm]
    · rw [if_neg (mt hother.1 hf), if_neg hf]
  · -- One group has no form for `other` in common, and then neither have all of the phrases.
    obtain ⟨group, hm, hn⟩ : ∃ group ∈ groups, ¬ ShareOther group := by simpa using ho
    have hjoins : ¬ ShareOther (groups.map fun group => join group separator) := by
      rintro ⟨key, hk, -⟩
      have hkey := mem_keys_of_mem_sharedKeys hk (List.mem_map_of_mem hm)
      exact hn (mem_keys_join.1 hkey).1
    have hflat : ¬ ShareOther groups.flatten := by
      rintro ⟨key, hk, hother⟩
      exact hn ⟨key, mem_sharedKeys_of_flatten h hk hm, hother⟩
    rw [if_neg hjoins, if_neg hflat]

theorem text_join_map_join :
    (join (groups.map fun group => join group separator) separator).text =
      (join groups.flatten separator).text := by
  have htexts : (groups.map fun group => join group separator).map text =
      (groups.map (List.map text)).map separator.intercalate := by
    rw [List.map_map, List.map_map]
    exact List.map_congr_left fun group _ => text_join group separator
  rw [text_join, text_join, htexts, Text.intercalate_flatten (by simpa using h),
    ← List.map_flatten]

end

theorem eq_of_fields {p q : Phrase} (ht : p.text = q.text) (hv : p.variants = q.variants)
    (hg : p.tags = q.tags) : p = q := by
  cases p
  cases q
  cases ht
  cases hv
  cases hg
  rfl

/-- Joining group by group and then the results is joining all phrases at once, which leaves no
tags. -/
theorem join_map_join (separator : String) (h : ∀ group ∈ groups, group ≠ []) :
    join (groups.map fun group => join group separator) separator =
        join groups.flatten separator ∧
      (join groups.flatten separator).tags = .empty := by
  refine ⟨eq_of_fields (text_join_map_join h) (variants_join_map_join h) ?_, tags_join _ _⟩
  rw [tags_join, tags_join]

/-- A noun with a form for `other` in the nominative, and one without. -/
def karty : Phrase :=
  ⟨"karta", ⟨[("one", "karta"), ("nom.other", "karty"), ("acc", "kartu")], by decide,
    .inr (by decide +kernel)⟩, .ofList ["fem"]⟩

def kolody : Phrase :=
  ⟨"koloda", ⟨[("nom.other", "kolody"), ("other", "kolod"), ("one", "koloda")], by decide,
    .inr (by decide +kernel)⟩, .ofList ["fem"]⟩

/-- The groups need not keep the same keys: the second has another `other` than the first. -/
theorem join_map_join_cards : (∀ group ∈ [[karty, kolody], [kolody]], group ≠ []) ∧
    join ([[karty, kolody], [kolody]].map fun group => join group ", ") ", " =
        join [karty, kolody, kolody] ", " ∧
      (join [karty, kolody, kolody] ", ").tags = .empty ∧
    (join [karty, kolody, kolody] ", ").text = "karta, koloda, koloda" ∧
    (join [karty, kolody, kolody] ", ").variants.entries =
      [("one", "karta, koloda, koloda"), ("nom.other", "karty, kolody, kolody")] := by
  have h : ∀ group ∈ [[karty, kolody], [kolody]], group ≠ [] := by simp
  obtain ⟨hjoin, htags⟩ := join_map_join ", " h
  exact ⟨h, hjoin, htags, by decide +kernel, by decide +kernel⟩

end Phrase

end Phrasebook
