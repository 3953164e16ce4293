/-!
Finite maps from names, kept in the order of the names. Equal contents mean equal dictionaries,
whatever the order of the insertions.
-/

namespace Phrasebook

/-- Puts an entry at its place, over the one that has its name. -/
def insertEntry {α : Type} (key : String) (value : α) : List (String × α) → List (String × α)
  | [] => [(key, value)]
  | (name, held) :: rest =>
    if key = name then (key, value) :: rest
    else if key < name then (key, value) :: (name, held) :: rest
    else (name, held) :: insertEntry key value rest

theorem mem_keys_insertEntry {α : Type} {key name : String} {value : α}
    {entries : List (String × α)} :
    name ∈ (insertEntry key value entries).map Prod.fst ↔
      name = key ∨ name ∈ entries.map Prod.fst := by
  induction entries with
  | nil => simp [insertEntry]
  | cons entry rest ih =>
    simp only [insertEntry]
    split
    · next h => simp [h]
    · split
      · simp
      · simp only [List.map_cons, List.mem_cons, ih]
        grind

theorem pairwise_insertEntry {α : Type} (key : String) (value : α) {entries : List (String × α)}
    (h : (entries.map Prod.fst).Pairwise (· < ·)) :
    ((insertEntry key value entries).map Prod.fst).Pairwise (· < ·) := by
  induction entries with
  | nil => simp [insertEntry]
  | cons entry rest ih =>
    rw [List.map_cons, List.pairwise_cons] at h
    simp only [insertEntry]
    split
    · next he =>
      rw [List.map_cons, List.pairwise_cons]
      exact ⟨fun name hm => he ▸ h.1 name hm, h.2⟩
    · next hne =>
      split
      · next hlt =>
        rw [List.map_cons, List.pairwise_cons, List.map_cons, List.pairwise_cons]
        refine ⟨fun name hm => ?_, h⟩
        rcases List.mem_cons.1 hm with rfl | hm
        · exact hlt
        · exact String.lt_trans hlt (h.1 name hm)
      · next hge =>
        rw [List.map_cons, List.pairwise_cons]
        refine ⟨fun name hm => ?_, ih h.2⟩
        rcases mem_keys_insertEntry.1 hm with rfl | hm
        · exact Std.lt_of_le_of_ne (String.not_lt.1 hge) (Ne.symm hne)
        · exact h.1 name hm

/-- Where each key stands once, a lookup finds every entry. -/
theorem mem_iff_lookup {κ α : Type} [BEq κ] [LawfulBEq κ] {entries : List (κ × α)} {key : κ}
    {value : α} (hn : (entries.map Prod.fst).Nodup) :
    (key, value) ∈ entries ↔ entries.lookup key = some value := by
  induction entries with
  | nil => simp
  | cons entry rest ih =>
    obtain ⟨name, held⟩ := entry
    obtain ⟨hfresh, hn⟩ := List.nodup_cons.1 hn
    have ih := ih hn
    simp only [List.mem_cons, List.lookup_cons, ih]
    by_cases hk : key = name
    · subst hk
      have hnone : rest.lookup key ≠ some value := fun h =>
        hfresh (List.mem_map.2 ⟨(key, value), ih.2 h, rfl⟩)
      simp [hnone, eq_comm]
    · simp [hk, beq_eq_false_iff_ne.2 hk]

structure Dictionary (α : Type) where
  entries : List (String × α)
  ordered : (entries.map Prod.fst).Pairwise (· < ·)

namespace Dictionary

variable {α : Type}

def empty : Dictionary α := ⟨[], List.Pairwise.nil⟩

instance : EmptyCollection (Dictionary α) := ⟨empty⟩

/-- A later value takes the place of an earlier one. -/
def insert (d : Dictionary α) (key : String) (value : α) : Dictionary α :=
  ⟨insertEntry key value d.entries, pairwise_insertEntry key value d.ordered⟩

def get? (d : Dictionary α) (key : String) : Option α :=
  d.entries.lookup key

def contains (d : Dictionary α) (key : String) : Bool :=
  (d.get? key).isSome

def keys (d : Dictionary α) : List String :=
  d.entries.map Prod.fst

def values (d : Dictionary α) : List α :=
  d.entries.map Prod.snd

def insertAll (d : Dictionary α) (entries : List (String × α)) : Dictionary α :=
  entries.foldl (fun d entry => d.insert entry.1 entry.2) d

def ofList (entries : List (String × α)) : Dictionary α :=
  empty.insertAll entries

/-- Names in their order, each once. -/
def sortNames (names : List String) : List String :=
  (ofList (names.map fun name => (name, ()))).keys

@[simp] theorem get?_empty (name : String) : (empty : Dictionary α).get? name = none := rfl

@[simp] theorem get?_insert (d : Dictionary α) (key name : String) (value : α) :
    (d.insert key value).get? name = if name = key then some value else d.get? name := by
  obtain ⟨entries, ordered⟩ := d
  simp only [get?, insert]
  clear ordered
  induction entries with
  | nil => simp [insertEntry, List.lookup_cons]; split <;> simp_all
  | cons entry rest ih =>
    simp only [insertEntry]
    split
    · simp only [List.lookup_cons]; grind
    · split
      · simp only [List.lookup_cons]; grind
      · simp only [List.lookup_cons, ih]; grind

theorem mem_keys {d : Dictionary α} {key : String} : key ∈ d.keys ↔ d.contains key := by
  rw [contains, get?, List.lookup_isSome_iff, keys, List.mem_map]
  constructor
  · rintro ⟨entry, he, rfl⟩
    exact ⟨entry, he, beq_self_eq_true entry.1⟩
  · rintro ⟨entry, he, hk⟩
    exact ⟨entry, he, (beq_iff_eq.1 hk).symm⟩

theorem nodup_keys (d : Dictionary α) : d.keys.Nodup := by
  refine List.Pairwise.imp ?_ d.ordered
  intro a b h he
  subst he
  exact String.lt_irrefl a h

theorem mem_entries {d : Dictionary α} {key : String} {value : α} :
    (key, value) ∈ d.entries ↔ d.get? key = some value :=
  mem_iff_lookup (nodup_keys d)

theorem mem_values {d : Dictionary α} {value : α} :
    value ∈ d.values ↔ ∃ key, d.get? key = some value := by
  rw [values, List.mem_map]
  constructor
  · rintro ⟨⟨key, value⟩, he, rfl⟩
    exact ⟨key, mem_entries.1 he⟩
  · rintro ⟨key, h⟩
    exact ⟨(key, value), mem_entries.2 h, rfl⟩

/-- What a dictionary of a list holds stands in the list. -/
theorem mem_of_get?_insertAll {entries : List (String × α)} {d : Dictionary α} {key : String}
    {value : α} (h : (d.insertAll entries).get? key = some value) :
    (key, value) ∈ entries ∨ d.get? key = some value := by
  induction entries generalizing d with
  | nil => exact .inr h
  | cons entry rest ih =>
    rcases ih h with hm | hd
    · exact .inl (List.mem_cons_of_mem _ hm)
    · rw [get?_insert] at hd
      split at hd
      · next hk =>
        cases hd
        exact .inl (hk ▸ List.mem_cons_self)
      · exact .inr hd

theorem get?_insertAll_of_notMem {entries : List (String × α)} {d : Dictionary α} {key : String}
    (h : key ∉ entries.map Prod.fst) : (d.insertAll entries).get? key = d.get? key := by
  induction entries generalizing d with
  | nil => rfl
  | cons entry rest ih =>
    obtain ⟨hne, hrest⟩ := not_or.1 fun hk => h (List.mem_cons.2 hk)
    change ((d.insert entry.1 entry.2).insertAll rest).get? key = _
    rw [ih hrest, get?_insert, if_neg hne]

theorem mem_of_get?_ofList {entries : List (String × α)} {key : String} {value : α}
    (h : (ofList entries).get? key = some value) : (key, value) ∈ entries :=
  (mem_of_get?_insertAll h).resolve_right (by simp)

theorem contains_insertAll {entries : List (String × α)} {d : Dictionary α} {key : String} :
    (d.insertAll entries).contains key ↔ key ∈ entries.map Prod.fst ∨ d.contains key := by
  induction entries generalizing d with
  | nil => simp [insertAll]
  | cons entry rest ih =>
    change ((d.insert entry.1 entry.2).insertAll rest).contains key ↔ _
    rw [ih, contains, get?_insert, List.map_cons, List.mem_cons]
    by_cases hk : key = entry.1 <;> simp [hk, contains]

theorem contains_ofList {entries : List (String × α)} {key : String} :
    (ofList entries).contains key ↔ key ∈ entries.map Prod.fst :=
  contains_insertAll.trans (or_iff_left (by simp [contains]))

theorem mem_sortNames {names : List String} {name : String} :
    name ∈ sortNames names ↔ name ∈ names := by
  rw [sortNames, mem_keys, contains_ofList, List.map_map]
  simp

/-! ### Values put through a function -/

variable {β : Type}

def map (f : α → β) (d : Dictionary α) : Dictionary β :=
  ⟨d.entries.map fun entry => (entry.1, f entry.2), by
    rw [List.map_map]
    exact d.ordered⟩

@[simp] theorem get?_map (f : α → β) (d : Dictionary α) (key : String) :
    (d.map f).get? key = (d.get? key).map f := by
  obtain ⟨entries, ordered⟩ := d
  simp only [get?, map]
  clear ordered
  induction entries with
  | nil => rfl
  | cons entry rest ih =>
    obtain ⟨name, value⟩ := entry
    simp only [List.map_cons, List.lookup_cons, ih]
    cases key == name <;> rfl

theorem map_insertEntry (f : α → β) (key : String) (value : α) (entries : List (String × α)) :
    (insertEntry key value entries).map (fun entry => (entry.1, f entry.2)) =
      insertEntry key (f value) (entries.map fun entry => (entry.1, f entry.2)) := by
  induction entries with
  | nil => rfl
  | cons entry rest ih =>
    simp only [insertEntry, List.map_cons]
    split
    · rfl
    · split
      · rfl
      · rw [List.map_cons, ih]

theorem map_insert (f : α → β) (d : Dictionary α) (key : String) (value : α) :
    (d.insert key value).map f = (d.map f).insert key (f value) := by
  simp only [map, insert, map_insertEntry]

theorem map_insertAll (f : α → β) (d : Dictionary α) (entries : List (String × α)) :
    (d.insertAll entries).map f =
      (d.map f).insertAll (entries.map fun entry => (entry.1, f entry.2)) := by
  induction entries generalizing d with
  | nil => rfl
  | cons entry rest ih =>
    change ((d.insert entry.1 entry.2).insertAll rest).map f = _
    rw [ih, map_insert]
    rfl

theorem map_ofList (f : α → β) (entries : List (String × α)) :
    (ofList entries).map f = ofList (entries.map fun entry => (entry.1, f entry.2)) :=
  map_insertAll f empty entries

end Dictionary

end Phrasebook
