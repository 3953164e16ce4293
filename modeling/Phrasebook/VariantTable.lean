import Phrasebook.Text.Segment

/-!
The forms of a phrase, by dotted key. A table that is not empty has a form for `other`, so that
every lookup ends at some form; the empty table belongs to a phrase with a single form.
-/

namespace Phrasebook

open Text

/-- Does the key end in the segment `other`? -/
def endsInOther (key : String) : Bool :=
  lastSegment key == "other"

/-- Writes a form over the one that has its key, or behind all others. -/
def putForm (key text : String) : List (String × String) → List (String × String)
  | [] => [(key, text)]
  | (name, held) :: rest =>
    if name = key then (name, text) :: rest else (name, held) :: putForm key text rest

def gatherForms (forms : List (String × String)) : List (String × String) :=
  forms.foldl (fun entries form => putForm form.1 form.2 entries) []

theorem keys_putForm (key text : String) (entries : List (String × String)) :
    (putForm key text entries).map Prod.fst =
      if key ∈ entries.map Prod.fst then entries.map Prod.fst
      else entries.map Prod.fst ++ [key] := by
  induction entries with
  | nil => rfl
  | cons entry rest ih =>
    simp only [putForm]
    split
    · next h => simp [h]
    · next h =>
      rw [List.map_cons, ih, List.map_cons]
      have : key ∈ entry.1 :: rest.map Prod.fst ↔ key ∈ rest.map Prod.fst := by
        rw [List.mem_cons]; exact ⟨fun hm => hm.resolve_left (Ne.symm h), .inr⟩
      simp only [this]
      split <;> rfl

theorem nodup_putForm {key text : String} {entries : List (String × String)}
    (h : (entries.map Prod.fst).Nodup) : ((putForm key text entries).map Prod.fst).Nodup := by
  rw [keys_putForm]
  split
  · exact h
  · exact List.nodup_append.2 ⟨h, by simp, by grind⟩

theorem nodup_gatherForms (forms : List (String × String)) :
    ((gatherForms forms).map Prod.fst).Nodup := by
  suffices ∀ entries : List (String × String), (entries.map Prod.fst).Nodup →
      ((forms.foldl (fun entries form => putForm form.1 form.2 entries) entries).map
        Prod.fst).Nodup from this [] List.nodup_nil
  induction forms with
  | nil => exact fun _ h => h
  | cons form rest ih => exact fun entries h => ih _ (nodup_putForm h)

structure VariantTable where
  entries : List (String × String)
  nodup : (entries.map Prod.fst).Nodup
  total : entries = [] ∨ ∃ entry ∈ entries, endsInOther entry.1
deriving DecidableEq, Repr

/-- A table without a form for `other`. -/
structure MissingOther where
  keys : List String
deriving DecidableEq, Repr

def MissingOther.message (e : MissingOther) : String :=
  let keys := ", ".intercalate e.keys
  s!"variant table has no 'other' entry (keys: {keys})"

namespace VariantTable

def empty : VariantTable := ⟨[], List.nodup_nil, .inl rfl⟩

instance : EmptyCollection VariantTable := ⟨empty⟩

/-- Keys stand in the order of their first forms, and a later form replaces an earlier one. -/
def ofForms (forms : List (String × String)) : Except MissingOther VariantTable :=
  let entries := gatherForms forms
  if h : ∃ entry ∈ entries, endsInOther entry.1 then
    .ok ⟨entries, nodup_gatherForms forms, .inr h⟩
  else .error ⟨entries.map Prod.fst⟩

def isEmpty (t : VariantTable) : Bool :=
  t.entries.isEmpty

def keys (t : VariantTable) : List String :=
  t.entries.map Prod.fst

/-- The form under exactly this key. -/
def lookup? (t : VariantTable) (key : String) : Option String :=
  t.entries.lookup key

/-- The place of the default among the entries: that of `other`, or of the first key that ends in
it. -/
def defaultIndex? (t : VariantTable) : Option Nat :=
  (t.entries.findIdx? fun entry => entry.1 == "other").or
    (t.entries.findIdx? fun entry => endsInOther entry.1)

/-- The entry for every key that finds no other. -/
def default? (t : VariantTable) : Option (String × String) :=
  t.defaultIndex?.bind fun i => t.entries[i]?

theorem default?_eq_find? (t : VariantTable) :
    t.default? = (t.entries.find? fun entry => entry.1 == "other").or
      (t.entries.find? fun entry => endsInOther entry.1) := by
  rw [default?, defaultIndex?, List.find?_eq_bind_findIdx?_getElem?,
    List.find?_eq_bind_findIdx?_getElem?]
  cases hi : t.entries.findIdx? fun entry => entry.1 == "other" with
  | none => rfl
  | some i =>
    obtain ⟨hlt, -, -⟩ := List.findIdx?_eq_some_iff_getElem.1 hi
    simp [hlt]

def defaultKey? (t : VariantTable) : Option String :=
  t.default?.map Prod.fst

/-- The key without its last segment. -/
def shorter? (key : List Char) : Option (List Char) :=
  match key.reverse.dropWhile (· ≠ '.') with
  | [] => none
  | _ :: rest => some rest.reverse

theorem length_lt_of_shorter? {key less : List Char} (h : shorter? key = some less) :
    less.length < key.length := by
  unfold shorter? at h
  split at h
  · cases h
  · next c rest hd =>
    cases h
    have := (List.dropWhile_suffix (· ≠ '.') (l := key.reverse)).length_le
    rw [hd, List.length_cons, List.length_reverse] at this
    rw [List.length_reverse]
    exact this

/-- The key less its last segment, less its last two, and so on. -/
def stems (key : List Char) : List (List Char) :=
  match h : shorter? key with
  | none => []
  | some less =>
    have := length_lt_of_shorter? h
    less :: stems less
termination_by key.length

/-- The key itself, then its stems, then the `other` forms of its stems, then the default. -/
def get? (t : VariantTable) (key : String) : Option String :=
  let stems := (stems key.toList).map String.ofList
  ((key :: stems).findSome? t.lookup?).or <|
    (stems.findSome? fun stem => t.lookup? (stem ++ ".other")).or (t.default?.map Prod.snd)

end VariantTable

end Phrasebook
