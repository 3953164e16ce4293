import Mathlib.Data.List.Infix
import Mathlib.Data.List.Nodup
import Mathlib.Data.List.TakeWhile
import Phrasebook.Dictionary
import Phrasebook.Proofs.Segments
import Phrasebook.Proofs.Tables

/-!
Lookups in a table, by the segments of the key. A key is tried with all of its segments and then
with one less each time, then again with `other` in the place of what is cut off, and where the
table has none of these keys, its default is found.
-/

namespace Phrasebook

open Text

/-! ### Shorter and shorter keys -/

/-- The first pieces of a list, from all of them down to a single one. -/
def heads (pieces : List String) : List (List String) :=
  pieces.inits.tail.reverse

theorem heads_of_ne_nil {pieces : List String} (h : pieces ≠ []) :
    heads pieces = pieces :: heads pieces.dropLast := by
  have hinits (pieces : List String) : pieces.inits ≠ [] :=
    List.ne_nil_of_mem ((List.mem_inits [] pieces).2 List.nil_prefix)
  rw [← List.dropLast_concat_getLast h, List.dropLast_concat, heads, List.inits_append,
    List.tail_append_of_ne_nil (hinits _), List.reverse_append]
  rfl

theorem ne_nil_of_mem_heads {pieces head : List String} (h : head ∈ heads pieces) :
    head ≠ [] := by
  cases pieces with
  | nil => cases h
  | cons piece rest =>
    rw [heads, List.mem_reverse, List.inits_cons, List.tail_cons, List.mem_map] at h
    obtain ⟨head, -, rfl⟩ := h
    exact List.cons_ne_nil _ _

theorem joinSegments_other {pieces : List String} (h : pieces ≠ []) :
    joinSegments (pieces ++ ["other"]) = joinSegments pieces ++ ".other" := by
  rw [joinSegments, String.intercalate_append_of_ne_nil h (List.cons_ne_nil _ _),
    String.intercalate_singleton, String.append_assoc, joinSegments]
  rfl

/-! ### The default -/

theorem endsInOther_iff {key : String} :
    endsInOther key ↔ key = "other" ∨ ∃ stem, key = stem ++ ".other" := by
  have hother : segments "other" = ["other"] := by decide
  rw [endsInOther, beq_iff_eq, lastSegment]
  constructor
  · intro h
    have hne : segments key ≠ [] := by simpa [segments] using cutAll_ne_nil '.' key.toList
    rw [List.getLast?_eq_some_getLast hne, Option.getD_some] at h
    have hsplit : (segments key).dropLast ++ ["other"] = segments key :=
      h ▸ List.dropLast_concat_getLast hne
    rw [← joinSegments_segments key, ← hsplit]
    by_cases hinit : (segments key).dropLast = []
    · rw [hinit]
      exact .inl rfl
    · exact .inr ⟨_, joinSegments_other hinit⟩
  · rintro (rfl | ⟨stem, rfl⟩)
    · rw [hother]
      rfl
    · have hdotted : stem ++ ".other" = stem ++ "." ++ "other" := by
        rw [String.append_assoc]
        rfl
      rw [hdotted, segments_append, hother, List.getLast?_concat]
      rfl

/-- A default stands at this place among the keys: it is `other` or, without such a key, the first
that ends in it. -/
inductive Designates (keys : List String) (i : Nat) : Prop where
  | other (hi : keys[i]? = some "other") : Designates keys i
  | dotted {stem : String} (hn : "other" ∉ keys) (hi : keys[i]? = some (stem ++ ".other"))
    (hfirst : ∀ j < i, ∀ stem, keys[j]? ≠ some (stem ++ ".other")) : Designates keys i

section

variable {keys : List String} {i : Nat}

theorem findIdx?_other_eq_some (h : keys.Nodup) :
    keys.findIdx? (· == "other") = some i ↔ keys[i]? = some "other" := by
  rw [List.findIdx?_eq_some_iff_getElem]
  constructor
  · rintro ⟨hlt, hkey, -⟩
    rw [List.getElem?_eq_getElem hlt, beq_iff_eq.1 hkey]
  · intro hi
    obtain ⟨hlt, hkey⟩ := List.getElem?_eq_some_iff.1 hi
    refine ⟨hlt, beq_iff_eq.2 hkey, fun j hj he => ?_⟩
    have hsame := (h.getElem_inj_iff).1 ((beq_iff_eq.1 he).trans hkey.symm)
    omega

theorem findIdx?_other_eq_none : keys.findIdx? (· == "other") = none ↔ "other" ∉ keys := by
  rw [List.findIdx?_eq_none_iff]
  simp only [beq_eq_false_iff_ne]
  exact List.forall_mem_ne'

/-- Where no key is `other`, those that end in it have a stem. -/
theorem findIdx?_endsInOther_eq_some (hn : "other" ∉ keys) :
    keys.findIdx? endsInOther = some i ↔ (∃ stem, keys[i]? = some (stem ++ ".other")) ∧
      ∀ j < i, ∀ stem, keys[j]? ≠ some (stem ++ ".other") := by
  have hdotted (j : Nat) (hj : j < keys.length) :
      endsInOther keys[j] ↔ ∃ stem, keys[j]? = some (stem ++ ".other") := by
    have hne : keys[j] ≠ "other" := ne_of_mem_of_not_mem (List.getElem_mem hj) hn
    rw [endsInOther_iff, or_iff_right hne]
    simp only [List.getElem?_eq_getElem hj, Option.some.injEq]
  rw [List.findIdx?_eq_some_iff_getElem]
  constructor
  · rintro ⟨hlt, hi, hfirst⟩
    refine ⟨(hdotted i hlt).1 hi, fun j hj stem he => ?_⟩
    exact hfirst j hj ((hdotted j (Nat.lt_trans hj hlt)).2 ⟨stem, he⟩)
  · rintro ⟨⟨stem, hi⟩, hfirst⟩
    obtain ⟨hlt, -⟩ := List.getElem?_eq_some_iff.1 hi
    refine ⟨hlt, (hdotted i hlt).2 ⟨stem, hi⟩, fun j hj ho => ?_⟩
    obtain ⟨stem, he⟩ := (hdotted j (Nat.lt_trans hj hlt)).1 ho
    exact hfirst j hj stem he

end

namespace VariantTable

variable {t : VariantTable} {i : Nat} {entry : String × String}

theorem defaultIndex?_eq_keys (t : VariantTable) : t.defaultIndex? =
    (t.keys.findIdx? (· == "other")).or (t.keys.findIdx? endsInOther) := by
  rw [keys, List.findIdx?_map, List.findIdx?_map]
  rfl

/-- No other place is that of a default, because the keys are distinct. -/
theorem defaultIndex?_eq_some : t.defaultIndex? = some i ↔ Designates t.keys i := by
  have hnodup : t.keys.Nodup := t.nodup
  rw [defaultIndex?_eq_keys, Option.or_eq_some_iff, findIdx?_other_eq_some hnodup,
    findIdx?_other_eq_none]
  constructor
  · rintro (hi | ⟨hn, hi⟩)
    · exact .other hi
    · obtain ⟨⟨stem, hi⟩, hfirst⟩ := (findIdx?_endsInOther_eq_some hn).1 hi
      exact .dotted hn hi hfirst
  · intro h
    cases h with
    | other hi => exact .inl hi
    | dotted hn hi hfirst =>
      exact .inr ⟨hn, (findIdx?_endsInOther_eq_some hn).2 ⟨⟨_, hi⟩, hfirst⟩⟩

theorem default?_eq_some :
    t.default? = some entry ↔ ∃ i, Designates t.keys i ∧ t.entries[i]? = some entry := by
  simp only [default?, Option.bind_eq_some_iff, defaultIndex?_eq_some]

theorem exists_designates (h : t.entries ≠ []) :
    ∃ i entry, Designates t.keys i ∧ t.entries[i]? = some entry := by
  obtain ⟨last, hl, ho⟩ := t.total.resolve_left h
  have hsome : t.default?.isSome := by
    rw [default?_eq_find?, Option.isSome_or, Bool.or_eq_true, List.find?_isSome, List.find?_isSome]
    exact .inr ⟨last, hl, ho⟩
  obtain ⟨entry, hd⟩ := Option.isSome_iff_exists.1 hsome
  obtain ⟨i, hi, he⟩ := default?_eq_some.1 hd
  exact ⟨i, entry, hi, he⟩

/-! ### The keys that are tried -/

theorem not_mem_of_shorter? {key : List Char} (h : shorter? key = none) : '.' ∉ key := by
  unfold shorter? at h
  split at h
  · next hd =>
    intro hmem
    have := List.dropWhile_eq_nil_iff.1 hd '.' (List.mem_reverse.2 hmem)
    simp at this
  · cases h

theorem exists_of_shorter? {key less : List Char} (h : shorter? key = some less) :
    ∃ last, '.' ∉ last ∧ key = less ++ '.' :: last := by
  unfold shorter? at h
  split at h
  · cases h
  · next c rest hd =>
    cases h
    have hc : c = '.' := by
      have hhead := List.head?_dropWhile_not (· ≠ '.') key.reverse
      rw [hd] at hhead
      simpa using hhead
    have hsplit := List.takeWhile_append_dropWhile (p := (· ≠ '.')) (l := key.reverse)
    rw [hd, hc] at hsplit
    have hkey := congrArg List.reverse hsplit
    rw [List.reverse_append, List.reverse_cons, List.append_assoc, List.singleton_append,
      List.reverse_reverse] at hkey
    refine ⟨_, fun hmem => ?_, hkey.symm⟩
    simpa using List.mem_takeWhile_imp (List.mem_reverse.1 hmem)

theorem segments_of_shorter? {key less : List Char} (h : shorter? key = some less) :
    ∃ last, segments (String.ofList key) = segments (String.ofList less) ++ [last] := by
  obtain ⟨last, hlast, rfl⟩ := exists_of_shorter? h
  refine ⟨String.ofList last, ?_⟩
  simp only [segments, String.toList_ofList, cutAll_eq_splitOn]
  rw [List.splitOn_append_cons_self, List.splitOn_eq_singleton hlast, List.map_append]
  rfl

theorem segments_ne_nil (key : String) : segments key ≠ [] := by
  simpa [segments] using cutAll_ne_nil '.' key.toList

/-- The stems of a key are its segments but the last, but the last two, and so on. -/
theorem stems_eq_heads (key : List Char) : (stems key).map String.ofList =
    (heads (segments (String.ofList key)).dropLast).map joinSegments := by
  fun_induction stems key with
  | case1 key h =>
    rw [segments, String.toList_ofList, cutAll_eq_splitOn,
      List.splitOn_eq_singleton (not_mem_of_shorter? h)]
    rfl
  | case2 key less h this ih =>
    obtain ⟨last, hkey⟩ := segments_of_shorter? h
    rw [List.map_cons, ih, hkey, List.dropLast_concat, heads_of_ne_nil (segments_ne_nil _),
      List.map_cons, joinSegments_segments]

/-- A key and its stems are its first segments. -/
theorem cons_stems_eq_heads (key : String) : key :: (stems key.toList).map String.ofList =
    (heads (segments key)).map joinSegments := by
  rw [stems_eq_heads, String.ofList_toList, heads_of_ne_nil (segments_ne_nil key), List.map_cons,
    joinSegments_segments]

/-- The keys that a lookup tries: all segments of the key, then one less each time down to the first
alone; then, from all segments but the last, the same with `other` behind them. -/
def tried (key : String) : List String :=
  (heads (segments key)).map joinSegments ++
    (heads (segments key).dropLast).map fun head => joinSegments (head ++ ["other"])

/-- The entry that belongs to a key: that of the first key tried that the table has, or the default
if it has none of them. -/
inductive Finds (t : VariantTable) (key : String) : String × String → Prop where
  | tried {entry : String × String} {before after : List String} (he : entry ∈ t.entries)
      (ht : tried key = before ++ entry.1 :: after) (hb : ∀ other ∈ before, other ∉ t.keys) :
    Finds t key entry
  | default {entry : String × String} {i : Nat}
      (hn : ∀ other ∈ VariantTable.tried key, other ∉ t.keys) (hi : Designates t.keys i)
      (he : t.entries[i]? = some entry) : Finds t key entry

variable {key text : String}

theorem get?_eq_findSome? (t : VariantTable) (key : String) :
    t.get? key = ((tried key).findSome? t.lookup?).or (t.default?.map Prod.snd) := by
  have hother : ((heads (segments key).dropLast).map fun head => joinSegments (head ++ ["other"])) =
      ((heads (segments key).dropLast).map joinSegments).map (· ++ ".other") := by
    rw [List.map_map]
    exact List.map_congr_left fun head hm => joinSegments_other (ne_nil_of_mem_heads hm)
  rw [get?, cons_stems_eq_heads, stems_eq_heads, String.ofList_toList, tried,
    List.findSome?_append, hother, List.findSome?_map (f := (· ++ ".other")), Option.or_assoc]
  rfl

theorem lookup?_eq_some : t.lookup? key = some text ↔ (key, text) ∈ t.entries :=
  (mem_iff_lookup t.nodup).symm

theorem lookup?_eq_none : t.lookup? key = none ↔ key ∉ t.keys := by
  refine ⟨fun h hk => ?_, lookup_of_not_mem⟩
  obtain ⟨⟨_, text⟩, he, rfl⟩ := List.mem_map.1 hk
  exact Option.some_ne_none text ((lookup?_eq_some.2 he).symm.trans h)

/-- The first of the keys that a table has leads to its text. -/
theorem findSome?_lookup?_eq_some {keys : List String} :
    keys.findSome? t.lookup? = some text ↔ ∃ before found after,
      keys = before ++ found :: after ∧ (found, text) ∈ t.entries ∧
        ∀ other ∈ before, other ∉ t.keys := by
  simp only [List.findSome?_eq_some_iff, lookup?_eq_some, lookup?_eq_none]

theorem findSome?_lookup?_eq_none {keys : List String} :
    keys.findSome? t.lookup? = none ↔ ∀ key ∈ keys, key ∉ t.keys := by
  simp only [List.findSome?_eq_none_iff, lookup?_eq_none]

theorem exists_finds (h : t.entries ≠ []) (key : String) : ∃ entry, t.Finds key entry := by
  cases hf : (tried key).findSome? t.lookup? with
  | some text =>
    obtain ⟨before, found, after, htried, hfound, hbefore⟩ := findSome?_lookup?_eq_some.1 hf
    exact ⟨(found, text), .tried hfound htried hbefore⟩
  | none =>
    obtain ⟨i, entry, hi, he⟩ := exists_designates h
    exact ⟨entry, .default (findSome?_lookup?_eq_none.1 hf) hi he⟩

theorem get?_of_finds (h : t.Finds key entry) :
    t.get? key = some entry.2 := by
  rw [get?_eq_findSome?]
  cases h with
  | @tried before after he ht hb =>
    rw [findSome?_lookup?_eq_some.2 ⟨before, entry.1, after, ht, he, hb⟩]
    rfl
  | default hn hi he =>
    rw [findSome?_lookup?_eq_none.2 hn, default?_eq_some.2 ⟨_, hi, he⟩]
    rfl

theorem entries_ne_nil_of_ofForms {forms : List (String × String)} (h : ofForms forms = .ok t) :
    t.entries ≠ [] := by
  unfold ofForms at h
  dsimp only at h
  split at h
  · next ho =>
    cases h
    obtain ⟨entry, he, -⟩ := ho
    exact List.ne_nil_of_mem he
  · cases h

/-- In a table made of forms there is an entry for every key, and a lookup gives its text. -/
theorem finds_of_ofForms {forms : List (String × String)} (h : ofForms forms = .ok t)
    (key : String) :
    (∃ entry, t.Finds key entry) ∧ ∀ entry, t.Finds key entry → t.get? key = some entry.2 :=
  ⟨exists_finds (entries_ne_nil_of_ofForms h) key, fun _ => get?_of_finds⟩

/-- Behind an empty segment, the form for `other` in the nominative is found. -/
theorem finds_of_ofForms_nominative : ∃ t,
    ofForms [("acc", "kartu"), ("nom.other", "karty"), ("other", "karta")] = .ok t ∧
      tried "nom..one" = ["nom..one", "nom.", "nom", "nom..other", "nom.other"] ∧
      t.get? "nom..one" = some "karty" ∧
      (∃ entry, t.Finds "nom..one" entry) ∧
      ∀ entry, t.Finds "nom..one" entry → t.get? "nom..one" = some entry.2 := by
  have h : ofForms [("acc", "kartu"), ("nom.other", "karty"), ("other", "karta")] =
      .ok ⟨[("acc", "kartu"), ("nom.other", "karty"), ("other", "karta")], by decide,
        .inr (by decide +kernel)⟩ := by
    rfl
  exact ⟨_, h, by decide +kernel, by decide +kernel, finds_of_ofForms h "nom..one"⟩

end VariantTable

end Phrasebook
