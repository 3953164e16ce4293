import Mathlib.Data.List.Forall2
import Phrasebook.VariantTable

/-!
Tables of forms: which form a table holds under a key, when a list of forms makes a table, and how
lookups go in two tables with the same keys.
-/

namespace Phrasebook

variable {forms entries : List (String × String)}

theorem lookup_cons_ite {α : Type} (name key : String) (value : α) (entries : List (String × α)) :
    ((key, value) :: entries).lookup name =
      if name = key then some value else entries.lookup name := by
  rw [List.lookup_cons]
  by_cases h : name = key
  · simp [h]
  · simp only [beq_eq_false_iff_ne.2 h, if_neg h]

theorem lookup_of_not_mem {α : Type} {key : String} {entries : List (String × α)}
    (h : key ∉ entries.map Prod.fst) : entries.lookup key = none := by
  rw [List.lookup_eq_none_iff]
  intro entry he
  exact bne_iff_ne.2 fun heq => h (List.mem_map.2 ⟨entry, he, heq.symm⟩)

theorem lookup_putForm (key text name : String) (entries : List (String × String)) :
    (putForm key text entries).lookup name =
      if name = key then some text else entries.lookup name := by
  induction entries with
  | nil => exact lookup_cons_ite name key text []
  | cons entry rest ih =>
    obtain ⟨held, form⟩ := entry
    simp only [putForm]
    split
    · next h =>
      subst h
      simp only [lookup_cons_ite]
      split <;> rfl
    · next h =>
      simp only [lookup_cons_ite, ih]
      grind

/-- The last form with a key is the one that counts. -/
theorem lookup_gatherForms (forms : List (String × String)) (name : String) :
    (gatherForms forms).lookup name = forms.reverse.lookup name := by
  suffices h : ∀ entries : List (String × String),
      (forms.foldl (fun entries form => putForm form.1 form.2 entries) entries).lookup name =
        (forms.reverse.lookup name).or (entries.lookup name) by
    exact (h []).trans (Option.or_none ..)
  induction forms with
  | nil => exact fun _ => rfl
  | cons form rest ih =>
    intro entries
    obtain ⟨key, text⟩ := form
    rw [List.foldl_cons, ih, lookup_putForm, List.reverse_cons, List.lookup_append,
      Option.or_assoc, lookup_cons_ite]
    split <;> rfl

theorem mem_keys_gatherForms {name : String} :
    name ∈ (gatherForms forms).map Prod.fst ↔ name ∈ forms.map Prod.fst := by
  have key_iff (l : List (String × String)) : name ∈ l.map Prod.fst ↔ (l.lookup name).isSome := by
    rw [List.lookup_isSome_iff, List.mem_map]
    constructor
    · rintro ⟨form, hf, rfl⟩
      exact ⟨form, hf, beq_self_eq_true form.1⟩
    · rintro ⟨form, hf, hn⟩
      exact ⟨form, hf, (beq_iff_eq.1 hn).symm⟩
  rw [key_iff, lookup_gatherForms, ← key_iff, List.map_reverse, List.mem_reverse]

theorem putForm_of_not_mem {key text : String} (h : key ∉ entries.map Prod.fst) :
    putForm key text entries = entries ++ [(key, text)] := by
  induction entries with
  | nil => rfl
  | cons entry rest ih =>
    rw [List.map_cons, List.mem_cons, not_or] at h
    simp only [putForm, if_neg (Ne.symm h.1), ih h.2, List.cons_append]

/-- Forms with a key each are a table as they stand. -/
theorem gatherForms_of_nodup (h : (forms.map Prod.fst).Nodup) : gatherForms forms = forms := by
  suffices hs : ∀ entries : List (String × String), ((entries ++ forms).map Prod.fst).Nodup →
      forms.foldl (fun entries form => putForm form.1 form.2 entries) entries =
        entries ++ forms from hs [] h
  clear h
  induction forms with
  | nil => simp
  | cons form rest ih =>
    intro entries h
    have hk : form.1 ∉ entries.map Prod.fst := by
      rw [List.map_append, List.map_cons, List.nodup_append] at h
      exact fun hm => h.2.2 _ hm _ List.mem_cons_self rfl
    rw [List.foldl_cons, putForm_of_not_mem hk, ih, List.append_assoc]
    · rfl
    · simpa using h

theorem keys_gatherForms (forms : List (String × String)) :
    (gatherForms forms).map Prod.fst = (forms.map Prod.fst).foldl
      (fun keys key => if key ∈ keys then keys else keys ++ [key]) [] := by
  suffices h : ∀ entries : List (String × String),
      (forms.foldl (fun entries form => putForm form.1 form.2 entries) entries).map Prod.fst =
        (forms.map Prod.fst).foldl (fun keys key => if key ∈ keys then keys else keys ++ [key])
          (entries.map Prod.fst) from h []
  induction forms with
  | nil => exact fun _ => rfl
  | cons form rest ih =>
    intro entries
    rw [List.foldl_cons, ih, keys_putForm, List.map_cons, List.foldl_cons]

/-- Forms with a key each are known by their keys and by what is found under them. -/
theorem eq_of_lookup (hn : (entries.map Prod.fst).Nodup)
    (hk : entries.map Prod.fst = forms.map Prod.fst)
    (h : ∀ key, entries.lookup key = forms.lookup key) : entries = forms := by
  induction entries generalizing forms with
  | nil =>
    rw [List.map_nil, eq_comm, List.map_eq_nil_iff] at hk
    exact hk.symm
  | cons entry rest ih =>
    cases forms with
    | nil => cases hk
    | cons form forms =>
      obtain ⟨key, text⟩ := entry
      obtain ⟨key', text'⟩ := form
      rw [List.map_cons, List.map_cons, List.cons.injEq] at hk
      obtain ⟨rfl, hk⟩ := hk
      obtain ⟨hfresh, hn⟩ := List.nodup_cons.1 hn
      have hfirst := h key
      simp only [lookup_cons_ite, if_pos] at hfirst
      cases hfirst
      refine congrArg _ (ih hn hk fun name => ?_)
      by_cases hname : name = key
      · rw [hname, lookup_of_not_mem hfresh, lookup_of_not_mem (hk ▸ hfresh)]
      · have hrest := h name
        simpa only [lookup_cons_ite, if_neg hname] using hrest

namespace VariantTable

theorem eq_of_entries {t u : VariantTable} (h : t.entries = u.entries) : t = u := by
  cases t
  cases u
  cases h
  rfl

theorem get?_of_lookup? {t : VariantTable} {key text : String} (h : t.lookup? key = some text) :
    t.get? key = some text := by
  simp only [get?, List.findSome?_cons, h, Option.some_or]

theorem entries_of_ofForms {t : VariantTable} (h : ofForms forms = .ok t) :
    t.entries = gatherForms forms := by
  unfold ofForms at h
  dsimp only at h
  split at h
  · cases h
    rfl
  · cases h

theorem exists_ofForms (h : ∃ key ∈ forms.map Prod.fst, endsInOther key) :
    ∃ t, ofForms forms = .ok t := by
  obtain ⟨key, hk, ho⟩ := h
  obtain ⟨entry, he, rfl⟩ := List.mem_map.1 (mem_keys_gatherForms.2 hk)
  have h : ∃ entry ∈ gatherForms forms, endsInOther entry.1 := ⟨entry, he, ho⟩
  exact ⟨⟨gatherForms forms, nodup_gatherForms forms, .inr h⟩, dif_pos h⟩

theorem ofForms_entries {t : VariantTable} (h : t.entries ≠ []) : ofForms t.entries = .ok t := by
  obtain ⟨entry, he, ho⟩ := t.total.resolve_left h
  obtain ⟨t', ht'⟩ := exists_ofForms ⟨entry.1, List.mem_map.2 ⟨entry, he, rfl⟩, ho⟩
  have hentries : t'.entries = t.entries := by
    rw [entries_of_ofForms ht', gatherForms_of_nodup t.nodup]
  rw [ht', eq_of_entries hentries]

end VariantTable

/-! ### The same keys -/

section

variable {α β γ : Type} {r : α → β → Prop}

theorem rel_or {a a' : Option α} {b b' : Option β} (h : Option.Rel r a b)
    (h' : Option.Rel r a' b') : Option.Rel r (a.or a') (b.or b') := by
  cases h with
  | none => exact h'
  | some hr => exact .some hr

theorem rel_map {s : γ → γ → Prop} {f : α → γ} {g : β → γ} {a : Option α} {b : Option β}
    (h : Option.Rel r a b) (hs : ∀ x y, r x y → s (f x) (g y)) :
    Option.Rel s (a.map f) (b.map g) := by
  cases h with
  | none => exact .none
  | some hr => exact .some (hs _ _ hr)

theorem rel_findSome? {f : γ → Option α} {g : γ → Option β} (h : ∀ x, Option.Rel r (f x) (g x))
    (xs : List γ) : Option.Rel r (xs.findSome? f) (xs.findSome? g) := by
  induction xs with
  | nil => exact .none
  | cons x xs ih =>
    rw [List.findSome?_cons, List.findSome?_cons]
    have hx := h x
    generalize f x = a, g x = b at hx ⊢
    cases hx with
    | none => exact ih
    | some hr => exact .some hr

end

/-- Forms under the same keys in the same order, with related texts. -/
def FormWise (S : String → String → Prop) :
    List (String × String) → List (String × String) → Prop :=
  List.Forall₂ fun entry form => form.1 = entry.1 ∧ S entry.2 form.2

namespace FormWise

variable {S : String → String → Prop}

theorem keys (h : FormWise S entries forms) : forms.map Prod.fst = entries.map Prod.fst := by
  induction h with
  | nil => rfl
  | cons hf _ ih => rw [List.map_cons, List.map_cons, hf.1, ih]

theorem lookup (h : FormWise S entries forms) (key : String) :
    Option.Rel S (entries.lookup key) (forms.lookup key) := by
  induction h with
  | nil => exact .none
  | @cons entry form _ _ hf _ ih =>
    obtain ⟨held, text⟩ := entry
    obtain ⟨held', text'⟩ := form
    obtain ⟨rfl, hs⟩ := hf
    rw [lookup_cons_ite, lookup_cons_ite]
    split
    · exact .some hs
    · exact ih

theorem find? (h : FormWise S entries forms) (test : String → Bool) :
    Option.Rel (fun entry form => form.1 = entry.1 ∧ S entry.2 form.2)
      (entries.find? fun entry => test entry.1) (forms.find? fun form => test form.1) := by
  induction h with
  | nil => exact .none
  | @cons entry form _ _ hf _ ih =>
    rw [List.find?_cons, List.find?_cons, hf.1]
    cases test entry.1 with
    | true => exact .some hf
    | false => exact ih

theorem default? {t u : VariantTable} (h : FormWise S t.entries u.entries) :
    Option.Rel (fun entry form => form.1 = entry.1 ∧ S entry.2 form.2) t.default? u.default? := by
  rw [t.default?_eq_find?, u.default?_eq_find?]
  exact rel_or (h.find? (· == "other")) (h.find? endsInOther)

theorem defaultKey? {t u : VariantTable} (h : FormWise S t.entries u.entries) :
    u.defaultKey? = t.defaultKey? := by
  have hd := h.default?
  unfold VariantTable.defaultKey?
  generalize t.default? = entry, u.default? = form at hd ⊢
  cases hd with
  | none => rfl
  | some hf => exact congrArg some hf.1

/-- A lookup goes by the keys alone: it ends at forms of the same place in both tables. -/
theorem get? {t u : VariantTable} (h : FormWise S t.entries u.entries) (key : String) :
    Option.Rel S (t.get? key) (u.get? key) := by
  have last : Option.Rel S (t.default?.map Prod.snd) (u.default?.map Prod.snd) :=
    rel_map h.default? fun _ _ hf => hf.2
  exact rel_or (rel_findSome? h.lookup _)
    (rel_or (rel_findSome? (fun stem => h.lookup (stem ++ ".other")) _) last)

end FormWise

end Phrasebook
