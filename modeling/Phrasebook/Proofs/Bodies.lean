import Phrasebook.Proofs.Mention
import Phrasebook.Proofs.Tables

/-!
What bodies render, when they do: a block one text for each entry, and any other body that inherits
one text for each form of the inherited phrase.
-/

namespace Phrasebook

namespace Bindings

theorem value_cons (b : Bindings) (key name : String) (v : Value) :
    value ((key, v) :: b) name = if name = key then .ok v else b.value name := by
  simp only [value, lookup_cons_ite]
  by_cases h : name = key <;> simp [h]

theorem exists_value {parameters : List String} {arguments : List Value} {name : String}
    (hn : name ∈ parameters) (ha : arguments.length = parameters.length) :
    ∃ v, (ofArguments parameters arguments).value name = .ok v := by
  have hk : name ∈ (parameters.zip arguments).map Prod.fst := by
    rw [List.map_fst_zip (Nat.le_of_eq ha.symm)]
    exact hn
  obtain ⟨entry, he, rfl⟩ := List.mem_map.1 hk
  have hs : ((ofArguments parameters arguments).lookup entry.1).isSome := by
    rw [List.lookup_isSome_iff]
    exact ⟨entry, List.mem_reverse.2 he, beq_self_eq_true entry.1⟩
  obtain ⟨v, hv⟩ := Option.isSome_iff_exists.1 hs
  exact ⟨v, by simp only [value, hv]⟩

end Bindings

namespace Rendering

variable {c : Conventions} {call : Call} {b : Bindings}

/-! ### Blocks -/

/-- The keys of entries, each with the value that its entry is given. -/
def keyed {α : Type} (entries : List Entry) (values : List α) : List (EntryKey × α) :=
  (List.zipWith (fun keys value => keys.map fun key => (key, value)) (entries.map Entry.keys)
    values).flatten

theorem map_fst_keyed {α : Type} {entries : List Entry} {values : List α}
    (h : values.length = entries.length) :
    (keyed entries values).map Prod.fst = entries.flatMap Entry.keys := by
  induction entries generalizing values with
  | nil => rfl
  | cons entry rest ih =>
    cases values with
    | nil => simp at h
    | cons value values =>
      have hr := ih (Nat.succ.inj h)
      rw [keyed] at hr ⊢
      rw [List.map_cons, List.zipWith_cons_cons, List.flatten_cons, List.map_append, hr,
        List.map_map, List.flatMap_cons]
      congr 1
      exact List.map_id _

theorem keyed_map {α β : Type} (f : α → β) (entries : List Entry) (values : List α) :
    keyed entries (values.map f) = (keyed entries values).map fun form => (form.1, f form.2) := by
  rw [keyed, keyed, List.zipWith_map_right, List.map_flatten, List.map_zipWith]
  simp only [List.map_map]
  rfl

/-- The texts of the entries. -/
def texts (c : Conventions) (call : Call) (b : Bindings) (entries : List Entry) :
    Except EvalError (List String) :=
  entries.mapM fun entry => template c call b entry.template

/-- The table that entries make of a text for each. -/
def tableOf (entries : List Entry) (texts : List String) : Except EvalError VariantTable :=
  table ((keyed entries texts).map fun form => (form.1.variantKey, form.2))

/-- The text and the forms that entries make of a text for each. -/
def outcome (c : Conventions) (entries : List Entry) (found : List String) :
    Except EvalError (String × VariantTable) := do
  return (defaultText c (keyed entries found), ← tableOf entries found)

theorem mapM_entryForms (entries : List Entry) :
    entries.mapM (entryForms c call b) = (texts c call b entries).map fun texts =>
      List.zipWith (fun keys text => keys.map fun key => (key, text)) (entries.map Entry.keys)
        texts := by
  unfold texts
  induction entries with
  | nil => rfl
  | cons entry rest ih =>
    rw [List.mapM_cons, List.mapM_cons, ih, entryForms]
    cases template c call b entry.template with
    | error e => rfl
    | ok text =>
      cases rest.mapM fun entry => template c call b entry.template with
      | error e => rfl
      | ok texts => rfl

/-- A block gives each entry's text to the keys of the entry. -/
theorem block_eq (entries : List Entry) :
    block c call b entries = texts c call b entries >>= outcome c entries := by
  rw [block, mapM_entryForms]
  cases texts c call b entries with
  | error e => rfl
  | ok texts => rfl

theorem block_eq_ok {entries : List Entry} {text : String} {t : VariantTable} :
    block c call b entries = .ok (text, t) ↔
      ∃ found, texts c call b entries = .ok found ∧ tableOf entries found = .ok t ∧
        defaultText c (keyed entries found) = text := by
  rw [block_eq, bind_eq_ok]
  refine exists_congr fun found => and_congr_right fun _ => ?_
  rw [outcome, bind_eq_ok]
  constructor
  · rintro ⟨t', ht, h⟩
    cases h
    exact ⟨ht, rfl⟩
  · rintro ⟨ht, rfl⟩
    exact ⟨t, ht, rfl⟩

theorem length_of_texts_eq_ok {entries : List Entry} {found : List String}
    (h : texts c call b entries = .ok found) : found.length = entries.length :=
  (mapM_eq_ok.1 h).length_eq.symm

/-- A block with a form for `other` makes a table, whatever its texts are. -/
theorem exists_tableOf {entries : List Entry} {found : List String}
    (ho : ∃ key ∈ entries.flatMap Entry.keys, endsInOther key.variantKey)
    (hl : found.length = entries.length) : ∃ t, tableOf entries found = .ok t := by
  obtain ⟨key, hk, ho⟩ := ho
  rw [← map_fst_keyed hl] at hk
  obtain ⟨form, hform, rfl⟩ := List.mem_map.1 hk
  have hm : form.1.variantKey ∈
      ((keyed entries found).map fun form => (form.1.variantKey, form.2)).map Prod.fst :=
    List.mem_map.2 ⟨_, List.mem_map.2 ⟨form, hform, rfl⟩, rfl⟩
  obtain ⟨t, ht⟩ := VariantTable.exists_ofForms ⟨_, hm, ho⟩
  exact ⟨t, mapError_eq_ok.2 ht⟩

/-! ### One text for each form -/

/-- A text is rendered for each form, under the form's key. -/
theorem mapM_form_eq_ok (render : String → Except EvalError String)
    (sources forms : List (String × String)) :
    (sources.mapM fun form => do
        let text ← render form.2
        return (form.1, text)) = .ok forms ↔
      FormWise (fun held text => render held = .ok text) sources forms := by
  have step (source form : String × String) :
      (do
        let text ← render source.2
        return (source.1, text)) = .ok form ↔
        form.1 = source.1 ∧ render source.2 = .ok form.2 := by
    rw [bind_eq_ok]
    constructor
    · rintro ⟨text, ht, he⟩
      cases he
      exact ⟨rfl, ht⟩
    · rintro ⟨hk, ht⟩
      exact ⟨form.2, ht, by rw [← hk]; rfl⟩
  simp only [mapM_eq_ok, step, FormWise]

/-- The forms of an inherited phrase give a text each, under the same keys and in their order. -/
theorem perForm_eq_ok {d : Definition} {parameter : String} {p : Phrase} {text : String}
    {t : VariantTable} :
    perForm c call d b (some (parameter, .phrase p)) = .ok (text, t) ↔
      body c call d b = .ok text ∧
        FormWise (fun held text =>
            body c call d ((parameter, .phrase (p.withText held)) :: b) = .ok text)
          p.variants.entries t.entries := by
  have hforms := mapM_form_eq_ok
    (fun held => body c call d ((parameter, .phrase (p.withText held)) :: b)) p.variants.entries
  constructor
  · intro h
    obtain ⟨text', ht, h⟩ := bind_eq_ok.1 h
    dsimp only at h
    split at h
    · next he =>
      cases h
      refine ⟨ht, ?_⟩
      rw [List.isEmpty_iff.1 he]
      exact .nil
    · obtain ⟨forms, hf, h⟩ := bind_eq_ok.1 h
      obtain ⟨t', hoft, h⟩ := bind_eq_ok.1 h
      cases h
      have hnodup : (forms.map Prod.fst).Nodup := by
        rw [((hforms _).1 hf).keys]
        exact p.variants.nodup
      rw [VariantTable.entries_of_ofForms (mapError_eq_ok.1 hoft), gatherForms_of_nodup hnodup]
      exact ⟨ht, (hforms _).1 hf⟩
  · rintro ⟨ht, hf⟩
    refine bind_eq_ok.2 ⟨text, ht, ?_⟩
    dsimp only
    split
    · next he =>
      rw [List.isEmpty_iff.1 he] at hf
      have hempty : t = .empty := VariantTable.eq_of_entries (List.forall₂_nil_left_iff.1 hf)
      rw [hempty]
      rfl
    · next he =>
      have hne : t.entries ≠ [] := by
        intro h
        rw [h] at hf
        exact he (List.isEmpty_iff.2 (List.forall₂_nil_right_iff.1 hf))
      refine bind_eq_ok.2 ⟨t.entries, (hforms _).2 hf, ?_⟩
      exact bind_eq_ok.2 ⟨t, mapError_eq_ok.2 (VariantTable.ofForms_entries hne), rfl⟩

theorem definition_eq_ok {d : Definition} {arguments : List Value} {result : Phrase} :
    definition c call d arguments = .ok result ↔
      ∃ inherited, source d (.ofArguments d.parameters arguments) = .ok inherited ∧
        forms c call d (.ofArguments d.parameters arguments) inherited =
          .ok (result.text, result.variants) ∧
        result.tags = tags c d inherited := by
  constructor
  · intro h
    obtain ⟨inherited, hs, h⟩ := bind_eq_ok.1 h
    obtain ⟨⟨text, variants⟩, hf, h⟩ := bind_eq_ok.1 h
    cases h
    exact ⟨inherited, hs, hf, rfl⟩
  · rintro ⟨inherited, hs, hf, ht⟩
    refine bind_eq_ok.2 ⟨inherited, hs, bind_eq_ok.2 ⟨_, hf, ?_⟩⟩
    rw [← ht]
    rfl

end Rendering

end Phrasebook
