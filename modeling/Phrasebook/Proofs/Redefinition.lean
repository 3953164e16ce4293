import Phrasebook.Proofs.Settings

/-!
Another definition in the place of one that a locale has. What the new definition calls is as it
was, when it calls no more than the old one.
-/

namespace Phrasebook

namespace Dictionary

variable {α : Type}

theorem length_insert {d : Dictionary α} {key : String} {value : α} (h : d.contains key) :
    (d.insert key value).entries.length = d.entries.length := by
  have hp : (d.insert key value).keys.Perm d.keys := by
    refine (List.perm_ext_iff_of_nodup (nodup_keys _) (nodup_keys _)).2 fun name => ?_
    rw [keys, insert, mem_keys_insertEntry]
    refine or_iff_right_of_imp fun hn => ?_
    rw [hn]
    exact mem_keys.2 h
  simpa [keys] using hp.length_eq

end Dictionary

namespace Locale

/-- The locale with a definition in the place of the one that has its name. -/
def redefine (l : Locale) (d : Definition) : Locale :=
  { l with phrases := ⟨l.phrases.phrases.insert d.name d, l.phrases.names⟩ }

theorem conventions_redefine {l : Locale} (hk : l.transforms.KeepsToLanguage) (d : Definition) :
    (l.redefine d).conventions = l.conventions :=
  conventions_withPhrases hk _

theorem get?_redefine (l : Locale) (d : Definition) (name : String) :
    (l.redefine d).phrases.get? name = if name = d.name then some d else l.phrases.get? name :=
  Dictionary.get?_insert ..

theorem get?_redefine_self (l : Locale) (d : Definition) :
    (l.redefine d).phrases.get? d.name = some d := by
  rw [get?_redefine, if_pos rfl]

variable {l : Locale} {d d' : Definition}

theorem size_redefine (hd : l.phrases.get? d'.name = some d) :
    (l.redefine d').phrases.size = l.phrases.size := by
  have hc : l.phrases.phrases.contains d'.name := by
    rw [Store.get?] at hd
    simp [Dictionary.contains, hd]
  simpa [Store.size, Store.definitions, Dictionary.values, redefine] using
    Dictionary.length_insert hc

theorem supported_redefine (hd : l.phrases.get? d'.name = some d) (ha : d'.arity = d.arity)
    {other : Definition} (h : other.Supported l.surroundings) :
    other.Supported (l.redefine d').surroundings := by
  refine ⟨h.inherits, h.selectors, h.reads, fun k hk => ?_, h.transforms, h.other⟩
  have hk := h.calls k hk
  simp only [surroundings, redefine, Dictionary.get?_map, Dictionary.get?_insert] at hk ⊢
  split
  · next hn =>
    rw [Store.get?, ← hn] at hd
    rw [hd] at hk
    rw [← hk, Option.map_some, Option.map_some, ha]
  · exact hk

/-- A definition may take the place of another if it finds all that it mentions and calls no more
than the other. -/
structure Replaces (l : Locale) (d d' : Definition) : Prop where
  held : l.phrases.get? d'.name = some d
  arity : d'.arity = d.arity
  supported : d'.Supported l.surroundings
  calls : ∀ k ∈ d'.calls, k ∈ d.calls

theorem Replaces.ranked (h : l.Replaces d d') {rank : String → Nat} (hr : l.RankedBy rank) :
    (l.redefine d').RankedBy rank := by
  intro name other ho
  rw [size_redefine h.held]
  rw [get?_redefine] at ho
  split at ho
  · next hn =>
    cases ho
    obtain ⟨hlt, hcalls⟩ := hr d'.name d h.held
    subst hn
    exact ⟨hlt, fun k hk => hcalls k (h.calls k hk)⟩
  · exact hr name other ho

theorem Replaces.checked (h : l.Replaces d d') (hl : l.Checked) : (l.redefine d').Checked := by
  obtain ⟨rank, hr⟩ := hl.ranked
  refine ⟨fun name other ho => ?_, fun name other ho => ?_, rank, h.ranked hr⟩
  · rw [get?_redefine] at ho
    split at ho
    · next hn =>
      cases ho
      exact hn.symm
    · exact hl.named name other ho
  · apply supported_redefine h.held h.arity
    rw [get?_redefine] at ho
    split at ho
    · cases ho
      exact h.supported
    · exact hl.supported name other ho

/-- Phrases of lower rank do not get to the new definition. -/
theorem Replaces.call_of_rank_lt (h : l.Replaces d d') (hl : l.Checked)
    (hk : l.transforms.KeepsToLanguage) {rank : String → Nat} (hr : l.RankedBy rank) {name : String}
    (hlt : rank name < rank d'.name) :
    (l.redefine d').call name = l.call name := by
  induction hn : rank name using Nat.strongRecOn generalizing name with
  | ind n ih =>
    funext arguments
    have hne : name ≠ d'.name := by
      rintro rfl
      exact Nat.lt_irrefl _ hlt
    rw [(h.checked hl).call_eq, hl.call_eq]
    simp only [enter, get?_redefine, if_neg hne]
    cases ho : l.phrases.get? name with
    | none => rfl
    | some other =>
      have hcalls := (hr name other ho).2
      have hd : Rendering.definition l.conventions (l.redefine d').call other arguments =
          Rendering.definition l.conventions l.call other arguments :=
        Rendering.definition_congr fun k hc =>
          ih (rank k.1) (hn ▸ hcalls k hc) (Nat.lt_trans (hcalls k hc) hlt) rfl
      simp only [conventions_redefine hk, hd]

/-- Under its name the new definition is rendered with the calls of the locale as it was. -/
theorem Replaces.call_redefine (h : l.Replaces d d') (hl : l.Checked)
    (hk : l.transforms.KeepsToLanguage) {arguments : List Value}
    (ha : arguments.length = d'.arity) :
    (l.redefine d').call d'.name arguments =
      Rendering.definition l.conventions l.call d' arguments := by
  obtain ⟨rank, hr⟩ := hl.ranked
  rw [(h.checked hl).call_of_get? (get?_redefine_self l d') ha, conventions_redefine hk]
  apply Rendering.definition_congr
  intro k hd
  exact h.call_of_rank_lt hl hk hr ((hr d'.name d h.held).2 k (h.calls k hd))

theorem Replaces.call_of_length_ne (h : l.Replaces d d') (hl : l.Checked) {arguments : List Value}
    (ha : arguments.length ≠ d'.arity) :
    (l.redefine d').call d'.name arguments = l.call d'.name arguments := by
  rw [(h.checked hl).call_of_length_ne (get?_redefine_self l d') ha,
    hl.call_of_length_ne h.held (h.arity ▸ ha), h.arity]

end Locale

end Phrasebook
