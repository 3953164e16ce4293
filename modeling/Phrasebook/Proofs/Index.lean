import Phrasebook.Proofs.Extension
import Phrasebook.Proofs.NumericContexts

/-!
The index of the hashes. However definitions are added to a store, it holds the names of the
phrases, each under its own hash, and so an id stands for the phrase whose name it was made of.
-/

namespace Phrasebook

namespace Store

/-- The index holds the names of the phrases and no others, each under its own hash. -/
structure Indexed (s : Store) : Prop where
  names : ∀ hash name, (hash, name) ∈ s.names ↔ name ∈ s.phraseNames ∧ hash = nameHash name
  distinct : (s.names.map Prod.fst).Nodup

/-- The store that additions leave. -/
def ofAdded (definitions : List Definition) : Store :=
  ((addEach definitions).run empty).2

theorem mem_phraseNames_iff {s : Store} {name : String} :
    name ∈ s.phraseNames ↔ ∃ d, s.get? name = some d := by
  rw [phraseNames, Dictionary.mem_keys, Dictionary.contains, Option.isSome_iff_exists]
  rfl

theorem mem_phraseNames_insert {s after : Store} {d : Definition} (h : s.insert d = .ok after)
    {name : String} : name ∈ after.phraseNames ↔ name = d.name ∨ name ∈ s.phraseNames := by
  rw [mem_phraseNames_iff, mem_phraseNames_iff, get?, get?, phrases_insert h, Dictionary.get?_insert]
  by_cases hn : name = d.name
  · simp [hn]
  · simp [hn]

theorem insert_eq_error {s : Store} {d : Definition} {e : LoadError} (h : s.insert d = .error e) :
    ∃ first, s.nameOf? (nameHash d.name) = some first ∧ first ≠ d.name ∧
      e = .idCollision first d.name := by
  unfold insert at h
  grind

namespace Indexed

variable {s after : Store} {d : Definition}

theorem empty : Store.empty.Indexed where
  names hash name := by simp [Store.empty, phraseNames, Dictionary.keys, Dictionary.empty]
  distinct := List.nodup_nil

/-- What the index says of a hash. -/
theorem nameOf?_iff (hi : s.Indexed) {hash : UInt64} {name : String} :
    s.nameOf? hash = some name ↔ name ∈ s.phraseNames ∧ hash = nameHash name := by
  rw [← hi.names, nameOf?, mem_iff_lookup hi.distinct]

/-- No other phrase has the hash of a definition that goes in, and so an entry that the new one
takes the place of is for the same name. -/
theorem insert (hi : s.Indexed) (h : s.insert d = .ok after) : after.Indexed where
  names hash name := by
    rw [names_insert h, List.mem_cons, List.mem_filter, hi.names, mem_phraseNames_insert h,
      Prod.mk.injEq]
    constructor
    · rintro (⟨rfl, rfl⟩ | ⟨⟨hname, hh⟩, -⟩)
      · exact ⟨.inl rfl, rfl⟩
      · exact ⟨.inr hname, hh⟩
    · rintro ⟨rfl | hname, rfl⟩
      · exact .inl ⟨rfl, rfl⟩
      · by_cases hh : nameHash name = nameHash d.name
        · have hfound : s.nameOf? (nameHash d.name) = some name := hi.nameOf?_iff.2 ⟨hname, hh.symm⟩
          exact .inl ⟨hh, exists_insert_iff.1 ⟨after, h⟩ name hfound⟩
        · exact .inr ⟨⟨hname, rfl⟩, by simpa using hh⟩
  distinct := by
    rw [names_insert h, List.map_cons, List.nodup_cons]
    constructor
    · intro hm
      obtain ⟨entry, he, hh⟩ := List.mem_map.1 hm
      exact of_decide_eq_true (List.mem_filter.1 he).2 hh
    · exact hi.distinct.sublist (List.filter_sublist.map Prod.fst)

end Indexed

/-- What adding in place does. -/
theorem run_add (s : Store) (d : Definition) :
    (add d).run.run s = match s.insert d with
      | .ok after => (.ok (), after)
      | .error e => (.error e, s) := by
  have hget {α : Type} (f : Store → ExceptT LoadError (StateM Store) α) :
      (get >>= f).run.run s = (f s).run.run s := rfl
  unfold add
  rw [hget]
  cases hn : s.nameOf? (nameHash d.name) with
  | none =>
    simp only [insert, hn]
    rfl
  | some first =>
    by_cases hd : first = d.name
    · simp only [insert, hn, if_pos hd]
      rw [if_neg (not_not_intro hd)]
      rfl
    · simp only [insert, hn, if_neg hd]
      rw [if_pos hd]
      rfl

/-- A definition that is refused changes nothing: another phrase has its hash. -/
theorem add_refused {s after : Store} (hi : s.Indexed) {d : Definition} {e : LoadError}
    (h : (add d).run.run s = (.error e, after)) :
    after = s ∧ ∃ first ∈ after.phraseNames, first ≠ d.name ∧
      nameHash first = nameHash d.name ∧ e = .idCollision first d.name := by
  rw [run_add] at h
  cases hd : s.insert d with
  | ok added =>
    rw [hd] at h
    cases h
  | error e' =>
    rw [hd] at h
    cases h
    obtain ⟨first, hf, hne, rfl⟩ := insert_eq_error hd
    obtain ⟨hname, hhash⟩ := hi.nameOf?_iff.1 hf
    exact ⟨rfl, first, hname, hne, hhash.symm, rfl⟩

namespace Indexed

variable {s : Store}

theorem add (hi : s.Indexed) (d : Definition) : ((Store.add d).run.run s).2.Indexed := by
  rw [run_add]
  cases hd : s.insert d with
  | ok after => exact hi.insert hd
  | error e => exact hi

theorem addEach (hi : s.Indexed) (definitions : List Definition) :
    ((Store.addEach definitions).run s).2.Indexed := by
  induction definitions generalizing s with
  | nil => exact hi
  | cons d rest ih =>
    have hrun : ((Store.addEach (d :: rest)).run s).2 =
        ((Store.addEach rest).run ((Store.add d).run.run s).2).2 := by
      simp only [Store.addEach, List.mapM_cons]
      rfl
    rw [hrun]
    exact ih (hi.add d)

theorem insertAll (hi : s.Indexed) {definitions : List Definition} {after : Store}
    (h : s.insertAll definitions = .ok after) : after.Indexed := by
  induction definitions generalizing s with
  | nil =>
    cases h
    exact hi
  | cons d rest ih =>
    rw [Store.insertAll, List.foldlM_cons] at h
    obtain ⟨middle, hm, hr⟩ := bind_eq_ok.1 h
    exact ih (hi.insert hm) hr

end Indexed

end Store

namespace Locale

variable {l : Locale}

theorem indexed_of_build {b : Blueprint} (h : b.build = .ok l) : l.phrases.Indexed := by
  obtain ⟨_, definitions, -, -, -, -, hs⟩ := Blueprint.steps_of_build h
  exact Store.Indexed.empty.insertAll hs

theorem nameForId?_ofName (hi : l.phrases.Indexed) {name : String} {d : Definition}
    (hd : l.phrases.get? name = some d) (k : UInt8) :
    l.nameForId? (.ofName name k) = some name :=
  hi.nameOf?_iff.2 ⟨Store.mem_phraseNames_iff.2 ⟨d, hd⟩, rfl⟩

/-- A call by the id of a phrase is a call by its name, if the id has the phrase's number of
parameters. -/
theorem callById_ofName (hc : l.Checked) (hi : l.phrases.Indexed) {name : String} {d : Definition}
    (hd : l.phrases.get? name = some d) (k : UInt8) (arguments : List Value) :
    l.callById (.ofName name k) arguments =
      if d.arity = k.toNat then l.call name arguments else .error (.idNotFound (nameHash name)) := by
  have hname : l.phrases.nameOf? (nameHash name) = some name := nameForId?_ofName hi hd k
  have hfound : l.phrases.ofHash? (nameHash name) = some d := by
    rw [Store.ofHash?, hname]
    exact hd
  simp only [callById, PhraseId.ofName, hfound, hc.callDefinition_eq hd]

theorem nameForId?_eq_none (hi : l.phrases.Indexed) {id : PhraseId}
    (h : ∀ name ∈ l.names, nameHash name ≠ id.hash) : l.nameForId? id = none := by
  cases hn : l.nameForId? id with
  | none => rfl
  | some name =>
    obtain ⟨hname, hhash⟩ := hi.nameOf?_iff.1 hn
    exact absurd hhash.symm (h name hname)

theorem callById_of_nameForId? {id : PhraseId} (h : l.nameForId? id = none)
    (arguments : List Value) : l.callById id arguments = .error (.idNotFound id.hash) := by
  have hfound : l.phrases.ofHash? id.hash = none := by
    rw [Store.ofHash?, show l.phrases.nameOf? id.hash = none from h]
    rfl
  rw [callById, hfound]

/-- The ids of a locale are exact. Whatever has been added to a store, and whatever has been refused,
its index holds the names of its phrases, each under its own hash; what is refused leaves the store
as it is. In a locale an id of a phrase's name stands for that phrase, calls it if it has the
phrase's number of parameters, and is not found otherwise, as any other hash. -/
theorem ids_exact (definitions : List Definition) (d : Definition) {b : Blueprint}
    (h : b.build = .ok l) :
    ((Store.ofAdded definitions).Indexed ∧
      ∀ e after, (Store.add d).run.run (Store.ofAdded definitions) = (.error e, after) →
        after = Store.ofAdded definitions ∧
        ∃ first ∈ after.phraseNames, first ≠ d.name ∧ nameHash first = nameHash d.name ∧
          e = .idCollision first d.name) ∧
    (∀ name held, l.phrases.get? name = some held → ∀ k : UInt8,
      l.nameForId? (.ofName name k) = some name ∧
      ∀ arguments, l.callById (.ofName name k) arguments =
        if held.arity = k.toNat then l.call name arguments
        else .error (.idNotFound (nameHash name))) ∧
    ∀ id : PhraseId, (∀ name ∈ l.names, nameHash name ≠ id.hash) →
      l.nameForId? id = none ∧
        ∀ arguments, l.callById id arguments = .error (.idNotFound id.hash) := by
  have hi : l.phrases.Indexed := indexed_of_build h
  refine ⟨?_, ?_, ?_⟩
  · have hs := Store.Indexed.empty.addEach definitions
    exact ⟨hs, fun e after he => Store.add_refused hs he⟩
  · intro name held hd k
    exact ⟨nameForId?_ofName hi hd k, callById_ofName (checked_of_build h) hi hd k⟩
  · intro id hid
    have hnone := nameForId?_eq_none hi hid
    exact ⟨hnone, callById_of_nameForId? hnone⟩

/-- A phrase that is its own name. -/
def named (name : String) : Definition where
  name := name
  parameters := []
  tags := []
  inherits := none
  selectors := []
  body := .template ⟨[.literal name]⟩
  bodyless := false
  position := .start

/-- The last two names have one hash. -/
theorem ids_exact_cards : ∃ l held, cards.build = .ok l ∧ l.phrases.get? "card" = some held ∧
    l.nameForId? (.ofName "card" 7) = some "card" ∧
    l.callById (.ofName "card" 0) [] = l.call "card" [] ∧
    l.callById (.ofName "card" 7) [] = .error (.idNotFound (nameHash "card")) ∧
    l.callById (.ofName "deck" 0) [] = .error (.idNotFound (nameHash "deck")) ∧
    ∃ after, (Store.add (named "c1E51sSEyx")).run.run (Store.ofAdded [named "7mohtcOFVz"]) =
        (.error (.idCollision "7mohtcOFVz" "c1E51sSEyx"), after) ∧
      after = Store.ofAdded [named "7mohtcOFVz"] ∧ after.Indexed := by
  have h : ∃ l, cards.build = .ok l ∧ decide (
      (l.phrases.get? "card").map Definition.arity = some 0 ∧
      ∀ name ∈ l.names, nameHash name ≠ nameHash "deck") :=
    exists_of_build (by decide +kernel)
  obtain ⟨l, hl, ht⟩ := h
  obtain ⟨hcard, hdeck⟩ := of_decide_eq_true ht
  obtain ⟨held, hget, harity⟩ := Option.map_eq_some_iff.1 hcard
  have hrefused : ((Store.add (named "c1E51sSEyx")).run.run
      (Store.ofAdded [named "7mohtcOFVz"])).1 =
        .error (.idCollision "7mohtcOFVz" "c1E51sSEyx") := by
    decide +kernel
  obtain ⟨⟨hindexed, hadd⟩, hnames, hother⟩ :=
    ids_exact [named "7mohtcOFVz"] (named "c1E51sSEyx") hl
  obtain ⟨hstays, -⟩ := hadd _ _ (Prod.ext hrefused rfl)
  refine ⟨l, held, hl, hget, (hnames _ _ hget 7).1, ?_, ?_, (hother _ hdeck).2 [], ?_⟩
  · rw [(hnames _ _ hget 0).2, harity]
    rfl
  · rw [(hnames _ _ hget 7).2, harity]
    rfl
  · refine ⟨_, Prod.ext hrefused rfl, hstays, ?_⟩
    rw [hstays]
    exact hindexed

end Locale

end Phrasebook
