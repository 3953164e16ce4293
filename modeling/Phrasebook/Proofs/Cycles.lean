import Mathlib.Data.List.Chain
import Mathlib.Logic.Relation
import Phrasebook.Proofs.Extension
import Phrasebook.Proofs.References

/-!
What the search for cycles finds. It ends, and finds nothing exactly if no phrase refers back to
itself, however far around. What it finds is a way from a phrase back to it along references, and
the same for every order of the definitions.
-/

namespace Phrasebook

/-- A phrase is named as a term, as one that is called, or by a term among the arguments. -/
inductive Reference.Names : Reference → String → Prop where
  | term {name : String} : Names (.term name) name
  | call {name : String} {arguments : List Argument} : Names (.call name arguments) name
  | argument {callee name : String} {arguments : List Argument} (ha : .term name ∈ arguments) :
    Names (.call callee arguments) name

theorem Reference.mem_phrases {r : Reference} {name : String} :
    name ∈ r.phrases ↔ r.Names name := by
  constructor
  · intro h
    cases r with
    | parameter _ => cases h
    | term _ =>
      cases List.mem_singleton.1 h
      exact .term
    | call callee arguments =>
      rcases List.mem_cons.1 h with rfl | h
      · exact .call
      · obtain ⟨argument, ha, hname⟩ := List.mem_filterMap.1 h
        cases argument <;> cases hname
        exact .argument ha
  · rintro (_ | _ | ha)
    · exact List.mem_singleton_self name
    · exact List.mem_cons_self
    · exact List.mem_cons_of_mem _ (List.mem_filterMap.2 ⟨_, ha, rfl⟩)

namespace Definition

/-! ### References and cycles -/

/-- One phrase refers to another one, and both are defined. -/
def Refers (definitions : List Definition) (name next : String) : Prop :=
  next ∈ definitions.map Definition.name ∧
    ∃ d ∈ definitions, d.name = name ∧ ∃ hole ∈ d.interpolations, hole.reference.Names next

/-- A way along references from a phrase back to it, past no phrase twice. -/
structure IsCycle (definitions : List Definition) (chain : List String) : Prop where
  length : 2 ≤ chain.length
  closed : chain.head? = chain.getLast?
  distinct : chain.dropLast.Nodup
  defined : ∀ name ∈ chain, name ∈ definitions.map Definition.name
  linked : chain.IsChain (Refers definitions)

/-! ### What is found -/

section

variable {definitions : List Definition} {name next : String} {path : List String}

theorem contains_graph :
    (graph definitions).contains name ↔ name ∈ definitions.map Definition.name := by
  rw [graph, Dictionary.contains_ofList, List.map_map]
  rfl

theorem refers_iff (hn : (definitions.map Definition.name).Nodup) :
    Refers definitions name next ↔
      next ∈ (graph definitions).successors name ∧ (graph definitions).contains next := by
  have hget (references : List String) : (graph definitions).get? name = some references ↔
      ∃ d ∈ definitions, (d.name, d.references) = (name, references) := by
    rw [graph, Dictionary.get?_ofList_iff (by rwa [List.map_map]), List.mem_map]
  have hmem (d : Definition) : next ∈ d.references ↔
      ∃ hole ∈ d.interpolations, hole.reference.Names next := by
    simp only [references, Dictionary.mem_sortNames, List.mem_flatMap, Reference.mem_phrases]
  rw [contains_graph, Graph.successors, and_comm, Refers]
  refine and_congr_right fun _ => ⟨?_, fun h => ?_⟩
  · rintro ⟨d, hd, rfl, hr⟩
    rw [(hget d.references).2 ⟨d, hd, rfl⟩]
    exact (hmem d).2 hr
  · cases hfound : (graph definitions).get? name with
    | none => simp [hfound] at h
    | some references =>
      obtain ⟨d, hd, he⟩ := (hget references).1 hfound
      cases he
      rw [hfound] at h
      exact ⟨d, hd, rfl, (hmem d).1 h⟩

theorem exists_dropWhile_ne (h : next ∈ path) :
    ∃ rest, path.dropWhile (· ≠ next) = next :: rest := by
  induction path with
  | nil => cases h
  | cons name path ih =>
    by_cases hname : name = next
    · exact ⟨path, by simp [hname]⟩
    · obtain ⟨rest, hr⟩ := ih ((List.mem_cons.1 h).resolve_left (Ne.symm hname))
      exact ⟨rest, by rw [List.dropWhile_cons_of_pos (by simpa using hname), hr]⟩

/-- A reference from the end of a path back into it closes a cycle. -/
theorem isCycle_of_path (hpath : path.IsChain (Refers definitions)) (hdistinct : path.Nodup)
    (hdefined : ∀ name ∈ path, name ∈ definitions.map Definition.name) (hp : next ∈ path)
    (hback : ∀ last ∈ path.getLast?, Refers definitions last next) :
    IsCycle definitions (path.dropWhile (· ≠ next) ++ [next]) := by
  obtain ⟨rest, hrest⟩ := exists_dropWhile_ne hp
  obtain ⟨before, hbefore⟩ : next :: rest <:+ path := hrest ▸ List.dropWhile_suffix _
  have hlast : (next :: rest).getLast? = path.getLast? := by
    rw [← hbefore, List.getLast?_append_of_ne_nil _ (List.cons_ne_nil _ _)]
  rw [hrest]
  subst hbefore
  exact {
    length := by simp
    closed := by
      rw [List.getLast?_concat]
      rfl
    distinct := by
      rw [List.dropLast_concat]
      exact (List.nodup_append.1 hdistinct).2.1
    defined := fun name hm => by
      rcases mem_snoc.1 hm with hm | rfl
      · exact hdefined name (List.mem_append_right _ hm)
      · exact hdefined name hp
    linked := by
      refine List.isChain_append.2 ⟨hpath.right_of_append, .singleton _, ?_⟩
      rintro last hl _ ⟨⟩
      exact hback last (hlast ▸ hl) }

/-- A cycle that a search finds closes a way along its path. -/
theorem isCycle_of_explores (hn : (definitions.map Definition.name).Nodup)
    {names clear chain : List String} {outcome : Except (List String) (List String)}
    (h : Explores (graph definitions) path names clear outcome) (he : outcome = .error chain)
    (hpath : path.IsChain (Refers definitions)) (hdistinct : path.Nodup)
    (hknown : ∀ name ∈ path, name ∈ definitions.map Definition.name)
    (hlast : ∀ last ∈ path.getLast?, ∀ next ∈ names, next ∈ (graph definitions).successors last) :
    IsCycle definitions chain := by
  induction h with
  | done => cases he
  | @cycle path rest clear next hp =>
    cases he
    refine isCycle_of_path hpath hdistinct hknown hp fun last hl => (refers_iff hn).2 ⟨?_, ?_⟩
    · exact hlast last hl next List.mem_cons_self
    · exact contains_graph.2 (hknown next hp)
  | pass hp hc hr ih =>
    exact ih he hpath hdistinct hknown fun last hl next hm =>
      hlast last hl next (List.mem_cons_of_mem _ hm)
  | @found path rest clear chain' next hp hc hk hv ih =>
    refine ih he ?_ (nodup_snoc.2 ⟨hdistinct, hp⟩) ?_ ?_
    · refine List.isChain_append.2 ⟨hpath, .singleton _, ?_⟩
      rintro last hl _ ⟨⟩
      exact (refers_iff hn).2 ⟨hlast last hl next List.mem_cons_self, hk⟩
    · intro name hm
      rcases mem_snoc.1 hm with hm | rfl
      · exact hknown name hm
      · exact contains_graph.1 hk
    · intro last hl name hm
      rw [List.getLast?_concat] at hl
      cases hl
      exact hm
  | visit hp hc hk hv hr _ ih =>
    exact ih he hpath hdistinct hknown fun last hl next hm =>
      hlast last hl next (List.mem_cons_of_mem _ hm)

theorem transGen_of_isCycle {chain : List String} (h : IsCycle definitions chain) :
    ∃ name, Relation.TransGen (Refers definitions) name name := by
  obtain ⟨hlength, hclosed, -, -, hlinked⟩ := h
  match chain, hlength with
  | name :: next :: rest, _ =>
    obtain ⟨hfirst, hrest⟩ := List.isChain_cons_cons.1 hlinked
    have hne : next :: rest ≠ [] := List.cons_ne_nil _ _
    have hlast : (next :: rest).getLast hne = name := by
      rw [List.getLast?_cons_cons, List.getLast?_eq_getLast_of_ne_nil hne] at hclosed
      exact (Option.some.inj hclosed).symm
    exact ⟨name, .head' hfirst (List.relationReflTransGen_of_exists_isChain_cons rest hrest hlast)⟩

theorem not_transGen_of_findCycle (hn : (definitions.map Definition.name).Nodup)
    (h : findCycle definitions = none) (name : String) :
    ¬ Relation.TransGen (Refers definitions) name name := by
  obtain ⟨rank, hrank⟩ := exists_rank h
  have hstep {name next : String} (hr : Refers definitions name next) : rank next < rank name := by
    obtain ⟨hs, hk⟩ := (refers_iff hn).1 hr
    obtain ⟨-, d, hd, rfl, -⟩ := hr
    exact (hrank d.name (contains_graph.2 (List.mem_map_of_mem hd))).2 next hs hk
  have hrun {name next : String} (hr : Relation.TransGen (Refers definitions) name next) :
      rank next < rank name := by
    induction hr with
    | single hr => exact hstep hr
    | tail _ hr ih => exact Nat.lt_trans (hstep hr) ih
  exact fun hr => Nat.lt_irrefl _ (hrun hr)

theorem isCycle_of_findCycle (hn : (definitions.map Definition.name).Nodup)
    {chain : List String} (h : findCycle definitions = some chain) :
    IsCycle definitions chain := by
  obtain ⟨outcome, hexplores, hfound⟩ := searches_iff.2 h
  cases outcome with
  | ok cleared => cases hfound
  | error chain' =>
    cases hfound
    exact isCycle_of_explores hn hexplores rfl .nil List.nodup_nil (by simp) (by simp)

/-- The search ends. It finds nothing exactly if no phrase refers back to itself, and otherwise a
cycle, which is the same for every order of the definitions. -/
theorem findCycle_decides (hn : (definitions.map Definition.name).Nodup) :
    (∀ found, Searches definitions found ↔ findCycle definitions = found) ∧
    (findCycle definitions = none ↔
      ∀ name, ¬ Relation.TransGen (Refers definitions) name name) ∧
    (∀ chain, findCycle definitions = some chain → IsCycle definitions chain) ∧
    ∀ definitions', definitions.Perm definitions' →
      findCycle definitions' = findCycle definitions := by
  refine ⟨fun _ => searches_iff, ⟨not_transGen_of_findCycle hn, fun hacyclic => ?_⟩,
    fun _ => isCycle_of_findCycle hn, fun definitions' hp => ?_⟩
  · by_contra hne
    obtain ⟨chain, hchain⟩ := Option.ne_none_iff_exists'.1 hne
    obtain ⟨name, hname⟩ := transGen_of_isCycle (isCycle_of_findCycle hn hchain)
    exact hacyclic name hname
  · rw [findCycle, findCycle, graph_of_perm hn hp]

/-- A deck whose kings and queens refer to each other, told of by an ace. -/
def court : String :=
  "ace = \"{king}\"; queen = \"{king} {joker}\"; king = \"{queen}\"; joker = \"\";"

theorem findCycle_decides_court : ∃ definitions, parseAll court = .ok definitions ∧
    (definitions.map Definition.name).Nodup ∧
    findCycle definitions = some ["king", "queen", "king"] ∧
    (∀ found, Searches definitions found ↔ findCycle definitions = found) ∧
    (findCycle definitions = none ↔
      ∀ name, ¬ Relation.TransGen (Refers definitions) name name) ∧
    (∀ chain, findCycle definitions = some chain → IsCycle definitions chain) ∧
    ∀ definitions', definitions.Perm definitions' →
      findCycle definitions' = findCycle definitions := by
  have h : (match parseAll court with
      | .ok definitions => decide (definitions.map Definition.name).Nodup &&
        decide (findCycle definitions = some ["king", "queen", "king"])
      | .error _ => false) = true := by decide +kernel
  cases hd : parseAll court with
  | error e => simp [hd] at h
  | ok definitions =>
    simp only [hd, Bool.and_eq_true, decide_eq_true_eq] at h
    exact ⟨definitions, rfl, h.1, h.2, findCycle_decides h.1⟩

end

end Definition

end Phrasebook
