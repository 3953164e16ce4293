import Phrasebook.Proofs.Search

/-!
What the search for cycles proves when it finds none: the phrases can be ranked so that each one
refers only to phrases of lower rank.
-/

namespace Phrasebook.Definition

/-- Phrases in an order in which each one comes behind all the phrases it refers to. -/
inductive Settled (graph : Graph) : List String → Prop where
  | nil : Settled graph []
  | snoc {names : List String} {name : String} (before : Settled graph names)
      (known : graph.contains name) (fresh : name ∉ names)
      (behind : ∀ next ∈ graph.successors name, graph.contains next → next ∈ names) :
      Settled graph (names ++ [name])

namespace Settled

variable {graph : Graph} {names : List String} {name next : String}

theorem nodup (h : Settled graph names) : names.Nodup := by
  induction h with
  | nil => exact List.nodup_nil
  | snoc before known fresh behind ih => exact nodup_snoc.2 ⟨ih, fresh⟩

theorem subset_keys (h : Settled graph names) : names ⊆ graph.keys := by
  induction h with
  | nil => exact List.nil_subset _
  | snoc before known fresh behind ih =>
    intro name hm
    rcases mem_snoc.1 hm with hb | rfl
    · exact ih hb
    · exact Dictionary.mem_keys.2 known

theorem length_le (h : Settled graph names) : names.length ≤ graph.keys.length :=
  (h.nodup.subperm h.subset_keys).length_le

theorem successor_mem (h : Settled graph names) (hm : name ∈ names)
    (hs : next ∈ graph.successors name) (hk : graph.contains next) : next ∈ names := by
  induction h with
  | nil => cases hm
  | snoc before known fresh behind ih =>
    rcases mem_snoc.1 hm with hb | rfl
    · exact List.mem_append_left _ (ih hb)
    · exact List.mem_append_left _ (behind next hs hk)

/-- A phrase refers to phrases that come earlier. -/
theorem idxOf_lt (h : Settled graph names) (hm : name ∈ names)
    (hs : next ∈ graph.successors name) (hk : graph.contains next) :
    names.idxOf next < names.idxOf name := by
  induction h with
  | nil => cases hm
  | @snoc names last before known fresh behind ih =>
    rcases mem_snoc.1 hm with hb | rfl
    · have hn : next ∈ names := before.successor_mem hb hs hk
      rw [List.idxOf_append_of_mem hn, List.idxOf_append_of_mem hb]
      exact ih hb
    · have hn : next ∈ names := behind next hs hk
      rw [List.idxOf_append_of_mem hn, List.idxOf_append_of_notMem fresh]
      exact Nat.lt_of_lt_of_le (List.idxOf_lt_length_of_mem hn) (Nat.le_add_right _ _)

end Settled

/-- What is settled after a search, and how it relates to what was settled before: no phrase is lost,
and none of the path is added. -/
structure Progress (graph : Graph) (path before after : List String) : Prop where
  settled : Settled graph after
  kept : before ⊆ after
  apart : ∀ name ∈ path, name ∉ after

/-- A search that finds no cycle settles the phrases that it starts from. -/
theorem Explores.progress {graph : Graph} {path names clear after : List String}
    {outcome : Except (List String) (List String)} (h : Explores graph path names clear outcome)
    (ho : outcome = .ok after) (hs : Settled graph clear) (ha : ∀ name ∈ path, name ∉ clear) :
    Progress graph path clear after ∧ ∀ name ∈ names, graph.contains name → name ∈ after := by
  induction h generalizing after with
  | done =>
    cases ho
    exact ⟨⟨hs, List.Subset.refl _, ha⟩, by simp⟩
  | cycle => cases ho
  | found => cases ho
  | @pass path rest clear next outcome hp hc hr ih =>
    obtain ⟨hprogress, hall⟩ := ih ho hs ha
    refine ⟨hprogress, List.forall_mem_cons.2 ⟨fun hk => ?_, hall⟩⟩
    exact hprogress.kept (hc.resolve_right (not_not_intro hk))
  | @visit path rest clear cleared next outcome hp hc hk hv hr ihv ihr =>
    have hapart : ∀ name ∈ path ++ [next], name ∉ clear := by
      intro name hm
      rcases mem_snoc.1 hm with hm | rfl
      · exact ha name hm
      · exact hc
    obtain ⟨hbelow, hbehind⟩ := ihv rfl hs hapart
    -- All that the phrase refers to is settled by now, so that it may come next.
    have hsettled : Settled graph (cleared ++ [next]) :=
      .snoc hbelow.settled hk (hbelow.apart next (mem_snoc.2 (.inr rfl))) hbehind
    obtain ⟨hafter, hall⟩ := ihr ho hsettled fun name hm hmem => by
      rcases mem_snoc.1 hmem with hmem | rfl
      · exact hbelow.apart name (mem_snoc.2 (.inl hm)) hmem
      · exact hp hm
    refine ⟨⟨hafter.settled, fun name hm => ?_, hafter.apart⟩, ?_⟩
    · exact hafter.kept (mem_snoc.2 (.inl (hbelow.kept hm)))
    · exact List.forall_mem_cons.2 ⟨fun _ => hafter.kept (mem_snoc.2 (.inr rfl)), hall⟩

/-- A search without a find has settled every phrase. -/
theorem settled_of_findCycle {definitions : List Definition} (h : findCycle definitions = none) :
    ∃ names, Settled (graph definitions) names ∧
      ∀ name, (graph definitions).contains name → name ∈ names := by
  obtain ⟨outcome, hexplores, hfound⟩ := searches_iff.2 h
  cases outcome with
  | error chain => cases hfound
  | ok names =>
    obtain ⟨hp, hall⟩ := hexplores.progress rfl .nil (List.forall_mem_nil _)
    exact ⟨names, hp.settled, fun name hk => hall name (Dictionary.mem_keys.2 hk) hk⟩

/-- Without cycles the phrases have ranks, fewer than there are phrases, that fall along every
reference. -/
theorem exists_rank {definitions : List Definition} (h : findCycle definitions = none) :
    ∃ rank : String → Nat, ∀ name, (graph definitions).contains name →
      rank name < (graph definitions).keys.length ∧
      ∀ next ∈ (graph definitions).successors name, (graph definitions).contains next →
        rank next < rank name := by
  obtain ⟨names, hs, hall⟩ := settled_of_findCycle h
  refine ⟨fun name => names.idxOf name, ?_⟩
  intro name hk
  have hm : name ∈ names := hall name hk
  exact ⟨Nat.lt_of_lt_of_le (List.idxOf_lt_length_of_mem hm) hs.length_le,
    fun next hn hk' => hs.idxOf_lt hm hn hk'⟩

end Phrasebook.Definition
