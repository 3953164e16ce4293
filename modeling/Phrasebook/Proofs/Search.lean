import Mathlib.Data.List.Nodup
import Mathlib.Data.List.Perm.Subperm
import Phrasebook.Definition.Cycle
import Phrasebook.Proofs.Outcomes

/-!
The search for cycles, as deep as the references lead. The path that it goes along has no phrase
twice, so that the steps which bound it never run out, and what it comes to can be told without them.
-/

namespace Phrasebook.Definition

theorem mem_snoc {names : List String} {name other : String} :
    other ∈ names ++ [name] ↔ other ∈ names ∨ other = name := by
  rw [List.mem_append, List.mem_singleton]

theorem nodup_snoc {names : List String} {name : String} :
    (names ++ [name]).Nodup ↔ names.Nodup ∧ name ∉ names := by
  rw [List.nodup_append_comm, List.singleton_append, List.nodup_cons, and_comm]

/-- The phrases that a phrase of the graph refers to. -/
def Graph.successors (graph : Graph) (name : String) : List String :=
  (graph.get? name).getD []

/-! ### The search as it goes -/

/-- A search along names, at the end of a path and with some phrases clear already. It goes as deep
as the references lead. -/
inductive Explores (graph : Graph) :
    List String → List String → List String → Except (List String) (List String) → Prop where
  | done {path clear : List String} : Explores graph path [] clear (.ok clear)
  | cycle {path rest clear : List String} {next : String} (hp : next ∈ path) :
    Explores graph path (next :: rest) clear (.error (path.dropWhile (· ≠ next) ++ [next]))
  | pass {path rest clear : List String} {next : String}
      {outcome : Except (List String) (List String)} (hp : next ∉ path)
      (hc : next ∈ clear ∨ ¬ graph.contains next) (hr : Explores graph path rest clear outcome) :
    Explores graph path (next :: rest) clear outcome
  | found {path rest clear chain : List String} {next : String} (hp : next ∉ path)
      (hc : next ∉ clear) (hk : graph.contains next)
      (hv : Explores graph (path ++ [next]) (graph.successors next) clear (.error chain)) :
    Explores graph path (next :: rest) clear (.error chain)
  | visit {path rest clear cleared : List String} {next : String}
      {outcome : Except (List String) (List String)} (hp : next ∉ path) (hc : next ∉ clear)
      (hk : graph.contains next)
      (hv : Explores graph (path ++ [next]) (graph.successors next) clear (.ok cleared))
      (hr : Explores graph path rest (cleared ++ [next]) outcome) :
    Explores graph path (next :: rest) clear outcome

namespace Explores

variable {graph : Graph} {path names clear : List String}
  {outcome outcome' : Except (List String) (List String)}

/-- A search has one outcome. -/
theorem unique (h : Explores graph path names clear outcome)
    (h' : Explores graph path names clear outcome') : outcome = outcome' := by
  induction h generalizing outcome' with
  | done => cases h'; rfl
  | cycle hp =>
    cases h' with
    | cycle => rfl
    | pass hp' | found hp' | visit hp' => exact absurd hp hp'
  | pass hp hc hr ih =>
    cases h' with
    | cycle hp' => exact absurd hp' hp
    | pass _ _ hr' => exact ih hr'
    | found _ hc' hk' | visit _ hc' hk' => exact absurd hc (by simp [hc', hk'])
  | found hp hc hk hv ih =>
    cases h' with
    | cycle hp' => exact absurd hp' hp
    | pass _ hc' => exact absurd hc' (by simp [hc, hk])
    | found _ _ _ hv' => exact ih hv'
    | visit _ _ _ hv' => cases ih hv'
  | visit hp hc hk hv hr ih ihr =>
    cases h' with
    | cycle hp' => exact absurd hp' hp
    | pass _ hc' => exact absurd hc' (by simp [hc, hk])
    | found _ _ _ hv' => cases ih hv'
    | visit _ _ _ hv' hr' =>
      cases ih hv'
      exact ihr hr'

end Explores

/-- What the search for cycles comes to. -/
def Searches (definitions : List Definition) (found : Option (List String)) : Prop :=
  ∃ outcome, Explores (graph definitions) [] (graph definitions).keys [] outcome ∧
    found = match outcome with
      | .ok _ => none
      | .error chain => some chain

/-! ### The search in so many steps -/

section

variable {graph : Graph} {steps : Nat} {path names clear : List String}

/-- One name of a search in so many steps. -/
def enter (graph : Graph) (steps : Nat) (path clear : List String) (next : String) :
    Except (List String) (List String) :=
  if next ∈ path then .error (path.dropWhile (· ≠ next) ++ [next])
  else if next ∈ clear then .ok clear
  else if graph.contains next then visit graph steps path clear next
  else .ok clear

theorem visit_succ (graph : Graph) (steps : Nat) (path clear : List String) (name : String) :
    visit graph (steps + 1) path clear name = do
      let cleared ← (graph.successors name).foldlM (enter graph steps (path ++ [name])) clear
      return cleared ++ [name] :=
  rfl

/-- With as many steps as there are phrases off the path, a search goes as deep as it would. -/
theorem explores_foldlM (hn : path.Nodup) (hk : ∀ name ∈ path, graph.contains name)
    (hs : graph.keys.length ≤ steps + path.length) :
    Explores graph path names clear (names.foldlM (enter graph steps path) clear) := by
  induction steps using Nat.strongRecOn generalizing path names clear with
  | ind steps ih =>
    induction names generalizing clear with
    | nil => exact .done
    | cons next rest ihr =>
      rw [List.foldlM_cons, enter]
      split
      next hp => exact .cycle hp
      next hp =>
      split
      next hc => exact .pass hp (.inl hc) ihr
      next hc =>
      split
      next hnext =>
        have hn' : (path ++ [next]).Nodup := nodup_snoc.2 ⟨hn, hp⟩
        have hk' : ∀ name ∈ path ++ [next], graph.contains name := by
          intro name hm
          rcases mem_snoc.1 hm with hm | rfl
          · exact hk name hm
          · exact hnext
        have hlen := (hn'.subperm fun name hm => Dictionary.mem_keys.2 (hk' name hm)).length_le
        rw [List.length_append, List.length_singleton] at hlen
        obtain ⟨fewer, rfl⟩ : ∃ fewer, steps = fewer + 1 := ⟨steps - 1, by omega⟩
        have hv : Explores graph (path ++ [next]) (graph.successors next) clear
            ((graph.successors next).foldlM (enter graph fewer (path ++ [next])) clear) := by
          refine ih fewer (Nat.lt_succ_self _) hn' hk' ?_
          rw [List.length_append, List.length_singleton]
          omega
        rw [visit_succ]
        generalize (graph.successors next).foldlM (enter graph fewer (path ++ [next])) clear =
          outcome at hv ⊢
        cases outcome with
        | error chain => exact .found hp hc hnext hv
        | ok cleared => exact .visit hp hc hnext hv ihr
      next hnext => exact .pass hp (.inr hnext) ihr

/-- At the top there is no path to come back to, and all names are those of phrases. -/
theorem foldlM_enter (h : ∀ name ∈ names, graph.contains name) :
    names.foldlM (fun clear name =>
      if name ∈ clear then .ok clear else visit graph steps [] clear name) clear =
      names.foldlM (enter graph steps []) clear := by
  induction names generalizing clear with
  | nil => rfl
  | cons name rest ih =>
    obtain ⟨hname, hrest⟩ := List.forall_mem_cons.1 h
    rw [List.foldlM_cons, List.foldlM_cons, enter, if_neg List.not_mem_nil, if_pos hname]
    exact bind_congr fun _ => ih hrest

end

/-- The search ends, and what it comes to is what is found in as many steps as there are phrases. -/
theorem searches_iff {definitions : List Definition} {found : Option (List String)} :
    Searches definitions found ↔ findCycle definitions = found := by
  let g := graph definitions
  have hexplores : Explores g [] g.keys [] (g.keys.foldlM (enter g g.keys.length []) []) :=
    explores_foldlM List.nodup_nil (List.forall_mem_nil _) (Nat.le_refl _)
  rw [← foldlM_enter fun name => Dictionary.mem_keys.1] at hexplores
  constructor
  · rintro ⟨outcome, h, rfl⟩
    rw [h.unique hexplores]
    rfl
  · rintro rfl
    exact ⟨_, hexplores, rfl⟩

end Phrasebook.Definition
