import Mathlib.Data.List.Forall2
import Phrasebook.Definition.Arm

/-!
Which arm is chosen. An arm whose labels are all candidates of their places ranks by where they
first stand among them, the first place counting most, and of two that rank alike the earlier one
is chosen. Where there is none, it is the first arm with stars beside its words, and where there is
none of these either, the first one of stars alone.
-/

namespace Phrasebook.Arm

/-! ### What is chosen -/

section

variable (candidates : List (List String))

/-- Each part is labelled, with or without a star, with a candidate of its place. -/
def Named (arm : Arm) : Prop :=
  List.Forall₂ (fun part keys => ∃ name ∈ keys, part.label = some name) arm.1.parts candidates

/-- Where the labels first stand among the candidates of their places. -/
def ranks (arm : Arm) : List Nat :=
  List.zipWith (fun part keys => (keys.map some).idxOf part.label) arm.1.parts candidates

/-- Stars stand beside words, and each word is a candidate of its place. -/
structure Free (arm : Arm) : Prop where
  star : ∃ label, .wildcard label ∈ arm.1.parts
  word : ∃ name, .literal name ∈ arm.1.parts
  fits : List.Forall₂ (fun part keys => ∀ name, part = .literal name → name ∈ keys)
    arm.1.parts candidates

/-- Stars alone, one for each place or a single one for all. -/
structure CatchAll (arm : Arm) : Prop where
  length : arm.1.parts.length = candidates.length ∨ arm.1.parts.length = 1
  stars : ∀ part ∈ arm.1.parts, ∃ label, part = .wildcard label

/-- The first arm of a kind. -/
def First (kind : Arm → Prop) (arms : List Arm) (arm : Arm) : Prop :=
  ∃ before after, arms = before ++ arm :: after ∧ kind arm ∧ ∀ other ∈ before, ¬ kind other

/-- No named arm ranks before this one, and it is the first of those that rank with it. -/
structure Best (arms : List Arm) (arm : Arm) : Prop where
  least : ∀ other ∈ arms, Named candidates other →
    ¬ List.Lex (· < ·) (ranks candidates other) (ranks candidates arm)
  first : First (fun other => Named candidates other ∧
    ranks candidates other = ranks candidates arm) arms arm

/-- The arm that the candidates choose, if any. -/
inductive Chosen (arms : List Arm) : Option Arm → Prop where
  | named {arm : Arm} (h : Best candidates arms arm) : Chosen arms (some arm)
  | free {arm : Arm} (hn : ∀ other ∈ arms, ¬ Named candidates other)
      (h : First (Free candidates) arms arm) : Chosen arms (some arm)
  | catchAll {arm : Arm} (hn : ∀ other ∈ arms, ¬ Named candidates other)
      (hf : ∀ other ∈ arms, ¬ Free candidates other)
      (h : First (CatchAll candidates) arms arm) : Chosen arms (some arm)
  | none (hn : ∀ other ∈ arms, ¬ Named candidates other)
      (hf : ∀ other ∈ arms, ¬ Free candidates other)
      (hc : ∀ other ∈ arms, ¬ CatchAll candidates other) : Chosen arms none

end

variable {candidates : List (List String)} {arms : List Arm} {arm : Arm} {tuple : List String}

/-! ### The first of a kind -/

section

variable {kind : Arm → Prop} {test : Arm → Bool}

theorem find?_eq_some_iff_first (h : ∀ arm, test arm ↔ kind arm) :
    arms.find? test = some arm ↔ First kind arms arm := by
  simp only [List.find?_eq_some_iff_append, Bool.not_eq_true', ← Bool.not_eq_true, h, First]
  constructor
  · rintro ⟨hk, before, after, he, hb⟩
    exact ⟨before, after, he, hk, hb⟩
  · rintro ⟨before, after, he, hk, hb⟩
    exact ⟨hk, before, after, he, hb⟩

theorem find?_eq_none_iff_forall (h : ∀ arm, test arm ↔ kind arm) :
    arms.find? test = none ↔ ∀ other ∈ arms, ¬ kind other := by
  simp only [List.find?_eq_none, h]

theorem First.unique {other : Arm} (h : First kind arms arm) (h' : First kind arms other) :
    arm = other := by
  classical
  have hkind (arm : Arm) : decide (kind arm) ↔ kind arm := decide_eq_true_iff
  rw [← find?_eq_some_iff_first hkind] at h h'
  exact Option.some.inj (h.symm.trans h')

end

/-! ### Tuples of candidates -/

theorem mem_tuples : tuple ∈ tuples candidates ↔ List.Forall₂ (· ∈ ·) tuple candidates := by
  induction candidates generalizing tuple with
  | nil => simp [tuples]
  | cons keys rest ih =>
    simp only [tuples, List.mem_flatMap, List.mem_map, ih]
    constructor
    · rintro ⟨key, hk, more, hm, rfl⟩
      exact .cons hk hm
    · rintro (_ | ⟨hk, hm⟩)
      exact ⟨_, hk, _, hm, rfl⟩

/-- Where the members of a tuple first stand among the candidates. -/
def places (candidates : List (List String)) (tuple : List String) : List Nat :=
  List.zipWith (fun name keys => keys.idxOf name) tuple candidates

theorem eq_of_places_eq {other : List String} (ht : tuple ∈ tuples candidates)
    (ho : other ∈ tuples candidates) (h : places candidates tuple = places candidates other) :
    tuple = other := by
  rw [mem_tuples] at ht ho
  induction ht generalizing other with
  | nil => cases ho; rfl
  | @cons name keys more rest hn hm ih =>
    cases ho with
    | @cons name' _ more' _ hn' hm' =>
      obtain ⟨hplace, hplaces⟩ := List.cons.inj h
      rw [ih hm' hplaces, (List.idxOf_inj hn).1 hplace]

/-- The first tuple of a kind is the one whose members stand first among the candidates. -/
theorem not_lex_of_find?_tuples {p : List String → Bool} {other : List String}
    (h : (tuples candidates).find? p = some tuple) (ho : other ∈ tuples candidates)
    (hp : p other) :
    ¬ List.Lex (· < ·) (places candidates other) (places candidates tuple) := by
  induction candidates generalizing p tuple other with
  | nil =>
    cases mem_tuples.1 ho
    cases mem_tuples.1 (List.mem_of_find?_eq_some h)
    exact List.not_lex_nil
  | cons keys rest ih =>
    simp only [tuples, List.find?_flatMap, List.find?_map] at h
    obtain ⟨earlier, key, later, rfl, hkey, hearlier⟩ := List.findSome?_eq_some_iff.1 h
    obtain ⟨more, hmore, rfl⟩ := Option.map_eq_some_iff.1 hkey
    have hnone : ∀ name ∈ earlier, ∀ m ∈ tuples rest, ¬ p (name :: m) := fun name hname =>
      List.find?_eq_none.1 (Option.map_eq_none_iff.1 (hearlier name hname))
    have hfound : p (key :: more) := (List.find?_some hmore :)
    have hkey : key ∉ earlier := fun hmem =>
      hnone key hmem more (List.mem_of_find?_eq_some hmore) hfound
    obtain _ | @⟨name, _, others, _, hname, hothers⟩ := mem_tuples.1 ho
    have hname' : name ∉ earlier := fun hmem => hnone name hmem others (mem_tuples.2 hothers) hp
    intro hlex
    rcases List.cons_lex_cons_iff.1 hlex with hlt | ⟨heq, hrest⟩
    · dsimp only at hlt
      rw [List.idxOf_append_of_notMem hkey, List.idxOf_append_of_notMem hname',
        List.idxOf_cons_self] at hlt
      omega
    · cases (List.idxOf_inj hname).1 heq
      exact ih hmore (mem_tuples.2 hothers) hp hrest

/-! ### Named arms -/

theorem isExactly_iff {key : EntryKey} :
    isExactly key tuple ↔ key.parts.map KeyPart.label = tuple.map some :=
  beq_iff_eq

/-- An arm is named if its labels are a tuple of candidates, and it ranks by their places. -/
theorem named_iff : Named candidates arm ↔ ∃ tuple ∈ tuples candidates, isExactly arm.1 tuple := by
  simp only [Named, mem_tuples, isExactly_iff]
  generalize arm.1.parts = parts
  constructor
  · intro h
    induction h with
    | nil => exact ⟨[], .nil, rfl⟩
    | cons hp _ ih =>
      obtain ⟨name, hn, hl⟩ := hp
      obtain ⟨more, hm, he⟩ := ih
      exact ⟨name :: more, .cons hn hm, by rw [List.map_cons, hl, he, List.map_cons]⟩
  · rintro ⟨tuple, ht, he⟩
    induction ht generalizing parts with
    | nil =>
      rw [List.map_nil, List.map_eq_nil_iff] at he
      exact he ▸ .nil
    | cons hn _ ih =>
      obtain ⟨part, more, rfl, hl, hm⟩ := List.map_eq_cons_iff.1 he
      exact .cons ⟨_, hn, hl⟩ (ih more hm)

theorem ranks_eq_places (h : isExactly arm.1 tuple) :
    ranks candidates arm = places candidates tuple := by
  rw [isExactly_iff] at h
  have hplace (name : String) (keys : List String) :
      (keys.map some).idxOf (some name) = keys.idxOf name := by
    simp [List.idxOf, List.findIdx_map, Function.comp_def]
  calc ranks candidates arm
      = List.zipWith (fun label keys => (keys.map some).idxOf label)
          (arm.1.parts.map KeyPart.label) candidates := by rw [List.zipWith_map_left]; rfl
    _ = places candidates tuple := by
      rw [h, List.zipWith_map_left]
      simp only [hplace]
      rfl

theorem Best.mem (h : Best candidates arms arm) : arm ∈ arms ∧ Named candidates arm := by
  obtain ⟨before, after, rfl, ⟨hn, -⟩, -⟩ := h.first
  exact ⟨List.mem_append_right _ List.mem_cons_self, hn⟩

theorem Best.unique {other : Arm} (h : Best candidates arms arm)
    (h' : Best candidates arms other) : arm = other := by
  have hle := h.least other h'.mem.1 h'.mem.2
  have hge := h'.least arm h.mem.1 h.mem.2
  have hranks : ranks candidates arm = ranks candidates other := List.le_antisymm hle hge
  exact h.first.unique (hranks ▸ h'.first)

theorem best_of_exactArm? (h : exactArm? arms candidates = some arm) :
    Best candidates arms arm := by
  obtain ⟨earlier, tuple, later, htuples, hfind, hearlier⟩ := List.findSome?_eq_some_iff.1 h
  have hmem : tuple ∈ tuples candidates := htuples ▸ List.mem_append_right _ List.mem_cons_self
  have hexact : isExactly arm.1 tuple := (List.find?_some hfind :)
  have hranks : ranks candidates arm = places candidates tuple := ranks_eq_places hexact
  refine ⟨fun other ho hn => ?_, (find?_eq_some_iff_first fun other => ?_).1 hfind⟩
  · obtain ⟨tuple', hmem', hexact'⟩ := named_iff.1 hn
    rw [hranks, ranks_eq_places hexact']
    -- The tuple is the first one that labels an arm, and the other arm's does too.
    refine not_lex_of_find?_tuples (p := fun tuple => (arms.find? (isExactly ·.1 tuple)).isSome)
      ?_ hmem' ?_
    · rw [List.find?_eq_some_iff_append]
      exact ⟨by rw [hfind]; rfl, earlier, later, htuples, fun t ht => by simp [hearlier t ht]⟩
    · exact List.find?_isSome.2 ⟨other, ho, hexact'⟩
  · rw [hranks]
    constructor
    · intro he
      exact ⟨named_iff.2 ⟨tuple, hmem, he⟩, ranks_eq_places he⟩
    · rintro ⟨hn, he⟩
      obtain ⟨tuple', hmem', hexact'⟩ := named_iff.1 hn
      rw [ranks_eq_places hexact'] at he
      exact eq_of_places_eq hmem' hmem he ▸ hexact'

theorem exactArm?_eq_none_iff :
    exactArm? arms candidates = none ↔ ∀ other ∈ arms, ¬ Named candidates other := by
  simp only [exactArm?, List.findSome?_eq_none_iff, List.find?_eq_none, named_iff, not_exists,
    not_and]
  exact ⟨fun h other ho tuple ht => h tuple ht other ho,
    fun h tuple ht other ho => h other ho tuple ht⟩

theorem exactArm?_eq_some_iff :
    exactArm? arms candidates = some arm ↔ Best candidates arms arm := by
  refine ⟨best_of_exactArm?, fun h => ?_⟩
  cases he : exactArm? arms candidates with
  | none => exact absurd h.mem.2 (exactArm?_eq_none_iff.1 he arm h.mem.1)
  | some other => rw [h.unique (best_of_exactArm? he)]

/-! ### Arms with stars -/

theorem isWildcard_iff {part : KeyPart} : part.isWildcard ↔ ∃ label, part = .wildcard label := by
  cases part <;> simp [KeyPart.isWildcard]

theorem not_wildcard_iff {part : KeyPart} :
    (¬ ∃ label, part = .wildcard label) ↔ ∃ name, part = .literal name := by
  cases part <;> simp

theorem admits_iff {part : KeyPart} {keys : List String} :
    admits part keys ↔ ∀ name, part = .literal name → name ∈ keys := by
  cases part <;> simp [admits]

theorem matchesFreely_iff {key : EntryKey} :
    (key.parts.length = candidates.length ∧ matchesFreely key candidates) ↔
      List.Forall₂ (fun part keys => ∀ name, part = .literal name → name ∈ keys)
        key.parts candidates := by
  rw [List.forall₂_iff_zip, matchesFreely, List.all_eq_true]
  simp only [Prod.forall, admits_iff]

theorem free_iff : (arm.1.parts.length == candidates.length && arm.1.hasWildcard &&
    !arm.1.isCatchAll && matchesFreely arm.1 candidates) ↔ Free candidates arm := by
  simp only [Bool.and_eq_true, beq_iff_eq, Bool.not_eq_true', EntryKey.hasWildcard,
    EntryKey.isCatchAll, List.any_eq_true, List.all_eq_false, isWildcard_iff,
    not_wildcard_iff]
  constructor
  · rintro ⟨⟨⟨hl, _, hstar, label, rfl⟩, _, hword, name, rfl⟩, hm⟩
    exact ⟨⟨label, hstar⟩, ⟨name, hword⟩, matchesFreely_iff.1 ⟨hl, hm⟩⟩
  · rintro ⟨⟨label, hstar⟩, ⟨name, hword⟩, hfits⟩
    obtain ⟨hl, hm⟩ := matchesFreely_iff.2 hfits
    exact ⟨⟨⟨hl, _, hstar, label, rfl⟩, _, hword, name, rfl⟩, hm⟩

theorem catchAll_iff : ((arm.1.parts.length == candidates.length || arm.1.parts.length == 1) &&
    arm.1.isCatchAll) ↔ CatchAll candidates arm := by
  simp only [Bool.and_eq_true, Bool.or_eq_true, beq_iff_eq, EntryKey.isCatchAll, List.all_eq_true,
    isWildcard_iff]
  exact ⟨fun ⟨hl, hs⟩ => ⟨hl, hs⟩, fun ⟨hl, hs⟩ => ⟨hl, hs⟩⟩

theorem freeArm?_eq_some_iff :
    freeArm? arms candidates = some arm ↔ First (Free candidates) arms arm :=
  find?_eq_some_iff_first fun _ => free_iff

theorem freeArm?_eq_none_iff :
    freeArm? arms candidates = none ↔ ∀ other ∈ arms, ¬ Free candidates other :=
  find?_eq_none_iff_forall fun _ => free_iff

theorem catchAllArm?_eq_some_iff :
    catchAllArm? arms candidates.length = some arm ↔ First (CatchAll candidates) arms arm :=
  find?_eq_some_iff_first fun _ => catchAll_iff

theorem catchAllArm?_eq_none_iff :
    catchAllArm? arms candidates.length = none ↔ ∀ other ∈ arms, ¬ CatchAll candidates other :=
  find?_eq_none_iff_forall fun _ => catchAll_iff

/-! ### The choice -/

/-- One search after the other finds what the candidates choose, and nothing else. -/
theorem chosen_iff {found : Option Arm} : Chosen candidates arms found ↔
    (exactArm? arms candidates).or ((freeArm? arms candidates).or
      (catchAllArm? arms candidates.length)) = found := by
  constructor
  · rintro (h | ⟨hn, h⟩ | ⟨hn, hf, h⟩ | ⟨hn, hf, hc⟩)
    · rw [exactArm?_eq_some_iff.2 h]
      rfl
    · rw [exactArm?_eq_none_iff.2 hn, freeArm?_eq_some_iff.2 h]
      rfl
    · rw [exactArm?_eq_none_iff.2 hn, freeArm?_eq_none_iff.2 hf, catchAllArm?_eq_some_iff.2 h]
      rfl
    · rw [exactArm?_eq_none_iff.2 hn, freeArm?_eq_none_iff.2 hf, catchAllArm?_eq_none_iff.2 hc]
      rfl
  · rintro rfl
    cases hn : exactArm? arms candidates with
    | some arm => exact .named (exactArm?_eq_some_iff.1 hn)
    | none =>
      cases hf : freeArm? arms candidates with
      | some arm => exact .free (exactArm?_eq_none_iff.1 hn) (freeArm?_eq_some_iff.1 hf)
      | none =>
        cases hc : catchAllArm? arms candidates.length with
        | some arm =>
          exact .catchAll (exactArm?_eq_none_iff.1 hn) (freeArm?_eq_none_iff.1 hf)
            (catchAllArm?_eq_some_iff.1 hc)
        | none =>
          exact .none (exactArm?_eq_none_iff.1 hn) (freeArm?_eq_none_iff.1 hf)
            (catchAllArm?_eq_none_iff.1 hc)

/-- What is selected is the template of the arm that the candidates choose, if they choose one. -/
theorem select?_eq_iff {entries : List Entry} {found : Option Template} :
    select? entries candidates = found ↔
      ∃ arm, Chosen candidates (Arm.arms entries) arm ∧ arm.map Prod.snd = found := by
  constructor
  · rintro rfl
    exact ⟨_, chosen_iff.2 rfl, rfl⟩
  · rintro ⟨arm, h, rfl⟩
    rw [← chosen_iff.1 h]
    rfl

end Phrasebook.Arm
