import Mathlib.Data.List.Destutter
import Mathlib.Data.Prod.Lex
import Mathlib.Data.String.Basic
import Phrasebook.Definition.Check
import Phrasebook.Proofs.EditDistance

/-!
Which names are suggested. They are the best three of those that are near the key, or all of them
if there are no more, where the nearer name is better and of two at one distance the first by name.
There is one such list, and neither the order of the available names nor their repetitions matter
to it, nor do they to the errors of a check.
-/

namespace Phrasebook.Text

/-! ### Lists in order -/

section

variable {α : Type} [DecidableEq α] [BEq α] [LawfulBEq α] {r : α → α → Prop} {l : List α}

theorem eraseRepsBy_loop (a : α) (l seen : List α) :
    List.eraseRepsBy.loop (· == ·) a l seen = seen.reverse ++ l.destutter' (· ≠ ·) a := by
  induction l generalizing a seen with
  | nil => simp [List.eraseRepsBy.loop]
  | cons b l ih =>
    by_cases h : a = b
    · subst h
      simp [List.eraseRepsBy.loop, ih]
    · have hb : (a == b) = false := beq_eq_false_iff_ne.2 h
      simp [List.eraseRepsBy.loop, h, hb, ih]

/-- In an ordered list all that are equal stand together. -/
theorem eraseReps_eq_dedup [Std.Antisymm r] (h : l.Pairwise r) : l.eraseReps = l.dedup := by
  rw [← h.destutter_eq_dedup]
  cases l with
  | nil => rfl
  | cons a l => exact eraseRepsBy_loop a l []

end

variable {key name : String} {available others names : List String} {entry : Nat × String}

theorem closer_iff {x y : Nat × String} : closer x y ↔ toLex x ≤ toLex y := by
  simp [closer, Prod.Lex.toLex_le_toLex]

theorem pairwise_sorted (entries : List (Nat × String)) :
    (entries.mergeSort closer).Pairwise fun x y => toLex x ≤ toLex y := by
  have hsorted : (entries.mergeSort closer).Pairwise fun x y => closer x y := by
    apply List.pairwise_mergeSort
    · intro x y z hxy hyz
      exact closer_iff.2 ((closer_iff.1 hxy).trans (closer_iff.1 hyz))
    · intro x y
      rw [Bool.or_eq_true, closer_iff, closer_iff]
      exact le_total (toLex x) (toLex y)
  exact hsorted.imp closer_iff.1

/-- Two entries that rank alike are equal, and so every way to sort gives the same list. -/
theorem eq_sorted {sorted entries : List (Nat × String)} (hp : sorted.Perm entries)
    (hs : sorted.Pairwise fun x y => closer x y) : sorted = entries.mergeSort closer := by
  have hordered : sorted.Pairwise fun x y => toLex x ≤ toLex y := hs.imp closer_iff.1
  refine List.Perm.eq_of_pairwise ?_ hordered (pairwise_sorted entries)
    (hp.trans (List.mergeSort_perm entries closer).symm)
  intro x y _ _ hxy hyx
  exact toLex.injective (le_antisymm hxy hyx)

theorem suggestions_of_sorted {sorted : List (Nat × String)}
    (hp : sorted.Perm (scored key available)) (hs : sorted.Pairwise fun x y => closer x y) :
    suggestions key available = (sorted.eraseReps.take 3).map Prod.snd := by
  rw [suggestions, ranking, ← eq_sorted hp hs]

/-! ### Near names -/

/-- Another one of the names that the key is near enough to. -/
@[mk_iff]
structure Near (key : String) (available : List String) (name : String) : Prop where
  mem : name ∈ available
  ne : name ≠ key
  within : distance key.toList name.toList ≤ if key.length ≤ 3 then 1 else 2

instance (key : String) (available : List String) (name : String) :
    Decidable (Near key available name) :=
  decidable_of_iff _ (near_iff key available name).symm

/-- A lower rank is better. -/
def rank (key name : String) : Nat ×ₗ String :=
  toLex (distance key.toList name.toList, name)

/-- The names stand in the order of their ranks. -/
def Ranked (key : String) (names : List String) : Prop :=
  names.Pairwise fun name other => rank key name < rank key other

theorem rank_injective (key : String) : Function.Injective (rank key) := by
  intro name other h
  exact (Prod.mk.inj (toLex.injective h)).2

theorem mem_scored : entry ∈ scored key available ↔
    Near key available entry.2 ∧ toLex entry = rank key entry.2 := by
  obtain ⟨n, name⟩ := entry
  simp only [scored, List.mem_filter, List.mem_map, decide_eq_true_eq, Prod.mk.injEq, rank]
  constructor
  · rintro ⟨⟨other, ⟨hm, hne⟩, rfl, rfl⟩, hn⟩
    exact ⟨⟨hm, hne, hn⟩, rfl⟩
  · rintro ⟨⟨hm, hne, hn⟩, he⟩
    obtain ⟨rfl, -⟩ := Prod.mk.inj (toLex.injective he)
    exact ⟨⟨name, ⟨hm, hne⟩, rfl, rfl⟩, hn⟩

theorem ranking_eq_dedup (key : String) (available : List String) :
    ranking key available = ((scored key available).mergeSort closer).dedup := by
  have hanti : Std.Antisymm fun x y : Nat × String => toLex x ≤ toLex y :=
    ⟨fun x y hxy hyx => toLex.injective (le_antisymm hxy hyx)⟩
  exact eraseReps_eq_dedup (pairwise_sorted (scored key available))

/-- The near names, the best first. -/
def nearest (key : String) (available : List String) : List String :=
  (ranking key available).map Prod.snd

theorem mem_nearest : name ∈ nearest key available ↔ Near key available name := by
  simp only [nearest, ranking_eq_dedup, List.mem_map, List.mem_dedup, List.mem_mergeSort,
    mem_scored]
  constructor
  · rintro ⟨entry, ⟨hnear, -⟩, rfl⟩
    exact hnear
  · intro h
    exact ⟨(distance key.toList name.toList, name), ⟨h, rfl⟩, rfl⟩

theorem ranked_nearest (key : String) (available : List String) :
    Ranked key (nearest key available) := by
  have hle : (ranking key available).Pairwise fun x y => toLex x ≤ toLex y := by
    rw [ranking_eq_dedup]
    exact (pairwise_sorted _).sublist (List.dedup_sublist _)
  have hne : (ranking key available).Nodup := by
    rw [ranking_eq_dedup]
    exact List.nodup_dedup _
  have hrank : ∀ entry ∈ ranking key available, toLex entry = rank key entry.2 := by
    intro entry he
    rw [ranking_eq_dedup, List.mem_dedup, List.mem_mergeSort] at he
    exact (mem_scored.1 he).2
  rw [Ranked, nearest, List.pairwise_map]
  refine (hle.and hne).imp_of_mem ?_
  intro x y hx hy h
  rw [← hrank x hx, ← hrank y hy]
  exact lt_of_le_of_ne h.1 fun he => h.2 (toLex.injective he)

theorem Ranked.nodup (h : Ranked key names) : names.Nodup :=
  h.imp fun hlt he => hlt.ne (congrArg (rank key) he)

/-- Names in the order of their ranks are known by which they are. -/
theorem Ranked.eq_of_mem_iff (h : Ranked key names) (h' : Ranked key others)
    (hm : ∀ name, name ∈ names ↔ name ∈ others) : names = others := by
  have hperm : names.Perm others := (List.perm_ext_iff_of_nodup h.nodup h'.nodup).2 hm
  refine List.Perm.eq_of_pairwise ?_ h h' hperm
  intro name other _ _ hlt hgt
  exact absurd hgt hlt.asymm

/-! ### The best of them -/

/-- No more than three near names in the order of their ranks. Those that are left out are no
better than any of these, and there are none unless these are three. -/
structure Best (key : String) (available names : List String) : Prop where
  length : names.length ≤ 3
  distinct : names.Nodup
  near : ∀ name ∈ names, Near key available name
  ordered : names.Pairwise fun name other => rank key name ≤ rank key other
  rest : ∀ other, Near key available other → other ∉ names →
    names.length = 3 ∧ ∀ name ∈ names, rank key name ≤ rank key other

/-- It is enough to look at what is available. -/
theorem best_iff_forall_available : Best key available names ↔
    names.length ≤ 3 ∧ names.Nodup ∧ (∀ name ∈ names, Near key available name) ∧
    (names.Pairwise fun name other => rank key name ≤ rank key other) ∧
    ∀ other ∈ available, Near key available other → other ∉ names →
      names.length = 3 ∧ ∀ name ∈ names, rank key name ≤ rank key other := by
  constructor
  · intro h
    exact ⟨h.length, h.distinct, h.near, h.ordered, fun other _ => h.rest other⟩
  · rintro ⟨hl, hd, hn, ho, hr⟩
    exact ⟨hl, hd, hn, ho, fun other hnear => hr other hnear.mem hnear⟩

instance (key : String) (available names : List String) : Decidable (Best key available names) :=
  decidable_of_iff _ best_iff_forall_available.symm

theorem suggestions_eq_take (key : String) (available : List String) :
    suggestions key available = (nearest key available).take 3 := List.map_take

theorem best_suggestions (key : String) (available : List String) :
    Best key available (suggestions key available) := by
  have hsub : List.Sublist (suggestions key available) (nearest key available) := by
    rw [suggestions_eq_take]
    exact List.take_sublist 3 _
  refine ⟨?_, ?_, ?_, ?_, ?_⟩
  · rw [suggestions_eq_take]
    exact List.length_take_le 3 _
  · exact (ranked_nearest key available).nodup.sublist hsub
  · intro name hm
    exact mem_nearest.1 (hsub.mem hm)
  · exact ((ranked_nearest key available).sublist hsub).imp le_of_lt
  · intro other hnear hn
    -- It stands behind the cut, and so there are three names in front of it.
    have hall := List.take_append_drop 3 (nearest key available)
    rw [← suggestions_eq_take] at hall
    have hranked := ranked_nearest key available
    rw [Ranked, ← hall, List.pairwise_append] at hranked
    have hdrop : other ∈ (nearest key available).drop 3 := by
      have hm := mem_nearest.2 hnear
      rw [← hall] at hm
      exact (List.mem_append.1 hm).resolve_left hn
    have hlength := List.length_pos_of_mem hdrop
    rw [List.length_drop] at hlength
    refine ⟨?_, ?_⟩
    · rw [suggestions_eq_take, List.length_take]
      omega
    · intro name hm
      exact (hranked.2.2 name hm other hdrop).le

namespace Best

theorem ranked (h : Best key available names) : Ranked key names :=
  (h.ordered.and h.distinct).imp fun hno => lt_of_le_of_ne hno.1 ((rank_injective key).ne hno.2)

/-- The best of the near names are where their list begins. -/
theorem append_rest (h : Best key available names) :
    names ++ (nearest key available).filter (· ∉ names) = nearest key available := by
  have hrest {other : String} : other ∈ (nearest key available).filter (· ∉ names) ↔
      Near key available other ∧ other ∉ names := by
    rw [List.mem_filter, mem_nearest, decide_eq_true_eq]
  have hranked : Ranked key (names ++ (nearest key available).filter (· ∉ names)) := by
    rw [Ranked, List.pairwise_append]
    refine ⟨h.ranked, (ranked_nearest key available).filter _, ?_⟩
    intro name hm other ho
    obtain ⟨hnear, hn⟩ := hrest.1 ho
    have hne : rank key name ≠ rank key other := (rank_injective key).ne fun he => hn (he ▸ hm)
    exact lt_of_le_of_ne ((h.rest other hnear hn).2 name hm) hne
  apply hranked.eq_of_mem_iff (ranked_nearest key available)
  intro name
  rw [List.mem_append, hrest, mem_nearest]
  constructor
  · rintro (hm | ⟨hnear, -⟩)
    · exact h.near name hm
    · exact hnear
  · intro hnear
    by_cases hm : name ∈ names
    · exact .inl hm
    · exact .inr ⟨hnear, hm⟩

theorem eq_suggestions (h : Best key available names) : suggestions key available = names := by
  rw [suggestions_eq_take, ← h.append_rest]
  cases hrest : (nearest key available).filter (· ∉ names) with
  | nil =>
    rw [List.append_nil]
    exact List.take_of_length_le h.length
  | cons other more =>
    -- Some near name is left out, and so the cut falls just behind the best.
    have hm : other ∈ (nearest key available).filter (· ∉ names) := by
      rw [hrest]
      exact List.mem_cons_self
    rw [List.mem_filter, mem_nearest, decide_eq_true_eq] at hm
    exact List.take_left' (h.rest other hm.1 hm.2).1

end Best

theorem Near.congr (hm : ∀ name, name ∈ others ↔ name ∈ available) :
    Near key others name ↔ Near key available name := by
  rw [near_iff, near_iff, hm]

/-- What is suggested depends on nothing but which names there are. -/
theorem suggestions_congr (hm : ∀ name, name ∈ others ↔ name ∈ available) :
    suggestions key others = suggestions key available := by
  have h := best_suggestions key available
  apply Best.eq_suggestions
  refine ⟨h.length, h.distinct, ?_, h.ordered, ?_⟩
  · intro name hn
    exact (Near.congr hm).2 (h.near name hn)
  · intro other hnear
    exact h.rest other ((Near.congr hm).1 hnear)

/-- The names that are suggested are the best ones and no others are, for all lists of the same
names; and the distance that ranks them is the least number of edits. -/
theorem suggestions_canonical (key : String) (available : List String) :
    (∀ names, suggestions key available = names ↔ Best key available names) ∧
    (∀ others : List String, (∀ name, name ∈ others ↔ name ∈ available) →
      suggestions key others = suggestions key available) ∧
    ∀ name : String,
      IsLeast {n | Edits n key.toList name.toList} (distance key.toList name.toList) := by
  refine ⟨?_, fun others hm => suggestions_congr hm, fun name => isLeast_distance _ _⟩
  intro names
  constructor
  · rintro rfl
    exact best_suggestions key available
  · intro h
    exact h.eq_suggestions

/-- Of four near names the last by rank is left out, although it comes first, and neither the key
itself nor a name that is too far away comes in. -/
theorem suggestions_canonical_cards :
    suggestions "cardz" ["cart", "cards", "dragon", "card", "cardz", "cards", "care"] =
      ["card", "cards", "care"] ∧
    suggestions "cardz" ["care", "card", "dragon", "cardz", "cart", "cards"] =
      ["card", "cards", "care"] ∧
    IsLeast {n | Edits n "cardz".toList "cart".toList} 2 := by
  have hbest : Best "cardz" ["cart", "cards", "dragon", "card", "cardz", "cards", "care"]
      ["card", "cards", "care"] := by decide
  have hdistance : distance "cardz".toList "cart".toList = 2 := by decide
  obtain ⟨best, same, least⟩ := suggestions_canonical "cardz"
    ["cart", "cards", "dragon", "card", "cardz", "cards", "care"]
  have hlisted := (best _).2 hbest
  refine ⟨hlisted, ?_, hdistance ▸ least "cart"⟩
  rw [← hlisted]
  apply same
  intro name
  simp only [List.mem_cons, List.not_mem_nil]
  tauto

end Phrasebook.Text

namespace Phrasebook

open Text

/-! ### The errors of a check -/

variable {definitions : List Definition} {transforms others : List String}

theorem Definition.check_congr (hm : ∀ name, name ∈ others ↔ name ∈ transforms)
    (arities : Dictionary Nat) (d : Definition) :
    d.check ⟨arities, others⟩ = d.check ⟨arities, transforms⟩ := by
  have htransform : d.checkTransform ⟨arities, others⟩ =
      d.checkTransform ⟨arities, transforms⟩ := by
    funext call
    simp only [checkTransform, hm, suggestions_congr hm]
  have hhole : d.checkInterpolation ⟨arities, others⟩ =
      d.checkInterpolation ⟨arities, transforms⟩ := by
    funext hole
    rw [checkInterpolation, checkInterpolation, htransform]
    rfl
  rw [check, check, hhole]

/-- The errors of a check, with all that they suggest, do not show how the transforms are listed. -/
theorem checkAll_congr (hm : ∀ name, name ∈ others ↔ name ∈ transforms) :
    checkAll definitions others = checkAll definitions transforms := by
  simp only [checkAll, Definition.check_congr hm]

end Phrasebook
