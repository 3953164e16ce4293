import Phrasebook.Proofs.TagInheritance

/-!
Which inherited tags a phrase drops. Tags of one grammatical dimension displace each other, but the
dimensions are told apart by their names, and a tag that has the name of a dimension displaces the
tags of it as well.
-/

namespace Phrasebook

namespace TagGroups

variable {g : TagGroups} {group : TagGroup} {tag other : String} {own inherited : TagSet}

/-- A group is known by its name and by each of its tags, and no tag of a group is the name of
one. -/
structure Apart (g : TagGroups) : Prop where
  eq_of_name : ∀ group ∈ g.groups, ∀ other ∈ g.groups, group.name = other.name → group = other
  eq_of_mem : ∀ group ∈ g.groups, ∀ other ∈ g.groups, ∀ tag ∈ group.members,
    tag ∈ other.members → group = other
  nameless : ∀ group ∈ g.groups, ∀ other ∈ g.groups, group.name ∉ other.members

theorem apart_of_mem_table {entry : String × List TagGroup} (h : entry ∈ table) :
    Apart ⟨entry.2⟩ := by
  have hnames : ∀ entry ∈ table, ∀ group ∈ entry.2, ∀ other ∈ entry.2,
      group.name = other.name → group = other := by decide
  have hmembers : ∀ entry ∈ table, ∀ group ∈ entry.2, ∀ other ∈ entry.2, ∀ tag ∈ group.members,
      tag ∈ other.members → group = other := by decide
  have hnameless : ∀ entry ∈ table, ∀ group ∈ entry.2, ∀ other ∈ entry.2,
      group.name ∉ other.members := by decide
  exact ⟨hnames entry h, hmembers entry h, hnameless entry h⟩

theorem apart_forLanguage (language : String) : (forLanguage language).Apart := by
  rcases mem_table_of_groups language with h | h
  · exact ⟨h ▸ List.forall_mem_nil _, h ▸ List.forall_mem_nil _, h ▸ List.forall_mem_nil _⟩
  · exact apart_of_mem_table h

/-- A tag has the name of a group of its own as its key, or else itself. -/
theorem keyOf_cases (g : TagGroups) (tag : String) :
    (∃ group ∈ g.groups, tag ∈ group.members ∧ g.keyOf tag = group.name) ∨
      (∀ group ∈ g.groups, tag ∉ group.members) ∧ g.keyOf tag = tag := by
  cases hf : g.groups.find? fun group => group.members.contains tag with
  | none =>
    refine .inr ⟨fun group hg hm => ?_, by rw [keyOf, hf]⟩
    exact List.find?_eq_none.1 hf group hg (List.contains_iff_mem.2 hm)
  | some group =>
    have hm : group.members.contains tag := by simpa using List.find?_some hf
    exact .inl ⟨group, List.mem_of_find?_eq_some hf, List.contains_iff_mem.1 hm, by rw [keyOf, hf]⟩

namespace Apart

variable (h : g.Apart)
include h

theorem keyOf_of_mem (hg : group ∈ g.groups) (hm : tag ∈ group.members) :
    g.keyOf tag = group.name := by
  rcases g.keyOf_cases tag with ⟨group', hg', hm', hk⟩ | ⟨hn, -⟩
  · rw [hk, h.eq_of_mem group hg group' hg' tag hm hm']
  · exact absurd hm (hn group hg)

/-- The name of a group is a tag like any other, and in no group. -/
theorem keyOf_name (hg : group ∈ g.groups) : g.keyOf group.name = group.name := by
  rcases g.keyOf_cases group.name with ⟨group', hg', hm, -⟩ | ⟨-, hk⟩
  · exact absurd hm (h.nameless group hg group' hg')
  · exact hk

end Apart

/-- Some group has both tags. -/
def Share (g : TagGroups) (tag other : String) : Prop :=
  ∃ group ∈ g.groups, tag ∈ group.members ∧ other ∈ group.members

/-- The one tag is spelled like the name of the other one's group. -/
def Names (g : TagGroups) (tag other : String) : Prop :=
  ∃ group ∈ g.groups, tag = group.name ∧ other ∈ group.members

instance (tag other : String) : Decidable (g.Share tag other) :=
  inferInstanceAs (Decidable (∃ group ∈ g.groups, tag ∈ group.members ∧ other ∈ group.members))

theorem Apart.keyOf_eq_iff (h : g.Apart) : g.keyOf tag = g.keyOf other ↔
    tag = other ∨ g.Share tag other ∨ g.Names tag other ∨ g.Names other tag := by
  constructor
  · intro hk
    rcases g.keyOf_cases tag with ⟨group, hg, hm, ht⟩ | ⟨-, ht⟩ <;>
      rcases g.keyOf_cases other with ⟨group', hg', hm', ho⟩ | ⟨-, ho⟩ <;> rw [ht, ho] at hk
    · obtain rfl := h.eq_of_name group hg group' hg' hk
      exact .inr (.inl ⟨group, hg, hm, hm'⟩)
    · exact .inr (.inr (.inr ⟨group, hg, hk.symm, hm⟩))
    · exact .inr (.inr (.inl ⟨group', hg', hk, hm'⟩))
    · exact .inl hk
  · rintro (rfl | ⟨group, hg, hm, hm'⟩ | ⟨group, hg, rfl, hm⟩ | ⟨group, hg, rfl, hm⟩)
    · rfl
    · rw [h.keyOf_of_mem hg hm, h.keyOf_of_mem hg hm']
    · rw [h.keyOf_name hg, h.keyOf_of_mem hg hm]
    · rw [h.keyOf_name hg, h.keyOf_of_mem hg hm]

/-- An inherited tag is dropped just when it is no own tag and an own tag is of its group, or one of
the two is spelled like the name of the other one's group. -/
theorem dropped_iff (language : String) (ht : tag ∈ inherited) :
    tag ∉ (forLanguage language).inherit own inherited ↔
      tag ∉ own ∧ ∃ other ∈ own, (forLanguage language).Share other tag ∨
        (forLanguage language).Names other tag ∨ (forLanguage language).Names tag other := by
  have hapart := apart_forLanguage language
  rw [mem_inherit, not_or]
  refine and_congr_right fun hown => ?_
  constructor
  · intro hd
    have hl : ¬ (forLanguage language).Leaves own tag := fun hl => hd ⟨ht, hl⟩
    simp only [Leaves, not_forall, not_not] at hl
    obtain ⟨other, ho, hk⟩ := hl
    exact ⟨other, ho, (hapart.keyOf_eq_iff.1 hk).resolve_left fun he => hown (he ▸ ho)⟩
  · rintro ⟨other, ho, hs⟩ ⟨-, hl⟩
    exact hl other ho (hapart.keyOf_eq_iff.2 (.inr hs))

theorem dropped_iff_gender : "masc" ∈ TagSet.ofList ["masc", "anim"] ∧
    ("masc" ∉ (forLanguage "es").inherit (.ofList ["gender"]) (.ofList ["masc", "anim"]) ↔
      "masc" ∉ TagSet.ofList ["gender"] ∧ ∃ other ∈ TagSet.ofList ["gender"],
        (forLanguage "es").Share other "masc" ∨ (forLanguage "es").Names other "masc" ∨
          (forLanguage "es").Names "masc" other) :=
  ⟨by decide, dropped_iff "es" (by decide)⟩

/-- Tags of no common group may displace each other: a tag `gender` takes the Spanish genders
away. -/
theorem not_dropped_iff_share : ¬ ∀ (language : String) (own inherited : TagSet) (tag : String),
    tag ∈ inherited → (tag ∉ (forLanguage language).inherit own inherited ↔
      tag ∉ own ∧ ∃ other ∈ own, (forLanguage language).Share other tag) := by
  intro only
  have hdropped : "masc" ∉ (forLanguage "es").inherit (.ofList ["gender"]) (.ofList ["masc"]) := by
    decide
  obtain ⟨-, other, hown, hshare⟩ := (only "es" _ _ "masc" (by decide)).1 hdropped
  obtain rfl : other = "gender" := List.mem_singleton.1 hown
  exact absurd hshare (by decide)

end TagGroups

end Phrasebook
