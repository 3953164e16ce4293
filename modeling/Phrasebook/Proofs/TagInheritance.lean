import Phrasebook.Proofs.Inheritance

/-!
Tags handed down from phrase to phrase. A set of tags overrides another one, and overriding is
associative, so that a chain of phrases that inherit has the tags of its parts however the parts are
put together.
-/

namespace Phrasebook

namespace TagSet

theorem eq_of_tags {s t : TagSet} (h : s.tags = t.tags) : s = t := by
  cases s
  cases t
  cases h
  rfl

/-- Tags that are not there, and stand once each, all go behind the others. -/
theorem tags_insertAll {s : TagSet} {tags : List String} (hn : (s.tags ++ tags).Nodup) :
    (s.insertAll tags).tags = s.tags ++ tags := by
  induction tags generalizing s with
  | nil => exact (List.append_nil s.tags).symm
  | cons tag rest ih =>
    have hfresh : tag ∉ s.tags := fun hm =>
      (List.nodup_append.1 hn).2.2 tag hm tag List.mem_cons_self rfl
    have htags : (s.insert tag).tags = s.tags ++ [tag] := by
      rw [tags_insert, if_neg hfresh]
    have hrest : s.tags ++ tag :: rest = (s.insert tag).tags ++ rest := by
      rw [htags, List.append_assoc, List.singleton_append]
    rw [hrest] at hn ⊢
    exact ih hn

end TagSet

namespace TagGroups

variable {g : TagGroups} {own inherited : TagSet} {tag : String}

/-- No tag of the set has the key of this one. -/
def Leaves (g : TagGroups) (own : TagSet) (tag : String) : Prop :=
  ∀ other ∈ own.tags, g.keyOf other ≠ g.keyOf tag

instance (own : TagSet) (tag : String) : Decidable (g.Leaves own tag) :=
  inferInstanceAs (Decidable (∀ other ∈ own.tags, g.keyOf other ≠ g.keyOf tag))

theorem Leaves.not_mem (h : g.Leaves own tag) : tag ∉ own.tags :=
  fun hm => h tag hm rfl

/-- Behind the set's own tags stand the inherited ones whose key it leaves, in their order. -/
theorem tags_inherit (g : TagGroups) (own inherited : TagSet) :
    (g.inherit own inherited).tags = own.tags ++ inherited.tags.filter (g.Leaves own) := by
  have hfilter : (inherited.tags.filter fun tag =>
      ¬ own.tags.any fun other => g.keyOf other = g.keyOf tag) =
        inherited.tags.filter (g.Leaves own) := by
    refine List.filter_congr fun tag _ => decide_eq_decide.2 ?_
    simp [Leaves]
  have hn : (own.tags ++ inherited.tags.filter (g.Leaves own)).Nodup := by
    refine List.nodup_append.2 ⟨own.nodup, inherited.nodup.filter _, ?_⟩
    rintro tag hown _ hm rfl
    exact (of_decide_eq_true (List.mem_filter.1 hm).2).not_mem hown
  rw [inherit, hfilter, TagSet.tags_insertAll hn]

theorem mem_inherit :
    tag ∈ g.inherit own inherited ↔ tag ∈ own ∨ tag ∈ inherited ∧ g.Leaves own tag := by
  change tag ∈ (g.inherit own inherited).tags ↔ _
  rw [tags_inherit, List.mem_append, List.mem_filter, decide_eq_true_iff]
  rfl

/-- A key is left by what overrides something just when both leave it. -/
theorem leaves_inherit :
    g.Leaves (g.inherit own inherited) tag ↔ g.Leaves own tag ∧ g.Leaves inherited tag := by
  constructor
  · intro h
    have hown : g.Leaves own tag := fun other hm => h other (mem_inherit.2 (.inl hm))
    refine ⟨hown, fun other hm hk => ?_⟩
    -- Were the tag's key taken by an inherited tag, that tag would not be overridden.
    have hleft : g.Leaves own other := fun t ht => hk ▸ hown t ht
    exact h other (mem_inherit.2 (.inr ⟨hm, hleft⟩)) hk
  · rintro ⟨hown, hinherited⟩ other hm
    rcases mem_inherit.1 hm with hm | ⟨hm, -⟩
    · exact hown other hm
    · exact hinherited other hm

theorem inherit_assoc (g : TagGroups) (a b c : TagSet) :
    g.inherit a (g.inherit b c) = g.inherit (g.inherit a b) c := by
  have hc : c.tags.filter (g.Leaves (g.inherit a b)) =
      (c.tags.filter (g.Leaves b)).filter (g.Leaves a) := by
    rw [List.filter_filter]
    refine List.filter_congr fun tag _ => ?_
    rw [← Bool.decide_and]
    exact decide_eq_decide.2 leaves_inherit
  apply TagSet.eq_of_tags
  calc (g.inherit a (g.inherit b c)).tags
      = a.tags ++ (b.tags ++ c.tags.filter (g.Leaves b)).filter (g.Leaves a) := by
        rw [tags_inherit, tags_inherit]
    _ = a.tags ++ b.tags.filter (g.Leaves a) ++
          (c.tags.filter (g.Leaves b)).filter (g.Leaves a) := by
        rw [List.filter_append, List.append_assoc]
    _ = (g.inherit (g.inherit a b) c).tags := by
        rw [tags_inherit, hc, tags_inherit]

theorem empty_inherit (g : TagGroups) (a : TagSet) : g.inherit .empty a = a := by
  have hall : a.tags.filter (g.Leaves .empty) = a.tags :=
    List.filter_eq_self.2 fun tag _ => decide_eq_true (List.forall_mem_nil _)
  apply TagSet.eq_of_tags
  rw [tags_inherit, hall]
  rfl

theorem inherit_empty (g : TagGroups) (a : TagSet) : g.inherit a .empty = a :=
  rfl

/-! ### Chains -/

/-- Sets of tags that are put together two at a time, in some grouping. -/
inductive Grouping where
  | one (tags : TagSet)
  | both (own inherited : Grouping)

namespace Grouping

/-- The sets that are put together, in their order. -/
def parts : Grouping → List TagSet
  | one tags => [tags]
  | both own inherited => own.parts ++ inherited.parts

def total (g : TagGroups) : Grouping → TagSet
  | one tags => tags
  | both own inherited => g.inherit (own.total g) (inherited.total g)

end Grouping

/-- Each set overrides all those behind it. -/
def inheritAll (g : TagGroups) (sets : List TagSet) : TagSet :=
  sets.foldr g.inherit .empty

theorem inheritAll_append (g : TagGroups) (front behind : List TagSet) :
    g.inheritAll (front ++ behind) = g.inherit (g.inheritAll front) (g.inheritAll behind) := by
  induction front with
  | nil => exact (g.empty_inherit _).symm
  | cons tags rest ih =>
    change g.inherit tags (g.inheritAll (rest ++ behind)) =
      g.inherit (g.inherit tags (g.inheritAll rest)) _
    rw [ih, inherit_assoc]

theorem Grouping.total_eq (g : TagGroups) (t : Grouping) : t.total g = g.inheritAll t.parts := by
  induction t with
  | one tags => exact (g.inherit_empty tags).symm
  | both own inherited ihOwn ihInherited =>
    rw [total, parts, inheritAll_append, ihOwn, ihInherited]

end TagGroups

namespace Locale

variable {l : Locale}

/-- Phrases that are called one on the other's result: the last one on `p`, and each takes what the
one behind it gives as the value of the parameter that it inherits from. -/
inductive Chain (l : Locale) (p : Phrase) : List Definition → Phrase → Prop where
  | nil : Chain l p [] p
  | cons {d : Definition} {rest : List Definition} {inner result : Phrase} {name parameter : String}
    {arguments : List Value} (hrest : Chain l p rest inner) (hd : l.phrases.get? name = some d)
    (hi : d.inherits = some parameter)
    (hv : (Bindings.ofArguments d.parameters arguments).value parameter = .ok (.phrase inner))
    (hr : l.call name arguments = .ok result) : Chain l p (d :: rest) result

/-- A phrase that inherits has its own tags over those of the phrase it inherits from. -/
theorem tags_of_inheriting {name parameter : String} {d : Definition} {arguments : List Value}
    {inner result : Phrase} (hd : l.phrases.get? name = some d) (hi : d.inherits = some parameter)
    (hv : (Bindings.ofArguments d.parameters arguments).value parameter = .ok (.phrase inner))
    (hr : l.call name arguments = .ok result) :
    result.tags = l.conventions.groups.inherit (.ofList d.tags) inner.tags := by
  obtain ⟨d', call, hd', hr⟩ := exists_definition_of_call hr
  obtain rfl := Option.some.inj (hd.symm.trans hd')
  obtain ⟨inherited, hs, -, ht⟩ := Rendering.definition_eq_ok.1 hr
  rw [Rendering.source_of_inherits hi hv] at hs
  cases hs
  exact ht

theorem tags_of_chain {p result : Phrase} {definitions : List Definition}
    (h : l.Chain p definitions result) :
    result.tags = l.conventions.groups.inheritAll
      (definitions.map (fun d => .ofList d.tags) ++ [p.tags]) := by
  induction h with
  | nil => rfl
  | cons _ hd hi hv hr ih =>
    rw [tags_of_inheriting hd hi hv hr, ih]
    rfl

end Locale

namespace TagGroups

/-- Overriding makes the sets of tags a monoid, and in a chain of phrases that inherit it does not
matter how the tags are grouped. -/
theorem inherit_monoid (g : TagGroups) (a b c : TagSet) :
    g.inherit a (g.inherit b c) = g.inherit (g.inherit a b) c ∧
    g.inherit .empty a = a ∧
    g.inherit a .empty = a ∧
    (∃ rest, (g.inherit a b).tags = a.tags ++ rest ∧ rest.Sublist b.tags ∧
      (a.tags ++ rest).Nodup ∧
      ∀ tag, tag ∈ rest ↔ tag ∈ b ∧ ∀ own ∈ a.tags, g.keyOf own ≠ g.keyOf tag) ∧
    ∀ (l : Locale) (p result : Phrase) (definitions : List Definition),
      l.Chain p definitions result → ∀ t : Grouping,
        t.parts = definitions.map (fun d => TagSet.ofList d.tags) ++ [p.tags] →
          result.tags = t.total l.conventions.groups := by
  refine ⟨g.inherit_assoc a b c, g.empty_inherit a, g.inherit_empty a, ?_, ?_⟩
  · refine ⟨b.tags.filter (g.Leaves a), tags_inherit g a b, List.filter_sublist, ?_, fun tag => ?_⟩
    · rw [← tags_inherit]
      exact (g.inherit a b).nodup
    · rw [List.mem_filter, decide_eq_true_iff]
      rfl
  · intro l p result definitions hc t ht
    rw [Locale.tags_of_chain hc, Grouping.total_eq, ht]

/-- Two phrases that inherit, with a tag each. -/
def enemies : Blueprint where
  language := "es"
  source := "enemy($s) = :fem :from($s);\nangry($s) = :vowel :from($s) \"angry \x7b$s\x7d\";"

def enemy : Definition where
  name := "enemy"
  parameters := ["s"]
  tags := ["fem"]
  inherits := some "s"
  selectors := []
  body := .template ⟨[.interpolation ⟨none, .parameter "s", []⟩]⟩
  bodyless := true
  position := ⟨1, 1⟩

def angry : Definition where
  name := "angry"
  parameters := ["s"]
  tags := ["vowel"]
  inherits := some "s"
  selectors := []
  body := .template ⟨[.literal "angry ", .interpolation ⟨none, .parameter "s", []⟩]⟩
  bodyless := false
  position := ⟨2, 1⟩

def ally : Phrase :=
  ⟨"ally", .empty, .ofList ["masc", "anim"]⟩

theorem inherit_monoid_enemies : ∃ l result, enemies.build = .ok l ∧
    l.Chain ally [enemy, angry] result ∧ result.tags.tags = ["fem", "vowel", "anim"] ∧
    result.tags = (Grouping.both (.both (.one (.ofList ["fem"])) (.one (.ofList ["vowel"])))
      (.one ally.tags)).total l.conventions.groups := by
  have h : ∃ l, enemies.build = .ok l ∧ decide (l.phrases.get? "enemy" = some enemy ∧
      l.phrases.get? "angry" = some angry ∧
      l.call "angry" [.phrase ally] =
        .ok ⟨"angry ally", .empty, .ofList ["vowel", "masc", "anim"]⟩ ∧
      l.call "enemy" [.phrase ⟨"angry ally", .empty, .ofList ["vowel", "masc", "anim"]⟩] =
        .ok ⟨"angry ally", .empty, .ofList ["fem", "vowel", "anim"]⟩) :=
    Locale.exists_of_build (by decide +kernel)
  obtain ⟨l, hl, ht⟩ := h
  obtain ⟨hd, hd', hr', hr⟩ := of_decide_eq_true ht
  have hc : l.Chain ally [enemy, angry] _ := .cons (.cons .nil hd' rfl rfl hr') hd rfl rfl hr
  exact ⟨l, _, hl, hc, by decide,
    (inherit_monoid l.conventions.groups .empty .empty .empty).2.2.2.2 l ally _ _ hc _ rfl⟩

end TagGroups

end Phrasebook
