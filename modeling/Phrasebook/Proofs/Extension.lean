import Mathlib.Data.List.Nodup
import Phrasebook.Proofs.Settings

/-!
Sources with more definitions, or with the same ones in another order. A phrase that a source
defines renders as it did, because it reads only the definitions it refers to; and neither the check
nor the store sees the order of the definitions or where they stand.
-/

namespace Phrasebook

namespace Dictionary

variable {α : Type}

theorem eq_of_entries {d d' : Dictionary α} (h : d.entries = d'.entries) : d = d' := by
  cases d
  cases d'
  cases h
  rfl

/-- A dictionary is known by what is found in it. -/
theorem ext_get? {d d' : Dictionary α} (h : ∀ key, d.get? key = d'.get? key) : d = d' := by
  have nodup (d : Dictionary α) : d.entries.Nodup := List.Nodup.of_map Prod.fst (nodup_keys d)
  have hmem (entry : String × α) : entry ∈ d.entries ↔ entry ∈ d'.entries := by
    rw [mem_entries, mem_entries, h]
  refine eq_of_entries (List.Perm.eq_of_pairwise ?_ (List.pairwise_map.1 d.ordered)
    (List.pairwise_map.1 d'.ordered) ((List.perm_ext_iff_of_nodup (nodup d) (nodup d')).2 hmem))
  intro entry entry' _ _ hlt hgt
  exact absurd (String.lt_trans hlt hgt) (String.lt_irrefl _)

theorem get?_ofList_iff {entries : List (String × α)} (hn : (entries.map Prod.fst).Nodup)
    {key : String} {value : α} :
    (ofList entries).get? key = some value ↔ (key, value) ∈ entries := by
  refine ⟨mem_of_get?_ofList, fun hm => ?_⟩
  have hc : (ofList entries).contains key :=
    contains_ofList.2 (List.mem_map.2 ⟨(key, value), hm, rfl⟩)
  obtain ⟨held, hheld⟩ := Option.isSome_iff_exists.1 hc
  have he := List.inj_on_of_nodup_map hn (mem_of_get?_ofList hheld) hm rfl
  cases he
  exact hheld

theorem ofList_of_perm {entries entries' : List (String × α)}
    (hn : (entries.map Prod.fst).Nodup) (h : entries.Perm entries') :
    ofList entries = ofList entries' := by
  refine ext_get? fun key => Option.ext fun value => ?_
  rw [get?_ofList_iff hn, get?_ofList_iff ((h.map Prod.fst).nodup_iff.1 hn), h.mem_iff]

end Dictionary

namespace Definition

/-- The definition without the place it stands at. -/
def placeless (d : Definition) : Definition :=
  { d with position := .start }

theorem duplicates_eq_nil {seen : List String} {definitions : List Definition} :
    duplicates seen definitions = [] ↔
      (definitions.map name).Nodup ∧ ∀ d ∈ definitions, d.name ∉ seen := by
  induction definitions generalizing seen with
  | nil => simp [duplicates]
  | cons d rest ih =>
    rw [duplicates, List.append_eq_nil_iff, ih, List.map_cons, List.nodup_cons,
      List.forall_mem_cons]
    have hfirst : (if d.name ∈ seen then [DefinitionError.duplicatePhrase d.name] else []) = [] ↔
        d.name ∉ seen := by
      split <;> simp_all
    have hrest : (∀ d' ∈ rest, d'.name ∉ d.name :: seen) ↔
        d.name ∉ rest.map name ∧ ∀ d' ∈ rest, d'.name ∉ seen := by
      simp only [List.mem_cons, not_or, List.mem_map, not_exists, not_and]
      exact forall₂_and
    rw [hfirst, hrest]
    tauto

variable {definitions definitions' : List Definition} {transforms : List String}

theorem arities_of_perm (hn : (definitions.map name).Nodup) (h : definitions.Perm definitions') :
    arities definitions = arities definitions' :=
  Dictionary.ofList_of_perm (by rwa [List.map_map]) (h.map _)

theorem graph_of_perm (hn : (definitions.map name).Nodup) (h : definitions.Perm definitions') :
    graph definitions = graph definitions' :=
  Dictionary.ofList_of_perm (by rwa [List.map_map]) (h.map _)

theorem nodup_of_checkAll (h : checkAll definitions transforms = []) :
    (definitions.map name).Nodup := by
  simp only [checkAll, List.append_eq_nil_iff] at h
  exact (duplicates_eq_nil.1 h.1.1).1

/-- The check does not see the order of the definitions. -/
theorem checkAll_of_perm (hp : definitions.Perm definitions')
    (h : checkAll definitions transforms = []) : checkAll definitions' transforms = [] := by
  have hn := nodup_of_checkAll h
  simp only [checkAll, List.append_eq_nil_iff, List.flatMap_eq_nil_iff] at h ⊢
  obtain ⟨⟨-, hall⟩, hcycle⟩ := h
  refine ⟨⟨?_, ?_⟩, ?_⟩
  · exact duplicates_eq_nil.2 ⟨(hp.map name).nodup_iff.1 hn, by simp⟩
  · intro d hd
    rw [← arities_of_perm hn hp]
    exact hall d (hp.mem_iff.2 hd)
  · rw [findCycle, ← graph_of_perm hn hp]
    exact hcycle

/-- Nor does it see where they stand. -/
theorem checkAll_placeless (definitions : List Definition) (transforms : List String) :
    checkAll (definitions.map placeless) transforms = checkAll definitions transforms := by
  have hdup (seen : List String) :
      duplicates seen (definitions.map placeless) = duplicates seen definitions := by
    induction definitions generalizing seen with
    | nil => rfl
    | cons d rest ih =>
      rw [List.map_cons, duplicates, duplicates, ih]
      rfl
  have harities : arities (definitions.map placeless) = arities definitions := by
    rw [arities, List.map_map]
    rfl
  have hgraph : graph (definitions.map placeless) = graph definitions := by
    rw [graph, List.map_map]
    rfl
  have hcheck (s : Surroundings) :
      (definitions.map placeless).flatMap (·.check s) = definitions.flatMap (·.check s) := by
    rw [List.flatMap_map]
    rfl
  simp only [checkAll, hdup, harities, hcheck, findCycle, hgraph]

end Definition

/-! ### The store -/

namespace Store

theorem names_insert {s after : Store} {d : Definition} (h : s.insert d = .ok after) :
    after.names = (nameHash d.name, d.name) :: s.names.filter (·.1 ≠ nameHash d.name) := by
  unfold insert at h
  grind

theorem nameOf?_insert {s after : Store} {d : Definition} (h : s.insert d = .ok after)
    (hash : UInt64) : after.nameOf? hash =
      if hash = nameHash d.name then some d.name else s.nameOf? hash := by
  have hother (hne : hash ≠ nameHash d.name) :
      (s.names.filter (·.1 ≠ nameHash d.name)).lookup hash = s.names.lookup hash := by
    generalize s.names = names
    induction names with
    | nil => rfl
    | cons entry rest ih => grind
  rw [nameOf?, names_insert h, List.lookup_cons]
  by_cases hh : hash = nameHash d.name
  · simp [hh]
  · rw [if_neg hh, beq_eq_false_iff_ne.2 hh, hother hh, nameOf?]

/-- A definition goes into a store unless another name there has its hash. -/
theorem exists_insert_iff {s : Store} {d : Definition} :
    (∃ after, s.insert d = .ok after) ↔
      ∀ first, s.nameOf? (nameHash d.name) = some first → first = d.name := by
  unfold insert
  dsimp only
  cases s.nameOf? (nameHash d.name) with
  | none => simp
  | some first => by_cases h : first = d.name <;> simp [h]

/-- Only the name that went in is held against others from then on. -/
theorem agrees_insert_iff {s after : Store} {d : Definition} (h : s.insert d = .ok after)
    {name : String} :
    (∀ first, after.nameOf? (nameHash name) = some first → first = name) ↔
      (∀ first, s.nameOf? (nameHash name) = some first → first = name) ∧
        (nameHash d.name = nameHash name → d.name = name) := by
  rw [nameOf?_insert h]
  by_cases hh : nameHash name = nameHash d.name
  · have hheld := exists_insert_iff.1 ⟨after, h⟩
    rw [if_pos hh, hh]
    constructor
    · intro hafter
      have hname := hafter d.name rfl
      exact ⟨fun first hf => (hheld first hf).trans hname, fun _ => hname⟩
    · rintro ⟨-, hname⟩ first hf
      cases hf
      exact hname rfl
  · rw [if_neg hh]
    exact ⟨fun hheld => ⟨hheld, fun hd => absurd hd.symm hh⟩, And.left⟩

/-- Whether definitions go into a store depends on the set of their names alone. -/
theorem exists_insertAll_iff {s : Store} {definitions : List Definition} :
    (∃ after, s.insertAll definitions = .ok after) ↔
      (∀ d ∈ definitions, ∀ first, s.nameOf? (nameHash d.name) = some first → first = d.name) ∧
      ∀ d ∈ definitions, ∀ d' ∈ definitions,
        nameHash d.name = nameHash d'.name → d.name = d'.name := by
  induction definitions generalizing s with
  | nil => exact ⟨fun _ => by simp, fun _ => ⟨s, rfl⟩⟩
  | cons d rest ih =>
    constructor
    · rintro ⟨after, h⟩
      rw [insertAll, List.foldlM_cons] at h
      obtain ⟨middle, hm, hr⟩ := bind_eq_ok.1 h
      obtain ⟨hs, hp⟩ := ih.1 ⟨after, hr⟩
      have hsplit (d' : Definition) (hd' : d' ∈ rest) := (agrees_insert_iff hm).1 (hs d' hd')
      refine ⟨List.forall_mem_cons.2 ⟨exists_insert_iff.1 ⟨middle, hm⟩, fun d' hd' =>
        (hsplit d' hd').1⟩, List.forall_mem_cons.2 ⟨?_, fun e he => ?_⟩⟩
      · exact List.forall_mem_cons.2 ⟨fun _ => rfl, fun e he => (hsplit e he).2⟩
      · exact List.forall_mem_cons.2 ⟨fun hh => ((hsplit e he).2 hh.symm).symm, hp e he⟩
    · rintro ⟨hs, hp⟩
      obtain ⟨hfirst, hs⟩ := List.forall_mem_cons.1 hs
      obtain ⟨middle, hm⟩ := exists_insert_iff.2 hfirst
      have hrest (d' : Definition) (hd' : d' ∈ rest) := (agrees_insert_iff hm).2
        ⟨hs d' hd', hp d List.mem_cons_self d' (List.mem_cons_of_mem _ hd')⟩
      obtain ⟨after, hr⟩ := ih.2 ⟨hrest, fun d hd d' hd' =>
        hp d (List.mem_cons_of_mem _ hd) d' (List.mem_cons_of_mem _ hd')⟩
      exact ⟨after, bind_eq_ok.2 ⟨middle, hm, hr⟩⟩

end Store

/-! ### Building -/

namespace Blueprint

/-- The blueprint of another source, in the same language and by the same rules. -/
def withSource (b : Blueprint) (source : String) : Blueprint :=
  { b with source }

variable {b : Blueprint} {source : String} {definitions definitions' : List Definition}

theorem exists_build_iff (hd : Definition.parseAll b.source = .ok definitions) :
    (∃ l, b.build = .ok l) ↔
      ∃ language, Language.parse? b.language = some language ∧
        checkAll definitions (b.registry language).names = [] ∧
        ∃ phrases, Store.empty.insertAll definitions = .ok phrases := by
  have hm : (Definition.parseAll b.source).mapError LoadError.parse = .ok definitions := by
    rw [hd]
    rfl
  unfold build
  cases hl : Language.parse? b.language with
  | none => simp [throw, throwThe, MonadExceptOf.throw, bind, Except.bind]
  | some language =>
    simp only [hm, bind, Except.bind, pure, Except.pure]
    cases hc : checkAll definitions (b.registry language).names with
    | nil => cases Store.empty.insertAll definitions <;> simp [hc]
    | cons e errors => simp [hc, throw, throwThe, MonadExceptOf.throw]

/-- Whether definitions can be built does not depend on their order and places. -/
theorem exists_build_of_perm (hd : Definition.parseAll b.source = .ok definitions)
    (hd' : Definition.parseAll source = .ok definitions')
    (hp : (definitions.map Definition.placeless).Perm (definitions'.map Definition.placeless))
    (h : ∃ l, b.build = .ok l) : ∃ l, (b.withSource source).build = .ok l := by
  obtain ⟨language, hl, hc, hs⟩ := (exists_build_iff hd).1 h
  refine (exists_build_iff (b := b.withSource source) hd').2 ⟨language, hl, ?_, ?_⟩
  · rw [← Definition.checkAll_placeless] at hc ⊢
    exact Definition.checkAll_of_perm hp hc
  · -- The names are the same, and so are their hashes.
    have hnames : ∀ name, name ∈ definitions'.map Definition.name ↔
        name ∈ definitions.map Definition.name := by
      intro name
      have := (hp.map Definition.name).mem_iff (a := name)
      simp only [List.map_map] at this
      exact this.symm
    obtain ⟨-, hpair⟩ := Store.exists_insertAll_iff.1 hs
    refine Store.exists_insertAll_iff.2 ⟨by simp [Store.nameOf?, Store.empty], ?_⟩
    intro d hd d' hd' hh
    obtain ⟨e, he, hen⟩ := List.mem_map.1 ((hnames _).1 (List.mem_map.2 ⟨d, hd, rfl⟩))
    obtain ⟨e', he', hen'⟩ := List.mem_map.1 ((hnames _).1 (List.mem_map.2 ⟨d', hd', rfl⟩))
    rw [← hen, ← hen'] at hh ⊢
    exact hpair e he e' he' hh

/-- Another source makes a locale that differs in its phrases alone. -/
theorem eq_withPhrases_of_build {l l' : Locale} (h : b.build = .ok l)
    (h' : (b.withSource source).build = .ok l') : l' = { l with phrases := l'.phrases } := by
  obtain ⟨language, -, hl, -, hlocale, -, -⟩ := build_eq_ok h
  obtain ⟨language', -, hl', -, hlocale', -, -⟩ := build_eq_ok h'
  obtain rfl : language = language' := Option.some.inj (hl.symm.trans hl')
  rw [hlocale]
  exact hlocale'

theorem conventions_of_build (hb : b.KeepsToLanguage) {l l' : Locale} (h : b.build = .ok l)
    (h' : (b.withSource source).build = .ok l') : l'.conventions = l.conventions := by
  rw [eq_withPhrases_of_build h h']
  exact Locale.conventions_withPhrases (hb.of_build h) _

end Blueprint

namespace Locale

/-- Each definition of the one locale stands in the other, it may be at another place. -/
def Extends (l' l : Locale) : Prop :=
  ∀ name d, l.phrases.get? name = some d →
    ∃ d', l'.phrases.get? name = some d' ∧ d'.placeless = d.placeless

variable {l l' : Locale}

theorem definition_of_placeless_eq {c : Conventions} {call : Call} {d d' : Definition}
    (h : d'.placeless = d.placeless) (arguments : List Value) :
    Rendering.definition c call d' arguments = Rendering.definition c call d arguments := by
  change Rendering.definition c call d'.placeless arguments = _
  rw [h]
  rfl

/-- What a phrase renders does not depend on the phrases that it does not refer to. -/
theorem Extends.call_eq (he : l'.Extends l) (hc : l'.conventions = l.conventions)
    (h : l.Checked) (h' : l'.Checked) {name : String} (hn : l.contains name) :
    l'.call name = l.call name := by
  obtain ⟨rank, hr⟩ := h.ranked
  induction hrank : rank name using Nat.strongRecOn generalizing name with
  | ind n ih =>
    obtain ⟨d, hd⟩ := Option.isSome_iff_exists.1 hn
    obtain ⟨d', hd', hsame⟩ := he name d hd
    have harity : d'.arity = d.arity := (congrArg Definition.arity hsame :)
    funext arguments
    by_cases ha : arguments.length = d.arity
    · rw [h.call_of_get? hd ha, h'.call_of_get? hd' (ha.trans harity.symm), hc,
        definition_of_placeless_eq hsame]
      apply Rendering.definition_congr
      intro k hk
      obtain ⟨callee, hcallee, -⟩ := callee_of_supported (h.supported name d hd) hk
      exact ih (rank k.1) (hrank ▸ (hr name d hd).2 k hk)
        (Option.isSome_iff_exists.2 ⟨callee, hcallee⟩) rfl
    · rw [h.call_of_length_ne hd ha, h'.call_of_length_ne hd' (harity ▸ ha), harity]

variable {b : Blueprint} {source : String} {definitions definitions' : List Definition}

theorem extends_of_build (hd : Definition.parseAll b.source = .ok definitions)
    (hd' : Definition.parseAll source = .ok definitions') (h : b.build = .ok l)
    (h' : (b.withSource source).build = .ok l')
    (hs : definitions.map Definition.placeless ⊆ definitions'.map Definition.placeless) :
    l'.Extends l := by
  obtain ⟨-, held, -, hp, -, -, hh⟩ := Blueprint.build_eq_ok h
  obtain ⟨-, held', -, hp', -, hc', hh'⟩ := Blueprint.build_eq_ok h'
  cases hd.symm.trans hp
  cases hd'.symm.trans hp'
  intro name d hget
  obtain ⟨rfl, hm⟩ := mem_of_get? hh hget
  obtain ⟨d', hm', he⟩ := List.mem_map.1 (hs (List.mem_map.2 ⟨d, hm, rfl⟩))
  have hname : d'.name = d.name := (congrArg Definition.name he :)
  refine ⟨d', ?_, he⟩
  have hn : ((definitions'.map fun d => (d.name, d)).map Prod.fst).Nodup := by
    rw [List.map_map]
    exact Definition.nodup_of_checkAll hc'
  rw [Store.get?, hh', Dictionary.get?_ofList_iff hn, ← hname]
  exact List.mem_map.2 ⟨d', hm', rfl⟩

/-- Locales with the same definitions render alike, and miss the same phrases. -/
theorem Extends.call_eq_of_extends (he : l'.Extends l) (he' : l.Extends l')
    (hc : l'.conventions = l.conventions) (hl : l'.language = l.language) (h : l.Checked)
    (h' : l'.Checked) : l'.call = l.call := by
  funext name
  by_cases hn : l.contains name
  · exact he.call_eq hc h h' hn
  · have hnone : l.phrases.get? name = none := by
      simpa [contains, Store.contains, Dictionary.contains, Store.get?] using hn
    have hnone' : l'.phrases.get? name = none := by
      cases hd : l'.phrases.get? name with
      | none => rfl
      | some d =>
        obtain ⟨d', hd', -⟩ := he' name d hd
        rw [hnone] at hd'
        cases hd'
    funext arguments
    rw [h.call_eq, h'.call_eq]
    simp only [enter, hnone, hnone', hl]

/-- A source may be extended, and its definitions reordered, without a change to what its phrases
render. Reordered, it builds just when it did. Transforms of its own are handed the locale for its
language and its plural rule, and must read no more of it: one that reads the phrases sees the ones
that were added. -/
theorem call_of_extended_source {b : Blueprint} {source : String}
    {definitions definitions' : List Definition}
    (hd : Definition.parseAll b.source = .ok definitions)
    (hd' : Definition.parseAll source = .ok definitions') :
    (definitions.map Definition.placeless ⊆ definitions'.map Definition.placeless →
      b.KeepsToLanguage → ∀ l l', b.build = .ok l → (b.withSource source).build = .ok l' →
        ∀ name, l.contains name → ∀ arguments, l'.call name arguments = l.call name arguments) ∧
    ((definitions.map Definition.placeless).Perm (definitions'.map Definition.placeless) →
      ((∃ l, b.build = .ok l) ↔ ∃ l', (b.withSource source).build = .ok l') ∧
      (b.KeepsToLanguage → ∀ l l', b.build = .ok l → (b.withSource source).build = .ok l' →
        l'.call = l.call ∧ l'.evaluate = l.evaluate)) := by
  constructor
  · intro hs hb l l' h h' name hn arguments
    have he := extends_of_build hd hd' h h' hs
    rw [he.call_eq (Blueprint.conventions_of_build hb h h') (checked_of_build h)
      (checked_of_build h') hn]
  · intro hp
    refine ⟨⟨Blueprint.exists_build_of_perm hd hd' hp,
      Blueprint.exists_build_of_perm (b := b.withSource source) hd' hd hp.symm⟩, ?_⟩
    intro hb l l' h h'
    have he := extends_of_build hd hd' h h' hp.subset
    have he' := extends_of_build (b := b.withSource source) hd' hd h' h hp.symm.subset
    have hc := Blueprint.conventions_of_build hb h h'
    have hl : l'.language = l.language := by rw [Blueprint.eq_withPhrases_of_build h h']
    have hcall := he.call_eq_of_extends he' hc hl (checked_of_build h) (checked_of_build h')
    refine ⟨hcall, ?_⟩
    funext template parameters
    simp only [evaluate, hc, hcall]

/-- A phrase that draws cards, in a loud voice. -/
def deck : Blueprint where
  language := "en"
  source := "card = \x7b one: \"card\", other: \"cards\" \x7d; " ++
    "draw($n) = \"Draw \x7b$n\x7d \x7b@shout card:$n\x7d\";"
  transforms := [("shout", fun value _ _ => .ok (value.shown ++ "!"))]

/-- The same in another order and with one phrase more. -/
def longerDeck : String :=
  "draw($n) = \"Draw \x7b$n\x7d \x7b@shout card:$n\x7d\"; hand = \"hand of \x7bcard:other\x7d\"; " ++
    "card = \x7b one: \"card\", other: \"cards\" \x7d;"

theorem call_of_extended_source_deck : ∃ definitions definitions' l l',
    Definition.parseAll deck.source = .ok definitions ∧
    Definition.parseAll longerDeck = .ok definitions' ∧
    definitions.map Definition.placeless ⊆ definitions'.map Definition.placeless ∧
    deck.KeepsToLanguage ∧ deck.build = .ok l ∧ (deck.withSource longerDeck).build = .ok l' ∧
    l.contains "draw" ∧ (∀ arguments, l'.call "draw" arguments = l.call "draw" arguments) ∧
    (l'.call "draw" [.number 2]).map Phrase.text = .ok "Draw 2 cards!" := by
  have h : (match Definition.parseAll deck.source, Definition.parseAll longerDeck, deck.build,
        (deck.withSource longerDeck).build with
      | .ok definitions, .ok definitions', .ok l, .ok l' =>
        decide (∀ d ∈ definitions.map Definition.placeless,
          d ∈ definitions'.map Definition.placeless) && (l.contains "draw" && decide (
            ((l'.call "draw" [.number 2]).map Phrase.text).toOption = some "Draw 2 cards!"))
      | _, _, _, _ => false) = true := by decide +kernel
  have hb : deck.KeepsToLanguage := by
    intro entry hm
    cases List.mem_singleton.1 hm
    intro _ _ _ _ _ _
    rfl
  split at h
  · next definitions definitions' l l' hd hd' hl hl' =>
    obtain ⟨hs, hn⟩ := Bool.and_eq_true_iff.1 h
    obtain ⟨hn, ht⟩ := Bool.and_eq_true_iff.1 hn
    have hs : definitions.map Definition.placeless ⊆ definitions'.map Definition.placeless :=
      of_decide_eq_true hs
    exact ⟨definitions, definitions', l, l', hd, hd', hs, hb, hl, hl', hn,
      (call_of_extended_source hd hd').1 hs hb l l' hl hl' "draw" hn,
      eq_ok_of_toOption (of_decide_eq_true ht)⟩
  · cases h

/-- A transform that counts the phrases of its locale. -/
def census : Blueprint where
  language := "en"
  source := "hand = \"hand\"; size = \"\x7b@census hand\x7d phrases\";"
  transforms := [("census", fun _ _ s => .ok (toString s.phrases.size))]

/-- One phrase more is one more to count. -/
theorem call_ne_of_reading_phrases : ∃ l l', census.build = .ok l ∧
    (census.withSource (census.source ++ " card = \"card\";")).build = .ok l' ∧
    l.contains "size" ∧ (l.call "size" []).map Phrase.text = .ok "2 phrases" ∧
    (l'.call "size" []).map Phrase.text = .ok "3 phrases" := by
  have h : ∃ l, census.build = .ok l ∧ (l.contains "size" && decide (
      ((l.call "size" []).map Phrase.text).toOption = some "2 phrases")) :=
    exists_of_build (by decide +kernel)
  have h' : ∃ l', (census.withSource (census.source ++ " card = \"card\";")).build = .ok l' ∧
      decide (((l'.call "size" []).map Phrase.text).toOption = some "3 phrases") :=
    exists_of_build (by decide +kernel)
  obtain ⟨l, hl, ht⟩ := h
  obtain ⟨l', hl', ht'⟩ := h'
  obtain ⟨hn, ht⟩ := Bool.and_eq_true_iff.1 ht
  exact ⟨l, l', hl, hl', hn, eq_ok_of_toOption (of_decide_eq_true ht),
    eq_ok_of_toOption (of_decide_eq_true ht')⟩

end Locale

end Phrasebook
