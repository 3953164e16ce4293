import Mathlib.Data.List.TakeWhile
import Phrasebook.Embedded.Outline
import Phrasebook.Proofs.Index
import Phrasebook.Proofs.Settling

/-!
The locale that a program gets from its embedded definitions. They are checked before the program
runs and again when the locale is built, by other code: the check takes the language up to its first
hyphen or underscore, and the locale asks for a language identifier.
-/

namespace Phrasebook

open Text

/-! ### The language -/

theorem Text.head?_cutAll (separator : Char) (text : List Char) :
    (cutAll separator text).head? = some (text.takeWhile (· ≠ separator)) := by
  induction text with
  | nil => rfl
  | cons c rest ih =>
    rw [cutAll, List.takeWhile_cons]
    by_cases hc : c = separator
    · simp [hc]
    · cases hp : cutAll separator rest with
      | nil => exact absurd hp (cutAll_ne_nil separator rest)
      | cons piece pieces =>
        rw [hp] at ih
        simp [hc, Option.some.inj ih]

/-- The language itself stands in front of the first hyphen, in letters of any case. -/
theorem Language.primary_of_parse? {tag : String} {language : Language}
    (h : parse? tag = some language) :
    (∀ c ∈ tag.toList.takeWhile (· ≠ '-'), c.isAlpha) ∧
      language.primary = lower (tag.toList.takeWhile (· ≠ '-')) := by
  have hhead := head?_cutAll '-' tag.toList
  rw [parse?] at h
  cases hs : cutAll '-' tag.toList with
  | nil => exact absurd hs (cutAll_ne_nil _ _)
  | cons primary rest =>
    rw [hs] at h hhead
    cases Option.some.inj hhead
    simp only [ofSubtags?, Option.ite_none_right_eq_some, Option.some.injEq] at h
    obtain ⟨⟨hp, -⟩, rfl⟩ := h
    exact ⟨List.all_eq_true.1 (Bool.and_eq_true_iff.1 hp).1, rfl⟩

namespace Builtin

theorem table_lower : ∀ entry ∈ table, Language.lower entry.1.toList = entry.1 := by
  decide

/-- A language in small letters has all the transforms that it has in other letters. -/
theorem names_subset_lower (language : String) :
    names language ⊆ names (Language.lower language.toList) := by
  cases hl : table.lookup language with
  | none =>
    intro name hname
    have huniversal : name ∈ universal.map Prod.fst := by simpa [names, named, hl] using hname
    rw [names, named, List.map_append]
    exact List.mem_append_left _ huniversal
  | some found =>
    have hm : (language, found) ∈ table := by
      obtain ⟨before, after, htable, -⟩ := List.lookup_eq_some_iff.1 hl
      simp [htable]
    rw [table_lower _ hm]
    exact fun _ h => h

end Builtin

theorem Registry.mem_names_forLanguage {language name : String} :
    name ∈ (forLanguage language).names ↔ name ∈ Builtin.names language := by
  rw [names, Dictionary.mem_keys]
  exact Dictionary.contains_ofList.trans (by simp [Builtin.names])

namespace Embedded

/-- The names that embedded definitions are checked against are at hand in their locale. -/
theorem names_subset_of_parse? {e : Embedded} {language : Language}
    (h : Language.parse? e.language = some language) :
    Builtin.names e.baseLanguage ⊆ (Registry.forLanguage language.primary).names := by
  obtain ⟨halpha, hp⟩ := Language.primary_of_parse? h
  have hbase : e.baseLanguage = String.ofList (e.language.toList.takeWhile (· ≠ '-')) := by
    have hplain : ∀ c ∈ e.language.toList.takeWhile (· ≠ '-'), decide (c ≠ '_') := by
      intro c hc
      refine decide_eq_true ?_
      rintro rfl
      exact absurd (halpha '_' hc) (by decide)
    rw [baseLanguage, ← List.takeWhile_eq_self_iff.2 hplain, List.takeWhile_takeWhile]
    congr 2
    funext c
    simp [and_comm]
  intro name hname
  rw [Registry.mem_names_forLanguage, hp]
  have hsub := Builtin.names_subset_lower e.baseLanguage hname
  rwa [hbase, String.toList_ofList] at hsub

end Embedded

/-! ### The check -/

namespace Definition

/-- More transforms make no definition wrong. -/
theorem check_mono {arities : Dictionary Nat} {transforms transforms' : List String}
    (hsub : transforms ⊆ transforms') {d : Definition} (h : d.check ⟨arities, transforms⟩ = []) :
    d.check ⟨arities, transforms'⟩ = [] := by
  simp only [check, List.append_eq_nil_iff, List.flatMap_eq_nil_iff,
    checkInterpolation_eq_nil] at h ⊢
  exact ⟨h.1, fun hole hm => ⟨(h.2 hole hm).1, (h.2 hole hm).2.1,
    fun t ht => hsub ((h.2 hole hm).2.2 t ht)⟩⟩

theorem checkAll_mono {definitions : List Definition} {transforms transforms' : List String}
    (hsub : transforms ⊆ transforms') (h : checkAll definitions transforms = []) :
    checkAll definitions transforms' = [] := by
  simp only [checkAll, List.append_eq_nil_iff, List.flatMap_eq_nil_iff] at h ⊢
  exact ⟨⟨h.1.1, fun d hd => check_mono hsub (h.1.2 d hd)⟩, h.2⟩

end Definition

/-! ### The outline -/

namespace Embedded

variable {e : Embedded} {definitions : List Definition}

/-- The steps of the check, each of which has succeeded. -/
theorem of_check (h : e.check = .ok definitions) :
    Definition.parseAll e.source = .ok definitions ∧
      checkAll definitions (Builtin.names e.baseLanguage) = [] ∧
      faultsFrom e [] definitions = [] := by
  unfold check at h
  split at h
  · cases h
  · next read hread =>
    split at h
    · next hc =>
      split at h
      · next hf =>
        cases h
        exact ⟨hread, hc, hf⟩
      · cases h
    · cases h

/-- A definition is in order as a part of a program, behind other definitions. -/
structure Fits (before : List Definition) (d : Definition) : Prop where
  free : d.name ∉ taken
  usable : d.name ∉ unusable
  parameters : ∀ p ∈ d.parameters, p ∉ unusable
  constant : ∀ other ∈ before, constantOf other.name ≠ constantOf d.name
  arity : d.arity ≤ maxArity

theorem fits_iff {before : List Definition} {d : Definition} : Fits before d ↔
    nameCauses d ++ constantCauses before d ++ arityCauses d = [] := by
  have hname : nameCauses d = [] ↔
      (d.name ∉ taken ∧ d.name ∉ unusable) ∧ ∀ p ∈ d.parameters, p ∉ unusable := by
    simp [nameCauses, not_or]
  have hconstant : constantCauses before d = [] ↔
      ∀ other ∈ before, constantOf other.name ≠ constantOf d.name := by
    unfold constantCauses
    split
    · next other hfound =>
      have hsame := List.find?_some hfound
      refine iff_of_false (List.cons_ne_nil _ _) fun hne => ?_
      exact hne other (List.mem_of_find?_eq_some hfound) (of_decide_eq_true hsame)
    · next hnone => simpa using List.find?_eq_none.1 hnone
  have harity : arityCauses d = [] ↔ d.arity ≤ maxArity := by
    simp [arityCauses]
  rw [List.append_eq_nil_iff, List.append_eq_nil_iff, hname, hconstant, harity]
  constructor
  · rintro ⟨hf, hu, hp, hc, ha⟩
    exact ⟨⟨⟨⟨hf, hu⟩, hp⟩, hc⟩, ha⟩
  · rintro ⟨⟨⟨⟨hf, hu⟩, hp⟩, hc⟩, ha⟩
    exact ⟨hf, hu, hp, hc, ha⟩

theorem fits_cons {before : List Definition} {d other : Definition} :
    Fits (other :: before) d ↔ Fits before d ∧ constantOf other.name ≠ constantOf d.name := by
  constructor
  · rintro ⟨hf, hu, hp, hc, ha⟩
    obtain ⟨hne, hc⟩ := List.forall_mem_cons.1 hc
    exact ⟨⟨hf, hu, hp, hc, ha⟩, hne⟩
  · rintro ⟨⟨hf, hu, hp, hc, ha⟩, hne⟩
    exact ⟨hf, hu, hp, List.forall_mem_cons.2 ⟨hne, hc⟩, ha⟩

/-- The check finds no fault just when each definition is in order and no two have one constant. -/
theorem faultsFrom_eq_nil {before : List Definition} : faultsFrom e before definitions = [] ↔
    (∀ d ∈ definitions, Fits before d) ∧ (definitions.map fun d => constantOf d.name).Nodup := by
  induction definitions generalizing before with
  | nil => simp [faultsFrom]
  | cons d rest ih =>
    have hbehind : (∀ other ∈ rest, Fits (d :: before) other) ↔
        (∀ other ∈ rest, Fits before other) ∧
          constantOf d.name ∉ rest.map fun d => constantOf d.name := by
      simp only [fits_cons, List.mem_map, not_exists, not_and, forall₂_and, ne_comm, ne_eq]
    rw [faultsFrom, List.append_eq_nil_iff, List.map_eq_nil_iff, ← fits_iff, ih, hbehind,
      List.forall_mem_cons, List.map_cons, List.nodup_cons]
    tauto

namespace Keyword

/-- A name is out of the program's reach if not even the mark makes it a plain name. -/
theorem isSome_spell?_iff {name : String} : (spell? name).isSome ↔ name ∉ unmarkable := by
  have hall : ∀ word ∈ unmarkable, word ∈ all := by decide
  unfold spell?
  split
  · next hname => simpa using fun hu => hname (hall name hu)
  · split <;> simp_all

theorem notMem_unmarkable {name : String} (h : name ∉ unusable) :
    name ∉ unmarkable ↔ name ≠ "_" ∧ name ≠ "Self" := by
  simp only [unusable, unmarkable, List.mem_cons, List.not_mem_nil, or_false, not_or] at h ⊢
  tauto

end Keyword

/-- The definitions that the program can give functions to. -/
theorem isSome_outline?_iff (h : e.check = .ok definitions) : (outline? e definitions).isSome ↔
    ∀ d ∈ definitions, ∀ p ∈ d.parameters, p ≠ "_" ∧ p ≠ "Self" := by
  obtain ⟨hread, -, hf⟩ := of_check h
  have hfunction : ∀ d ∈ definitions, (Function.ofDefinition? d).isSome ↔
      ∀ p ∈ d.parameters, p ≠ "_" ∧ p ≠ "Self" := by
    intro d hd
    have hfits : Fits [] d := (faultsFrom_eq_nil.1 hf).1 d hd
    have hspell : (Keyword.spell? d.name).isSome := by
      obtain ⟨c, hc, hsmall⟩ := Definition.small_of_parseAll hread hd
      rw [Keyword.isSome_spell?_iff, Keyword.notMem_unmarkable hfits.usable]
      constructor
      · intro hunderscore
        rw [hunderscore] at hc
        cases hc
        exact absurd hsmall (by decide)
      · intro hself
        rw [hself] at hc
        cases hc
        exact absurd hsmall (by decide)
    obtain ⟨name, hname⟩ := Option.isSome_iff_exists.1 hspell
    have hof : (Function.ofDefinition? d).isSome ↔ (d.parameters.mapM Keyword.spell?).isSome := by
      rw [Function.ofDefinition?, hname]
      cases d.parameters.mapM Keyword.spell? <;> rfl
    rw [hof, isSome_mapM]
    exact forall₂_congr fun p hp =>
      Keyword.isSome_spell?_iff.trans (Keyword.notMem_unmarkable (hfits.parameters p hp))
  have houtline : (outline? e definitions).isSome ↔
      (definitions.mapM Function.ofDefinition?).isSome := by
    unfold outline?
    cases definitions.mapM Function.ofDefinition? <;> rfl
  rw [houtline, isSome_mapM]
  exact forall₂_congr hfunction

/-- The id that the constant holds. -/
def IdConstant.id (c : IdConstant) : PhraseId :=
  .ofName c.phrase (UInt8.ofNat c.arity)

/-- The locale that the function `locale` of the program builds from the two constants. -/
def Outline.Loads (o : Outline) (l : Locale) : Prop :=
  ∃ language source, ("LANGUAGE", language) ∈ o.constants ∧ ("SOURCE", source) ∈ o.constants ∧
    Blueprint.build { language, source } = .ok l

/-- What the program builds its locale from. -/
def blueprint (e : Embedded) : Blueprint where
  language := e.language
  source := e.source

theorem of_outline? {o : Outline} (h : outline? e definitions = some o) :
    o.ids = definitions.map .ofDefinition ∧ ∀ l, o.Loads l ↔ e.blueprint.build = .ok l := by
  simp only [outline?, Option.bind_eq_bind, Option.bind_eq_some_iff, Option.pure_def,
    Option.some.injEq] at h
  obtain ⟨functions, -, rfl⟩ := h
  refine ⟨rfl, fun l => ?_⟩
  simp [Outline.Loads, blueprint]

/-- When a checked source can be built, besides two names with one hash. -/
theorem exists_build_blueprint_iff (h : e.check = .ok definitions) :
    (∃ l, e.blueprint.build = .ok l) ↔ (Language.parse? e.language).isSome ∧
      ∀ d ∈ definitions, ∀ d' ∈ definitions,
        nameHash d.name = nameHash d'.name → d.name = d'.name := by
  obtain ⟨hread, hc, -⟩ := of_check h
  rw [Blueprint.exists_build_iff (b := e.blueprint) hread]
  constructor
  · rintro ⟨language, hl, -, hs⟩
    exact ⟨Option.isSome_iff_exists.2 ⟨language, hl⟩, (Store.exists_insertAll_iff.1 hs).2⟩
  · rintro ⟨hl, hhash⟩
    obtain ⟨language, hl⟩ := Option.isSome_iff_exists.1 hl
    exact ⟨language, hl, Definition.checkAll_mono (names_subset_of_parse? hl) hc,
      Store.exists_insertAll_iff.2 ⟨by simp [Store.nameOf?, Store.empty], hhash⟩⟩

/-- The phrases of the locale of a checked source are the checked definitions. -/
theorem get?_of_build {l : Locale} (h : e.check = .ok definitions)
    (hl : e.blueprint.build = .ok l) {name : String} {d : Definition} :
    l.phrases.get? name = some d ↔ d ∈ definitions ∧ d.name = name := by
  obtain ⟨hread, hc, -⟩ := of_check h
  obtain ⟨_, read, -, hread', -, -, hp⟩ := Blueprint.build_eq_ok hl
  cases hread.symm.trans hread'
  have hn : ((definitions.map fun d => (d.name, d)).map Prod.fst).Nodup := by
    rw [List.map_map]
    exact Definition.nodup_of_checkAll hc
  rw [Store.get?, hp, Dictionary.get?_ofList_iff hn, List.mem_map]
  constructor
  · rintro ⟨d', hd', he⟩
    cases he
    exact ⟨hd', rfl⟩
  · rintro ⟨hd, rfl⟩
    exact ⟨d, hd, rfl⟩

/-- The id of a phrase holds all of its parameters, and calls it. -/
theorem callById_of_build {l : Locale} (h : e.check = .ok definitions)
    (hl : e.blueprint.build = .ok l) {d : Definition} (hd : d ∈ definitions)
    (arguments : List Value) :
    l.callById (IdConstant.ofDefinition d).id arguments = l.call d.name arguments := by
  have harity : d.arity = (UInt8.ofNat (min d.arity maxArity)).toNat := by
    have hmax : d.arity ≤ maxArity := ((faultsFrom_eq_nil.1 (of_check h).2.2).1 d hd).arity
    rw [Nat.min_eq_left hmax, UInt8.toNat_ofNat']
    exact (Nat.mod_eq_of_lt (Nat.lt_succ_of_le hmax)).symm
  have hget : l.phrases.get? d.name = some d := (get?_of_build h hl).2 ⟨hd, rfl⟩
  exact (Locale.callById_ofName (Locale.checked_of_build hl) (Locale.indexed_of_build hl) hget _
    arguments).trans (if_pos harity)

/-- What a program gets of embedded definitions that pass the check. It gets its functions if no
parameter is out of its reach; its locale can be built if besides the header names a language
identifier and no two names have one hash; and then the locale defines the checked phrases and
nothing else, and each id stands for its phrase. -/
theorem loads_of_check (h : e.check = .ok definitions) :
    ((∃ o l, outline? e definitions = some o ∧ o.Loads l) ↔
      (∀ d ∈ definitions, ∀ p ∈ d.parameters, p ≠ "_" ∧ p ≠ "Self") ∧
        (Language.parse? e.language).isSome ∧
        ∀ d ∈ definitions, ∀ d' ∈ definitions,
          nameHash d.name = nameHash d'.name → d.name = d'.name) ∧
    ∀ o l, outline? e definitions = some o → o.Loads l →
      (∀ name d, l.phrases.get? name = some d ↔ d ∈ definitions ∧ d.name = name) ∧
        o.ids.map IdConstant.phrase = definitions.map Definition.name ∧
        ∀ c ∈ o.ids, l.nameForId? c.id = some c.phrase ∧
          ∀ arguments, l.callById c.id arguments = l.call c.phrase arguments := by
  constructor
  · rw [← isSome_outline?_iff h, ← exists_build_blueprint_iff h, Option.isSome_iff_exists]
    constructor
    · rintro ⟨o, l, ho, hl⟩
      exact ⟨⟨o, ho⟩, l, ((of_outline? ho).2 l).1 hl⟩
    · rintro ⟨⟨o, ho⟩, l, hl⟩
      exact ⟨o, l, ho, ((of_outline? ho).2 l).2 hl⟩
  · intro o l ho hl
    obtain ⟨hids, hloads⟩ := of_outline? ho
    rw [hloads] at hl
    refine ⟨fun name d => get?_of_build h hl, by simp [hids, IdConstant.ofDefinition], ?_⟩
    intro c hc
    rw [hids] at hc
    obtain ⟨d, hd, rfl⟩ := List.mem_map.1 hc
    exact ⟨Locale.nameForId?_ofName (Locale.indexed_of_build hl) ((get?_of_build h hl).2 ⟨hd, rfl⟩) _,
      fun arguments => callById_of_build h hl hd arguments⟩

/-- A phrase with one parameter, in a language of one's choice. -/
def deck (language : String) : List Token :=
  [ .mark '#' 1, .mark '!' 2,
    .group .square [.word "language" 4, .mark '=' 5, .literal (.text language) 6] 3 7,
    .word "card" 8, .group .round [.mark '$' 10, .word "n" 11] 9 12, .mark '=' 13,
    .literal (.text "card \x7b$n\x7d") 14, .mark ';' 15 ]

def deckRead (language : String) : Embedded where
  language := language
  lines :=
    [[⟨"card", 8, true⟩, ⟨"(", 9, false⟩, ⟨"$", 10, false⟩, ⟨"n", 11, true⟩, ⟨")", 12, false⟩,
      ⟨"=", 13, false⟩, ⟨"\"card \x7b$n\x7d\"", 14, true⟩, ⟨";", 15, false⟩]]

def deckCard : Definition where
  name := "card"
  parameters := ["n"]
  tags := []
  inherits := none
  selectors := []
  body := .template ⟨[.literal "card ", .interpolation ⟨none, .parameter "n", []⟩]⟩
  bodyless := false
  position := .start

theorem read_deck (language : String) : read (deck language) = .ok (deckRead language) := by
  rfl

theorem loads_of_check_deck : read (deck "pt-BR") = .ok (deckRead "pt-BR") ∧
    (deckRead "pt-BR").check = .ok [deckCard] ∧
    ∃ o l, outline? (deckRead "pt-BR") [deckCard] = some o ∧ o.Loads l ∧
      l.phrases.get? "card" = some deckCard ∧ o.ids.map IdConstant.phrase = ["card"] ∧
      ∀ c ∈ o.ids, l.nameForId? c.id = some c.phrase ∧
        ∀ arguments, l.callById c.id arguments = l.call c.phrase arguments := by
  have hcheck : (deckRead "pt-BR").check = .ok [deckCard] :=
    eq_ok_of_toOption (by decide +kernel)
  obtain ⟨hiff, hall⟩ := loads_of_check hcheck
  obtain ⟨o, l, ho, hl⟩ := hiff.2 ⟨by decide, by decide +kernel, by simp⟩
  obtain ⟨hget, hids⟩ := hall o l ho hl
  exact ⟨read_deck _, hcheck, o, l, ho, hl, (hget _ _).2 ⟨List.mem_singleton_self _, rfl⟩, hids⟩

/-- The check takes `en` of `en_US`, and the locale of the same source refuses the header. -/
theorem not_loads_of_check : ¬ ∀ (tokens : List Token) (e : Embedded)
    (definitions : List Definition), read tokens = .ok e → e.check = .ok definitions →
    (∀ d ∈ definitions, ∀ d' ∈ definitions, nameHash d.name = nameHash d'.name →
      d.name = d'.name) →
    ∃ o l, outline? e definitions = some o ∧ o.Loads l := by
  intro loads
  have hcheck : (deckRead "en_US").check = .ok [deckCard] :=
    eq_ok_of_toOption (by decide +kernel)
  obtain ⟨o, l, ho, hl⟩ := loads _ _ _ (read_deck "en_US") hcheck (by simp)
  have hbuild := (exists_build_blueprint_iff hcheck).1 ⟨l, ((of_outline? ho).2 l).1 hl⟩
  exact absurd hbuild.1 (by decide +kernel)

end Embedded

end Phrasebook
