import Mathlib
import Phrasebook.Proofs.Alongside
import Phrasebook.Proofs.EmbeddedLocales

/-!
The names that a program gets with its embedded definitions: those of the functions and of their
parameters, and of the constants for the ids. A name is taken over as it is, or marked where the
program keeps the word for itself. What the check lets through although the program cannot have it
are two parameters of one name, and those that not even the mark makes names.
-/

namespace Phrasebook

open Text Template.Grammar

namespace Embedded

namespace Keyword

/-- A word of the form that names have, be it kept by the program or not. -/
structure IsIdentifier (word : String) : Prop where
  start : word.toList.head?.any isNameStart
  inside : ∀ c ∈ word.toList, isWordChar c

instance (word : String) : Decidable (IsIdentifier word) :=
  decidable_of_iff (word.toList.head?.any isNameStart ∧ word.toList.all isWordChar)
    ⟨fun h => ⟨h.1, List.all_eq_true.1 h.2⟩, fun h => ⟨h.1, List.all_eq_true.2 h.inside⟩⟩

/-- What the program takes for a name as it stands. -/
structure Plain (word : String) : Prop extends IsIdentifier word where
  free : word ∉ all

instance (word : String) : Decidable (Plain word) :=
  decidable_of_iff (IsIdentifier word ∧ word ∉ all) ⟨fun h => ⟨h.1, h.2⟩, fun h => ⟨h.1, h.2⟩⟩

/-- What the program takes for a name, marked or not. -/
inductive Legal : String → Prop where
  | plain {word : String} (h : Plain word) : Legal word
  | marked {word : String} (hi : IsIdentifier word) (hm : word ∉ unmarkable) :
    Legal (Token.nameMark ++ word)

/-- The name that is meant: two names that differ in the mark are one name. -/
def unmarked (word : String) : String :=
  String.ofList (Token.plainName word.toList)

theorem unmarked_plain {name : String} (hi : IsIdentifier name) : unmarked name = name := by
  rw [unmarked, Along.plainName_of_word hi.inside, String.ofList_toList]

theorem unmarked_marked (name : String) : unmarked (Token.nameMark ++ name) = name := by
  rw [unmarked, String.toList_append]
  exact String.ofList_toList

/-- A name is spelled so that the program takes it, and takes it for that name. -/
theorem of_spell? {name word : String} (hi : IsIdentifier name) (h : spell? name = some word) :
    Legal word ∧ unmarked word = name := by
  unfold spell? at h
  split at h
  · next hfree =>
    cases h
    exact ⟨.plain ⟨hi, hfree⟩, unmarked_plain hi⟩
  · split at h
    · cases h
    · next hm =>
      cases h
      exact ⟨.marked hi hm, unmarked_marked name⟩

end Keyword

end Embedded

open Embedded Embedded.Keyword

/-! ### Names of definitions -/

theorem Template.Grammar.Word.isIdentifier {text rest : List Char} {name : String}
    (h : Name text name rest) : IsIdentifier name :=
  ⟨(Option.any_eq_true _ _).2 h.start, h.inside⟩

namespace Source

variable {text rest : List Char} {names : List String}

theorem SomeParameters.isIdentifier (h : SomeParameters text names rest) :
    ∀ name ∈ names, IsIdentifier name := by
  induction h with
  | last _ hn _ => exact List.forall_mem_singleton.2 hn.isIdentifier
  | more _ hn _ _ ih => exact List.forall_mem_cons.2 ⟨hn.isIdentifier, ih⟩

theorem Parameters.isIdentifier (h : Parameters text names rest) :
    ∀ name ∈ names, IsIdentifier name := by
  cases h with
  | absent => exact List.forall_mem_nil _
  | none _ => exact List.forall_mem_nil _
  | some hs => exact hs.isIdentifier

end Source

namespace Definition

/-- What the reader of definitions asks of their names. -/
structure WellNamed (d : Definition) : Prop where
  name : IsIdentifier d.name
  small : ∃ c, d.name.toList.head? = some c ∧ 'a' ≤ c ∧ c ≤ 'z'
  parameters : ∀ p ∈ d.parameters, IsIdentifier p

theorem wellNamed_of_parseAll {source : String} {read : List Definition}
    (h : parseAll source = .ok read) {d : Definition} (hd : d ∈ read) : d.WellNamed := by
  obtain ⟨draft, text, rest, hdraft, hset⟩ := exists_draft h hd
  obtain ⟨hname, hparameters⟩ := Draft.signature_of_settle? hset
  refine ⟨?_, small_of_parseAll h hd, ?_⟩
  · obtain ⟨-, -, hn⟩ := hdraft
    exact hname ▸ hn.isIdentifier
  · obtain ⟨-, -, -, -, hp⟩ := hdraft
    exact hparameters ▸ hp.isIdentifier

end Definition

/-! ### Constants -/

theorem Text.isWordChar_toUpper {c : Char} (h : isWordChar c) : isWordChar c.toUpper := by
  by_cases hl : c.isLower
  · have halpha : c.toUpper.isAlpha := by
      rw [Char.isAlpha_toUpper_eq_isAlpha, Char.isAlpha, hl, Bool.or_true]
    simp [isWordChar, Char.isAlphanum, halpha]
  · rwa [Char.toUpper_eq_of_not_isLower hl]

namespace Embedded

namespace Keyword

/-- No keyword is written in capital letters. -/
theorem lower_of_mem_all : ∀ word ∈ all, word = "_" ∨ word.toList.any Char.isLower := by
  decide

theorem plain_constantOf {name : String} (hi : IsIdentifier name)
    (hs : ∃ c, name.toList.head? = some c ∧ 'a' ≤ c ∧ c ≤ 'z') : Plain (constantOf name) := by
  have htoList : (constantOf name).toList = name.toList.map Char.toUpper := by
    simp [constantOf]
  obtain ⟨c, hc, hsmall⟩ := hs
  have hhead : (constantOf name).toList.head? = some c.toUpper := by
    rw [htoList, List.head?_map, hc]
    rfl
  have hlower : c.isLower :=
    Bool.and_eq_true_iff.2 ⟨decide_eq_true hsmall.1, decide_eq_true hsmall.2⟩
  have hupper : c.toUpper.isUpper := by
    rw [Char.isUpper_toUpper_eq_isAlpha, Char.isAlpha, hlower, Bool.or_true]
  refine ⟨⟨?_, ?_⟩, fun hk => ?_⟩
  · rw [hhead, Option.any_some]
    simp [isNameStart, Char.isAlpha, hupper]
  · intro d hd
    rw [htoList, List.mem_map] at hd
    obtain ⟨d, hd, rfl⟩ := hd
    exact isWordChar_toUpper (hi.inside d hd)
  · obtain hunderscore | hlower := lower_of_mem_all _ hk
    · rw [hunderscore] at hhead
      rw [← Option.some.inj hhead] at hupper
      exact absurd hupper (by decide)
    · rw [htoList, List.any_map, List.any_eq_true] at hlower
      obtain ⟨d, -, hd⟩ := hlower
      rw [Function.comp_apply, Char.isLower_toUpper_eq_false] at hd
      exact Bool.false_ne_true hd

end Keyword

/-! ### The outline -/

variable {e : Embedded} {definitions : List Definition}

/-- The module that the constants for the ids stand in. -/
def idModule : String := "phrase_ids"

/-- The names that are there whatever the definitions are. -/
def ownNames : List String := [idModule, "locale", "SOURCE", "LANGUAGE"]

/-- The names that stand beside each other in the program. -/
def Outline.items (o : Outline) : List String :=
  idModule :: (o.functions.map Function.name ++ o.constants.map Prod.fst)

/-- All that has a name has one that the program takes, and no other item has the same one. -/
structure Outline.Named (o : Outline) : Prop where
  items : ∀ name ∈ o.items, Legal name
  itemsDistinct : (o.items.map unmarked).Nodup
  parameters : ∀ f ∈ o.functions, ∀ p ∈ f.parameters, Legal p
  ids : ∀ c ∈ o.ids, Plain c.name
  idsDistinct : (o.ids.map IdConstant.name).Nodup

structure Outline.Legal (o : Outline) : Prop extends o.Named where
  parametersDistinct : ∀ f ∈ o.functions, (f.parameters.map unmarked).Nodup

namespace Function

/-- The names that a function has, whether it takes marks to spell them or not: its own and those
of its parameters. -/
def meant (f : Function) : String × List String :=
  (unmarked f.name, f.parameters.map unmarked)

theorem of_ofDefinition? {d : Definition} {f : Function} (hd : d.WellNamed)
    (h : ofDefinition? d = some f) :
    (Keyword.Legal f.name ∧ ∀ p ∈ f.parameters, Keyword.Legal p) ∧
      f.meant = (d.name, d.parameters) := by
  simp only [ofDefinition?, Option.bind_eq_bind, Option.bind_eq_some_iff, Option.pure_def,
    Option.some.injEq] at h
  obtain ⟨name, hname, parameters, hparameters, rfl⟩ := h
  obtain ⟨hlegal, hmeant⟩ := of_spell? hd.name hname
  have hmap : parameters.map unmarked = d.parameters.map id :=
    map_of_mapM_eq_some hparameters fun q hq p hs => (of_spell? (hd.parameters q hq) hs).2
  rw [List.map_id] at hmap
  refine ⟨⟨hlegal, fun p hp => ?_⟩, Prod.ext hmeant hmap⟩
  obtain ⟨q, hq, hs⟩ := exists_mem_of_mapM_eq_some hparameters hp
  exact (of_spell? (hd.parameters q hq) hs).1

section

variable {functions : List Function} (hd : ∀ d ∈ definitions, d.WellNamed)
  (h : definitions.mapM ofDefinition? = some functions)
include hd h

theorem legal_of_mapM :
    ∀ f ∈ functions, Keyword.Legal f.name ∧ ∀ p ∈ f.parameters, Keyword.Legal p := by
  intro f hf
  obtain ⟨d, hm, hs⟩ := exists_mem_of_mapM_eq_some h hf
  exact (of_ofDefinition? (hd d hm) hs).1

theorem meant_of_mapM :
    functions.map meant = definitions.map fun d => (d.name, d.parameters) :=
  map_of_mapM_eq_some h fun d hm _ hs => (of_ofDefinition? (hd d hm) hs).2

end

end Function

/-- The names of the definitions stay clear of those that are there in any case. -/
theorem notMem_ownNames (h : e.check = .ok definitions) {d : Definition} (hd : d ∈ definitions) :
    d.name ∉ ownNames := by
  obtain ⟨hread, -, hf⟩ := of_check h
  obtain ⟨c, hc, hsmall, -⟩ := Definition.small_of_parseAll hread hd
  have htaken : d.name ∉ taken := ((faultsFrom_eq_nil.1 hf).1 d hd).free
  have hcapital (name : String) (c' : Char) (hhead : name.toList.head? = some c')
      (hlt : c' < 'a') : d.name ≠ name := by
    rintro rfl
    cases hc.symm.trans hhead
    exact absurd hsmall (not_le.2 hlt)
  simp only [taken, List.mem_cons, List.not_mem_nil, or_false, not_or] at htaken
  simp only [ownNames, idModule, List.mem_cons, List.not_mem_nil, or_false, not_or]
  exact ⟨htaken.2, htaken.1, hcapital "SOURCE" 'S' rfl (by decide),
    hcapital "LANGUAGE" 'L' rfl (by decide)⟩

theorem plain_ownNames : ∀ name ∈ ownNames, Plain name := by
  decide

theorem nodup_names_append (h : e.check = .ok definitions) :
    (definitions.map Definition.name ++ ownNames).Nodup := by
  refine List.nodup_append.2 ⟨Definition.nodup_of_checkAll (of_check h).2.1, by decide, ?_⟩
  intro name hname own hown he
  obtain ⟨d, hd, rfl⟩ := List.mem_map.1 hname
  exact notMem_ownNames h hd (he ▸ hown)

variable {o : Outline}

theorem items_perm (ho : outline? e definitions = some o) : ∃ functions,
    definitions.mapM Function.ofDefinition? = some functions ∧ o.functions = functions ++ [.locale] ∧
      o.items.Perm (functions.map Function.name ++ ownNames) := by
  simp only [outline?, Option.bind_eq_bind, Option.bind_eq_some_iff, Option.pure_def,
    Option.some.injEq] at ho
  obtain ⟨functions, hfunctions, rfl⟩ := ho
  refine ⟨functions, hfunctions, rfl, ?_⟩
  simp only [Outline.items, List.map_append, List.append_assoc]
  exact List.perm_middle.symm

/-- The functions are those of the definitions and the one for the locale. -/
theorem meant_of_check (h : e.check = .ok definitions) (ho : outline? e definitions = some o) :
    o.functions.map Function.meant =
      (definitions.map fun d => (d.name, d.parameters)) ++ [("locale", [])] := by
  obtain ⟨functions, hfunctions, hall, -⟩ := items_perm ho
  rw [hall, List.map_append, Function.meant_of_mapM
    (fun d hd => Definition.wellNamed_of_parseAll (of_check h).1 hd) hfunctions]
  rfl

theorem named_of_check (h : e.check = .ok definitions) (ho : outline? e definitions = some o) :
    o.Named := by
  obtain ⟨hread, -, hf⟩ := of_check h
  have hwell : ∀ d ∈ definitions, d.WellNamed := fun d hd =>
    Definition.wellNamed_of_parseAll hread hd
  obtain ⟨functions, hfunctions, hall, hitems⟩ := items_perm ho
  have hlegal := Function.legal_of_mapM hwell hfunctions
  have hmeant : functions.map (fun f => unmarked f.name) = definitions.map Definition.name := by
    have hpairs := congrArg (List.map Prod.fst) (Function.meant_of_mapM hwell hfunctions)
    rw [List.map_map, List.map_map] at hpairs
    exact hpairs
  have hids : o.ids = definitions.map .ofDefinition := (of_outline? ho).1
  have hown : ownNames.map unmarked = ownNames := by decide
  constructor
  case items =>
    intro name hm
    rw [hitems.mem_iff, List.mem_append, List.mem_map] at hm
    obtain ⟨f, hm, rfl⟩ | hm := hm
    · exact (hlegal f hm).1
    · exact .plain (plain_ownNames name hm)
  case itemsDistinct =>
    rw [(hitems.map unmarked).nodup_iff, List.map_append, List.map_map, hown]
    exact hmeant ▸ nodup_names_append h
  case parameters =>
    rw [hall, List.forall_mem_append, List.forall_mem_singleton]
    exact ⟨fun f hm => (hlegal f hm).2, List.forall_mem_nil _⟩
  case ids =>
    rw [hids, List.forall_mem_map]
    exact fun d hd => plain_constantOf (hwell d hd).name (hwell d hd).small
  case idsDistinct =>
    rw [hids, List.map_map]
    exact (faultsFrom_eq_nil.1 hf).2

theorem legal_iff_of_outline? (h : e.check = .ok definitions)
    (ho : outline? e definitions = some o) : o.Legal ↔ ∀ d ∈ definitions, d.parameters.Nodup := by
  have hall : (∀ f ∈ o.functions, f.meant.2.Nodup) ↔
      ∀ names ∈ (definitions.map fun d => (d.name, d.parameters)) ++ [("locale", [])],
        names.2.Nodup := by
    rw [← meant_of_check h ho, List.forall_mem_map]
  rw [List.forall_mem_append, List.forall_mem_map, List.forall_mem_singleton] at hall
  exact ⟨fun hl => (hall.1 hl.parametersDistinct).1,
    fun hd => ⟨named_of_check h ho, hall.2 ⟨hd, List.nodup_nil⟩⟩⟩

/-- What a program gets with embedded definitions that pass the check are functions for the
definitions, under names that it takes, and no two things have one name, provided that this holds of
the parameters of each definition: that they are distinct, and none is one of the two words that the
check has not got. All other names are in order in any case. -/
theorem legal_of_check (h : e.check = .ok definitions) :
    ((∃ o, outline? e definitions = some o ∧ o.Legal) ↔
      ∀ d ∈ definitions, d.parameters.Nodup ∧ ∀ p ∈ d.parameters, p ≠ "_" ∧ p ≠ "Self") ∧
    ∀ o, outline? e definitions = some o → o.Named ∧ o.functions.map Function.meant =
      (definitions.map fun d => (d.name, d.parameters)) ++ [("locale", [])] := by
  refine ⟨?_, fun o ho => ⟨named_of_check h ho, meant_of_check h ho⟩⟩
  constructor
  · rintro ⟨o, ho, hl⟩ d hd
    exact ⟨(legal_iff_of_outline? h ho).1 hl d hd,
      (isSome_outline?_iff h).1 (Option.isSome_of_eq_some ho) d hd⟩
  · intro hall
    obtain ⟨o, ho⟩ := Option.isSome_iff_exists.1
      ((isSome_outline?_iff h).2 fun d hd => (hall d hd).2)
    exact ⟨o, ho, (legal_iff_of_outline? h ho).2 fun d hd => (hall d hd).1⟩

/-- Two phrases and a parameter that are named by keywords, one of them marked. -/
def kept : List Token :=
  [ .word "type" 1, .mark '=' 2, .literal (.text "Type") 3, .mark ';' 4, .word "r#match" 5,
    .group .round [.mark '$' 7, .word "type" 8] 6 9, .mark '=' 10,
    .literal (.text "\x7b$type\x7d!") 11, .mark ';' 12 ]

def keptRead : Embedded where
  language := "en"
  lines :=
    [ [⟨"type", 1, true⟩, ⟨"=", 2, false⟩, ⟨"\"Type\"", 3, true⟩, ⟨";", 4, false⟩],
      [⟨"match", 5, true⟩, ⟨"(", 6, false⟩, ⟨"$", 7, false⟩, ⟨"type", 8, true⟩, ⟨")", 9, false⟩,
        ⟨"=", 10, false⟩, ⟨"\"\x7b$type\x7d!\"", 11, true⟩, ⟨";", 12, false⟩] ]

def keptType : Definition where
  name := "type"
  parameters := []
  tags := []
  inherits := none
  selectors := []
  body := .template ⟨[.literal "Type"]⟩
  bodyless := false
  position := .start

def keptMatch : Definition where
  name := "match"
  parameters := ["type"]
  tags := []
  inherits := none
  selectors := []
  body := .template ⟨[.interpolation ⟨none, .parameter "type", []⟩, .literal "!"]⟩
  bodyless := false
  position := ⟨2, 1⟩

theorem legal_of_check_kept : read kept = .ok keptRead ∧
    keptRead.check = .ok [keptType, keptMatch] ∧
    ∃ o, outline? keptRead [keptType, keptMatch] = some o ∧ o.Legal ∧
      o.items = ["phrase_ids", "r#type", "r#match", "locale", "SOURCE", "LANGUAGE"] := by
  have hcheck : keptRead.check = .ok [keptType, keptMatch] :=
    eq_ok_of_toOption (by decide +kernel)
  obtain ⟨o, ho, hl⟩ := (legal_of_check hcheck).1.2 (by decide)
  have hitems : (outline? keptRead [keptType, keptMatch]).map Outline.items =
      some ["phrase_ids", "r#type", "r#match", "locale", "SOURCE", "LANGUAGE"] := by
    decide +kernel
  rw [ho] at hitems
  exact ⟨rfl, hcheck, o, ho, hl, Option.some.inj hitems⟩

/-- A phrase with the parameter `n` and another one. -/
def pair (parameter : String) : List Token :=
  [ .word "pair" 1,
    .group .round [.mark '$' 3, .word "n" 4, .mark ',' 5, .mark '$' 6, .word parameter 7] 2 8,
    .mark '=' 9, .literal (.text "pair") 10, .mark ';' 11 ]

def pairRead (parameter : String) : Embedded where
  language := "en"
  lines :=
    [[⟨"pair", 1, true⟩, ⟨"(", 2, false⟩, ⟨"$", 3, false⟩, ⟨"n", 4, true⟩, ⟨",", 5, false⟩,
      ⟨"$", 6, false⟩, ⟨parameter, 7, true⟩, ⟨")", 8, false⟩, ⟨"=", 9, false⟩,
      ⟨"\"pair\"", 10, true⟩, ⟨";", 11, false⟩]]

def pairDefinition (parameter : String) : Definition where
  name := "pair"
  parameters := ["n", parameter]
  tags := []
  inherits := none
  selectors := []
  body := .template ⟨[.literal "pair"]⟩
  bodyless := false
  position := .start

/-- The check lets `Self` through, which cannot be marked as a name, and a parameter that is there
twice. -/
theorem not_legal_of_check :
    (¬ ∀ (tokens : List Token) (e : Embedded) (definitions : List Definition),
      read tokens = .ok e → e.check = .ok definitions → (outline? e definitions).isSome) ∧
    ¬ ∀ (tokens : List Token) (e : Embedded) (definitions : List Definition) (o : Outline),
      read tokens = .ok e → e.check = .ok definitions → outline? e definitions = some o →
        o.Legal := by
  constructor
  · intro spelled
    have hcheck : (pairRead "Self").check = .ok [pairDefinition "Self"] :=
      eq_ok_of_toOption (by decide +kernel)
    exact absurd (spelled (pair "Self") _ _ rfl hcheck) (by decide +kernel)
  · intro legal
    have hcheck : (pairRead "n").check = .ok [pairDefinition "n"] :=
      eq_ok_of_toOption (by decide +kernel)
    obtain ⟨o, ho⟩ : ∃ o, outline? (pairRead "n") [pairDefinition "n"] = some o :=
      Option.isSome_iff_exists.1 (by decide +kernel)
    have hdistinct := (legal_iff_of_outline? hcheck ho).1 (legal (pair "n") _ _ _ rfl hcheck ho)
    exact absurd (hdistinct _ (List.mem_singleton_self _)) (by decide)

end Embedded

end Phrasebook
