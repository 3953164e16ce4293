import Phrasebook.Proofs.Settling

/-!
Writing definitions down. A script is what a definition says, with its texts as they are; written
with those texts quoted, one definition a line, scripts are read back as what they say.
-/

namespace Phrasebook

open Text

inductive Script.Body where
  | template (text : String)
  | entries (entries : List Draft.Entry)
deriving DecidableEq, Repr

structure Script where
  name : String
  parameters : List String
  tags : List String
  inherits : Option String
  selectors : List String
  body : Script.Body
deriving DecidableEq, Repr

namespace Script

/-! ### What can be written -/

def IsWord (s : String) : Prop :=
  s ≠ "" ∧ ∀ c ∈ s.toList, isWordChar c

def IsName (s : String) : Prop :=
  s.toList.head?.any isNameStart ∧ ∀ c ∈ s.toList, isWordChar c

-- The letters are looked at along the list: an instance for all characters would try each of them.
instance (s : String) : Decidable (IsWord s) :=
  @instDecidableAnd _ _ inferInstance (List.decidableBAll _ _)

instance (s : String) : Decidable (IsName s) :=
  @instDecidableAnd _ _ inferInstance (List.decidableBAll _ _)

def IsPart : KeyPart → Prop
  | .literal word => IsWord word
  | .wildcard label => ∀ word ∈ label, IsWord word

instance : DecidablePred IsPart
  | .literal word => inferInstanceAs (Decidable (IsWord word))
  | .wildcard label => inferInstanceAs (Decidable (∀ word ∈ label, IsWord word))

structure ValidEntry (e : Draft.Entry) : Prop where
  keys : e.keys ≠ []
  parts : ∀ key ∈ e.keys, key.parts ≠ []
  words : ∀ key ∈ e.keys, ∀ part ∈ key.parts, IsPart part

def Body.Valid : Body → Prop
  | template _ => True
  | entries es => es ≠ [] ∧ ∀ e ∈ es, ValidEntry e

structure Valid (s : Script) : Prop where
  name : IsName s.name
  small : s.name.toList.head?.any fun c => 'a' ≤ c ∧ c ≤ 'z'
  parameters : ∀ p ∈ s.parameters, IsName p
  tags : ∀ t ∈ s.tags, IsName t ∧ t ≠ "from" ∧ t ≠ "match"
  distinct : s.tags.Nodup
  inherits : ∀ p ∈ s.inherits, IsName p
  selectors : ∀ p ∈ s.selectors, IsName p
  body : s.body.Valid

/-! ### What is meant -/

def entryMeaning (e : Draft.Entry) : Except ParseError Entry := do
  let template ← Template.parse e.text
  return ⟨e.keys, template⟩

def Body.meaning : Body → Except ParseError Phrasebook.Body
  | template text => do
    let template ← Template.parse text
    return .template template
  | entries es => do
    let entries ← es.mapM entryMeaning
    return .entries entries

/-- The definition that a script says, as if it stood at the start of a source. -/
def meaning (s : Script) : Except ParseError Definition := do
  let body ← s.body.meaning
  return {
    name := s.name
    parameters := s.parameters
    tags := s.tags
    inherits := s.inherits
    selectors := s.selectors
    body
    bodyless := false
    position := .start }

/-! ### How it is written -/

def modifiers (s : Script) : List Modifier :=
  s.tags.map .tag ++ s.inherits.toList.map .inherits ++
    if s.selectors = [] then [] else [.selects s.selectors]

def Body.draft : Body → Draft.Body
  | template text => .template text
  | entries es => .entries es

def draft (s : Script) : Draft :=
  ⟨s.name, s.parameters, s.modifiers, s.body.draft⟩

/-- Pieces with a comma and a blank between them. -/
def listed (pieces : List (List Char)) : List Char :=
  List.intercalate [',', ' '] pieces

def writeParameter (name : String) : List Char :=
  '$' :: name.toList

def writeParameters : List String → List Char
  | [] => []
  | names => '(' :: listed (names.map writeParameter) ++ [')']

def writeModifier : Modifier → List Char
  | .tag name => ':' :: name.toList
  | .inherits name => ':' :: "from".toList ++ '(' :: writeParameter name ++ [')']
  | .selects names => ':' :: "match".toList ++ '(' :: listed (names.map writeParameter) ++ [')']
  | .unknown _ _ => []

def writeEntry (e : Draft.Entry) : List Char :=
  listed (e.keys.map fun key => key.toString.toList) ++ [':', ' '] ++ Quoted.quote e.text.toList

def writeBody : Body → List Char
  | .template text => Quoted.quote text.toList
  | .entries es => ['{', ' '] ++ listed (es.map writeEntry) ++ [' ', '}']

def write (s : Script) : List Char :=
  s.name.toList ++ writeParameters s.parameters ++ [' ', '=', ' '] ++
    s.modifiers.flatMap (fun m => writeModifier m ++ [' ']) ++ writeBody s.body ++ [';']

/-- One definition a line. -/
def writeAll (scripts : List Script) : List Char :=
  scripts.flatMap fun s => s.write ++ ['\n']

/-! ### What is written is spelled -/

open Source Template.Grammar

variable {rest : List Char}

theorem word_append {word : String} (hw : IsWord word) (he : Ended isWordChar rest) :
    Word isWordChar isWordChar (word.toList ++ rest) word rest := by
  refine ⟨⟨rfl, hw.2, he⟩, ?_⟩
  cases hl : word.toList with
  | nil => exact absurd (String.toList_eq_nil_iff.1 hl) hw.1
  | cons c more => exact ⟨c, rfl, hw.2 c (by simp [hl])⟩

theorem name_append {name : String} (hn : IsName name) (he : Ended isWordChar rest) :
    Name (name.toList ++ rest) name rest := by
  refine ⟨⟨rfl, hn.2, he⟩, ?_⟩
  have hfirst := hn.1
  cases hl : name.toList with
  | nil => simp [hl] at hfirst
  | cons c more => exact ⟨c, rfl, by simpa [hl] using hfirst⟩

theorem part_append {part : KeyPart} (hp : IsPart part) (he : Ended isWordChar rest) :
    Part (part.toString.toList ++ rest) part rest := by
  cases part with
  | literal word => exact .word (word_append hp he)
  | wildcard label =>
    cases label with
    | none => exact .star
    | some word =>
      rw [KeyPart.toString, String.toList_append]
      exact .labelled (word_append (hp word rfl) he)

theorem parts_append {key : EntryKey} (hne : key.parts ≠ []) (hp : ∀ part ∈ key.parts, IsPart part)
    (he : Ended isWordChar rest) : Parts (key.toString.toList ++ rest) key.parts rest := by
  obtain ⟨parts⟩ := key
  rw [EntryKey.toString]
  induction parts with
  | nil => exact absurd rfl hne
  | cons part parts ih =>
    obtain ⟨hpart, hparts⟩ := List.forall_mem_cons.1 hp
    cases parts with
    | nil =>
      rw [List.map_singleton, String.intercalate_singleton]
      exact .last (part_append hpart he)
    | cons next parts =>
      rw [List.map_cons, List.map_cons, String.intercalate_cons_cons, String.toList_append,
        String.toList_append, List.append_assoc, List.append_assoc]
      exact .more (part_append hpart (ended_cons (by decide)))
        (ih (List.cons_ne_nil _ _) hparts)

theorem listed_singleton {piece : List Char} : listed [piece] = piece :=
  List.intercalate_singleton

theorem listed_cons {piece : List Char} {pieces : List (List Char)} (hne : pieces ≠ []) :
    listed (piece :: pieces) = piece ++ ',' :: ' ' :: listed pieces := by
  rw [listed, List.intercalate_cons_of_ne_nil hne]
  simp [listed]

/-- What holds of the last piece of a list and whatever stands behind it, and of each further piece
in front, holds of the whole list. -/
theorem listed_append {α : Type} {write : α → List Char} {P : List Char → List α → Prop}
    {stop : List Char} {items : List α} (hne : items ≠ [])
    (last : ∀ item ∈ items, P (write item ++ stop) [item])
    (more : ∀ item ∈ items, ∀ text others, P text others →
      P (write item ++ ',' :: ' ' :: text) (item :: others)) :
    P (listed (items.map write) ++ stop) items := by
  induction items with
  | nil => exact absurd rfl hne
  | cons item items ih =>
    cases items with
    | nil =>
      rw [List.map_singleton, listed_singleton]
      exact last item List.mem_cons_self
    | cons next items =>
      have hrest := ih (List.cons_ne_nil _ _)
        (fun other hm => last other (List.mem_cons_of_mem _ hm))
        (fun other hm => more other (List.mem_cons_of_mem _ hm))
      rw [List.map_cons, listed_cons (by simp), List.append_assoc]
      exact more item List.mem_cons_self _ _ hrest

theorem keys_append {e : Draft.Entry} (he : ValidEntry e) :
    Keys (listed (e.keys.map fun key => key.toString.toList) ++ ':' :: rest) e.keys rest := by
  have hkey (c : Char) (hc : isWordChar c = false) (text : List Char) : ∀ key ∈ e.keys,
      Parts (key.toString.toList ++ c :: text) key.parts (c :: text) :=
    fun key hm => parts_append (he.parts key hm) (he.words key hm) (ended_cons hc)
  refine listed_append (P := fun text keys => Keys text keys rest) he.keys ?_ ?_
  · intro key hm
    exact .last (hkey ':' rfl _ key hm) (gap_sign rfl)
  · intro key hm text keys hkeys
    exact .more (hkey ',' rfl _ key hm) (gap_sign rfl) ((gap_blank rfl).2 hkeys.gap) hkeys

theorem spelled_spelling (c : Char) : Glyph.Spelled ⟨c, Quoted.spelling c⟩ := by
  unfold Quoted.spelling
  split
  · exact .quote
  · exact .backslash
  · exact .newline
  · exact .tab
  · next hq hb _ _ => exact .plain hq hb

theorem quotation_append (text : String) (rest : List Char) :
    Quotation (Quoted.quote text.toList ++ rest) text rest := by
  have hg : ∀ g ∈ text.toList.map fun c => Glyph.mk c (Quoted.spelling c), g.Spelled := by
    intro g hg
    obtain ⟨c, -, rfl⟩ := List.mem_map.1 hg
    exact spelled_spelling c
  have h : Quotation _ _ rest := .mk hg
  simpa [Quoted.quote, List.flatMap_map, Function.comp_def] using h

theorem entry_append {e : Draft.Entry} (he : ValidEntry e) :
    Source.Entry (writeEntry e ++ rest) e rest := by
  have hq := quotation_append e.text rest
  obtain ⟨more, hmore⟩ := hq.head
  have hg : Gap (' ' :: (Quoted.quote e.text.toList ++ rest))
      (Quoted.quote e.text.toList ++ rest) := by
    rw [gap_blank (by decide), hmore]
    exact gap_sign rfl
  have h := Source.Entry.mk (keys_append he) hg hq
  simpa [writeEntry] using h

theorem entries_append {es : List Draft.Entry} (hne : es ≠ []) (he : ∀ e ∈ es, ValidEntry e)
    (rest : List Char) :
    Entries (listed (es.map writeEntry) ++ ' ' :: '}' :: rest) es rest := by
  refine listed_append (P := fun text es => Entries text es rest) hne ?_ ?_
  · intro e hm
    exact .last (entry_append (he e hm)) ((gap_blank rfl).2 (gap_sign rfl))
  · intro e hm text es hes
    exact .more (entry_append (he e hm)) (gap_sign rfl) ((gap_blank rfl).2 hes.gap) hes

theorem body_append {b : Body} (hb : b.Valid) :
    Source.Body (writeBody b ++ ';' :: rest) b.draft rest := by
  cases b with
  | template text => exact .template (quotation_append text _) (gap_sign rfl)
  | entries es =>
    have he := entries_append hb.1 hb.2 (';' :: rest)
    have h := Source.Body.entries ((gap_blank (c := ' ') (by decide)).2 he.gap) he (gap_sign rfl)
    simpa [writeBody, Body.draft] using h

theorem selecting_append {names : List String} (hne : names ≠ []) (hn : ∀ n ∈ names, IsName n)
    (rest : List Char) :
    Selecting (listed (names.map writeParameter) ++ ')' :: rest) names rest := by
  refine listed_append (P := fun text names => Selecting text names rest) hne ?_ ?_
  · intro name hm
    exact .last (name_append (hn name hm) (ended_cons rfl)) (blanks_sign rfl)
  · intro name hm text names hs
    obtain ⟨more, rfl⟩ := hs.head
    have hblank : Blanks (' ' :: '$' :: more) ('$' :: more) := blanks_cons rfl (blanks_sign rfl)
    exact .more (name_append (hn name hm) (ended_cons rfl)) (blanks_sign rfl) hblank hs

theorem someParameters_append {names : List String} (hne : names ≠ []) (hn : ∀ n ∈ names, IsName n)
    (rest : List Char) :
    SomeParameters (listed (names.map writeParameter) ++ ')' :: rest) names rest := by
  refine listed_append (P := fun text names => SomeParameters text names rest) hne ?_ ?_
  · intro name hm
    exact .last (gap_sign rfl) (name_append (hn name hm) (ended_cons rfl)) (gap_sign rfl)
  · intro name hm text names hs
    exact .more (gap_sign rfl) (name_append (hn name hm) (ended_cons rfl)) (gap_sign rfl)
      (hs.blank rfl)

/-- Without parameters the blank before the equals sign is the gap behind the name. -/
theorem parameters_append {names : List String} (hn : ∀ n ∈ names, IsName n) (rest : List Char) :
    ∃ start stop, Gap (writeParameters names ++ ' ' :: '=' :: rest) start ∧
      Parameters start names stop ∧ Gap stop ('=' :: rest) := by
  cases names with
  | nil => exact ⟨_, _, (gap_blank (c := ' ') (by decide)).2 (gap_sign rfl), .absent, gap_sign rfl⟩
  | cons name names =>
    have hs := someParameters_append (List.cons_ne_nil name names) hn (' ' :: '=' :: rest)
    have hp := Parameters.some hs
    refine ⟨_, _, gap_sign rfl, ?_, (gap_blank (c := ' ') (by decide)).2 (gap_sign rfl)⟩
    simpa [writeParameters] using hp

/-- The modifiers that a script is written with. -/
def Writable : Modifier → Prop
  | .tag name => IsName name ∧ name ≠ "from" ∧ name ≠ "match"
  | .inherits name => IsName name
  | .selects names => names ≠ [] ∧ ∀ n ∈ names, IsName n
  | .unknown _ _ => False

theorem writable_modifiers {s : Script} (hs : s.Valid) : ∀ m ∈ s.modifiers, Writable m := by
  intro m hm
  rw [modifiers, List.mem_append, List.mem_append] at hm
  rcases hm with (hm | hm) | hm
  · obtain ⟨name, hname, rfl⟩ := List.mem_map.1 hm
    exact hs.tags name hname
  · obtain ⟨name, hname, rfl⟩ := List.mem_map.1 hm
    exact hs.inherits name (Option.mem_toList.1 hname)
  · split at hm
    · cases hm
    · next hne =>
      cases List.mem_singleton.1 hm
      exact ⟨hne, hs.selectors⟩

theorem modifier_append {m : Modifier} (hm : Writable m) :
    Source.Modifier (writeModifier m ++ ' ' :: rest) m (' ' :: rest) := by
  have hblank : Ended isWordChar (' ' :: rest) := ended_cons (by decide)
  have hdirective (name : String) (hn : IsName name) (more : List Char) :
      Name (name.toList ++ '(' :: more) name ('(' :: more) :=
    name_append hn (ended_cons (by decide))
  have hclose : Ended isWordChar (')' :: ' ' :: rest) := ended_cons (by decide)
  cases m with
  | tag name =>
    obtain ⟨hn, hfrom, hmatch⟩ := hm
    have h := Source.Modifier.tag (name_append hn hblank) hfrom hmatch
    exact h
  | inherits name =>
    have hn : IsName name := hm
    have h := Source.Modifier.inherits (hdirective "from" (by decide) _) (blanks_sign rfl)
      (name_append hn hclose) (blanks_sign rfl)
    simpa [writeModifier, writeParameter] using h
  | selects names =>
    have hnames := selecting_append hm.1 hm.2 (' ' :: rest)
    obtain ⟨more, hmore⟩ := hnames.head
    have hb : Blanks (listed (names.map writeParameter) ++ ')' :: ' ' :: rest)
        (listed (names.map writeParameter) ++ ')' :: ' ' :: rest) := by
      rw [hmore]
      exact blanks_sign rfl
    have h := Source.Modifier.selects (hdirective "match" (by decide) _) hb hnames
    simpa [writeModifier] using h
  | unknown name left => exact hm.elim

theorem tail_append {ms : List Modifier} {b : Body} (hm : ∀ m ∈ ms, Writable m) (hb : b.Valid)
    (rest : List Char) :
    Tail (ms.flatMap (fun m => writeModifier m ++ [' ']) ++ (writeBody b ++ ';' :: rest)) ms
      b.draft rest := by
  induction ms with
  | nil => exact .body (body_append hb)
  | cons m ms ih =>
    obtain ⟨hfirst, hothers⟩ := List.forall_mem_cons.1 hm
    have hrest := ih hothers
    have h := Tail.modifier (modifier_append hfirst) ((gap_blank (by decide)).2 hrest.gap) hrest
    simpa using h

theorem ended_writeParameters (names : List String) (rest : List Char) :
    Ended isWordChar (writeParameters names ++ ' ' :: rest) := by
  cases names <;> exact ended_cons (by decide)

theorem definition_append {s : Script} (hs : s.Valid) (rest : List Char) :
    Source.Definition (s.write ++ rest) s.draft rest := by
  have ht := tail_append (writable_modifiers hs) hs.body rest
  generalize htail : s.modifiers.flatMap (fun m => writeModifier m ++ [' ']) ++
    (writeBody s.body ++ ';' :: rest) = tail at ht
  have hb := (gap_blank (c := ' ') (by decide)).2 ht.gap
  obtain ⟨start, stop, hg, hp, he⟩ := parameters_append hs.parameters (' ' :: tail)
  have hn := name_append hs.name (ended_writeParameters s.parameters ('=' :: ' ' :: tail))
  obtain ⟨c, hc, hsmall⟩ := (Option.any_eq_true _ _).1 hs.small
  have hhead : (s.name.toList ++
      (writeParameters s.parameters ++ ' ' :: '=' :: ' ' :: tail)).head? = some c := by
    rw [List.head?_append, hc]
    rfl
  have h := Source.Definition.mk hhead (of_decide_eq_true hsmall) hn hg hp he hb ht
  simpa [write, draft, ← htail] using h

theorem definitions_append {scripts : List Script} (hs : ∀ s ∈ scripts, s.Valid) :
    Definitions (writeAll scripts) (scripts.map draft) ∧
      Gap (writeAll scripts) (writeAll scripts) := by
  induction scripts with
  | nil => exact ⟨.nil, rfl⟩
  | cons s scripts ih =>
    obtain ⟨hfirst, hothers⟩ := List.forall_mem_cons.1 hs
    obtain ⟨hrest, hgap⟩ := ih hothers
    have hd := definition_append hfirst ('\n' :: writeAll scripts)
    have htext : writeAll (s :: scripts) = s.write ++ '\n' :: writeAll scripts := by
      simp [writeAll]
    rw [htext]
    exact ⟨.cons hd ((gap_blank (by decide)).2 hgap) hrest, hd.gap⟩

/-- What is written spells what was to be written. -/
theorem source_writeAll {scripts : List Script} (hs : ∀ s ∈ scripts, s.Valid) :
    Source (writeAll scripts) (scripts.map draft) :=
  ⟨_, (definitions_append hs).2, (definitions_append hs).1⟩

/-! ### What is written is meant -/

theorem foldlM_tags {header : RawDefinition.Header} {tags : List String}
    (h : (header.tags ++ tags).Nodup) : (tags.map Modifier.tag).foldlM Draft.addModifier? header =
      some { header with tags := header.tags ++ tags } := by
  induction tags generalizing header with
  | nil => simp
  | cons tag tags ih =>
    have hnew : tag ∉ header.tags := fun hm =>
      List.disjoint_of_nodup_append h hm List.mem_cons_self
    rw [List.map_cons, List.foldlM_cons, Draft.addModifier?, if_neg hnew]
    have hrest := @ih { header with tags := header.tags ++ [tag] } (by simpa using h)
    simpa using hrest

theorem header?_modifiers {s : Script} (hs : s.Valid) :
    Draft.header? s.modifiers = some ⟨s.tags, s.inherits, s.selectors⟩ := by
  rw [Draft.header?, modifiers, List.foldlM_append, List.foldlM_append,
    foldlM_tags (by simpa using hs.distinct)]
  cases s.inherits with
  | none =>
    by_cases hsel : s.selectors = [] <;> simp [hsel, Draft.addModifier?]
  | some name =>
    by_cases hsel : s.selectors = [] <;> simp [hsel, Draft.addModifier?]

theorem settle?_body (inherits : Option String) (b : Body) :
    b.draft.settle? inherits = b.meaning.toOption := by
  cases b with
  | template text =>
    rw [Body.meaning, toOption_bind_pure]
    rfl
  | entries es =>
    have hentry (e : Draft.Entry) : (entryMeaning e).toOption = e.settle? := by
      rw [entryMeaning, toOption_bind_pure]
      rfl
    simp only [Body.meaning, toOption_bind_pure, toOption_mapM, hentry]
    rfl

theorem settle?_draft {s : Script} (hs : s.Valid) : s.draft.settle? = s.meaning.toOption := by
  have hbody : (s.body.draft == .absent) = false := by
    cases s.body <;> rfl
  rw [Draft.settle?, draft, header?_modifiers hs, meaning, toOption_bind_pure,
    ← settle?_body s.inherits]
  simp only [Option.bind_eq_bind, Option.bind_some, hbody]
  cases s.body.draft.settle? s.inherits <;> rfl

/-- Definitions that are written down are read back as what they say, in order. -/
theorem parseAll_writeAll {scripts : List Script} {definitions : List Definition}
    (hs : ∀ s ∈ scripts, s.Valid) (hm : scripts.mapM meaning = .ok definitions) :
    ∃ read, Definition.parseAll (String.ofList (writeAll scripts)) = .ok read ∧
      read.map Definition.placeless = definitions := by
  refine Definition.parseAll_iff.2 ⟨scripts.map draft, ?_, ?_⟩
  · rw [String.toList_ofList]
    exact source_writeAll hs
  · have hsettle : ∀ s ∈ scripts, (Draft.settle? ∘ draft) s = (fun s => s.meaning.toOption) s :=
      fun s hmem => settle?_draft (hs s hmem)
    rw [List.mapM_map, mapM_congr hsettle, ← toOption_mapM, hm]
    rfl

/-- A script with modifiers of all kinds, stars in its keys, and a text that needs escapes. -/
def counting : Script where
  name := "count"
  parameters := ["n", "e"]
  tags := ["fem", "an"]
  inherits := some "e"
  selectors := ["n", "e"]
  body := .entries [
    ⟨[⟨[.literal "1", .literal "masc"]⟩, ⟨[.literal "1", .wildcard (some "fem")]⟩],
      "\"one\"\n\x7b$e\x7d"⟩,
    ⟨[⟨[.wildcard (some "other"), .wildcard none]⟩], "C:\\ \x7b\x7bmany\x7d\x7d"⟩]

example : String.ofList counting.write =
    "count($n, $e) = :fem :an :from($e) :match($n, $e) " ++
      "\x7b 1.masc, 1.*fem: \"\\\"one\\\"\\n\x7b$e\x7d\", " ++
      "*other.*: \"C:\\\\ \x7b\x7bmany\x7d\x7d\" \x7d;" := by
  decide +kernel

theorem parseAll_writeAll_counting :
    ∃ read, Definition.parseAll (String.ofList (writeAll [counting])) = .ok read ∧
      read.map Definition.placeless = [{
        name := "count"
        parameters := ["n", "e"]
        tags := ["fem", "an"]
        inherits := some "e"
        selectors := ["n", "e"]
        body := .entries [
          ⟨[⟨[.literal "1", .literal "masc"]⟩, ⟨[.literal "1", .wildcard (some "fem")]⟩],
            ⟨[.literal "\"one\"\n", .interpolation ⟨none, .parameter "e", []⟩]⟩⟩,
          ⟨[⟨[.wildcard (some "other"), .wildcard none]⟩], ⟨[.literal "C:\\ \x7bmany\x7d"]⟩⟩]
        bodyless := false
        position := .start }] := by
  refine parseAll_writeAll (List.forall_mem_singleton.2 ?_) (by decide +kernel)
  constructor
  case body =>
    refine ⟨by decide, List.forall_mem_cons.2 ⟨?_, List.forall_mem_singleton.2 ?_⟩⟩
    · exact ⟨by decide, by decide, by decide⟩
    · exact ⟨by decide, by decide, by decide⟩
  all_goals decide

end Script

end Phrasebook
