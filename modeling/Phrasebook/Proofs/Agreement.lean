import Phrasebook.Proofs.Alongside

/-!
When definitions mean the same in a program as in a source of their own. They do exactly when the
program can spell all their atoms, and every number in their keys is spelled in the digits of its
value.
-/

namespace Phrasebook.Embedded

open Text

/-! ### Tokens of a text -/

theorem Spells.word {fresh : Bool} {tokens : List Token} {atoms : List Atom} {name : String}
    {place : Nat} (h : Spells false tokens atoms) :
    Spells fresh (.word name place :: tokens) (.word name :: atoms) :=
  .token (.word .nil) rfl h

theorem Spells.mark {fresh : Bool} {tokens : List Token} {atoms : List Atom} {c : Char}
    {place : Nat} (hc : c ≠ '#') (hs : c ≠ ';') (h : Spells false tokens atoms) :
    Spells fresh (.mark c place :: tokens) (.mark c :: atoms) :=
  .token (.mark hc .nil) (by simpa [Token.isMark] using hs) h

theorem Spells.group {fresh : Bool} {tokens inside : List Token} {atoms inner : List Atom}
    {bracket : Bracket} {opened closed : Nat} (hi : Within inside inner)
    (h : Spells false tokens atoms) :
    Spells fresh (.group bracket inside opened closed :: tokens)
      (.opening bracket :: (inner ++ .closing bracket :: atoms)) := by
  have hg : Within [.group bracket inside opened closed]
      (.opening bracket :: (inner ++ [.closing bracket])) := .group hi .nil
  have hs : Spells fresh (.group bracket inside opened closed :: tokens) _ := .token hg rfl h
  simpa using hs

/-! ### What can be spelled -/

theorem isSome_text? {atom : Atom} : atom.text?.isSome ↔
    (∀ spelling, .literal spelling = atom → Literal.read spelling ≠ .other) ∧
      .note true ≠ atom := by
  cases atom with
  | literal spelling =>
    rw [Atom.text?]
    cases hl : Literal.read spelling <;> simp [Literal.spelled?, hl]
  | note inner => cases inner <;> simp [Atom.text?]
  | _ => simp [Atom.text?]

theorem isSome_spell? {atoms : List Atom} {p : Pen} : (p.spell? atoms).isSome ↔
    (∀ spelling, .literal spelling ∈ atoms → Literal.read spelling ≠ .other) ∧
      .note true ∉ atoms := by
  induction atoms generalizing p with
  | nil => simp [Pen.spell?]
  | cons atom atoms ih =>
    have hcons : (p.spell? (atom :: atoms)).isSome ↔
        atom.text?.isSome ∧ ((p.after atom).spell? atoms).isSome := by
      rw [Pen.spell?]
      cases atom.text? <;> simp
    rw [hcons, isSome_text?, ih]
    simp only [List.mem_cons, not_or, or_imp, forall_and]
    exact and_and_and_comm

theorem read_eq_ok {tokens : List Token} {atoms : List Atom} (h : Spells true tokens atoms)
    {spelled : List Char} : (∃ e, read tokens = .ok e ∧ e.source.toList = spelled) ↔
      (Pen.mk 0 .nothing).spell? atoms = some spelled := by
  rw [← h.read]
  cases read tokens <;> simp [Except.toOption]

/-! ### Texts without escapes -/

/-- A character that is written between quotes as it is, and read so by a program. -/
def IsPlain (c : Char) : Prop :=
  c ≠ '"' ∧ c ≠ '\\' ∧ c ≠ '\r'

variable {content : List Char}

theorem Literal.escaped?_plain (h : ∀ c ∈ content, IsPlain c) :
    escaped? (content ++ ['"']) = some content := by
  induction content with
  | nil => rw [List.nil_append, escaped?]
  | cons c content ih =>
    obtain ⟨⟨hq, hb, hr⟩, hothers⟩ := List.forall_mem_cons.1 h
    rw [List.cons_append, escaped?, ih hothers]
    · rfl
    · exact hq
    · rintro _ rfl
      exact absurd rfl hr
    · rintro _ rfl
      exact absurd rfl hb
    · rintro _ rfl
      exact absurd rfl hb
    · exact hb

theorem quoted_plain (h : ∀ c ∈ content, IsPlain c) :
    Quoted.quoted ('"' :: (content ++ ['"'])) =
      .done ⟨content.map fun c => ⟨c, [c]⟩, content.length + 2⟩ [] := by
  refine quoted_eq_done.2 ⟨?_, ?_, by simp⟩
  · intro g hg
    obtain ⟨c, hc, rfl⟩ := List.mem_map.1 hg
    exact .plain (h c hc).1 (h c hc).2.1
  · simp [List.flatMap_map]

/-- Texts without escapes and carriage returns are the same for a program. -/
theorem sameTexts_of_plain {atoms : List Atom}
    (h : ∀ spelling, .literal spelling ∈ atoms → spelling.head? = some '"' →
      ∃ content, spelling = '"' :: (content ++ ['"']) ∧ ∀ c ∈ content, IsPlain c) :
    SameTexts atoms := by
  intro spelling q hm hq
  obtain ⟨-, hspelling, -⟩ := quoted_eq_done.1 hq
  obtain ⟨content, rfl, hplain⟩ := h spelling hm (by rw [hspelling]; rfl)
  cases (quoted_plain hplain).symm.trans hq
  rw [Literal.read, Literal.escaped?_plain hplain]
  simp [Literal.ofText?, Quoted.text, Function.comp_def]

/-! ### What is read -/

open Definition (parseAll placeless)

/-- The source that is spelled from the atoms of a source has the same definitions, with their
numbers written anew. -/
theorem parseAll_respelled {source : String} {definitions : List Definition}
    {spelled : List Char} (h : parseAll source = .ok definitions)
    (ha : Along ⟨0, .nothing⟩ source.toList spelled) :
    ∃ again, parseAll (String.ofList spelled) = .ok again ∧
      again.map placeless = definitions.map (placeless ∘ Definition.renumber) := by
  obtain ⟨drafts, hsource, hsettle⟩ := Definition.parseAll_iff.1 ⟨definitions, h, rfl⟩
  refine Definition.parseAll_iff.2 ⟨drafts.map Draft.renumber, ?_, ?_⟩
  · rw [String.toList_ofList]
    exact hsource.respelled ha
  · rw [Draft.mapM_settle?_renumber, hsettle, Option.map_some, List.map_map]
    rfl

theorem placeless_renumber_eq {d : Definition} :
    placeless d.renumber = placeless d ↔ d.renumber = d := by
  rw [Definition.renumber_eq_self]
  constructor
  · exact congrArg Definition.body
  · intro h
    rw [Definition.renumber, h]

/-- Definitions that are embedded in a program, against the same text read as a source. Nothing is
said of a text with a documenting comment inside a definition, which `Spells` has only in front of
one, nor of a text with a name right before a quote, where `Atom.all?` fails: there `r`, `b` and `c`
begin a literal of another kind, and any other name is refused by the program. -/
theorem read_agrees_iff {source : String} {definitions : List Definition} {atoms : List Atom}
    {tokens : List Token} (hp : parseAll source = .ok definitions)
    (ha : Atom.all? source.toList = some atoms) (hs : SameTexts atoms)
    (ht : Spells true tokens atoms) :
    (∃ e again, read tokens = .ok e ∧ parseAll e.source = .ok again ∧
      again.map placeless = definitions.map placeless) ↔
    (∀ spelling, .literal spelling ∈ atoms → Literal.read spelling ≠ .other) ∧
      .note true ∉ atoms ∧ ∀ d ∈ definitions, d.renumber = d := by
  rw [← and_assoc, ← isSome_spell? (p := ⟨0, .nothing⟩), Option.isSome_iff_exists]
  have hkept : definitions.map (placeless ∘ Definition.renumber) = definitions.map placeless ↔
      ∀ d ∈ definitions, d.renumber = d := by
    rw [List.map_inj_left]
    exact forall₂_congr fun d _ => placeless_renumber_eq
  constructor
  · rintro ⟨e, again, hread, hagain, hmap⟩
    have hspell := (read_eq_ok ht).1 ⟨e, hread, rfl⟩
    refine ⟨⟨_, hspell⟩, hkept.1 ?_⟩
    obtain ⟨again', hagain', hmap'⟩ := parseAll_respelled hp ⟨atoms, ha, hs, hspell⟩
    rw [String.ofList_toList] at hagain'
    cases hagain.symm.trans hagain'
    exact hmap'.symm.trans hmap
  · rintro ⟨⟨spelled, hspell⟩, hall⟩
    obtain ⟨e, hread, rfl⟩ := (read_eq_ok ht).2 hspell
    obtain ⟨again, hagain, hmap⟩ := parseAll_respelled hp ⟨atoms, ha, hs, hspell⟩
    rw [String.ofList_toList] at hagain
    exact ⟨e, again, hread, hagain, hmap.trans (hkept.2 hall)⟩

/-! ### A text that agrees -/

/-- A number and the two texts of the sources below. -/
theorem sameTexts_of_words {atoms : List Atom} {number : List Char} (hn : number.head? ≠ some '"')
    (h : ∀ spelling, .literal spelling ∈ atoms →
      spelling = number ∨ spelling = "\"one\"".toList ∨ spelling = "\"many\"".toList) :
    SameTexts atoms := sameTexts_of_plain fun spelling hm hq => by
  rcases h spelling hm with rfl | rfl | rfl
  · exact absurd hq hn
  · exact ⟨"one".toList, by decide, by simp [IsPlain]⟩
  · exact ⟨"many".toList, by decide, by simp [IsPlain]⟩

/-- The number of a key stands before a name, so that it is no fraction. -/
def noted : String :=
  "/// How many.\ncount($n) = :match($n) \x7b 1.fem: \"one\", *other: \"many\" \x7d;"

def notedAtoms : List Atom :=
  [.note false, .word "count", .opening .round, .mark '$', .word "n", .closing .round, .mark '=',
    .mark ':', .word "match", .opening .round, .mark '$', .word "n", .closing .round,
    .opening .curly, .literal "1".toList, .mark '.', .word "fem", .mark ':',
    .literal "\"one\"".toList, .mark ',', .mark '*', .word "other", .mark ':',
    .literal "\"many\"".toList, .closing .curly, .mark ';']

def notedTokens : List Token :=
  [.mark '#' 0, .group .square [.word "doc" 2, .mark '=' 3, .literal (.text " How many.") 4] 1 5,
    .word "count" 6, .group .round [.mark '$' 8, .word "n" 9] 7 10, .mark '=' 11, .mark ':' 12,
    .word "match" 13, .group .round [.mark '$' 15, .word "n" 16] 14 17,
    .group .curly [.literal (Literal.read "1".toList) 19, .mark '.' 20, .word "fem" 21,
      .mark ':' 22, .literal (Literal.read "\"one\"".toList) 23, .mark ',' 24, .mark '*' 25,
      .word "other" 26, .mark ':' 27, .literal (Literal.read "\"many\"".toList) 28] 18 29,
    .mark ';' 30]

def notedDefinitions : List Definition := [{
  name := "count"
  parameters := ["n"]
  tags := []
  inherits := none
  selectors := ["n"]
  body := .entries [⟨[⟨[.literal "1", .literal "fem"]⟩], ⟨[.literal "one"]⟩⟩,
    ⟨[⟨[.wildcard (some "other")]⟩], ⟨[.literal "many"]⟩⟩]
  bodyless := false
  position := ⟨2, 1⟩ }]

theorem spells_noted : Spells true notedTokens notedAtoms := by
  have parameter (place : Nat) : Within [.mark '$' place, .word "n" (place + 1)]
      [.mark '$', .word "n"] := .mark (by decide) (.word .nil)
  have arms : Within
      [.literal (Literal.read "1".toList) 19, .mark '.' 20, .word "fem" 21, .mark ':' 22,
        .literal (Literal.read "\"one\"".toList) 23, .mark ',' 24, .mark '*' 25, .word "other" 26,
        .mark ':' 27, .literal (Literal.read "\"many\"".toList) 28]
      [.literal "1".toList, .mark '.', .word "fem", .mark ':', .literal "\"one\"".toList, .mark ',',
        .mark '*', .word "other", .mark ':', .literal "\"many\"".toList] :=
    .literal (.mark (by decide) (.word (.mark (by decide) (.literal (.mark (by decide)
      (.mark (by decide) (.word (.mark (by decide) (.literal .nil)))))))))
  exact .note (.word (.group (parameter 8) (.mark (by decide) (by decide) (.mark (by decide)
    (by decide) (.word (.group (parameter 15) (.group arms (.semicolon .nil))))))))

theorem read_agrees_noted : ∃ e again, read notedTokens = .ok e ∧ parseAll e.source = .ok again ∧
    again.map placeless = notedDefinitions.map placeless := by
  have hp : parseAll noted = .ok notedDefinitions := eq_ok_of_toOption (by decide +kernel)
  have ha : Atom.all? noted.toList = some notedAtoms := by decide +kernel
  have literals (spelling : List Char) (hm : .literal spelling ∈ notedAtoms) :
      spelling = "1".toList ∨ spelling = "\"one\"".toList ∨ spelling = "\"many\"".toList := by
    simpa only [notedAtoms, List.mem_cons, Atom.literal.injEq, reduceCtorEq, false_or,
      List.not_mem_nil, or_false] using hm
  refine (read_agrees_iff hp ha (sameTexts_of_words (by decide) literals) spells_noted).2
    ⟨fun spelling hm => ?_, by decide, by decide +kernel⟩
  rcases literals spelling hm with rfl | rfl | rfl <;> decide +kernel

/-! ### A text that does not -/

/-- A key whose number stands before a star. -/
def starred : String :=
  "count($n, $e) = :match($n, $e) \x7b 1.*fem: \"one\", *other.*: \"many\" \x7d;"

def starredAtoms : List Atom :=
  [.word "count", .opening .round, .mark '$', .word "n", .mark ',', .mark '$', .word "e",
    .closing .round, .mark '=', .mark ':', .word "match", .opening .round, .mark '$', .word "n",
    .mark ',', .mark '$', .word "e", .closing .round, .opening .curly, .literal "1.".toList,
    .mark '*', .word "fem", .mark ':', .literal "\"one\"".toList, .mark ',', .mark '*',
    .word "other", .mark '.', .mark '*', .mark ':', .literal "\"many\"".toList, .closing .curly,
    .mark ';']

def starredTokens : List Token :=
  let parameters (place : Nat) : List Token :=
    [.mark '$' place, .word "n" (place + 1), .mark ',' (place + 2), .mark '$' (place + 3),
      .word "e" (place + 4)]
  [.word "count" 0, .group .round (parameters 2) 1 7, .mark '=' 8, .mark ':' 9, .word "match" 10,
    .group .round (parameters 12) 11 17,
    .group .curly [.literal (Literal.read "1.".toList) 19, .mark '*' 20, .word "fem" 21,
      .mark ':' 22, .literal (Literal.read "\"one\"".toList) 23, .mark ',' 24, .mark '*' 25,
      .word "other" 26, .mark '.' 27, .mark '*' 28, .mark ':' 29,
      .literal (Literal.read "\"many\"".toList) 30] 18 31, .mark ';' 32]

theorem spells_starred : Spells true starredTokens starredAtoms := by
  have parameters (place : Nat) : Within
      [.mark '$' place, .word "n" (place + 1), .mark ',' (place + 2), .mark '$' (place + 3),
        .word "e" (place + 4)]
      [.mark '$', .word "n", .mark ',', .mark '$', .word "e"] :=
    .mark (by decide) (.word (.mark (by decide) (.mark (by decide) (.word .nil))))
  have arms : Within
      [.literal (Literal.read "1.".toList) 19, .mark '*' 20, .word "fem" 21, .mark ':' 22,
        .literal (Literal.read "\"one\"".toList) 23, .mark ',' 24, .mark '*' 25, .word "other" 26,
        .mark '.' 27, .mark '*' 28, .mark ':' 29, .literal (Literal.read "\"many\"".toList) 30]
      [.literal "1.".toList, .mark '*', .word "fem", .mark ':', .literal "\"one\"".toList,
        .mark ',', .mark '*', .word "other", .mark '.', .mark '*', .mark ':',
        .literal "\"many\"".toList] :=
    .literal (.mark (by decide) (.word (.mark (by decide) (.literal (.mark (by decide)
      (.mark (by decide) (.word (.mark (by decide) (.mark (by decide) (.mark (by decide)
        (.literal .nil)))))))))))
  exact .word (.group (parameters 2) (.mark (by decide) (by decide) (.mark (by decide) (by decide)
    (.word (.group (parameters 12) (.group arms (.semicolon .nil)))))))

/-- A text that is a source of definitions need not be one for a program, though it takes it apart
and finds the same texts in it: behind the digits of a number, a full stop belongs to the number. -/
theorem not_read_agrees : ¬ ∀ (source : String) (definitions : List Definition)
    (atoms : List Atom) (tokens : List Token), parseAll source = .ok definitions →
      Atom.all? source.toList = some atoms → SameTexts atoms → Spells true tokens atoms →
      ∃ e again, read tokens = .ok e ∧ parseAll e.source = .ok again ∧
        again.map placeless = definitions.map placeless := by
  intro h
  have hp : (parseAll starred).toOption.isSome := by decide +kernel
  obtain ⟨definitions, hp⟩ := Option.isSome_iff_exists.1 hp
  have ha : Atom.all? starred.toList = some starredAtoms := by decide +kernel
  have literals (spelling : List Char) (hm : .literal spelling ∈ starredAtoms) :
      spelling = "1.".toList ∨ spelling = "\"one\"".toList ∨ spelling = "\"many\"".toList := by
    simpa only [starredAtoms, List.mem_cons, Atom.literal.injEq, reduceCtorEq, false_or,
      List.not_mem_nil, or_false] using hm
  have hs : SameTexts starredAtoms := sameTexts_of_words (by decide) literals
  obtain ⟨e, again, hread, -⟩ := h starred definitions starredAtoms starredTokens
    (eq_ok_of_toOption hp) ha hs spells_starred
  have hnone : (read starredTokens).toOption.isSome = false := by decide +kernel
  simp [hread, Except.toOption] at hnone

end Phrasebook.Embedded
