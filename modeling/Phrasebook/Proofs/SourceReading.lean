import Phrasebook.Proofs.Readers

/-!
Reading sources of definitions: what the readers are done with is what the grammar says that the
characters spell.
-/

namespace Phrasebook

open Text Template.Grammar Source Reader

section

variable {text rest : List Char}

/-! ### Gaps -/

theorem gap_cons {c : Char} (hb : isBlank c = false) (hc : c ≠ '/') :
    Gap (c :: text) rest ↔ rest = c :: text := by
  simp [Gap, skipGap, hb, hc, eq_comm]

theorem gap_blank {c : Char} (hb : isBlank c) : Gap (c :: text) rest ↔ Gap text rest := by
  have hc : c ≠ '/' := by
    rintro rfl
    exact absurd hb (by decide)
  simp [Gap, skipGap, hb, hc]

/-! ### Texts in quotes -/

theorem hexRun_append {count value n : Nat} {digits : List Char}
    (h : Quoted.hexRun count digits value = (n, [])) (rest : List Char) :
    Quoted.hexRun count (digits ++ '}' :: rest) value = (n, '}' :: rest) := by
  induction digits generalizing count value with
  | nil => cases count <;> cases h <;> rfl
  | cons c digits ih =>
    cases count with
    | zero => cases h
    | succ count =>
      simp only [Quoted.hexRun, List.cons_append] at h ⊢
      split
      · next d hd =>
        rw [hd] at h
        exact ih h
      · next hd =>
        rw [hd] at h
        cases h

theorem exists_of_hexRun {count value n : Nat} (h : Quoted.hexRun count text value = (n, rest)) :
    ∃ digits, text = digits ++ rest ∧ Quoted.hexRun count digits value = (n, []) := by
  induction text generalizing count value with
  | nil => cases count <;> cases h <;> exact ⟨[], rfl, rfl⟩
  | cons c text ih =>
    cases count with
    | zero =>
      cases h
      exact ⟨[], rfl, rfl⟩
    | succ count =>
      rw [Quoted.hexRun] at h
      split at h
      · next d hd =>
        obtain ⟨digits, rfl, hr⟩ := ih h
        refine ⟨c :: digits, rfl, ?_⟩
        rw [Quoted.hexRun, hd]
        exact hr
      · cases h
        exact ⟨[], rfl, rfl⟩

theorem letterEscape_eq_done {c : Char} : Quoted.letterEscape text = .done c rest ↔
    ∃ letter, text = letter :: rest ∧
      (letter, c) ∈ [('n', '\n'), ('t', '\t'), ('"', '"'), ('\\', '\\')] := by
  rw [Quoted.letterEscape, ofOption_eq_done]
  constructor
  · intro h
    split at h <;> cases h <;> exact ⟨_, rfl, by simp⟩
  · rintro ⟨letter, rfl, h⟩
    simp only [List.mem_cons, Prod.mk.injEq, List.not_mem_nil, or_false] at h
    rcases h with ⟨rfl, rfl⟩ | ⟨rfl, rfl⟩ | ⟨rfl, rfl⟩ | ⟨rfl, rfl⟩ <;> rfl

theorem hexOpening_eq_done {u : Unit} :
    Quoted.hexOpening text = .done u rest ↔ text = 'u' :: '{' :: rest := by
  rw [Quoted.hexOpening, ofOption_eq_done]
  constructor
  · intro h
    split at h <;> cases h
    rfl
  · rintro rfl
    rfl

theorem hexDigits_eq_done {n : Nat} : Quoted.hexDigits text = .done n rest ↔
    ∃ c more, text = c :: more ∧ (hexDigit? c).isSome ∧ Quoted.hexRun 6 text 0 = (n, rest) := by
  rw [Quoted.hexDigits, ofOption_eq_done]
  cases text with
  | nil => simp
  | cons c more => simp only [Option.ite_none_right_eq_some, Option.some.injEq]; grind

theorem hexEscape_eq_done {c : Char} : Quoted.hexEscape text = .done c rest ↔
    ∃ digits n, digits ≠ [] ∧ text = 'u' :: '{' :: (digits ++ '}' :: rest) ∧
      Quoted.hexRun 6 digits 0 = (n, []) ∧ scalar? n = some c := by
  have hvalue (n : Nat) (rest : List Char) : (do
        Quoted.hexOpening
        let value ← Quoted.hexDigits
        char '}'
        return value : Reader Nat) text = .done n rest ↔
      ∃ digits, digits ≠ [] ∧ text = 'u' :: '{' :: (digits ++ '}' :: rest) ∧
        Quoted.hexRun 6 digits 0 = (n, []) := by
    simp only [bind_eq_done, pure_eq_done, hexOpening_eq_done, hexDigits_eq_done, char_eq_done]
    constructor
    · rintro ⟨_, _, rfl, n, _, ⟨c, more, rfl, hc, hrun⟩, _, _, rfl, rfl, rfl⟩
      obtain ⟨digits, hd, hr⟩ := exists_of_hexRun hrun
      refine ⟨digits, ?_, by rw [hd], hr⟩
      rintro rfl
      cases hd
      exact absurd hc (by decide)
    · rintro ⟨digits, hne, rfl, hrun⟩
      obtain ⟨c, more, rfl⟩ := List.exists_cons_of_ne_nil hne
      have hc : (hexDigit? c).isSome := by
        cases hd : hexDigit? c with
        | none => simp [Quoted.hexRun, hd] at hrun
        | some d => rfl
      exact ⟨(), _, rfl, n, _, ⟨c, _, rfl, hc, hexRun_append hrun rest⟩, (), _, rfl, rfl, rfl⟩
  unfold Quoted.hexEscape
  dsimp only
  constructor
  · intro h
    split at h
    · next n after hn =>
      split at h
      · next c hc =>
        cases h
        obtain ⟨digits, hne, ht, hr⟩ := (hvalue _ _).1 hn
        exact ⟨digits, n, hne, ht, hr, hc⟩
      · cases h
    · cases h
    · cases h
  · rintro ⟨digits, n, hne, ht, hr, hc⟩
    rw [(hvalue n rest).2 ⟨digits, hne, ht, hr⟩]
    simp only [hc]

theorem declines_letterEscape (h : text.head? = some 'u') :
    Declines Quoted.letterEscape text := by
  obtain ⟨more, rfl⟩ := List.head?_eq_some_iff.1 h
  exact declines_ofOption rfl

theorem escape_eq_done {c : Char} : Quoted.escape text = .done c rest ↔
    ∃ letters, text = letters ++ rest ∧ Glyph.Spelled ⟨c, '\\' :: letters⟩ := by
  rw [Quoted.escape, orElse_eq_done, letterEscape_eq_done, hexEscape_eq_done]
  constructor
  · rintro (⟨letter, rfl, h⟩ | ⟨-, digits, n, hne, rfl, hr, hc⟩)
    · refine ⟨[letter], rfl, ?_⟩
      simp only [List.mem_cons, Prod.mk.injEq, List.not_mem_nil, or_false] at h
      rcases h with ⟨rfl, rfl⟩ | ⟨rfl, rfl⟩ | ⟨rfl, rfl⟩ | ⟨rfl, rfl⟩
      · exact .newline
      · exact .tab
      · exact .quote
      · exact .backslash
    · exact ⟨'u' :: '{' :: (digits ++ ['}']), by simp, .codePoint hne hr hc⟩
  · rintro ⟨letters, rfl, h⟩
    generalize hl : '\\' :: letters = spelling at h
    cases h with
    | plain _ hb => exact absurd (List.cons.inj hl).1.symm hb
    | newline => cases hl; exact .inl ⟨_, rfl, by simp⟩
    | tab => cases hl; exact .inl ⟨_, rfl, by simp⟩
    | quote => cases hl; exact .inl ⟨_, rfl, by simp⟩
    | backslash => cases hl; exact .inl ⟨_, rfl, by simp⟩
    | codePoint hne hd hn =>
      cases hl
      exact .inr ⟨declines_letterEscape rfl, _, _, hne, by simp, hd, hn⟩

theorem glyph_escape {c : Char} {letters : List Char} (h : Glyph.Spelled ⟨c, '\\' :: letters⟩) :
    Quoted.glyph ('\\' :: (letters ++ rest)) = .done ⟨c, '\\' :: letters⟩ rest := by
  have hc : commit (labelled "escape sequence" Quoted.escape) (letters ++ rest) = .done c rest := by
    rw [commit_eq_done, labelled_eq_done, escape_eq_done]
    exact ⟨letters, rfl, h⟩
  rw [Quoted.glyph, hc]
  simp

/-- A character between quotes ends where its spelling does. -/
theorem glyph_eq_done {g : Glyph} :
    Quoted.glyph text = .done g rest ↔ g.Spelled ∧ text = g.spelling ++ rest := by
  constructor
  · intro h
    unfold Quoted.glyph at h
    split at h
    · cases h
    · cases h
    · next more =>
      split at h
      · next c after hc =>
        cases h
        rw [commit_eq_done, labelled_eq_done, escape_eq_done] at hc
        obtain ⟨letters, rfl, hs⟩ := hc
        have htake : (letters ++ rest).take ((letters ++ rest).length - rest.length) = letters := by
          simp
        rw [htake]
        exact ⟨hs, rfl⟩
      · cases h
      · cases h
    · next c more hq hb =>
      cases h
      exact ⟨.plain hq hb, rfl⟩
  · rintro ⟨hs, rfl⟩
    cases hs with
    | plain hq hb =>
      rw [List.singleton_append, Quoted.glyph]
      · exact hq
      · exact hb
    | newline => exact glyph_escape .newline
    | tab => exact glyph_escape .tab
    | quote => exact glyph_escape .quote
    | backslash => exact glyph_escape .backslash
    | codePoint hne hd hn => exact glyph_escape (.codePoint hne hd hn)

theorem several_glyph_iff {glyphs : List Glyph} : Several Quoted.glyph text glyphs rest ↔
    (∀ g ∈ glyphs, g.Spelled) ∧ text = glyphs.flatMap Glyph.spelling ++ rest := by
  constructor
  · intro h
    induction h with
    | nil => simp
    | cons hg hs ih =>
      obtain ⟨hspelled, rfl⟩ := glyph_eq_done.1 hg
      obtain ⟨hall, rfl⟩ := ih
      exact ⟨List.forall_mem_cons.2 ⟨hspelled, hall⟩, by simp⟩
  · rintro ⟨hall, rfl⟩
    induction glyphs with
    | nil => exact .nil
    | cons g glyphs ih =>
      obtain ⟨hg, hall⟩ := List.forall_mem_cons.1 hall
      exact .cons (glyph_eq_done.2 ⟨hg, by simp⟩) (ih hall)

theorem Glyph.Spelled.spelling_ne_nil {g : Glyph} (h : g.Spelled) : g.spelling ≠ [] := by
  cases h <;> exact List.cons_ne_nil _ _

theorem quoted_eq_done {q : Quoted} : Quoted.quoted text = .done q rest ↔
    (∀ g ∈ q.glyphs, g.Spelled) ∧ text = '"' :: (q.glyphs.flatMap Glyph.spelling ++ '"' :: rest) ∧
      q.left = text.length := by
  simp only [Quoted.quoted, bind_eq_done, many_bind_eq_done, left_eq_done, char_eq_done,
    commit_eq_done, expect_eq_done, pure_eq_done]
  constructor
  · rintro ⟨_, _, ⟨rfl, rfl⟩, _, _, rfl, glyphs, _, hg, _, _, rfl, rfl, rfl⟩
    obtain ⟨hall, rfl⟩ := several_glyph_iff.1 (several_of_many hg)
    exact ⟨hall, rfl, rfl⟩
  · rintro ⟨hall, rfl, hl⟩
    have hmany : many Quoted.glyph (q.glyphs.flatMap Glyph.spelling ++ '"' :: rest) =
        .done q.glyphs ('"' :: rest) := by
      refine many_of_several (several_glyph_iff.2 ⟨hall, rfl⟩) (fun text g middle hg => ?_)
        ⟨_, _, rfl⟩
      obtain ⟨hspelled, rfl⟩ := glyph_eq_done.1 hg
      have := List.length_pos_iff.2 hspelled.spelling_ne_nil
      rw [List.length_append]
      omega
    exact ⟨_, _, ⟨rfl, rfl⟩, (), _, rfl, _, _, hmany, (), _, rfl, by rw [← hl], rfl⟩

theorem quoted_sound {q : Quoted} (h : Quoted.quoted text = .done q rest) :
    Quotation text q.text rest := by
  obtain ⟨hall, rfl, -⟩ := quoted_eq_done.1 h
  exact .mk hall

theorem quoted_complete {content : String} (h : Quotation text content rest) :
    ∃ q : Quoted, q.text = content ∧ Quoted.quoted text = .done q rest := by
  obtain ⟨hall⟩ := h
  exact ⟨⟨_, _⟩, rfl, quoted_eq_done.2 ⟨hall, rfl, rfl⟩⟩

/-! ### Keys -/

theorem keyPart_sound {part : KeyPart} (h : Grammar.keyPart text = .done part rest) :
    Part text part rest := by
  simp only [Grammar.keyPart, orElse_eq_done, bind_eq_done, pure_eq_done, char_eq_done,
    optional_eq_done, word_eq_done] at h
  rcases h with ⟨_, _, rfl, label, _, hl, rfl, rfl⟩ | ⟨-, name, _, hw, rfl, rfl⟩
  · rcases hl with ⟨name, rfl, hw⟩ | ⟨rfl, -, rfl⟩
    · exact .labelled hw
    · exact .star
  · exact .word hw

theorem parts_of_several {part : KeyPart} {parts : List KeyPart} {middle : List Char}
    (hp : Part text part middle)
    (hs : Several (do char '.'; Grammar.keyPart) middle parts rest) :
    Parts text (part :: parts) rest := by
  induction hs generalizing text part with
  | nil => exact .last hp
  | cons ha hs ih =>
    obtain ⟨_, _, hc, hk⟩ := bind_eq_done.1 ha
    rw [char_eq_done.1 hc] at hp
    exact .more hp (ih (keyPart_sound hk))

theorem entryKey_sound {key : EntryKey} (h : Grammar.entryKey text = .done key rest) :
    Parts text key.parts rest := by
  simp only [Grammar.entryKey, bind_eq_done, separated1_eq_done, pure_eq_done] at h
  obtain ⟨_, _, ⟨part, more, middle, rfl, hp, hm⟩, rfl, rfl⟩ := h
  exact parts_of_several (keyPart_sound hp) (several_of_many hm)

theorem comma_bind_eq_done {α : Type} {r : Reader α} {a : α} :
    (Grammar.comma >>= fun _ => r) text = .done a rest ↔
      ∃ next start, Gap text (',' :: next) ∧ Gap next start ∧ r start = .done a rest := by
  simp only [Grammar.comma, bind_eq_done, gap_eq_done, char_eq_done]
  constructor
  · rintro ⟨_, start, ⟨_, _, hg, _, next, rfl, hn⟩, hr⟩
    exact ⟨next, start, hg, hn, hr⟩
  · rintro ⟨next, start, hg, hn, hr⟩
    exact ⟨(), start, ⟨(), _, hg, (), next, rfl, hn⟩, hr⟩

theorem keys_of_several {key : EntryKey} {keys : List EntryKey} {middle stop : List Char}
    (hk : Parts text key.parts middle)
    (hs : Several (do Grammar.comma; Grammar.entryKey) middle keys stop)
    (hg : Gap stop (':' :: rest)) : Keys text (key :: keys) rest := by
  induction hs generalizing text key with
  | nil => exact .last hk hg
  | cons ha hs ih =>
    obtain ⟨next, start, hc, hn, ha⟩ := comma_bind_eq_done.1 ha
    exact .more hk hc hn (ih (entryKey_sound ha) hg)

/-! ### Entries -/

theorem entry_sound {entry : RawEntry} (h : Grammar.entry text = .done entry rest) :
    Source.Entry text entry.draft rest := by
  simp only [Grammar.entry, bind_eq_done, separated1_eq_done, gap_eq_done, expect_eq_done,
    pure_eq_done] at h
  obtain ⟨_, stop, ⟨key, keys, middle, rfl, hk, hm⟩, _, _, hg, _, next, rfl, _, start, hn, q, _,
    hq, rfl, rfl⟩ := h
  exact .mk (keys_of_several (entryKey_sound hk) (several_of_many hm) hg) hn (quoted_sound hq)

theorem entries_of_several {entry : RawEntry} {entries : List RawEntry}
    {middle stop next : List Char} (he : Source.Entry text entry.draft middle)
    (hs : Several (do Grammar.comma; Grammar.entry) middle entries stop)
    (hc : Gap stop (',' :: next) ∧ Gap next ('}' :: rest) ∨ Gap stop ('}' :: rest)) :
    Entries text ((entry :: entries).map RawEntry.draft) rest := by
  induction hs generalizing text entry with
  | nil =>
    rcases hc with ⟨hg, hn⟩ | hg
    · exact .comma he hg hn
    · exact .last he hg
  | cons ha hs ih =>
    obtain ⟨next, start, hg, hn, ha⟩ := comma_bind_eq_done.1 ha
    exact .more he hg hn (ih (entry_sound ha) hc)

theorem block_sound {entries : List RawEntry} (h : Grammar.block text = .done entries rest) :
    ∃ next start, text = '{' :: next ∧ Gap next start ∧
      Entries start (entries.map RawEntry.draft) rest := by
  simp only [Grammar.block, bind_eq_done, char_eq_done, commit_eq_done, gap_eq_done,
    separated1_eq_done, optional_eq_done, expect_eq_done, pure_eq_done] at h
  obtain ⟨_, next, rfl, _, start, hn, _, stop, ⟨entry, more, middle, rfl, he, hm⟩, _, after, ho, _,
    _, hg, _, _, rfl, rfl, rfl⟩ := h
  refine ⟨next, start, rfl, hn, ?_⟩
  rcases ho with ⟨_, -, _, _, hc, rfl⟩ | ⟨-, -, rfl⟩
  · exact entries_of_several (entry_sound he) (several_of_many hm) (.inl ⟨hc, hg⟩)
  · exact @entries_of_several _ _ _ _ _ _ [] (entry_sound he) (several_of_many hm) (.inr hg)

/-- Between a body and its semicolon stands a gap. -/
theorem phraseBody_sound {body : RawBody} {stop : List Char}
    (h : Grammar.phraseBody text = .done body stop) (hg : Gap stop (';' :: rest)) :
    Source.Body text body.draft rest := by
  unfold Grammar.phraseBody at h
  split at h
  · cases h
    rw [gap_cons (by decide) (by decide)] at hg
    cases hg
    exact .absent
  · simp only [commit_eq_done, wanting_eq_done, labelled_eq_done, orElse_eq_done, bind_eq_done,
      pure_eq_done] at h
    obtain ⟨entries, _, he, rfl, rfl⟩ | ⟨-, q, _, hq, rfl, rfl⟩ := h
    · obtain ⟨next, start, rfl, hn, hs⟩ := block_sound he
      exact .entries hn hs hg
    · exact .template (quoted_sound hq) hg

/-! ### Modifiers -/

theorem selecting_of_several {middle stop : List Char} {name : String} {names : List String}
    (hn : Name text name middle)
    (hs : Several (do
      let _ ← (do blanks; char ','; blanks : Reader Unit)
      parameter) middle names stop)
    (hb : Blanks stop (')' :: rest)) : Selecting ('$' :: text) (name :: names) rest := by
  induction hs generalizing text name with
  | nil => exact .last hn hb
  | cons ha hs ih =>
    simp only [bind_eq_done, blanks_eq_done, char_eq_done, parameter_eq_done] at ha
    obtain ⟨_, _, ⟨_, _, hc, _, next, rfl, hn'⟩, _, rfl, hm⟩ := ha
    exact .more hn hc hn' (ih hm hb)

/-- The modifier is one that exists. -/
def Modifier.Known (m : Modifier) : Prop :=
  ∀ name left, m ≠ .unknown name left

theorem modifier_sound {modifier : Modifier} (h : Grammar.modifier text = .done modifier rest)
    (hk : modifier.Known) : Source.Modifier text modifier rest := by
  simp only [Grammar.modifier, bind_eq_done, left_eq_done, char_eq_done, name_eq_done] at h
  obtain ⟨_, _, ⟨rfl, rfl⟩, _, more, rfl, name, stop, hn, h⟩ := h
  split at h
  · next hf =>
    subst hf
    simp only [Grammar.fromModifier, labelled_eq_done, commit_eq_done, bind_eq_done, char_eq_done,
      blanks_eq_done, parameter_eq_done, pure_eq_done] at h
    obtain ⟨_, _, rfl, _, _, hb, name, _, ⟨_, rfl, hp⟩, _, _, he, _, _, rfl, rfl, rfl⟩ := h
    exact .inherits hn hb hp he
  · next hfrom =>
    split at h
    · next hm =>
      subst hm
      simp only [Grammar.matchModifier, labelled_eq_done, commit_eq_done, bind_eq_done,
        char_eq_done, blanks_eq_done, separated1_eq_done, parameter_eq_done, pure_eq_done] at h
      obtain ⟨_, _, rfl, _, _, hb, _, _, ⟨name, names, _, rfl, ⟨_, rfl, hp⟩, hs⟩, _, _, he, _, _,
        rfl, rfl, rfl⟩ := h
      exact .selects hn hb (selecting_of_several hp (several_of_many hs) he)
    · next hmatch =>
      unfold Grammar.tagModifier at h
      split at h
      · split at h
        · cases h
          exact absurd rfl (hk _ _)
        · cases h
      · cases h
        exact .tag hn hfrom hmatch

theorem tail_of_several {modifiers : List Modifier} {body : RawBody} {middle stop : List Char}
    (hs : Several (do let modifier ← Grammar.modifier; gap; return modifier) text modifiers middle)
    (hk : ∀ m ∈ modifiers, m.Known) (hb : Grammar.phraseBody middle = .done body stop)
    (hg : Gap stop (';' :: rest)) : Tail text modifiers body.draft rest := by
  induction hs with
  | nil => exact .body (phraseBody_sound hb hg)
  | cons ha hs ih =>
    obtain ⟨hm, hothers⟩ := List.forall_mem_cons.1 hk
    simp only [bind_eq_done, gap_eq_done, pure_eq_done] at ha
    obtain ⟨_, _, ha, _, _, hn, rfl, rfl⟩ := ha
    exact .modifier (modifier_sound ha hm) hn (ih hothers hb)

/-! ### Definitions -/

theorem someParameters_of_several {start middle stop : List Char} {name : String}
    {names : List String} (hg : Gap text ('$' :: start)) (hn : Name start name middle)
    (hs : Several (do
      let _ ← (do gap; char ',' : Reader Unit)
      (do gap; parameter : Reader String)) middle names stop)
    (he : Gap stop (')' :: rest)) : SomeParameters text (name :: names) rest := by
  induction hs generalizing text start name with
  | nil => exact .last hg hn he
  | cons ha hs ih =>
    simp only [bind_eq_done, gap_eq_done, char_eq_done, parameter_eq_done] at ha
    obtain ⟨_, next, ⟨_, _, hc, rfl⟩, _, _, hg', more, rfl, hm⟩ := ha
    exact .more hg hn hc (ih hg' hm he)

theorem parameterList_sound {names : List String}
    (h : Grammar.parameterList text = .done names rest) : Parameters text names rest := by
  simp only [Grammar.parameterList, separated, bind_eq_done, char_eq_done, optional_eq_done,
    separated1_eq_done, gap_eq_done, parameter_eq_done, commit_eq_done, expect_eq_done,
    pure_eq_done] at h
  obtain ⟨_, next, rfl, _, _, ⟨_, _, ho, rfl, rfl⟩, _, _, hg, _, _, rfl, rfl, rfl⟩ := h
  obtain ⟨_, rfl, name, more, _, rfl, ⟨_, _, hn, _, rfl, hp⟩, hs⟩ | ⟨rfl, -, rfl⟩ := ho
  · exact .some (someParameters_of_several hn hp (several_of_many hs) hg)
  · exact .none hg

theorem phraseName_eq_done {name : String} : Grammar.phraseName text = .done name rest ↔
    (∃ c, text.head? = some c ∧ 'a' ≤ c ∧ c ≤ 'z') ∧ Name text name rest := by
  unfold Grammar.phraseName
  cases text with
  | nil => simp
  | cons c more =>
    by_cases hc : 'a' ≤ c ∧ c ≤ 'z'
    · simp [hc]
    · simp [hc]

theorem definition_sound {raw : RawDefinition} (h : Grammar.definition text = .done raw rest)
    (hk : ∀ m ∈ raw.modifiers, m.Known) : Source.Definition text raw.draft rest := by
  simp only [Grammar.definition, bind_eq_done, left_eq_done, phraseName_eq_done, gap_eq_done,
    optional_eq_done, commit_eq_done, expect_eq_done, many_bind_eq_done, pure_eq_done] at h
  obtain ⟨_, _, ⟨rfl, rfl⟩, name, _, ⟨⟨c, hc, hsmall⟩, hn⟩, _, _, hg, parameters, _, hp, _, _, he,
    _, next, rfl, _, _, hb, modifiers, _, hm, body, _, hbody, _, _, hstop, _, _, rfl, rfl, rfl⟩ := h
  refine .mk hc hsmall hn hg ?_ he hb (tail_of_several (several_of_many hm) hk hbody hstop)
  obtain ⟨names, rfl, hp⟩ | ⟨rfl, -, rfl⟩ := hp
  · exact parameterList_sound hp
  · exact .absent

/-- What is read of a source to its end is what the grammar says that it spells. -/
theorem source_of_definitions {raws : List RawDefinition}
    (h : Grammar.definitions text = .done raws [])
    (hk : ∀ raw ∈ raws, ∀ m ∈ raw.modifiers, m.Known) :
    Source text (raws.map RawDefinition.draft) := by
  obtain ⟨_, start, hg, hm⟩ := bind_eq_done.1 h
  refine ⟨start, gap_eq_done.1 hg, ?_⟩
  replace hm := several_of_many hm
  clear h hg
  generalize hr : [] = stop at hm
  induction hm with
  | nil =>
    subst hr
    exact .nil
  | cons ha hs ih =>
    obtain ⟨hd, hothers⟩ := List.forall_mem_cons.1 hk
    simp only [bind_eq_done, gap_eq_done, pure_eq_done] at ha
    obtain ⟨_, _, ha, _, _, hn, rfl, rfl⟩ := ha
    exact .cons (definition_sound ha hd) hn (ih hothers hr)

end

end Phrasebook
