import Phrasebook.Proofs.Renumbering
import Phrasebook.Proofs.Respelling

/-!
Definitions that are embedded in a program against the same text read as a source of its own. The
source that is spelled from their tokens is read in step with the text: each form of the grammar
that the text begins with stands at the same place of the spelled source as well, with the numbers
of its keys written anew.
-/

namespace Phrasebook

open Text Template.Grammar

namespace Embedded

/-- Texts in quotes are the same ones for the program. -/
def SameTexts (atoms : List Atom) : Prop :=
  ∀ spelling q, .literal spelling ∈ atoms → Quoted.quoted spelling = .done q [] →
    Literal.read spelling = .text q.text

/-- The rest of a text, and what a pen writes for the atoms of that rest. -/
def Along (p : Pen) (text spelled : List Char) : Prop :=
  ∃ atoms, Atom.all? text = some atoms ∧ SameTexts atoms ∧ p.spell? atoms = some spelled

namespace Along

variable {p : Pen} {text spelled rest : List Char} {c : Char} {atom : Atom} {depth : Nat}
  {m : Margin}

/-! ### One atom further -/

theorem next (h : Along p text spelled) (hn : Atom.next? text = some ([atom], rest)) :
    ∃ written after, atom.text? = some written ∧ spelled = p.lead atom ++ written ++ after ∧
      Along (p.after atom) rest after ∧ SameTexts [atom] := by
  obtain ⟨atoms, ha, hs, hw⟩ := h
  rw [Atom.all?_of_next? hn, Option.map_eq_some_iff] at ha
  obtain ⟨others, ho, rfl⟩ := ha
  simp only [List.singleton_append, Pen.spell?, Option.bind_eq_some_iff,
    Option.map_eq_some_iff] at hw
  obtain ⟨written, ht, after, hafter, rfl⟩ := hw
  refine ⟨written, after, ht, rfl, ⟨others, ho, ?_, hafter⟩, ?_⟩
  · exact fun spelling q hm => hs spelling q (List.mem_cons_of_mem _ hm)
  · exact fun spelling q hm => hs spelling q (List.mem_append_left _ hm)

theorem skip (h : Along p text spelled) (hn : Atom.next? text = some ([], rest)) :
    Along p rest spelled := by
  obtain ⟨atoms, ha, hs, hw⟩ := h
  rw [Atom.all?_of_next? hn, Option.map_eq_some_iff] at ha
  obtain ⟨others, ho, rfl⟩ := ha
  exact ⟨others, ho, hs, hw⟩

theorem next?_ne_none (h : Along p (c :: text) spelled) : Atom.next? (c :: text) ≠ none := by
  obtain ⟨atoms, ha, -, -⟩ := h
  intro hn
  simp [Atom.all?_of_next?_eq_none hn] at ha

/-! ### Gaps -/

/-- Nothing is written for a comment. -/
theorem comment (h : Along p ('/' :: '/' :: text) spelled) :
    Along p (text.dropWhile (· ≠ '\n')) spelled := by
  have hn : Atom.next? ('/' :: '/' :: text) =
    some (Atom.notes text, text.dropWhile (· ≠ '\n')) := rfl
  have hnotes : Atom.notes text = [] ∨ ∃ inner, Atom.notes text = [.note inner] := by
    unfold Atom.notes
    split <;> simp
  obtain hnone | ⟨inner, hnote⟩ := hnotes
  · exact h.skip (hnone ▸ hn)
  · obtain ⟨written, after, ht, rfl, hafter, -⟩ := h.next (hnote ▸ hn)
    cases inner with
    | true => simp [Atom.text?] at ht
    | false =>
      cases ht
      exact hafter

theorem blank (hb : isBlank c) (h : Along p (c :: text) spelled) : Along p text spelled := by
  cases hs : Atom.isSpace c with
  | true => exact h.skip (Atom.next?_space hs)
  | false => exact absurd (Atom.next?_blank hb hs) h.next?_ne_none

/-- Within a comment the program has passed over the rest of the line. -/
theorem skipGap {inComment : Bool}
    (h : Along p (if inComment then text.dropWhile (· ≠ '\n') else text) spelled) :
    Along p (Reader.skipGap inComment text) spelled := by
  fun_induction Reader.skipGap inComment text with
  | case1 inComment => simpa using h
  | case2 c text ih =>
    by_cases hc : c = '\n'
    · subst hc
      have hline : Along p ('\n' :: text) spelled := by simpa using h
      exact ih (blank (by decide) hline)
    · simpa [hc] using ih (by simpa [hc] using h)
  | case3 inComment c text hin hs ih =>
    obtain ⟨rfl, hhead⟩ := hs
    obtain ⟨more, rfl⟩ := List.head?_eq_some_iff.1 hhead
    have hcomment := comment (by simpa [hin] using h)
    exact ih (by simpa using hcomment)
  | case4 inComment c text hin hs hb ih => exact ih (blank hb (by simpa [hin] using h))
  | case5 inComment c text hin hs hb => simpa [hin] using h

theorem gap (hg : Source.Gap text rest) (h : Along p text spelled) : Along p rest spelled := by
  rw [← hg]
  exact skipGap (by simpa using h)

/-! ### Signs -/

theorem sign {pen : Pen} (h : Along p text spelled) (hg : Source.Gap text (c :: rest))
    (hs : Atom.sign? c = some atom) (ht : atom.text? = some [c]) (hl : p.lead atom = [])
    (ha : p.after atom = pen) : ∃ after, spelled = c :: after ∧ Along pen rest after := by
  obtain ⟨written, after, ht', rfl, hafter, -⟩ := (h.gap hg).next (Atom.next?_sign hs)
  rw [ht] at ht'
  cases ht'
  rw [hl]
  exact ⟨after, rfl, ha ▸ hafter⟩

/-- Within a definition nothing goes before a sign. -/
theorem lead_sign (hm : m = .sign ∨ m = .word) : m.lead false = [] := by
  rcases hm with rfl | rfl <;> rfl

theorem mark (h : Along ⟨depth, m⟩ text spelled) (hg : Source.Gap text (c :: rest))
    (hc : c ∈ ['$', ':', '=', ',', '.', '*']) (hm : m = .sign ∨ m = .word) :
    ∃ after, spelled = c :: after ∧ Along ⟨depth, .sign⟩ rest after := by
  have hsign : Atom.sign? c = some (.mark c) := by
    simp only [List.mem_cons, List.not_mem_nil, or_false] at hc
    rcases hc with rfl | rfl | rfl | rfl | rfl | rfl <;> rfl
  have hne : c ≠ ';' := by
    rintro rfl
    exact absurd hc (by decide)
  exact h.sign hg hsign rfl (lead_sign hm) (by simp [Pen.after, hne])

/-- The semicolon behind a definition. -/
theorem semicolon (h : Along ⟨0, m⟩ text spelled) (hg : Source.Gap text (';' :: rest))
    (hm : m = .sign ∨ m = .word) : ∃ after, spelled = ';' :: after ∧ Along ⟨0, .line⟩ rest after :=
  h.sign hg rfl rfl (lead_sign hm) rfl

theorem opening {bracket : Bracket} (h : Along ⟨depth, m⟩ text spelled)
    (hg : Source.Gap text (c :: rest)) (hs : Atom.sign? c = some (.opening bracket))
    (ht : bracket.opening.toList = [c]) (hm : m = .sign ∨ m = .word) :
    ∃ after, spelled = c :: after ∧ Along ⟨depth + 1, .sign⟩ rest after :=
  h.sign hg hs (congrArg some ht) (lead_sign hm) rfl

theorem closing {bracket : Bracket} (h : Along ⟨depth + 1, m⟩ text spelled)
    (hg : Source.Gap text (c :: rest)) (hs : Atom.sign? c = some (.closing bracket))
    (ht : bracket.closing.toList = [c]) (hm : m = .sign ∨ m = .word) :
    ∃ after, spelled = c :: after ∧ Along ⟨depth, .sign⟩ rest after :=
  h.sign hg hs (congrArg some ht) (lead_sign hm) rfl

/-! ### Words -/

theorem plainName_of_word {word : List Char} (h : ∀ c ∈ word, isWordChar c) :
    Token.plainName word = word := by
  unfold Token.plainName
  split
  · next rest =>
    exact absurd (h '#' (by simp)) (by decide)
  · rfl

theorem name {name : String} (h : Along ⟨depth, m⟩ text spelled) (hn : Name text name rest) :
    ∃ after, spelled = m.lead true ++ (name.toList ++ after) ∧ Along ⟨depth, .word⟩ rest after := by
  have hnext : Atom.next? text = some ([.word name], rest) := by
    obtain ⟨c, hc, -⟩ := hn.head?_eq
    obtain ⟨more, rfl⟩ := List.head?_eq_some_iff.1 hc
    have hnone := h.next?_ne_none
    rw [Atom.next?_name hn] at hnone ⊢
    split
    · next hq => simp [hq] at hnone
    · rfl
  obtain ⟨written, after, ht, rfl, hafter, -⟩ := h.next hnext
  have hwritten : written = name.toList := by
    simpa [Atom.text?, plainName_of_word hn.inside] using ht.symm
  exact ⟨after, by simp [hwritten, Pen.lead], hafter⟩

/-- A number is a whole one, since no other is written. -/
theorem number {word : String} (h : Along ⟨depth, m⟩ text spelled)
    (hw : Word isWordChar isWordChar text word rest) (hd : word.toList.head?.any Char.isDigit) :
    ∃ after, spelled = m.lead true ++ ((numeral word).toList ++ after) ∧
      Along ⟨depth, .word⟩ rest after := by
  obtain ⟨written, after, ht, rfl, hafter, -⟩ := h.next (Atom.next?_number hw hd)
  have hfraction : ∀ more, rest = '.' :: more → Atom.isFraction word.toList more = false := by
    rintro more rfl
    refine Bool.eq_false_iff.2 fun hf => ?_
    have hcounting : ∀ c ∈ word.toList, Atom.isCounting c := by
      simp only [Atom.isFraction, Bool.and_eq_true] at hf
      exact List.all_eq_true.1 hf.1
    rw [Atom.number_fraction hw hf, Atom.text?, Literal.read_fraction hcounting hd] at ht
    cases ht
  rw [Atom.number_whole hw hfraction] at ht hafter
  have hwritten : written = (numeral word).toList := by
    rw [numeral, if_pos hd]
    rw [Atom.text?, Literal.read_digit hd] at ht
    rw [Literal.read_digit hd]
    cases hi : Literal.integer? word.toList with
    | none => simp [hi, Literal.spelled?] at ht
    | some value => simpa [hi, Literal.spelled?] using ht.symm
  exact ⟨after, by simp [hwritten, Pen.lead], hafter⟩

theorem word {word : String} (h : Along ⟨depth, m⟩ text spelled)
    (hw : Word isWordChar isWordChar text word rest) :
    ∃ after, spelled = m.lead true ++ ((numeral word).toList ++ after) ∧
      Along ⟨depth, .word⟩ rest after := by
  cases hd : word.toList.head?.any Char.isDigit with
  | true => exact h.number hw hd
  | false =>
    rw [numeral, hd, if_neg Bool.false_ne_true]
    exact h.name (Atom.name_of_word hw hd)

/-- A word ends where it did, since a gap goes before another one. -/
theorem ended (h : Along ⟨depth, .word⟩ text spelled) : Ended isWordChar spelled := by
  obtain ⟨atoms, ha, -, hw⟩ := h
  have hmarks (c : Char) : .mark c ∈ atoms → isWordChar c = false := Atom.isWordChar_of_all? ha
  clear ha
  induction atoms generalizing spelled with
  | nil =>
    cases hw
    exact fun _ hc => nomatch hc
  | cons atom atoms ih =>
    simp only [Pen.spell?, Option.bind_eq_some_iff, Option.map_eq_some_iff] at hw
    obtain ⟨written, ht, after, hafter, rfl⟩ := hw
    cases atom with
    | word name => exact ended_cons (by decide)
    | literal spelling => exact ended_cons (by decide)
    | mark c =>
      cases ht
      exact ended_cons (hmarks c List.mem_cons_self)
    | opening bracket =>
      cases ht
      cases bracket <;> exact ended_cons (by decide)
    | closing bracket =>
      cases ht
      cases bracket <;> exact ended_cons (by decide)
    | note inner =>
      cases inner with
      | true => cases ht
      | false =>
        cases ht
        exact ih hafter fun c hc => hmarks c (List.mem_cons_of_mem _ hc)

theorem name_again {name : String} (h : Along ⟨depth, m⟩ text spelled) (hn : Name text name rest) :
    ∃ after, spelled = m.lead true ++ (name.toList ++ after) ∧
      Name (name.toList ++ after) name after ∧ Along ⟨depth, .word⟩ rest after := by
  obtain ⟨after, hspelled, hrest⟩ := h.name hn
  exact ⟨after, hspelled, ⟨⟨rfl, hn.inside, hrest.ended⟩, hn.start⟩, hrest⟩

theorem parameter {more : List Char} {name : String} (h : Along ⟨depth, .sign⟩ text spelled)
    (hg : Source.Gap text ('$' :: more)) (hn : Name more name rest) :
    ∃ after, spelled = '$' :: (name.toList ++ after) ∧
      Name (name.toList ++ after) name after ∧ Along ⟨depth, .word⟩ rest after := by
  obtain ⟨next, rfl, hnext⟩ := h.mark hg (by simp) (.inl rfl)
  obtain ⟨after, rfl, hagain, hrest⟩ := hnext.name_again hn
  exact ⟨after, rfl, hagain, hrest⟩

/-- A modifier up to what stands in its parentheses. -/
theorem directive {name : String} (h : Along ⟨depth, m⟩ (':' :: text) spelled)
    (hn : Name text name ('(' :: rest)) (hm : m = .sign ∨ m = .word) :
    ∃ after, spelled = ':' :: (name.toList ++ '(' :: after) ∧
      Name (name.toList ++ '(' :: after) name ('(' :: after) ∧
      Along ⟨depth + 1, .sign⟩ rest after := by
  obtain ⟨next, rfl, hnext⟩ := h.mark (Source.gap_sign rfl) (by simp) hm
  obtain ⟨stop, rfl, hagain, hstop⟩ := hnext.name_again hn
  obtain ⟨after, rfl, hrest⟩ := hstop.opening (Source.gap_sign rfl) rfl rfl (.inr rfl)
  exact ⟨after, rfl, hagain, hrest⟩

/-! ### Texts -/

theorem quotation {content : String} (h : Along ⟨depth, m⟩ text spelled)
    (hq : Source.Quotation text content rest) :
    ∃ after, spelled = m.lead true ++ (Quoted.quote content.toList ++ after) ∧
      Along ⟨depth, .word⟩ rest after := by
  obtain @⟨glyphs, rest, hg⟩ := hq
  let spelling := '"' :: (glyphs.flatMap Glyph.spelling ++ ['"'])
  have hn : Atom.next? ('"' :: (glyphs.flatMap Glyph.spelling ++ '"' :: rest)) =
      some ([.literal spelling], rest) := by
    rw [Atom.next?, Atom.closed?_glyphs hg]
    rfl
  obtain ⟨written, after, ht, rfl, hafter, hsame⟩ := h.next hn
  have hread := hsame spelling ⟨glyphs, spelling.length⟩ List.mem_cons_self
    (quoted_eq_done.2 ⟨hg, rfl, rfl⟩)
  have hwritten : written = Quoted.quote (String.ofList (glyphs.map Glyph.char)).toList := by
    simpa [Atom.text?, hread, Literal.spelled?, Quoted.text] using ht.symm
  exact ⟨after, by simp [hwritten, Pen.lead], hafter⟩

end Along

end Embedded

/-! ### Forms of the grammar -/

open Source Embedded

variable {text spelled rest : List Char} {depth : Nat} {m : Margin}

theorem gap_of_blanks {c : Char} (h : Blanks text (c :: rest)) (hs : c ≠ '/') :
    Gap text (c :: rest) := by
  rw [← Template.skipBlanks_eq_iff] at h
  induction text with
  | nil => cases h
  | cons d text ih =>
    rw [skipBlanks, List.dropWhile_cons] at h
    split at h
    · next hb => exact (gap_blank hb).2 (ih h)
    · next hb =>
      cases h
      exact (gap_cons (Bool.eq_false_iff.2 hb) hs).2 rfl

namespace Source

theorem Quotation.gap {content : String} (h : Quotation text content rest) : Gap text text := by
  obtain ⟨more, rfl⟩ := h.head
  exact gap_sign rfl

/-- What goes before a word or a text is a gap. -/
theorem gap_lead (h : Gap text text) : Gap (m.lead true ++ text) text := by
  cases m with
  | nothing => exact h
  | line => exact (gap_blank (by decide)).2 h
  | word => exact (gap_blank (by decide)).2 h
  | sign => exact h

theorem Part.respelled {part : KeyPart} (h : Part text part rest)
    (ha : Along ⟨depth, .sign⟩ text spelled) :
    ∃ m after, (m = .sign ∨ m = .word) ∧ Part spelled part.renumber after ∧
      Along ⟨depth, m⟩ rest after := by
  have hword {text spelled : List Char} {word : String}
      (hw : Word isWordChar isWordChar text word rest) (ha : Along ⟨depth, .sign⟩ text spelled) :
      ∃ after, Word isWordChar isWordChar spelled (numeral word) after ∧
        Along ⟨depth, .word⟩ rest after := by
    obtain ⟨after, rfl, hrest⟩ := ha.word hw
    exact ⟨after, Script.word_append (isWord_numeral ⟨hw.nonempty, hw.inside⟩) hrest.ended, hrest⟩
  cases h with
  | word hw =>
    obtain ⟨after, hw, hrest⟩ := hword hw ha
    exact ⟨.word, after, .inr rfl, .word hw, hrest⟩
  | star =>
    obtain ⟨after, rfl, hrest⟩ := ha.mark (gap_sign rfl) (by simp) (.inl rfl)
    exact ⟨.sign, after, .inl rfl, .star, hrest⟩
  | labelled hw =>
    obtain ⟨label, rfl, hlabel⟩ := ha.mark (gap_sign rfl) (by simp) (.inl rfl)
    obtain ⟨after, hw, hrest⟩ := hword hw hlabel
    exact ⟨.word, after, .inr rfl, .labelled hw, hrest⟩

theorem Parts.respelled {parts : List KeyPart} (h : Parts text parts rest)
    (ha : Along ⟨depth, .sign⟩ text spelled) :
    ∃ m after, (m = .sign ∨ m = .word) ∧ Parts spelled (parts.map KeyPart.renumber) after ∧
      Along ⟨depth, m⟩ rest after := by
  induction h generalizing spelled with
  | last hp =>
    obtain ⟨m, after, hm, hp, hrest⟩ := hp.respelled ha
    exact ⟨m, after, hm, .last hp, hrest⟩
  | more hp _ ih =>
    obtain ⟨m, dot, hm, hp, hdot⟩ := hp.respelled ha
    obtain ⟨next, rfl, hnext⟩ := hdot.mark (gap_sign rfl) (by simp) hm
    obtain ⟨m, after, hm, hs, hrest⟩ := ih hnext
    exact ⟨m, after, hm, .more hp hs, hrest⟩

theorem Keys.respelled {keys : List EntryKey} (h : Keys text keys rest)
    (ha : Along ⟨depth, .sign⟩ text spelled) :
    ∃ after, Keys spelled (keys.map EntryKey.renumber) after ∧
      Along ⟨depth, .sign⟩ rest after := by
  induction h generalizing spelled with
  | last hk hg =>
    obtain ⟨m, stop, hm, hk, hstop⟩ := hk.respelled ha
    obtain ⟨after, rfl, hrest⟩ := hstop.mark hg (by simp) hm
    exact ⟨after, .last hk (gap_sign rfl), hrest⟩
  | more hk hg hn _ ih =>
    obtain ⟨m, stop, hm, hk, hstop⟩ := hk.respelled ha
    obtain ⟨next, rfl, hnext⟩ := hstop.mark hg (by simp) hm
    obtain ⟨after, hs, hrest⟩ := ih (hnext.gap hn)
    exact ⟨after, .more hk (gap_sign rfl) hs.gap hs, hrest⟩

theorem Entry.respelled {entry : Draft.Entry} (h : Source.Entry text entry rest)
    (ha : Along ⟨depth, .sign⟩ text spelled) :
    ∃ after, Source.Entry spelled entry.renumber after ∧ Along ⟨depth, .word⟩ rest after := by
  cases h with
  | @mk _ _ _ keys content hk hg hq =>
    obtain ⟨next, hk, hnext⟩ := hk.respelled ha
    obtain ⟨after, rfl, hrest⟩ := (hnext.gap hg).quotation hq
    have hq := Script.quotation_append content after
    exact ⟨after, .mk hk hq.gap hq, hrest⟩

theorem Entries.respelled {entries : List Draft.Entry} (h : Entries text entries rest)
    (ha : Along ⟨depth + 1, .sign⟩ text spelled) :
    ∃ after, Entries spelled (entries.map Draft.Entry.renumber) after ∧
      Along ⟨depth, .sign⟩ rest after := by
  induction h generalizing spelled with
  | last he hg =>
    obtain ⟨stop, he, hstop⟩ := he.respelled ha
    obtain ⟨after, rfl, hrest⟩ := hstop.closing hg rfl rfl (.inr rfl)
    exact ⟨after, .last he (gap_sign rfl), hrest⟩
  | comma he hg hn =>
    obtain ⟨stop, he, hstop⟩ := he.respelled ha
    obtain ⟨next, rfl, hnext⟩ := hstop.mark hg (by simp) (.inr rfl)
    obtain ⟨after, rfl, hrest⟩ := hnext.closing hn rfl rfl (.inl rfl)
    exact ⟨after, .comma he (gap_sign rfl) (gap_sign rfl), hrest⟩
  | more he hg hn _ ih =>
    obtain ⟨stop, he, hstop⟩ := he.respelled ha
    obtain ⟨next, rfl, hnext⟩ := hstop.mark hg (by simp) (.inr rfl)
    obtain ⟨after, hs, hrest⟩ := ih (hnext.gap hn)
    exact ⟨after, .more he (gap_sign rfl) hs.gap hs, hrest⟩

/-- A gap goes before a text that stands behind a tag. -/
theorem Body.respelled {body : Draft.Body} (h : Source.Body text body rest)
    (ha : Along ⟨0, m⟩ text spelled) (hm : m = .sign ∨ m = .word) :
    ∃ start after, Gap spelled start ∧ Source.Body start body.renumber after ∧
      Along ⟨0, .line⟩ rest after := by
  cases h with
  | absent =>
    obtain ⟨after, rfl, hrest⟩ := ha.semicolon (gap_sign rfl) hm
    exact ⟨_, after, gap_sign rfl, .absent, hrest⟩
  | @template _ _ _ content hq hg =>
    obtain ⟨stop, rfl, hstop⟩ := ha.quotation hq
    obtain ⟨after, rfl, hrest⟩ := hstop.semicolon hg (.inr rfl)
    have hq := Script.quotation_append content (';' :: after)
    exact ⟨_, after, gap_lead hq.gap, .template hq (gap_sign rfl), hrest⟩
  | entries hn he hg =>
    obtain ⟨inside, rfl, hinside⟩ := ha.opening (gap_sign rfl) rfl rfl hm
    obtain ⟨stop, he, hstop⟩ := he.respelled (hinside.gap hn)
    obtain ⟨after, rfl, hrest⟩ := hstop.semicolon hg (.inl rfl)
    exact ⟨_, after, gap_sign rfl, .entries he.gap he (gap_sign rfl), hrest⟩

theorem Selecting.respelled {names : List String} (h : Selecting text names rest)
    (ha : Along ⟨depth + 1, .sign⟩ text spelled) :
    ∃ after, Selecting spelled names after ∧ Along ⟨depth, .sign⟩ rest after := by
  induction h generalizing spelled with
  | last hn hb =>
    obtain ⟨stop, rfl, hn, hstop⟩ := ha.parameter (gap_sign rfl) hn
    obtain ⟨after, rfl, hrest⟩ := hstop.closing (gap_of_blanks hb (by decide)) rfl rfl (.inr rfl)
    exact ⟨after, .last hn (blanks_sign rfl), hrest⟩
  | more hn hb hs hm ih =>
    obtain ⟨stop, rfl, hn, hstop⟩ := ha.parameter (gap_sign rfl) hn
    obtain ⟨next, rfl, hnext⟩ := hstop.mark (gap_of_blanks hb (by decide)) (by simp) (.inr rfl)
    obtain ⟨_, rfl⟩ := hm.head
    obtain ⟨after, hm, hrest⟩ := ih (hnext.gap (gap_of_blanks hs (by decide)))
    obtain ⟨_, rfl⟩ := hm.head
    exact ⟨after, .more hn (blanks_sign rfl) (blanks_sign rfl) hm, hrest⟩

theorem Modifier.respelled {modifier : Phrasebook.Modifier} (h : Source.Modifier text modifier rest)
    (ha : Along ⟨0, m⟩ text spelled) (hm : m = .sign ∨ m = .word) :
    ∃ m after, (m = .sign ∨ m = .word) ∧ Source.Modifier spelled modifier after ∧
      Along ⟨0, m⟩ rest after := by
  cases h with
  | tag hn hfrom hmatch =>
    obtain ⟨name, rfl, hname⟩ := ha.mark (gap_sign rfl) (by simp) hm
    obtain ⟨after, rfl, hn, hrest⟩ := hname.name_again hn
    exact ⟨.word, after, .inr rfl, .tag hn hfrom hmatch, hrest⟩
  | inherits hf hb hn he =>
    obtain ⟨inside, rfl, hf, hinside⟩ := ha.directive hf hm
    obtain ⟨stop, rfl, hn, hstop⟩ := hinside.parameter (gap_of_blanks hb (by decide)) hn
    obtain ⟨after, rfl, hrest⟩ := hstop.closing (gap_of_blanks he (by decide)) rfl rfl (.inr rfl)
    exact ⟨.sign, after, .inl rfl, .inherits hf (blanks_sign rfl) hn (blanks_sign rfl), hrest⟩
  | selects hf hb hs =>
    obtain ⟨inside, rfl, hf, hinside⟩ := ha.directive hf hm
    obtain ⟨_, rfl⟩ := hs.head
    obtain ⟨after, hs, hrest⟩ := hs.respelled (hinside.gap (gap_of_blanks hb (by decide)))
    obtain ⟨_, rfl⟩ := hs.head
    exact ⟨.sign, after, .inl rfl, .selects hf (blanks_sign rfl) hs, hrest⟩

theorem Tail.respelled {modifiers : List Phrasebook.Modifier} {body : Draft.Body}
    (h : Tail text modifiers body rest) (ha : Along ⟨0, m⟩ text spelled)
    (hm : m = .sign ∨ m = .word) :
    ∃ start after, Gap spelled start ∧ Tail start modifiers body.renumber after ∧
      Along ⟨0, .line⟩ rest after := by
  induction h generalizing spelled m with
  | body hb =>
    obtain ⟨start, after, hg, hb, hrest⟩ := hb.respelled ha hm
    exact ⟨start, after, hg, .body hb, hrest⟩
  | modifier hmod hg _ ih =>
    obtain ⟨m, stop, hm, hmod, hstop⟩ := hmod.respelled ha hm
    obtain ⟨start, after, hgap, ht, hrest⟩ := ih (hstop.gap hg) hm
    have ht := Tail.modifier hmod hgap ht
    exact ⟨spelled, after, ht.gap, ht, hrest⟩

theorem SomeParameters.respelled {names : List String} (h : SomeParameters text names rest)
    (ha : Along ⟨depth + 1, .sign⟩ text spelled) :
    ∃ after, SomeParameters spelled names after ∧ Along ⟨depth, .sign⟩ rest after := by
  induction h generalizing spelled with
  | last hg hn he =>
    obtain ⟨stop, rfl, hn, hstop⟩ := ha.parameter hg hn
    obtain ⟨after, rfl, hrest⟩ := hstop.closing he rfl rfl (.inr rfl)
    exact ⟨after, .last (gap_sign rfl) hn (gap_sign rfl), hrest⟩
  | more hg hn he _ ih =>
    obtain ⟨stop, rfl, hn, hstop⟩ := ha.parameter hg hn
    obtain ⟨next, rfl, hnext⟩ := hstop.mark he (by simp) (.inr rfl)
    obtain ⟨after, hs, hrest⟩ := ih hnext
    exact ⟨after, .more (gap_sign rfl) hn (gap_sign rfl) hs, hrest⟩

theorem Parameters.respelled {names : List String} (h : Parameters text names rest)
    (ha : Along ⟨0, m⟩ text spelled) (hm : m = .sign ∨ m = .word) :
    ∃ m after, (m = .sign ∨ m = .word) ∧ Parameters spelled names after ∧
      Along ⟨0, m⟩ rest after := by
  cases h with
  | absent => exact ⟨m, spelled, hm, .absent, ha⟩
  | none hg =>
    obtain ⟨inside, rfl, hinside⟩ := ha.opening (gap_sign rfl) rfl rfl hm
    obtain ⟨after, rfl, hrest⟩ := hinside.closing hg rfl rfl (.inl rfl)
    exact ⟨.sign, after, .inl rfl, .none (gap_sign rfl), hrest⟩
  | some hs =>
    obtain ⟨inside, rfl, hinside⟩ := ha.opening (gap_sign rfl) rfl rfl hm
    obtain ⟨after, hs, hrest⟩ := hs.respelled hinside
    exact ⟨.sign, after, .inl rfl, .some hs, hrest⟩

theorem Parameters.gap {names : List String} {c : Char} (h : Parameters text names (c :: rest))
    (hb : isBlank c = false) (hs : c ≠ '/') : Gap text text := by
  cases h with
  | absent => exact (gap_cons hb hs).2 rfl
  | none _ => exact gap_sign rfl
  | some _ => exact gap_sign rfl

theorem Definition.respelled {draft : Draft} (h : Source.Definition text draft rest)
    (ha : Along ⟨0, m⟩ text spelled) :
    ∃ start after, Gap spelled start ∧ Source.Definition start draft.renumber after ∧
      Along ⟨0, .line⟩ rest after := by
  obtain ⟨hc, hsmall, hn, hg, hp, he, hb, ht⟩ := h
  obtain ⟨named, rfl, hname, hnamed⟩ := ha.name_again hn
  obtain ⟨m, stop, hm, hp, hstop⟩ := hp.respelled (hnamed.gap hg) (.inr rfl)
  obtain ⟨next, rfl, hnext⟩ := hstop.mark he (by simp) hm
  obtain ⟨begun, after, hbegun, ht, hrest⟩ := ht.respelled (hnext.gap hb) (.inl rfl)
  obtain ⟨c, hstart, -⟩ := hn.start
  have hhead := hc
  rw [hn.spelled, List.head?_append, hstart] at hhead
  refine ⟨_, after, gap_lead (gap_of_word hname), .mk ?_ hsmall hname
    (hp.gap (by decide) (by decide)) hp (gap_sign rfl) hbegun ht, hrest⟩
  rw [List.head?_append, hstart]
  exact hhead

theorem Definitions.respelled {drafts : List Draft} (h : Definitions text drafts)
    (ha : Along ⟨0, m⟩ text spelled) :
    ∃ start, Gap spelled start ∧ Definitions start (drafts.map Draft.renumber) := by
  induction h generalizing spelled m with
  | nil =>
    obtain ⟨atoms, hall, -, hw⟩ := ha
    cases Atom.all?_nil.symm.trans hall
    cases hw
    exact ⟨[], rfl, .nil⟩
  | cons hd hg _ ih =>
    obtain ⟨start, stop, hgap, hd, hstop⟩ := hd.respelled ha
    obtain ⟨next, hnext, hs⟩ := ih (hstop.gap hg)
    exact ⟨start, hgap, .cons hd hnext hs⟩

end Source

/-- The source that is spelled from the atoms of a source. -/
theorem Source.respelled {drafts : List Draft} (h : Source text drafts)
    (ha : Along ⟨0, .nothing⟩ text spelled) : Source spelled (drafts.map Draft.renumber) := by
  obtain ⟨start, hg, hs⟩ := h
  exact hs.respelled (ha.gap hg)

end Phrasebook
