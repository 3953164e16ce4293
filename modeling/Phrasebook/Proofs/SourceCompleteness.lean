import Phrasebook.Proofs.SourceReading

/-!
What the grammar of sources says is spelled, the readers read. Their choices are made by the next
character alone, so each relation is first asked what a text of it begins with.
-/

namespace Phrasebook

open Text Template.Grammar Reader

namespace Source

variable {text rest : List Char} {c : Char}

/-! ### What comes next -/

theorem toNat_of_isWordChar (h : isWordChar c) :
    (65 ≤ c.toNat ∧ c.toNat ≤ 90) ∨ (97 ≤ c.toNat ∧ c.toNat ≤ 122) ∨
      (48 ≤ c.toNat ∧ c.toNat ≤ 57) ∨ c.toNat = 95 := by
  have hval : c.toNat = c.val.toNat := rfl
  rw [isWordChar, Char.isAlphanum] at h
  delta Char.isAlpha Char.isUpper Char.isLower Char.isDigit at h
  simp only [Bool.or_eq_true, Bool.and_eq_true, decide_eq_true_eq, beq_iff_eq, ge_iff_le,
    UInt32.le_iff_toNat_le, ← Char.val_inj, ← UInt32.toNat_inj] at h
  simp at h
  omega

theorem not_isWordChar_of_isBlank (h : isBlank c) : isWordChar c = false := by
  refine Bool.eq_false_iff.2 fun hw => ?_
  have hc := toNat_of_isWordChar hw
  simp [isBlank] at h
  omega

/-- Where a sign comes behind a gap stand that sign, or what a gap begins with. -/
theorem Gap.head (h : Gap text (c :: rest)) :
    ∃ d more, text = d :: more ∧ (d = c ∨ d = '/' ∨ isBlank d) := by
  cases text with
  | nil => cases h
  | cons d more =>
    refine ⟨d, more, rfl, ?_⟩
    rw [Gap, skipGap] at h
    split at h
    · next hin => cases hin
    split at h
    · next hd => exact .inr (.inl hd.1)
    split at h
    · next hd => exact .inr (.inr hd)
    · cases h
      exact .inl rfl

theorem Gap.head?_ne {d : Char} (h : Gap text (c :: rest)) (hc : d ≠ c) (hs : d ≠ '/')
    (hb : isBlank d = false) : text.head? ≠ some d := by
  obtain ⟨e, more, rfl, he⟩ := h.head
  rintro hd
  cases hd
  simp_all

theorem Gap.ended (h : Gap text (c :: rest)) (hc : isWordChar c = false) :
    Ended isWordChar text := by
  obtain ⟨d, more, rfl, hd⟩ := h.head
  intro e he
  cases he
  rcases hd with rfl | rfl | hd
  · exact hc
  · rfl
  · exact not_isWordChar_of_isBlank hd

theorem gap_of_head (h : text.head? = some c) (hb : isBlank c = false) (hs : c ≠ '/') :
    Gap text text := by
  obtain ⟨more, rfl⟩ := List.head?_eq_some_iff.1 h
  exact (gap_cons hb hs).2 rfl

/-- No gap stands before a word. -/
theorem gap_of_word {first : Char → Bool} {word : String}
    (h : Word first isWordChar text word rest) : Gap text text := by
  obtain ⟨d, hd, -⟩ := h.start
  have hword : isWordChar d := h.inside d (List.mem_of_mem_head? hd)
  have hhead : text.head? = some d := by
    rw [h.spelled, List.head?_append, hd]
    rfl
  refine gap_of_head hhead (Bool.eq_false_iff.2 fun hb => ?_) ?_
  · simp [not_isWordChar_of_isBlank hb] at hword
  · rintro rfl
    exact absurd hword (by decide)

theorem gap_sign (h : (isBlank c || c == '/') = false) : Gap (c :: rest) (c :: rest) := by
  obtain ⟨hb, hs⟩ := Bool.or_eq_false_iff.1 h
  exact (gap_cons hb (beq_eq_false_iff_ne.1 hs)).2 rfl

theorem Part.gap {part : KeyPart} (h : Part text part rest) : Gap text text := by
  cases h with
  | word hw => exact gap_of_word hw
  | star => exact gap_sign rfl
  | labelled hw => exact gap_sign rfl

theorem Parts.gap {parts : List KeyPart} (h : Parts text parts rest) : Gap text text := by
  cases h with
  | last hp => exact hp.gap
  | more hp _ => exact hp.gap

theorem Keys.gap {keys : List EntryKey} (h : Keys text keys rest) : Gap text text := by
  cases h with
  | last hk _ => exact hk.gap
  | more hk _ _ _ => exact hk.gap

theorem Entry.gap {entry : Draft.Entry} (h : Source.Entry text entry rest) : Gap text text := by
  obtain ⟨hk, -, -⟩ := h
  exact hk.gap

theorem Entries.gap {entries : List Draft.Entry} (h : Entries text entries rest) :
    Gap text text := by
  cases h with
  | last he _ => exact he.gap
  | comma he _ _ => exact he.gap
  | more he _ _ _ => exact he.gap

theorem Definition.gap {draft : Draft} (h : Source.Definition text draft rest) : Gap text text := by
  obtain ⟨-, -, hn⟩ := h
  exact gap_of_word hn

theorem SomeParameters.blank {names : List String} (hb : isBlank c)
    (h : SomeParameters text names rest) : SomeParameters (c :: text) names rest := by
  cases h with
  | last hg hn he => exact .last ((gap_blank hb).2 hg) hn he
  | more hg hn he hs => exact .more ((gap_blank hb).2 hg) hn he hs

theorem blanks_sign (hb : isBlank c = false) : Blanks (c :: rest) (c :: rest) :=
  Template.skipBlanks_eq_iff.1 (by simp [skipBlanks, hb])

theorem blanks_cons (hb : isBlank c) (h : Blanks text rest) : Blanks (c :: text) rest := by
  rw [← Template.skipBlanks_eq_iff] at h ⊢
  simpa [skipBlanks, hb] using h

theorem Selecting.head {names : List String} (h : Selecting text names rest) :
    ∃ more, text = '$' :: more := by
  cases h <;> exact ⟨_, rfl⟩

/-! ### What is used up -/

theorem skipGap_suffix (inComment : Bool) (text : List Char) : skipGap inComment text <:+ text := by
  fun_induction skipGap inComment text with
  | case1 => exact List.suffix_refl _
  | case2 c rest ih => exact ih.trans (List.suffix_cons _ _)
  | case3 inComment c rest hin hs ih => exact ih.trans (List.suffix_cons _ _)
  | case4 inComment c rest hin hs hb ih => exact ih.trans (List.suffix_cons _ _)
  | case5 => exact List.suffix_refl _

theorem length_skipGap_le (inComment : Bool) (text : List Char) :
    (skipGap inComment text).length ≤ text.length :=
  (skipGap_suffix inComment text).length_le

theorem Gap.length_le (h : Gap text rest) : rest.length ≤ text.length := by
  rw [← h]
  exact length_skipGap_le false text

theorem Gap.length_lt (h : Gap text (c :: rest)) : rest.length < text.length :=
  h.length_le

theorem length_le_of_blanks (h : Blanks text rest) : rest.length ≤ text.length := by
  obtain ⟨blanks, h⟩ := h
  rw [h.spelled, List.length_append]
  exact Nat.le_add_left _ _

theorem length_lt_of_blanks (h : Blanks text (c :: rest)) : rest.length < text.length :=
  length_le_of_blanks h

theorem length_lt_of_word {first p : Char → Bool} {word : String}
    (h : Word first p text word rest) : rest.length < text.length := by
  have hne : word.toList ≠ [] := fun hnil => h.nonempty (String.toList_eq_nil_iff.1 hnil)
  rw [h.spelled, List.length_append]
  exact Nat.lt_add_of_pos_left (List.length_pos_iff.2 hne)

theorem Quotation.length_lt {content : String} (h : Quotation text content rest) :
    rest.length < text.length := by
  obtain ⟨-⟩ := h
  simp only [List.length_cons, List.length_append]
  omega

theorem Quotation.head {content : String} (h : Quotation text content rest) :
    ∃ more, text = '"' :: more := by
  obtain ⟨-⟩ := h
  exact ⟨_, rfl⟩

theorem Part.length_lt {part : KeyPart} (h : Part text part rest) : rest.length < text.length := by
  cases h with
  | word hw => exact length_lt_of_word hw
  | star => exact Nat.lt_succ_self _
  | labelled hw => exact Nat.lt_succ_of_lt (length_lt_of_word hw)

theorem Parts.length_lt {parts : List KeyPart} (h : Parts text parts rest) :
    rest.length < text.length := by
  induction h with
  | last hp => exact hp.length_lt
  | more hp _ ih => exact Nat.lt_trans ih (Nat.lt_of_succ_lt hp.length_lt)

theorem Keys.length_lt {keys : List EntryKey} (h : Keys text keys rest) :
    rest.length < text.length := by
  induction h with
  | last hk hg => exact Nat.lt_trans hg.length_lt hk.length_lt
  | more hk hg hn _ ih =>
    calc
      _ < _ := ih
      _ ≤ _ := hn.length_le
      _ < _ := hg.length_lt
      _ < _ := hk.length_lt

theorem Entry.length_lt {entry : Draft.Entry} (h : Source.Entry text entry rest) :
    rest.length < text.length := by
  obtain ⟨hk, hg, hq⟩ := h
  calc
    _ < _ := hq.length_lt
    _ ≤ _ := hg.length_le
    _ < _ := hk.length_lt

theorem Entries.length_lt {entries : List Draft.Entry} (h : Entries text entries rest) :
    rest.length < text.length := by
  induction h with
  | last he hg => exact Nat.lt_trans hg.length_lt he.length_lt
  | comma he hg hn =>
    calc
      _ < _ := hn.length_lt
      _ < _ := hg.length_lt
      _ < _ := he.length_lt
  | more he hg hn _ ih =>
    calc
      _ < _ := ih
      _ ≤ _ := hn.length_le
      _ < _ := hg.length_lt
      _ < _ := he.length_lt

theorem Body.length_lt {body : Draft.Body} (h : Source.Body text body rest) :
    rest.length < text.length := by
  cases h with
  | absent => exact Nat.lt_succ_self _
  | template hq hg => exact Nat.lt_trans hg.length_lt hq.length_lt
  | entries hn he hg =>
    calc
      _ < _ := hg.length_lt
      _ < _ := he.length_lt
      _ ≤ _ := hn.length_le
      _ < _ := Nat.lt_succ_self _

theorem Selecting.length_lt {names : List String} (h : Selecting text names rest) :
    rest.length < text.length := by
  induction h with
  | last hn hb =>
    calc
      _ < _ := length_lt_of_blanks hb
      _ < _ := length_lt_of_word hn
      _ < _ := Nat.lt_succ_self _
  | more hn hb hs _ ih =>
    calc
      _ < _ := ih
      _ ≤ _ := length_le_of_blanks hs
      _ < _ := length_lt_of_blanks hb
      _ < _ := length_lt_of_word hn
      _ < _ := Nat.lt_succ_self _

theorem Modifier.length_lt {modifier : Phrasebook.Modifier}
    (h : Source.Modifier text modifier rest) : rest.length < text.length := by
  cases h with
  | tag hn => exact Nat.lt_succ_of_lt (length_lt_of_word hn)
  | inherits hf hb hn he =>
    calc
      _ < _ := length_lt_of_blanks he
      _ < _ := length_lt_of_word hn
      _ < _ := length_lt_of_blanks hb
      _ < _ := Nat.lt_of_succ_lt (length_lt_of_word hf)
      _ < _ := Nat.lt_succ_self _
  | selects hm hb hs =>
    calc
      _ < _ := hs.length_lt
      _ ≤ _ := length_le_of_blanks hb
      _ < _ := Nat.lt_of_succ_lt (length_lt_of_word hm)
      _ < _ := Nat.lt_succ_self _

theorem Tail.length_lt {modifiers : List Phrasebook.Modifier} {body : Draft.Body}
    (h : Tail text modifiers body rest) : rest.length < text.length := by
  induction h with
  | body hb => exact hb.length_lt
  | modifier hm hg _ ih =>
    calc
      _ < _ := ih
      _ ≤ _ := hg.length_le
      _ < _ := hm.length_lt

theorem SomeParameters.length_lt {names : List String} (h : SomeParameters text names rest) :
    rest.length < text.length := by
  induction h with
  | last hg hn he =>
    calc
      _ < _ := he.length_lt
      _ < _ := length_lt_of_word hn
      _ < _ := hg.length_lt
  | more hg hn he _ ih =>
    calc
      _ < _ := ih
      _ < _ := he.length_lt
      _ < _ := length_lt_of_word hn
      _ < _ := hg.length_lt

theorem Parameters.length_le {names : List String} (h : Parameters text names rest) :
    rest.length ≤ text.length := by
  cases h with
  | absent => exact Nat.le_refl _
  | none hg => exact Nat.le_succ_of_le (Nat.le_of_lt hg.length_lt)
  | some hs => exact Nat.le_succ_of_le (Nat.le_of_lt hs.length_lt)

theorem Definition.length_lt {draft : Draft} (h : Source.Definition text draft rest) :
    rest.length < text.length := by
  obtain ⟨-, -, hn, hg, hp, he, hb, ht⟩ := h
  calc
    _ < _ := ht.length_lt
    _ ≤ _ := hb.length_le
    _ < _ := he.length_lt
    _ ≤ _ := hp.length_le
    _ ≤ _ := hg.length_le
    _ < _ := length_lt_of_word hn

end Source

section

open Source

variable {text rest : List Char}

/-! ### Keys -/

theorem keyPart_complete {part : KeyPart} (h : Part text part rest) (he : Ended isWordChar rest) :
    Grammar.keyPart text = .done part rest := by
  rw [Grammar.keyPart, orElse_eq_done]
  simp only [bind_eq_done, char_eq_done, optional_eq_done, word_eq_done, pure_eq_done]
  cases h with
  | word hw =>
    exact .inr ⟨(declines_char (hw.head?_ne (by decide))).bind _, _, _, hw, rfl, rfl⟩
  | star => exact .inl ⟨(), _, rfl, none, _, .inr ⟨rfl, declines_word he, rfl⟩, rfl, rfl⟩
  | labelled hw => exact .inl ⟨(), _, rfl, _, _, .inl ⟨_, rfl, hw⟩, rfl, rfl⟩

theorem ended_cons {c : Char} (hc : isWordChar c = false) : Ended isWordChar (c :: rest) := by
  intro d hd
  cases hd
  exact hc

theorem separated1_keyPart_complete {parts : List KeyPart} (h : Parts text parts rest)
    (he : Ended isWordChar rest) (hdot : rest.head? ≠ some '.') :
    separated1 Grammar.keyPart (char '.') text = .done parts rest := by
  induction h with
  | last hp => exact separated1_last (keyPart_complete hp he) ((declines_char hdot).bind _)
  | more hp _ ih =>
    exact separated1_more (keyPart_complete hp (ended_cons (by decide))) char_done
      (Nat.le_succ _) (ih he hdot) fun _ _ _ h => (keyPart_sound h).length_lt

/-- A key ends where a gap before a sign begins. -/
theorem entryKey_complete {parts : List KeyPart} {next : List Char} {c : Char}
    (h : Parts text parts rest) (hg : Gap rest (c :: next)) (hc : isWordChar c = false)
    (hdot : c ≠ '.') : Grammar.entryKey text = .done ⟨parts⟩ rest := by
  have hp := separated1_keyPart_complete h (hg.ended hc)
    (hg.head?_ne hdot.symm (by decide) (by decide))
  exact bind_eq_done.2 ⟨parts, rest, hp, pure_eq_done.2 ⟨rfl, rfl⟩⟩

theorem comma_complete {next start : List Char} (hg : Gap text (',' :: next))
    (hn : Gap next start) : Grammar.comma text = .done () start := by
  simp only [Grammar.comma, bind_eq_done, gap_eq_done, char_eq_done]
  exact ⟨(), _, hg, (), next, rfl, hn⟩

theorem declines_comma {c : Char} (hg : Gap text (c :: rest)) (hc : c ≠ ',') :
    Declines Grammar.comma text :=
  .after (gap_done hg) ((declines_char_cons hc).bind _)

theorem length_le_of_comma {next start : List Char} (hg : Gap text (',' :: next))
    (hn : Gap next start) : start.length ≤ text.length :=
  Nat.le_trans hn.length_le (Nat.le_of_lt hg.length_lt)

theorem separated1_entryKey_complete {keys : List EntryKey} (h : Keys text keys rest) :
    ∃ stop, separated1 Grammar.entryKey Grammar.comma text = .done keys stop ∧
      Gap stop (':' :: rest) := by
  induction h with
  | last hk hg =>
    exact ⟨_, separated1_last (entryKey_complete hk hg (by decide) (by decide))
      ((declines_comma hg (by decide)).bind _), hg⟩
  | more hk hg hn _ ih =>
    obtain ⟨stop, hs, hstop⟩ := ih
    refine ⟨stop, ?_, hstop⟩
    exact separated1_more (entryKey_complete hk hg (by decide) (by decide)) (comma_complete hg hn)
      (length_le_of_comma hg hn) hs fun _ _ _ h => (entryKey_sound h).length_lt

/-! ### Entries -/

theorem entry_complete {entry : Draft.Entry} (h : Source.Entry text entry rest) :
    ∃ raw : RawEntry, raw.draft = entry ∧ Grammar.entry text = .done raw rest := by
  obtain ⟨hk, hg, hq⟩ := h
  obtain ⟨stop, hs, hstop⟩ := separated1_entryKey_complete hk
  obtain ⟨q, rfl, hr⟩ := quoted_complete hq
  refine ⟨⟨_, q⟩, rfl, ?_⟩
  simp only [Grammar.entry, bind_eq_done, gap_eq_done, expect_eq_done, pure_eq_done]
  exact ⟨_, stop, hs, (), _, hstop, (), _, rfl, (), _, hg, q, _, hr, rfl, rfl⟩

theorem declines_entry {c : Char} (hc : isWordChar c = false) (hs : c ≠ '*') :
    Declines Grammar.entry (c :: text) := by
  have hword : Declines word (c :: text) := declines_word (ended_cons hc)
  have hpart : Declines Grammar.keyPart (c :: text) := by
    have hchar : Declines (char '*') (c :: text) := declines_char_cons hs
    obtain ⟨wanted, stop, hstar⟩ := hchar.bind fun _ => do
      let label ← optional word
      return KeyPart.wildcard label
    obtain ⟨wanted', stop', hword⟩ := hword.bind fun name => pure (KeyPart.literal name)
    exact ⟨wanted', stop', by rw [Grammar.keyPart, orElse, hstar]; exact hword⟩
  exact (((hpart.bind _).bind _).bind _).bind _

/-- The entries, and the comma that may stand behind the last one. -/
theorem entries_complete {entries : List Draft.Entry} (h : Entries text entries rest) :
    ∃ (raws : List RawEntry) (stop : List Char) (comma : Option Unit) (after : List Char),
      raws.map RawEntry.draft = entries ∧
      separated1 Grammar.entry Grammar.comma text = .done raws stop ∧
      optional (do gap; char ',') stop = .done comma after ∧ Gap after ('}' :: rest) := by
  induction h with
  | last he hg =>
    obtain ⟨raw, rfl, hr⟩ := entry_complete he
    refine ⟨[raw], _, none, _, rfl,
      separated1_last hr ((declines_comma hg (by decide)).bind _), ?_, hg⟩
    exact optional_eq_done.2 (.inr ⟨rfl,
      .after (gap_done hg) (declines_char_cons (by decide)), rfl⟩)
  | comma he hg hn =>
    obtain ⟨raw, rfl, hr⟩ := entry_complete he
    refine ⟨[raw], _, some (), _, rfl, separated1_last hr ?_, ?_, hn⟩
    · exact .after (comma_complete hg hn) (declines_entry (by decide) (by decide))
    · exact optional_eq_done.2 (.inl ⟨(), rfl,
        bind_eq_done.2 ⟨(), _, gap_done hg, char_done⟩⟩)
  | more he hg hn _ ih =>
    obtain ⟨raw, rfl, hr⟩ := entry_complete he
    obtain ⟨raws, stop, comma, after, rfl, hs, ho, ha⟩ := ih
    refine ⟨raw :: raws, stop, comma, after, rfl, ?_, ho, ha⟩
    exact separated1_more hr (comma_complete hg hn) (length_le_of_comma hg hn) hs
      fun _ _ _ h => (entry_sound h).length_lt

theorem block_complete {start : List Char} {entries : List Draft.Entry} (hn : Gap text start)
    (he : Entries start entries rest) :
    ∃ raws : List RawEntry, raws.map RawEntry.draft = entries ∧
      Grammar.block ('{' :: text) = .done raws rest := by
  obtain ⟨raws, stop, comma, after, rfl, hs, ho, ha⟩ := entries_complete he
  refine ⟨raws, rfl, ?_⟩
  simp only [Grammar.block, bind_eq_done, char_eq_done, commit_eq_done, gap_eq_done,
    expect_eq_done, pure_eq_done]
  exact ⟨(), text, rfl, (), start, hn, raws, stop, hs, comma, after, ho, (), _, ha, (), rest, rfl,
    rfl, rfl⟩

/-! ### Bodies -/

/-- The body is read up to the gap before the semicolon. -/
theorem phraseBody_complete {body : Draft.Body} (h : Source.Body text body rest) :
    ∃ (raw : RawBody) (stop : List Char), raw.draft = body ∧
      Grammar.phraseBody text = .done raw stop ∧ Gap stop (';' :: rest) := by
  cases h with
  | absent => exact ⟨.absent, _, rfl, rfl, (gap_cons (by decide) (by decide)).2 rfl⟩
  | template hq hg =>
    obtain ⟨q, rfl, hr⟩ := quoted_complete hq
    refine ⟨.template q, _, rfl, ?_, hg⟩
    obtain ⟨more, rfl⟩ := hq.head
    rw [Grammar.phraseBody]
    · simp only [commit_eq_done, wanting_eq_done, labelled_eq_done, orElse_eq_done, bind_eq_done,
        pure_eq_done]
      exact .inr ⟨((declines_char_cons (by decide)).bind _).bind _, q, _, hr, rfl, rfl⟩
    · rintro more h
      cases h
  | entries hn he hg =>
    obtain ⟨raws, rfl, hr⟩ := block_complete hn he
    refine ⟨.entries raws, _, rfl, ?_, hg⟩
    rw [Grammar.phraseBody]
    · simp only [commit_eq_done, wanting_eq_done, labelled_eq_done, orElse_eq_done, bind_eq_done,
        pure_eq_done]
      exact .inl ⟨raws, _, hr, rfl, rfl⟩
    · rintro more h
      cases h

/-! ### Modifiers -/

theorem selecting_complete {names : List String} (h : Selecting text names rest) :
    ∃ stop, separated1 parameter (do blanks; char ','; blanks) text = .done names stop ∧
      Blanks stop (')' :: rest) := by
  induction h with
  | last hn hb =>
    refine ⟨_, separated1_last (parameter_eq_done.2 ⟨_, rfl, hn⟩) ?_, hb⟩
    exact Declines.bind (.after (a := ()) (blanks_eq_done.2 hb)
      ((declines_char_cons (by decide)).bind _)) _
  | more hn hb hs _ ih =>
    obtain ⟨stop, hm, hstop⟩ := ih
    refine ⟨stop, separated1_more (parameter_eq_done.2 ⟨_, rfl, hn⟩) (b := ()) ?_ ?_ hm ?_, hstop⟩
    · simp only [bind_eq_done, blanks_eq_done, char_eq_done]
      exact ⟨(), _, hb, (), _, rfl, hs⟩
    · exact Nat.le_trans (length_le_of_blanks hs) (Nat.le_of_lt (length_lt_of_blanks hb))
    · intro text name rest h
      obtain ⟨more, rfl, hn⟩ := parameter_eq_done.1 h
      exact Nat.lt_succ_of_lt (length_lt_of_word hn)

/-- Behind a tag there must be no parenthesis. -/
theorem modifier_complete {modifier : Modifier} (h : Source.Modifier text modifier rest)
    (hp : rest.head? ≠ some '(') : Grammar.modifier text = .done modifier rest := by
  simp only [Grammar.modifier, bind_eq_done, left_eq_done, char_eq_done, name_eq_done]
  cases h with
  | tag hn hfrom hmatch =>
    refine ⟨_, _, ⟨rfl, rfl⟩, (), _, rfl, _, _, hn, ?_⟩
    rw [if_neg hfrom, if_neg hmatch, Grammar.tagModifier]
    rintro inside rfl
    exact hp rfl
  | inherits hf hb hn he =>
    refine ⟨_, _, ⟨rfl, rfl⟩, (), _, rfl, _, _, hf, ?_⟩
    simp only [if_true, Grammar.fromModifier, labelled_eq_done, commit_eq_done, bind_eq_done,
      char_eq_done, blanks_eq_done, parameter_eq_done, pure_eq_done]
    exact ⟨(), _, rfl, (), _, hb, _, _, ⟨_, rfl, hn⟩, (), _, he, (), _, rfl, rfl, rfl⟩
  | selects hm hb hs =>
    obtain ⟨stop, hnames, hstop⟩ := selecting_complete hs
    refine ⟨_, _, ⟨rfl, rfl⟩, (), _, rfl, _, _, hm, ?_⟩
    rw [if_neg (by decide), if_pos rfl]
    simp only [Grammar.matchModifier, labelled_eq_done, commit_eq_done, bind_eq_done,
      char_eq_done, blanks_eq_done, pure_eq_done]
    exact ⟨(), _, rfl, (), _, hb, _, _, hnames, (), _, hstop, (), _, rfl, rfl, rfl⟩

theorem Source.Body.head {body : Draft.Body} (h : Source.Body text body rest) :
    ∃ c more, text = c :: more ∧ c ∈ [';', '"', '{'] := by
  cases h with
  | absent => exact ⟨_, _, rfl, by simp⟩
  | template hq _ =>
    obtain ⟨more, rfl⟩ := hq.head
    exact ⟨_, more, rfl, by simp⟩
  | entries _ _ _ => exact ⟨_, _, rfl, by simp⟩

theorem Source.Tail.head {modifiers : List Phrasebook.Modifier} {body : Draft.Body}
    (h : Tail text modifiers body rest) :
    ∃ c more, text = c :: more ∧ c ∈ [':', ';', '"', '{'] := by
  cases h with
  | body hb =>
    obtain ⟨c, more, rfl, hc⟩ := hb.head
    exact ⟨c, more, rfl, List.mem_cons_of_mem _ hc⟩
  | modifier hm _ _ => cases hm <;> exact ⟨_, _, rfl, by simp⟩

theorem tail_complete {modifiers : List Modifier} {body : Draft.Body}
    (h : Tail text modifiers body rest) :
    ∃ (middle stop : List Char) (raw : RawBody), raw.draft = body ∧
      many (do let modifier ← Grammar.modifier; gap; return modifier) text =
        .done modifiers middle ∧
      Grammar.phraseBody middle = .done raw stop ∧ Gap stop (';' :: rest) := by
  induction h with
  | @body text rest body hb =>
    obtain ⟨raw, stop, rfl, hr, hg⟩ := phraseBody_complete hb
    refine ⟨text, stop, raw, rfl, many_nil ?_, hr, hg⟩
    obtain ⟨c, more, rfl, hc⟩ := hb.head
    have hcolon : (c :: more).head? ≠ some ':' := by
      rintro hd
      cases hd
      exact absurd hc (by decide)
    exact Declines.bind (.after left_done ((declines_char hcolon).bind _)) _
  | modifier hm hg ht ih =>
    obtain ⟨middle, stop, raw, rfl, hs, hr, hstop⟩ := ih
    refine ⟨middle, stop, raw, rfl, many_cons ?_ ?_ hs, hr, hstop⟩
    · obtain ⟨c, more, rfl, hc⟩ := ht.head
      have hne : '(' ≠ c := by
        rintro rfl
        exact absurd hc (by decide)
      simp only [bind_eq_done, gap_eq_done, pure_eq_done]
      exact ⟨_, _, modifier_complete hm (hg.head?_ne hne (by decide) (by decide)), (), _, hg, rfl,
        rfl⟩
    · exact Nat.lt_of_le_of_lt hg.length_le hm.length_lt

theorem Source.Tail.gap {modifiers : List Phrasebook.Modifier} {body : Draft.Body}
    (h : Tail text modifiers body rest) : Gap text text := by
  obtain ⟨c, more, rfl, hc⟩ := h.head
  refine gap_of_head rfl ?_ ?_
  · simp only [List.mem_cons, List.not_mem_nil, or_false] at hc
    rcases hc with rfl | rfl | rfl | rfl <;> decide
  · rintro rfl
    exact absurd hc (by decide)

/-! ### Definitions -/

theorem someParameters_complete {names : List String} (h : SomeParameters text names rest) :
    ∃ stop, separated1 (do gap; parameter) (do gap; char ',') text = .done names stop ∧
      Gap stop (')' :: rest) := by
  have hitem {text start stop : List Char} {name : String} (hg : Gap text ('$' :: start))
      (hn : Name start name stop) : (do gap; parameter : Reader String) text = .done name stop :=
    bind_eq_done.2 ⟨(), _, gap_done hg, parameter_eq_done.2 ⟨_, rfl, hn⟩⟩
  induction h with
  | last hg hn he =>
    refine ⟨_, separated1_last (hitem hg hn) ?_, he⟩
    exact Declines.bind (.after (gap_done he) (declines_char_cons (by decide))) _
  | more hg hn he _ ih =>
    obtain ⟨stop, hm, hstop⟩ := ih
    refine ⟨stop, separated1_more (hitem hg hn) (b := ())
      (bind_eq_done.2 ⟨(), _, gap_done he, char_done⟩)
      (Nat.le_of_lt he.length_lt) hm ?_, hstop⟩
    intro text name rest h
    obtain ⟨_, start, hg, h⟩ := bind_eq_done.1 h
    obtain ⟨more, rfl, hn⟩ := parameter_eq_done.1 h
    exact Nat.lt_trans (length_lt_of_word hn) (gap_eq_done.1 hg).length_lt

theorem parameterList_complete {names : List String} {next : List Char}
    (h : Parameters text names rest) (he : Gap rest ('=' :: next)) :
    ∃ found, optional Grammar.parameterList text = .done found rest ∧ found.getD [] = names := by
  cases h with
  | absent =>
    refine ⟨none, optional_eq_done.2 (.inr ⟨rfl, ?_, rfl⟩), rfl⟩
    exact (declines_char (he.head?_ne (by decide) (by decide) (by decide))).bind _
  | none hg =>
    refine ⟨some [], optional_eq_done.2 (.inl ⟨_, rfl, ?_⟩), rfl⟩
    simp only [Grammar.parameterList, separated, bind_eq_done, char_eq_done, optional_eq_done,
      gap_eq_done, commit_eq_done, expect_eq_done, pure_eq_done]
    refine ⟨(), _, rfl, _, _, ⟨none, _, .inr ⟨rfl, ?_, rfl⟩, rfl, rfl⟩, (), _, hg, (), _, rfl, rfl,
      rfl⟩
    exact Declines.bind (.after (gap_done hg) ((declines_char_cons (by decide)).bind _)) _
  | some hs =>
    obtain ⟨stop, hm, hstop⟩ := someParameters_complete hs
    refine ⟨some names, optional_eq_done.2 (.inl ⟨_, rfl, ?_⟩), rfl⟩
    simp only [Grammar.parameterList, separated, bind_eq_done, char_eq_done, optional_eq_done,
      gap_eq_done, commit_eq_done, expect_eq_done, pure_eq_done]
    exact ⟨(), _, rfl, _, _, ⟨some names, _, .inl ⟨_, rfl, hm⟩, rfl, rfl⟩, (), _, hstop, (), _, rfl,
      rfl, rfl⟩

theorem definition_complete {draft : Draft} (h : Source.Definition text draft rest) :
    ∃ raw : RawDefinition, raw.draft = draft ∧ Grammar.definition text = .done raw rest := by
  obtain ⟨hc, hsmall, hn, hg, hp, he, hb, ht⟩ := h
  obtain ⟨found, hfound, rfl⟩ := parameterList_complete hp he
  obtain ⟨middle, stop, raw, rfl, hm, hr, hstop⟩ := tail_complete ht
  refine ⟨⟨_, _, _, raw, text.length⟩, rfl, ?_⟩
  simp only [Grammar.definition, bind_eq_done, left_eq_done, phraseName_eq_done, gap_eq_done,
    commit_eq_done, expect_eq_done, many_bind_eq_done, pure_eq_done]
  exact ⟨_, _, ⟨rfl, rfl⟩, _, _, ⟨⟨_, hc, hsmall⟩, hn⟩, (), _, hg, found, _, hfound, (), _, he, (),
    _, rfl, (), _, hb, _, _, hm, raw, stop, hr, (), _, hstop, (), rest, rfl, rfl, rfl⟩

theorem definitions_of_source {drafts : List Draft} (h : Source text drafts) :
    ∃ raws : List RawDefinition, raws.map RawDefinition.draft = drafts ∧
      Grammar.definitions text = .done raws [] := by
  obtain ⟨start, hg, hs⟩ := h
  have hmany : ∃ raws : List RawDefinition, raws.map RawDefinition.draft = drafts ∧
      many (do let definition ← Grammar.definition; gap; return definition) start =
        .done raws [] := by
    clear hg
    induction hs with
    | nil =>
      have hname : Declines Grammar.phraseName [] := ⟨_, _, rfl⟩
      exact ⟨[], rfl, many_nil (Declines.bind (.after left_done (hname.bind _)) _)⟩
    | cons hd hn _ ih =>
      obtain ⟨raw, rfl, hr⟩ := definition_complete hd
      obtain ⟨raws, rfl, hm⟩ := ih
      refine ⟨raw :: raws, rfl, many_cons ?_ (Nat.lt_of_le_of_lt hn.length_le hd.length_lt) hm⟩
      simp only [bind_eq_done, gap_eq_done, pure_eq_done]
      exact ⟨raw, _, hr, (), _, hn, rfl, rfl⟩
  obtain ⟨raws, hraws, hm⟩ := hmany
  exact ⟨raws, hraws, bind_eq_done.2 ⟨(), start, gap_done hg, hm⟩⟩

end

end Phrasebook
