import Phrasebook.Proofs.Grammar

/-!
Reading the words of a hole, which are its names, keys, numbers and texts in quotes: each reader
answers with what the grammar says that the characters to come spell, and with nothing else.
-/

namespace Phrasebook.Template

open Text Template.Grammar

/-! ### Runs -/

section

variable {first p : Char → Bool} {text rest : List Char} {word name : String}

theorem run_eq_iff : run p text = (word, rest) ↔ Run p text word rest := by
  constructor
  · intro h
    cases h
    refine ⟨?_, ?_, ?_⟩
    · rw [String.toList_ofList, List.takeWhile_append_dropWhile]
    · intro c hc
      rw [String.toList_ofList] at hc
      exact List.all_eq_true.1 List.all_takeWhile c hc
    · intro c hc
      have := List.head?_dropWhile_not p text
      rwa [hc] at this
  · rintro ⟨rfl, inside, ended⟩
    have hstop : rest.takeWhile p = [] ∧ rest.dropWhile p = rest := by
      cases rest with
      | nil => exact ⟨rfl, rfl⟩
      | cons c more => simp [ended c rfl]
    rw [run, List.takeWhile_append_of_pos inside, List.dropWhile_append_of_pos inside, hstop.1,
      hstop.2, List.append_nil, String.ofList_toList]

theorem Grammar.Run.toList_eq (h : Run p text word rest) : word.toList = text.takeWhile p := by
  cases run_eq_iff.2 h
  exact String.toList_ofList

theorem Grammar.Run.rest_eq (h : Run p text word rest) : rest = text.dropWhile p :=
  (congrArg Prod.snd (run_eq_iff.2 h)).symm

theorem skipBlanks_eq_iff : skipBlanks text = rest ↔ Blanks text rest := by
  constructor
  · rintro rfl
    exact ⟨_, run_eq_iff.1 rfl⟩
  · rintro ⟨blanks, h⟩
    exact congrArg Prod.snd (run_eq_iff.2 h)

/-- Blanks end at the first character that is none. -/
theorem Grammar.Blanks.eq_of_head? {c : Char} (h : Blanks text rest) (hc : text.head? = some c)
    (hb : isBlank c = false) : rest = text := by
  cases text with
  | nil => cases hc
  | cons d more =>
    cases hc
    rw [← skipBlanks_eq_iff.2 h]
    simp [skipBlanks, hb]

theorem Grammar.Blanks.head?_ne {c d : Char} (h : Blanks text (d :: rest)) (hc : isBlank c = false)
    (hne : d ≠ c) : text.head? ≠ some c := by
  intro hd
  rw [← h.eq_of_head? hd hc] at hd
  exact hne (Option.some.inj hd)

/-! ### Words -/

theorem Grammar.Word.head?_eq (h : Word first p text word rest) :
    ∃ c, text.head? = some c ∧ first c := by
  obtain ⟨c, hc, hf⟩ := h.start
  refine ⟨c, ?_, hf⟩
  rw [h.spelled, List.head?_append, hc]
  rfl

theorem Grammar.Word.head?_ne (h : Word first p text word rest) {c : Char} (hc : first c = false) :
    text.head? ≠ some c := by
  intro hd
  obtain ⟨d, hd', hf⟩ := h.head?_eq
  cases hd.symm.trans hd'
  simp [hc] at hf

theorem Grammar.Word.nonempty (h : Word first p text word rest) : word ≠ "" := by
  rintro rfl
  obtain ⟨c, hc, -⟩ := h.start
  cases hc

/-- The run behind a character that may start a word. -/
theorem word_run {c : Char} (hf : first c) (hp : p c) :
    run p (c :: text) = (word, rest) ↔ Word first p (c :: text) word rest := by
  constructor
  · intro h
    refine ⟨run_eq_iff.1 h, c, ?_, hf⟩
    rw [(run_eq_iff.1 h).toList_eq, List.takeWhile_cons_of_pos hp]
    rfl
  · intro h
    exact run_eq_iff.2 h.toRun

theorem name?_eq_some : name? text = some (name, rest) ↔ Name text name rest := by
  cases text with
  | nil => exact ⟨fun h => (by cases h), fun h => (by simpa using h.head?_eq)⟩
  | cons c more =>
    rw [name?]
    by_cases hc : isNameStart c
    · rw [if_pos hc, Option.some.injEq, word_run hc (isWordChar_of_isNameStart hc)]
    · rw [if_neg hc]
      refine ⟨fun h => (by cases h), fun h => ?_⟩
      exact absurd rfl (h.head?_ne (Bool.eq_false_iff.2 hc))

theorem run?_eq_some : run? p text = some (word, rest) ↔ Word p p text word rest := by
  cases text with
  | nil => exact ⟨fun h => (by cases h), fun h => (by simpa using h.head?_eq)⟩
  | cons c more =>
    rw [run?]
    by_cases hc : p c
    · rw [if_pos hc, Option.some.injEq, word_run hc hc]
    · rw [if_neg hc]
      refine ⟨fun h => (by cases h), fun h => ?_⟩
      exact absurd rfl (h.head?_ne (Bool.eq_false_iff.2 hc))

theorem isDigit_of_isNameStart {c : Char} (h : isNameStart c) : c.isDigit = false := by
  refine Bool.eq_false_iff.2 fun hd => ?_
  have hdigit : c.val ≤ '9'.val := of_decide_eq_true (Bool.and_eq_true_iff.1 hd).2
  rw [isNameStart, Bool.or_eq_true, beq_iff_eq] at h
  rcases h with ha | rfl
  · rcases Bool.or_eq_true_iff.1 ha with hu | hl
    · have hupper : 'A'.val ≤ c.val := (of_decide_eq_true hu).1
      exact absurd (UInt32.le_trans hupper hdigit) (by decide)
    · have hlower : 'a'.val ≤ c.val := of_decide_eq_true (Bool.and_eq_true_iff.1 hl).1
      exact absurd (UInt32.le_trans hlower hdigit) (by decide)
  · cases hd

theorem parameter?_eq_some :
    parameter? text = some (name, rest) ↔ ∃ more, text = '$' :: more ∧ Name more name rest := by
  unfold parameter?
  split
  · next more => simp [name?_eq_some]
  · next hne =>
    refine ⟨fun h => (by cases h), ?_⟩
    rintro ⟨more, rfl, -⟩
    exact absurd rfl (hne more)

theorem parameter?_eq_none (h : text.head? ≠ some '$') : parameter? text = none := by
  unfold parameter?
  split
  · exact absurd rfl h
  · rfl

end

/-! ### Keys -/

section

variable {text rest : List Char} {key : Selector}

/-- A reader that tries a parameter before a word of a class without the dollar sign. -/
theorem key_iff {p : Char → Bool} (hp : p '$' = false) :
    (match parameter? text with
      | some (name, rest) => some (Selector.parameter name, rest)
      | none => (run? p text).map fun (word, rest) => (.literal word, rest)) = some (key, rest) ↔
      Key p text key rest := by
  constructor
  · intro h
    split at h
    · next name more hname =>
      cases h
      obtain ⟨text, rfl, hn⟩ := parameter?_eq_some.1 hname
      exact .parameter hn
    · obtain ⟨⟨word, more⟩, hw, he⟩ := Option.map_eq_some_iff.1 h
      cases he
      exact .literal (run?_eq_some.1 hw)
  · intro h
    cases h with
    | parameter hn => rw [parameter?_eq_some.2 ⟨_, rfl, hn⟩]
    | literal hw =>
      rw [parameter?_eq_none (hw.head?_ne hp), run?_eq_some.2 hw]
      rfl

theorem selector?_eq_some : selector? text = some (key, rest) ↔ Key isWordChar text key rest :=
  key_iff rfl

theorem context?_eq_some : context? text = some (key, rest) ↔ Key isDotted text key rest :=
  key_iff rfl

end

/-! ### Numbers and texts in quotes -/

section

variable {text rest : List Char}

theorem word_iff_takeWhile {p : Char → Bool} {word : String} : Word p p text word rest ↔
    text.takeWhile p ≠ [] ∧ word.toList = text.takeWhile p ∧ rest = text.dropWhile p := by
  constructor
  · intro h
    refine ⟨?_, h.toList_eq, h.rest_eq⟩
    rw [← h.toList_eq]
    exact fun hnil => h.nonempty (String.toList_eq_nil_iff.1 hnil)
  · rintro ⟨hne, hw, rfl⟩
    have hrun : Run p text word (text.dropWhile p) := by
      rw [← run_eq_iff, run, ← hw, String.ofList_toList]
    refine ⟨hrun, ?_⟩
    obtain ⟨c, more, hc⟩ := List.exists_cons_of_ne_nil hne
    have hhead : word.toList.head? = some c := by rw [hw, hc, List.head?_cons]
    exact ⟨c, hhead, hrun.inside c (List.mem_of_mem_head? hhead)⟩

/-- Digits are read to their end. What they are worth depends on the sign before them, which is part
of `read`. -/
theorem digits_iff (read : List Char → Option Int64) (worth : List Char → Int) {n : Int64}
    (h : ∀ digits, (∀ c ∈ digits, c.isDigit) →
      (read digits = some n ↔ digits ≠ [] ∧ n.toInt = worth digits)) :
    ((read (text.takeWhile Char.isDigit)).map fun n => (n, text.dropWhile Char.isDigit)) =
        some (n, rest) ↔
      ∃ digits, Word Char.isDigit Char.isDigit text digits rest ∧
        n.toInt = worth digits.toList := by
  have hread := h (text.takeWhile Char.isDigit) (List.all_eq_true.1 List.all_takeWhile)
  simp only [word_iff_takeWhile, Option.map_eq_some_iff, Prod.mk.injEq]
  constructor
  · rintro ⟨m, hm, rfl, rfl⟩
    obtain ⟨hne, hn⟩ := hread.1 hm
    refine ⟨String.ofList (text.takeWhile Char.isDigit), ⟨hne, String.toList_ofList, rfl⟩, ?_⟩
    rwa [String.toList_ofList]
  · rintro ⟨digits, ⟨hne, hw, rfl⟩, hn⟩
    rw [hw] at hn
    exact ⟨n, hread.2 ⟨hne, hn⟩, rfl, rfl⟩

/-- Digits without a sign. -/
theorem number?_unsigned (h : text.head? ≠ some '-') :
    number? text = (integer? (text.takeWhile Char.isDigit)).map fun n =>
      (n, text.dropWhile Char.isDigit) := by
  unfold number?
  split
  next sign digits hs =>
    split at hs
    · exact absurd rfl h
    · cases hs
      rfl

theorem number?_eq_some {n : Int64} : number? text = some (n, rest) ↔ Integer text n rest := by
  by_cases hsign : text.head? = some '-'
  · obtain ⟨more, rfl⟩ : ∃ more, text = '-' :: more := List.head?_eq_some_iff.1 hsign
    have hread : number? ('-' :: more) = some (n, rest) ↔ ∃ digits,
        Word Char.isDigit Char.isDigit more digits rest ∧
          n.toInt = -(decimal digits.toList : Int) := by
      refine digits_iff (fun digits => integer? ('-' :: digits))
        (fun digits => -(decimal digits : Int)) fun digits hall => ?_
      rw [integer?_minus_eq_some, and_iff_right hall]
    rw [hread]
    constructor
    · rintro ⟨digits, hd, hn⟩
      exact .negative hd hn
    · intro h
      cases h with
      | unsigned hd => exact absurd hsign (hd.head?_ne (by decide))
      | negative hd hn => exact ⟨_, hd, hn⟩
  · have hread : number? text = some (n, rest) ↔ ∃ digits,
        Word Char.isDigit Char.isDigit text digits rest ∧ n.toInt = decimal digits.toList := by
      rw [number?_unsigned hsign]
      refine digits_iff integer? (fun digits => decimal digits) fun digits hall => ?_
      rw [integer?_eq_some (head?_ne_of_isDigit hall rfl) (head?_ne_of_isDigit hall rfl),
        and_iff_right hall]
    rw [hread]
    constructor
    · rintro ⟨digits, hd, hn⟩
      exact .unsigned hd hn
    · intro h
      cases h with
      | unsigned hd hn => exact ⟨_, hd, hn⟩
      | negative => exact absurd rfl hsign

theorem quoted?_eq_some {content : String} : quoted? text = some (content, rest) ↔
    ∃ inside, '"' ∉ inside ∧ text = '"' :: (inside ++ '"' :: rest) ∧
      content = String.ofList inside := by
  constructor
  · intro h
    unfold quoted? at h
    split at h
    · next more =>
      split at h
      · next quote rest hd =>
        cases h
        have hq : quote = '"' := by
          have := List.head?_dropWhile_not (· ≠ '"') more
          rw [hd] at this
          simpa using this
        subst hq
        refine ⟨_, ?_, ?_, rfl⟩
        · intro hin
          simpa using List.all_eq_true.1 List.all_takeWhile _ hin
        · rw [← hd, List.takeWhile_append_dropWhile]
      · cases h
    · cases h
  · rintro ⟨inside, hq, rfl, rfl⟩
    have hrun : Run (· ≠ '"') (inside ++ '"' :: rest) (String.ofList inside) ('"' :: rest) := by
      refine ⟨by rw [String.toList_ofList], ?_, by rintro c ⟨⟩; rfl⟩
      intro c hc
      rw [String.toList_ofList] at hc
      simp [ne_of_mem_of_not_mem hc hq]
    have h := run_eq_iff.2 hrun
    rw [run, Prod.mk.injEq] at h
    simp only [quoted?, h.1, h.2]

theorem number?_eq_none {c : Char} (h : text.head? = some c) (hm : c ≠ '-')
    (hd : c.isDigit = false) : number? text = none := by
  refine Option.eq_none_iff_forall_ne_some.2 fun ⟨n, rest⟩ hn => ?_
  cases number?_eq_some.1 hn with
  | unsigned hw => exact hw.head?_ne hd h
  | negative => exact hm (Option.some.inj h).symm

theorem quoted?_eq_none (h : text.head? ≠ some '"') : quoted? text = none := by
  unfold quoted?
  split
  · exact absurd rfl h
  · rfl

end

end Phrasebook.Template
