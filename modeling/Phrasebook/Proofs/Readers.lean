import Phrasebook.Proofs.Sources
import Phrasebook.Proofs.Words

/-!
What the readers of sources are done with: for each way of putting readers together, when the whole
is done and with what.
-/

namespace Phrasebook.Reader

open Text Template.Grammar Source

variable {α β : Type} {r s : Reader α} {f : α → Reader β} {a : α} {b : β} {u : Unit} {c : Char}
  {text rest : List Char} {name : String}

/-! ### One reader after the other -/

theorem bind_apply (r : Reader α) (f : α → Reader β) (text : List Char) :
    (r >>= f) text = match r text with
      | .done value rest => f value rest
      | .declined wanted rest => .declined wanted rest
      | .stuck wanted rest => .stuck wanted rest :=
  rfl

@[simp] theorem bind_eq_done : (r >>= f) text = .done b rest ↔
    ∃ a middle, r text = .done a middle ∧ f a middle = .done b rest := by
  rw [bind_apply]
  cases r text <;> simp [and_assoc]

@[simp] theorem pure_eq_done {a' : α} :
    (pure a : Reader α) text = .done a' rest ↔ a = a' ∧ text = rest := by
  change Outcome.done a text = .done a' rest ↔ _
  simp

@[simp] theorem left_eq_done {n : Nat} :
    left text = .done n rest ↔ n = text.length ∧ rest = text := by
  simp [left, eq_comm]

@[simp] theorem ofOption_eq_done {f : List Char → Option (α × List Char)} :
    ofOption f text = .done a rest ↔ f text = some (a, rest) := by
  unfold ofOption
  cases f text with
  | none => simp
  | some found => simp [Prod.ext_iff]

@[simp] theorem char_eq_done : char c text = .done u rest ↔ text = c :: rest := by
  rw [char, ofOption_eq_done]
  cases text with
  | nil => simp
  | cons d more =>
    by_cases hd : d = c
    · simp [hd]
    · simp [hd]

theorem char_done : char c (c :: rest) = .done () rest :=
  char_eq_done.2 rfl

@[simp] theorem drop_eq_done {f : List Char → List Char} :
    drop f text = .done u rest ↔ f text = rest := by
  simp [drop]

@[simp] theorem commit_eq_done : commit r text = .done a rest ↔ r text = .done a rest := by
  unfold commit
  cases r text <;> simp

@[simp] theorem explain_eq_done {f : Wanted → Wanted} :
    explain f r text = .done a rest ↔ r text = .done a rest := by
  unfold explain
  cases r text <;> simp

@[simp] theorem labelled_eq_done {label : String} :
    labelled label r text = .done a rest ↔ r text = .done a rest :=
  explain_eq_done

@[simp] theorem wanting_eq_done : wanting c r text = .done a rest ↔ r text = .done a rest :=
  explain_eq_done

@[simp] theorem expect_eq_done : expect c text = .done u rest ↔ text = c :: rest := by
  rw [expect, wanting_eq_done, char_eq_done]

/-! ### Words and gaps -/

@[simp] theorem name_eq_done : Reader.name text = .done name rest ↔ Name text name rest := by
  rw [Reader.name, ofOption_eq_done, Template.name?_eq_some]

@[simp] theorem word_eq_done :
    Reader.word text = .done name rest ↔ Word isWordChar isWordChar text name rest := by
  rw [Reader.word, ofOption_eq_done, word?, Template.run?_eq_some]

@[simp] theorem parameter_eq_done :
    parameter text = .done name rest ↔ ∃ more, text = '$' :: more ∧ Name more name rest := by
  simp [parameter]

@[simp] theorem blanks_eq_done : blanks text = .done u rest ↔ Blanks text rest := by
  rw [blanks, drop_eq_done, Template.skipBlanks_eq_iff]

@[simp] theorem gap_eq_done : gap text = .done u rest ↔ Gap text rest := by
  rw [gap, drop_eq_done, Gap]

theorem gap_done (h : Gap text rest) : gap text = .done () rest :=
  gap_eq_done.2 h

theorem left_done : left text = .done text.length text :=
  rfl

/-! ### One reader or the other -/

/-- The reader lets another form be tried. -/
def Declines (r : Reader α) (text : List Char) : Prop :=
  ∃ wanted rest, r text = .declined wanted rest

theorem Declines.bind (h : Declines r text) (f : α → Reader β) : Declines (r >>= f) text := by
  obtain ⟨wanted, rest, h⟩ := h
  exact ⟨wanted, rest, by rw [bind_apply, h]⟩

theorem Declines.after {middle : List Char} (h : r text = .done a middle)
    (hf : Declines (f a) middle) : Declines (r >>= f) text := by
  obtain ⟨wanted, rest, hf⟩ := hf
  exact ⟨wanted, rest, by rw [bind_apply, h, ← hf]⟩

theorem declines_ofOption {f : List Char → Option (α × List Char)} (h : f text = none) :
    Declines (ofOption f) text :=
  ⟨.nothing, text, by rw [ofOption, h]⟩

theorem declines_char (h : text.head? ≠ some c) : Declines (char c) text := by
  apply declines_ofOption
  cases text with
  | nil => rfl
  | cons d more =>
    have hd : d ≠ c := fun hd => h (congrArg some hd)
    exact if_neg hd

theorem declines_char_cons {d : Char} (h : d ≠ c) : Declines (char c) (d :: rest) :=
  declines_char fun hd => h (Option.some.inj hd)

theorem declines_word (h : Ended isWordChar text) : Declines Reader.word text := by
  apply declines_ofOption
  cases text with
  | nil => rfl
  | cons d more => simp [word?, run?, h d rfl]

@[simp] theorem orElse_eq_done : orElse r s text = .done a rest ↔
    r text = .done a rest ∨ Declines r text ∧ s text = .done a rest := by
  unfold orElse Declines
  cases r text <;> simp

@[simp] theorem optional_eq_done {found : Option α} : optional r text = .done found rest ↔
    (∃ a, found = some a ∧ r text = .done a rest) ∨
      found = none ∧ Declines r text ∧ rest = text := by
  unfold optional Declines
  cases r text with
  | done value rest => simp [and_assoc, and_comm, eq_comm]
  | declined wanted rest => simp [eq_comm]
  | stuck wanted rest => simp

/-! ### As many as there are -/

@[simp] theorem many_bind_eq_done {f : List α → Reader β} :
    (bind (m := Reader) (many r) f) text = .done b rest ↔
      ∃ as middle, many r text = .done as middle ∧ f as middle = .done b rest :=
  bind_eq_done

/-- What a reader reads again and again. -/
inductive Several (r : Reader α) : List Char → List α → List Char → Prop where
  | nil {text : List Char} : Several r text [] text
  | cons {text middle rest : List Char} {a : α} {as : List α} (ha : r text = .done a middle)
      (hs : Several r middle as rest) :
    Several r text (a :: as) rest

theorem several_of_many {as : List α} (h : many r text = .done as rest) :
    Several r text as rest := by
  fun_induction many r text generalizing as rest with
  | case1 =>
    cases h
    exact .nil
  | case2 => cases h
  | case3 text a middle ha hlt as stop hm ih =>
    cases h
    exact .cons ha (ih hm)
  | case4 text a middle ha hlt hne ih => exact absurd h (hne as rest)
  | case5 text a middle ha hge =>
    cases h
    exact .cons ha .nil

theorem many_nil (hd : Declines r text) : many r text = .done [] text := by
  obtain ⟨wanted, stop, hd⟩ := hd
  rw [many, hd]

theorem many_cons {middle : List Char} {as : List α} (ha : r text = .done a middle)
    (hlt : middle.length < text.length) (hs : many r middle = .done as rest) :
    many r text = .done (a :: as) rest := by
  rw [many]
  simp only [ha, if_pos hlt, hs]

theorem many_of_several {as : List α} (h : Several r text as rest)
    (hlt : ∀ text a middle, r text = .done a middle → middle.length < text.length)
    (hd : Declines r rest) : many r text = .done as rest := by
  induction h with
  | nil => exact many_nil hd
  | cons ha hs ih => exact many_cons ha (hlt _ _ _ ha) (ih hd)

/-- Items with separators between them. -/
theorem separated1_eq_done {separator : Reader β} {as : List α} :
    separated1 r separator text = .done as rest ↔
      ∃ first more middle, as = first :: more ∧ r text = .done first middle ∧
        many (separator >>= fun _ => r) middle = .done more rest := by
  simp only [separated1, further, bind_eq_done, many_bind_eq_done, pure_eq_done]
  constructor
  · rintro ⟨first, middle, hf, more, _, hm, rfl, rfl⟩
    exact ⟨first, more, middle, rfl, hf, hm⟩
  · rintro ⟨first, more, middle, rfl, hf, hm⟩
    exact ⟨first, middle, hf, more, rest, hm, rfl, rfl⟩

theorem separated1_last {separator : Reader β} (ha : r text = .done a rest)
    (hd : Declines (separator >>= fun _ => r) rest) :
    separated1 r separator text = .done [a] rest :=
  separated1_eq_done.2 ⟨a, [], rest, rfl, ha, many_nil hd⟩

theorem separated1_more {separator : Reader β} {middle next : List Char} {as : List α}
    (ha : r text = .done a middle) (hb : separator middle = .done b next)
    (hle : next.length ≤ middle.length) (hs : separated1 r separator next = .done as rest)
    (hlt : ∀ text a rest, r text = .done a rest → rest.length < text.length) :
    separated1 r separator text = .done (a :: as) rest := by
  obtain ⟨first, more, stop, rfl, hf, hm⟩ := separated1_eq_done.1 hs
  have hstop := hlt _ _ _ hf
  exact separated1_eq_done.2 ⟨a, _, middle, rfl, ha,
    many_cons (bind_eq_done.2 ⟨b, next, hb, hf⟩) (by omega) hm⟩

end Phrasebook.Reader
