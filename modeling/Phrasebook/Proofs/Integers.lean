import Phrasebook.Proofs.Segments
import Phrasebook.Text.Integer

/-!
Texts that spell integers: which number digits spell, in what range it has to be, that the text an
integer is shown as spells it, and that no blank is part of one.
-/

namespace Phrasebook.Text

/-- The number that digits spell, the first one counting most. -/
def decimal (digits : List Char) : Nat :=
  Nat.ofDigitChars 10 digits 0

theorem decimalFrom_eq_some {high value : Nat} {digits : List Char} :
    decimalFrom high digits = some value ↔
      (∀ c ∈ digits, c.isDigit) ∧ value = Nat.ofDigitChars 10 digits high := by
  induction digits generalizing high with
  | nil =>
    rw [decimalFrom, Option.some.injEq, eq_comm]
    simp
  | cons c digits ih =>
    rw [decimalFrom, digit?, List.forall_mem_cons, Nat.ofDigitChars_cons, Nat.mul_comm 10]
    by_cases hc : c.isDigit
    · simp only [hc, if_true, Option.bind_some, ih, true_and]
    · simp [hc]

theorem decimal?_eq_some {value : Nat} {digits : List Char} :
    decimal? digits = some value ↔
      digits ≠ [] ∧ (∀ c ∈ digits, c.isDigit) ∧ value = decimal digits := by
  cases digits with
  | nil => simp [decimal?]
  | cons c digits => simp [decimal?, decimalFrom_eq_some, decimal]

theorem int64?_eq_some {value : Int} {n : Int64} : int64? value = some n ↔ n.toInt = value := by
  unfold int64?
  constructor
  · intro h
    split at h
    · next hr =>
      cases h
      exact Int64.toInt_ofInt_of_le hr.1 (Int.lt_add_one_of_le hr.2)
    · cases h
  · rintro rfl
    rw [if_pos ⟨n.minValue_le_toInt, n.toInt_le⟩, Int64.ofInt_toInt]

/-- The digits of a number, with the sign it has. -/
theorem decimal?_bind_int64?_eq_some {signed : Nat → Int} {digits : List Char} {n : Int64} :
    ((decimal? digits).bind fun value => int64? (signed value)) = some n ↔
      digits ≠ [] ∧ (∀ c ∈ digits, c.isDigit) ∧ n.toInt = signed (decimal digits) := by
  simp only [Option.bind_eq_some_iff, decimal?_eq_some, int64?_eq_some]
  constructor
  · rintro ⟨value, ⟨hne, hall, rfl⟩, hn⟩
    exact ⟨hne, hall, hn⟩
  · rintro ⟨hne, hall, hn⟩
    exact ⟨_, ⟨hne, hall, rfl⟩, hn⟩

/-- Behind a minus sign. -/
theorem integer?_minus_eq_some {digits : List Char} {n : Int64} :
    integer? ('-' :: digits) = some n ↔
      digits ≠ [] ∧ (∀ c ∈ digits, c.isDigit) ∧ n.toInt = -(decimal digits : Int) :=
  decimal?_bind_int64?_eq_some

/-- Without a sign. -/
theorem integer?_eq_some {digits : List Char} {n : Int64}
    (hm : digits.head? ≠ some '-') (hp : digits.head? ≠ some '+') :
    integer? digits = some n ↔
      digits ≠ [] ∧ (∀ c ∈ digits, c.isDigit) ∧ n.toInt = decimal digits := by
  unfold integer?
  split
  · exact absurd rfl hm
  · exact absurd rfl hp
  · exact decimal?_bind_int64?_eq_some

theorem head?_ne_of_isDigit {digits : List Char} (h : ∀ c ∈ digits, c.isDigit) {c : Char}
    (hc : c.isDigit = false) : digits.head? ≠ some c := by
  intro hd
  exact absurd (h c (List.mem_of_mem_head? hd)) (by simp [hc])

theorem decimal_toDigits (value : Nat) : decimal (Nat.toDigits 10 value) = value :=
  Nat.ofDigitChars_ten_toDigits

/-- An integer is read back from the text that shows it. -/
theorem integer?_showInteger (n : Int64) : integer? (showInteger n).toList = some n := by
  have digits (value : Nat) : ∀ c ∈ Nat.toDigits 10 value, c.isDigit := fun c hc =>
    Nat.isDigit_of_mem_toDigits (by decide) (by decide) hc
  cases hn : n.toInt with
  | ofNat value =>
    have shown : (showInteger n).toList = Nat.toDigits 10 value := by
      simp [showInteger, hn, Int.toString_eq_repr, Int.repr, Nat.repr]
    rw [shown, integer?_eq_some (head?_ne_of_isDigit (digits value) rfl)
      (head?_ne_of_isDigit (digits value) rfl), decimal_toDigits]
    exact ⟨Nat.toDigits_ne_nil, digits value, hn⟩
  | negSucc value =>
    have shown : (showInteger n).toList = '-' :: Nat.toDigits 10 (value + 1) := by
      simp [showInteger, hn, Int.toString_eq_repr, Int.repr, Nat.repr]
    rw [shown, integer?_minus_eq_some, decimal_toDigits]
    exact ⟨Nat.toDigits_ne_nil, digits (value + 1), hn⟩

/-! ### Blanks -/

theorem isBlank_of_isDigit {c : Char} (h : c.isDigit) : isBlank c = false := by
  simp only [Char.isDigit, Bool.and_eq_true, decide_eq_true_eq] at h
  have hlow : 48 ≤ c.toNat := h.1
  have hhigh : c.toNat ≤ 57 := h.2
  simp only [isBlank, Bool.or_eq_false_iff, Bool.and_eq_false_iff, decide_eq_false_iff_not,
    beq_eq_false_iff_ne]
  omega

theorem isBlank_of_integer? {text : List Char} {n : Int64} (h : integer? text = some n) :
    ∀ c ∈ text, isBlank c = false := by
  have digits {rest : List Char} {f : Nat → Option Int64} (h : (decimal? rest).bind f = some n) :
      ∀ c ∈ rest, isBlank c = false := by
    obtain ⟨value, hv, -⟩ := Option.bind_eq_some_iff.1 h
    exact fun c hc => isBlank_of_isDigit ((decimal?_eq_some.1 hv).2.1 c hc)
  unfold integer? at h
  split at h
  · exact List.forall_mem_cons.2 ⟨by decide, digits h⟩
  · exact List.forall_mem_cons.2 ⟨by decide, digits h⟩
  · exact digits h

/-- A text that spells an integer between blanks spells it as it stands when it has no blanks at its
ends. -/
theorem integer?_of_trim {text : List Char} {n : Int64} (h : integer? (trim text) = some n) :
    integer? text = if trim text = text then some n else none := by
  split
  · next ht => rw [← h, ht]
  · next ht =>
    cases hi : integer? text with
    | none => rfl
    | some m => exact absurd (trim_eq_self (isBlank_of_integer? hi)) ht

end Phrasebook.Text
