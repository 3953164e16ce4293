import Phrasebook.Embedded.Basic
import Phrasebook.Proofs.SourceCompleteness

/-!
How a program takes apart a text: into names, numbers, texts in quotes, and signs, each of which is
an atom. Blanks and comments fall away, except for comments that document something. Of the signs of
a program only those are known here that definitions are written with.
-/

namespace Phrasebook.Embedded

open Text

inductive Atom where
  | word (name : String)
  | mark (char : Char)
  | literal (spelling : List Char)
  | opening (bracket : Bracket)
  | closing (bracket : Bracket)
  /-- A comment that documents what follows it, or else what it stands in. -/
  | note (inner : Bool)
deriving DecidableEq, Repr

namespace Atom

/-! ### Taking apart -/

/-- What a program takes for a blank, which is the Unicode property Pattern_White_Space. -/
def isSpace (c : Char) : Bool :=
  let n := c.toNat
  (9 ≤ n && n ≤ 13) || n == 0x20 || n == 0x85 || n == 0x200E || n == 0x200F || n == 0x2028 ||
    n == 0x2029

def sign? (c : Char) : Option Atom :=
  match c with
  | '(' => some (.opening .round)
  | ')' => some (.closing .round)
  | '[' => some (.opening .square)
  | ']' => some (.closing .square)
  | '{' => some (.opening .curly)
  | '}' => some (.closing .curly)
  | c => if c ∈ ['$', ':', '=', ',', '.', '*', ';'] then some (.mark c) else none

/-- What a comment documents, by what follows its two slashes: nothing behind more than three. -/
def notes : List Char → List Atom
  | '!' :: _ => [.note true]
  | '/' :: '/' :: _ => []
  | '/' :: _ => [.note false]
  | _ => []

/-- The rest of a text in quotes up to the closing one, and what follows that. -/
def closed? : List Char → Option (List Char × List Char)
  | [] => none
  | '"' :: rest => some (['"'], rest)
  | '\\' :: c :: rest => (closed? rest).map fun found => ('\\' :: c :: found.1, found.2)
  | c :: rest => (closed? rest).map fun found => (c :: found.1, found.2)

def isCounting (c : Char) : Bool :=
  c.isDigit || c == '_'

/-- A full stop behind digits makes a fraction, unless another one or a name follows. -/
def isFraction (digits rest : List Char) : Bool :=
  digits.all isCounting && !rest.head?.any fun c => c == '.' || isNameStart c

/-- The spelling of a number and what follows it. -/
def number (text : List Char) : List Char × List Char :=
  let digits := text.takeWhile isWordChar
  match text.dropWhile isWordChar with
  | '.' :: rest =>
    if isFraction digits rest then
      (digits ++ '.' :: rest.takeWhile isWordChar, rest.dropWhile isWordChar)
    else (digits, '.' :: rest)
  | rest => (digits, rest)

/-- A quote may not touch the name in front of it. -/
def name? (text : List Char) : Option (List Atom × List Char) :=
  let found := run isWordChar text
  if found.2.head? = some '"' then none else some ([.word found.1], found.2)

/-- At most one atom that a text begins with, and what is left to be taken apart. -/
def next? : List Char → Option (List Atom × List Char)
  | [] => none
  | '/' :: '/' :: rest => some (notes rest, rest.dropWhile (· ≠ '\n'))
  | '"' :: rest => (closed? rest).map fun found => ([.literal ('"' :: found.1)], found.2)
  | c :: rest =>
    if isSpace c then some ([], rest)
    else if isNameStart c then name? (c :: rest)
    else if c.isDigit then some ([.literal (number (c :: rest)).1], (number (c :: rest)).2)
    else (sign? c).map fun atom => ([atom], rest)

variable {text rest : List Char} {c : Char}

theorem length_le_of_closed? :
    ∀ found ∈ closed? text, found.2.length ≤ text.length := by
  fun_induction closed? text with
  | case1 => simp
  | case2 rest => simp
  | case3 c rest ih =>
    intro found h
    obtain ⟨inner, hi, rfl⟩ := Option.map_eq_some_iff.1 h
    exact Nat.le_succ_of_le (Nat.le_succ_of_le (ih inner hi))
  | case4 c rest _ _ ih =>
    intro found h
    obtain ⟨inner, hi, rfl⟩ := Option.map_eq_some_iff.1 h
    exact Nat.le_succ_of_le (ih inner hi)

theorem length_number_le (hc : isWordChar c) :
    (number (c :: text)).2.length < (c :: text).length := by
  have hdrop : ((c :: text).dropWhile isWordChar).length ≤ text.length := by
    rw [List.dropWhile_cons_of_pos hc]
    exact length_dropWhile_le _ _
  unfold number
  dsimp only
  split
  · next rest hr =>
    rw [hr, List.length_cons] at hdrop
    split
    · have := length_dropWhile_le isWordChar rest
      simp only [List.length_cons]
      omega
    · simp only [List.length_cons]
      omega
  · exact Nat.lt_succ_of_le hdrop

theorem isWordChar_of_isDigit (h : c.isDigit) : isWordChar c := by
  simp [isWordChar, Char.isAlphanum, h]

theorem length_lt_of_next? {found : List Atom} (h : next? text = some (found, rest)) :
    rest.length < text.length := by
  unfold next? at h
  split at h
  · cases h
  · next more =>
    cases h
    have := length_dropWhile_le (· ≠ '\n') more
    simp only [List.length_cons]
    omega
  · obtain ⟨inner, hi, h⟩ := Option.map_eq_some_iff.1 h
    cases h
    exact Nat.lt_succ_of_le (length_le_of_closed? inner hi)
  · next c more _ _ =>
    split at h
    · cases h
      exact Nat.lt_succ_self _
    split at h
    · next hc =>
      unfold name? at h
      dsimp only at h
      split at h
      · cases h
      · cases h
        exact run_cons_length (isWordChar_of_isNameStart hc) more
    split at h
    · next hc =>
      cases h
      exact length_number_le (isWordChar_of_isDigit hc)
    · obtain ⟨atom, -, h⟩ := Option.map_eq_some_iff.1 h
      cases h
      exact Nat.lt_succ_self _

/-- The atoms of a whole text. -/
def all? (text : List Char) : Option (List Atom) :=
  match _h : next? text with
  | some (found, rest) => (all? rest).map (found ++ ·)
  | none => if text = [] then some [] else none
termination_by text.length
decreasing_by exact length_lt_of_next? _h

theorem all?_nil : all? [] = some [] := by
  rw [all?]
  rfl

theorem all?_of_next? {found : List Atom} (h : next? text = some (found, rest)) :
    all? text = (all? rest).map (found ++ ·) := by
  rw [all?]
  split
  · next h' =>
    cases h.symm.trans h'
    rfl
  · next h' => cases h.symm.trans h'

theorem all?_of_next?_eq_none (h : next? (c :: text) = none) : all? (c :: text) = none := by
  rw [all?]
  split
  · next h' => cases h.symm.trans h'
  · rfl

/-- Marks are signs. -/
theorem mark_of_sign? {d : Char} (h : sign? c = some (.mark d)) : d = c := by
  unfold sign? at h
  split at h
  case h_7 =>
    split at h
    · cases h
      rfl
    · cases h
  all_goals cases h

/-! ### What a text begins with -/

theorem next?_cons (hs : c ≠ '/') (hq : c ≠ '"') : next? (c :: rest) =
    if isSpace c then some ([], rest)
    else if isNameStart c then name? (c :: rest)
    else if c.isDigit then some ([.literal (number (c :: rest)).1], (number (c :: rest)).2)
    else (sign? c).map fun atom => ([atom], rest) := by
  rw [next?]
  · rintro _ rfl
    exact absurd rfl hs
  · exact hq

/-- A sign is none of the characters that anything else begins with. -/
theorem of_sign? {atom : Atom} (h : sign? c = some atom) :
    isBlank c = false ∧ isSpace c = false ∧ isWordChar c = false ∧ c ≠ '/' ∧ c ≠ '"' := by
  unfold sign? at h
  split at h
  case h_7 =>
    split at h
    · next hc =>
      simp only [List.mem_cons, List.not_mem_nil, or_false] at hc
      rcases hc with rfl | rfl | rfl | rfl | rfl | rfl | rfl <;> decide
    · cases h
  all_goals decide

theorem isNameStart_of_not_isWordChar (h : isWordChar c = false) : isNameStart c = false :=
  Bool.eq_false_iff.2 fun hn => by simp [isWordChar_of_isNameStart hn] at h

theorem isDigit_of_not_isWordChar (h : isWordChar c = false) : c.isDigit = false :=
  Bool.eq_false_iff.2 fun hd => by simp [isWordChar_of_isDigit hd] at h

theorem next?_sign {atom : Atom} (h : sign? c = some atom) :
    next? (c :: rest) = some ([atom], rest) := by
  obtain ⟨-, hspace, hword, hslash, hquote⟩ := of_sign? h
  rw [next?_cons hslash hquote]
  simp [hspace, isNameStart_of_not_isWordChar hword, isDigit_of_not_isWordChar hword, h]

theorem next?_space (hb : isSpace c) : next? (c :: rest) = some ([], rest) := by
  have hne (d : Char) (hd : isSpace d = false) : c ≠ d := by
    rintro rfl
    simp [hb] at hd
  rw [next?_cons (hne '/' rfl) (hne '"' rfl), if_pos hb]

/-- A blank of definitions that is none of a program cannot be taken apart. -/
theorem next?_blank (hb : isBlank c) (hs : isSpace c = false) : next? (c :: rest) = none := by
  have hne (d : Char) (hd : isBlank d = false) : c ≠ d := by
    rintro rfl
    simp [hb] at hd
  have hword := Source.not_isWordChar_of_isBlank hb
  have hsign : sign? c = none := Option.eq_none_iff_forall_ne_some.2 fun atom h => by
    simp [(of_sign? h).1] at hb
  rw [next?_cons (hne '/' rfl) (hne '"' rfl)]
  simp [hs, isNameStart_of_not_isWordChar hword, isDigit_of_not_isWordChar hword, hsign]

theorem not_mem_notes {d : Char} : Atom.mark d ∉ notes text := by
  unfold notes
  split <;> simp

theorem isWordChar_of_next? {found : List Atom} (h : next? text = some (found, rest)) {c : Char}
    (hc : .mark c ∈ found) : isWordChar c = false := by
  unfold next? at h
  split at h
  · cases h
  · cases h
    exact absurd hc not_mem_notes
  · obtain ⟨inner, -, h⟩ := Option.map_eq_some_iff.1 h
    cases h
    simp at hc
  · split at h
    · cases h
      cases hc
    split at h
    · unfold name? at h
      dsimp only at h
      split at h
      · cases h
      · cases h
        simp at hc
    split at h
    · cases h
      simp at hc
    · obtain ⟨atom, hs, h⟩ := Option.map_eq_some_iff.1 h
      cases h
      cases List.mem_singleton.1 hc
      rw [mark_of_sign? hs]
      exact (of_sign? hs).2.2.1

/-- No mark belongs to a word. -/
theorem isWordChar_of_all? {atoms : List Atom} (h : all? text = some atoms) {c : Char}
    (hc : .mark c ∈ atoms) : isWordChar c = false := by
  fun_induction all? text generalizing atoms with
  | case1 text found rest hn ih =>
    obtain ⟨others, ho, rfl⟩ := Option.map_eq_some_iff.1 h
    exact (List.mem_append.1 hc).elim (isWordChar_of_next? hn) (ih ho)
  | case2 => cases h; cases hc
  | case3 => cases h

/-! ### Words -/

open Template.Grammar

variable {word name : String}

theorem isSpace_of_isWordChar (h : isWordChar c) : isSpace c = false := by
  refine Bool.eq_false_iff.2 fun hs => ?_
  have hc := Source.toNat_of_isWordChar h
  simp [isSpace] at hs
  omega

theorem next?_wordChar (hc : isWordChar c) : next? (c :: rest) =
    if isNameStart c then name? (c :: rest)
    else if c.isDigit then some ([.literal (number (c :: rest)).1], (number (c :: rest)).2)
    else (sign? c).map fun atom => ([atom], rest) := by
  have hne (d : Char) (hd : isWordChar d = false) : c ≠ d := by
    rintro rfl
    simp [hc] at hd
  rw [next?_cons (hne '/' rfl) (hne '"' rfl), if_neg (by simp [isSpace_of_isWordChar hc])]

theorem next?_name (h : Name text name rest) :
    next? text = if rest.head? = some '"' then none else some ([.word name], rest) := by
  obtain ⟨c, hc, hf⟩ := h.head?_eq
  obtain ⟨more, rfl⟩ := List.head?_eq_some_iff.1 hc
  rw [next?_wordChar (isWordChar_of_isNameStart hf), if_pos hf, name?,
    Template.run_eq_iff.2 h.toRun]

/-- A word that is no name begins with a digit. -/
theorem next?_number (h : Word isWordChar isWordChar text word rest)
    (hd : word.toList.head?.any Char.isDigit) :
    next? text = some ([.literal (number text).1], (number text).2) := by
  obtain ⟨c, hc, hf⟩ := h.start
  have hdigit : c.isDigit := by simpa [hc] using hd
  have htext : text.head? = some c := by
    rw [h.spelled, List.head?_append, hc]
    rfl
  obtain ⟨more, rfl⟩ := List.head?_eq_some_iff.1 htext
  have hname : isNameStart c = false := Bool.eq_false_iff.2 fun hn => by
    simp [Template.isDigit_of_isNameStart hn] at hdigit
  rw [next?_wordChar hf, if_neg (by simp [hname]), if_pos hdigit]

theorem name_of_word (h : Word isWordChar isWordChar text word rest)
    (hd : word.toList.head?.any Char.isDigit = false) : Name text word rest := by
  obtain ⟨c, hc, hf⟩ := h.start
  refine ⟨h.toRun, c, hc, ?_⟩
  have hdigit : c.isDigit = false := by simpa [hc] using hd
  simpa [isWordChar, Char.isAlphanum, isNameStart, hdigit] using hf

theorem number_whole (h : Word isWordChar isWordChar text word rest)
    (hf : ∀ more, rest = '.' :: more → isFraction word.toList more = false) :
    number text = (word.toList, rest) := by
  rw [number, ← h.toList_eq, ← h.rest_eq]
  split
  · next more => rw [if_neg (by simp [hf more rfl])]
  · rfl

theorem number_fraction {more : List Char} (h : Word isWordChar isWordChar text word ('.' :: more))
    (hf : isFraction word.toList more) :
    (number text).1 = word.toList ++ '.' :: more.takeWhile isWordChar := by
  rw [number, ← h.toList_eq, ← h.rest_eq]
  simp [hf]

/-! ### Texts in quotes -/

theorem closed?_plain {plain : List Char} (h : ∀ c ∈ plain, c ≠ '"' ∧ c ≠ '\\') :
    closed? (plain ++ rest) = (closed? rest).map fun found => (plain ++ found.1, found.2) := by
  induction plain with
  | nil => simp
  | cons c plain ih =>
    obtain ⟨⟨hq, hb⟩, hothers⟩ := List.forall_mem_cons.1 h
    rw [List.cons_append, closed?, ih hothers, Option.map_map]
    · rfl
    · exact hq
    · rintro _ _ rfl
      exact absurd rfl hb

theorem closed?_escape :
    closed? ('\\' :: c :: rest) = (closed? rest).map fun found => ('\\' :: c :: found.1, found.2) :=
  rfl

theorem isSome_hexDigit?_of_hexRun {count value n : Nat}
    (h : Quoted.hexRun count text value = (n, [])) : ∀ c ∈ text, (hexDigit? c).isSome := by
  induction text generalizing count value with
  | nil => simp
  | cons c text ih =>
    cases count with
    | zero => cases h
    | succ count =>
      rw [Quoted.hexRun] at h
      split at h
      · next d hd => exact List.forall_mem_cons.2 ⟨by simp [hd], ih h⟩
      · cases h

/-- A text in quotes is closed by the quote that ends it in a source of definitions. -/
theorem closed?_glyph {g : Glyph} (h : g.Spelled) : closed? (g.spelling ++ rest) =
    (closed? rest).map fun found => (g.spelling ++ found.1, found.2) := by
  cases h with
  | plain hq hb => exact closed?_plain (by simp [hq, hb])
  | @codePoint c digits n hne hd hn =>
    have hplain : ∀ c ∈ '{' :: (digits ++ ['}']), c ≠ '"' ∧ c ≠ '\\' := by
      intro c hc
      rw [List.mem_cons, List.mem_append, List.mem_singleton] at hc
      rcases hc with rfl | hc | rfl
      · decide
      · have hdigit := isSome_hexDigit?_of_hexRun hd c hc
        constructor <;> rintro rfl <;> exact absurd hdigit (by decide)
      · decide
    simp only [List.cons_append]
    rw [closed?_escape, ← List.cons_append, closed?_plain hplain, Option.map_map]
    rfl
  | _ => exact closed?_escape

theorem closed?_glyphs {glyphs : List Glyph} (h : ∀ g ∈ glyphs, g.Spelled) :
    closed? (glyphs.flatMap Glyph.spelling ++ '"' :: rest) =
      some (glyphs.flatMap Glyph.spelling ++ ['"'], rest) := by
  induction glyphs with
  | nil => rfl
  | cons g glyphs ih =>
    obtain ⟨hg, hothers⟩ := List.forall_mem_cons.1 h
    rw [List.flatMap_cons, List.append_assoc, closed?_glyph hg, ih hothers, Option.map_some,
      List.append_assoc]

end Atom

/-! ### Numbers -/

namespace Literal

open Atom (isCounting)

variable {digits more : List Char} {base value : Nat} {seen : Bool}

theorem digitsFrom_fraction (h : ∀ c ∈ digits, isCounting c) :
    digitsFrom 10 value seen (digits ++ '.' :: more) = none := by
  induction digits generalizing value seen with
  | nil => simp [digitsFrom, digit?, isSuffix, name?, isNameStart]
  | cons c digits ih =>
    obtain ⟨hc, hothers⟩ := List.forall_mem_cons.1 h
    rw [List.cons_append, digitsFrom]
    split
    · exact ih hothers
    · next hne =>
      have hdigit : c.isDigit := by simpa [isCounting, hne] using hc
      split
      · split
        · exact ih hothers
        · rfl
      · next hnone => simp [digit?, hexDigit?, hdigit] at hnone

/-- What begins with a digit is no text. -/
theorem read_digit {spelling : List Char} (hd : spelling.head?.any Char.isDigit) :
    read spelling = match integer? spelling with
      | some value => .integer value
      | none => .other := by
  unfold read
  split
  · cases hd
  · cases hd
  · rfl

/-- A number with a fraction is neither a text nor an integer. -/
theorem read_fraction (h : ∀ c ∈ digits, isCounting c) (hd : digits.head?.any Char.isDigit) :
    read (digits ++ '.' :: more) = .other := by
  cases digits with
  | nil => cases hd
  | cons c digits =>
    -- no letter follows the first digit, so that the base is ten
    have hbase (letter : Char) (hl : isCounting letter = false) (hdot : letter ≠ '.') (rest) :
        c :: digits ++ '.' :: more ≠ '0' :: letter :: rest := by
      intro heq
      cases digits with
      | nil => exact hdot (List.cons.inj (List.cons.inj heq).2).1.symm
      | cons d digits =>
        have hcount := h d (by simp)
        simp_all
    have hinteger : integer? (c :: digits ++ '.' :: more) = none := by
      unfold integer?
      split
      · next heq => exact absurd heq (hbase 'x' rfl (by decide) _)
      · next heq => exact absurd heq (hbase 'o' rfl (by decide) _)
      · next heq => exact absurd heq (hbase 'b' rfl (by decide) _)
      · exact digitsFrom_fraction h
    rw [read_digit (by simpa using hd), hinteger]

end Literal
end Phrasebook.Embedded
