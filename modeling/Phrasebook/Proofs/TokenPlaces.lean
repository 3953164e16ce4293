import Phrasebook.Embedded.Basic
import Phrasebook.Proofs.JoinedSources
import Phrasebook.Proofs.Segments

/-!
Positions in the source that is spelled from tokens, led back to the tokens. Each character of the
source belongs to one token: it is in the spelling of that token, or in the gap behind it, or it
ends the line that the token is the last one of. The place at the position of the character is the
place of that token.
-/

namespace Phrasebook.Embedded

open Text

namespace Line

/-- The characters of a line, each with the place of the token that it belongs to. A gap belongs to
the token before it. -/
def ownedFrom (afterWord : Bool) (before : Option Nat) : Line → List (Char × Option Nat)
  | [] => []
  | lexeme :: rest =>
    (if gap afterWord lexeme then [(' ', before)] else []) ++
      lexeme.text.toList.map (·, some lexeme.place) ++
        ownedFrom lexeme.isWord (some lexeme.place) rest

def owned (l : Line) : List (Char × Option Nat) :=
  ownedFrom false none l

variable {l : Line} {afterWord : Bool} {before place : Option Nat} {column n : Nat} {c : Char}

theorem ownedFrom_fst (afterWord : Bool) (before : Option Nat) (l : Line) :
    (ownedFrom afterWord before l).map Prod.fst = charsFrom afterWord l := by
  induction l generalizing afterWord before with
  | nil => rfl
  | cons lexeme rest ih =>
    rw [ownedFrom, charsFrom, List.map_append, List.map_append, ih, List.map_map]
    congr 2
    · split <;> rfl
    · exact List.map_id _

theorem owned_fst (l : Line) : l.owned.map Prod.fst = l.text.toList := by
  rw [owned, ownedFrom_fst, text, String.toList_ofList]

/-! ### The last start -/

/-- The place of the last start at a column or before it. -/
def lastStart (columns : List (Nat × Nat)) (column : Nat) : Option Nat :=
  (columns.reverse.find? fun start => start.1 ≤ column).map Prod.snd

theorem lastStart_cons (start place : Nat) (columns : List (Nat × Nat)) (column : Nat) :
    lastStart ((start, place) :: columns) column =
      (lastStart columns column).or (if start ≤ column then some place else none) := by
  rw [lastStart, List.reverse_cons, List.find?_append, lastStart, Option.map_or]
  congr 1
  by_cases h : start ≤ column <;> simp [h]

theorem lastStart_eq_none {columns : List (Nat × Nat)} (h : ∀ start ∈ columns, column < start.1) :
    lastStart columns column = none := by
  rw [lastStart, Option.map_eq_none_iff, List.find?_eq_none]
  intro start hs
  have := h start (List.mem_reverse.1 hs)
  simpa using this

theorem le_of_mem_columnsFrom (afterWord : Bool) (column : Nat) (l : Line) :
    ∀ start ∈ columnsFrom afterWord column l, column ≤ start.1 := by
  induction l generalizing afterWord column with
  | nil => exact List.forall_mem_nil _
  | cons lexeme rest ih =>
    rw [columnsFrom]
    have hstart : column ≤ if gap afterWord lexeme then column + 1 else column := by
      split <;> omega
    refine List.forall_mem_cons.2 ⟨hstart, fun start hs => ?_⟩
    have := ih _ _ start hs
    omega

/-- The column of a character leads to the token that the character belongs to: the starts of the
later tokens are behind it, and those of the earlier ones are not the last. -/
theorem lastStart_of_owned (h : (ownedFrom afterWord before l)[n]? = some (c, place)) :
    (lastStart (columnsFrom afterWord column l) (column + n)).or before = place := by
  induction l generalizing afterWord before column n with
  | nil => simp [ownedFrom] at h
  | cons lexeme rest ih =>
    have hlater (start : Nat) :=
      le_of_mem_columnsFrom lexeme.isWord (start + lexeme.text.length) rest
    -- From the start of the lexeme on, whatever stands before it.
    have hfrom (start m : Nat) (h : (lexeme.text.toList.map (·, some lexeme.place) ++
        ownedFrom lexeme.isWord (some lexeme.place) rest)[m]? = some (c, place)) :
        (lastStart ((start, lexeme.place) ::
          columnsFrom lexeme.isWord (start + lexeme.text.length) rest) (start + m)).or before =
            place := by
      rw [lastStart_cons, if_pos (Nat.le_add_right start m)]
      rw [List.getElem?_append, List.length_map, String.length_toList] at h
      split at h
      · next hm =>
        have hbehind : ∀ other ∈ columnsFrom lexeme.isWord (start + lexeme.text.length) rest,
            start + m < other.1 := by
          intro other ho
          have := hlater start other ho
          omega
        rw [lastStart_eq_none hbehind]
        rw [List.getElem?_map, Option.map_eq_some_iff] at h
        obtain ⟨_, -, hc⟩ := h
        cases hc
        rfl
      · have hcolumn : start + m = start + lexeme.text.length + (m - lexeme.text.length) := by
          omega
        have hplace : (lastStart (columnsFrom lexeme.isWord (start + lexeme.text.length) rest)
            (start + m)).or (some lexeme.place) = place := hcolumn ▸ ih h
        rw [Option.or_assoc, Option.some_or, hplace]
    rw [ownedFrom, List.append_assoc] at h
    rw [columnsFrom]
    by_cases hgap : gap afterWord lexeme
    · rw [if_pos hgap] at h ⊢
      cases n with
      | zero =>
        cases h
        rw [lastStart_eq_none, Option.none_or]
        refine List.forall_mem_cons.2 ⟨Nat.lt_succ_self column, fun start hs => ?_⟩
        have := hlater (column + 1) start hs
        omega
      | succ m =>
        rw [Nat.add_comm m, ← Nat.add_assoc]
        exact hfrom (column + 1) m h
    · rw [if_neg hgap] at h ⊢
      exact hfrom column n h

/-- Behind a line there are no more starts. -/
theorem lastStart_behind (h : (charsFrom afterWord l).length ≤ n) :
    lastStart (columnsFrom afterWord column l) (column + n) = l.lastPlace := by
  induction l generalizing afterWord column n with
  | nil => rfl
  | cons lexeme rest ih =>
    rw [charsFrom, List.length_append, List.length_append, String.length_toList] at h
    rw [columnsFrom, lastStart_cons]
    generalize hstart : (if gap afterWord lexeme then column + 1 else column) = start
    have hlength : start + lexeme.text.length + (charsFrom lexeme.isWord rest).length ≤
        column + n := by
      by_cases hgap : gap afterWord lexeme
      · rw [if_pos hgap, List.length_singleton] at h
        rw [if_pos hgap] at hstart
        omega
      · rw [if_neg hgap, List.length_nil] at h
        rw [if_neg hgap] at hstart
        omega
    obtain ⟨m, hm⟩ := Nat.exists_eq_add_of_le
      (Nat.le_trans (Nat.le_add_right (start + lexeme.text.length) _) hlength)
    rw [if_pos (by omega), hm, ih (by omega), lastPlace, lastPlace, List.getLast?_cons,
      Option.map_some]
    cases rest.getLast? <;> rfl

/-- Columns are counted from one, where the first start is. -/
theorem placeAt_eq_lastStart (l : Line) (n : Nat) :
    l.placeAt (1 + n) = lastStart (columnsFrom false 1 l) (1 + n) := by
  cases l with
  | nil => rfl
  | cons lexeme rest =>
    have hfound : ((columnsFrom false 1 (lexeme :: rest)).reverse.find?
        fun start => start.1 ≤ 1 + n).isSome :=
      List.find?_isSome.2 ⟨(1, lexeme.place), List.mem_reverse.2 List.mem_cons_self, by simp⟩
    obtain ⟨start, hs⟩ := Option.isSome_iff_exists.1 hfound
    rw [placeAt, lastStart, hs]
    rfl

theorem placeAt_of_owned (h : l.owned[n]? = some (c, place)) : l.placeAt (1 + n) = place := by
  rw [placeAt_eq_lastStart, ← lastStart_of_owned h, Option.or_none]

theorem placeAt_behind (h : l.text.toList.length ≤ n) : l.placeAt (1 + n) = l.lastPlace := by
  rw [text, String.toList_ofList] at h
  rw [placeAt_eq_lastStart, lastStart_behind h]

end Line

/-! ### Lines -/

/-- The characters of lines, with a line end between two of them. It belongs to the last token of
the line that it ends. -/
def ownedLines : List Line → List (Char × Option Nat)
  | [] => []
  | [l] => l.owned
  | l :: next :: rest => l.owned ++ ('\n', l.lastPlace) :: ownedLines (next :: rest)

/-- The characters of the source, each with the place of its token. -/
def owned (e : Embedded) : List (Char × Option Nat) :=
  ownedLines e.lines

theorem ownedLines_fst (lines : List Line) :
    (ownedLines lines).map Prod.fst = ['\n'].intercalate (lines.map fun l => l.text.toList) := by
  match lines with
  | [] => rfl
  | [l] => simp [ownedLines, Line.owned_fst]
  | l :: next :: rest =>
    rw [ownedLines, List.map_append, List.map_cons, ownedLines_fst (next :: rest), Line.owned_fst]
    simp [List.intercalate_cons_cons]

theorem source_toList (e : Embedded) :
    e.source.toList = ['\n'].intercalate (e.lines.map fun l => l.text.toList) := by
  rw [source, String.toList_intercalate, List.map_map]
  rfl

theorem owned_fst (e : Embedded) : e.owned.map Prod.fst = e.source.toList := by
  rw [owned, ownedLines_fst, source_toList]

/-- So far into a line, the position is on that line. -/
theorem after_take {l : Line} (hl : '\n' ∉ l.text.toList) {n : Nat} (hn : n ≤ l.owned.length)
    (rest : List (Char × Option Nat)) :
    Position.after (((l.owned ++ rest).map Prod.fst).take n) = ⟨1, 1 + n⟩ := by
  rw [← List.length_map Prod.fst, Line.owned_fst] at hn
  rw [List.map_append, Line.owned_fst, List.take_append_of_le_length hn,
    Position.after_of_not_mem fun hm => hl (List.mem_of_mem_take hm), List.length_take_of_le hn]

/-- Behind a line and its end, the position is that in what follows, a line further down. -/
theorem after_take_line {l : Line} (hl : '\n' ∉ l.text.toList) (m : Nat) (place : Option Nat)
    (rest : List (Char × Option Nat)) :
    Position.after (((l.owned ++ ('\n', place) :: rest).map Prod.fst).take
      (l.owned.length + (m + 1))) = (Position.after ((rest.map Prod.fst).take m)).lowered 1 := by
  rw [List.map_append, ← List.length_map Prod.fst, List.take_length_add_append, Line.owned_fst,
    List.map_cons, List.take_succ_cons, Position.after_append_line, Text.lines,
    List.count_eq_zero_of_not_mem hl]

/-- A character that comes after so many others stands on one of the lines, at a column that leads
to its token. -/
theorem place_of_ownedLines {lines : List Line} (hl : ∀ l ∈ lines, '\n' ∉ l.text.toList) {n : Nat}
    {c : Char} {place : Option Nat} (h : (ownedLines lines)[n]? = some (c, place)) :
    ∃ i l column, Position.after (((ownedLines lines).map Prod.fst).take n) = ⟨i + 1, column⟩ ∧
      lines[i]? = some l ∧ l.placeAt column = place := by
  match lines with
  | [] => cases h
  | [l] =>
    have hn : n < l.owned.length := (List.getElem?_eq_some_iff.1 h).1
    have hafter := after_take (hl l List.mem_cons_self) (Nat.le_of_lt hn) []
    rw [List.append_nil] at hafter
    exact ⟨0, l, 1 + n, hafter, rfl, Line.placeAt_of_owned h⟩
  | l :: next :: rest =>
    obtain ⟨hfirst, hrest⟩ := List.forall_mem_cons.1 hl
    rw [ownedLines] at h ⊢
    rw [List.getElem?_append] at h
    split at h
    · next hn => exact ⟨0, l, 1 + n, after_take hfirst (Nat.le_of_lt hn) _, rfl,
        Line.placeAt_of_owned h⟩
    · next hn =>
      obtain ⟨m, rfl⟩ := Nat.exists_eq_add_of_le (Nat.le_of_not_lt hn)
      rw [Nat.add_sub_cancel_left] at h
      cases m with
      | zero =>
        cases h
        have hlength : l.text.toList.length ≤ l.owned.length := by
          rw [← Line.owned_fst, List.length_map]
        exact ⟨0, l, 1 + l.owned.length, after_take hfirst (Nat.le_refl _) _, rfl,
          Line.placeAt_behind hlength⟩
      | succ m =>
        obtain ⟨i, l', column, hafter, hi, hplace⟩ := place_of_ownedLines hrest h
        refine ⟨i + 1, l', column, ?_, hi, hplace⟩
        rw [after_take_line hfirst, hafter]
        rfl

theorem placeAt_of_owned {e : Embedded} (hl : ∀ l ∈ e.lines, '\n' ∉ l.text.toList) {n : Nat}
    {c : Char} {place : Option Nat} (h : e.owned[n]? = some (c, place)) :
    ∃ position, Position.at? e.source (String.utf8Len (e.source.toList.take n)) = some position ∧
      e.placeAt position = place := by
  obtain ⟨i, l, column, hafter, hi, hplace⟩ := place_of_ownedLines hl h
  refine ⟨⟨i + 1, column⟩, ?_, ?_⟩
  · rw [Position.at?_utf8Len (List.take_append_drop n e.source.toList).symm, ← owned_fst, ← hafter]
    rfl
  · rw [placeAt, lineAt?, hi]
    exact hplace

theorem cutAll_source {e : Embedded} (hl : ∀ l ∈ e.lines, '\n' ∉ l.text.toList)
    (hne : e.lines ≠ []) : cutAll '\n' e.source.toList = e.lines.map fun l => l.text.toList := by
  rw [cutAll_eq_splitOn, source_toList]
  exact List.splitOn_intercalate '\n' (List.forall_mem_map.2 hl) (by simpa using hne)

/-! ### Spellings -/

namespace Token

mutual

/-- The characters that a token spells of itself, apart from those in texts. -/
def signs : Token → List Char
  | word spelling _ => spelling.toList
  | mark c _ => [c]
  | literal _ _ => []
  | group _ tokens _ _ => allSigns tokens
  | bundle tokens _ _ => allSigns tokens

def allSigns : List Token → List Char
  | [] => []
  | token :: rest => signs token ++ allSigns rest

end

end Token

/-- No lexeme goes beyond the end of a line. -/
def Line.Unbroken (l : Line) : Prop :=
  ∀ lexeme ∈ l, '\n' ∉ lexeme.text.toList

namespace Line

theorem unbroken_append {l l' : Line} : Unbroken (l ++ l') ↔ l.Unbroken ∧ l'.Unbroken :=
  List.forall_mem_append

theorem unbroken_singleton {lexeme : Lexeme} :
    Unbroken [lexeme] ↔ '\n' ∉ lexeme.text.toList :=
  List.forall_mem_singleton

theorem Unbroken.charsFrom {l : Line} (h : l.Unbroken) (afterWord : Bool) :
    '\n' ∉ charsFrom afterWord l := by
  induction l generalizing afterWord with
  | nil => exact List.not_mem_nil
  | cons lexeme rest ih =>
    obtain ⟨hlexeme, hrest⟩ := List.forall_mem_cons.1 h
    have hgap : '\n' ∉ if gap afterWord lexeme then [' '] else [] := by split <;> simp
    simp only [Line.charsFrom, List.mem_append, not_or]
    exact ⟨⟨hgap, hlexeme⟩, ih hrest _⟩

theorem Unbroken.text {l : Line} (h : l.Unbroken) : '\n' ∉ l.text.toList := by
  rw [Line.text, String.toList_ofList]
  exact h.charsFrom false

end Line

/-- A line end in a text is spelled by an escape. -/
theorem Literal.unbroken_spelled {literal : Literal} {text : String}
    (h : literal.spelled? = some text) : '\n' ∉ text.toList := by
  cases literal with
  | text value =>
    cases h
    have hspelling (c : Char) : '\n' ∉ Quoted.spelling c := by
      unfold Quoted.spelling
      split
      case h_5 hline _ => simpa using Ne.symm hline
      all_goals decide
    simp [Quoted.quote, hspelling]
  | integer value =>
    cases h
    intro hm
    have hdigits : '\n' ∈ Nat.toDigits 10 value := by
      simpa [Nat.toString_eq_repr, Nat.repr] using hm
    exact absurd (Nat.isDigit_of_mem_toDigits (by decide) (by decide) hdigits) (by decide)
  | other => cases h

namespace Token

theorem mem_of_mem_plainName {c : Char} {name : List Char} (h : c ∈ plainName name) : c ∈ name := by
  unfold plainName at h
  split at h
  · exact List.mem_cons_of_mem _ (List.mem_cons_of_mem _ h)
  · exact h

mutual

theorem unbroken_lexemes {token : Token} {line : Line} (hs : '\n' ∉ signs token)
    (h : lexemes token = .ok line) : line.Unbroken := by
  cases token with
  | word spelling place =>
    cases h
    rw [Line.unbroken_singleton, String.toList_ofList]
    exact mt mem_of_mem_plainName hs
  | mark c place =>
    cases h
    simpa [Line.unbroken_singleton, signs] using hs
  | literal value place =>
    rw [lexemes] at h
    split at h
    · next text ht =>
      cases h
      exact Line.unbroken_singleton.2 (Literal.unbroken_spelled ht)
    · cases h
  | group bracket tokens opened closed =>
    obtain ⟨inner, hi, rfl⟩ := map_eq_ok.1 h
    have hopening : '\n' ∉ bracket.opening.toList := by cases bracket <;> decide
    have hclosing : '\n' ∉ bracket.closing.toList := by cases bracket <;> decide
    exact List.forall_mem_cons.2 ⟨hopening, Line.unbroken_append.2
      ⟨unbroken_allLexemes hs hi, Line.unbroken_singleton.2 hclosing⟩⟩
  | bundle tokens opened closed =>
    obtain ⟨inner, hi, rfl⟩ := map_eq_ok.1 h
    have hnone : '\n' ∉ "".toList := by decide
    exact List.forall_mem_cons.2 ⟨hnone, Line.unbroken_append.2
      ⟨unbroken_allLexemes hs hi, Line.unbroken_singleton.2 hnone⟩⟩

theorem unbroken_allLexemes {tokens : List Token} {line : Line} (hs : '\n' ∉ allSigns tokens)
    (h : allLexemes tokens = .ok line) : line.Unbroken := by
  cases tokens with
  | nil =>
    cases h
    exact List.forall_mem_nil _
  | cons token rest =>
    rw [allSigns, List.mem_append, not_or] at hs
    obtain ⟨first, hf, h⟩ := bind_eq_ok.1 h
    obtain ⟨later, hl, rfl⟩ := map_eq_ok.1 h
    exact Line.unbroken_append.2 ⟨unbroken_lexemes hs.1 hf, unbroken_allLexemes hs.2 hl⟩

end

end Token

theorem forall_lines_add {P : Line → Prop} {e : Embedded} {line : Line} :
    (∀ l ∈ (e.add line).lines, P l) ↔ (∀ l ∈ e.lines, P l) ∧ P line := by
  rw [add, List.forall_mem_append, List.forall_mem_singleton]

/-- Every line that is finished has lexemes, and none of them goes beyond its end. -/
theorem unbroken_readFrom {e read : Embedded} {line : Line} {tokens : List Token}
    (h : e.readFrom line tokens = .ok read) (hs : '\n' ∉ Token.allSigns tokens)
    (hl : line.Unbroken) (he : ∀ l ∈ e.lines, l ≠ [] ∧ l.Unbroken) :
    ∀ l ∈ read.lines, l ≠ [] ∧ l.Unbroken := by
  have hnil : Line.Unbroken [] := List.forall_mem_nil _
  fun_induction readFrom e line tokens with
  | case1 e line =>
    cases h
    split
    · exact he
    · next hne => exact forall_lines_add.2 ⟨he, by simpa using hne, hl⟩
  | case2 e line token _ place tokens opened closed rest ih =>
    obtain ⟨language, -, h⟩ := bind_eq_ok.1 h
    simp only [Token.allSigns, List.mem_append, not_or] at hs
    exact ih language h hs.2.2.2 hnil he
  | case3 e line token _ tokens opened closed rest ih =>
    simp only [Token.allSigns, List.mem_append, not_or] at hs
    exact ih h hs.2.2 hnil he
  | case4 => cases h
  | case5 e line token rest _ _ ih =>
    rw [Token.allSigns, List.mem_append, not_or] at hs
    have hsign : '\n' ∉ ";".toList := by decide
    have hended : Line.Unbroken (line ++ [⟨";", token.place, false⟩]) :=
      Line.unbroken_append.2 ⟨hl, Line.unbroken_singleton.2 hsign⟩
    exact ih h hs.2 hnil (forall_lines_add.2 ⟨he, by simp, hended⟩)
  | case6 e line token rest _ _ ih =>
    rw [Token.allSigns, List.mem_append, not_or] at hs
    obtain ⟨lexemes, hlexemes, h⟩ := bind_eq_ok.1 h
    exact ih lexemes h hs.2
      (Line.unbroken_append.2 ⟨hl, Token.unbroken_lexemes hs.1 hlexemes⟩) he

/-- The tokens without the attributes that stand in front of definitions. -/
def definitionTokens (fresh : Bool) : List Token → List Token
  | [] => []
  | token :: rest =>
    if fresh && token.isMark '#' then
      match rest with
      | .mark '!' _ :: .group .square _ _ _ :: rest => definitionTokens true rest
      | .group .square _ _ _ :: rest => definitionTokens true rest
      | _ => []
    else token :: definitionTokens (token.isMark ';') rest

theorem definitionTokens_cons {fresh : Bool} {token : Token} {rest : List Token}
    (h : ¬ (fresh && token.isMark '#')) :
    definitionTokens fresh (token :: rest) = token :: definitionTokens (token.isMark ';') rest := by
  rw [definitionTokens.eq_def]
  exact if_neg h

theorem Token.eq_of_isMark {token : Token} {c : Char} (h : token.isMark c) :
    token = .mark c token.place := by
  cases token with
  | mark d place => rw [eq_of_beq h]; rfl
  | _ => cases h

theorem Token.lexemes_ne_nil {token : Token} {line : Line} (h : token.lexemes = .ok line) :
    line ≠ [] := by
  rintro rfl
  cases token with
  | word spelling place => cases h
  | mark c place => cases h
  | literal value place =>
    rw [lexemes] at h
    split at h <;> cases h
  | group bracket tokens opened closed =>
    obtain ⟨inner, -, hi⟩ := map_eq_ok.1 h
    cases hi
  | bundle tokens opened closed =>
    obtain ⟨inner, -, hi⟩ := map_eq_ok.1 h
    cases hi

/-- Every token of the definitions is spelled, one behind the other. -/
theorem allLexemes_of_readFrom {e read : Embedded} {line : Line} {tokens : List Token}
    (h : e.readFrom line tokens = .ok read) : ∃ lexemes,
      Token.allLexemes (definitionTokens line.isEmpty tokens) = .ok lexemes ∧
        read.lines.flatten = e.lines.flatten ++ (line ++ lexemes) := by
  fun_induction readFrom e line tokens with
  | case1 e line =>
    cases h
    refine ⟨[], rfl, ?_⟩
    split
    · next hl => simp [List.isEmpty_iff.1 hl]
    · simp [add]
  | case2 e line token hmark place tokens opened closed rest ih =>
    obtain ⟨language, -, h⟩ := bind_eq_ok.1 h
    obtain ⟨lexemes, hlexemes, hflat⟩ := ih language h
    have hline : line = [] := List.isEmpty_iff.1 (Bool.and_eq_true_iff.1 hmark).1
    rw [definitionTokens, if_pos hmark]
    exact ⟨lexemes, hlexemes, hline ▸ hflat⟩
  | case3 e line token hmark tokens opened closed rest ih =>
    obtain ⟨lexemes, hlexemes, hflat⟩ := ih h
    have hline : line = [] := List.isEmpty_iff.1 (Bool.and_eq_true_iff.1 hmark).1
    rw [definitionTokens, if_pos hmark]
    exact ⟨lexemes, hlexemes, hline ▸ hflat⟩
  | case4 => cases h
  | case5 e line token rest hmark hsemicolon ih =>
    obtain ⟨lexemes, hlexemes, hflat⟩ := ih h
    have hsign : token.lexemes = .ok [⟨";", token.place, false⟩] := by
      rw [Token.eq_of_isMark hsemicolon]
      rfl
    rw [definitionTokens_cons hmark, hsemicolon]
    refine ⟨⟨";", token.place, false⟩ :: lexemes, ?_, by simpa [add] using hflat⟩
    exact bind_eq_ok.2 ⟨_, hsign, map_eq_ok.2 ⟨lexemes, hlexemes, rfl⟩⟩
  | case6 e line token rest hmark hsemicolon ih =>
    obtain ⟨first, hfirst, h⟩ := bind_eq_ok.1 h
    obtain ⟨lexemes, hlexemes, hflat⟩ := ih first h
    have hne : (line ++ first).isEmpty = token.isMark ';' := by
      rw [Bool.eq_false_iff.2 hsemicolon]
      simp [Token.lexemes_ne_nil hfirst]
    rw [hne] at hlexemes
    rw [definitionTokens_cons hmark]
    refine ⟨first ++ lexemes, ?_, by simpa using hflat⟩
    exact bind_eq_ok.2 ⟨first, hfirst, map_eq_ok.2 ⟨lexemes, hlexemes, rfl⟩⟩

/-- Every position behind the last line is led to the last token of all. -/
theorem placeAt_behind {e : Embedded} (he : ∀ l ∈ e.lines, l ≠ []) {position : Position}
    (h : e.lines.length < position.line) :
    e.placeAt position = e.lines.flatten.getLast?.map Lexeme.place := by
  obtain ⟨line, column⟩ := position
  obtain ⟨i, rfl⟩ := Nat.exists_eq_add_of_lt (Nat.lt_of_le_of_lt (Nat.zero_le _) h)
  have hnone : e.lines[0 + i]? = none := List.getElem?_eq_none (Nat.le_of_lt_succ h)
  rw [placeAt, lineAt?, hnone]
  rcases List.eq_nil_or_concat e.lines with hlines | ⟨before, last, hlines⟩
  · rw [hlines]
    rfl
  · have hne : last ≠ [] := he last (by simp [hlines])
    rw [hlines, List.concat_eq_append, List.getLast?_concat, List.flatten_append,
      List.flatten_singleton, List.getLast?_append_of_ne_nil _ hne]
    rfl

/-- The source is spelled from the tokens of the definitions, and each of its characters belongs to
one of them. The position of the character is led to that token, and every position behind the last
line to the last token. No token is spelled over the end of a line, so that the lines of the source
are the spellings of the definitions. The words and marks of a program have no line ends in them. -/
theorem places_of_read {tokens : List Token} {e : Embedded} (h : read tokens = .ok e)
    (hs : '\n' ∉ Token.allSigns tokens) :
    Token.allLexemes (definitionTokens true tokens) = .ok e.lines.flatten ∧
    e.owned.map Prod.fst = e.source.toList ∧
    (∀ n c place, e.owned[n]? = some (c, place) →
      ∃ position, Position.at? e.source (String.utf8Len (e.source.toList.take n)) = some position ∧
        e.placeAt position = place) ∧
    (∀ position : Position, e.lines.length < position.line →
      e.placeAt position = e.lines.flatten.getLast?.map Lexeme.place) ∧
    (∀ line ∈ e.lines, ∀ lexeme ∈ line, '\n' ∉ lexeme.text.toList) ∧
    (e.lines ≠ [] → cutAll '\n' e.source.toList = e.lines.map fun l => l.text.toList) := by
  have hlines := unbroken_readFrom h hs (List.forall_mem_nil _) (List.forall_mem_nil _)
  have htexts : ∀ l ∈ e.lines, '\n' ∉ l.text.toList := fun l hl => (hlines l hl).2.text
  obtain ⟨lexemes, hlexemes, hflat⟩ := allLexemes_of_readFrom h
  have hlast : e.lines.flatten = lexemes := hflat
  exact ⟨hlast ▸ hlexemes, owned_fst e, fun n c place => placeAt_of_owned htexts,
    fun position => placeAt_behind fun l hl => (hlines l hl).1, fun l hl => (hlines l hl).2,
    cutAll_source htexts⟩

/-- A marked name, a line end in a text, and a gap between a tag and a text. -/
def twoLines : List Token :=
  [ .word "r#type" 1, .mark '=' 2, .literal (.text "a\nb") 3, .mark ';' 4, .word "f" 5,
    .mark '=' 6, .mark ':' 7, .word "a" 8, .literal (.text "x") 9, .mark ';' 10 ]

def twoLinesRead : Embedded where
  language := "en"
  lines :=
    [ [⟨"type", 1, true⟩, ⟨"=", 2, false⟩, ⟨"\"a\\nb\"", 3, true⟩, ⟨";", 4, false⟩],
      [⟨"f", 5, true⟩, ⟨"=", 6, false⟩, ⟨":", 7, false⟩, ⟨"a", 8, true⟩, ⟨"\"x\"", 9, true⟩,
        ⟨";", 10, false⟩] ]

theorem places_of_read_twoLines : read twoLines = .ok twoLinesRead ∧
    '\n' ∉ Token.allSigns twoLines ∧
    (∃ position, Position.at? twoLinesRead.source
      (String.utf8Len (twoLinesRead.source.toList.take 9)) = some position ∧
        twoLinesRead.placeAt position = some 3) ∧
    (∃ position, Position.at? twoLinesRead.source
      (String.utf8Len (twoLinesRead.source.toList.take 17)) = some position ∧
        twoLinesRead.placeAt position = some 8) ∧
    twoLinesRead.placeAt ⟨3, 1⟩ = some 10 := by
  have hread : read twoLines = .ok twoLinesRead := rfl
  have hsigns : '\n' ∉ Token.allSigns twoLines := by decide
  obtain ⟨-, -, hplace, hbehind, -⟩ := places_of_read hread hsigns
  exact ⟨hread, hsigns, hplace 9 'b' (some 3) (by decide +kernel),
    hplace 17 ' ' (some 8) (by decide +kernel), hbehind ⟨3, 1⟩ (by decide)⟩

end Phrasebook.Embedded
