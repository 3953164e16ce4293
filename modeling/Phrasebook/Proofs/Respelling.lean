import Phrasebook.Proofs.Lexing

/-!
The source of embedded definitions, spelled from the atoms that their tokens are made of. A pen goes
from atom to atom; what it has to know is how deep in brackets it is, and what it has written last.
-/

namespace Phrasebook.Embedded

/-- The tokens that the atoms within a definition make up. A number sign begins an attribute. -/
inductive Within : List Token → List Atom → Prop where
  | nil : Within [] []
  | word {tokens : List Token} {atoms : List Atom} {name : String} {place : Nat}
      (h : Within tokens atoms) : Within (.word name place :: tokens) (.word name :: atoms)
  | mark {tokens : List Token} {atoms : List Atom} {c : Char} {place : Nat} (hc : c ≠ '#')
      (h : Within tokens atoms) : Within (.mark c place :: tokens) (.mark c :: atoms)
  | literal {tokens : List Token} {atoms : List Atom} {spelling : List Char} {place : Nat}
      (h : Within tokens atoms) :
    Within (.literal (Literal.read spelling) place :: tokens) (.literal spelling :: atoms)
  | group {tokens inside : List Token} {atoms inner : List Atom} {bracket : Bracket}
      {opened closed : Nat} (hi : Within inside inner) (h : Within tokens atoms) :
    Within (.group bracket inside opened closed :: tokens)
      (.opening bracket :: (inner ++ .closing bracket :: atoms))

/-- The tokens that atoms make up. A comment that documents something is an attribute; there are
none but where a definition may begin, which `fresh` tells. -/
inductive Spells : Bool → List Token → List Atom → Prop where
  | nil {fresh : Bool} : Spells fresh [] []
  | token {fresh : Bool} {token : Token} {tokens : List Token} {first atoms : List Atom}
      (hf : Within [token] first) (hn : token.isMark ';' = false) (h : Spells false tokens atoms) :
    Spells fresh (token :: tokens) (first ++ atoms)
  | semicolon {fresh : Bool} {tokens : List Token} {atoms : List Atom} {place : Nat}
      (h : Spells true tokens atoms) :
    Spells fresh (.mark ';' place :: tokens) (.mark ';' :: atoms)
  | note {tokens : List Token} {atoms : List Atom} {text : String} {p q r s o c : Nat}
      (h : Spells true tokens atoms) :
    Spells true (.mark '#' p ::
      .group .square [.word "doc" q, .mark '=' r, .literal (.text text) s] o c :: tokens)
      (.note false :: atoms)
  | innerNote {tokens : List Token} {atoms : List Atom} {text : String} {p p' q r s o c : Nat}
      (h : Spells true tokens atoms) :
    Spells true (.mark '#' p :: .mark '!' p' ::
      .group .square [.word "doc" q, .mark '=' r, .literal (.text text) s] o c :: tokens)
      (.note true :: atoms)

namespace Atom

/-- What is written for an atom. -/
def text? : Atom → Option (List Char)
  | word name => some (Token.plainName name.toList)
  | mark c => some [c]
  | literal spelling => (Literal.read spelling).spelled?.map String.toList
  | opening bracket => some bracket.opening.toList
  | closing bracket => some bracket.closing.toList
  | note inner => if inner then none else some []

end Atom

/-- What stands in front of a pen. -/
inductive Margin where
  | nothing
  /-- A line that is complete. -/
  | line
  | word
  | sign
deriving DecidableEq, Repr

namespace Margin

def behind (isWord : Bool) : Margin :=
  if isWord then word else sign

/-- A new line or a gap. -/
def lead (m : Margin) (isWord : Bool) : List Char :=
  match m with
  | nothing => []
  | line => ['\n']
  | word => if isWord then [' '] else []
  | sign => []

end Margin

structure Pen where
  depth : Nat
  margin : Margin
deriving DecidableEq, Repr

namespace Pen

/-- What goes before an atom. -/
def lead (p : Pen) : Atom → List Char
  | .word _ => p.margin.lead true
  | .literal _ => p.margin.lead true
  | .note _ => []
  | _ => p.margin.lead false

/-- The pen behind an atom. A semicolon outside of brackets ends a line. -/
def after (p : Pen) : Atom → Pen
  | .word _ => ⟨p.depth, .word⟩
  | .literal _ => ⟨p.depth, .word⟩
  | .mark c => ⟨p.depth, if c = ';' ∧ p.depth = 0 then .line else .sign⟩
  | .opening _ => ⟨p.depth + 1, .sign⟩
  | .closing _ => ⟨p.depth - 1, .sign⟩
  | .note _ => p

/-- What is written for all the atoms. -/
def spell? (p : Pen) : List Atom → Option (List Char)
  | [] => some []
  | atom :: rest =>
    atom.text?.bind fun text => ((p.after atom).spell? rest).map (p.lead atom ++ text ++ ·)

end Pen

/-! ### What a line becomes -/

namespace Line

def endsInWord (afterWord : Bool) : Line → Bool
  | [] => afterWord
  | lexeme :: rest => endsInWord lexeme.isWord rest

theorem endsInWord_concat (afterWord : Bool) (line : Line) (lexeme : Lexeme) :
    endsInWord afterWord (line ++ [lexeme]) = lexeme.isWord := by
  induction line generalizing afterWord with
  | nil => rfl
  | cons first line ih => exact ih _

theorem charsFrom_concat (afterWord : Bool) (line : Line) (lexeme : Lexeme) :
    charsFrom afterWord (line ++ [lexeme]) = charsFrom afterWord line ++
      ((if gap (endsInWord afterWord line) lexeme then [' '] else []) ++ lexeme.text.toList) := by
  induction line generalizing afterWord with
  | nil => exact List.append_nil _
  | cons first line ih =>
    rw [List.cons_append, charsFrom, ih, charsFrom, endsInWord, List.append_assoc _ (charsFrom _ _)]

end Line

variable {e : Embedded} {line : Line} {lexeme : Lexeme}

theorem source_add (e : Embedded) (line : Line) : (e.add line).source.toList =
    if e.lines = [] then line.text.toList
    else e.source.toList ++ '\n' :: line.text.toList := by
  unfold source add
  rw [List.map_append, List.map_singleton]
  split
  · next he => simp [he]
  · next he =>
    rw [String.intercalate_append_of_ne_nil (by simpa using he) (List.cons_ne_nil _ _)]
    simp

/-- What is written when so much of a line is read. -/
def written (e : Embedded) (line : Line) : List Char :=
  (if line.isEmpty then e else e.add line).source.toList

def marginOf (e : Embedded) (line : Line) : Margin :=
  match line.getLast? with
  | some lexeme => .behind lexeme.isWord
  | none => if e.lines = [] then .nothing else .line

theorem marginOf_concat : marginOf e (line ++ [lexeme]) = .behind lexeme.isWord := by
  simp [marginOf]

theorem written_concat : written e (line ++ [lexeme]) =
    written e line ++ ((marginOf e line).lead lexeme.isWord ++ lexeme.text.toList) := by
  have hne : (line ++ [lexeme]).isEmpty = false := by simp
  rw [written, hne, if_neg Bool.false_ne_true, source_add, Line.text, String.toList_ofList,
    Line.charsFrom_concat]
  rcases List.eq_nil_or_concat line with rfl | ⟨before, last, hline⟩
  · by_cases he : e.lines = []
    · simp [written, marginOf, he, source, Line.charsFrom, Line.endsInWord, Line.gap, Margin.lead]
    · simp [written, marginOf, he, Line.charsFrom, Line.endsInWord, Line.gap, Margin.lead]
  · rw [List.concat_eq_append] at hline
    subst hline
    have hne : (before ++ [last]).isEmpty = false := by simp
    rw [marginOf_concat, Line.endsInWord_concat, written, hne, if_neg Bool.false_ne_true,
      source_add, Line.text, String.toList_ofList]
    have hlead : (if Line.gap last.isWord lexeme then [' '] else []) =
        (Margin.behind last.isWord).lead lexeme.isWord := by
      cases last.isWord <;> simp [Line.gap, Margin.behind, Margin.lead]
    rw [hlead]
    split <;> simp

/-! ### What is read -/

theorem spell?_cons (lexeme : Lexeme) {depth : Nat} {pen : Pen} {atom : Atom} {rest : List Atom}
    (ht : atom.text? = some lexeme.text.toList)
    (hl : (Pen.mk depth (marginOf e line)).lead atom = (marginOf e line).lead lexeme.isWord)
    (ha : (Pen.mk depth (marginOf e line)).after atom = pen) :
    ((Pen.mk depth (marginOf e line)).spell? (atom :: rest)).map (written e line ++ ·) =
      (pen.spell? rest).map (written e (line ++ [lexeme]) ++ ·) := by
  rw [Pen.spell?, ht, Option.bind_some, hl, ha, Option.map_map, written_concat]
  simp only [Function.comp_def, List.append_assoc]

/-- The pen and the line with what it writes, one lexeme further. -/
theorem spell?_lexeme (lexeme : Lexeme) {depth next : Nat} {atom : Atom} {rest : List Atom}
    (ht : atom.text? = some lexeme.text.toList)
    (hl : (Pen.mk depth (marginOf e line)).lead atom = (marginOf e line).lead lexeme.isWord)
    (ha : (Pen.mk depth (marginOf e line)).after atom = ⟨next, .behind lexeme.isWord⟩) :
    ((Pen.mk depth (marginOf e line)).spell? (atom :: rest)).map (written e line ++ ·) =
      ((Pen.mk next (marginOf e (line ++ [lexeme]))).spell? rest).map
        (written e (line ++ [lexeme]) ++ ·) := by
  rw [spell?_cons lexeme ht hl ha, marginOf_concat]

/-- The lexemes of a token before those of others. -/
theorem bind_allLexemes {α : Type} {tokens : List Token} {token : Token} (f : Line → Option α) :
    (Token.allLexemes (token :: tokens)).toOption.bind f =
      token.lexemes.toOption.bind fun first =>
        (Token.allLexemes tokens).toOption.bind fun lexemes => f (first ++ lexemes) := by
  rw [Token.allLexemes]
  cases token.lexemes with
  | error fault => rfl
  | ok first => cases Token.allLexemes tokens <;> rfl

theorem Within.spell? {tokens : List Token} {atoms : List Atom} (h : Within tokens atoms)
    {depth : Nat} (hd : depth = 0 → ∀ t ∈ tokens, t.isMark ';' = false) (more : List Atom) :
    ((Pen.mk depth (marginOf e line)).spell? (atoms ++ more)).map (written e line ++ ·) =
      (Token.allLexemes tokens).toOption.bind fun lexemes =>
        ((Pen.mk depth (marginOf e (line ++ lexemes))).spell? more).map
          (written e (line ++ lexemes) ++ ·) := by
  induction h generalizing depth line more with
  | nil => simp [Token.allLexemes, Except.toOption]
  | @word tokens atoms name place h ih =>
    have hothers (h0 : depth = 0) := (List.forall_mem_cons.1 (hd h0)).2
    let lexeme : Lexeme := ⟨String.ofList (Token.plainName name.toList), place, true⟩
    rw [List.cons_append, spell?_lexeme lexeme (by simp [Atom.text?, lexeme]) rfl rfl,
      ih hothers, bind_allLexemes, Token.lexemes]
    simp [Except.toOption, lexeme]
  | @mark tokens atoms c place hc h ih =>
    have hothers (h0 : depth = 0) := (List.forall_mem_cons.1 (hd h0)).2
    have hsemicolon : ¬ (c = ';' ∧ depth = 0) := by
      rintro ⟨rfl, h0⟩
      exact absurd (hd h0 _ List.mem_cons_self) (by simp [Token.isMark])
    let lexeme : Lexeme := ⟨c.toString, place, false⟩
    have hafter : (Pen.mk depth (marginOf e line)).after (.mark c) = ⟨depth, .behind false⟩ := by
      simp [Pen.after, hsemicolon, Margin.behind]
    rw [List.cons_append, spell?_lexeme lexeme (by simp [Atom.text?, lexeme]) rfl hafter,
      ih hothers, bind_allLexemes, Token.lexemes]
    simp [Except.toOption, lexeme]
  | @literal tokens atoms spelling place h ih =>
    have hothers (h0 : depth = 0) := (List.forall_mem_cons.1 (hd h0)).2
    rw [bind_allLexemes, Token.lexemes]
    cases hs : (Literal.read spelling).spelled? with
    | none => simp [Pen.spell?, Atom.text?, hs, Except.toOption]
    | some text =>
      let lexeme : Lexeme := ⟨text, place, true⟩
      rw [List.cons_append, spell?_lexeme lexeme (by simp [Atom.text?, hs, lexeme]) rfl
        rfl, ih hothers]
      simp [Except.toOption, lexeme]
  | @group tokens inside atoms inner bracket opened closed hi h ihi ih =>
    have hothers (h0 : depth = 0) := (List.forall_mem_cons.1 (hd h0)).2
    let first : Lexeme := ⟨bracket.opening, opened, false⟩
    let last : Lexeme := ⟨bracket.closing, closed, false⟩
    -- In brackets a semicolon ends no line, so nothing need be known of the tokens there.
    rw [List.cons_append, List.append_assoc, spell?_lexeme first rfl rfl rfl,
      ihi (fun h0 => absurd h0 (Nat.succ_ne_zero _)), bind_allLexemes, Token.lexemes]
    cases Token.allLexemes inside with
    | error fault => rfl
    | ok lexemes =>
      have hafter : (Pen.mk (depth + 1) (marginOf e (line ++ [first] ++ lexemes))).after
        (.closing bracket) = ⟨depth, .behind last.isWord⟩ := rfl
      simp only [List.cons_append, Except.toOption, Option.bind_some]
      rw [spell?_lexeme last rfl rfl hafter, ih hothers]
      simp [Except.toOption, Except.map, first, last]

/-- A token that begins no attribute and ends no line. -/
theorem readFrom_token {token : Token} {rest : List Token} (hs : token.isMark ';' = false)
    (hn : token.isMark '#' = false) : readFrom e line (token :: rest) =
      token.lexemes.bind fun lexemes => readFrom e (line ++ lexemes) rest := by
  rw [readFrom.eq_def]
  simp [hs, hn]

theorem readFrom_innerNote {rest : List Token} {text : String} {p p' q r s o c : Nat} :
    readFrom e [] (.mark '#' p :: .mark '!' p' ::
      .group .square [.word "doc" q, .mark '=' r, .literal (.text text) s] o c :: rest) =
        .error ⟨.unknownAttribute, some q⟩ :=
  rfl

theorem readFrom_note {rest : List Token} {text : String} {p q r s o c : Nat} :
    readFrom e [] (.mark '#' p ::
      .group .square [.word "doc" q, .mark '=' r, .literal (.text text) s] o c :: rest) =
        readFrom e [] rest :=
  rfl

theorem Within.not_numberSign {tokens : List Token} {atoms : List Atom} (h : Within tokens atoms) :
    ∀ t ∈ tokens, t.isMark '#' = false := by
  induction h with
  | nil => simp
  | mark hc _ ih => exact List.forall_mem_cons.2 ⟨by simpa [Token.isMark] using hc, ih⟩
  | word _ ih => exact List.forall_mem_cons.2 ⟨rfl, ih⟩
  | literal _ ih => exact List.forall_mem_cons.2 ⟨rfl, ih⟩
  | group _ _ _ ih => exact List.forall_mem_cons.2 ⟨rfl, ih⟩

theorem Spells.readFrom {fresh : Bool} {tokens : List Token} {atoms : List Atom}
    (h : Spells fresh tokens atoms) (hf : fresh = true → line = []) :
    (e.readFrom line tokens).toOption.map (fun read => read.source.toList) =
      ((Pen.mk 0 (marginOf e line)).spell? atoms).map (written e line ++ ·) := by
  induction h generalizing e line with
  | nil =>
    rw [Embedded.readFrom, Pen.spell?, Option.map_some, List.append_nil, written]
    rfl
  | @token fresh token tokens first atoms hw hn h ih =>
    have hsingle : ∀ t ∈ [token], t.isMark ';' = false := List.forall_mem_singleton.2 hn
    rw [readFrom_token hn (hw.not_numberSign _ List.mem_cons_self),
      hw.spell? (fun _ => hsingle), bind_allLexemes]
    cases token.lexemes with
    | error fault => rfl
    | ok lexemes =>
      simp only [Except.toOption, Option.bind_some, Except.bind, Token.allLexemes, List.append_nil]
      exact ih (fun hfalse => absurd hfalse Bool.false_ne_true)
  | @semicolon fresh tokens atoms place h ih =>
    let lexeme : Lexeme := ⟨";", place, false⟩
    have hread : e.readFrom line (.mark ';' place :: tokens) =
        (e.add (line ++ [lexeme])).readFrom [] tokens := by
      rw [Embedded.readFrom.eq_def]
      simp [Token.isMark, Token.place, lexeme]
    -- The line is complete: it goes to the others, and the next one starts empty.
    have hmargin : marginOf (e.add (line ++ [lexeme])) [] = .line := by
      simp [marginOf, add]
    have hwritten : written (e.add (line ++ [lexeme])) [] = written e (line ++ [lexeme]) := by
      simp [written]
    rw [hread, ih fun _ => rfl, hmargin, hwritten,
      spell?_cons lexeme (by simp [Atom.text?, lexeme]) rfl rfl]
    rfl
  | note h ih =>
    cases hf rfl
    rw [readFrom_note, ih fun _ => rfl]
    simp [Pen.spell?, Atom.text?, Pen.lead, Pen.after]
  | innerNote h ih =>
    cases hf rfl
    rw [readFrom_innerNote]
    simp [Pen.spell?, Atom.text?, Except.toOption]

/-- The source of embedded definitions is what a pen writes for their atoms; without it they cannot
be read. -/
theorem Spells.read {tokens : List Token} {atoms : List Atom} (h : Spells true tokens atoms) :
    (read tokens).toOption.map (fun read => read.source.toList) =
      (Pen.mk 0 .nothing).spell? atoms := by
  rw [Embedded.read, h.readFrom fun _ => rfl]
  simp [marginOf, written, empty, source]

end Phrasebook.Embedded
