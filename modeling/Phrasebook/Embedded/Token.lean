import Phrasebook.Definition.Quoted
import Phrasebook.Embedded.Fault
import Phrasebook.Embedded.Literal

/-!
Tokens of a program, and the lines of definitions that are spelled from them. Every token has a
place in the program, and so has every character of a line.
-/

namespace Phrasebook.Embedded

open Text

inductive Token where
  /-- A name or a keyword; it may be marked as a plain name. -/
  | word (spelling : String) (place : Nat)
  | mark (char : Char) (place : Nat)
  | literal (literal : Literal) (place : Nat)
  | group (bracket : Bracket) (tokens : List Token) (opened closed : Nat)
  /-- Tokens in brackets that nobody sees: another part of the program has put them in. -/
  | bundle (tokens : List Token) (opened closed : Nat)

namespace Token

/-- Where the token starts. -/
def place : Token → Nat
  | word _ place => place
  | mark _ place => place
  | literal _ place => place
  | group _ _ opened _ => opened
  | bundle _ opened _ => opened

def isMark (t : Token) (c : Char) : Bool :=
  match t with
  | mark d _ => d == c
  | _ => false

/-- The mark of a word that is a plain name although it is spelled like a keyword. -/
def nameMark : String := "r#"

mutual

/-- A token as the program's own forms see it: what is bundled stands there as if it were not. -/
def loosen : Token → List Token
  | bundle tokens _ _ => loosenAll tokens
  | group bracket tokens opened closed => [group bracket (loosenAll tokens) opened closed]
  | token => [token]

def loosenAll : List Token → List Token
  | [] => []
  | token :: rest => loosen token ++ loosenAll rest

end

/-- A name without its mark. -/
def plainName : List Char → List Char
  | 'r' :: '#' :: rest => rest
  | name => name

end Token

/-- A token as a line spells it. Words and literals need a gap between them. -/
structure Lexeme where
  text : String
  place : Nat
  isWord : Bool
deriving DecidableEq, Repr

/-- The lexemes of one definition. -/
abbrev Line := List Lexeme

/-- Texts are quoted anew, and integers are written in decimal digits. -/
def Literal.spelled? : Literal → Option String
  | .text value => some (String.ofList (Quoted.quote value.toList))
  | .integer value => some (toString value)
  | .other => none

namespace Token

mutual

def lexemes : Token → Except Fault Line
  | word spelling place => .ok [⟨String.ofList (plainName spelling.toList), place, true⟩]
  | mark c place => .ok [⟨c.toString, place, false⟩]
  | literal value place =>
    match value.spelled? with
    | some text => .ok [⟨text, place, true⟩]
    | none => .error ⟨.literal, some place⟩
  | group bracket tokens opened closed =>
    (allLexemes tokens).map fun inner =>
      ⟨bracket.opening, opened, false⟩ :: inner ++ [⟨bracket.closing, closed, false⟩]
  | bundle tokens opened closed =>
    (allLexemes tokens).map fun inner => ⟨"", opened, false⟩ :: inner ++ [⟨"", closed, false⟩]

def allLexemes : List Token → Except Fault Line
  | [] => .ok []
  | token :: rest =>
    (lexemes token).bind fun first => (allLexemes rest).map (first ++ ·)

end

end Token

namespace Line

/-- Whether a gap comes before a lexeme. -/
def gap (afterWord : Bool) (lexeme : Lexeme) : Bool :=
  afterWord && lexeme.isWord

def charsFrom (afterWord : Bool) : Line → List Char
  | [] => []
  | lexeme :: rest =>
    (if gap afterWord lexeme then [' '] else []) ++ lexeme.text.toList ++
      charsFrom lexeme.isWord rest

def text (l : Line) : String :=
  String.ofList (charsFrom false l)

/-- The columns where the lexemes start, and their places. -/
def columnsFrom (afterWord : Bool) (column : Nat) : Line → List (Nat × Nat)
  | [] => []
  | lexeme :: rest =>
    let start := if gap afterWord lexeme then column + 1 else column
    (start, lexeme.place) :: columnsFrom lexeme.isWord (start + lexeme.text.length) rest

/-- The place of the lexeme at a column: the last one that starts there or before. -/
def placeAt (l : Line) (column : Nat) : Option Nat :=
  let columns := columnsFrom false 1 l
  ((columns.reverse.find? fun start => start.1 ≤ column).or columns.head?).map Prod.snd

def lastPlace (l : Line) : Option Nat :=
  l.getLast?.map Lexeme.place

end Line

end Phrasebook.Embedded
