import Phrasebook.Embedded.Keyword

/-!
What a reader of the program's own forms has still to do. A goal is met by tokens, and by further
goals in its place; nothing is built, since only the extent of a form matters here. Every mark is a
token of its own, so a sign of several marks is never met.
-/

namespace Phrasebook.Embedded

/-- How tightly an operator binds its operands. -/
inductive Strength where
  | assignment
  | comparison
  | union
  | difference
  | intersection
  | sum
  | product
  | cast
deriving DecidableEq, Repr

namespace Strength

def rank : Strength → Nat
  | assignment => 1
  | comparison => 2
  | union => 3
  | difference => 4
  | intersection => 5
  | sum => 6
  | product => 7
  | cast => 8

def of? : Token → Option Strength
  | .mark '=' _ => some assignment
  | .mark '<' _ => some comparison
  | .mark '>' _ => some comparison
  | .mark '|' _ => some union
  | .mark '^' _ => some difference
  | .mark '&' _ => some intersection
  | .mark '+' _ => some sum
  | .mark '-' _ => some sum
  | .mark '*' _ => some product
  | .mark '/' _ => some product
  | .mark '%' _ => some product
  | .word "as" _ => some cast
  | _ => none

/-- Whether an operator takes the right side of another one for its left side. Assignments group
to the right, and all others to the left. -/
def takesOver (next previous : Strength) : Bool :=
  previous.rank < next.rank || (next == assignment && previous == assignment)

end Strength

/-- Where `records` is false, a curly bracket behind a name belongs to what follows. -/
inductive Goal where
  | sign (c : Char)
  /-- A sign of several marks. -/
  | longSign (spelling : String)
  | word (spelling : String)
  | name
  | literal
  | member
  | anyBrackets
  | within (bracket : Bracket) (inside : List Goal)
  /-- The closing bracket, and what stands behind it. -/
  | leave (bracket : Bracket) (behind : List Token) (ends : Option Nat)
  | commaList (item : Goal)
  | commaRest (item : Goal)
  /-- An attribute, its name and what the name is given. -/
  | note
  | noteName
  | noteRest
  | noteValue
  | notes
  | expression (records : Bool)
  | operand (records : Bool)
  | atom (records : Bool)
  | pathRest (records : Bool)
  | trailers
  | afterDot
  /-- Operators from a rank on; `compared` tells that the left side is a comparison. -/
  | operators (records : Bool) (least : Nat) (compared : Bool)
  | rightSide (records : Bool) (operator : Strength)
  | afterCast
  | arrayItems
  | arrayRest
  | field
  | fieldRest
  | elsePart
  | elseBranch
  | parameters (records : Bool)
  | parametersRest (records : Bool)
  | parameter
  | arms
  | guard
  | block
  | statements
  | statementRest
  | statementTail
  | startValue
  | elseBlock
  /-- The form of a type; `sums` allows for a sum of traits. -/
  | typeForm (sums : Bool)
  | typeOf
  | pathArguments (sums : Bool)
  | pathSum (sums : Bool)
  | traits (sums : Bool)
  | traitsRest (sums : Bool)
  | arguments
  | argumentsRest
  | argument
  | argumentRest
  | qualifier
  | pointerKind
  | tuple
  | tupleRest
  | lengthPart
  /-- Patterns with bars between them. -/
  | patterns
  | patternsRest
  | pattern
  | patternRest
  | binding
  | bindingRest
  | fieldPattern
  | fieldPatternRest

/-- What comes of a goal: the goals in its place and the tokens from there on, or what is wrong
with the token that the goal came upon. -/
abbrev Goal.Outcome := Except Cause (List Goal × List Token)

namespace Goal

def met (tokens : List Token) : Outcome :=
  .ok ([], tokens)

def wish (w : Wish) : List Token → Outcome
  | [] => .error (.ended w)
  | _ :: _ => .error (.wanted w)

def expectSign (c : Char) : List Token → Outcome
  | .mark d place :: rest =>
    if d = c then met rest else wish (.sign c.toString) (.mark d place :: rest)
  | tokens => wish (.sign c.toString) tokens

def expectWord (spelling : String) : List Token → Outcome
  | .word w place :: rest =>
    if w = spelling then met rest else wish (.word spelling) (.word w place :: rest)
  | tokens => wish (.word spelling) tokens

def expectName : List Token → Outcome
  | .word w _ :: rest => if Keyword.all.contains w then .error (.keyword w) else met rest
  | tokens => wish .identifier tokens

/-- A name, or the number of a part. -/
def expectMember : List Token → Outcome
  | .literal (.integer _) _ :: rest => met rest
  | .word w place :: rest =>
    if Keyword.all.contains w then wish .member (.word w place :: rest) else met rest
  | tokens => wish .member tokens

def expectLiteral : List Token → Outcome
  | .literal _ _ :: rest => met rest
  | tokens => wish .literal tokens

def expectAnyBrackets : List Token → Outcome
  | .group _ _ _ _ :: rest => met rest
  | tokens => wish .anyBrackets tokens

/-- A token of its own kind may stand here. -/
def skipMark (c : Char) : List Token → List Token
  | .mark d place :: rest => if d = c then rest else .mark d place :: rest
  | tokens => tokens

def skipWord (spelling : String) : List Token → List Token
  | .word w place :: rest => if w = spelling then rest else .word w place :: rest
  | tokens => tokens

def startsMark (c : Char) : List Token → Bool
  | .mark d _ :: _ => d == c
  | _ => false

def startsWord (spelling : String) : List Token → Bool
  | .word w _ :: _ => w == spelling
  | _ => false

def startsBracket (bracket : Bracket) : List Token → Bool
  | .group b _ _ _ :: _ => b == bracket
  | _ => false

/-- Items up to the end, with commas between them and perhaps behind the last. -/
def expandCommaList (item : Goal) : List Token → Outcome
  | [] => met []
  | tokens => .ok ([item, commaRest item], tokens)

def expandCommaRest (item : Goal) : List Token → Outcome
  | [] => met []
  | tokens => (expectSign ',' tokens).map fun outcome => ([commaList item], outcome.2)

/-! ### Attributes -/

/-- The name of an attribute may be a keyword for a place, or the one for unsafe code. -/
def expandNoteName : List Token → Outcome
  | .word w _ :: rest =>
    if Keyword.isPath w || w == "unsafe" then met rest else .error (.keyword w)
  | tokens => wish .identifier tokens

def expandNoteRest : List Token → Outcome
  | .group _ _ _ _ :: rest => met rest
  | .mark '=' _ :: rest => .ok ([noteValue], rest)
  | tokens => met tokens

/-- A lone literal, or an expression; no attribute may stand before it. -/
def expandNoteValue : List Token → Outcome
  | .mark '#' _ :: .group .square _ _ _ :: _ => .error .nestedAttribute
  | tokens => .ok ([expression true], tokens)

def expandNotes : List Token → Outcome
  | .mark '#' place :: rest => .ok ([note, notes], .mark '#' place :: rest)
  | tokens => met tokens

end Goal

end Phrasebook.Embedded
