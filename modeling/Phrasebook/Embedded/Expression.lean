import Phrasebook.Embedded.Pattern

/-!
The expressions of a program: operands behind their signs, what trails them, and the operators
between them, with the blocks that some of them contain.
-/

namespace Phrasebook.Embedded.Goal

def expandExpression (records : Bool) (tokens : List Token) : Outcome :=
  .ok ([operand records, operators records 0 false], tokens)

/-- What may stand between a reference sign and its operand. -/
def skipReferenceKind : List Token → List Token
  | .word "raw" _ :: .word "mut" _ :: rest => rest
  | .word "raw" _ :: .word "const" _ :: rest => rest
  | tokens => skipWord "mut" tokens

def expandOperand (records : Bool) (tokens : List Token) : Outcome :=
  match tokens with
  | .mark '#' _ :: _ => .ok ([note, operand records], tokens)
  | .mark '&' _ :: rest => .ok ([operand records], skipReferenceKind rest)
  | .mark '*' _ :: rest => .ok ([operand records], rest)
  | .mark '!' _ :: rest => .ok ([operand records], rest)
  | .mark '-' _ :: rest => .ok ([operand records], rest)
  | tokens => .ok ([atom records, trailers], tokens)

/-! ### Atoms -/

/-- Can an expression begin here? -/
def canBegin : List Token → Bool
  | [] => false
  | .word w _ :: _ => w != "as"
  | .mark c _ :: _ => ['!', '-', '*', '|', '&', '<', '#'].contains c
  | .literal _ _ :: _ => true
  | .group _ _ _ _ :: _ => true
  | .bundle _ _ _ :: _ => true

/-- A value that may be left out. -/
def optionalValue (records : Bool) (tokens : List Token) : Outcome :=
  if canBegin tokens && (records || !startsBracket .curly tokens) then
    .ok ([expression true], tokens)
  else met tokens

def skipClosureKind (tokens : List Token) : List Token :=
  skipWord "move" (skipWord "async" (skipWord "static" (skipWord "const" tokens)))

def closure (records : Bool) (tokens : List Token) : Outcome :=
  .ok ([sign '|', parameters records], skipClosureKind tokens)

/-- The parts that follow a keyword, for those that are followed by the same ones each time. -/
def partsAfter (records : Bool) : String → Option (List Goal)
  | "true" => some []
  | "false" => some []
  | "_" => some []
  | "continue" => some []
  | "become" => some [expression true]
  | "let" =>
    some [patterns, sign '=', operand records, operators records Strength.comparison.rank false]
  | "if" => some [expression false, block, elsePart]
  | "while" => some [expression false, block]
  | "for" => some [patterns, word "in", expression false, block]
  | "loop" => some [block]
  | "match" => some [expression false, within .curly [arms]]
  | "unsafe" => some [block]
  | _ => none

/-- An atom that starts with a word. -/
def expandWord (records : Bool) (tokens : List Token) (w : String) (rest : List Token) : Outcome :=
  match partsAfter records w with
  | some parts => .ok (parts, rest)
  | none =>
    match w with
    | "break" => optionalValue records rest
    | "return" => optionalValue true rest
    | "yield" => optionalValue true rest
    | "async" =>
      if startsBracket .curly (skipWord "move" rest) then .ok ([block], skipWord "move" rest)
      else if startsMark '|' rest || startsWord "move" rest then closure records tokens
      else wish .expression tokens
    | "try" =>
      if startsBracket .curly rest then .ok ([block], rest)
      else if startsMark '!' rest then .ok ([pathRest records], rest)
      else wish .expression tokens
    | "const" =>
      if startsBracket .curly rest then .ok ([block], rest) else closure records tokens
    | "static" => closure records tokens
    | "move" => closure records tokens
    | w => if Keyword.isPath w then .ok ([pathRest records], rest) else wish .expression tokens

def expandAtom (records : Bool) (tokens : List Token) : Outcome :=
  match tokens with
  | .word w _ :: rest => expandWord records tokens w rest
  | .literal _ _ :: rest => met rest
  | .mark '|' _ :: _ => closure records tokens
  | .mark '<' _ :: rest => .ok (qualified, rest)
  | .group .round _ _ _ :: _ => .ok ([within .round [commaList (expression true)]], tokens)
  | .group .square _ _ _ :: _ => .ok ([within .square [arrayItems]], tokens)
  | .group .curly _ _ _ :: _ => .ok ([block], tokens)
  | tokens => wish .expression tokens

/-- What may follow a name: an exclamation mark and brackets with tokens of any kind, or the fields
of a record. -/
def expandPathRest (records : Bool) (tokens : List Token) : Outcome :=
  match tokens with
  | .mark '!' _ :: rest => .ok ([anyBrackets], rest)
  | .group .curly _ _ _ :: _ =>
    if records then .ok ([within .curly [commaList field]], tokens) else met tokens
  | tokens => met tokens

def expandArrayItems : List Token → Outcome
  | [] => met []
  | tokens => .ok ([expression true, arrayRest], tokens)

/-- Further items, or how often the one item is repeated. -/
def expandArrayRest : List Token → Outcome
  | [] => met []
  | .mark ',' _ :: rest => .ok ([commaList (expression true)], rest)
  | .mark ';' _ :: rest => .ok ([expression true], rest)
  | tokens => wish .separator tokens

def expandField (tokens : List Token) : Outcome :=
  .ok ([notes, member, fieldRest], tokens)

def expandFieldRest : List Token → Outcome
  | .mark ':' _ :: rest => .ok ([expression true], rest)
  | tokens => met tokens

def expandElsePart : List Token → Outcome
  | .word "else" _ :: rest => .ok ([elseBranch], rest)
  | tokens => met tokens

def expandElseBranch (tokens : List Token) : Outcome :=
  match tokens with
  | .word "if" _ :: rest => .ok ([expression false, block, elsePart], rest)
  | .group .curly _ _ _ :: _ => .ok ([block], tokens)
  | tokens => wish .elseBranch tokens

/-- The parameters of a closure, up to the bar that ends them, and its body. -/
def expandParameters (records : Bool) (tokens : List Token) : Outcome :=
  match tokens with
  | .mark '|' _ :: rest => .ok ([expression records], rest)
  | tokens => .ok ([parameter, parametersRest records], tokens)

def expandParametersRest (records : Bool) (tokens : List Token) : Outcome :=
  match tokens with
  | .mark '|' _ :: rest => .ok ([expression records], rest)
  | tokens => (expectSign ',' tokens).map fun outcome => ([parameters records], outcome.2)

/-- The arms of a match. The arrow of an arm is a long sign. -/
def expandArms : List Token → Outcome
  | [] => met []
  | tokens => .ok ([notes, patterns, guard, longSign "=>"], tokens)

def expandGuard : List Token → Outcome
  | .word "if" _ :: rest => .ok ([expression true], rest)
  | tokens => met tokens

/-! ### Behind an operand -/

def expandTrailers (tokens : List Token) : Outcome :=
  match tokens with
  | .group .round _ _ _ :: _ =>
    .ok ([within .round [commaList (expression true)], trailers], tokens)
  | .group .square _ _ _ :: _ => .ok ([within .square [expression true], trailers], tokens)
  | .mark '?' _ :: rest => .ok ([trailers], rest)
  | .mark '.' _ :: rest => .ok ([afterDot], rest)
  | tokens => met tokens

/-- The member behind a dot. Two numbers with a dot between them are one literal. -/
def expandAfterDot (tokens : List Token) : Outcome :=
  match tokens with
  | .word "await" _ :: rest => .ok ([trailers], rest)
  | .literal .other _ :: rest => .ok ([trailers], rest)
  | tokens => .ok ([member, trailers], tokens)

/-- Comparisons do not chain. -/
def expandOperators (records : Bool) (least : Nat) (compared : Bool) (tokens : List Token) :
    Outcome :=
  match tokens with
  | [] => met []
  | token :: rest =>
    match Strength.of? token with
    | none => met tokens
    | some s =>
      if s.rank < least then met tokens
      else if s = .cast then .ok ([typeForm false, afterCast, operators records least false], rest)
      else if s = .comparison ∧ compared then .error .chainedComparison
      else .ok ([operand records, rightSide records s,
        operators records least (s == .comparison)], rest)

def expandRightSide (records : Bool) (operator : Strength) (tokens : List Token) : Outcome :=
  match tokens.head?.bind Strength.of? with
  | some next =>
    if next.takesOver operator then
      .ok ([operators records next.rank false, rightSide records operator], tokens)
    else met tokens
  | none => met tokens

/-- Nothing trails a cast. -/
def expandAfterCast (tokens : List Token) : Outcome :=
  match tokens with
  | .mark '.' _ :: .word "await" _ :: _ => .error (.castFollowed "`.await`")
  | .mark '.' _ :: .word w _ :: .group .round _ _ _ :: _ =>
    .error (.castFollowed (if Keyword.all.contains w then "a field access" else "a method call"))
  | .mark '.' _ :: _ => .error (.castFollowed "a field access")
  | .mark '?' _ :: _ => .error (.castFollowed "`?`")
  | .group .square _ _ _ :: _ => .error (.castFollowed "indexing")
  | .group .round _ _ _ :: _ => .error (.castFollowed "a function call")
  | tokens => met tokens

/-! ### Blocks -/

/-- Words that start a statement which needs no semicolon. -/
def isBlockWord (w : String) (rest : List Token) : Bool :=
  ["if", "while", "for", "loop", "match"].contains w ||
    (["unsafe", "const", "try"].contains w && startsBracket .curly rest)

/-- A name with an exclamation mark and curly brackets is a statement, unless something trails
it. -/
def markedStatement? : List Token → Option (List Token)
  | .word w _ :: .mark '!' _ :: .group .curly _ _ _ :: rest =>
    if Keyword.isPath w && !startsMark '.' rest && !startsMark '?' rest then some rest else none
  | _ => none

def expandStatements (tokens : List Token) : Outcome :=
  match markedStatement? tokens, tokens with
  | some rest, _ => .ok ([statements], rest)
  | none, [] => met []
  | none, .mark ';' _ :: rest => .ok ([statements], rest)
  | none, .mark '#' _ :: _ => .ok ([note, statements], tokens)
  | none, .group .curly _ _ _ :: _ => .ok ([block, statementTail], tokens)
  | none, .word w _ :: rest =>
    if w = "let" then .ok ([pattern, typeOf, startValue, sign ';', statements], rest)
    else if isBlockWord w rest then .ok ([atom true, statementTail], tokens)
    else .ok ([expression true, statementRest], tokens)
  | none, tokens => .ok ([expression true, statementRest], tokens)

def expandStatementRest : List Token → Outcome
  | [] => met []
  | .mark ';' _ :: rest => .ok ([statements], rest)
  | _ :: _ => .error .noSemicolon

/-- What trails the block of a statement makes it an expression. -/
def expandStatementTail (tokens : List Token) : Outcome :=
  if startsMark '.' tokens || startsMark '?' tokens then
    .ok ([trailers, operators true 0 false, statementRest], tokens)
  else .ok ([statements], tokens)

def expandStartValue : List Token → Outcome
  | .mark '=' _ :: rest => .ok ([expression true, elseBlock], rest)
  | tokens => met tokens

def expandElseBlock : List Token → Outcome
  | .word "else" _ :: rest => .ok ([block], rest)
  | tokens => met tokens

/-! ### All goals -/

/-- What comes of a goal. Brackets are entered and left by the reading itself. -/
def expand : Goal → List Token → Outcome
  | sign c => expectSign c
  | longSign spelling => wish (.sign spelling)
  | word spelling => expectWord spelling
  | name => expectName
  | literal => expectLiteral
  | member => expectMember
  | anyBrackets => expectAnyBrackets
  | within bracket _ => wish (.brackets bracket)
  | leave _ _ _ => met
  | commaList item => expandCommaList item
  | commaRest item => expandCommaRest item
  | note => fun tokens => .ok ([within .square [noteName, noteRest]], skipMark '#' tokens)
  | noteName => expandNoteName
  | noteRest => expandNoteRest
  | noteValue => expandNoteValue
  | notes => expandNotes
  | expression records => expandExpression records
  | operand records => expandOperand records
  | atom records => expandAtom records
  | pathRest records => expandPathRest records
  | trailers => expandTrailers
  | afterDot => expandAfterDot
  | operators records least compared => expandOperators records least compared
  | rightSide records operator => expandRightSide records operator
  | afterCast => expandAfterCast
  | arrayItems => expandArrayItems
  | arrayRest => expandArrayRest
  | field => expandField
  | fieldRest => expandFieldRest
  | elsePart => expandElsePart
  | elseBranch => expandElseBranch
  | parameters records => expandParameters records
  | parametersRest records => expandParametersRest records
  | parameter => fun tokens => .ok ([notes, pattern, typeOf], tokens)
  | arms => expandArms
  | guard => expandGuard
  | block => fun tokens => .ok ([within .curly [statements]], tokens)
  | statements => expandStatements
  | statementRest => expandStatementRest
  | statementTail => expandStatementTail
  | startValue => expandStartValue
  | elseBlock => expandElseBlock
  | typeForm sums => expandTypeForm sums
  | typeOf => expandTypeOf
  | pathArguments sums => expandPathArguments sums
  | pathSum sums => expandPathSum sums
  | traits sums => expandTraits sums
  | traitsRest sums => expandTraitsRest sums
  | arguments => expandArguments
  | argumentsRest => expandArgumentsRest
  | argument => expandArgument
  | argumentRest => expandArgumentRest
  | qualifier => expandQualifier
  | pointerKind => expandPointerKind
  | tuple => expandTuple
  | tupleRest => expandTupleRest
  | lengthPart => expandLengthPart
  | patterns => expandPatterns
  | patternsRest => expandPatternsRest
  | pattern => expandPattern
  | patternRest => expandPatternRest
  | binding => expandBinding
  | bindingRest => expandBindingRest
  | fieldPattern => expandFieldPattern
  | fieldPatternRest => expandFieldPatternRest

end Phrasebook.Embedded.Goal
