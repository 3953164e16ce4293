import Phrasebook.Embedded.Goal

/-!
The types that a program's expressions name: paths with arguments, references, pointers, tuples,
arrays, functions and sums of traits.
-/

namespace Phrasebook.Embedded.Goal

/-- The calling convention of a function type. -/
def skipConvention : List Token → List Token
  | .word "extern" _ :: .literal (.text _) _ :: rest => rest
  | tokens => skipWord "extern" tokens

/-- A path that starts with a type in angle brackets: the sign that has to follow them is a long
one. -/
def qualified : List Goal :=
  [typeForm true, qualifier, sign '>', longSign "::"]

def functionForm : List Goal :=
  [word "fn", within .round [commaList (typeForm true)]]

def expandTypeForm (sums : Bool) (tokens : List Token) : Outcome :=
  match tokens with
  | .group .round _ _ _ :: _ => .ok ([within .round [tuple]], tokens)
  | .group .square _ _ _ :: _ => .ok ([within .square [typeForm true, lengthPart]], tokens)
  | .mark '*' _ :: rest => .ok ([pointerKind, typeForm false], rest)
  | .mark '&' _ :: rest => .ok ([typeForm false], skipWord "mut" rest)
  | .mark '!' _ :: rest => met rest
  | .mark '<' _ :: rest => .ok (qualified, rest)
  | .word w _ :: rest =>
    if w = "_" then met rest
    else if w = "dyn" ∨ w = "impl" then .ok ([traits sums], rest)
    else if w = "fn" ∨ w = "extern" ∨ w = "unsafe" then
      .ok (functionForm, skipConvention (skipWord "unsafe" tokens))
    else if Keyword.isPath w then .ok ([pathArguments sums], rest)
    else wish .typeForm tokens
  | tokens => wish .typeForm tokens

/-- The type of a binding, if it has one. -/
def expandTypeOf : List Token → Outcome
  | .mark ':' _ :: rest => .ok ([typeForm true], rest)
  | tokens => met tokens

def expandPathArguments (sums : Bool) (tokens : List Token) : Outcome :=
  match tokens with
  | .mark '<' _ :: rest => .ok ([arguments, pathSum sums], rest)
  | .group .round _ _ _ :: _ =>
    .ok ([within .round [commaList (typeForm true)], pathSum sums], tokens)
  | .mark '!' _ :: rest => .ok ([anyBrackets], rest)
  | tokens => .ok ([pathSum sums], tokens)

def expandPathSum (sums : Bool) (tokens : List Token) : Outcome :=
  match tokens with
  | .mark '+' _ :: rest => if sums then .ok ([traits true], rest) else met tokens
  | tokens => met tokens

def expandTraits (sums : Bool) (tokens : List Token) : Outcome :=
  match skipMark '?' tokens with
  | .word w _ :: rest =>
    if Keyword.isPath w then .ok ([pathArguments false, traitsRest sums], rest)
    else .error (.keyword w)
  | rest => wish .identifier rest

def expandTraitsRest (sums : Bool) (tokens : List Token) : Outcome :=
  match tokens with
  | .mark '+' _ :: .word w place :: rest =>
    if sums then .ok ([traits true], .word w place :: rest) else met tokens
  | .mark '+' _ :: rest => if sums then met rest else met tokens
  | tokens => met tokens

/-- The arguments of a path, up to the closing angle bracket. -/
def expandArguments : List Token → Outcome
  | .mark '>' _ :: rest => met rest
  | tokens => .ok ([argument, argumentsRest], tokens)

def expandArgumentsRest : List Token → Outcome
  | .mark '>' _ :: rest => met rest
  | tokens => (expectSign ',' tokens).map fun outcome => ([arguments], outcome.2)

def expandArgument (tokens : List Token) : Outcome :=
  match tokens with
  | .literal _ _ :: rest => met rest
  | .mark '-' _ :: .literal _ _ :: rest => met rest
  | .group .curly _ _ _ :: _ => .ok ([block], tokens)
  | tokens => .ok ([typeForm true, argumentRest], tokens)

def expandArgumentRest : List Token → Outcome
  | .mark '=' _ :: rest => .ok ([typeForm true], rest)
  | .mark ':' _ :: rest => .ok ([traits true], rest)
  | tokens => met tokens

def expandQualifier : List Token → Outcome
  | .word "as" _ :: rest => .ok ([typeForm false], rest)
  | tokens => met tokens

def expandPointerKind (tokens : List Token) : Outcome :=
  match tokens with
  | .word w _ :: rest => if w = "const" ∨ w = "mut" then met rest else wish .pointerKind tokens
  | tokens => wish .pointerKind tokens

def expandTuple : List Token → Outcome
  | [] => met []
  | tokens => .ok ([typeForm true, tupleRest], tokens)

def expandTupleRest : List Token → Outcome
  | .mark ',' _ :: rest => .ok ([commaList (typeForm true)], rest)
  | tokens => met tokens

/-- The length of an array type. -/
def expandLengthPart : List Token → Outcome
  | .mark ';' _ :: rest => .ok ([expression true], rest)
  | tokens => met tokens

end Phrasebook.Embedded.Goal
