import Phrasebook.Embedded.TypeForm

/-!
The patterns that a program's expressions match values against.
-/

namespace Phrasebook.Embedded.Goal

/-- Alternatives, with a bar before the first one if need be. -/
def expandPatterns (tokens : List Token) : Outcome :=
  .ok ([pattern, patternsRest], skipMark '|' tokens)

def expandPatternsRest : List Token → Outcome
  | .mark '|' _ :: rest => .ok ([pattern, patternsRest], rest)
  | tokens => met tokens

def expandPattern (tokens : List Token) : Outcome :=
  match tokens with
  | .group .round _ _ _ :: _ => .ok ([within .round [commaList patterns]], tokens)
  | .group .square _ _ _ :: _ => .ok ([within .square [commaList patterns]], tokens)
  | .mark '&' _ :: rest => .ok ([pattern], skipWord "mut" rest)
  | .mark '-' _ :: rest => .ok ([literal], rest)
  | .mark '<' _ :: rest => .ok (qualified, rest)
  | .literal _ _ :: rest => met rest
  | .word w _ :: rest =>
    if w = "_" ∨ w = "true" ∨ w = "false" then met rest
    else if w = "ref" ∨ w = "mut" then .ok ([binding], skipWord "mut" (skipWord "ref" tokens))
    else if w = "const" then .ok ([block], rest)
    else if Keyword.isPath w then .ok ([patternRest], rest)
    else wish .pattern tokens
  | tokens => wish .pattern tokens

/-- What may follow a name in a pattern. -/
def expandPatternRest (tokens : List Token) : Outcome :=
  match tokens with
  | .mark '!' _ :: rest => .ok ([anyBrackets], rest)
  | .group .curly _ _ _ :: _ => .ok ([within .curly [commaList fieldPattern]], tokens)
  | .group .round _ _ _ :: _ => .ok ([within .round [commaList patterns]], tokens)
  | tokens => .ok ([bindingRest], tokens)

def expandBinding (tokens : List Token) : Outcome :=
  .ok ([name, bindingRest], tokens)

def expandBindingRest : List Token → Outcome
  | .mark '@' _ :: rest => .ok ([pattern], rest)
  | tokens => met tokens

def expandFieldPattern (tokens : List Token) : Outcome :=
  if startsWord "ref" tokens || startsWord "mut" tokens then
    .ok ([name], skipWord "mut" (skipWord "ref" tokens))
  else .ok ([notes, member, fieldPatternRest], tokens)

def expandFieldPatternRest : List Token → Outcome
  | .mark ':' _ :: rest => .ok ([patterns], rest)
  | tokens => met tokens

end Phrasebook.Embedded.Goal
