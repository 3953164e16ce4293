import Phrasebook.Definition.Check
import Phrasebook.ParseError

/-!
What is wrong with definitions that are embedded in a program, and at which of its tokens.
-/

namespace Phrasebook.Embedded

inductive Bracket where
  | round
  | square
  | curly
deriving DecidableEq, Repr

namespace Bracket

def opening : Bracket → String
  | round => "("
  | square => "["
  | curly => "\x7b"

def closing : Bracket → String
  | round => ")"
  | square => "]"
  | curly => "\x7d"

/-- What a pair of brackets is called. -/
def name : Bracket → String
  | round => "parentheses"
  | square => "square brackets"
  | curly => "curly braces"

end Bracket

/-- What a reader of the program's own forms wants to see next. -/
inductive Wish where
  | sign (spelling : String)
  | word (spelling : String)
  | brackets (bracket : Bracket)
  | anyBrackets
  | identifier
  | member
  | literal
  | expression
  | pattern
  | typeForm
  | pointerKind
  | separator
  | elseBranch
deriving DecidableEq, Repr

namespace Wish

def spelling : Wish → String
  | sign s => s!"`{s}`"
  | word s => s!"`{s}`"
  | brackets bracket => bracket.name
  | anyBrackets => "delimiter"
  | identifier => "identifier"
  | member => "identifier or integer"
  | literal => "literal"
  | expression => "an expression"
  | pattern =>
    "one of: identifier, `::`, `<`, `_`, literal, `const`, `ref`, `mut`, `&`, parentheses, " ++
      "square brackets, `..`"
  | typeForm =>
    "one of: `for`, parentheses, `fn`, `unsafe`, `extern`, identifier, `::`, `<`, `dyn`, " ++
      "square brackets, `*`, `&`, `!`, `impl`, `_`, lifetime"
  | pointerKind => "`const` or `mut`"
  | separator => "`,` or `;`"
  | elseBranch => "`if` or curly braces"

end Wish

inductive Cause where
  | literal
  | noAttribute
  | keyword (word : String)
  /-- Something else stands in the place of what was wanted. -/
  | wanted (wish : Wish)
  /-- The tokens end where something was wanted. -/
  | ended (wish : Wish)
  | nestedAttribute
  | chainedComparison
  | castFollowed (follower : String)
  | noSemicolon
  /-- Tokens are left over, before a closing bracket or at the very end. -/
  | leftover (bracket : Option Bracket)
  | unknownAttribute
  | language
  | parse (error : ParseError)
  | definition (error : DefinitionError)
  | phraseName (name : String)
  | parameterName (name : String)
  | sameConstant (previous name : String)
  | tooManyParameters (phrase : String)
deriving DecidableEq, Repr

namespace Cause

def message : Cause → String
  | literal => "expected a string or integer literal"
  | noAttribute => "expected an attribute"
  | keyword word => s!"expected identifier, found keyword `{word}`"
  | wanted wish => "expected " ++ wish.spelling
  | ended (.sign s) => s!"expected `{s}`"
  | ended wish => "unexpected end of input, expected " ++ wish.spelling
  | nestedAttribute => "unexpected attribute inside of attribute"
  | chainedComparison => "comparison operators cannot be chained"
  | castFollowed follower => "casts cannot be followed by " ++ follower
  | noSemicolon => "unexpected token, expected `;`"
  | leftover none => "unexpected token"
  | leftover (some bracket) => s!"unexpected token, expected `{bracket.closing}`"
  | unknownAttribute => "unknown attribute, expected `language`"
  | language => "expected a language string such as \"en\""
  | parse error => error.message
  | definition error => error.message
  | phraseName name => s!"'{name}' cannot be used as a phrase name"
  | parameterName name => s!"'${name}' cannot be used as a parameter name"
  | sameConstant previous name =>
    s!"phrases '{previous}' and '{name}' map to the same phrase id constant"
  | tooManyParameters phrase => s!"phrase '{phrase}' has more than 255 parameters"

end Cause

structure Fault where
  cause : Cause
  /-- The place of a token; none where there is no token to blame. -/
  place : Option Nat
deriving DecidableEq, Repr

def Fault.message (f : Fault) : String :=
  f.cause.message

end Phrasebook.Embedded
