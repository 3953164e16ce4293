import Phrasebook.Text.Position

/-!
Why a template or a source of definitions cannot be read, and where. Every reason has one wording.
-/

namespace Phrasebook

open Text (Position)

/-- What a reader of definitions was about to read when it gave up, the innermost wish first. -/
structure Wanted where
  labels : List String
  characters : List Char
deriving DecidableEq, Repr

namespace Wanted

def nothing : Wanted := ⟨[], []⟩

/-- Only the innermost label is told. -/
def message (w : Wanted) : String :=
  let label := match w.labels with
    | [] => []
    | name :: _ => [s!"invalid {name}"]
  let wishes := match w.characters with
    | [] => []
    | cs => ["expected " ++ ", ".intercalate (cs.map fun c => s!"`{c}`")]
  ", ".intercalate (label ++ wishes)

end Wanted

/-- Text that follows no rule of the grammar. -/
inductive Malformed where
  | unmatchedBrace
  | transformName
  | parameterName
  | referenceName
  | selector
  | leftover (c : Char)
  | argument (callee : String)
  | argumentEnd (callee : String)
  | unread (wanted : Wanted) (found : Option Char)
  | strayCharacter (c : Char)
  | repeatedFrom (phrase : String)
  | repeatedMatch (phrase : String)
  | noBody (phrase : String)
deriving DecidableEq, Repr

namespace Malformed

def message : Malformed → String
  | unmatchedBrace => "unmatched '\x7d'"
  | transformName => "expected a transform name after '@'"
  | parameterName => "expected a parameter name after '$'"
  | referenceName => "expected a parameter or phrase name"
  | selector => "expected a selector after ':'"
  | leftover c => s!"unexpected '{c}' in interpolation"
  | argument callee => s!"malformed argument in call to '{callee}'"
  | argumentEnd callee => s!"expected ',' or ')' in call to '{callee}'"
  | unread wanted found =>
    let seen := match found with
      | some c => s!"'{c}'"
      | none => "end of input"
    match wanted.message with
    | "" => s!"unexpected {seen}"
    | wish => s!"{wish}, found {seen}"
  | strayCharacter c => s!"unexpected character '{c}'"
  | repeatedFrom phrase => s!"phrase '{phrase}' has more than one :from"
  | repeatedMatch phrase => s!"phrase '{phrase}' has more than one :match"
  | noBody phrase => s!"phrase '{phrase}' has no body and no :from"

end Malformed

inductive ParseError.Cause where
  | unterminatedInterpolation
  | unterminatedEscape
  | nestedCall (name : String)
  | complexArgument (argument : String)
  | unknownDirective (directive : String)
  | malformed (detail : Malformed)
deriving DecidableEq, Repr

structure ParseError where
  cause : ParseError.Cause
  position : Position
deriving DecidableEq, Repr

namespace ParseError

def message (e : ParseError) : String :=
  let p := e.position.toString
  match e.cause with
  | .unterminatedInterpolation => s!"unterminated interpolation at {p}: missing '\x7d'"
  | .unterminatedEscape =>
    s!"unterminated escape at {p}: '\x7b\x7b' without matching '\x7d\x7d'"
  | .nestedCall name => s!"illegal nested call to '{name}' at {p}"
  | .complexArgument argument => s!"illegal argument '{argument}' at {p}: arguments must be simple"
  | .unknownDirective directive => s!"unknown directive ':{directive}' at {p}"
  | .malformed detail => s!"syntax error at {p}: {detail.message}"

def relocated (e : ParseError) (position : Position) : ParseError :=
  { e with position }

end ParseError

end Phrasebook
