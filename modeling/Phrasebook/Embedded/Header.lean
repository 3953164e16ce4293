import Phrasebook.Embedded.Reading

/-!
The header of embedded definitions, which names their language.
-/

namespace Phrasebook.Embedded.Header

def fail {α : Type} (tokens : List Token) (wish : Wish) : Except Fault α :=
  match tokens with
  | [] => .error ⟨.ended wish, none⟩
  | token :: _ => .error ⟨.wanted wish, some token.place⟩

/-- The name of the attribute, and what follows it. -/
def name : List Token → Except Fault (String × Nat × List Token)
  | .word spelling place :: rest =>
    if Keyword.isPath spelling || spelling == "unsafe" then .ok (spelling, place, rest)
    else .error ⟨.keyword spelling, some place⟩
  | tokens => fail tokens .identifier

def equals : List Token → Except Fault (List Token)
  | .mark '=' _ :: rest => .ok rest
  | tokens => fail tokens (.sign "=")

/-- A value is an expression; `none` when it is no text. -/
def value : List Token → Except Fault (Option String)
  | [.literal (.text value) _] => .ok (some value)
  | .mark '#' place :: .group .square _ _ _ :: _ => .error ⟨.nestedAttribute, some place⟩
  | tokens => (Reading.expression tokens).map fun _ => none

/-- The language that an attribute names. The whole attribute is read before anything is said of
its name and value. -/
def language (tokens : List Token) : Except Fault String := do
  let (name, place, rest) ← name (Token.loosenAll tokens)
  let rest ← equals rest
  let value ← value rest
  if name = "language" then
    match value with
    | some language => return language
    | none => throw ⟨.language, rest.head?.map Token.place⟩
  else throw ⟨.unknownAttribute, some place⟩

end Phrasebook.Embedded.Header
