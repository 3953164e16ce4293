import Phrasebook.Embedded.Token

/-!
The words that the program keeps for itself.
-/

namespace Phrasebook.Embedded.Keyword

/-- Words that cannot stand as names, unless they are marked as such. The list is that of `syn`, which
leaves out `gen`, a keyword from the edition of 2024 on. -/
def all : List String :=
  [ "_", "abstract", "as", "async", "await", "become", "box", "break", "const", "continue", "crate",
    "do", "dyn", "else", "enum", "extern", "false", "final", "fn", "for", "if", "impl", "in", "let",
    "loop", "macro", "match", "mod", "move", "mut", "override", "priv", "pub", "ref", "return",
    "Self", "self", "static", "struct", "super", "trait", "true", "try", "type", "typeof", "unsafe",
    "unsized", "use", "virtual", "where", "while", "yield" ]

/-- Words that cannot stand as names even with the mark. -/
def unmarkable : List String :=
  ["_", "self", "Self", "super", "crate"]

/-- A name as the program spells it: marked where it has to be. -/
def spell? (name : String) : Option String :=
  if name ∉ all then some name
  else if name ∈ unmarkable then none
  else some (Token.nameMark ++ name)

/-- The keywords that can stand for a place in the program. -/
def places : List String :=
  ["super", "self", "Self", "crate"]

/-- A name, or a keyword that stands for a place. -/
def isPath (word : String) : Bool :=
  !all.contains word || places.contains word

end Phrasebook.Embedded.Keyword
