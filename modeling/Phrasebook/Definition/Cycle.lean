import Phrasebook.Definition.Basic
import Phrasebook.Dictionary

/-!
Cycles of references between phrases. The search goes depth first and in the order of names, so
that the cycle it reports does not depend on the order of the definitions.
-/

namespace Phrasebook

namespace Reference

/-- The phrases that a reference names, in itself and in its arguments. -/
def phrases (r : Reference) : List String :=
  let arguments := match r with
    | call _ arguments => arguments.filterMap fun
        | .term name => some name
        | _ => none
    | _ => []
  r.phrase?.toList ++ arguments

end Reference

namespace Definition

/-- The phrases that a definition refers to, in the order of names. -/
def references (d : Definition) : List String :=
  Dictionary.sortNames (d.interpolations.flatMap fun hole => hole.reference.phrases)

/-- The phrases that each phrase refers to. -/
abbrev Graph := Dictionary (List String)

def graph (definitions : List Definition) : Graph :=
  Dictionary.ofList (definitions.map fun d => (d.name, d.references))

/-- Searches from a phrase at the end of a path. The answer is a cycle, as an error, or the phrases
that no cycle can be reached from. The path has no phrase twice, so that as many steps as there are
phrases suffice. -/
def visit (graph : Graph) : Nat → List String → List String → String →
    Except (List String) (List String)
  | 0, _, clear, _ => .ok clear
  | steps + 1, path, clear, name => do
    let path := path ++ [name]
    let clear ← ((graph.get? name).getD []).foldlM (fun clear next =>
      if next ∈ path then .error (path.dropWhile (· ≠ next) ++ [next])
      else if next ∈ clear then .ok clear
      else if graph.contains next then visit graph steps path clear next
      else .ok clear) clear
    return clear ++ [name]

/-- The phrases along a cycle, with the first one again at the end. -/
def findCycle (definitions : List Definition) : Option (List String) :=
  let graph := graph definitions
  let search := graph.keys.foldlM (fun clear name =>
    if name ∈ clear then .ok clear else visit graph graph.keys.length [] clear name) []
  match search with
  | .ok _ => none
  | .error cycle => some cycle

end Definition

end Phrasebook
