import Phrasebook.Definition.Parser
import Phrasebook.Embedded.Basic
import Phrasebook.Transform.Builtin

/-!
The check of embedded definitions. Besides being sound among themselves, they must have names that
the program can use.
-/

namespace Phrasebook.Embedded

open Text (Position)

/-- Names that every set of embedded definitions takes for itself. -/
def taken : List String := ["locale", "phrase_ids"]

/-- Keywords that cannot be marked as names. -/
def unusable : List String := ["self", "super", "crate"]

/-- The name of the constant that holds the id of a phrase. -/
def constantOf (name : String) : String :=
  name.map Char.toUpper

/-- The most parameters of a phrase. -/
def maxArity : Nat := 255

/-- A name that is defined twice is blamed on its last definition. -/
def blamed (definitions : List Definition) (error : DefinitionError) : Position :=
  let candidates := match error with
    | .duplicatePhrase _ => definitions.reverse
    | _ => definitions
  ((candidates.find? fun d => d.name = error.phrase).map Definition.position).getD .start

def nameCauses (d : Definition) : List Cause :=
  (if d.name ∈ taken ∨ d.name ∈ unusable then [.phraseName d.name] else []) ++
    (d.parameters.filter (· ∈ unusable)).map .parameterName

/-- Of the definitions before, the last one with the same constant. They come the last first. -/
def constantCauses (before : List Definition) (d : Definition) : List Cause :=
  match before.find? fun other => constantOf other.name = constantOf d.name with
  | some other => [.sameConstant other.name d.name]
  | none => []

def arityCauses (d : Definition) : List Cause :=
  if d.arity ≤ maxArity then [] else [.tooManyParameters d.name]

/-- The faults of the definitions as parts of a program, each blamed on its definition. -/
def faultsFrom (e : Embedded) (before : List Definition) : List Definition → List Fault
  | [] => []
  | d :: rest =>
    let causes := nameCauses d ++ constantCauses before d ++ arityCauses d
    causes.map (⟨·, e.placeAt d.position⟩) ++ faultsFrom e (d :: before) rest

/-- Reads the definitions and checks them, first among themselves and then as parts of a program. -/
def check (e : Embedded) : Except (List Fault) (List Definition) :=
  match Definition.parseAll e.source with
  | .error error => .error [⟨.parse error, e.placeAt error.position⟩]
  | .ok definitions =>
    match checkAll definitions (Builtin.names e.baseLanguage) with
    | [] =>
      match faultsFrom e [] definitions with
      | [] => .ok definitions
      | faults => .error faults
    | errors =>
      .error (errors.map fun error =>
        ⟨.definition error, e.placeAt (blamed definitions error)⟩)

end Phrasebook.Embedded
