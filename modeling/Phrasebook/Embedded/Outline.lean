import Phrasebook.Embedded.Check

/-!
What a program gets from its embedded definitions: a function for each phrase and one for the
locale, the constants that hold the source and its language, and the ids of the phrases.
-/

namespace Phrasebook.Embedded

structure Function where
  name : String
  parameters : List String
  /-- The phrase that the function calls; none for the one that builds the locale. -/
  phrase : Option String
deriving DecidableEq, Repr

/-- A constant that holds an id: that of the phrase, for so many parameters. -/
structure IdConstant where
  name : String
  phrase : String
  arity : Nat
deriving DecidableEq, Repr

structure Outline where
  functions : List Function
  constants : List (String × String)
  ids : List IdConstant
deriving DecidableEq, Repr

namespace Function

/-- Refused if the program cannot spell one of the names. -/
def ofDefinition? (d : Definition) : Option Function := do
  let name ← Keyword.spell? d.name
  let parameters ← d.parameters.mapM Keyword.spell?
  return ⟨name, parameters, some d.name⟩

def locale : Function := ⟨"locale", [], none⟩

end Function

def IdConstant.ofDefinition (d : Definition) : IdConstant :=
  ⟨constantOf d.name, d.name, min d.arity maxArity⟩

/-- The outline for definitions that have passed the check. -/
def outline? (e : Embedded) (definitions : List Definition) : Option Outline := do
  let functions ← definitions.mapM Function.ofDefinition?
  return {
    functions := functions ++ [.locale]
    constants := [("SOURCE", e.source), ("LANGUAGE", e.language)]
    ids := definitions.map .ofDefinition }

end Phrasebook.Embedded
