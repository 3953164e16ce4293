import Phrasebook.Definition.Basic
import Phrasebook.Plural
import Phrasebook.Value

/-!
The choice of an arm. Each selecting value offers candidate keys, the best first. An arm whose
parts are candidates one by one is chosen by the order of the candidates, the first selector
counting most; failing that, the first arm whose words are candidates and whose stars are free;
failing that, the first arm of stars alone.
-/

namespace Phrasebook

/-- A number offers its digits and its category, a text itself and the category of the integer it
spells, and a phrase its tags. -/
def candidates (category : Int64 → PluralCategory) : Value → List String
  | .number n => [Text.showInteger n, (category n).key]
  | .text content =>
    content :: ((Value.text content).numeric?.map fun n => (category n).key).toList
  | .phrase p => p.tags.tags

/-- A key of a block, with the template of its entry. -/
abbrev Arm := EntryKey × Template

namespace Arm

def arms (entries : List Entry) : List Arm :=
  entries.flatMap fun entry => entry.keys.map fun key => (key, entry.template)

/-- One candidate from each list, in every way, the first list changing slowest. -/
def tuples : List (List String) → List (List String)
  | [] => [[]]
  | keys :: rest => keys.flatMap fun key => (tuples rest).map (key :: ·)

/-- Every part, with or without a star, is labelled with the candidate at its place. -/
def isExactly (key : EntryKey) (tuple : List String) : Bool :=
  key.parts.map KeyPart.label == tuple.map some

def admits : KeyPart → List String → Bool
  | .wildcard _, _ => true
  | .literal name, keys => keys.contains name

/-- Words must be candidates at their places; stars admit anything. -/
def matchesFreely (key : EntryKey) (candidates : List (List String)) : Bool :=
  (key.parts.zip candidates).all fun (part, keys) => admits part keys

def exactArm? (arms : List Arm) (candidates : List (List String)) : Option Arm :=
  (tuples candidates).findSome? fun tuple => arms.find? fun arm => isExactly arm.1 tuple

def freeArm? (arms : List Arm) (candidates : List (List String)) : Option Arm :=
  arms.find? fun arm =>
    arm.1.parts.length == candidates.length && arm.1.hasWildcard && !arm.1.isCatchAll &&
      matchesFreely arm.1 candidates

/-- A single star catches any number of values. -/
def catchAllArm? (arms : List Arm) (count : Nat) : Option Arm :=
  arms.find? fun arm =>
    (arm.1.parts.length == count || arm.1.parts.length == 1) && arm.1.isCatchAll

def select? (entries : List Entry) (candidates : List (List String)) : Option Template :=
  let arms := arms entries
  ((exactArm? arms candidates).or <| (freeArm? arms candidates).or <|
    catchAllArm? arms candidates.length).map Prod.snd

end Arm

end Phrasebook
