import Phrasebook.Definition.Cycle
import Phrasebook.Text.Distance

/-!
The check of a set of definitions against each other and against the transforms at hand. What
passes it can fail in rendering only for reasons that lie in the arguments.
-/

namespace Phrasebook

open Text

inductive DefinitionError where
  | duplicatePhrase (name : String)
  | unknownParameter (phrase parameter : String)
  | unknownPhrase (phrase reference : String) (suggestions : List String)
  | argumentCount (phrase callee : String) (expected got : Nat)
  | missingOther (phrase : String)
  | multipleDefaults (phrase : String)
  | matchWithoutArms (phrase : String)
  | matchArity (phrase key : String) (expected got : Nat)
  | wildcardOutsideMatch (phrase key : String)
  | unknownTransform (phrase transform : String) (suggestions : List String)
  | cycle (chain : List String)
deriving DecidableEq, Repr

namespace DefinitionError

def didYouMean : List String → String
  | [] => ""
  | [only] => s!", did you mean '{only}'?"
  | many =>
    let names := ", ".intercalate many
    s!", did you mean one of: {names}?"

def message : DefinitionError → String
  | duplicatePhrase name => s!"phrase '{name}' is defined more than once"
  | unknownParameter phrase parameter =>
    s!"phrase '{phrase}' uses undeclared parameter '${parameter}'"
  | unknownPhrase phrase reference suggestions =>
    s!"phrase '{phrase}' references unknown phrase '{reference}'{didYouMean suggestions}"
  | argumentCount phrase callee expected got =>
    s!"phrase '{phrase}' calls '{callee}' with {got} argument(s), expected {expected}"
  | missingOther phrase => s!"phrase '{phrase}' has a variant block without an 'other' entry"
  | multipleDefaults phrase => s!"phrase '{phrase}' marks more than one default variant with '*'"
  | matchWithoutArms phrase => s!"phrase '{phrase}' uses :match but has no block of arms"
  | matchArity phrase key expected got =>
    s!"phrase '{phrase}' has arm '{key}' with {got} part(s), expected {expected}"
  | wildcardOutsideMatch phrase key =>
    s!"phrase '{phrase}' uses wildcard key '{key}' outside of :match"
  | unknownTransform phrase transform suggestions =>
    s!"phrase '{phrase}' uses unknown transform '@{transform}'{didYouMean suggestions}"
  | cycle chain =>
    let names := " -> ".intercalate chain
    s!"cyclic reference: {names}"

/-- The definition that the error is reported against. -/
def phrase : DefinitionError → String
  | duplicatePhrase name => name
  | unknownParameter phrase _ => phrase
  | unknownPhrase phrase _ _ => phrase
  | argumentCount phrase _ _ _ => phrase
  | missingOther phrase => phrase
  | multipleDefaults phrase => phrase
  | matchWithoutArms phrase => phrase
  | matchArity phrase _ _ _ => phrase
  | wildcardOutsideMatch phrase _ => phrase
  | unknownTransform phrase _ _ => phrase
  | cycle chain => chain.headD ""

end DefinitionError

namespace Definition

/-- What a definition is checked against: the arities of all phrases, and the transforms. -/
structure Surroundings where
  arities : Dictionary Nat
  transforms : List String

def arities (definitions : List Definition) : Dictionary Nat :=
  Dictionary.ofList (definitions.map fun d => (d.name, d.arity))

/-- One error for each definition of a name that has been defined before. -/
def duplicates : List String → List Definition → List DefinitionError
  | _, [] => []
  | seen, d :: rest =>
    (if d.name ∈ seen then [.duplicatePhrase d.name] else []) ++ duplicates (d.name :: seen) rest

variable (s : Surroundings) (d : Definition)

def checkParameter (name : String) : List DefinitionError :=
  if name ∈ d.parameters then [] else [.unknownParameter d.name name]

def checkCall (callee : String) (got : Nat) : List DefinitionError :=
  match s.arities.get? callee with
  | some expected =>
    if expected = got then [] else [.argumentCount d.name callee expected got]
  | none => [.unknownPhrase d.name callee (suggestions callee s.arities.keys)]

def checkSelector : Selector → List DefinitionError
  | .literal _ => []
  | .parameter name => d.checkParameter name

def checkTransform (call : TransformCall) : List DefinitionError :=
  (if call.name ∈ s.transforms then []
    else [.unknownTransform d.name call.name (suggestions call.name s.transforms)]) ++
  call.context.toList.flatMap d.checkSelector

def checkArgument : Argument → List DefinitionError
  | .parameter name => d.checkParameter name
  | .term name => d.checkCall s name 0
  | .number _ => []
  | .text _ => []

def checkReference : Reference → List DefinitionError
  | .parameter name => d.checkParameter name
  | .term name => d.checkCall s name 0
  | .call name arguments =>
    d.checkCall s name arguments.length ++ arguments.flatMap (d.checkArgument s)

def checkInterpolation (hole : Interpolation) : List DefinitionError :=
  hole.transform.toList.flatMap (d.checkTransform s) ++ d.checkReference s hole.reference ++
    hole.selectors.flatMap d.checkSelector

/-- A star of a plain block may only mark the default, and so stands in front with its label. -/
def isMisplaced (key : EntryKey) : Bool :=
  match key.parts with
  | .wildcard none :: _ => true
  | _ :: rest => rest.any KeyPart.isWildcard
  | [] => false

/-- The keys of a plain block: at most one default, and a form for `other`. -/
def checkForms (keys : List EntryKey) : List DefinitionError :=
  (keys.filter isMisplaced).map (fun key => .wildcardOutsideMatch d.name key.toString) ++
  (if (keys.filter EntryKey.isDefaultMarker).length > 1 then [.multipleDefaults d.name] else []) ++
  (if keys.any fun key => lastSegment key.variantKey = "other" then []
    else [.missingOther d.name])

/-- A single star or labelled star catches everything. -/
def isLoneStar (key : EntryKey) : Bool :=
  key.parts.length == 1 && key.isCatchAll

/-- The keys of arms have one part for each selecting parameter. -/
def checkArms (keys : List EntryKey) : List DefinitionError :=
  let arity := d.selectors.length
  (keys.filter fun key => key.parts.length ≠ arity ∧ ¬ isLoneStar key).map fun key =>
    .matchArity d.name key.toString arity key.parts.length

def checkBody : List DefinitionError :=
  match d.body with
  | .template _ => if d.selectors.isEmpty then [] else [.matchWithoutArms d.name]
  | .entries entries =>
    let keys := entries.flatMap Entry.keys
    if d.selectors.isEmpty then d.checkForms keys else d.checkArms keys

def check : List DefinitionError :=
  d.inherits.toList.flatMap d.checkParameter ++ d.selectors.flatMap d.checkParameter ++
    d.checkBody ++ d.interpolations.flatMap (d.checkInterpolation s)

end Definition

/-- Every error of a set of definitions, in the order of the definitions: first the names that are
defined twice, and at most one cycle at the end. -/
def checkAll (definitions : List Definition) (transforms : List String) : List DefinitionError :=
  let s : Definition.Surroundings := ⟨Definition.arities definitions, transforms⟩
  Definition.duplicates [] definitions ++ definitions.flatMap (·.check s) ++
    ((Definition.findCycle definitions).map .cycle).toList

end Phrasebook
