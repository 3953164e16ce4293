import Phrasebook.Template.Basic
import Phrasebook.Text.Position
import Phrasebook.Text.Segment

/-!
Definitions of phrases: a name, parameters, tags, and a body that is one template or a block of
keyed ones. A block is either the list of the phrase's forms or, for a phrase that selects by some
of its parameters, the list of its arms.
-/

namespace Phrasebook

open Text (Position joinSegments)

/-- One part of a dotted key: a word, or a star that may carry a word as its label. -/
inductive KeyPart where
  | literal (name : String)
  | wildcard (label : Option String)
deriving DecidableEq, Repr

namespace KeyPart

/-- A labelled star counts as its label. -/
def label : KeyPart → Option String
  | literal name => some name
  | wildcard label => label

def isWildcard : KeyPart → Bool
  | literal _ => false
  | wildcard _ => true

protected def toString : KeyPart → String
  | literal name => name
  | wildcard (some name) => "*" ++ name
  | wildcard none => "*"

end KeyPart

structure EntryKey where
  parts : List KeyPart
deriving DecidableEq, Repr

namespace EntryKey

/-- The key that a form is stored under: without stars. -/
def variantKey (key : EntryKey) : String :=
  joinSegments (key.parts.filterMap KeyPart.label)

/-- A labelled star in front marks the form that gives a phrase its text. -/
def isDefaultMarker (key : EntryKey) : Bool :=
  match key.parts.head? with
  | some (.wildcard (some _)) => true
  | _ => false

def hasWildcard (key : EntryKey) : Bool :=
  key.parts.any KeyPart.isWildcard

def isCatchAll (key : EntryKey) : Bool :=
  key.parts.all KeyPart.isWildcard

protected def toString (key : EntryKey) : String :=
  ".".intercalate (key.parts.map KeyPart.toString)

end EntryKey

/-- Several keys may share a template. -/
structure Entry where
  keys : List EntryKey
  template : Template
deriving DecidableEq, Repr

inductive Body where
  | template (template : Template)
  | entries (entries : List Entry)
deriving DecidableEq, Repr

namespace Body

def templates : Body → List Template
  | template t => [t]
  | entries es => es.map Entry.template

end Body

structure Definition where
  name : String
  parameters : List String
  /-- In the order of declaration, each once. -/
  tags : List String
  /-- The parameter that the phrase takes its other tags and its variants from. -/
  inherits : Option String
  /-- The parameters that choose between the arms. -/
  selectors : List String
  body : Body
  /-- Written without a body, so that the body is the inherited parameter alone. -/
  bodyless : Bool
  position : Position
deriving DecidableEq, Repr

namespace Definition

def arity (d : Definition) : Nat :=
  d.parameters.length

def templates (d : Definition) : List Template :=
  d.body.templates

def interpolations (d : Definition) : List Interpolation :=
  d.templates.flatMap Template.interpolations

end Definition

end Phrasebook
