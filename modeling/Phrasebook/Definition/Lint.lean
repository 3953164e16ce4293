import Phrasebook.Definition.Basic

/-!
Definitions that say more than they need to, or that likely lose the tags of a parameter. Nothing
here is an error.
-/

namespace Phrasebook

inductive Warning where
  | unknownPhrase (name language : String)
  | parameterCount (name language : String) (expected found : Nat)
  | redundantBlock (name language : String)
  | redundantSelector (name language key parameter : String)
  | missingFrom (name language parameter : String)
  | verboseWrapper (name language parameter : String)
deriving DecidableEq, Repr

namespace Warning

def message : Warning → String
  | unknownPhrase name language =>
    s!"warning: phrase '{name}' in '{language}' is not defined in the source language"
  | parameterCount name language expected found =>
    s!"warning: phrase '{name}' in '{language}' takes {found} parameter(s) " ++
      s!"but the source takes {expected}"
  | redundantBlock name language =>
    s!"warning: phrase '{name}' in '{language}' has redundant passthrough variant block; " ++
      "use simple :from template instead"
  | redundantSelector name language key parameter =>
    s!"warning: phrase '{name}' in '{language}' has redundant selector ':{key}' " ++
      s!"on :from parameter '${parameter}'; bare '\x7b${parameter}\x7d' " ++
      "resolves to the same value"
  | missingFrom name language parameter =>
    s!"warning: phrase '{name}' in '{language}' uses parameter '${parameter}' without :from; " ++
      "tags and variants may be lost"
  | verboseWrapper name language parameter =>
    s!"warning: phrase '{name}' in '{language}' uses ':from(${parameter}) " ++
      s!"\"\x7b${parameter}\x7d\"'; use body-less ':from(${parameter});' instead"

end Warning

namespace Definition

/-- The inherited parameter and the entries of a plain block that inherits. -/
def inheritingBlock? (d : Definition) : Option (String × List Entry) :=
  match d.inherits, d.body, d.selectors with
  | some parameter, .entries entries, [] => some (parameter, entries)
  | _, _, _ => none

/-- The key of a hole that does no more than pass on the form of `parameter` under one of the
entry's own keys. -/
def passedKey? (hole : Interpolation) (parameter : String) (keys : List EntryKey) :
    Option String :=
  match hole with
  | ⟨none, .parameter name, [.literal key]⟩ =>
    if name = parameter ∧ keys.any (fun k => k.variantKey = key) then some key else none
  | _ => none

/-- A template seen with its passing holes marked. -/
inductive Shape where
  | literal (text : String)
  | passed
  | other
deriving DecidableEq, Repr

def shape (parameter : String) (keys : List EntryKey) : Segment → Shape
  | .literal text => .literal text
  | .interpolation hole => if (passedKey? hole parameter keys).isSome then .passed else .other

/-- The shape of an entry with exactly one passing hole. -/
def passingShape? (parameter : String) (entry : Entry) : Option (List Shape) :=
  let shapes := entry.template.segments.map (shape parameter entry.keys)
  if shapes.count .passed = 1 then some shapes else none

/-- All entries have one shape, so that one template would do. -/
def redundantBlock (d : Definition) (language : String) : List Warning :=
  match d.inheritingBlock? with
  | some (parameter, first :: rest) =>
    match passingShape? parameter first with
    | some shape =>
      if rest.all fun entry => passingShape? parameter entry = some shape then
        [.redundantBlock d.name language]
      else []
    | none => []
  | _ => []

def redundantSelectors (d : Definition) (language : String) : List Warning :=
  match d.inheritingBlock? with
  | some (parameter, entries) =>
    entries.flatMap fun entry => entry.template.interpolations.filterMap fun hole =>
      (passedKey? hole parameter entry.keys).map (.redundantSelector d.name language · parameter)
  | none => []

/-- The first parameter that a reference passes along. -/
def firstParameter? : Reference → Option String
  | .parameter name => some name
  | .term _ => none
  | .call _ arguments => arguments.findSome? fun
    | .parameter name => some name
    | _ => none

/-- A parameter read by its form, in a phrase that neither has tags nor inherits any. -/
def missingFrom (d : Definition) (language : String) : List Warning :=
  if d.parameters.isEmpty ∨ d.inherits.isSome ∨ ¬ d.tags.isEmpty then []
  else
    let selected := d.interpolations.filter fun hole => ¬ hole.selectors.isEmpty
    ((selected.findSome? fun hole => firstParameter? hole.reference).map
      (.missingFrom d.name language ·)).toList

/-- The inherited parameter alone, written out. -/
def verboseWrapper (d : Definition) (language : String) : List Warning :=
  match d.inherits, d.body with
  | some parameter, .template ⟨[.interpolation ⟨none, reference, []⟩]⟩ =>
    if d.bodyless = false ∧ reference = .parameter parameter then
      [.verboseWrapper d.name language parameter]
    else []
  | _, _ => []

def lint (d : Definition) (language : String) : List Warning :=
  d.redundantBlock language ++ d.redundantSelectors language ++ d.missingFrom language ++
    d.verboseWrapper language

end Definition

/-- The warnings of all definitions in turn; the language only names them. -/
def lintAll (definitions : List Definition) (language : String) : List Warning :=
  definitions.flatMap (·.lint language)

end Phrasebook
