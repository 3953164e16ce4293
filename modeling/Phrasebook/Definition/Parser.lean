import Phrasebook.Definition.Grammar

/-!
Reading sources of definitions. The whole source is read by the grammar first; then each definition
in turn is settled, which finds what the grammar lets pass: directives that do not exist or stand
twice, and templates with faults.
-/

namespace Phrasebook

open Text (Position)

namespace RawDefinition

/-- What the modifiers of a definition add up to. -/
structure Header where
  tags : List String
  inherits : Option String
  selectors : List String

def failure {α : Type} (source : List Char) (left : Nat) (cause : ParseError.Cause) :
    Except ParseError α :=
  .error ⟨cause, Position.ahead source left⟩

/-- A tag counts once; `:from` and `:match` may each stand once. -/
def addModifier (raw : RawDefinition) (source : List Char) (header : Header) :
    Modifier → Except ParseError Header
  | .tag name =>
    .ok (if name ∈ header.tags then header else { header with tags := header.tags ++ [name] })
  | .inherits parameter =>
    match header.inherits with
    | some _ => failure source raw.left (.malformed (.repeatedFrom raw.name))
    | none => .ok { header with inherits := some parameter }
  | .selects parameters =>
    match header.selectors with
    | _ :: _ => failure source raw.left (.malformed (.repeatedMatch raw.name))
    | [] => .ok { header with selectors := parameters }
  | .unknown name left => failure source left (.unknownDirective name)

def header (raw : RawDefinition) (source : List Char) : Except ParseError Header :=
  raw.modifiers.foldlM (raw.addModifier source) ⟨[], none, []⟩

def settleEntry (source : List Char) (entry : RawEntry) : Except ParseError Entry := do
  let template ← entry.text.template source
  return ⟨entry.keys, template⟩

/-- The template that stands for a missing body: the inherited parameter alone. -/
def parameterAlone (name : String) : Template :=
  ⟨[.interpolation ⟨none, .parameter name, []⟩]⟩

def settleBody (raw : RawDefinition) (source : List Char) (inherits : Option String) :
    Except ParseError Body :=
  match raw.body with
  | .template text => do
    let template ← text.template source
    return .template template
  | .entries entries => do
    let entries ← entries.mapM (settleEntry source)
    return .entries entries
  | .absent =>
    match inherits with
    | some name => .ok (.template (parameterAlone name))
    | none => failure source raw.left (.malformed (.noBody raw.name))

def settle (source : List Char) (raw : RawDefinition) : Except ParseError Definition := do
  let header ← raw.header source
  let body ← raw.settleBody source header.inherits
  return {
    name := raw.name
    parameters := raw.parameters
    tags := header.tags
    inherits := header.inherits
    selectors := header.selectors
    body
    bodyless := raw.body == .absent
    position := Position.ahead source raw.left }

end RawDefinition

namespace Definition

def unread (source : List Char) (wanted : Wanted) (rest : List Char) : ParseError :=
  ⟨.malformed (.unread wanted rest.head?), Position.ahead source rest.length⟩

/-- Reads a source of definitions. -/
def parseAll (source : String) : Except ParseError (List Definition) :=
  let text := source.toList
  match Grammar.definitions text with
  | .done raws [] => raws.mapM (RawDefinition.settle text)
  | .done _ (c :: rest) =>
    .error ⟨.malformed (.strayCharacter c), Position.ahead text (rest.length + 1)⟩
  | .declined wanted rest => .error (unread text wanted rest)
  | .stuck wanted rest => .error (unread text wanted rest)

end Definition

end Phrasebook
