import Phrasebook.Definition.Parser
import Phrasebook.Locale.Rendering
import Phrasebook.Transform.Builtin

/-!
Locales: the checked phrases of one language, and how to render them. A locale never changes, and
never falls back to another one's phrases.
-/

namespace Phrasebook

structure Locale extends Setting where
  transforms : Registry

/-- What a locale is built from. -/
structure Blueprint where
  language : String
  source : String
  /-- Transforms on top of the built-in ones, whose names they may take over. -/
  transforms : List (String × Transform) := []
  rule : PluralRule := .standard
  stringContext : Option String := none

namespace Blueprint

def registry (b : Blueprint) (language : Language) : Registry :=
  (Registry.forLanguage language.primary).registerAll b.transforms

def locale (b : Blueprint) (language : Language) (phrases : Store) : Locale where
  language := b.language
  rule := b.rule
  groups := .forLanguage language.primary
  stringContext := b.stringContext
  phrases
  transforms := b.registry language

/-- First the language is read, then the source, and then the definitions are checked. -/
def build (b : Blueprint) : Except LoadError Locale := do
  let language ← match Language.parse? b.language with
    | some language => pure language
    | none => throw (.invalidLanguage b.language)
  let definitions ← (Definition.parseAll b.source).mapError .parse
  match checkAll definitions (b.registry language).names with
  | [] => return b.locale language (← Store.empty.insertAll definitions)
  | errors => throw (.invalid b.language errors)

end Blueprint

namespace Locale

/-- Transforms are handed the locale that calls them. -/
def conventions (l : Locale) : Conventions where
  category := l.category
  apply name value context := l.transforms.apply name value context l.toSetting
  groups := l.groups
  stringContext := l.stringContext

/-- Looks a phrase up, counts the arguments, and goes on with the definition. -/
def enter (l : Locale) (name : String) (arguments : List Value)
    (render : Definition → Except EvalError Phrase) : Except EvalError Phrase :=
  match l.phrases.get? name with
  | none => .error (.phraseNotFound name l.language)
  | some d =>
    if d.arity = arguments.length then render d
    else .error (.argumentCount d.name d.arity arguments.length)

/-- Calls with a bound on the depth of nested calls. -/
def callWithin (l : Locale) : Nat → Call
  | 0 => fun name arguments => l.enter name arguments fun d => .error (.nestedTooDeep d.name)
  | depth + 1 => fun name arguments =>
    l.enter name arguments fun d =>
      Rendering.definition l.conventions (l.callWithin depth) d arguments

/-- Phrases refer to each other without cycles, so that calls nest no deeper than there are
phrases. -/
def call (l : Locale) : Call :=
  l.callWithin l.phrases.size

/-- A phrase without parameters. -/
def term (l : Locale) (name : String) : Except EvalError Phrase :=
  l.call name []

/-- Counts the arguments for a definition and renders it. -/
def callDefinition (l : Locale) (d : Definition) (arguments : List Value) :
    Except EvalError Phrase :=
  if d.arity = arguments.length then Rendering.definition l.conventions l.call d arguments
  else .error (.argumentCount d.name d.arity arguments.length)

/-- An id stands for a phrase with just its number of parameters. -/
def callById (l : Locale) (id : PhraseId) (arguments : List Value) : Except EvalError Phrase :=
  match l.phrases.ofHash? id.hash with
  | some d =>
    if d.arity = id.arity.toNat then l.callDefinition d arguments else .error (.idNotFound id.hash)
  | none => .error (.idNotFound id.hash)

def nameForId? (l : Locale) (id : PhraseId) : Option String :=
  l.phrases.nameOf? id.hash

def contains (l : Locale) (name : String) : Bool :=
  l.phrases.contains name

def names (l : Locale) : List String :=
  l.phrases.phraseNames

/-- An id holds at most 255 parameters. -/
def idOf (d : Definition) : PhraseId :=
  .ofName d.name (UInt8.ofNat (min d.arity 255))

/-- In the order of the names. -/
def ids (l : Locale) : List PhraseId :=
  l.phrases.definitions.map idOf

/-- Reads a template and renders it with values for its parameters. -/
def evaluate (l : Locale) (template : String) (parameters : Bindings) :
    Except EvalError String := do
  let template ← (Template.parse template).mapError .parse
  Rendering.template l.conventions l.call parameters template

def lint (l : Locale) : List Warning :=
  lintAll l.phrases.definitions l.language

/-- How a locale departs from the one it is written after: phrases that the other does not have, and
other numbers of parameters. -/
def against (l base : Locale) : List Warning :=
  l.phrases.definitions.filterMap fun d =>
    match base.phrases.get? d.name with
    | none => some (.unknownPhrase d.name l.language)
    | some expected =>
      if expected.arity = d.arity then none
      else some (.parameterCount d.name l.language expected.arity d.arity)

end Locale

end Phrasebook
