import Phrasebook.EvalError
import Phrasebook.Locale.Store
import Phrasebook.Plural
import Phrasebook.TagGroups
import Phrasebook.Value

/-!
Transforms, which turn a value into text by the grammar of a language, and the parts that they
share: the choice of a tag, the reading of contexts, and the choice of a form.
-/

namespace Phrasebook

open Text

/-- A locale as a transform finds it: all of it but the registry of transforms, which is no data. The
other transforms that one uses, such as those in phrases that it renders, are part of what it is. -/
structure Setting where
  language : String
  rule : PluralRule
  groups : TagGroups
  /-- The key of the form that gives a plain block its text, where the block has it. -/
  stringContext : Option String
  phrases : Store

namespace Setting

def category (s : Setting) (n : Int64) : PluralCategory :=
  s.rule.category s.language n

/-- No phrases, in a language by its primary subtag. -/
def empty (language : String) : Setting where
  language
  rule := .standard
  groups := .forLanguage language
  stringContext := none
  phrases := .empty

end Setting

/-- A transform takes a value, the context it is called with, if any, and the locale that calls
it. -/
abbrev Transform := Value → Option String → Setting → Except EvalError String

namespace Transform

/-- The option whose tag the value carries; it must carry exactly one. -/
def choose {α : Type} (transform : String) (value : Value) (options : List (String × α)) :
    Except EvalError α :=
  match options.filter fun option => value.hasTag option.1 with
  | [option] => .ok option.2
  | [] => .error (.missingTag transform (options.map Prod.fst) value.shown)
  | found => .error (.unsupportedTags transform (found.map Prod.fst))

inductive Gender where
  | masc
  | fem
  | neut
deriving DecidableEq, Repr

def twoGenders : List (String × Gender) :=
  [("masc", .masc), ("fem", .fem)]

def threeGenders : List (String × Gender) :=
  [("masc", .masc), ("fem", .fem), ("neut", .neut)]

/-- Grammatical number, as far as transforms tell it apart. -/
inductive Number where
  | singular
  | plural
deriving DecidableEq, Repr

namespace Number

/-- The key of the forms in this number. -/
def key : Number → String
  | singular => "one"
  | plural => "other"

def ofCategory : PluralCategory → Number
  | .one => singular
  | _ => plural

/-- A context that names a plural category. -/
def named? : String → Option Number
  | "one" => some singular
  | "zero" => some plural
  | "two" => some plural
  | "few" => some plural
  | "many" => some plural
  | "other" => some plural
  | _ => none

/-- An integer counts by the rules of the setting, and no context at all is singular. -/
def ofContext? (context : Option String) (setting : Setting) : Option Number :=
  match context with
  | none => some singular
  | some text =>
    match integer? text.toList with
    | some n => some (ofCategory (setting.category n))
    | none => named? text

end Number

def invalidContext {α : Type} (transform : String) (context : Option String) :
    Except EvalError α :=
  .error (.invalidContext transform (context.getD ""))

def number (transform : String) (context : Option String) (setting : Setting) :
    Except EvalError Number :=
  match Number.ofContext? context setting with
  | some n => .ok n
  | none => invalidContext transform context

/-- A context without and with what stands behind its first dot. -/
def splitContext (context : String) : String × Option String :=
  let (head, tail) := cutFirst '.' context.toList
  (String.ofList head, tail.map String.ofList)

/-- A context of the form `case` or `case.number`; without one the first case is meant. -/
def caseAndNumber {α : Type} (transform : String) (first : α) (cases : List (String × α))
    (context : Option String) (setting : Setting) : Except EvalError (α × Number) :=
  match context with
  | none => .ok (first, .singular)
  | some text =>
    let (name, rest) := splitContext text
    match cases.lookup name, Number.ofContext? rest setting with
    | some c, some n => .ok (c, n)
    | _, _ => invalidContext transform context

/-- The form under the first of the keys that the value has a form for, else its own text. -/
def form (value : Value) (keys : List String) : String :=
  match value.phrase? with
  | some p => (keys.findSome? p.variants.lookup?).getD p.text
  | none => value.shown

end Transform

end Phrasebook
