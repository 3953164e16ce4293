import Phrasebook.Definition.Arm
import Phrasebook.EvalError
import Phrasebook.TagGroups

/-!
Rendering definitions. What the templates call is rendered by functions that the caller passes in,
so that nothing here depends on which phrases there are, nor on what a transform does with them.
-/

namespace Phrasebook

open Text

/-- What rendering asks of a locale, besides the phrases that are called. -/
structure Conventions where
  category : Int64 → PluralCategory
  /-- Renders a value by the transform of a name, in a context. -/
  apply : String → Value → Option String → Except EvalError String
  groups : TagGroups
  /-- The key of the form that gives a plain block its text, where the block has it. -/
  stringContext : Option String

/-- Renders a phrase by its name, with arguments. -/
abbrev Call := String → List Value → Except EvalError Phrase

/-- The values of parameters; the first one for a name counts. -/
abbrev Bindings := List (String × Value)

namespace Bindings

/-- Of two parameters with one name the later one counts. -/
def ofArguments (parameters : List String) (arguments : List Value) : Bindings :=
  (parameters.zip arguments).reverse

def value (b : Bindings) (name : String) : Except EvalError Value :=
  match b.lookup name with
  | some v => .ok v
  | none => .error (.missingParameter name)

end Bindings

namespace Rendering

variable (c : Conventions) (call : Call)

/-! ### Holes -/

def argument (b : Bindings) : Argument → Except EvalError Value
  | .parameter name => b.value name
  | .number n => .ok (.number n)
  | .text content => .ok (.text content)
  | .term name => (call name []).map .phrase

def reference (b : Bindings) : Reference → Except EvalError Value
  | .parameter name => b.value name
  | .term name => (call name []).map .phrase
  | .call name arguments => do
    let values ← arguments.mapM (argument call b)
    (call name values).map .phrase

/-- A number selects by its category, a phrase by its first tag, and a text by itself. -/
def keyOf (parameter : String) (value : Value) : Except EvalError String :=
  match value.numeric? with
  | some n => .ok (c.category n).key
  | none =>
    match value with
    | .phrase p =>
      match p.firstTag? with
      | some tag => .ok tag
      | none => .error (.untaggedSelector parameter p.text)
    | value => .ok value.shown

def selectorKey (b : Bindings) : Selector → Except EvalError String
  | .literal key => .ok key
  | .parameter name => (b.value name).bind (keyOf c name)

/-- Gives a phrase the text of the selected form. Other values have no forms to select. -/
def select (b : Bindings) (value : Value) (selectors : List Selector) : Except EvalError Value :=
  match value, selectors with
  | .phrase p, _ :: _ => do
    let keys ← selectors.mapM (selectorKey c b)
    return .phrase (p.withText (p.variant (joinSegments keys)))
  | value, _ => .ok value

/-- A number is its digits, so that transforms can count with it, and a phrase its first tag. -/
def contextOf : Value → String
  | .phrase p => p.firstTag?.getD p.text
  | value => value.shown

def context (b : Bindings) : Selector → Except EvalError String
  | .literal text => .ok text
  | .parameter name => (b.value name).map contextOf

def transform (b : Bindings) (value : Value) : Option TransformCall → Except EvalError String
  | none => .ok value.shown
  | some t => do
    let context ← t.context.mapM (context b)
    c.apply t.name value context

/-- First the reference, then the form, then the transform. -/
def interpolation (b : Bindings) (hole : Interpolation) : Except EvalError String := do
  let value ← reference call b hole.reference
  let value ← select c b value hole.selectors
  transform c b value hole.transform

def segment (b : Bindings) : Segment → Except EvalError String
  | .literal text => .ok text
  | .interpolation hole => interpolation c call b hole

def template (b : Bindings) (t : Template) : Except EvalError String :=
  (t.segments.mapM (segment c call b)).map String.join

/-! ### Bodies -/

/-- The forms of an entry: its text under each of its keys. -/
def entryForms (b : Bindings) (entry : Entry) : Except EvalError (List (EntryKey × String)) := do
  let text ← template c call b entry.template
  return entry.keys.map fun key => (key, text)

/-- The form that gives a plain block its text: by the string context, by the mark, or the first. -/
def defaultText (forms : List (EntryKey × String)) : String :=
  let byContext := c.stringContext.bind fun key =>
    (forms.find? fun form => form.1.variantKey = key).map Prod.snd
  let marked := (forms.find? fun form => form.1.isDefaultMarker).map Prod.snd
  (byContext.or (marked.or (forms.head?.map Prod.snd))).getD ""

def table (forms : List (String × String)) : Except EvalError VariantTable :=
  (VariantTable.ofForms forms).mapError .variants

/-- The text and the forms of a plain block. -/
def block (b : Bindings) (entries : List Entry) : Except EvalError (String × VariantTable) := do
  let forms := (← entries.mapM (entryForms c call b)).flatten
  let table ← table (forms.map fun form => (form.1.variantKey, form.2))
  return (defaultText c forms, table)

/-- The template of a body, or of the arm that the selecting parameters choose. -/
def chosen (d : Definition) (b : Bindings) : Except EvalError Template :=
  match d.body with
  | .template t => .ok t
  | .entries entries => do
    let values ← d.selectors.mapM b.value
    match Arm.select? entries (values.map (candidates c.category)) with
    | some t => return t
    | none => throw (.noMatchingVariant d.name (values.map Value.shown))

def body (d : Definition) (b : Bindings) : Except EvalError String := do
  template c call b (← chosen c d b)

/-- The body once for its text, and once more for each form of the inherited phrase, with that form
in the place of the parameter. -/
def perForm (d : Definition) (b : Bindings) (source : Option (String × Value)) :
    Except EvalError (String × VariantTable) := do
  let text ← body c call d b
  match source with
  | some (parameter, .phrase p) =>
    if p.variants.isEmpty then return (text, .empty)
    else
      let forms ← p.variants.entries.mapM fun form => do
        let text ← body c call d ((parameter, .phrase (p.withText form.2)) :: b)
        return (form.1, text)
      return (text, ← table forms)
  | _ => return (text, .empty)

/-- The inherited parameter and its value. -/
def source (d : Definition) (b : Bindings) : Except EvalError (Option (String × Value)) :=
  d.inherits.mapM fun name => (b.value name).map (name, ·)

def tags (d : Definition) (source : Option (String × Value)) : TagSet :=
  match source with
  | some (_, value) => c.groups.inherit (.ofList d.tags) value.tags
  | none => .ofList d.tags

def forms (d : Definition) (b : Bindings) (source : Option (String × Value)) :
    Except EvalError (String × VariantTable) :=
  match d.body, d.selectors with
  | .entries entries, [] => block c call b entries
  | _, _ => perForm c call d b source

/-- The phrase that a definition gives for arguments. -/
def definition (d : Definition) (arguments : List Value) : Except EvalError Phrase := do
  let b := Bindings.ofArguments d.parameters arguments
  let source ← source d b
  let (text, variants) ← forms c call d b source
  return ⟨text, variants, tags c d source⟩

end Rendering

end Phrasebook
