import Phrasebook.Definition.Basic
import Phrasebook.Definition.Quoted

/-!
The grammar of sources of definitions, read without looking into templates. What it gives are
definitions as written, which `Phrasebook.Definition.Parser` settles.
-/

namespace Phrasebook

/-- What may stand between the equals sign and the body. -/
inductive Modifier where
  | tag (name : String)
  | inherits (parameter : String)
  | selects (parameters : List String)
  | unknown (name : String) (left : Nat)
deriving DecidableEq, Repr

structure RawEntry where
  keys : List EntryKey
  text : Quoted
deriving DecidableEq, Repr

inductive RawBody where
  | template (text : Quoted)
  | entries (entries : List RawEntry)
  | absent
deriving DecidableEq, Repr

/-- A definition as written, with the number of characters left at its name. -/
structure RawDefinition where
  name : String
  parameters : List String
  modifiers : List Modifier
  body : RawBody
  left : Nat
deriving DecidableEq, Repr

namespace Grammar

open Reader

/-- A name with a small initial. -/
def phraseName : Reader String :=
  fun text =>
    match text with
    | c :: _ => if 'a' ≤ c ∧ c ≤ 'z' then name text else .declined .nothing text
    | [] => .declined .nothing []

def parameterList : Reader (List String) := do
  char '('
  let names ← separated (do gap; parameter) (do gap; char ',')
  gap
  commit (expect ')')
  return names

def fromModifier : Reader Modifier :=
  labelled ":from" <| commit do
    char '('
    blanks
    let name ← parameter
    blanks
    char ')'
    return .inherits name

def matchModifier : Reader Modifier :=
  labelled ":match" <| commit do
    char '('
    blanks
    let names ← separated1 parameter (do blanks; char ','; blanks)
    blanks
    char ')'
    return .selects names

/-- A directive that does not exist, with whatever its parentheses hold; a word without them is a
tag. -/
def tagModifier (name : String) (left : Nat) : Reader Modifier :=
  fun text =>
    match text with
    | '(' :: inside =>
      match inside.dropWhile (· ≠ ')') with
      | _ :: rest => .done (.unknown name left) rest
      | [] => .declined .nothing []
    | _ => .done (.tag name) text

def modifier : Reader Modifier := do
  let left ← Reader.left
  char ':'
  let name ← Reader.name
  if name = "from" then fromModifier
  else if name = "match" then matchModifier
  else tagModifier name left

def keyPart : Reader KeyPart :=
  orElse
    (do
      char '*'
      let label ← optional word
      return .wildcard label)
    (do
      let name ← word
      return .literal name)

def entryKey : Reader EntryKey := do
  let parts ← separated1 keyPart (char '.')
  return ⟨parts⟩

def comma : Reader Unit := do
  gap
  char ','
  gap

def entry : Reader RawEntry := do
  let keys ← separated1 entryKey comma
  gap
  expect ':'
  gap
  let text ← Quoted.quoted
  return ⟨keys, text⟩

/-- Entries in braces; a comma may stand behind the last one. -/
def block : Reader (List RawEntry) := do
  char '{'
  commit do
    gap
    let entries ← separated1 entry comma
    let _ ← optional (do gap; char ',')
    gap
    expect '}'
    return entries

def phraseBody : Reader RawBody :=
  fun text =>
    match text with
    | ';' :: _ => .done .absent text
    | _ =>
      commit (wanting '{' (wanting '"' (labelled "phrase body"
        (orElse (do let entries ← block; return .entries entries)
          (do let text ← Quoted.quoted; return .template text))))) text

def definition : Reader RawDefinition := do
  let left ← Reader.left
  let name ← phraseName
  gap
  let parameters ← optional parameterList
  gap
  commit (expect '=')
  gap
  let modifiers ← many do
    let modifier ← modifier
    gap
    return modifier
  let body ← phraseBody
  gap
  commit (expect ';')
  return ⟨name, parameters.getD [], modifiers, body, left⟩

def definitions : Reader (List RawDefinition) := do
  gap
  many do
    let definition ← definition
    gap
    return definition

end Grammar

end Phrasebook
