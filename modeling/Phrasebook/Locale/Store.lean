import Phrasebook.Definition.Check
import Phrasebook.Definition.Lint
import Phrasebook.ParseError
import Phrasebook.PhraseId

/-!
The phrases of a locale, found by name and by the hash of the name. Names with one hash cannot
stand side by side.
-/

namespace Phrasebook

inductive LoadError where
  | parse (error : ParseError)
  | invalid (language : String) (errors : List DefinitionError)
  | invalidLanguage (language : String)
  | idCollision (first second : String)
deriving DecidableEq, Repr

namespace LoadError

def message : LoadError → String
  | parse error => error.message
  | invalid language errors =>
    let lines := "\n".intercalate (errors.map fun e => "  " ++ e.message)
    s!"invalid definitions for '{language}':\n{lines}"
  | invalidLanguage language => s!"invalid language identifier '{language}'"
  | idCollision first second =>
    s!"phrase id collision: '{first}' and '{second}' produce the same hash"

end LoadError

structure Store where
  phrases : Dictionary Definition
  /-- The names by their hashes. -/
  names : List (UInt64 × String)

namespace Store

def empty : Store := ⟨.empty, []⟩

def get? (s : Store) (name : String) : Option Definition :=
  s.phrases.get? name

def nameOf? (s : Store) (hash : UInt64) : Option String :=
  s.names.lookup hash

def ofHash? (s : Store) (hash : UInt64) : Option Definition :=
  (s.nameOf? hash).bind s.get?

/-- Adds a definition, over the one that has its name. -/
def insert (s : Store) (d : Definition) : Except LoadError Store :=
  let hash := nameHash d.name
  let added : Store := ⟨s.phrases.insert d.name d, (hash, d.name) :: s.names.filter (·.1 ≠ hash)⟩
  match s.nameOf? hash with
  | some first => if first = d.name then .ok added else .error (.idCollision first d.name)
  | none => .ok added

/-- Adds a definition in place. When its hash is taken, the store stays as it is. -/
def add (d : Definition) : ExceptT LoadError (StateM Store) Unit := do
  let hash := nameHash d.name
  match (← get).nameOf? hash with
  | some first => if first ≠ d.name then throw (.idCollision first d.name)
  | none => pure ()
  modify fun s => { s with names := (hash, d.name) :: s.names.filter (·.1 ≠ hash) }
  modify fun s => { s with phrases := s.phrases.insert d.name d }

/-- Adds one definition after the other, past those that are refused. -/
def addEach (definitions : List Definition) : StateM Store (List (Except LoadError Unit)) :=
  definitions.mapM fun d => (add d).run

def insertAll (s : Store) (definitions : List Definition) : Except LoadError Store :=
  definitions.foldlM insert s

def contains (s : Store) (name : String) : Bool :=
  s.phrases.contains name

/-- In order. -/
def phraseNames (s : Store) : List String :=
  s.phrases.keys

/-- In the order of their names. -/
def definitions (s : Store) : List Definition :=
  s.phrases.values

def size (s : Store) : Nat :=
  s.definitions.length

end Store

end Phrasebook
