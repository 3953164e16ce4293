import Phrasebook.Locale.Basic

/-!
The locale in force. One locale can be published for every thread; a thread can besides be within
locales of its own, of which the innermost is in force.
-/

namespace Phrasebook

/-- What one thread sees. -/
structure Scopes (L : Type) where
  published : Option L
  /-- The locales that the thread is within, the innermost first. -/
  entered : List L
deriving DecidableEq, Repr

namespace Scopes

variable {L : Type}

def empty : Scopes L := ⟨none, []⟩

def active? (s : Scopes L) : Option L :=
  s.entered.head?.or s.published

def publish (s : Scopes L) (locale : L) : Scopes L :=
  { s with published := some locale }

def clear (s : Scopes L) : Scopes L :=
  { s with published := none }

def enter (s : Scopes L) (locale : L) : Scopes L :=
  { s with entered := locale :: s.entered }

/-- Leaves the innermost locale, whichever it is. -/
def leave (s : Scopes L) : Scopes L :=
  { s with entered := s.entered.tail }

/-- A new thread is within no locale. -/
def fresh (s : Scopes L) : Scopes L :=
  { s with entered := [] }

theorem leave_enter (s : Scopes L) (locale : L) : (s.enter locale).leave = s := rfl

theorem active?_enter (s : Scopes L) (locale : L) : (s.enter locale).active? = some locale := rfl

/-! ### What is asked of the locale in force -/

def active (s : Scopes L) : Except EvalError L :=
  match s.active? with
  | some locale => .ok locale
  | none => .error .noActiveLocale

def evaluate (s : Scopes Locale) (template : String) (parameters : Bindings) :
    Except EvalError String :=
  s.active.bind fun locale => locale.evaluate template parameters

def call (s : Scopes Locale) (name : String) (arguments : List Value) : Except EvalError Phrase :=
  s.active.bind fun locale => locale.call name arguments

def callById (s : Scopes Locale) (id : PhraseId) (arguments : List Value) :
    Except EvalError Phrase :=
  s.active.bind fun locale => locale.callById id arguments

def nameForId (s : Scopes Locale) (id : PhraseId) : Except EvalError String :=
  s.active.bind fun locale =>
    match locale.nameForId? id with
    | some name => .ok name
    | none => .error (.idNotFound id.hash)

end Scopes

end Phrasebook
