import Phrasebook.Scope.Program

/-!
Threads that run at the same time, each at a place of its own program. They share the published
locale, and each is within locales of its own. Any thread may move next. A failure leaves one block
after the other, up to the nearest guard or the end of its thread.
-/

namespace Phrasebook

/-- What a block of steps is there for. -/
inductive Purpose (L : Type) where
  | scope (locale : L)
  | guard
deriving DecidableEq, Repr

namespace Purpose

variable {L Q : Type}

def locale? : Purpose L → Option L
  | scope locale => some locale
  | guard => none

/-- The step that runs a block. -/
def step (purpose : Purpose L) (steps : List (Step L Q)) : Step L Q :=
  match purpose with
  | scope locale => .within locale steps
  | guard => .guarded steps

def enter (purpose : Purpose L) (s : Scopes L) : Scopes L :=
  match purpose with
  | scope locale => s.enter locale
  | guard => s

/-- A scope at its end does not look which locale it leaves. -/
def leave (purpose : Purpose L) (s : Scopes L) : Scopes L :=
  match purpose with
  | scope _ => s.leave
  | guard => s

/-- Whether a failure in the block goes on behind it. -/
def passes : Purpose L → Bool
  | scope _ => true
  | guard => false

end Purpose

/-- A block around a place, and the steps on both sides of the block. -/
structure Frame (L Q : Type) where
  purpose : Purpose L
  /-- The last one first. -/
  before : List (Step L Q)
  after : List (Step L Q)

/-- A place in a program, between two steps of a block. -/
structure Place (L Q : Type) where
  /-- The blocks around the place, the innermost first. -/
  around : List (Frame L Q)
  /-- The last one first. -/
  before : List (Step L Q)
  after : List (Step L Q)
  /-- Whether a failure is on its way out from here. -/
  failing : Bool

/-- What a thread does in one move. -/
inductive Event (L Q A : Type) where
  | answered (answer : A)
  | published (locale : L)
  | cleared
  | failed
  | entered (purpose : Purpose L)
  | left (purpose : Purpose L)
  | started (steps : List (Step L Q))

namespace Event

variable {L Q A : Type}

/-- What comes of the scopes of the thread. -/
def effect : Event L Q A → Scopes L → Scopes L
  | published locale, s => s.publish locale
  | cleared, s => s.clear
  | entered purpose, s => purpose.enter s
  | left purpose, s => purpose.leave s
  | _, s => s

/-- The locale that a thread publishes, or that there is none any more. -/
def publication? : Event L Q A → Option (Option L)
  | published locale => some (some locale)
  | cleared => some none
  | _ => none

def answer? : Event L Q A → Option A
  | answered answer => some answer
  | _ => none

end Event

namespace Place

variable {L Q A : Type}

def start (steps : List (Step L Q)) : Place L Q :=
  ⟨[], [], steps, false⟩

/-- The steps of the block that the place is in. -/
def block (p : Place L Q) : List (Step L Q) :=
  p.before.reverse ++ p.after

/-- The whole program that the place is in. -/
def program (p : Place L Q) : List (Step L Q) :=
  p.around.foldl (fun block f => f.before.reverse ++ f.purpose.step block :: f.after) p.block

/-- The locales of the scopes around the place, the innermost first. -/
def enclosing (p : Place L Q) : List L :=
  p.around.filterMap fun f => f.purpose.locale?

/-- Behind the next step. -/
def pass (p : Place L Q) (step : Step L Q) (rest : List (Step L Q)) : Place L Q :=
  { p with before := step :: p.before, after := rest }

/-- At the start of a block. -/
def enter (p : Place L Q) (purpose : Purpose L) (steps rest : List (Step L Q)) : Place L Q :=
  ⟨⟨purpose, p.before, rest⟩ :: p.around, [], steps, false⟩

/-- Behind the block that the place is in. -/
def leave (p : Place L Q) (f : Frame L Q) (outer : List (Frame L Q)) : Place L Q :=
  ⟨outer, f.purpose.step p.block :: f.before, f.after, p.failing && f.purpose.passes⟩

def proceed (answer : Q → A) (p : Place L Q) (rest : List (Step L Q)) :
    Step L Q → Event L Q A × Place L Q
  | .ask question => (.answered (answer question), p.pass (.ask question) rest)
  | .publish locale => (.published locale, p.pass (.publish locale) rest)
  | .clear => (.cleared, p.pass .clear rest)
  | .fail => (.failed, { p.pass .fail rest with failing := true })
  | .within locale steps => (.entered (.scope locale), p.enter (.scope locale) steps rest)
  | .guarded steps => (.entered .guard, p.enter .guard steps rest)
  | .thread steps => (.started steps, p.pass (.thread steps) rest)

/-- The next step, or the way out of a block that is at its end or failing. There is no move at the
end of a program and none for a failure outside all blocks. -/
def next? (answer : Q → A) (p : Place L Q) : Option (Event L Q A × Place L Q) :=
  match p.failing, p.after, p.around with
  | false, step :: rest, _ => some (p.proceed answer rest step)
  | _, _, f :: outer => some (.left f.purpose, p.leave f outer)
  | _, _, [] => none

end Place

structure Thread (L Q : Type) where
  /-- The locales that the thread is within, the innermost first. -/
  entered : List L
  place : Place L Q

/-- Threads and the locale that is published for all of them. A new thread comes last. -/
structure System (L Q : Type) where
  published : Option L
  threads : List (Thread L Q)

/-- The moves of threads, each with the number of its thread, the first one first. -/
abbrev Log (L Q A : Type) := List (Nat × Event L Q A)

namespace Log

variable {L Q A : Type}

/-- The locale that was published last and not cleared since. -/
def standing (log : Log L Q A) : Option L :=
  (log.reverse.findSome? fun move => move.2.publication?).getD none

def answers (log : Log L Q A) : List A :=
  log.filterMap fun move => move.2.answer?

end Log

namespace System

variable {L Q A : Type}

def start (programs : List (List (Step L Q))) : System L Q :=
  ⟨none, programs.map fun steps => ⟨[], .start steps⟩⟩

/-- What a thread of the system sees. -/
def scopes (c : System L Q) (t : Thread L Q) : Scopes L :=
  ⟨c.published, t.entered⟩

/-- The threads that a move starts. -/
def newThreads (s : Scopes L) : Event L Q A → List (Thread L Q)
  | .started steps => [⟨s.fresh.entered, .start steps⟩]
  | _ => []

variable (answer : Scopes L → Q → A)

/-- The next move of one of the threads. -/
def step? (c : System L Q) (i : Nat) : Option (Event L Q A × System L Q) := do
  let t ← c.threads[i]?
  let s := c.scopes t
  let (event, place) ← t.place.next? (answer s)
  let after := event.effect s
  return (event, ⟨after.published, c.threads.set i ⟨after.entered, place⟩ ++ newThreads s event⟩)

/-- The runs from a system: at every move it is open which of the threads makes it. -/
inductive Runs (c : System L Q) : Log L Q A → System L Q → Prop where
  | refl : Runs c [] c
  | move {log : Log L Q A} {middle after : System L Q} {i : Nat} {event : Event L Q A} :
    Runs c log middle → middle.step? answer i = some (event, after) →
      Runs c (log ++ [(i, event)]) after

end System

end Phrasebook
