import Phrasebook.Scope.Basic

/-!
Programs that publish locales, go into and out of them, and start threads. A failure ends every
block around it up to the nearest guard or the end of its thread, and each locale that it passes on
the way out is left.
-/

namespace Phrasebook

/-- A step of a program over locales `L` that asks questions `Q`. -/
inductive Step (L Q : Type) where
  | ask (question : Q)
  | publish (locale : L)
  | clear
  | fail
  | within (locale : L) (steps : List (Step L Q))
  /-- A failure inside ends these steps and nothing more. -/
  | guarded (steps : List (Step L Q))
  /-- Steps on a new thread, which is waited for. -/
  | thread (steps : List (Step L Q))

/-- What comes of a step. `none` stands for steps that failed. -/
inductive Trace (L A : Type) where
  | answered (answer : A)
  | published (locale : L)
  | cleared
  | within (traces : List (Trace L A))
  | guarded (traces : Option (List (Trace L A)))
  | thread (traces : Option (List (Trace L A)))

namespace Step

variable {L Q A : Type} (answer : Scopes L → Q → A)

mutual

/-- `none` where the step fails. The scopes are what the step leaves behind in either case. -/
def run : Step L Q → Scopes L → Scopes L × Option (Trace L A)
  | .ask question, s => (s, some (.answered (answer s question)))
  | .publish locale, s => (s.publish locale, some (.published locale))
  | .clear, s => (s.clear, some .cleared)
  | .fail, s => (s, none)
  | .within locale steps, s =>
    let (after, traces) := runAll steps (s.enter locale)
    (after.leave, traces.map .within)
  | .guarded steps, s =>
    let (after, traces) := runAll steps s
    (after, some (.guarded traces))
  | .thread steps, s =>
    let (after, traces) := runAll steps s.fresh
    ({ s with published := after.published }, some (.thread traces))

/-- Runs steps in order up to the first that fails. -/
def runAll : List (Step L Q) → Scopes L → Scopes L × Option (List (Trace L A))
  | [], s => (s, some [])
  | step :: steps, s =>
    match run step s with
    | (s, none) => (s, none)
    | (s, some trace) =>
      let (s, traces) := runAll steps s
      (s, traces.map (trace :: ·))

end

end Step

end Phrasebook
