import Phrasebook.Scope.Threads

/-!
Scopes are balanced and lexical. Whatever the order in which threads move, the locales that a thread
is within are those of the scopes around its place in the program, so that a scope leaves behind
what it found, however it ends. What the other threads do, and what is published and cleared, shows
only outside all scopes.
-/

namespace Phrasebook

variable {L Q A : Type}

namespace Event

variable {event : Event L Q A} {s : Scopes L}

theorem published_effect : (event.effect s).published = event.publication?.getD s.published := by
  cases event with
  | entered purpose => cases purpose <;> rfl
  | left purpose => cases purpose <;> rfl
  | _ => rfl

theorem entered_effect_of_publication? (h : event.publication?.isSome) :
    (event.effect s).entered = s.entered := by
  cases event with
  | published locale => rfl
  | cleared => rfl
  | _ => cases h

end Event

/-! ### Places -/

namespace Place

variable {p q : Place L Q} {event : Event L Q A} {answer : Q → A} {steps rest : List (Step L Q)}
  {f : Frame L Q} {outer : List (Frame L Q)}

theorem program_pass {step : Step L Q} (h : p.after = step :: rest) :
    (p.pass step rest).program = p.program := by
  simp [program, block, pass, h]

theorem program_enter (purpose : Purpose L) (h : p.after = purpose.step steps :: rest) :
    (p.enter purpose steps rest).program = p.program := by
  simp [program, block, enter, h]

theorem program_leave (h : p.around = f :: outer) : (p.leave f outer).program = p.program := by
  simp [program, block, leave, h]

/-- A move takes the next step or leaves the innermost block. -/
theorem next?_eq_some (h : p.next? answer = some (event, q)) :
    (∃ step rest, p.after = step :: rest ∧ p.proceed answer rest step = (event, q)) ∨
      ∃ f outer, p.around = f :: outer ∧ event = .left f.purpose ∧ q = p.leave f outer := by
  unfold next? at h
  split at h
  · next step rest _ ha => exact .inl ⟨step, rest, ha, Option.some.inj h⟩
  · next f outer hf _ =>
    cases h
    exact .inr ⟨f, outer, hf, rfl, rfl⟩
  · cases h

/-- A thread does not get out of its program. -/
theorem program_next? (h : p.next? answer = some (event, q)) : q.program = p.program := by
  rcases next?_eq_some h with ⟨step, rest, ha, he⟩ | ⟨f, outer, hf, -, rfl⟩
  · cases step with
    | within locale steps =>
      cases he
      exact program_enter (.scope locale) ha
    | guarded steps =>
      cases he
      exact program_enter .guard ha
    | _ =>
      cases he
      exact program_pass ha
  · exact program_leave hf

/-- A move goes into scopes and out of them in its place as it does in the scopes of the thread. -/
theorem entered_next? (h : p.next? answer = some (event, q)) {s : Scopes L}
    (hs : s.entered = p.enclosing) : (event.effect s).entered = q.enclosing := by
  rcases next?_eq_some h with ⟨step, rest, ha, he⟩ | ⟨f, outer, hf, rfl, rfl⟩
  · cases step with
    | within locale steps =>
      cases he
      exact congrArg (locale :: ·) hs
    | _ =>
      cases he
      exact hs
  · -- The locale on top is that of the block that ends, if it is a scope.
    obtain ⟨purpose, before, after⟩ := f
    rw [enclosing, hf] at hs
    cases purpose with
    | scope locale => exact congrArg List.tail hs
    | guard => exact hs

end Place

/-! ### Moves -/

namespace System

variable {answer : Scopes L → Q → A} {c after : System L Q} {i : Nat} {event : Event L Q A}

theorem step?_eq_some : c.step? answer i = some (event, after) ↔
    ∃ t place, c.threads[i]? = some t ∧
      t.place.next? (answer (c.scopes t)) = some (event, place) ∧
      after = ⟨(event.effect (c.scopes t)).published,
        c.threads.set i ⟨(event.effect (c.scopes t)).entered, place⟩ ++
          newThreads (c.scopes t) event⟩ := by
  simp only [step?, Option.bind_eq_bind, Option.bind_eq_some_iff, Option.pure_def,
    Option.some.injEq, Prod.mk.injEq, Prod.exists]
  constructor
  · rintro ⟨t, ht, event', place, hp, rfl, rfl⟩
    exact ⟨t, place, ht, hp, rfl⟩
  · rintro ⟨t, place, ht, hp, rfl⟩
    exact ⟨t, ht, event, place, hp, rfl, rfl⟩

/-- Every thread is within the locales of the scopes around its place. -/
def Lexical (c : System L Q) : Prop :=
  ∀ t ∈ c.threads, t.entered = t.place.enclosing

theorem Lexical.step (hc : c.Lexical) (h : c.step? answer i = some (event, after)) :
    after.Lexical := by
  obtain ⟨t, place, ht, hp, rfl⟩ := step?_eq_some.1 h
  intro t' ht'
  rcases List.mem_append.1 ht' with hm | hm
  · rcases List.mem_or_eq_of_mem_set hm with hm | rfl
    · exact hc t' hm
    · exact Place.entered_next? hp (hc t (List.mem_of_getElem? ht))
  · cases event with
    | started steps =>
      cases List.mem_singleton.1 hm
      rfl
    | _ => cases hm

/-- The threads that were there before a move: the one that makes it, and the others, which stay as
they are. -/
theorem thread_step (h : c.step? answer i = some (event, after)) {j : Nat} {t : Thread L Q}
    (ht : c.threads[j]? = some t) :
    (j ≠ i ∧ after.threads[j]? = some t) ∨
      j = i ∧ ∃ place, t.place.next? (answer (c.scopes t)) = some (event, place) ∧
        after.threads[j]? = some ⟨(event.effect (c.scopes t)).entered, place⟩ := by
  obtain ⟨mover, place, hm, hp, rfl⟩ := step?_eq_some.1 h
  have hj : j < c.threads.length := (List.getElem?_eq_some_iff.1 ht).1
  have hget (new : Thread L Q) : (c.threads.set i new ++ newThreads (c.scopes mover) event)[j]? =
      if i = j then some new else c.threads[j]? := by
    rw [List.getElem?_append_left (by simpa using hj), List.getElem?_set]
    split
    · next he => simp [he, hj]
    · rfl
  by_cases he : j = i
  · subst he
    cases ht.symm.trans hm
    exact .inr ⟨rfl, place, hp, by rw [hget, if_pos rfl]⟩
  · exact .inl ⟨he, by rw [hget, if_neg (Ne.symm he), ht]⟩

theorem program_step (h : c.step? answer i = some (event, after)) {j : Nat} {t : Thread L Q}
    (ht : c.threads[j]? = some t) :
    ∃ t', after.threads[j]? = some t' ∧ t'.place.program = t.place.program := by
  rcases thread_step h ht with ⟨-, hs⟩ | ⟨-, place, hp, hs⟩
  · exact ⟨t, hs, rfl⟩
  · exact ⟨_, hs, Place.program_next? hp⟩

theorem published_step (h : c.step? answer i = some (event, after)) :
    after.published = event.publication?.getD c.published := by
  obtain ⟨t, place, -, -, rfl⟩ := step?_eq_some.1 h
  exact Event.published_effect

/-- Publishing and clearing change nothing for a thread that is within a scope. -/
theorem active_step_of_publication? (h : c.step? answer i = some (event, after))
    (he : event.publication?.isSome) {j : Nat} {t : Thread L Q} (ht : c.threads[j]? = some t)
    (hs : t.entered ≠ []) :
    ∃ t', after.threads[j]? = some t' ∧ (after.scopes t').active = (c.scopes t).active := by
  have same (t' : Thread L Q) (he : t'.entered = t.entered) :
      (after.scopes t').active = (c.scopes t).active := by
    obtain ⟨locale, rest, hl⟩ := List.exists_cons_of_ne_nil hs
    simp [Scopes.active, Scopes.active?, scopes, he, hl]
  rcases thread_step h ht with ⟨-, hs'⟩ | ⟨-, place, -, hs'⟩
  · exact ⟨t, hs', same t rfl⟩
  · exact ⟨_, hs', same _ (Event.entered_effect_of_publication? he)⟩

/-! ### Runs -/

variable {log more : Log L Q A} {middle : System L Q}

theorem Runs.trans (h : Runs answer c log middle) (h' : Runs answer middle more after) :
    Runs answer c (log ++ more) after := by
  induction h' with
  | refl => rwa [List.append_nil]
  | move _ hs ih =>
    rw [← List.append_assoc]
    exact ih.move hs

theorem Runs.lexical (h : Runs answer c log after) (hc : c.Lexical) : after.Lexical := by
  induction h with
  | refl => exact hc
  | move _ hs ih => exact ih.step hs

theorem Runs.program (h : Runs answer c log after) {i : Nat} {t : Thread L Q}
    (ht : c.threads[i]? = some t) :
    ∃ t', after.threads[i]? = some t' ∧ t'.place.program = t.place.program := by
  induction h with
  | refl => exact ⟨t, ht, rfl⟩
  | move _ hs ih =>
    obtain ⟨middle, hm, hp⟩ := ih
    obtain ⟨t', ht', hp'⟩ := program_step hs hm
    exact ⟨t', ht', hp'.trans hp⟩

theorem Runs.published (h : Runs answer c log after) (hc : c.published = none) :
    after.published = log.standing := by
  induction h with
  | refl => exact hc
  | @move log _ _ _ event _ hs ih =>
    rw [published_step hs, ih, Log.standing, Log.standing, List.reverse_append]
    cases hp : event.publication? with
    | none => simp [hp]
    | some publication => simp [hp]

theorem lexical_start (programs : List (List (Step L Q))) : (start programs).Lexical := by
  intro t ht
  obtain ⟨steps, -, rfl⟩ := List.mem_map.1 ht
  rfl

theorem active_eq (hc : c.Lexical) {t : Thread L Q} (ht : c.threads[i]? = some t) :
    (c.scopes t).active =
      (t.place.enclosing.head?.or c.published).elim (.error .noActiveLocale) .ok := by
  rw [Scopes.active, Scopes.active?, scopes, hc t (List.mem_of_getElem? ht)]
  cases t.place.enclosing.head?.or c.published <;> rfl

end System

/-! ### Balance -/

/-- One place is in front of a step, and the other right behind it. -/
structure Place.Passes (p q : Place L Q) (step : Step L Q) : Prop where
  running : p.failing = false
  next : p.after.head? = some step
  around : q.around = p.around
  behind : q.before = step :: p.before

namespace System

/-- Scopes are balanced and lexical in every run of threads, whatever the order of their moves.
Threads keep to their programs. In force is the locale of the innermost scope around the place of a
thread, or else the one that was published last and not cleared. A scope that is passed, by a
failure too, has left its thread within what it was within. A new thread is within nothing. To
publish or to clear changes nothing inside a scope. -/
theorem scopes_balanced {answer : Scopes L → Q → A} {programs : List (List (Step L Q))}
    {log : Log L Q A} {c : System L Q} (h : Runs answer (start programs) log c) :
    (∀ (i : Nat) (steps : List (Step L Q)), programs[i]? = some steps →
      ∃ t, c.threads[i]? = some t ∧ t.place.program = steps) ∧
    c.published = log.standing ∧
    (∀ (i : Nat) (t : Thread L Q), c.threads[i]? = some t → t.entered = t.place.enclosing ∧
      (c.scopes t).active =
        (t.place.enclosing.head?.or log.standing).elim (.error .noActiveLocale) .ok) ∧
    (∀ (more : Log L Q A) (after : System L Q) (i : Nat) (t t' : Thread L Q),
      Runs answer c more after → c.threads[i]? = some t → after.threads[i]? = some t' →
        t'.place.program = t.place.program ∧
        ∀ locale steps, t.place.Passes t'.place (.within locale steps) →
          t'.entered = t.entered) ∧
    (∀ (i : Nat) (steps : List (Step L Q)) (after : System L Q),
      c.step? answer i = some (.started steps, after) →
        after.threads[c.threads.length]? = some ⟨[], .start steps⟩) ∧
    (∀ (i : Nat) (event : Event L Q A) (after : System L Q),
      c.step? answer i = some (event, after) → event.publication?.isSome →
        ∀ (j : Nat) (t : Thread L Q), c.threads[j]? = some t → t.place.enclosing ≠ [] →
          ∃ t', after.threads[j]? = some t' ∧
            (after.scopes t').active = (c.scopes t).active) := by
  have hc : c.Lexical := h.lexical (lexical_start programs)
  have hpublished : c.published = log.standing := h.published rfl
  have lexical {i : Nat} {t : Thread L Q} (ht : c.threads[i]? = some t) :
      t.entered = t.place.enclosing := hc t (List.mem_of_getElem? ht)
  refine ⟨?_, hpublished, ?_, ?_, ?_, ?_⟩
  · intro i steps hi
    exact h.program (t := ⟨[], .start steps⟩) (by simp [start, hi])
  · intro i t ht
    exact ⟨lexical ht, hpublished ▸ active_eq hc ht⟩
  · intro more after i t t' hrun ht ht'
    obtain ⟨t'', ht'', hp⟩ := hrun.program ht
    cases ht'.symm.trans ht''
    refine ⟨hp, fun locale steps hpass => ?_⟩
    rw [hrun.lexical hc t' (List.mem_of_getElem? ht'), lexical ht, Place.enclosing,
      Place.enclosing, hpass.around]
  · intro i steps after hs
    obtain ⟨t, place, -, -, rfl⟩ := step?_eq_some.1 hs
    rw [List.getElem?_append_right (by simp)]
    simp [newThreads, Scopes.fresh]
  · intro i event after hs he j t ht hne
    exact active_step_of_publication? hs he ht (lexical ht ▸ hne)

/-- A scope that fails under a guard, and a thread that publishes meanwhile. -/
def rescue : List (List (Step String Unit)) :=
  [[.thread [.publish "en"], .guarded [.within "fr" [.ask (), .fail]], .ask ()]]

/-- The thread in front of the scope. -/
def beforeScope : Thread String Unit :=
  ⟨[], ⟨[⟨.guard, [.thread [.publish "en"]], [.ask ()]⟩], [],
    [.within "fr" [.ask (), .fail]], false⟩⟩

/-- The thread inside. -/
def insideScope : Thread String Unit :=
  ⟨["fr"], ⟨[⟨.scope "fr", [], []⟩, ⟨.guard, [.thread [.publish "en"]], [.ask ()]⟩], [],
    [.ask (), .fail], false⟩⟩

/-- The thread behind the scope, on its way to the guard. -/
def behindScope : Thread String Unit :=
  ⟨[], ⟨[⟨.guard, [.thread [.publish "en"]], [.ask ()]⟩],
    [.within "fr" [.ask (), .fail]], [], true⟩⟩

/-- The thread that publishes, before it does. -/
def publisher : Thread String Unit :=
  ⟨[], .start [.publish "en"]⟩

/-- The same thread at its end. -/
def finished : Thread String Unit :=
  ⟨[], ⟨[], [.publish "en"], [], false⟩⟩

theorem scopes_balanced_rescue :
    let answer : Scopes String → Unit → Except EvalError String := fun s _ => s.active
    ∃ log inward outward,
      Runs answer (start rescue) log ⟨none, [beforeScope, publisher]⟩ ∧
      Runs answer ⟨none, [beforeScope, publisher]⟩ inward ⟨none, [insideScope, publisher]⟩ ∧
      Runs answer ⟨none, [beforeScope, publisher]⟩ outward
        ⟨some "en", [behindScope, finished]⟩ ∧
      -- The scope is passed, and its thread within what it was within.
      beforeScope.place.Passes behindScope.place (.within "fr" [.ask (), .fail]) ∧
      behindScope.entered = beforeScope.entered ∧
      -- The other thread publishes, and nothing changes inside.
      (⟨none, [insideScope, publisher]⟩ : System String Unit).step? answer 1 =
        some (.published "en", ⟨some "en", [insideScope, finished]⟩) ∧
      insideScope.place.enclosing ≠ [] ∧
      ∃ t', [insideScope, finished][0]? = some t' ∧
        (⟨some "en", t'.entered⟩ : Scopes String).active =
          (⟨none, insideScope.entered⟩ : Scopes String).active := by
  intro answer
  have hbefore : Runs answer (start rescue) _ ⟨none, [beforeScope, publisher]⟩ :=
    .move (i := 0) (.move (i := 0) .refl rfl) rfl
  have hinward : Runs answer ⟨none, [beforeScope, publisher]⟩ _ ⟨none, [insideScope, publisher]⟩ :=
    .move (i := 0) .refl rfl
  have houtward : Runs answer ⟨none, [insideScope, publisher]⟩ _
      ⟨some "en", [behindScope, finished]⟩ :=
    .move (i := 0) (.move (i := 0) (.move (i := 0) (.move (i := 1) .refl rfl) rfl) rfl) rfl
  have hpass : beforeScope.place.Passes behindScope.place (.within "fr" [.ask (), .fail]) :=
    ⟨rfl, rfl, rfl, rfl⟩
  obtain ⟨-, -, -, hscope, -, -⟩ := scopes_balanced hbefore
  obtain ⟨-, -, -, -, -, hpublish⟩ := scopes_balanced (hbefore.trans hinward)
  exact ⟨_, _, _, hbefore, hinward, hinward.trans houtward, hpass,
    (hscope _ _ 0 _ _ (hinward.trans houtward) rfl rfl).2 _ _ hpass, rfl, by decide,
    hpublish 1 _ _ rfl rfl 0 insideScope rfl (by decide)⟩

end System

end Phrasebook
