import Phrasebook.Proofs.Scopes

/-!
One thread after the other. Steps that run by themselves, each new thread waited for, make one of
the runs of threads: so what holds of all runs holds of them.
-/

namespace Phrasebook

variable {L Q A : Type}

mutual

/-- What a step gets answered, but for the blocks that failed. -/
def Trace.answers : Trace L A → List A
  | .answered answer => [answer]
  | .published _ => []
  | .cleared => []
  | .within traces => Trace.allAnswers traces
  | .guarded (some traces) => Trace.allAnswers traces
  | .guarded none => []
  | .thread (some traces) => Trace.allAnswers traces
  | .thread none => []

def Trace.allAnswers : List (Trace L A) → List A
  | [] => []
  | trace :: traces => trace.answers ++ Trace.allAnswers traces

end

theorem Trace.answers_thread (traces : Option (List (Trace L A))) :
    (Trace.thread traces).answers = traces.elim [] Trace.allAnswers := by
  cases traces <;> rfl

theorem Place.next?_of_end {p : Place L Q} {answer : Q → A} {f : Frame L Q}
    {outer : List (Frame L Q)} (hf : p.around = f :: outer) (h : p.failing = true ∨ p.after = []) :
    p.next? answer = some (.left f.purpose, p.leave f outer) := by
  rcases h with h | h <;> simp [next?, hf, h]

namespace System

variable {answer : Scopes L → Q → A} {c middle after : System L Q} {i : Nat} {s s' : Scopes L}
  {p q : Place L Q} {told more : List A}

/-- One of the threads is at a place and sees the given scopes. -/
def At (c : System L Q) (i : Nat) (s : Scopes L) (p : Place L Q) : Prop :=
  c.published = s.published ∧ c.threads[i]? = some ⟨s.entered, p⟩

/-- A run gets one of the threads to a place, and it is told what it asks on the way. The other
threads stay as they are, and more may come. -/
structure Gets (answer : Scopes L → Q → A) (c : System L Q) (i : Nat) (s : Scopes L)
    (p : Place L Q) (told : List A) (after : System L Q) : Prop where
  runs : ∃ log, Runs answer c log after ∧ told.Sublist log.answers
  arrives : after.At i s p
  others : ∀ j t, j ≠ i → c.threads[j]? = some t → after.threads[j]? = some t

theorem Gets.trans (h : Gets answer c i s p told middle)
    (h' : Gets answer middle i s' q more after) : Gets answer c i s' q (told ++ more) after := by
  obtain ⟨log, hr, ht⟩ := h.runs
  obtain ⟨log', hr', ht'⟩ := h'.runs
  refine ⟨⟨log ++ log', hr.trans hr', ?_⟩, h'.arrives, ?_⟩
  · rw [Log.answers, List.filterMap_append]
    exact ht.append ht'
  · exact fun j t hj ht => h'.others j t hj (h.others j t hj ht)

theorem Gets.fewer (h : Gets answer c i s p told after) (ht : more.Sublist told) :
    Gets answer c i s p more after := by
  obtain ⟨log, hr, hlog⟩ := h.runs
  exact ⟨⟨log, hr, ht.trans hlog⟩, h.arrives, h.others⟩

variable (answer)

/-- One move. -/
theorem At.gets (h : c.At i s p) (event : Event L Q A)
    (hp : p.next? (answer s) = some (event, q)) :
    ∃ after, Gets answer c i (event.effect s) q event.answer?.toList after ∧
      after.threads = c.threads.set i ⟨(event.effect s).entered, q⟩ ++ newThreads s event := by
  obtain ⟨published, entered⟩ := s
  obtain ⟨rfl, ht⟩ := h
  have hs := step?_eq_some.2 ⟨⟨entered, p⟩, q, ht, hp, rfl⟩
  refine ⟨_, ⟨⟨_, .move .refl hs, ?_⟩, ⟨rfl, ?_⟩, ?_⟩, rfl⟩
  · cases event <;> exact List.Sublist.refl _
  · rcases thread_step hs ht with ⟨hne, -⟩ | ⟨-, place, hp', hs'⟩
    · exact absurd rfl hne
    · cases hp.symm.trans hp'
      exact hs'
  · intro j t hj ht'
    rcases thread_step hs ht' with ⟨-, hs'⟩ | ⟨he, -⟩
    · exact hs'
    · exact absurd he hj

/-- A block, of which it is known what its steps come to. -/
theorem At.gets_block (purpose : Purpose L) {around : List (Frame L Q)}
    {before steps rest : List (Step L Q)} {failing : Bool}
    (h : c.At i s ⟨around, before, purpose.step steps :: rest, false⟩)
    (hsteps : ∀ {c : System L Q} {around : List (Frame L Q)},
      c.At i (purpose.enter s) ⟨around, [], steps, false⟩ →
        ∃ after before' after', before'.reverse ++ after' = steps ∧ (failing = true ∨ after' = []) ∧
          Gets answer c i s' ⟨around, before', after', failing⟩ told after) :
    ∃ after, Gets answer c i (purpose.leave s')
      ⟨around, purpose.step steps :: before, rest, failing && purpose.passes⟩ told after := by
  have hin : (Place.mk around before (purpose.step steps :: rest) false).next? (answer s) =
      some (.entered purpose, ⟨⟨purpose, before, rest⟩ :: around, [], steps, false⟩) := by
    cases purpose <;> rfl
  obtain ⟨inside, hinside, -⟩ := h.gets answer _ hin
  obtain ⟨middle, before', after', rfl, hend, hmiddle⟩ := hsteps hinside.arrives
  obtain ⟨after, hafter, -⟩ := hmiddle.arrives.gets answer _ (Place.next?_of_end rfl hend)
  have hg := hinside.trans (hmiddle.trans hafter)
  exact ⟨after, by simpa [Event.answer?, Event.effect, Place.leave, Place.block] using hg⟩

/-- A new thread, of which it is known what its steps come to. It does not touch the thread that
starts it, but what it publishes stays. -/
theorem At.gets_thread {around : List (Frame L Q)} {before steps rest : List (Step L Q)}
    (h : c.At i s ⟨around, before, .thread steps :: rest, false⟩)
    (hsteps : ∀ {c : System L Q} {i : Nat}, c.At i s.fresh (.start steps) →
      ∃ after place, Gets answer c i s' place told after) :
    ∃ after, Gets answer c i { s with published := s'.published }
      ⟨around, .thread steps :: before, rest, false⟩ told after := by
  obtain ⟨middle, hstart, hthreads⟩ := h.gets answer (.started steps) rfl
  have hnew : middle.At c.threads.length s.fresh (.start steps) := by
    refine ⟨hstart.arrives.1, ?_⟩
    rw [hthreads, List.getElem?_append_right (by simp)]
    simp [newThreads]
  obtain ⟨after, place, hchild⟩ := hsteps hnew
  have hne {j : Nat} {t : Thread L Q} (ht : c.threads[j]? = some t) : j ≠ c.threads.length :=
    Nat.ne_of_lt (List.getElem?_eq_some_iff.1 ht).1
  obtain ⟨log, hr, -⟩ := hstart.runs
  obtain ⟨log', hr', ht'⟩ := hchild.runs
  refine ⟨after, ⟨log ++ log', hr.trans hr', ?_⟩, ⟨hchild.arrives.1, ?_⟩, ?_⟩
  · rw [Log.answers, List.filterMap_append]
    exact List.Sublist.trans ht' (List.sublist_append_right _ _)
  · exact hchild.others i _ (hne h.2) hstart.arrives.2
  · exact fun j t hj ht => hchild.others j t (hne ht) (hstart.others j t hj ht)

mutual

/-- A step that runs by itself, with new threads waited for, is made of moves. -/
theorem At.gets_run (step : Step L Q) {c : System L Q} {i : Nat} {s : Scopes L}
    {around : List (Frame L Q)} {before rest : List (Step L Q)}
    (h : c.At i s ⟨around, before, step :: rest, false⟩) :
    ∃ after, Gets answer c i (step.run answer s).1
      ⟨around, step :: before, rest, (step.run answer s).2.isNone⟩
      ((step.run answer s).2.elim [] Trace.answers) after := by
  cases step with
  | ask question =>
    obtain ⟨after, hg, -⟩ := h.gets answer (.answered (answer s question)) rfl
    exact ⟨after, hg⟩
  | publish locale =>
    obtain ⟨after, hg, -⟩ := h.gets answer (.published locale) rfl
    exact ⟨after, hg⟩
  | clear =>
    obtain ⟨after, hg, -⟩ := h.gets answer .cleared rfl
    exact ⟨after, hg⟩
  | fail =>
    obtain ⟨after, hg, -⟩ := h.gets answer .failed rfl
    exact ⟨after, hg⟩
  | within locale steps =>
    obtain ⟨after, hg⟩ := At.gets_block answer (.scope locale) h (At.gets_runAll steps)
    refine ⟨after, ?_⟩
    rw [Purpose.enter] at hg
    rcases hr : Step.runAll answer steps (s.enter locale) with ⟨s', _ | traces⟩
    · simpa [Step.run, hr, Purpose.leave, Purpose.passes, Purpose.step] using hg
    · simpa [Step.run, hr, Purpose.leave, Purpose.step, Trace.answers] using hg
  | guarded steps =>
    obtain ⟨after, hg⟩ := At.gets_block answer .guard h (At.gets_runAll steps)
    refine ⟨after, ?_⟩
    rw [Purpose.enter] at hg
    rcases hr : Step.runAll answer steps s with ⟨s', _ | traces⟩
    · simpa [Step.run, hr, Purpose.leave, Purpose.passes, Purpose.step, Trace.answers] using hg
    · simpa [Step.run, hr, Purpose.leave, Purpose.step, Trace.answers] using hg
  | thread steps =>
    obtain ⟨after, hg⟩ := h.gets_thread answer fun hnew => by
      obtain ⟨after, before', after', -, -, hchild⟩ := At.gets_runAll steps hnew
      exact ⟨after, _, hchild⟩
    refine ⟨after, ?_⟩
    rw [Step.run, Option.elim_some, Trace.answers_thread]
    exact hg

theorem At.gets_runAll (steps : List (Step L Q)) {c : System L Q} {i : Nat} {s : Scopes L}
    {around : List (Frame L Q)} {before : List (Step L Q)}
    (h : c.At i s ⟨around, before, steps, false⟩) :
    ∃ after before' after', before'.reverse ++ after' = before.reverse ++ steps ∧
      ((Step.runAll answer steps s).2.isNone = true ∨ after' = []) ∧
      Gets answer c i (Step.runAll answer steps s).1
        ⟨around, before', after', (Step.runAll answer steps s).2.isNone⟩
        ((Step.runAll answer steps s).2.elim [] Trace.allAnswers) after := by
  cases steps with
  | nil =>
    exact ⟨c, before, [], rfl, .inr rfl, ⟨[], .refl, List.Sublist.refl _⟩, h, fun _ _ _ ht => ht⟩
  | cons step steps =>
    obtain ⟨middle, hfirst⟩ := At.gets_run step h
    rw [Step.runAll]
    rcases hr : step.run answer s with ⟨s', _ | trace⟩
    · rw [hr] at hfirst
      exact ⟨middle, step :: before, steps, by simp, .inl rfl, hfirst⟩
    · rw [hr] at hfirst
      obtain ⟨after, before', after', hb, he, hrest⟩ := At.gets_runAll steps hfirst.arrives
      have hg := hfirst.trans hrest
      refine ⟨after, before', after', by simpa using hb, ?_⟩
      rcases hr' : Step.runAll answer steps s' with ⟨s'', _ | traces⟩
      · refine ⟨.inl (by simp [hr']), ?_⟩
        rw [hr'] at hg
        simpa [hr'] using hg.fewer (List.nil_sublist _)
      · refine ⟨by simpa [hr'] using he, ?_⟩
        rw [hr'] at hg
        simpa [hr', Trace.allAnswers] using hg

end

/-- Steps that run on one thread, with new threads waited for, make one of the runs: it leaves the
scopes that they leave, fails if they do, and answers all that they answer. -/
theorem exists_runs_of_runAll (steps : List (Step L Q)) :
    ∃ log c t, Runs answer (start [steps]) log c ∧ c.threads[0]? = some t ∧
      c.scopes t = (Step.runAll answer steps .empty).1 ∧
      t.place.failing = (Step.runAll answer steps .empty).2.isNone ∧
      t.place.next? (answer (c.scopes t)) = none ∧
      ((Step.runAll answer steps .empty).2.elim [] Trace.allAnswers).Sublist log.answers := by
  have hat : (start [steps]).At 0 .empty (.start steps) := ⟨rfl, rfl⟩
  obtain ⟨c, before, after, -, hend, ⟨log, hr, hlog⟩, ⟨hp, ht⟩, -⟩ :=
    At.gets_runAll answer steps hat
  refine ⟨log, c, _, hr, ht, by rw [scopes, hp], rfl, ?_, hlog⟩
  rcases hend with hend | rfl
  · simp [Place.next?, hend]
  · simp [Place.next?]

end System

end Phrasebook
