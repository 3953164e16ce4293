import Phrasebook.Proofs.Edits

/-!
Which parameters are seen where. A template sees those that it mentions and no others, and a phrase
that it calls sees none of them: it gives what it gives to whoever calls it with the same arguments.
-/

namespace Phrasebook

namespace Bindings

variable {b b' : Bindings} {name key : String}

theorem value_congr (h : b.lookup name = b'.lookup name) : b.value name = b'.value name := by
  simp only [value, h]

theorem value_cons_of_ne (h : name ≠ key) (v : Value) : value ((key, v) :: b) name = b.value name :=
  (value_cons ..).trans (if_neg h)

/-- The bindings without those of one name. -/
def without (b : Bindings) (key : String) : Bindings :=
  b.filter fun entry => entry.1 ≠ key

theorem lookup_without (b : Bindings) (h : name ≠ key) :
    (b.without key).lookup name = b.lookup name := by
  induction b with
  | nil => rfl
  | cons entry rest ih =>
    obtain ⟨held, v⟩ := entry
    rw [without] at ih ⊢
    rw [lookup_cons_ite, List.filter_cons]
    by_cases hk : held = key
    · have hne : name ≠ held := fun he => h (he.trans hk)
      rw [if_neg hne, if_neg (by simpa using hk), ih]
    · rw [if_pos (by simpa using hk), lookup_cons_ite, ih]

end Bindings

namespace Reference

/-- The phrase that a reference calls, and the arguments it calls it with. -/
def request? : Reference → Option (String × List Argument)
  | parameter _ => none
  | term name => some (name, [])
  | call name arguments => some (name, arguments)

theorem reads_of_request {r : Reference} {name : String} {arguments : List Argument}
    (h : r.request? = some (name, arguments)) : r.reads = arguments.flatMap Argument.reads := by
  cases r <;> cases h <;> rfl

end Reference

/-- The hole with a parameter in the place of its reference. -/
def Interpolation.referring (hole : Interpolation) (parameter : String) : Interpolation :=
  { hole with reference := .parameter parameter }

namespace Rendering

variable {c : Conventions} {call : Call} {b : Bindings} {t : Template} {hole : Interpolation}
  {name fresh : String} {arguments : List Argument} {values : List Value} {p : Phrase}

theorem reference_of_request {r : Reference} (hr : r.request? = some (name, arguments))
    (hv : arguments.mapM (argument call b) = .ok values) :
    reference call b r = (call name values).map .phrase := by
  cases r with
  | parameter name => cases hr
  | term name =>
    cases hr
    cases hv
    rfl
  | call name arguments =>
    cases hr
    rw [reference, hv]
    rfl

theorem interpolation_of_error {e : EvalError}
    (hr : hole.reference.request? = some (name, arguments))
    (hv : arguments.mapM (argument call b) = .ok values) (he : call name values = .error e) :
    interpolation c call b hole = .error e := by
  rw [interpolation, reference_of_request hr hv, he]
  rfl

/-- In the place of a call may stand a parameter with what the call gives. -/
theorem interpolation_referring (hr : hole.reference.request? = some (name, arguments))
    (hv : arguments.mapM (argument call b) = .ok values) (hp : call name values = .ok p)
    (hf : b.value fresh = .ok (.phrase p)) :
    interpolation c call b (hole.referring fresh) = interpolation c call b hole := by
  have hreference : reference call b (.parameter fresh) = reference call b hole.reference := by
    rw [reference_of_request hr hv, hp]
    exact hf
  simp only [interpolation, Interpolation.referring, hreference]

theorem mapM_argument_cons (hf : fresh ∉ arguments.flatMap Argument.reads) (v : Value) :
    arguments.mapM (argument call ((fresh, v) :: b)) = arguments.mapM (argument call b) := by
  refine mapM_congr fun a ha =>
    argument_congr (fun n hn => Bindings.value_cons_of_ne ?_ v) fun _ _ => rfl
  rintro rfl
  exact hf (List.mem_flatMap.2 ⟨a, ha, hn⟩)

theorem template_cons (hf : fresh ∉ t.reads) (v : Value) :
    template c call ((fresh, v) :: b) t = template c call b t := by
  refine template_congr (fun n hn => Bindings.value_cons_of_ne ?_ v) fun _ _ => rfl
  rintro rfl
  exact hf hn

/-- So it may in a template, under a name that the template does not mention. -/
theorem template_referring {j : Nat} (hj : t.segments[j]? = some (.interpolation hole))
    (hr : hole.reference.request? = some (name, arguments))
    (hv : arguments.mapM (argument call b) = .ok values) (hp : call name values = .ok p)
    (hf : fresh ∉ t.reads) :
    template c call ((fresh, .phrase p) :: b) (t.put j (.interpolation (hole.referring fresh))) =
      template c call b t := by
  have hreads : fresh ∉ arguments.flatMap Argument.reads := by
    intro hm
    have hhole := Template.mem_interpolations.2 (List.mem_of_getElem? hj)
    refine hf (List.mem_flatMap.2 ⟨hole, hhole, ?_⟩)
    rw [← Reference.reads_of_request hr] at hm
    exact List.mem_append_left _ (List.mem_append_left _ hm)
  have hv' : arguments.mapM (argument call ((fresh, .phrase p) :: b)) = .ok values :=
    (mapM_argument_cons hreads _).trans hv
  have hfresh : Bindings.value ((fresh, .phrase p) :: b) fresh = .ok (.phrase p) :=
    (Bindings.value_cons ..).trans (if_pos rfl)
  rw [← template_cons hf (.phrase p)]
  calc template c call ((fresh, .phrase p) :: b) (t.put j (.interpolation (hole.referring fresh)))
      = template c call ((fresh, .phrase p) :: b) (t.put j (.interpolation hole)) :=
        template_put_congr (interpolation_referring hr hv' hp hfresh)
    _ = template c call ((fresh, .phrase p) :: b) t := by rw [Template.put_of_getElem? hj]

end Rendering

namespace Locale

theorem evaluate_of_parse {l : Locale} {source : String} {t : Template}
    (h : Template.parse source = .ok t) (b : Bindings) :
    l.evaluate source b = Rendering.template l.conventions l.call b t := by
  rw [evaluate, h]
  rfl

theorem evaluate_congr {l : Locale} {source : String} {b b' : Bindings}
    (h : ∀ t, Template.parse source = .ok t → ∀ name ∈ t.reads, b.lookup name = b'.lookup name) :
    l.evaluate source b = l.evaluate source b' := by
  cases ht : Template.parse source with
  | error e =>
    rw [evaluate, evaluate, ht]
    rfl
  | ok t =>
    rw [evaluate_of_parse ht, evaluate_of_parse ht]
    exact Rendering.template_congr (fun n hn => Bindings.value_congr (h t ht n hn)) fun _ _ => rfl

/-- What a template gives depends on the parameters that it mentions: another one may be given,
changed or taken away. A phrase that the template calls sees no parameters but its arguments. With
them it gives what it gives to a caller without any parameters, so that the call may be made
beforehand; and when it fails there, it fails here. -/
theorem evaluate_mentioned (l : Locale) (source : String) (b : Bindings) :
    (∀ b' : Bindings,
      (∀ t, Template.parse source = .ok t → ∀ name ∈ t.reads, b.lookup name = b'.lookup name) →
      l.evaluate source b = l.evaluate source b') ∧
    (∀ name, (∀ t, Template.parse source = .ok t → name ∉ t.reads) →
      (∀ v, l.evaluate source ((name, v) :: b) = l.evaluate source b) ∧
        l.evaluate source (b.without name) = l.evaluate source b) ∧
    ∀ t j hole name arguments values, Template.parse source = .ok t →
      t.segments[j]? = some (.interpolation hole) →
      hole.reference.request? = some (name, arguments) →
      arguments.mapM (Rendering.argument l.call b) = .ok values →
      (∀ p, l.call name values = .ok p → ∀ fresh ∉ t.reads,
        l.evaluate source b = Rendering.template l.conventions l.call ((fresh, .phrase p) :: b)
          (t.put j (.interpolation (hole.referring fresh)))) ∧
      ∀ e, l.call name values = .error e →
        Rendering.interpolation l.conventions l.call b hole = .error e := by
  refine ⟨fun b' h => evaluate_congr h, fun name hname => ⟨fun v => ?_, ?_⟩, ?_⟩
  · refine evaluate_congr fun t ht n hn => ?_
    have hne : n ≠ name := fun he => hname t ht (he ▸ hn)
    rw [lookup_cons_ite, if_neg hne]
  · refine evaluate_congr fun t ht n hn => b.lookup_without ?_
    exact fun he => hname t ht (he ▸ hn)
  · intro t j hole name arguments values ht hj hr hv
    refine ⟨fun p hp fresh hf => ?_, fun e he => Rendering.interpolation_of_error hr hv he⟩
    rw [evaluate_of_parse ht, Rendering.template_referring hj hr hv hp hf]

/-- A phrase whose parameter has the name of one that the template below shows as well. -/
def clashing : Blueprint where
  language := "en"
  source := "card($n) = \"card \x7b$n\x7d\";"

def clash : String :=
  "\x7b$n\x7d, \x7bcard($a)\x7d"

def clashTemplate : Template :=
  ⟨[.interpolation ⟨none, .parameter "n", []⟩, .literal ", ",
    .interpolation ⟨none, .call "card" [.parameter "a"], []⟩]⟩

def oneAndTwo : Bindings :=
  [("n", .number 1), ("a", .number 2)]

theorem evaluate_mentioned_clash : ∃ l, clashing.build = .ok l ∧
    l.evaluate clash oneAndTwo = .ok "1, card 2" ∧
    l.evaluate clash oneAndTwo = l.evaluate clash [("x", .number 3), ("a", .number 2),
      ("n", .number 1)] ∧
    l.evaluate clash (("card", .text "x") :: oneAndTwo) = l.evaluate clash oneAndTwo ∧
    l.evaluate clash oneAndTwo = Rendering.template l.conventions l.call
      (("x", .phrase (.ofText "card 2")) :: oneAndTwo)
      (clashTemplate.put 2 (.interpolation ⟨none, .parameter "x", []⟩)) := by
  have h : ∃ l, clashing.build = .ok l ∧ decide (
      (l.evaluate clash oneAndTwo).toOption = some "1, card 2" ∧
      l.call "card" [.number 2] = .ok (.ofText "card 2")) :=
    exists_of_build (by decide +kernel)
  obtain ⟨l, hl, ht⟩ := h
  obtain ⟨hone, hcall⟩ := of_decide_eq_true ht
  have hparse : Template.parse clash = .ok clashTemplate := eq_ok_of_toOption (by decide +kernel)
  have hreads (t : Template) (h : Template.parse clash = .ok t) : t.reads = ["n", "a"] := by
    cases hparse.symm.trans h
    rfl
  obtain ⟨hagree, hother, hcalls⟩ := evaluate_mentioned l clash oneAndTwo
  refine ⟨l, hl, eq_ok_of_toOption hone, hagree _ ?_, (hother "card" ?_).1 _, ?_⟩
  · intro t h
    rw [hreads t h]
    decide
  · intro t h
    rw [hreads t h]
    decide
  · exact (hcalls clashTemplate 2 _ "card" [.parameter "a"] [.number 2] hparse rfl rfl rfl).1 _
      hcall "x" (by decide)

end Locale

end Phrasebook
