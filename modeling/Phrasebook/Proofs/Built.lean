import Phrasebook.Locale.Basic
import Phrasebook.Proofs.Check
import Phrasebook.Proofs.References

/-!
What is known of a locale that has been built: its phrases find all that they mention, and calls
nest no deeper than the ranks of the phrases. So a call is what its definition renders with the
calls of the same locale.
-/

namespace Phrasebook

namespace Store

theorem phrases_insert {s after : Store} {d : Definition} (h : s.insert d = .ok after) :
    after.phrases = s.phrases.insert d.name d := by
  unfold insert at h
  dsimp only at h
  split at h
  · split at h
    · cases h
      rfl
    · cases h
  · cases h
    rfl

theorem phrases_insertAll {definitions : List Definition} {s after : Store}
    (h : s.insertAll definitions = .ok after) :
    after.phrases = s.phrases.insertAll (definitions.map fun d => (d.name, d)) := by
  induction definitions generalizing s with
  | nil =>
    cases h
    rfl
  | cons d rest ih =>
    unfold insertAll at h
    rw [List.foldlM_cons] at h
    obtain ⟨middle, hm, hr⟩ := bind_eq_ok.1 h
    rw [ih hr, phrases_insert hm]
    rfl

end Store

namespace Blueprint

/-- The steps of building, each of which has succeeded. -/
theorem steps_of_build {b : Blueprint} {l : Locale} (h : b.build = .ok l) :
    ∃ language definitions, Language.parse? b.language = some language ∧
      Definition.parseAll b.source = .ok definitions ∧
      l = b.locale language l.phrases ∧
      checkAll definitions l.transforms.names = [] ∧
      Store.empty.insertAll definitions = .ok l.phrases := by
  unfold build at h
  split at h
  · next language hl =>
    change (Except.mapError LoadError.parse (Definition.parseAll b.source) >>= _) = _ at h
    obtain ⟨definitions, hd, h⟩ := bind_eq_ok.1 h
    split at h
    · next hc =>
      obtain ⟨phrases, hs, he⟩ := bind_eq_ok.1 h
      cases he
      exact ⟨language, definitions, hl, mapError_eq_ok.1 hd, rfl, hc, hs⟩
    · cases h
  · cases h

theorem build_eq_ok {b : Blueprint} {l : Locale} (h : b.build = .ok l) :
    ∃ language definitions, Language.parse? b.language = some language ∧
      Definition.parseAll b.source = .ok definitions ∧
      l = b.locale language l.phrases ∧
      checkAll definitions l.transforms.names = [] ∧
      l.phrases.phrases = Dictionary.ofList (definitions.map fun d => (d.name, d)) := by
  obtain ⟨language, definitions, hl, hd, hlocale, hc, hs⟩ := steps_of_build h
  exact ⟨language, definitions, hl, hd, hlocale, hc, Store.phrases_insertAll hs⟩

theorem registry_of_build {b : Blueprint} {l : Locale} (h : b.build = .ok l) :
    ∃ language, Language.parse? b.language = some language ∧
      l.transforms = b.registry language := by
  obtain ⟨language, definitions, hl, -, hlocale, -, -⟩ := steps_of_build h
  exact ⟨language, hl, congrArg Locale.transforms hlocale⟩

end Blueprint

namespace Locale

theorem exists_of_build {b : Blueprint} {test : Locale → Bool}
    (h : (match b.build with
      | .ok l => test l
      | .error _ => false) = true) : ∃ l, b.build = .ok l ∧ test l := by
  cases hb : b.build with
  | error e => simp [hb] at h
  | ok l => exact ⟨l, rfl, by simpa [hb] using h⟩

/-- What the definitions of a locale are checked against. -/
def surroundings (l : Locale) : Definition.Surroundings :=
  ⟨l.phrases.phrases.map Definition.arity, l.transforms.names⟩

/-- A phrase that is called is there, with as many parameters as it is called with. -/
theorem callee_of_supported {l : Locale} {d : Definition} (h : d.Supported l.surroundings)
    {k : String × Nat} (hk : k ∈ d.calls) :
    ∃ callee, l.phrases.get? k.1 = some callee ∧ callee.arity = k.2 := by
  have ha := h.calls k hk
  rw [surroundings, Dictionary.get?_map] at ha
  exact Option.map_eq_some_iff.1 ha

/-- A call goes only to phrases of lower rank, and ranks are fewer than phrases. -/
def RankedBy (l : Locale) (rank : String → Nat) : Prop :=
  ∀ name d, l.phrases.get? name = some d →
    rank name < l.phrases.size ∧ ∀ k ∈ d.calls, rank k.1 < rank name

structure Checked (l : Locale) : Prop where
  named : ∀ name d, l.phrases.get? name = some d → d.name = name
  supported : ∀ name d, l.phrases.get? name = some d → d.Supported l.surroundings
  ranked : ∃ rank, l.RankedBy rank

section

variable {l : Locale} {definitions : List Definition} {transforms : List String}
  (hp : l.phrases.phrases = Dictionary.ofList (definitions.map fun d => (d.name, d)))
include hp

/-- The phrases of a locale stand under their names among its definitions. -/
theorem mem_of_get? {name : String} {d : Definition} (hd : l.phrases.get? name = some d) :
    d.name = name ∧ d ∈ definitions := by
  rw [Store.get?, hp] at hd
  obtain ⟨d', hd', he⟩ := List.mem_map.1 (Dictionary.mem_of_get?_ofList hd)
  cases he
  exact ⟨rfl, hd'⟩

theorem arities_eq :
    Definition.arities definitions = l.phrases.phrases.map Definition.arity := by
  rw [hp, Dictionary.map_ofList, List.map_map]
  rfl

/-- What a definition that the check accepts calls is there. -/
theorem contains_of_checkAll (hc : checkAll definitions transforms = []) {name : String}
    {d : Definition} (hd : l.phrases.get? name = some d) {k : String × Nat} (hk : k ∈ d.calls) :
    l.contains k.1 := by
  simp only [checkAll, List.append_eq_nil_iff, List.flatMap_eq_nil_iff] at hc
  have ha := (Definition.supported_of_check (hc.1.2 d (mem_of_get? hp hd).2)).calls k hk
  rw [arities_eq hp, Dictionary.get?_map] at ha
  obtain ⟨callee, hcallee, -⟩ := Option.map_eq_some_iff.1 ha
  exact Option.isSome_iff_exists.2 ⟨callee, hcallee⟩

/-- Definitions that the check accepts are ranked: those without cycles are, and what they call is
there. -/
theorem ranked_of_checkAll (hc : checkAll definitions transforms = []) :
    ∃ rank, l.RankedBy rank := by
  have hgraph : Definition.graph definitions = l.phrases.phrases.map Definition.references := by
    rw [hp, Dictionary.map_ofList, List.map_map]
    rfl
  have hnone : Definition.findCycle definitions = none := by
    cases hf : Definition.findCycle definitions with
    | none => rfl
    | some chain => simp [checkAll, hf] at hc
  obtain ⟨rank, hrank⟩ := Definition.exists_rank hnone
  rw [hgraph] at hrank
  have hsize : (l.phrases.phrases.map Definition.references).keys.length = l.phrases.size := by
    simp [Dictionary.keys, Dictionary.map, Store.size, Store.definitions, Dictionary.values]
  refine ⟨rank, ?_⟩
  intro name d hd
  have hknown (other : String) (hs : (l.phrases.get? other).isSome) :
      (l.phrases.phrases.map Definition.references).contains other := by
    simpa [Dictionary.contains, Store.get?] using hs
  obtain ⟨hlt, hnext⟩ := hrank name (hknown name (by simp [hd]))
  refine ⟨hsize ▸ hlt, ?_⟩
  intro k hk
  refine hnext k.1 ?_ (hknown k.1 ?_)
  · have hr : k.1 ∈ d.references := Definition.mem_references.2 (List.mem_map.2 ⟨k, hk, rfl⟩)
    rw [Store.get?] at hd
    simpa [Definition.Graph.successors, hd] using hr
  · simpa [contains, Store.contains, Dictionary.contains, Store.get?] using
      contains_of_checkAll hp hc hd hk

end

theorem check_of_build {b : Blueprint} {l : Locale} (h : b.build = .ok l) {name : String}
    {d : Definition} (hd : l.phrases.get? name = some d) : d.check l.surroundings = [] := by
  obtain ⟨language, definitions, -, -, -, hc, hp⟩ := Blueprint.build_eq_ok h
  simp only [checkAll, List.append_eq_nil_iff, List.flatMap_eq_nil_iff, arities_eq hp] at hc
  exact hc.1.2 d (mem_of_get? hp hd).2

theorem checked_of_build {b : Blueprint} {l : Locale} (h : b.build = .ok l) : l.Checked := by
  obtain ⟨language, definitions, -, -, -, hc, hp⟩ := Blueprint.build_eq_ok h
  exact ⟨fun name d hd => (mem_of_get? hp hd).1,
    fun name d hd => Definition.supported_of_check (check_of_build h hd), ranked_of_checkAll hp hc⟩

variable {l : Locale}

theorem enter_congr {name : String} {arguments : List Value}
    {render render' : Definition → Except EvalError Phrase}
    (h : ∀ d, l.phrases.get? name = some d → render d = render' d) :
    l.enter name arguments render = l.enter name arguments render' := by
  unfold enter
  cases hd : l.phrases.get? name with
  | none => rfl
  | some d => simp only [h d hd]

theorem enter_eq_ok {name : String} {arguments : List Value} {result : Phrase}
    {render : Definition → Except EvalError Phrase} :
    l.enter name arguments render = .ok result ↔
      ∃ d, l.phrases.get? name = some d ∧ d.arity = arguments.length ∧ render d = .ok result := by
  unfold enter
  cases l.phrases.get? name with
  | none => simp
  | some d => by_cases ha : d.arity = arguments.length <;> simp [ha]

/-- What a call gives, a definition renders. -/
theorem exists_definition_of_call {name : String} {arguments : List Value} {result : Phrase}
    (h : l.call name arguments = .ok result) : ∃ d call, l.phrases.get? name = some d ∧
      Rendering.definition l.conventions call d arguments = .ok result := by
  unfold call at h
  cases hs : l.phrases.size with
  | zero =>
    rw [hs] at h
    obtain ⟨d, -, -, he⟩ := enter_eq_ok.1 h
    cases he
  | succ depth =>
    rw [hs] at h
    obtain ⟨d, hd, -, hr⟩ := enter_eq_ok.1 h
    exact ⟨d, _, hd, hr⟩

/-- Beyond the rank of a phrase the bound on the depth of calls does not matter. -/
theorem callWithin_congr {rank : String → Nat} (hr : l.RankedBy rank) {m n : Nat} {name : String}
    (hm : rank name < m) (hn : rank name < n) : l.callWithin m name = l.callWithin n name := by
  induction m generalizing n name with
  | zero => omega
  | succ m ih =>
    cases n with
    | zero => omega
    | succ n =>
      funext arguments
      apply enter_congr
      intro d hd
      apply Rendering.definition_congr
      intro k hk
      have hlt := (hr name d hd).2 k hk
      exact ih (by omega) (by omega)

theorem RankedBy.call_eq {rank : String → Nat} (hr : l.RankedBy rank) (name : String)
    (arguments : List Value) :
    l.call name arguments = l.enter name arguments fun d =>
      Rendering.definition l.conventions l.call d arguments := by
  cases hs : l.phrases.size with
  | zero =>
    unfold call
    rw [hs]
    apply enter_congr
    intro d hd
    have := (hr name d hd).1
    omega
  | succ n =>
    unfold call
    rw [hs]
    apply enter_congr
    intro d hd
    apply Rendering.definition_congr
    intro k hk
    have hname := (hr name d hd).1
    have hlt := (hr name d hd).2 k hk
    exact callWithin_congr hr (by omega) (by omega)

/-- A call renders the phrase's definition, with calls to the same locale. -/
theorem Checked.call_eq (h : l.Checked) (name : String) (arguments : List Value) :
    l.call name arguments = l.enter name arguments fun d =>
      Rendering.definition l.conventions l.call d arguments := by
  obtain ⟨rank, hr⟩ := h.ranked
  exact hr.call_eq name arguments

variable {name : String} {arguments : List Value} {d : Definition}

theorem Checked.call_of_get? (h : l.Checked) (hd : l.phrases.get? name = some d)
    (ha : arguments.length = d.arity) :
    l.call name arguments = Rendering.definition l.conventions l.call d arguments := by
  rw [h.call_eq]
  simp only [enter, hd, ha, ↓reduceIte]

/-- A definition found elsewhere is called as it is by its name. -/
theorem Checked.callDefinition_eq (h : l.Checked) (hd : l.phrases.get? name = some d)
    (arguments : List Value) : l.callDefinition d arguments = l.call name arguments := by
  rw [h.call_eq, enter, hd]
  rfl

theorem Checked.call_of_length_ne (h : l.Checked) (hd : l.phrases.get? name = some d)
    (ha : arguments.length ≠ d.arity) :
    l.call name arguments = .error (.argumentCount name d.arity arguments.length) := by
  rw [h.call_eq]
  simp only [enter, hd, if_neg ha.symm, h.named name d hd]

theorem Checked.length_of_call_eq_ok (h : l.Checked) (hd : l.phrases.get? name = some d)
    {result : Phrase} (hr : l.call name arguments = .ok result) : arguments.length = d.arity := by
  by_cases ha : arguments.length = d.arity
  · exact ha
  · rw [h.call_of_length_ne hd ha] at hr
    cases hr

end Locale

end Phrasebook
