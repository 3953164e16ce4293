import Mathlib.Data.List.Chain
import Phrasebook.Proofs.Built

/-!
Calls that are nested in each other. In a locale whose definitions the check accepts, no phrase is
called within itself: calls nest no deeper than there are definitions, and every rendering comes to
an end, whatever its arguments are.
-/

namespace Phrasebook

/-- A phrase and the arguments it is called with. -/
abbrev PhraseCall := String × List Value

/-- The same calls, but for one that fails. -/
def Call.failing (call : Call) (k : PhraseCall) (e : EvalError) : Call := fun name arguments =>
  if (name, arguments) = k then .error e else call name arguments

section

variable {α β : Type}

/-- A rendering makes a call: however that call fails, the rendering fails with it. -/
def Makes (render : Call → Except EvalError α) (call : Call) (k : PhraseCall) : Prop :=
  ∀ e, render (call.failing k e) = .error e

/-- A rendering has no use for a call: if that call fails, the outcome is as it was. -/
def Spares (render : Call → Except EvalError α) (call : Call) (k : PhraseCall) : Prop :=
  ∀ e, render (call.failing k e) = render call

variable {render : Call → Except EvalError α} {call : Call} {k : PhraseCall}

theorem Spares.not_makes (h : Spares render call k) : ¬ Makes render call k := by
  intro hm
  have h₁ := (h .noActiveLocale).symm.trans (hm .noActiveLocale)
  have h₂ := (h (.idNotFound 0)).symm.trans (hm (.idNotFound 0))
  rw [h₁] at h₂
  cases h₂

/-! ### Every rendering makes a call or spares it -/

theorem spares_const (x : Except EvalError α) : Spares (fun _ => x) call k :=
  fun _ => rfl

theorem makes_or_spares_call (name : String) (arguments : List Value) :
    Makes (fun call => call name arguments) call k ∨
      Spares (fun call => call name arguments) call k := by
  by_cases h : (name, arguments) = k
  · exact .inl fun e => if_pos h
  · exact .inr fun e => if_neg h

/-- An error ends the rendering, so that what comes first decides. -/
theorem makes_or_spares_bind {next : α → Call → Except EvalError β}
    (h : Makes render call k ∨ Spares render call k)
    (hn : ∀ a, Makes (next a) call k ∨ Spares (next a) call k) :
    Makes (fun call => render call >>= fun a => next a call) call k ∨
      Spares (fun call => render call >>= fun a => next a call) call k := by
  rcases h with hm | hs
  · exact .inl fun e => by simp only [hm e]; rfl
  · cases hr : render call with
    | error e' =>
      refine .inr fun e => ?_
      simp only [hs e, hr]
      rfl
    | ok a =>
      rcases hn a with hm | hs'
      · refine .inl fun e => ?_
        simp only [hs e, hr]
        exact hm e
      · refine .inr fun e => ?_
        simp only [hs e, hr]
        exact hs' e

theorem makes_or_spares_map (f : α → β) (h : Makes render call k ∨ Spares render call k) :
    Makes (fun call => (render call).map f) call k ∨
      Spares (fun call => (render call).map f) call k := by
  rcases h with hm | hs
  · exact .inl fun e => by simp only [hm e]; rfl
  · exact .inr fun e => by simp only [hs e]

theorem makes_or_spares_mapM {item : β → Call → Except EvalError α}
    (h : ∀ x, Makes (item x) call k ∨ Spares (item x) call k) (xs : List β) :
    Makes (fun call => xs.mapM fun x => item x call) call k ∨
      Spares (fun call => xs.mapM fun x => item x call) call k := by
  induction xs with
  | nil => exact .inr (spares_const _)
  | cons x xs ih =>
    simp only [List.mapM_cons]
    refine makes_or_spares_bind (h x) fun a => ?_
    exact makes_or_spares_bind ih fun as => .inr (spares_const _)

end

namespace Rendering

variable {c : Conventions} {call : Call} {k : PhraseCall}

theorem makes_or_spares_argument (b : Bindings) (a : Argument) :
    Makes (fun call => argument call b a) call k ∨
      Spares (fun call => argument call b a) call k := by
  cases a with
  | parameter name => exact .inr (spares_const _)
  | number n => exact .inr (spares_const _)
  | text content => exact .inr (spares_const _)
  | term name => exact makes_or_spares_map _ (makes_or_spares_call name [])

theorem makes_or_spares_reference (b : Bindings) (r : Reference) :
    Makes (fun call => reference call b r) call k ∨
      Spares (fun call => reference call b r) call k := by
  cases r with
  | parameter name => exact .inr (spares_const _)
  | term name => exact makes_or_spares_map _ (makes_or_spares_call name [])
  | call name arguments =>
    refine makes_or_spares_bind ?_ fun values => ?_
    · exact makes_or_spares_mapM (makes_or_spares_argument b) arguments
    · exact makes_or_spares_map _ (makes_or_spares_call name values)

theorem makes_or_spares_template (b : Bindings) (t : Template) :
    Makes (fun call => template c call b t) call k ∨
      Spares (fun call => template c call b t) call k := by
  refine makes_or_spares_map _ (makes_or_spares_mapM (fun s => ?_) t.segments)
  cases s with
  | literal text => exact .inr (spares_const _)
  | interpolation hole =>
    refine makes_or_spares_bind (makes_or_spares_reference b hole.reference) fun value => ?_
    exact .inr (spares_const _)

theorem makes_or_spares_block (b : Bindings) (entries : List Entry) :
    Makes (fun call => block c call b entries) call k ∨
      Spares (fun call => block c call b entries) call k := by
  refine makes_or_spares_bind (makes_or_spares_mapM (fun entry => ?_) entries) fun forms => ?_
  · refine makes_or_spares_bind (makes_or_spares_template b entry.template) fun text => ?_
    exact .inr (spares_const _)
  · exact .inr (spares_const _)

theorem makes_or_spares_body (d : Definition) (b : Bindings) :
    Makes (fun call => body c call d b) call k ∨ Spares (fun call => body c call d b) call k :=
  makes_or_spares_bind (.inr (spares_const (chosen c d b))) fun t => makes_or_spares_template b t

theorem makes_or_spares_perForm (d : Definition) (b : Bindings)
    (source : Option (String × Value)) :
    Makes (fun call => perForm c call d b source) call k ∨
      Spares (fun call => perForm c call d b source) call k := by
  refine makes_or_spares_bind (makes_or_spares_body d b) fun text => ?_
  split
  · next parameter p =>
    split
    · exact .inr (spares_const _)
    · refine makes_or_spares_bind (makes_or_spares_mapM (fun form => ?_) p.variants.entries)
        fun forms => .inr (spares_const _)
      refine makes_or_spares_bind (makes_or_spares_body d _) fun text => ?_
      exact .inr (spares_const _)
  · exact .inr (spares_const _)

/-- The definition of a phrase makes a call or does not depend on it. -/
theorem makes_or_spares_definition (d : Definition) (arguments : List Value) :
    Makes (fun call => definition c call d arguments) call k ∨
      Spares (fun call => definition c call d arguments) call k := by
  refine makes_or_spares_bind (.inr (spares_const _)) fun inherited => ?_
  refine makes_or_spares_bind ?_ fun found => .inr (spares_const _)
  unfold forms
  split
  · next entries _ _ => exact makes_or_spares_block _ entries
  · exact makes_or_spares_perForm d _ inherited

end Rendering

namespace Locale

variable (l : Locale)

/-- One phrase, rendered with whatever calls are given. -/
def step (k : PhraseCall) (call : Call) : Except EvalError Phrase :=
  l.enter k.1 k.2 fun d => Rendering.definition l.conventions call d k.2

/-- One call is made directly within another. -/
def Nests (caller callee : PhraseCall) : Prop :=
  Makes (l.step caller) l.call callee

/-- What rendering starts from. -/
inductive Start where
  | phrase (name : String) (arguments : List Value)
  | template (t : Template) (parameters : Bindings)

/-- The outermost calls: of a phrase it is the phrase itself. -/
def Start.Calls : Start → PhraseCall → Prop
  | .phrase name arguments, k => k = (name, arguments)
  | .template t parameters, k =>
    Makes (fun call => Rendering.template l.conventions call parameters t) l.call k

/-- Calls in each other, the outermost first. That one is of a phrase there is, since a template
that is read on the spot may name others, in which nothing is nested. -/
structure Nested (start : Start) (chain : List PhraseCall) : Prop where
  first : ∀ k ∈ chain.head?, start.Calls l k ∧ l.contains k.1
  linked : chain.IsChain l.Nests

/-- Rendering comes to an end, with no more than `bound` calls in each other. -/
structure EndsWithin (bound : Nat) : Prop where
  /-- No call goes on for ever. -/
  wellFounded : WellFounded fun callee caller => l.Nests caller callee
  /-- What is not nested in a call has no part in it. -/
  spared : ∀ caller callee, ¬ l.Nests caller callee → Spares (l.step caller) l.call callee
  distinct : ∀ start chain, l.Nested start chain → (chain.map Prod.fst).Nodup
  length_le : ∀ start chain, l.Nested start chain → chain.length ≤ bound
  /-- A bound on the depth of calls makes no difference from here on. -/
  callWithin : ∀ depth, bound ≤ depth → l.callWithin depth = l.call
  /-- The calls of the locale are the only ones in which each phrase is rendered with them. -/
  call_iff : ∀ call : Call,
    (∀ name arguments, call name arguments = l.step (name, arguments) call) ↔ call = l.call

variable {l}

theorem makes_or_spares_step (caller callee : PhraseCall) :
    Makes (l.step caller) l.call callee ∨ Spares (l.step caller) l.call callee := by
  unfold step enter
  split
  · exact .inr (spares_const _)
  · split
    · exact Rendering.makes_or_spares_definition _ _
    · exact .inr (spares_const _)

/-- A phrase calls only what its templates mention. -/
theorem Nests.mentioned {caller callee : PhraseCall} (h : l.Nests caller callee) :
    ∃ d, l.phrases.get? caller.1 = some d ∧ callee.1 ∈ d.calls.map Prod.fst := by
  by_contra hno
  refine Spares.not_makes (fun e => ?_) h
  apply enter_congr
  intro d hd
  apply Rendering.definition_congr
  intro k hk
  funext arguments
  have hne : (k.1, arguments) ≠ callee := by
    rintro rfl
    exact hno ⟨d, hd, List.mem_map.2 ⟨k, hk, rfl⟩⟩
  exact if_neg hne

namespace RankedBy

variable {rank : String → Nat} (hr : l.RankedBy rank)
include hr

theorem rank_lt_of_nests {caller callee : PhraseCall} (h : l.Nests caller callee) :
    rank callee.1 < rank caller.1 := by
  obtain ⟨d, hd, hm⟩ := h.mentioned
  obtain ⟨k, hk, he⟩ := List.mem_map.1 hm
  rw [← he]
  exact (hr caller.1 d hd).2 k hk

theorem wellFounded_nests : WellFounded fun callee caller => l.Nests caller callee :=
  Subrelation.wf (fun h => hr.rank_lt_of_nests h)
    (InvImage.wf (fun k : PhraseCall => rank k.1) Nat.lt_wfRel.wf)

/-- Ranks fall along calls in each other, so that no name comes again. -/
theorem nodup_of_isChain {chain : List PhraseCall} (h : chain.IsChain l.Nests) :
    (chain.map Prod.fst).Nodup := by
  have hfall : chain.IsChain fun caller callee => rank callee.1 < rank caller.1 :=
    h.imp fun _ _ hn => hr.rank_lt_of_nests hn
  have : IsTrans PhraseCall fun caller callee => rank callee.1 < rank caller.1 :=
    ⟨fun _ _ _ h₁ h₂ => Nat.lt_trans h₂ h₁⟩
  refine List.pairwise_map.2 (hfall.pairwise.imp fun hlt he => ?_)
  rw [he] at hlt
  exact Nat.lt_irrefl _ hlt

theorem callWithin_eq {depth : Nat} (h : l.phrases.size ≤ depth) : l.callWithin depth = l.call := by
  funext name
  cases hd : l.phrases.get? name with
  | none =>
    funext arguments
    unfold call
    cases depth <;> cases l.phrases.size <;> simp only [callWithin, enter, hd]
  | some d =>
    have hlt := (hr name d hd).1
    exact callWithin_congr hr (Nat.lt_of_lt_of_le hlt h) hlt

/-- Phrase by phrase, in the order of the ranks, the calls can only be those of the locale. -/
theorem eq_call {call : Call} (h : ∀ name arguments, call name arguments =
    l.step (name, arguments) call) : call = l.call := by
  funext name
  induction hn : rank name using Nat.strongRecOn generalizing name with
  | ind n ih =>
    funext arguments
    rw [h, hr.call_eq]
    apply enter_congr
    intro d hd
    apply Rendering.definition_congr
    intro k hk
    exact ih (rank k.1) (hn ▸ (hr name d hd).2 k hk) k.1 rfl

end RankedBy

section

variable {definitions : List Definition} {transforms : List String}
  (hp : l.phrases.phrases = Dictionary.ofList (definitions.map fun d => (d.name, d)))
include hp

theorem size_le : l.phrases.size ≤ definitions.length := by
  have hs : l.phrases.phrases.keys ⊆ definitions.map Definition.name := by
    intro name hm
    rw [hp] at hm
    simpa using Dictionary.contains_ofList.1 (Dictionary.mem_keys.1 hm)
  have hle := ((Dictionary.nodup_keys _).subperm hs).length_le
  simpa [Store.size, Store.definitions, Dictionary.values, Dictionary.keys] using hle

/-- All the calls in a call of a phrase that is there are of phrases that are there. -/
theorem contains_of_isChain (hc : checkAll definitions transforms = []) {chain : List PhraseCall}
    (h : chain.IsChain l.Nests) (hk : ∀ k ∈ chain.head?, l.contains k.1) :
    ∀ k ∈ chain, l.contains k.1 := by
  induction h with
  | nil => simp
  | singleton k => simpa using hk
  | @cons_cons caller callee rest hn _ ih =>
    have hcallee : l.contains callee.1 := by
      obtain ⟨d, hd, hm⟩ := hn.mentioned
      obtain ⟨k, hk, he⟩ := List.mem_map.1 hm
      rw [← he]
      exact contains_of_checkAll hp hc hd hk
    intro k hm
    rcases List.mem_cons.1 hm with rfl | hm
    · exact hk k rfl
    · exact ih (by simpa using hcallee) k hm

theorem length_le_of_isChain (hc : checkAll definitions transforms = [])
    {chain : List PhraseCall} (h : chain.IsChain l.Nests) (hn : (chain.map Prod.fst).Nodup)
    (hk : ∀ k ∈ chain.head?, l.contains k.1) : chain.length ≤ definitions.length := by
  have hs : chain.map Prod.fst ⊆ l.phrases.phrases.keys := by
    intro name hm
    obtain ⟨k, hmem, rfl⟩ := List.mem_map.1 hm
    exact Dictionary.mem_keys.2 (contains_of_isChain hp hc h hk k hmem)
  have hle := (hn.subperm hs).length_le
  have hsize := size_le hp
  simp only [List.length_map, Store.size, Store.definitions, Dictionary.values,
    Dictionary.keys] at hle hsize
  exact Nat.le_trans hle hsize

end

/-- Definitions that the check accepts, rendered in whatever language and by whatever rules, call
each other no deeper than there are definitions. -/
theorem endsWithin_of_checkAll {definitions : List Definition} {transforms : List String}
    (hc : checkAll definitions transforms = []) {l : Locale}
    (hs : Store.empty.insertAll definitions = .ok l.phrases) :
    l.EndsWithin definitions.length := by
  have hp : l.phrases.phrases = Dictionary.ofList (definitions.map fun d => (d.name, d)) :=
    Store.phrases_insertAll hs
  obtain ⟨rank, hr⟩ : ∃ rank, l.RankedBy rank := ranked_of_checkAll hp hc
  have hnodup (start : Start) (chain : List PhraseCall) (h : l.Nested start chain) :
      (chain.map Prod.fst).Nodup := hr.nodup_of_isChain h.linked
  refine ⟨hr.wellFounded_nests, ?_, hnodup, ?_, ?_, ?_⟩
  · exact fun caller callee hn => (makes_or_spares_step caller callee).resolve_left hn
  · intro start chain h
    exact length_le_of_isChain hp hc h.linked (hnodup start chain h) fun k hk => (h.first k hk).2
  · exact fun depth hd => hr.callWithin_eq (Nat.le_trans (size_le hp) hd)
  · intro call
    refine ⟨hr.eq_call, ?_⟩
    rintro rfl
    exact fun name arguments => hr.call_eq name arguments

/-- A phrase that calls two others, one of them in the argument of the other. -/
def layered : String :=
  "card = :a \x7b one: \"card\", other: \"cards\" \x7d; " ++
    "one($p) = :from($p) \"\x7b$p:one\x7d\"; draw = \"Draw \x7b@a one(card)\x7d.\";"

theorem endsWithin_of_checkAll_layered : ∃ definitions phrases,
    Definition.parseAll layered = .ok definitions ∧
    checkAll definitions ["a"] = [] ∧ Store.empty.insertAll definitions = .ok phrases ∧
    ∀ l : Locale, l.phrases = phrases → l.EndsWithin definitions.length := by
  have h : (match Definition.parseAll layered with
      | .ok definitions => decide (checkAll definitions ["a"] = []) &&
        (Store.empty.insertAll definitions).isOk
      | .error _ => false) = true := by decide +kernel
  cases hd : Definition.parseAll layered with
  | error e => simp [hd] at h
  | ok definitions =>
    simp only [hd, Bool.and_eq_true, decide_eq_true_eq] at h
    cases hs : Store.empty.insertAll definitions with
    | error e => simp [hs, Except.isOk, Except.toBool] at h
    | ok phrases =>
      refine ⟨definitions, phrases, rfl, h.1, hs, fun l hl => ?_⟩
      rw [← hl] at hs
      exact endsWithin_of_checkAll h.1 hs

end Locale

end Phrasebook
