import Phrasebook.Proofs.Lexing
import Phrasebook.Proofs.Writing

/-!
Definitions whose numbers are written anew. A program knows the numbers in the keys of its
definitions by their values alone, so that the digits of a value come to stand for any spelling of
it. Nothing else of a definition is changed by that, neither before nor after it is settled.
-/

namespace Phrasebook

open Text

/-- A program knows a number by its value, and writes that in decimal digits. -/
def numeral (word : String) : String :=
  if word.toList.head?.any Char.isDigit then
    match Embedded.Literal.read word.toList with
    | .integer value => toString value
    | _ => word
  else word

theorem isWord_numeral {word : String} (h : Script.IsWord word) : Script.IsWord (numeral word) := by
  unfold numeral
  split
  · split
    · next value _ =>
      have hlist : (toString value).toList = Nat.toDigits 10 value := by
        simp [Nat.toString_eq_repr, Nat.repr]
      refine ⟨fun hnil => ?_, fun c hc => ?_⟩
      · rw [← String.toList_eq_nil_iff, hlist] at hnil
        exact Nat.toDigits_ne_nil hnil
      · rw [hlist] at hc
        have hdigit := Nat.isDigit_of_mem_toDigits (by decide) (by decide) hc
        exact Embedded.Atom.isWordChar_of_isDigit hdigit
    · exact h
  · exact h

def KeyPart.renumber : KeyPart → KeyPart
  | literal name => literal (numeral name)
  | wildcard label => wildcard (label.map numeral)

def EntryKey.renumber (key : EntryKey) : EntryKey :=
  ⟨key.parts.map KeyPart.renumber⟩

def Draft.Entry.renumber (e : Draft.Entry) : Draft.Entry :=
  ⟨e.keys.map EntryKey.renumber, e.text⟩

def Draft.Body.renumber : Draft.Body → Draft.Body
  | template text => template text
  | entries es => entries (es.map Draft.Entry.renumber)
  | absent => absent

def Draft.renumber (d : Draft) : Draft :=
  { d with body := d.body.renumber }

def Entry.renumber (e : Entry) : Entry :=
  { e with keys := e.keys.map EntryKey.renumber }

def Body.renumber : Body → Body
  | template t => template t
  | entries es => entries (es.map Entry.renumber)

def Definition.renumber (d : Definition) : Definition :=
  { d with body := d.body.renumber }

theorem Definition.renumber_eq_self {d : Definition} :
    d.renumber = d ↔ d.body.renumber = d.body := by
  constructor
  · exact congrArg Definition.body
  · intro h
    rw [renumber, h]

/-! ### Settling -/

namespace Draft

theorem Entry.settle?_renumber (e : Draft.Entry) :
    e.renumber.settle? = e.settle?.map Phrasebook.Entry.renumber := by
  rw [settle?, settle?, Option.map_map]
  rfl

theorem Body.settle?_renumber (inherits : Option String) (b : Draft.Body) :
    b.renumber.settle? inherits = (b.settle? inherits).map Phrasebook.Body.renumber := by
  cases b with
  | template text =>
    rw [renumber, settle?, Option.map_map]
    rfl
  | entries es =>
    rw [renumber, settle?, settle?, List.mapM_map, Option.map_map,
      funext (f := Entry.settle? ∘ Entry.renumber) Entry.settle?_renumber, ← map_mapM,
      Option.map_map]
    rfl
  | absent =>
    rw [renumber, settle?, Option.map_map]
    rfl

theorem Body.renumber_eq_absent (b : Draft.Body) : (b.renumber == .absent) = (b == .absent) := by
  cases b <;> rfl

theorem settle?_renumber (d : Draft) : d.renumber.settle? = d.settle?.map Definition.renumber := by
  simp only [settle?, renumber, Body.settle?_renumber, Body.renumber_eq_absent]
  cases header? d.modifiers with
  | none => rfl
  | some header =>
    simp only [Option.bind_eq_bind, Option.bind_some]
    cases d.body.settle? header.inherits <;> rfl

/-- Numbers may be written anew before definitions are settled as well as after. -/
theorem mapM_settle?_renumber (drafts : List Draft) :
    (drafts.map renumber).mapM settle? =
      (drafts.mapM settle?).map (List.map Definition.renumber) := by
  rw [List.mapM_map, map_mapM]
  exact congrArg (List.mapM · drafts) (funext settle?_renumber)

end Draft

end Phrasebook
