import Phrasebook.Phrase
import Phrasebook.Text.Blank
import Phrasebook.Text.Integer

/-!
Values, which phrases take as arguments: integers, texts and other phrases.
-/

namespace Phrasebook

open Text

inductive Value where
  | number (n : Int64)
  | text (content : String)
  | phrase (p : Phrase)
deriving DecidableEq, Repr

namespace Value

/-- A count too large for an integer is kept as its digits. -/
def ofCount (n : UInt64) : Value :=
  match int64? n.toNat with
  | some n => number n
  | none => text (toString n.toNat)

def shown : Value → String
  | number n => showInteger n
  | text content => content
  | phrase p => p.text

def number? : Value → Option Int64
  | number n => some n
  | _ => none

def text? : Value → Option String
  | text content => some content
  | _ => none

def phrase? : Value → Option Phrase
  | phrase p => some p
  | _ => none

/-- The value as an integer: a number, or a text that spells one between blanks. -/
def numeric? : Value → Option Int64
  | number n => some n
  | text content => integer? (trim content.toList)
  | phrase _ => none

def tags : Value → TagSet
  | phrase p => p.tags
  | _ => .empty

def hasTag (v : Value) (tag : String) : Bool :=
  v.tags.contains tag

/-- The form of a phrase for a key; other values are the same for every key. -/
def variantText (v : Value) (key : String) : String :=
  match v with
  | phrase p => p.variant key
  | v => v.shown

end Value

end Phrasebook
