import Phrasebook.TagSet
import Phrasebook.VariantTable

/-!
Rendered phrases: a text, with the other forms and the grammatical tags that let it agree with the
phrases around it.
-/

namespace Phrasebook

structure Phrase where
  text : String
  variants : VariantTable
  tags : TagSet
deriving DecidableEq, Repr

namespace Phrase

def ofText (text : String) : Phrase :=
  ⟨text, .empty, .empty⟩

/-- The form for a key; a phrase with a single form has it for every key. -/
def variant (p : Phrase) (key : String) : String :=
  (p.variants.get? key).getD p.text

def hasTag (p : Phrase) (tag : String) : Bool :=
  p.tags.contains tag

def firstTag? (p : Phrase) : Option String :=
  p.tags.first?

def withText (p : Phrase) (text : String) : Phrase :=
  { p with text }

/-- Joins texts, and the forms under the keys that all the phrases have. Without a form for `other`
among them the result has no variants, and it never has tags. -/
def join (phrases : List Phrase) (separator : String) : Phrase :=
  match phrases with
  | [] => ofText ""
  | first :: rest =>
    let shared := first.variants.keys.filter fun key =>
      rest.all fun p => (p.variants.lookup? key).isSome
    let forms := shared.map fun key =>
      (key, separator.intercalate (phrases.map fun p => (p.variants.lookup? key).getD ""))
    let variants := match VariantTable.ofForms forms with
      | .ok table => table
      | .error _ => .empty
    ⟨separator.intercalate (phrases.map Phrase.text), variants, .empty⟩

end Phrase

end Phrasebook
