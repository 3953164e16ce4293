import Phrasebook.Text.Casing
import Phrasebook.Text.Grapheme
import Phrasebook.Transform.Basic

/-!
Capital and small letters by the rules of a language. Scripts without case stay as they are.
-/

namespace Phrasebook.Transform

open Text

def casing (setting : Setting) : Casing.Rules :=
  match Language.parse? setting.language with
  | some language => .ofLanguage language.primary
  | none => .common

/-- Capitalises the first user-perceived character and leaves the rest alone. -/
def cap : Transform := fun value _ setting =>
  let (first, rest) := Grapheme.first value.shown.toList
  .ok (String.ofList (Casing.upper (casing setting) first ++ rest))

def upper : Transform := fun value _ setting =>
  .ok (String.ofList (Casing.upper (casing setting) value.shown.toList))

def lower : Transform := fun value _ setting =>
  .ok (String.ofList (Casing.lower (casing setting) value.shown.toList))

end Phrasebook.Transform
