import Phrasebook.PhraseId
import Phrasebook.Text.Json

/-!
The stored form of phrase ids: a JSON object with the fields `hash` and `arity`. Reading takes the
fields in any order, passes over unknown ones, and accepts the two numbers in an array.
-/

namespace Phrasebook.PhraseId

open Text

def encode (id : PhraseId) : String :=
  let hash := toString id.hash.toNat
  let arity := toString id.arity.toNat
  "\x7b\"hash\":" ++ hash ++ ",\"arity\":" ++ arity ++ "\x7d"

def ofNumbers? : Json → Json → Option PhraseId
  | .whole hash, .whole arity =>
    if hash < UInt64.size ∧ arity < UInt8.size then
      some ⟨UInt64.ofNat hash, UInt8.ofNat arity⟩
    else none
  | _, _ => none

/-- The value of a field that stands exactly once. -/
def field? (name : String) (fields : List (Option String × Json)) : Option Json :=
  match fields.filter fun field => field.1 == some name with
  | [field] => some field.2
  | _ => none

def ofJson? : Json → Option PhraseId
  | .object fields => do
    if fields.any fun field => field.1.isNone then none
    ofNumbers? (← field? "hash" fields) (← field? "arity" fields)
  | .array [hash, arity] => ofNumbers? hash arity
  | _ => none

def decode? (text : String) : Option PhraseId :=
  (Json.parse? text).bind ofJson?

end Phrasebook.PhraseId
