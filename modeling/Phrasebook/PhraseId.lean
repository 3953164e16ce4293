/-!
Phrase ids: the hash of a phrase's name and the number of its parameters. An id names no language,
so that it can be stored and resolved later in any.
-/

namespace Phrasebook

/-- The 64-bit hash FNV-1a of the bytes of a name. -/
def nameHash (name : String) : UInt64 :=
  name.toUTF8.toList.foldl (fun hash byte => (hash ^^^ byte.toUInt64) * 0x100000001b3)
    0xcbf29ce484222325

structure PhraseId where
  hash : UInt64
  arity : UInt8
deriving DecidableEq, Repr

namespace PhraseId

def ofName (name : String) (arity : UInt8) : PhraseId :=
  ⟨nameHash name, arity⟩

/-- Sixteen hexadecimal digits. -/
def showHash (hash : UInt64) : String :=
  let digits := Nat.toDigits 16 hash.toNat
  String.ofList (List.replicate (16 - digits.length) '0' ++ digits)

protected def toString (id : PhraseId) : String :=
  let hash := showHash id.hash
  s!"PhraseId({hash})"

end PhraseId

end Phrasebook
