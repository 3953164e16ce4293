/-!
Dotted texts, such as the keys of variants: a text is cut at every dot, and the pieces joined by
dots give the text back.
-/

namespace Phrasebook.Text

/-- The pieces between separators: one more than there are separators. -/
def cutAll (separator : Char) : List Char → List (List Char)
  | [] => [[]]
  | c :: rest =>
    if c = separator then [] :: cutAll separator rest
    else
      match cutAll separator rest with
      | [] => [[c]]
      | piece :: pieces => (c :: piece) :: pieces

/-- What stands before the first separator, and what stands behind it if there is one. -/
def cutFirst (separator : Char) : List Char → List Char × Option (List Char)
  | [] => ([], none)
  | c :: rest =>
    if c = separator then ([], some rest)
    else
      let (head, tail) := cutFirst separator rest
      (c :: head, tail)

def segments (key : String) : List String :=
  (cutAll '.' key.toList).map String.ofList

def joinSegments (pieces : List String) : String :=
  ".".intercalate pieces

def lastSegment (key : String) : String :=
  (segments key).getLast?.getD key

theorem cutAll_ne_nil (separator : Char) (text : List Char) : cutAll separator text ≠ [] := by
  induction text with
  | nil => simp [cutAll]
  | cons c rest ih =>
    unfold cutAll
    split
    · simp
    · split <;> simp

end Phrasebook.Text
