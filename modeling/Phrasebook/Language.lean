import Phrasebook.Text.Segment

/-!
Language identifiers: a language, then a script, a region and variants, all but the first optional,
joined by hyphens and without regard to case. A language tag may carry extensions besides.
-/

namespace Phrasebook

open Text

structure Language where
  /-- The language itself, in small letters. -/
  primary : String
  script : Option String
  region : Option String
  variants : List String
deriving DecidableEq, Repr

namespace Language

def lower (subtag : List Char) : String :=
  String.ofList (subtag.map Char.toLower)

def isPrimary (subtag : List Char) : Bool :=
  subtag.all Char.isAlpha && (subtag.length == 2 || subtag.length == 3)

def isScript (subtag : List Char) : Bool :=
  subtag.all Char.isAlpha && subtag.length == 4

def isRegion (subtag : List Char) : Bool :=
  (subtag.all Char.isAlpha && subtag.length == 2) ||
    (subtag.all Char.isDigit && subtag.length == 3)

def isVariant (subtag : List Char) : Bool :=
  subtag.all Char.isAlphanum &&
    ((5 ≤ subtag.length && subtag.length ≤ 8) ||
      (subtag.length == 4 && (subtag.head?.map Char.isDigit).getD false))

/-- Takes the front subtag if it is of the kind. -/
def take? (kind : List Char → Bool) : List (List Char) → Option String × List (List Char)
  | subtag :: rest => if kind subtag then (some (lower subtag), rest) else (none, subtag :: rest)
  | [] => (none, [])

/-- Reads subtags. A variant stands only once. -/
def ofSubtags? : List (List Char) → Option Language
  | [] => none
  | primary :: rest =>
    let (script, rest) := take? isScript rest
    let (region, rest) := take? isRegion rest
    let variants := rest.map lower
    if isPrimary primary ∧ rest.all isVariant ∧ variants.Nodup then
      some ⟨lower primary, script, region, variants⟩
    else none

def parse? (tag : String) : Option Language :=
  ofSubtags? (cutAll '-' tag.toList)

/-! ### Extensions -/

def isAlnum (least most : Nat) (subtag : List Char) : Bool :=
  subtag.all Char.isAlphanum && least ≤ subtag.length && subtag.length ≤ most

def isSingleton (subtag : List Char) : Bool :=
  subtag.length == 1

/-- The subtags up to the next single character, and those from there on. -/
def untilSingleton (subtags : List (List Char)) : List (List Char) × List (List Char) :=
  (subtags.takeWhile (!isSingleton ·), subtags.dropWhile (!isSingleton ·))

def isKey (subtag : List Char) : Bool :=
  match subtag with
  | [a, b] => a.isAlphanum && b.isAlpha
  | _ => false

def isField (subtag : List Char) : Bool :=
  match subtag with
  | [a, b] => a.isAlpha && b.isDigit
  | _ => false

/-- Fields of a transform extension: each has a value. -/
def areFields : List (List Char) → Bool
  | [] => true
  | field :: value :: rest =>
    isField field && isAlnum 3 8 value && areFields (rest.dropWhile (isAlnum 3 8))
  | [_] => false
termination_by subtags => subtags.length
decreasing_by
  have := (List.dropWhile_suffix (isAlnum 3 8) (l := rest)).length_le
  simp only [List.length_cons]
  omega

def isExtension (singleton : Char) (subtags : List (List Char)) : Bool :=
  !subtags.isEmpty &&
    match singleton with
    | 'u' => subtags.all fun subtag => isKey subtag || isAlnum 3 8 subtag
    | 't' =>
      let source := subtags.takeWhile (!isField ·)
      let fields := subtags.dropWhile (!isField ·)
      (source.isEmpty || (ofSubtags? source).isSome) && areFields fields
    | c => c.isAlphanum && subtags.all (isAlnum 2 8)

/-- Extensions behind an identifier, no two of one kind; private use takes all that follows. -/
def areExtensions (seen : List Char) : List (List Char) → Bool
  | [] => true
  | singleton :: rest =>
    match singleton.map Char.toLower with
    | ['x'] => !rest.isEmpty && rest.all (isAlnum 1 8)
    | [c] =>
      have := (List.dropWhile_suffix (!isSingleton ·) (l := rest)).length_le
      !seen.contains c && isExtension c (untilSingleton rest).1 &&
        areExtensions (c :: seen) (untilSingleton rest).2
    | _ => false
termination_by subtags => subtags.length
decreasing_by
  simp only [untilSingleton, List.length_cons]
  omega

/-- The identifier of a language tag, which may have extensions. -/
def ofTag? (tag : String) : Option Language :=
  let (subtags, extensions) := untilSingleton (cutAll '-' tag.toList)
  if areExtensions [] extensions then ofSubtags? subtags else none

end Language

end Phrasebook
