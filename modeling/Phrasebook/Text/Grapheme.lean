import Phrasebook.Text.Casing.Classes
import Phrasebook.Text.Grapheme.Classes

/-!
User-perceived characters, which are the extended grapheme clusters of Unicode: a letter with its
marks, a syllable of Hangul, a flag, or pictographs that joiners bind together.
-/

namespace Phrasebook.Text.Grapheme

open Casing (within)

inductive Break where
  | carriageReturn
  | lineFeed
  | control
  | extend
  | joiner
  | flag
  | prepend
  | spacing
  | leading
  | vowel
  | trailing
  | openSyllable
  | closedSyllable
  | any
deriving DecidableEq, Repr

/-- Hangul letters and syllables. -/
def hangul? (n : Nat) : Option Break :=
  if 0x1100 ≤ n ∧ n ≤ 0x115F ∨ 0xA960 ≤ n ∧ n ≤ 0xA97C then some .leading
  else if 0x1160 ≤ n ∧ n ≤ 0x11A7 ∨ 0xD7B0 ≤ n ∧ n ≤ 0xD7C6 then some .vowel
  else if 0x11A8 ≤ n ∧ n ≤ 0x11FF ∨ 0xD7CB ≤ n ∧ n ≤ 0xD7FB then some .trailing
  else if 0xAC00 ≤ n ∧ n ≤ 0xD7A3 then
    some (if (n - 0xAC00) % 28 = 0 then .openSyllable else .closedSyllable)
  else none

def Break.of (c : Char) : Break :=
  if c = '\r' then .carriageReturn
  else if c = '\n' then .lineFeed
  else if c = '\u200d' then .joiner
  else if 0x1F1E6 ≤ c.toNat ∧ c.toNat ≤ 0x1F1FF then .flag
  else
    match hangul? c.toNat with
    | some kind => kind
    | none =>
      if within controlRanges c then .control
      else if within extendRanges c then .extend
      else if within spacingRanges c then .spacing
      else if within prependRanges c then .prepend
      else .any

def isPictograph (c : Char) : Bool :=
  within pictographRanges c

/-- A mark that keeps consonants apart. -/
def nonJoiner : Char := '\u200c'

/-- What the characters of a cluster so far let the next one do. -/
structure Progress where
  last : Break
  /-- An odd number of flag letters stands at the end. -/
  openFlag : Bool
  /-- A pictograph and its marks stand at the end, and a joiner if `joined`. -/
  pictograph : Bool
  joined : Bool
  /-- A consonant and marks stand at the end, a linking one among them if `linked`. -/
  consonant : Bool
  linked : Bool
deriving Repr

def Progress.start (c : Char) : Progress where
  last := .of c
  openFlag := Break.of c == .flag
  pictograph := isPictograph c
  joined := false
  consonant := within consonantRanges c
  linked := false

def Progress.next (p : Progress) (c : Char) : Progress :=
  let kind := Break.of c
  let mark := kind == .extend || kind == .joiner
  let bound := mark && c != nonJoiner
  { last := kind
    openFlag := kind == .flag && !p.openFlag
    pictograph := isPictograph c || p.pictograph && !p.joined && mark
    joined := p.pictograph && !p.joined && kind == .joiner
    consonant := within consonantRanges c || p.consonant && bound
    linked := p.consonant && bound && (p.linked || linkers.contains c.toNat) }

def isHard (b : Break) : Bool :=
  b == .carriageReturn || b == .lineFeed || b == .control

/-- The joints inside a syllable of Hangul. -/
def isSyllable : Break → Break → Bool
  | .leading, next =>
    next == .leading || next == .vowel || next == .openSyllable || next == .closedSyllable
  | .openSyllable, next => next == .vowel || next == .trailing
  | .vowel, next => next == .vowel || next == .trailing
  | .closedSyllable, next => next == .trailing
  | .trailing, next => next == .trailing
  | _, _ => false

/-- Does the next character belong to the cluster? -/
def Progress.holds (p : Progress) (c : Char) : Bool :=
  let kind := Break.of c
  if p.last == .carriageReturn && kind == .lineFeed then true
  else if isHard p.last || isHard kind then false
  else
    isSyllable p.last kind || kind == .extend || kind == .joiner || kind == .spacing ||
      p.last == .prepend || (p.linked && within consonantRanges c) ||
      (p.joined && isPictograph c) || (p.openFlag && kind == .flag)

def split (p : Progress) : List Char → List Char × List Char
  | [] => ([], [])
  | c :: rest =>
    if p.holds c then
      let (inside, after) := split (p.next c) rest
      (c :: inside, after)
    else ([], c :: rest)

/-- The first cluster of a text, and what follows it. -/
def first : List Char → List Char × List Char
  | [] => ([], [])
  | c :: rest =>
    let (inside, after) := split (.start c) rest
    (c :: inside, after)

end Phrasebook.Text.Grapheme
