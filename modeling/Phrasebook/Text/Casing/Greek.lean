import Phrasebook.Text.Casing.Classes
import Phrasebook.Text.Casing.Maps

/-!
Capital letters in Greek, which lose their accents. The diaeresis of a vowel stays, and one is added
where the accent that goes was all that kept two vowels apart; the accent itself stays on a word
that is a lone eta.
-/

namespace Phrasebook.Text.Casing

/-- A vowel with its marks, and the ranges of characters that stand for it in one piece. -/
structure VowelRow where
  vowel : Char
  accent : Bool
  diaeresis : Bool
  iota : Bool
  ranges : List (Nat × Nat)
deriving Repr

def vowelRows : List VowelRow :=
  [ ⟨'Α', false, false, false,
      [(0x391, 0x391), (0x3B1, 0x3B1), (0x1F00, 0x1F01), (0x1F08, 0x1F09), (0x1FB0, 0x1FB1),
       (0x1FB8, 0x1FB9)]⟩,
    ⟨'Α', false, false, true,
      [(0x1F80, 0x1F81), (0x1F88, 0x1F89), (0x1FB3, 0x1FB3), (0x1FBC, 0x1FBC)]⟩,
    ⟨'Α', true, false, false,
      [(0x386, 0x386), (0x3AC, 0x3AC), (0x1F02, 0x1F07), (0x1F0A, 0x1F0F), (0x1F70, 0x1F71),
       (0x1FB6, 0x1FB6), (0x1FBA, 0x1FBB)]⟩,
    ⟨'Α', true, false, true,
      [(0x1F82, 0x1F87), (0x1F8A, 0x1F8F), (0x1FB2, 0x1FB2), (0x1FB4, 0x1FB4), (0x1FB7, 0x1FB7)]⟩,
    ⟨'Ε', false, false, false,
      [(0x395, 0x395), (0x3B5, 0x3B5), (0x3F5, 0x3F5), (0x1F10, 0x1F11), (0x1F18, 0x1F19)]⟩,
    ⟨'Ε', true, false, false,
      [(0x388, 0x388), (0x3AD, 0x3AD), (0x1F12, 0x1F15), (0x1F1A, 0x1F1D), (0x1F72, 0x1F73),
       (0x1FC8, 0x1FC9)]⟩,
    ⟨'Η', false, false, false,
      [(0x397, 0x397), (0x3B7, 0x3B7), (0x1F20, 0x1F21), (0x1F28, 0x1F29)]⟩,
    ⟨'Η', false, false, true,
      [(0x1F90, 0x1F91), (0x1F98, 0x1F99), (0x1FC3, 0x1FC3), (0x1FCC, 0x1FCC)]⟩,
    ⟨'Η', true, false, false,
      [(0x389, 0x389), (0x3AE, 0x3AE), (0x1F22, 0x1F27), (0x1F2A, 0x1F2F), (0x1F74, 0x1F75),
       (0x1FC6, 0x1FC6), (0x1FCA, 0x1FCB)]⟩,
    ⟨'Η', true, false, true,
      [(0x1F92, 0x1F97), (0x1F9A, 0x1F9F), (0x1FC2, 0x1FC2), (0x1FC4, 0x1FC4), (0x1FC7, 0x1FC7)]⟩,
    ⟨'Ι', false, false, false,
      [(0x399, 0x399), (0x3B9, 0x3B9), (0x1F30, 0x1F31), (0x1F38, 0x1F39), (0x1FBE, 0x1FBE),
       (0x1FD0, 0x1FD1), (0x1FD8, 0x1FD9)]⟩,
    ⟨'Ι', false, true, false,
      [(0x3AA, 0x3AA), (0x3CA, 0x3CA)]⟩,
    ⟨'Ι', true, false, false,
      [(0x38A, 0x38A), (0x3AF, 0x3AF), (0x1F32, 0x1F37), (0x1F3A, 0x1F3F), (0x1F76, 0x1F77),
       (0x1FD6, 0x1FD6), (0x1FDA, 0x1FDB)]⟩,
    ⟨'Ι', true, true, false,
      [(0x390, 0x390), (0x1FD2, 0x1FD3), (0x1FD7, 0x1FD7)]⟩,
    ⟨'Ο', false, false, false,
      [(0x39F, 0x39F), (0x3BF, 0x3BF), (0x1F40, 0x1F41), (0x1F48, 0x1F49)]⟩,
    ⟨'Ο', true, false, false,
      [(0x38C, 0x38C), (0x3CC, 0x3CC), (0x1F42, 0x1F45), (0x1F4A, 0x1F4D), (0x1F78, 0x1F79),
       (0x1FF8, 0x1FF9)]⟩,
    ⟨'Υ', false, false, false,
      [(0x3A5, 0x3A5), (0x3C5, 0x3C5), (0x1F50, 0x1F51), (0x1F59, 0x1F59), (0x1FE0, 0x1FE1),
       (0x1FE8, 0x1FE9)]⟩,
    ⟨'Υ', false, true, false,
      [(0x3AB, 0x3AB), (0x3CB, 0x3CB)]⟩,
    ⟨'Υ', true, false, false,
      [(0x38E, 0x38E), (0x3CD, 0x3CD), (0x1F52, 0x1F57), (0x1F5B, 0x1F5B), (0x1F5D, 0x1F5D),
       (0x1F5F, 0x1F5F), (0x1F7A, 0x1F7B), (0x1FE6, 0x1FE6), (0x1FEA, 0x1FEB)]⟩,
    ⟨'Υ', true, true, false,
      [(0x3B0, 0x3B0), (0x1FE2, 0x1FE3), (0x1FE7, 0x1FE7)]⟩,
    ⟨'Ω', false, false, false,
      [(0x3A9, 0x3A9), (0x3C9, 0x3C9), (0x1F60, 0x1F61), (0x1F68, 0x1F69), (0x2126, 0x2126)]⟩,
    ⟨'Ω', false, false, true,
      [(0x1FA0, 0x1FA1), (0x1FA8, 0x1FA9), (0x1FF3, 0x1FF3), (0x1FFC, 0x1FFC)]⟩,
    ⟨'Ω', true, false, false,
      [(0x38F, 0x38F), (0x3CE, 0x3CE), (0x1F62, 0x1F67), (0x1F6A, 0x1F6F), (0x1F7C, 0x1F7D),
       (0x1FF6, 0x1FF6), (0x1FFA, 0x1FFB)]⟩,
    ⟨'Ω', true, false, true,
      [(0x1FA2, 0x1FA7), (0x1FAA, 0x1FAF), (0x1FF2, 0x1FF2), (0x1FF4, 0x1FF4), (0x1FF7, 0x1FF7)]⟩,
    ⟨'ϒ', false, false, false, [(0x3D2, 0x3D2)]⟩,
    ⟨'ϒ', true, false, false, [(0x3D3, 0x3D3)]⟩,
    ⟨'ϒ', false, true, false, [(0x3D4, 0x3D4)]⟩ ]

def vowelRow? (c : Char) : Option VowelRow :=
  vowelRows.find? fun row => within row.ranges c

def greekRanges : List (Nat × Nat) :=
  [(0x370, 0x373), (0x376, 0x377), (0x37A, 0x37D), (0x37F, 0x37F), (0x386, 0x386), (0x388, 0x38A),
   (0x38C, 0x38C), (0x38E, 0x3A1), (0x3A3, 0x3E1), (0x3F0, 0x3F5), (0x3F7, 0x3FF), (0x1F00, 0x1F15),
   (0x1F18, 0x1F1D), (0x1F20, 0x1F45), (0x1F48, 0x1F4D), (0x1F50, 0x1F57), (0x1F59, 0x1F59),
   (0x1F5B, 0x1F5B), (0x1F5D, 0x1F5D), (0x1F5F, 0x1F7D), (0x1F80, 0x1FB4), (0x1FB6, 0x1FBC),
   (0x1FBE, 0x1FBE), (0x1FC2, 0x1FC4), (0x1FC6, 0x1FCC), (0x1FD0, 0x1FD3), (0x1FD6, 0x1FDB),
   (0x1FE0, 0x1FEC), (0x1FF2, 0x1FF4), (0x1FF6, 0x1FFC), (0x2126, 0x2126)]

def isGreek (c : Char) : Bool :=
  within greekRanges c

def rhos : List Nat :=
  [0x3A1, 0x3C1, 0x1FE4, 0x1FE5, 0x1FEC]

/-- Accents, and marks that may pass for a circumflex. -/
def accents : List Nat :=
  [0x300, 0x301, 0x302, 0x303, 0x311, 0x342, 0x344]

def diaereses : List Nat :=
  [0x308, 0x344]

/-- Breathings and marks of length. -/
def otherMarks : List Nat :=
  [0x304, 0x306, 0x313, 0x314, 0x343]

def isIota (c : Char) : Bool :=
  c == '\u0345'

def isAccent (c : Char) : Bool :=
  accents.contains c.toNat

def isDiaeresis (c : Char) : Bool :=
  diaereses.contains c.toNat

def isMark (c : Char) : Bool :=
  isAccent c || isDiaeresis c || isIota c || otherMarks.contains c.toNat

/-- Do the characters before, the nearest first, reach a Greek letter through marks alone? -/
def afterGreek (before : List Char) : Bool :=
  match before.dropWhile fun c => isMark c && !isGreek c with
  | c :: _ => isGreek c
  | [] => false

/-- The nearest character that case rules do not look past has case. -/
def reachesCased (side : List Char) : Bool :=
  match side.dropWhile isIgnorable with
  | c :: _ => isCased c
  | [] => false

/-- The vowel just before, with the marks that follow it. An iota below the vowel hides it. -/
def vowelBefore? (before : List Char) : Option (VowelRow × List Char) :=
  match before.dropWhile fun c => isMark c && !isIota c with
  | c :: _ => (vowelRow? c).map fun row =>
      (row, before.takeWhile fun c => isMark c && !isIota c)
  | [] => none

/-- Whether an iota or upsilon without a diaeresis gains one, composed or as a mark of its own. It
is composed where the accent that goes was. -/
def gainedDiaeresis (before : List Char) : Bool × Bool :=
  match vowelBefore? before with
  | some (row, marks) =>
    if row.diaeresis || marks.any isDiaeresis then (false, false)
    else if marks.any isAccent then (false, true)
    else (row.accent, false)
  | none => (false, false)

/-- A letter with a diaeresis in one piece, where there is one. -/
def composed? : Char → Option Char
  | 'Ι' => some 'Ϊ'
  | 'Υ' => some 'Ϋ'
  | _ => none

/-- A vowel under its diaeresis. A composed one takes in any further mark of the kind. -/
def withDiaeresis (vowel : Char) (composes combines : Bool) : List Char :=
  match composed? vowel, composes with
  | some letter, true => [letter]
  | _, _ => vowel :: (if composes || combines then ['\u0308'] else [])

def capitalVowel (before : List Char) (row : VowelRow) (rest : List Char) : List Char :=
  let marks := rest.takeWhile isMark
  let marked := marks.any isDiaeresis
  if row.vowel == 'Η' && (row.accent || marks.any isAccent) && !row.iota && !marks.any isIota &&
      !reachesCased before && !reachesCased rest then
    (if row.accent then ['Ή'] else ['Η', '\u0301']) ++ (if marked then ['\u0308'] else [])
  else
    let (composes, combines) :=
      if row.diaeresis || marked then (row.diaeresis, marked)
      else if (composed? row.vowel).isSome then gainedDiaeresis before
      else (false, false)
    withDiaeresis row.vowel composes combines ++ (if row.iota then ['Ι'] else [])

/-- The capital form of one character among its neighbours, those before it the nearest first. -/
def greekUpper (before : List Char) (c : Char) (rest : List Char) : List Char :=
  if isMark c && !isIota c && afterGreek before then []
  else
    match vowelRow? c with
    | some row => capitalVowel before row rest
    | none => if rhos.contains c.toNat then ['Ρ'] else toUpper c

end Phrasebook.Text.Casing
