import Phrasebook.Text.Casing.Greek

/-!
Capital and small letters of whole texts: the case maps of Unicode, with the rules of Turkish,
Lithuanian, Armenian and Greek, and the sigma that ends a word.
-/

namespace Phrasebook.Text.Casing

/-- The languages with case rules of their own. -/
inductive Rules where
  | common
  | turkic
  | lithuanian
  | greek
  | armenian
deriving DecidableEq, Repr

/-- By primary language. -/
def Rules.ofLanguage : String → Rules
  | "tr" => .turkic
  | "az" => .turkic
  | "lt" => .lithuanian
  | "el" => .greek
  | "hy" => .armenian
  | _ => .common

/-- Maps each character among its neighbours; those before it stand the nearest first. -/
def mapInContext (f : List Char → Char → List Char → List Char) (before : List Char) :
    List Char → List Char
  | [] => []
  | c :: rest => f before c rest ++ mapInContext f (c :: before) rest

/-- The character nearest by, marks that stand elsewhere than above aside. -/
def nearest? (side : List Char) : Option Char :=
  (side.dropWhile isElsewhere).head?

def followsSoftDotted (before : List Char) : Bool :=
  ((nearest? before).map isSoftDotted).getD false

def hasMoreAbove (rest : List Char) : Bool :=
  ((nearest? rest).map isAbove).getD false

def dotAbove : Char := '\u0307'

def hasDotAbove (rest : List Char) : Bool :=
  (rest.dropWhile fun c => isElsewhere c && c != dotAbove).head? == some dotAbove

def upperChar (rules : Rules) (before : List Char) (c : Char) (rest : List Char) : List Char :=
  match rules with
  | .greek => greekUpper before c rest
  | .turkic => if c = 'i' then ['İ'] else toUpper c
  | .lithuanian => if c = dotAbove ∧ followsSoftDotted before then [] else toUpper c
  | .armenian => if c = 'և' then ['Ե', 'Վ'] else toUpper c
  | .common => toUpper c

/-- The sigma at the end of a word. -/
def isFinalSigma (before : List Char) (c : Char) (rest : List Char) : Bool :=
  c == 'Σ' && reachesCased before && !reachesCased rest

def lowerTurkic (before : List Char) (c : Char) (rest : List Char) : List Char :=
  if c = 'İ' then ['i']
  else if c = dotAbove ∧ nearest? before = some 'I' then []
  else if c = 'I' then (if hasDotAbove rest then ['i'] else ['ı'])
  else toLower c

/-- The dot of a small letter is written out where another mark stands above it. -/
def lowerLithuanian (c : Char) (rest : List Char) : List Char :=
  match c with
  | 'Ì' => ['i', dotAbove, '\u0300']
  | 'Í' => ['i', dotAbove, '\u0301']
  | 'Ĩ' => ['i', dotAbove, '\u0303']
  | c =>
    if (c = 'I' ∨ c = 'J' ∨ c = 'Į') ∧ hasMoreAbove rest then toLower c ++ [dotAbove]
    else toLower c

def lowerChar (rules : Rules) (before : List Char) (c : Char) (rest : List Char) : List Char :=
  if isFinalSigma before c rest then ['ς']
  else
    match rules with
    | .turkic => lowerTurkic before c rest
    | .lithuanian => lowerLithuanian c rest
    | _ => toLower c

def upper (rules : Rules) (text : List Char) : List Char :=
  mapInContext (upperChar rules) [] text

def lower (rules : Rules) (text : List Char) : List Char :=
  mapInContext (lowerChar rules) [] text

end Phrasebook.Text.Casing
