import Phrasebook.Language.Script

/-!
Plural categories of cardinal numbers: the rules of the Common Locale Data Repository, as far as
they concern whole numbers.
-/

namespace Phrasebook

inductive PluralCategory where
  | zero
  | one
  | two
  | few
  | many
  | other
deriving DecidableEq, Repr

namespace PluralCategory

/-- The category as a key of forms. -/
def key : PluralCategory → String
  | zero => "zero"
  | one => "one"
  | two => "two"
  | few => "few"
  | many => "many"
  | other => "other"

/-- In the order of the categories. -/
def all : List PluralCategory :=
  [zero, one, two, few, many, other]

end PluralCategory

/-- How a language counts. -/
abbrev Cardinal := Nat → PluralCategory

namespace Cardinal

open PluralCategory

/-- Whole millions have their own form in the Romance languages. -/
def wholeMillions (n : Nat) : Bool :=
  n != 0 && n % 1000000 == 0

def between (low high n : Nat) : Bool :=
  low ≤ n && n ≤ high

def onlyOther : Cardinal := fun _ => other

def oneIsOne : Cardinal := fun n => if n == 1 then one else other

def oneToOne : Cardinal := fun n => if n ≤ 1 then one else other

def romance : Cardinal := fun n =>
  if n == 1 then one else if wholeMillions n then many else other

def french : Cardinal := fun n =>
  if n ≤ 1 then one else if wholeMillions n then many else other

def romanian : Cardinal := fun n =>
  if n == 1 then one else if n == 0 || between 1 19 (n % 100) then few else other

def endsInOne (n : Nat) : Bool :=
  n % 10 == 1 && n % 100 != 11

def endsInFew (n : Nat) : Bool :=
  between 2 4 (n % 10) && !between 12 14 (n % 100)

def eastSlavic : Cardinal := fun n =>
  if endsInOne n then one else if endsInFew n then few else many

def southSlavic : Cardinal := fun n =>
  if endsInOne n then one else if endsInFew n then few else other

def polish : Cardinal := fun n =>
  if n == 1 then one else if endsInFew n then few else many

def czech : Cardinal := fun n =>
  if n == 1 then one else if between 2 4 n then few else other

def arabic : Cardinal := fun n =>
  if n == 0 then zero else if n == 1 then one else if n == 2 then two
  else if between 3 10 (n % 100) then few
  else if between 11 99 (n % 100) then many
  else other

def slovenian : Cardinal := fun n =>
  if n % 100 == 1 then one else if n % 100 == 2 then two
  else if between 3 4 (n % 100) then few
  else other

def lithuanian : Cardinal := fun n =>
  let teen := between 11 19 (n % 100)
  if n % 10 == 1 && !teen then one else if between 2 9 (n % 10) && !teen then few else other

def samogitian : Cardinal := fun n =>
  if endsInOne n then one else if n == 2 then two
  else if between 2 9 (n % 10) && !between 11 19 (n % 100) then few
  else other

def dual : Cardinal := fun n =>
  if n == 1 then one else if n == 2 then two else other

def latvian : Cardinal := fun n =>
  if n % 10 == 0 || between 11 19 (n % 100) then zero else if endsInOne n then one else other

def icelandic : Cardinal := fun n => if endsInOne n then one else other

def filipino : Cardinal := fun n =>
  if n % 10 == 4 || n % 10 == 6 || n % 10 == 9 then other else one

def zeroAndOne : Cardinal := fun n =>
  if n == 0 then zero else if n == 1 then one else other

def gaelic : Cardinal := fun n =>
  if n == 1 || n == 11 then one else if n == 2 || n == 12 then two
  else if between 3 10 n || between 13 19 n then few
  else other

def irish : Cardinal := fun n =>
  if n == 1 then one else if n == 2 then two else if between 3 6 n then few
  else if between 7 10 n then many
  else other

def maltese : Cardinal := fun n =>
  if n == 1 then one else if n == 2 then two
  else if n == 0 || between 3 10 (n % 100) then few
  else if between 11 19 (n % 100) then many
  else other

def breton : Cardinal := fun n =>
  let tens := n % 100 / 10
  let odd := tens == 1 || tens == 7 || tens == 9
  if n % 10 == 1 && !odd then one else if n % 10 == 2 && !odd then two
  else if (n % 10 == 3 || n % 10 == 4 || n % 10 == 9) && !odd then few
  else if wholeMillions n then many
  else other

def welsh : Cardinal := fun n =>
  if n == 0 then zero else if n == 1 then one else if n == 2 then two else if n == 3 then few
  else if n == 6 then many
  else other

/-- Languages by rule. -/
def table : List (Cardinal × List String) :=
  [ (oneIsOne,
      ["en", "de", "nl", "el", "tr", "fi", "af", "ast", "az", "bg", "brx", "chr", "da", "eo",
       "et", "eu", "fo", "gl", "ha", "hu", "ia", "ie", "ka", "kk", "ks", "ku", "ky", "lij", "ml",
       "mn", "mr", "nb", "ne", "nn", "no", "or", "pap", "ps", "rm", "sc", "sd", "so", "sq", "st",
       "sv", "sw", "syr", "ta", "te", "tk", "tn", "ug", "ur", "uz", "xh"]),
    (romance, ["it", "es", "ca", "lld", "scn", "vec"]),
    (french, ["fr", "pt", "ht"]),
    (oneToOne,
      ["hi", "vi", "ak", "am", "as", "bho", "bn", "csw", "doi", "fa", "gu", "hy", "kn", "kok",
       "nso", "pa", "pcm", "si", "ti", "zu"]),
    (romanian, ["ro"]),
    (eastSlavic, ["ru", "uk", "be"]),
    (southSlavic, ["hr", "bs", "sr"]),
    (polish, ["pl"]),
    (czech, ["cs", "sk"]),
    (arabic, ["ar"]),
    (slovenian, ["sl", "dsb", "hsb"]),
    (lithuanian, ["lt"]),
    (samogitian, ["sgs"]),
    (dual, ["he", "sat"]),
    (latvian, ["lv", "prg"]),
    (icelandic, ["is", "mk"]),
    (filipino, ["ceb", "fil"]),
    (zeroAndOne, ["blo", "cv"]),
    (gaelic, ["gd"]),
    (irish, ["ga"]),
    (maltese, ["mt"]),
    (breton, ["br"]),
    (welsh, ["cy"]) ]

/-- Languages in an unusual script that have a rule all the same. -/
def unusual : List ((String × String) × Cardinal) :=
  [(("hi", "latn"), oneIsOne), (("kok", "latn"), oneToOne)]

/-- Regions that count as European Portuguese does. -/
def europeanPortuguese : List String :=
  ["pt", "ao", "ch", "cv", "fr", "gq", "gw", "lu", "mo", "mz", "st", "tl"]

/-- A region has the rule of its language, with one exception. -/
def regional (primary : String) (region : Option String) : Cardinal :=
  if primary = "pt" ∧ region.any europeanPortuguese.contains then romance
  else
    match table.find? fun row => row.2.contains primary with
    | some row => row.1
    | none => onlyOther

/-- A language that is not listed has a single category, and so has one in an unusual script. -/
def ofLanguage (l : Language) : Cardinal :=
  if l.isUsuallyWritten then regional l.primary l.region
  else ((l.script.bind fun script => unusual.lookup (l.primary, script))).getD onlyOther

end Cardinal

/-- The category of a number in the language of a tag. A tag that names no language has a single
category. -/
def cardinalCategory (tag : String) (n : Int64) : PluralCategory :=
  match Language.ofTag? tag with
  | some language => Cardinal.ofLanguage language n.toInt.natAbs
  | none => .other

/-- The rules of the language, or rules of the caller's own. -/
inductive PluralRule where
  | standard
  | custom (rule : Int64 → PluralCategory)

def PluralRule.category (rule : PluralRule) (tag : String) (n : Int64) : PluralCategory :=
  match rule with
  | standard => cardinalCategory tag n
  | custom rule => rule n

end Phrasebook
