import Phrasebook.Language

/-!
The scripts that languages are written in. A tag that names the usual script of its language means
the same as one that names none; in some regions a language is written in another script, which
tags leave out as well.
-/

namespace Phrasebook.Language

/-- Languages whose usual script is not Latin, by script. -/
def scripts : List (String × List String) :=
  [ ("arab", ["ar", "fa", "ks", "ps", "sd", "ug", "ur"]),
    ("armn", ["hy"]),
    ("beng", ["as", "bn"]),
    ("cans", ["csw"]),
    ("cher", ["chr"]),
    ("cyrl", ["be", "bg", "cv", "kk", "ky", "mk", "mn", "ru", "sr", "uk"]),
    ("deva", ["bho", "brx", "doi", "hi", "kok", "mr", "ne"]),
    ("ethi", ["am", "ti"]),
    ("geor", ["ka"]),
    ("grek", ["el"]),
    ("gujr", ["gu"]),
    ("guru", ["pa"]),
    ("hans", ["zh"]),
    ("hebr", ["he"]),
    ("jpan", ["ja"]),
    ("knda", ["kn"]),
    ("kore", ["ko"]),
    ("mlym", ["ml"]),
    ("olck", ["sat"]),
    ("orya", ["or"]),
    ("sinh", ["si"]),
    ("syrc", ["syr"]),
    ("taml", ["ta"]),
    ("telu", ["te"]),
    ("thai", ["th"]) ]

def usualScript (primary : String) : String :=
  ((scripts.find? fun row => row.2.contains primary).map Prod.fst).getD "latn"

/-- Regions where a language is written in another script than its usual one. -/
def otherwiseWritten : List (String × List String) :=
  [ ("az", ["iq", "ir", "ru"]),
    ("ha", ["cm", "sd"]),
    ("kk", ["af", "cn", "ir", "mn"]),
    ("ku", ["am", "az", "ge", "iq", "ir", "lb", "tm"]),
    ("ky", ["cn", "tr"]),
    ("mn", ["cn"]),
    ("pa", ["pk"]),
    ("sd", ["in"]),
    ("sr", ["me", "ro", "tr"]),
    ("ug", ["kz", "mn"]),
    ("uz", ["af", "cn"]) ]

def isOtherwiseWritten (l : Language) : Bool :=
  match otherwiseWritten.lookup l.primary, l.region with
  | some regions, some region => regions.contains region
  | _, _ => false

/-- The usual script, named or not, in a region that uses it. -/
def isUsuallyWritten (l : Language) : Bool :=
  !l.isOtherwiseWritten && l.script.all (· == usualScript l.primary)

end Phrasebook.Language
