import Phrasebook.Dictionary
import Phrasebook.Transform.Article
import Phrasebook.Transform.Capital
import Phrasebook.Transform.Form

/-!
The transforms that languages bring along, under the names that templates call them by, and the
registries that hold the transforms of one locale.
-/

namespace Phrasebook

/-- The built-in transforms. -/
inductive Builtin where
  | cap
  | upper
  | lower
  | englishA
  | englishThe
  | englishPlural
  | spanishEl
  | spanishUn
  | portugueseO
  | portugueseUm
  | portugueseDe
  | portugueseEm
  | frenchLe
  | frenchUn
  | frenchDe
  | frenchAu
  | germanDer
  | germanEin
  | dutchDe
  | dutchEen
  | italianIl
  | italianUn
  | italianDi
  | italianA
  | greekO
  | greekEnas
  | romanianDef
  | arabicAl
  | chineseCount
  | japaneseCount
  | koreanCount
  | koreanParticle
  | vietnameseCount
  | thaiCount
  | turkishInflect
  | finnishInflect
  | hindiKa
  | hindiKo
  | hindiSe
  | hindiMe
  | hindiPar
  | hindiNe
deriving DecidableEq, Repr

namespace Builtin

/-- The names that every language knows. -/
def universal : List (String × Builtin) :=
  [("cap", .cap), ("upper", .upper), ("lower", .lower)]

/-- Further names by primary language; several may call the same transform. -/
def table : List (String × List (String × Builtin)) :=
  [ ("en",
      [("a", .englishA), ("an", .englishA), ("the", .englishThe), ("plural", .englishPlural)]),
    ("es", [("el", .spanishEl), ("la", .spanishEl), ("un", .spanishUn), ("una", .spanishUn)]),
    ("pt",
      [("o", .portugueseO), ("a", .portugueseO), ("um", .portugueseUm), ("uma", .portugueseUm),
      ("de", .portugueseDe), ("em", .portugueseEm)]),
    ("fr",
      [("le", .frenchLe), ("la", .frenchLe), ("un", .frenchUn), ("une", .frenchUn),
      ("de", .frenchDe), ("au", .frenchAu)]),
    ("de",
      [("der", .germanDer), ("die", .germanDer), ("das", .germanDer), ("ein", .germanEin),
      ("eine", .germanEin)]),
    ("nl", [("de", .dutchDe), ("het", .dutchDe), ("een", .dutchEen)]),
    ("it",
      [("il", .italianIl), ("lo", .italianIl), ("la", .italianIl), ("un", .italianUn),
      ("uno", .italianUn), ("una", .italianUn), ("di", .italianDi), ("a", .italianA)]),
    ("el",
      [("o", .greekO), ("i", .greekO), ("to", .greekO), ("enas", .greekEnas), ("mia", .greekEnas),
      ("ena", .greekEnas)]),
    ("ro", [("def", .romanianDef)]),
    ("ar", [("al", .arabicAl)]),
    ("zh", [("count", .chineseCount)]),
    ("ja", [("count", .japaneseCount)]),
    ("ko", [("count", .koreanCount), ("particle", .koreanParticle)]),
    ("vi", [("count", .vietnameseCount)]),
    ("th", [("count", .thaiCount)]),
    ("tr", [("inflect", .turkishInflect)]),
    ("fi", [("inflect", .finnishInflect)]),
    ("hi",
      [("ka", .hindiKa), ("ki", .hindiKa), ("ke", .hindiKa), ("ko", .hindiKo), ("se", .hindiSe),
      ("me", .hindiMe), ("par", .hindiPar), ("ne", .hindiNe)]) ]

/-- The names of a language, the universal ones first. -/
def named (language : String) : List (String × Builtin) :=
  universal ++ (table.lookup language).getD []

def names (language : String) : List String :=
  (named language).map Prod.fst

def resolve? (name language : String) : Option Builtin :=
  (named language).lookup name

def transform : Builtin → Transform
  | cap => Transform.cap
  | upper => Transform.upper
  | lower => Transform.lower
  | englishA => Transform.englishA
  | englishThe => Transform.englishThe
  | englishPlural => Transform.englishPlural
  | spanishEl => Transform.spanishEl
  | spanishUn => Transform.spanishUn
  | portugueseO => Transform.portugueseO
  | portugueseUm => Transform.portugueseUm
  | portugueseDe => Transform.portugueseDe
  | portugueseEm => Transform.portugueseEm
  | frenchLe => Transform.frenchLe
  | frenchUn => Transform.frenchUn
  | frenchDe => Transform.frenchDe
  | frenchAu => Transform.frenchAu
  | germanDer => Transform.germanDer
  | germanEin => Transform.germanEin
  | dutchDe => Transform.dutchDe
  | dutchEen => Transform.dutchEen
  | italianIl => Transform.italianIl
  | italianUn => Transform.italianUn
  | italianDi => Transform.italianDi
  | italianA => Transform.italianA
  | greekO => Transform.greekO
  | greekEnas => Transform.greekEnas
  | romanianDef => Transform.romanianDef
  | arabicAl => Transform.arabicAl
  | chineseCount => Transform.chineseCount
  | japaneseCount => Transform.japaneseCount
  | koreanCount => Transform.koreanCount
  | koreanParticle => Transform.koreanParticle
  | vietnameseCount => Transform.vietnameseCount
  | thaiCount => Transform.thaiCount
  | turkishInflect => Transform.turkishInflect
  | finnishInflect => Transform.finnishInflect
  | hindiKa => Transform.hindiKa
  | hindiKo => Transform.hindiKo
  | hindiSe => Transform.hindiSe
  | hindiMe => Transform.hindiMe
  | hindiPar => Transform.hindiPar
  | hindiNe => Transform.hindiNe

end Builtin

/-- The transforms of one locale, by name. -/
structure Registry where
  transforms : Dictionary Transform

namespace Registry

def empty : Registry := ⟨.empty⟩

def register (r : Registry) (name : String) (transform : Transform) : Registry :=
  ⟨r.transforms.insert name transform⟩

def registerAll (r : Registry) (transforms : List (String × Transform)) : Registry :=
  ⟨r.transforms.insertAll transforms⟩

/-- The built-in transforms of a language, each under all its names. -/
def forLanguage (language : String) : Registry :=
  empty.registerAll ((Builtin.named language).map fun entry => (entry.1, entry.2.transform))

def get? (r : Registry) (name : String) : Option Transform :=
  r.transforms.get? name

def contains (r : Registry) (name : String) : Bool :=
  r.transforms.contains name

def names (r : Registry) : List String :=
  r.transforms.keys

def apply (r : Registry) (name : String) : Transform := fun value context setting =>
  match r.get? name with
  | some transform => transform value context setting
  | none => .error (.unknownTransform name)

end Registry

end Phrasebook
