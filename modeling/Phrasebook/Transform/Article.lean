import Phrasebook.Transform.Basic

/-!
Articles, and prepositions contracted with them. They agree with the noun in gender and number, in
case where the language has cases, and with its first sound where that matters.
-/

namespace Phrasebook.Transform

/-! ### English and Dutch -/

/-- The indefinite article, which the noun's own tag spells. -/
def englishA : Transform := fun value _ _ => do
  let article ← choose "a" value [("a", "a"), ("an", "an")]
  return article ++ " " ++ value.shown

def englishThe : Transform := fun value _ _ =>
  .ok ("the " ++ value.shown)

/-- Dutch has two articles in the singular and one in the plural. -/
def dutchDe : Transform := fun value context setting => do
  let n ← number "de" context setting
  let article ← match n with
    | .singular => choose "de" value [("de", "de"), ("het", "het")]
    | .plural => .ok "de"
  return article ++ " " ++ form value [n.key]

/-- The plural has no indefinite article. -/
def dutchEen : Transform := fun value context setting => do
  let n ← number "een" context setting
  let noun := form value [n.key]
  return match n with
    | .singular => "een " ++ noun
    | .plural => noun

/-! ### Two genders: Spanish, Portuguese, French and Italian -/

/-- What a noun starts with: a vowel, an s before a consonant or the like, or anything else. -/
inductive Onset where
  | plain
  | impure
  | vowel
deriving DecidableEq, Repr

/-- A vowel counts before the rest. -/
def Onset.of (value : Value) : Onset :=
  if value.hasTag "vowel" then vowel else if value.hasTag "s_imp" then impure else plain

/-- The articles of one series, each with the space or apostrophe that follows it. -/
structure Articles where
  masc : Onset → String
  fem : Onset → String
  mascPlural : Onset → String
  femPlural : Onset → String

def Articles.article (a : Articles) (gender : Gender) (n : Number) : Onset → String :=
  match gender, n with
  | .fem, .singular => a.fem
  | .fem, .plural => a.femPlural
  | _, .singular => a.masc
  | _, .plural => a.mascPlural

def always (article : String) : Onset → String := fun _ => article

def eliding (article elided : String) : Onset → String
  | .vowel => elided
  | _ => article

def italianMasc (article impure elided : String) : Onset → String
  | .plain => article
  | .impure => impure
  | .vowel => elided

/-- Articles that do not heed the first sound. -/
def fixedArticles (masc fem mascPlural femPlural : String) : Articles :=
  ⟨always masc, always fem, always mascPlural, always femPlural⟩

/-- The article for the noun's gender and the context's number, and the noun in that number. -/
def gendered (transform : String) (articles : Articles) : Transform :=
  fun value context setting => do
    let n ← number transform context setting
    let gender ← choose transform value twoGenders
    return articles.article gender n (.of value) ++ form value [n.key]

def spanishEl : Transform := gendered "el" (fixedArticles "el " "la " "los " "las ")

def spanishUn : Transform := gendered "un" (fixedArticles "un " "una " "unos " "unas ")

def portugueseO : Transform := gendered "o" (fixedArticles "o " "a " "os " "as ")

def portugueseUm : Transform := gendered "um" (fixedArticles "um " "uma " "uns " "umas ")

/-- Contracted with the preposition `de`. -/
def portugueseDe : Transform := gendered "de" (fixedArticles "do " "da " "dos " "das ")

/-- Contracted with the preposition `em`. -/
def portugueseEm : Transform := gendered "em" (fixedArticles "no " "na " "nos " "nas ")

def frenchArticles (masc fem elided plural : String) : Articles :=
  ⟨eliding masc elided, eliding fem elided, always plural, always plural⟩

def frenchLe : Transform := gendered "le" (frenchArticles "le " "la " "l'" "les ")

def frenchUn : Transform := gendered "un" (fixedArticles "un " "une " "des " "des ")

/-- Contracted with the preposition `de`. -/
def frenchDe : Transform := gendered "de" (frenchArticles "du " "de la " "de l'" "des ")

/-- Contracted with the preposition `à`. -/
def frenchAu : Transform := gendered "au" (frenchArticles "au " "à la " "à l'" "aux ")

def italianArticles (masc : Onset → String) (fem elided plain other femPlural : String) :
    Articles :=
  ⟨masc, eliding fem elided, italianMasc plain other other, always femPlural⟩

def italianIl : Transform :=
  gendered "il" (italianArticles (italianMasc "il " "lo " "l'") "la " "l'" "i " "gli " "le ")

/-- The plural is the partitive. -/
def italianUn : Transform :=
  gendered "un"
    (italianArticles (italianMasc "un " "uno " "un ") "una " "un'" "dei " "degli " "delle ")

/-- Contracted with the preposition `di`. -/
def italianDi : Transform :=
  gendered "di"
    (italianArticles (italianMasc "del " "dello " "dell'") "della " "dell'" "dei " "degli "
      "delle ")

/-- Contracted with the preposition `a`. -/
def italianA : Transform :=
  gendered "a"
    (italianArticles (italianMasc "al " "allo " "all'") "alla " "all'" "ai " "agli " "alle ")

/-! ### Three genders and cases: German and Greek -/

inductive Case where
  | nom
  | acc
  | dat
  | gen
deriving DecidableEq, Repr

/-- The key of the forms in this case. -/
def Case.key : Case → String
  | nom => "nom"
  | acc => "acc"
  | dat => "dat"
  | gen => "gen"

def germanCases : List (String × Case) :=
  [("nom", .nom), ("acc", .acc), ("dat", .dat), ("gen", .gen)]

def greekCases : List (String × Case) :=
  [("nom", .nom), ("acc", .acc), ("gen", .gen)]

/-- The noun in a case and number: the form for both, or for either alone. -/
def declinedForm (value : Value) (c : Case) (n : Number) : String :=
  form value [c.key ++ "." ++ n.key, c.key, n.key]

/-- The article of a series, where it has one, and the declined noun. -/
def declined (transform : String) (cases : List (String × Case))
    (article : Case → Number → Gender → Option String) : Transform :=
  fun value context setting => do
    let (c, n) ← caseAndNumber transform .nom cases context setting
    let gender ← choose transform value threeGenders
    let noun := declinedForm value c n
    return match article c n gender with
      | some article => article ++ " " ++ noun
      | none => noun

def byGender (masc fem neut : String) : Gender → Option String
  | .masc => some masc
  | .fem => some fem
  | .neut => some neut

def germanDefinite : Case → Number → Gender → Option String
  | .nom, .singular => byGender "der" "die" "das"
  | .acc, .singular => byGender "den" "die" "das"
  | .dat, .singular => byGender "dem" "der" "dem"
  | .gen, .singular => byGender "des" "der" "des"
  | .nom, .plural => fun _ => some "die"
  | .acc, .plural => fun _ => some "die"
  | .dat, .plural => fun _ => some "den"
  | .gen, .plural => fun _ => some "der"

/-- The plural has no indefinite article. -/
def germanIndefinite : Case → Number → Gender → Option String
  | .nom, .singular => byGender "ein" "eine" "ein"
  | .acc, .singular => byGender "einen" "eine" "ein"
  | .dat, .singular => byGender "einem" "einer" "einem"
  | .gen, .singular => byGender "eines" "einer" "eines"
  | _, .plural => fun _ => none

def germanDer : Transform := declined "der" germanCases germanDefinite

def germanEin : Transform := declined "ein" germanCases germanIndefinite

/-- Greek has no dative, whose forms the genitive gives. -/
def greekDefinite : Case → Number → Gender → Option String
  | .nom, .singular => byGender "ο" "η" "το"
  | .acc, .singular => byGender "τον" "την" "το"
  | _, .singular => byGender "του" "της" "του"
  | .nom, .plural => byGender "οι" "οι" "τα"
  | .acc, .plural => byGender "τους" "τις" "τα"
  | _, .plural => byGender "των" "των" "των"

/-- The plural has no indefinite article. -/
def greekIndefinite : Case → Number → Gender → Option String
  | .nom, .singular => byGender "ένας" "μία" "ένα"
  | .acc, .singular => byGender "έναν" "μία" "ένα"
  | _, .singular => byGender "ενός" "μιας" "ενός"
  | _, .plural => fun _ => none

def greekO : Transform := declined "o" greekCases greekDefinite

def greekEnas : Transform := declined "enas" greekCases greekIndefinite

/-! ### Articles attached to the noun: Romanian and Arabic -/

/-- The definite ending of a Romanian noun. -/
def romanianEnding (gender : Gender) (n : Number) (noun : String) : String :=
  let last := noun.toList.getLast?
  match gender, n with
  | .fem, .singular =>
    if last = some 'ă' then String.ofList noun.toList.dropLast ++ "a"
    else if last = some 'a' then noun ++ "ua"
    else noun ++ "a"
  | _, .singular =>
    if last = some 'u' then noun ++ "l" else if last = some 'e' then noun ++ "le" else noun ++ "ul"
  | .masc, .plural => noun ++ "i"
  | _, .plural => noun ++ "le"

/-- A definite form that the noun brings along goes before the ending. -/
def romanianDef : Transform := fun value context setting => do
  let n ← number "def" context setting
  let explicit := value.phrase?.bind fun p =>
    ["def." ++ n.key, "def"].findSome? p.variants.lookup?
  match explicit with
  | some text => return text
  | none =>
    let gender ← choose "def" value threeGenders
    return romanianEnding gender n (form value [n.key])

def arabicArticle : String := "ال"

def shadda : Char := '\u0651'

/-- Before a sun letter the article assimilates, which doubles the letter. -/
def arabicAl : Transform := fun value _ _ => do
  let sun ← choose "al" value [("sun", true), ("moon", false)]
  match sun, value.shown.toList with
  | true, first :: rest => return arabicArticle ++ String.ofList (first :: shadda :: rest)
  | _, _ => return arabicArticle ++ value.shown

end Phrasebook.Transform
