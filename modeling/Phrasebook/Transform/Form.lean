import Phrasebook.Text.Segment
import Phrasebook.Transform.Basic

/-!
Transforms that add to a word or choose among its forms: the English plural, counting with measure
words, particles and case endings, and postpositions.
-/

namespace Phrasebook.Transform

open Text

/-- The form for `other`, for the category of an integer, or for a key. -/
def englishPlural : Transform := fun value context setting =>
  .ok <| value.variantText <|
    match context with
    | none => "other"
    | some text =>
      match integer? text.toList with
      | some n => (setting.category n).key
      | none => text

/-! ### Measure words -/

def chineseMeasures : List (String × String) :=
  [("zhang", "张"), ("ge", "个"), ("ming", "名"), ("wei", "位"), ("tiao", "条"), ("ben", "本"),
   ("zhi", "只")]

def japaneseMeasures : List (String × String) :=
  [("mai", "枚"), ("nin", "人"), ("hiki", "匹"), ("hon", "本"), ("ko", "個"), ("satsu", "冊")]

def koreanMeasures : List (String × String) :=
  [("jang", "장"), ("myeong", "명"), ("mari", "마리"), ("gae", "개"), ("gwon", "권")]

def vietnameseMeasures : List (String × String) :=
  [("cai", "cái"), ("con", "con"), ("nguoi", "người"), ("chiec", "chiếc"), ("to", "tờ")]

def thaiMeasures : List (String × String) :=
  [("bai", "ใบ"), ("tua", "ตัว"), ("khon", "คน"), ("an", "อัน")]

/-- The count comes from the context and the measure word from the noun's tag; `arrange` puts
them and the noun together. -/
def counted (measures : List (String × String)) (arrange : String → String → String → String) :
    Transform := fun value context _ =>
  match integer? (trim (context.getD "").toList) with
  | none => invalidContext "count" context
  | some n => do
    let measure ← choose "count" value measures
    return arrange (showInteger n) measure value.shown

def chineseCount : Transform :=
  counted chineseMeasures fun n measure noun => n ++ measure ++ noun

def japaneseCount : Transform :=
  counted japaneseMeasures fun n measure noun => noun ++ n ++ measure

def koreanCount : Transform :=
  counted koreanMeasures fun n measure noun => noun ++ " " ++ n ++ measure

def vietnameseCount : Transform :=
  counted vietnameseMeasures fun n measure noun => n ++ " " ++ measure ++ " " ++ noun

def thaiCount : Transform :=
  counted thaiMeasures fun n measure noun => noun ++ " " ++ n ++ " " ++ measure

/-! ### Endings -/

/-- The forms of a particle behind a consonant, behind a vowel, and behind other scripts. -/
structure Particle where
  closed : String
  opened : String
  either : String
deriving Repr

def particles : List (String × Particle) :=
  [ ("subj", ⟨"이", "가", "이(가)"⟩),
    ("obj", ⟨"을", "를", "을(를)"⟩),
    ("topic", ⟨"은", "는", "은(는)"⟩),
    ("and", ⟨"과", "와", "과(와)"⟩) ]

/-- Whether a syllable of Hangul ends in a consonant. -/
def endsClosed? (c : Char) : Option Bool :=
  if 0xAC00 ≤ c.toNat ∧ c.toNat ≤ 0xD7A3 then some ((c.toNat - 0xAC00) % 28 != 0) else none

def Particle.after (p : Particle) (text : String) : String :=
  match text.toList.getLast?.bind endsClosed? with
  | some true => p.closed
  | some false => p.opened
  | none => p.either

def koreanParticle : Transform := fun value context _ =>
  match particles.lookup (context.getD "") with
  | some particle => .ok (value.shown ++ particle.after value.shown)
  | none => invalidContext "particle" context

/-- Vowel harmony. -/
inductive Harmony where
  | front
  | back
deriving DecidableEq, Repr

def turkishVowels : List Char :=
  ['a', 'e', 'ı', 'i', 'o', 'ö', 'u', 'ü']

/-- Consonants that turn a d behind them into a t. -/
def turkishVoiceless : List Char :=
  ['f', 's', 't', 'k', 'ç', 'ş', 'h', 'p']

def Harmony.vowel : Harmony → Char
  | front => 'e'
  | back => 'a'

/-- The letters of a suffix behind a word, by the word's last letter and its harmony. -/
def turkishSuffix? (harmony : Harmony) (word : List Char) (suffix : String) :
    Option (List Char) :=
  let last := word.getLast?
  let afterVowel := (last.map turkishVowels.contains).getD false
  let dental := if (last.map turkishVoiceless.contains).getD false then 't' else 'd'
  match suffix with
  | "pl" => some ['l', harmony.vowel, 'r']
  | "dat" => some (if afterVowel then ['y', harmony.vowel] else [harmony.vowel])
  | "loc" => some [dental, harmony.vowel]
  | "abl" => some [dental, harmony.vowel, 'n']
  | _ => none

def addSuffix? (harmony : Harmony) (word : List Char) (suffix : String) : Option (List Char) :=
  (turkishSuffix? harmony word suffix).map (word ++ ·)

/-- Suffixes in the order of the context, each behind the word built so far. -/
def turkishInflect : Transform := fun value context _ => do
  let harmony ← choose "inflect" value [("front", Harmony.front), ("back", .back)]
  match (segments (context.getD "")).foldlM (addSuffix? harmony) value.shown.toList with
  | some word => return String.ofList word
  | none => invalidContext "inflect" context

/-- Endings behind back vowels and behind front ones. -/
def finnishEndings : List (String × String × String) :=
  [ ("pl", "t", "t"), ("ine", "ssa", "ssä"), ("ela", "sta", "stä"), ("ade", "lla", "llä"),
    ("abl", "lta", "ltä"), ("all", "lle", "lle"), ("ess", "na", "nä"), ("tra", "ksi", "ksi") ]

/-- One ending, behind the stem that the noun brings along or behind its text. -/
def finnishInflect : Transform := fun value context _ => do
  let harmony ← choose "inflect" value [("back", Harmony.back), ("front", .front)]
  match finnishEndings.lookup (context.getD "") with
  | none => invalidContext "inflect" context
  | some (back, front) =>
    let ending := match harmony with
      | .back => back
      | .front => front
    return form value ["stem"] ++ ending

/-! ### Postpositions of Hindi -/

/-- The form in front of a postposition. -/
def oblique (value : Value) (n : Number) : String :=
  form value ["obl." ++ n.key, "obl"]

def postposition (transform word : String) : Transform := fun value context setting => do
  let n ← number transform context setting
  return oblique value n ++ " " ++ word

def hindiKo : Transform := postposition "ko" "को"

def hindiSe : Transform := postposition "se" "से"

def hindiMe : Transform := postposition "me" "में"

def hindiPar : Transform := postposition "par" "पर"

def hindiNe : Transform := postposition "ne" "ने"

/-- The genitive agrees with the thing possessed, whose gender and number the context gives. -/
def hindiKa : Transform := fun value context setting => do
  let (gender, rest) := match context with
    | none => ("masc", none)
    | some text => splitContext text
  let n ← match rest with
    | none => pure Number.singular
    | some "" => pure Number.singular
    | some rest => number "ka" (some rest) setting
  let word ← match gender, n with
    | "fem", _ => pure "की"
    | "masc", .singular => pure "का"
    | "masc", .plural => pure "के"
    | _, _ => invalidContext "ka" context
  return oblique value .singular ++ " " ++ word

end Phrasebook.Transform
