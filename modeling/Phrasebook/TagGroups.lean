import Phrasebook.TagSet

/-!
The grammatical dimensions of languages. Tags of one dimension exclude each other: a tag that a
phrase declares itself displaces an inherited one of its dimension, and a tag of no dimension
displaces only its like.
-/

namespace Phrasebook

structure TagGroup where
  name : String
  members : List String
deriving DecidableEq, Repr

structure TagGroups where
  groups : List TagGroup
deriving DecidableEq, Repr

namespace TagGroups

def twoGenders : TagGroup := ⟨"gender", ["masc", "fem"]⟩

def threeGenders : TagGroup := ⟨"gender", ["masc", "fem", "neut"]⟩

/-- Genders where the masculine one divides by animacy. -/
def animateGenders : TagGroup := ⟨"gender", ["masc_anim", "masc_inan", "fem", "neut"]⟩

def animacy : TagGroup := ⟨"animacy", ["anim", "inan"]⟩

def harmony : TagGroup := ⟨"harmony", ["front", "back"]⟩

def classifiers (members : List String) : TagGroup := ⟨"classifier", members⟩

/-- By primary language. -/
def table : List (String × List TagGroup) :=
  [ ("en", [⟨"article", ["a", "an"]⟩]),
    ("es", [twoGenders]),
    ("pt", [twoGenders]),
    ("it", [twoGenders, ⟨"onset", ["vowel", "s_imp"]⟩]),
    ("fr", [twoGenders, ⟨"onset", ["vowel"]⟩]),
    ("de", [threeGenders]),
    ("nl", [⟨"article", ["de", "het"]⟩]),
    ("el", [threeGenders]),
    ("ro", [threeGenders]),
    ("ru", [threeGenders, animacy]),
    ("uk", [threeGenders, animacy]),
    ("pl", [animateGenders]),
    ("cs", [animateGenders]),
    ("ar", [twoGenders, ⟨"letter", ["sun", "moon"]⟩]),
    ("hi", [twoGenders]),
    ("tr", [harmony]),
    ("fi", [harmony]),
    ("zh", [classifiers ["zhang", "ge", "ming", "wei", "tiao", "ben", "zhi"]]),
    ("ja", [classifiers ["mai", "nin", "hiki", "hon", "ko", "satsu"]]),
    ("ko", [classifiers ["jang", "myeong", "mari", "gae", "gwon"]]),
    ("vi", [classifiers ["cai", "con", "nguoi", "chiec", "to"]]),
    ("th", [classifiers ["bai", "tua", "khon", "an"]]) ]

/-- A language that is not listed has no groups. -/
def forLanguage (language : String) : TagGroups :=
  ⟨(table.lookup language).getD []⟩

theorem mem_table_of_groups (language : String) :
    (forLanguage language).groups = [] ∨ (language, (forLanguage language).groups) ∈ table := by
  rw [forLanguage]
  cases hl : table.lookup language with
  | none => exact .inl rfl
  | some groups =>
    obtain ⟨before, after, htable, -⟩ := List.lookup_eq_some_iff.1 hl
    exact .inr (by simp [htable])

/-- The name of the tag's group, or the tag itself. -/
def keyOf (g : TagGroups) (tag : String) : String :=
  match g.groups.find? fun group => group.members.contains tag with
  | some group => group.name
  | none => tag

/-- The local tags, and behind them every inherited one whose key no local tag has. -/
def inherit (g : TagGroups) (own inherited : TagSet) : TagSet :=
  own.insertAll (inherited.tags.filter fun tag =>
    ¬ own.tags.any fun t => g.keyOf t = g.keyOf tag)

end TagGroups

end Phrasebook
