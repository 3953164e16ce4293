import Phrasebook.Proofs.Choices
import Phrasebook.Proofs.Contexts
import Phrasebook.Proofs.Lookup

/-!
The articles of languages with genders. For a noun and a context there is one outcome: a context
that asks for nothing is refused first, then a noun of no gender, then one of several; otherwise the
word for the gender, the number, the case and the first sound stands before the noun in the form for
that case and number.
-/

namespace Phrasebook

open Text

namespace Transform

/-- The tag of the nouns of a gender. -/
def Gender.tag : Gender → String
  | .masc => "masc"
  | .fem => "fem"
  | .neut => "neut"

/-! ### Tables of articles -/

/-- The words of one case, for the masculine, the feminine and the neuter. -/
structure CaseRow where
  case : Case
  singular : String × String × String
  plural : String × String × String

def CaseRow.word (row : CaseRow) (n : Number) (gender : Gender) : String :=
  let words := match n with
    | .singular => row.singular
    | .plural => row.plural
  match gender with
  | .masc => words.1
  | .fem => words.2.1
  | .neut => words.2.2

/-- A word with the blank behind it, where there is one. -/
def spaced (word : String) : String :=
  if word = "" then "" else word ++ " "

/-- The articles of a transform, as they are written before a noun, and what they agree with. -/
structure Paradigm where
  /-- What errors call the transform. -/
  name : String
  cases : List Case
  genders : List Gender
  article : Option Case → Number → Gender → Onset → String

namespace Paradigm

/-- Two genders, with the words of the masculine first. Another word may stand for both of them
before a vowel, in the singular. -/
def twoGenders (name : String) (singular plural : String × String) (elided : Option String) :
    Paradigm where
  name := name
  cases := []
  genders := [.masc, .fem]
  article _ n gender onset :=
    let words := match n with
      | .singular => singular
      | .plural => plural
    let word := if gender = .fem then words.2 else words.1
    if n = .singular ∧ onset = .vowel then elided.getD word else word

/-- The masculine has words of its own before an impure consonant and before a vowel, in the plural
one for both. The feminine has one before a vowel, in the singular. -/
def italian (name : String) (plain impure vowel plainPlural otherPlural fem femVowel femPlural :
    String) : Paradigm where
  name := name
  cases := []
  genders := [.masc, .fem]
  article _ n gender onset :=
    match gender, n, onset with
    | .fem, .singular, .vowel => femVowel
    | .fem, .singular, _ => fem
    | .fem, .plural, _ => femPlural
    | _, .singular, .plain => plain
    | _, .singular, .impure => impure
    | _, .singular, .vowel => vowel
    | _, .plural, .plain => plainPlural
    | _, .plural, _ => otherPlural

/-- Three genders and cases. -/
def declined (name : String) (rows : List CaseRow) : Paradigm where
  name := name
  cases := rows.map CaseRow.case
  genders := [.masc, .fem, .neut]
  article c n gender _ :=
    match rows.find? fun row => c = some row.case with
    | some row => spaced (row.word n gender)
    | none => ""

end Paradigm

/-! ### Outcomes -/

/-- The number that a text asks for: that of an integer by the rules of the setting, or that of a
plural category. -/
inductive Counts (setting : Setting) : String → Number → Prop where
  | one {text : String} {n : Int64} (hi : integer? text.toList = some n)
    (hc : setting.category n = .one) : Counts setting text .singular
  | several {text : String} {n : Int64} (hi : integer? text.toList = some n)
    (hc : setting.category n ≠ .one) : Counts setting text .plural
  | singular : Counts setting "one" .singular
  | plural {text : String} (hm : text ∈ ["zero", "two", "few", "many", "other"]) :
    Counts setting text .plural

/-- The case, if there are cases, and the number that a context asks for. -/
inductive Asks (cases : List Case) (setting : Setting) :
    Option String → Option Case → Number → Prop where
  | nothing : Asks cases setting none cases.head? .singular
  | number {text : String} {n : Number} (hcases : cases = []) (hn : Counts setting text n) :
    Asks cases setting (some text) none n
  | case {c : Case} (hc : c ∈ cases) : Asks cases setting (some c.key) (some c) .singular
  | caseAndNumber {c : Case} {text : String} {n : Number} (hc : c ∈ cases)
    (hn : Counts setting text n) : Asks cases setting (some (c.key ++ "." ++ text)) (some c) n

/-- The keys of the forms for a case and a number, the closest first. -/
def formKeys : Option Case → Number → List String
  | none, n => [n.key]
  | some c, n => [c.key ++ "." ++ n.key, c.key, n.key]

/-- The form under the first of the keys that the value has, or its own text without any. -/
inductive Inflects (value : Value) (keys : List String) : String → Prop where
  | form {p : Phrase} {key text : String} {before after : List String} (hp : value = .phrase p)
    (hk : keys = before ++ key :: after) (ht : (key, text) ∈ p.variants.entries)
    (hb : ∀ other ∈ before, other ∉ p.variants.keys) : Inflects value keys text
  | own (hn : ∀ p, value = .phrase p → ∀ key ∈ keys, key ∉ p.variants.keys) :
    Inflects value keys value.shown

/-- What comes of a value and a context. -/
inductive Paradigm.Gives (p : Paradigm) (value : Value) (context : Option String)
    (setting : Setting) : Except EvalError String → Prop where
  | invalidContext (ha : ∀ c n, ¬ Asks p.cases setting context c n) :
    Gives p value context setting (.error (.invalidContext p.name (context.getD "")))
  | missingTag {c : Option Case} {n : Number} (ha : Asks p.cases setting context c n)
    (hg : ∀ gender ∈ p.genders, ¬ value.hasTag gender.tag) :
    Gives p value context setting
      (.error (.missingTag p.name (p.genders.map Gender.tag) value.shown))
  | unsupportedTags {c : Option Case} {n : Number} {gender other : Gender}
    (ha : Asks p.cases setting context c n) (hg : gender ∈ p.genders) (ho : other ∈ p.genders)
    (hne : gender ≠ other) (htag : value.hasTag gender.tag) (htag' : value.hasTag other.tag) :
    Gives p value context setting
      (.error (.unsupportedTags p.name ((p.genders.map Gender.tag).filter value.hasTag)))
  | text {c : Option Case} {n : Number} {gender : Gender} {noun : String}
    (ha : Asks p.cases setting context c n) (hg : gender ∈ p.genders)
    (htag : value.hasTag gender.tag)
    (honly : ∀ other ∈ p.genders, value.hasTag other.tag → other = gender)
    (hn : Inflects value (formKeys c n) noun) :
    Gives p value context setting (.ok (p.article c n gender (.of value) ++ noun))

/-! ### Contexts -/

section

variable {cases : List Case} {first c : Case} {asked : Option Case} {n : Number}
  {context : Option String} {text name : String} {setting : Setting}

theorem Case.key_injective : Function.Injective Case.key := by
  intro c other h
  revert h
  cases c <;> cases other <;> decide

theorem Case.dot_not_mem_key (c : Case) : '.' ∉ c.key.toList := by
  cases c <;> decide

theorem counts_iff :
    Counts setting text n ↔ Number.ofContext? (some text) setting = some n := by
  constructor
  · intro h
    cases h with
    | one hi hc =>
      simp only [Number.ofContext?, hi, hc]
      rfl
    | @several text k hi hc =>
      simp only [Number.ofContext?, hi]
      cases hcategory : setting.category k <;> first | rfl | exact absurd hcategory hc
    | singular => rfl
    | plural hm =>
      simp only [List.mem_cons, List.not_mem_nil, or_false] at hm
      rcases hm with rfl | rfl | rfl | rfl | rfl <;> rfl
  · intro h
    rw [Number.ofContext?] at h
    cases hi : integer? text.toList with
    | some k =>
      simp only [hi, Option.some.injEq] at h
      subst h
      cases hcategory : setting.category k <;>
        first | exact .one hi hcategory | exact .several hi (by rw [hcategory]; decide)
    | none =>
      simp only [hi] at h
      unfold Number.named? at h
      split at h <;> cases h
      · exact .singular
      all_goals exact .plural (by decide)

theorem asks_nil_iff : Asks [] setting context asked n ↔
    asked = none ∧ Number.ofContext? context setting = some n := by
  constructor
  · intro h
    cases h with
    | nothing => exact ⟨rfl, rfl⟩
    | number _ hn => exact ⟨rfl, counts_iff.1 hn⟩
    | case hc => cases hc
    | caseAndNumber hc => cases hc
  · rintro ⟨rfl, h⟩
    cases context with
    | none =>
      cases h
      exact .nothing
    | some text => exact .number rfl (counts_iff.2 h)

theorem asks_some_iff : Asks cases setting (some text) (some c) n ↔
    c ∈ cases ∧ (splitContext text).1 = c.key ∧
      Number.ofContext? (splitContext text).2 setting = some n := by
  constructor
  · intro h
    cases h with
    | case hc =>
      rw [splitContext_of_not_mem c.dot_not_mem_key]
      exact ⟨hc, rfl, rfl⟩
    | caseAndNumber hc hn =>
      rw [splitContext_append c.dot_not_mem_key]
      exact ⟨hc, rfl, counts_iff.1 hn⟩
  · by_cases hdot : '.' ∈ text.toList
    · obtain ⟨head, rest, hhead, rfl⟩ := exists_append_of_mem hdot
      rw [splitContext_append hhead]
      rintro ⟨hc, rfl, hn⟩
      exact .caseAndNumber hc (counts_iff.2 hn)
    · rw [splitContext_of_not_mem hdot]
      rintro ⟨hc, rfl, hn⟩
      cases hn
      exact .case hc

theorem lookup_case_eq_some :
    (cases.map fun c => (c.key, c)).lookup text = some c ↔ c ∈ cases ∧ text = c.key := by
  induction cases with
  | nil => simp
  | cons d rest ih =>
    rw [List.map_cons, lookup_cons_ite, List.mem_cons]
    by_cases hd : text = d.key
    · rw [if_pos hd, Option.some.injEq]
      constructor
      · rintro rfl
        exact ⟨.inl rfl, hd⟩
      · rintro ⟨-, hc⟩
        exact Case.key_injective (hd.symm.trans hc)
    · rw [if_neg hd, ih]
      refine and_congr_left fun hc => ?_
      exact ⟨.inr, fun h => h.resolve_left fun he => hd (he ▸ hc)⟩

theorem number_of_asks (h : Asks [] setting context asked n) :
    number name context setting = .ok n := by
  simp only [number, (asks_nil_iff.1 h).2]

theorem number_of_not_asks (h : ∀ asked n, ¬ Asks [] setting context asked n) :
    number name context setting = invalidContext name context := by
  cases hn : Number.ofContext? context setting with
  | none => simp only [number, hn]
  | some n => exact absurd (asks_nil_iff.2 ⟨rfl, hn⟩) (h none n)

theorem caseAndNumber_of_asks (hfirst : cases.head? = some first)
    (h : Asks cases setting context asked n) : ∃ c ∈ cases, asked = some c ∧
      caseAndNumber name first (cases.map fun c => (c.key, c)) context setting = .ok (c, n) := by
  cases context with
  | none =>
    cases h
    exact ⟨first, List.mem_of_head? hfirst, hfirst, rfl⟩
  | some text =>
    cases asked with
    | none =>
      cases h with
      | number hcases _ =>
        subst hcases
        cases hfirst
    | some c =>
      obtain ⟨hc, hkey, hn⟩ := asks_some_iff.1 h
      refine ⟨c, hc, rfl, ?_⟩
      simp only [caseAndNumber, lookup_case_eq_some.2 ⟨hc, hkey⟩, hn]

theorem caseAndNumber_of_not_asks (h : ∀ asked n, ¬ Asks cases setting context asked n) :
    caseAndNumber name first (cases.map fun c => (c.key, c)) context setting =
      invalidContext name context := by
  cases context with
  | none => exact absurd .nothing (h _ _)
  | some text =>
    simp only [caseAndNumber]
    cases hc : (cases.map fun c => (c.key, c)).lookup (splitContext text).1 with
    | none => rfl
    | some c =>
      cases hn : Number.ofContext? (splitContext text).2 setting with
      | none => rfl
      | some n =>
        obtain ⟨hmem, hkey⟩ := lookup_case_eq_some.1 hc
        exact absurd (asks_some_iff.2 ⟨hmem, hkey, hn⟩) (h _ _)

end

/-! ### Forms -/

theorem form_of_inflects {value : Value} {keys : List String} {text : String}
    (h : Inflects value keys text) : form value keys = text := by
  cases h with
  | @form p key text before after hp hk ht hb =>
    subst hp
    change (keys.findSome? p.variants.lookup?).getD p.text = text
    rw [VariantTable.findSome?_lookup?_eq_some.2 ⟨before, key, after, hk, ht, hb⟩]
    rfl
  | own hn =>
    cases value with
    | number | text => rfl
    | phrase p =>
      change (keys.findSome? p.variants.lookup?).getD p.text = p.text
      rw [VariantTable.findSome?_lookup?_eq_none.2 (hn p rfl)]
      rfl

theorem exists_inflects (value : Value) (keys : List String) :
    ∃ text, Inflects value keys text := by
  cases value with
  | number | text => exact ⟨_, .own nofun⟩
  | phrase p =>
    cases hfind : keys.findSome? p.variants.lookup? with
    | some text =>
      obtain ⟨before, key, after, hk, ht, hb⟩ := VariantTable.findSome?_lookup?_eq_some.1 hfind
      exact ⟨text, .form rfl hk ht hb⟩
    | none =>
      refine ⟨_, .own fun p' hp => ?_⟩
      cases hp
      exact VariantTable.findSome?_lookup?_eq_none.1 hfind

/-! ### Articles before nouns -/

section

variable {p : Paradigm} {value : Value} {context : Option String} {setting : Setting}
  {result : Except EvalError String}

/-- There is an outcome for every value and context. -/
theorem Paradigm.exists_gives (p : Paradigm) (value : Value) (context : Option String)
    (setting : Setting) : ∃ result, p.Gives value context setting result := by
  by_cases ha : ∃ c n, Asks p.cases setting context c n
  · obtain ⟨c, n, ha⟩ := ha
    by_cases hsome : ∃ gender ∈ p.genders, value.hasTag gender.tag
    · obtain ⟨gender, hg, htag⟩ := hsome
      by_cases honly : ∀ other ∈ p.genders, value.hasTag other.tag → other = gender
      · obtain ⟨noun, hn⟩ := exists_inflects value (formKeys c n)
        exact ⟨_, .text ha hg htag honly hn⟩
      · simp only [not_forall] at honly
        obtain ⟨other, ho, htag', hne⟩ := honly
        exact ⟨_, .unsupportedTags ha ho hg hne htag' htag⟩
    · exact ⟨_, .missingTag ha fun gender hg htag => hsome ⟨gender, hg, htag⟩⟩
  · exact ⟨_, .invalidContext fun c n h => ha ⟨c, n, h⟩⟩

theorem article_fixedArticles (name masc fem mascPlural femPlural : String) (n : Number)
    (gender : Gender) (onset : Onset) :
    (fixedArticles masc fem mascPlural femPlural).article gender n onset =
      (Paradigm.twoGenders name (masc, fem) (mascPlural, femPlural) none).article none n gender
        onset := by
  cases n <;> cases gender <;> cases onset <;> rfl

theorem article_frenchArticles (name masc fem elided plural : String) (n : Number)
    (gender : Gender) (onset : Onset) :
    (frenchArticles masc fem elided plural).article gender n onset =
      (Paradigm.twoGenders name (masc, fem) (plural, plural) (some elided)).article none n gender
        onset := by
  cases n <;> cases gender <;> cases onset <;> rfl

theorem article_italianArticles (name plain impure vowel plainPlural otherPlural fem femVowel
    femPlural : String) (n : Number) (gender : Gender) (onset : Onset) :
    (italianArticles (italianMasc plain impure vowel) fem femVowel plainPlural otherPlural
        femPlural).article gender n onset =
      (Paradigm.italian name plain impure vowel plainPlural otherPlural fem femVowel
        femPlural).article none n gender onset := by
  cases n <;> cases gender <;> cases onset <;> rfl

theorem gendered_of_gives {articles : Articles} (hcases : p.cases = [])
    (hgenders : p.genders = [.masc, .fem])
    (harticle : ∀ n gender onset,
      articles.article gender n onset = p.article none n gender onset)
    (h : p.Gives value context setting result) :
    gendered p.name articles value context setting = result := by
  have htwo : twoGenders = p.genders.map fun g => (g.tag, g) := by rw [hgenders]; rfl
  have hnodup : p.genders.Nodup := by rw [hgenders]; decide
  unfold gendered
  rw [htwo]
  cases h with
  | invalidContext ha =>
    rw [number_of_not_asks (hcases ▸ ha)]
    rfl
  | missingTag ha hg =>
    rw [number_of_asks (hcases ▸ ha), choose_of_none hg]
    rfl
  | unsupportedTags ha hg ho hne htag htag' =>
    rw [number_of_asks (hcases ▸ ha), choose_of_several hg ho hne htag htag']
    rfl
  | @text c n gender noun ha hg htag honly hn =>
    rw [hcases] at ha
    obtain ⟨rfl, -⟩ := asks_nil_iff.1 ha
    rw [number_of_asks ha, choose_of_only hnodup hg htag honly]
    have hnoun : form value [n.key] = noun := form_of_inflects hn
    rw [← harticle, ← hnoun]
    rfl

theorem declined_of_gives {name : String} {cases : List (String × Case)}
    {article : Case → Number → Gender → Option String} (hname : p.name = name)
    (hcases : (p.cases.map fun c => (c.key, c)) = cases) (hfirst : p.cases.head? = some .nom)
    (hgenders : p.genders = [.masc, .fem, .neut])
    (harticle : ∀ c ∈ p.cases, ∀ n gender onset,
      (match article c n gender with
        | some word => word ++ " "
        | none => "") = p.article (some c) n gender onset)
    (h : p.Gives value context setting result) :
    Transform.declined name cases article value context setting = result := by
  subst hname hcases
  have hthree : threeGenders = p.genders.map fun g => (g.tag, g) := by rw [hgenders]; rfl
  have hnodup : p.genders.Nodup := by rw [hgenders]; decide
  unfold Transform.declined
  rw [hthree]
  cases h with
  | invalidContext ha =>
    rw [caseAndNumber_of_not_asks ha]
    rfl
  | missingTag ha hg =>
    obtain ⟨c, -, -, hread⟩ := caseAndNumber_of_asks hfirst ha
    rw [hread, choose_of_none hg]
    rfl
  | unsupportedTags ha hg ho hne htag htag' =>
    obtain ⟨c, -, -, hread⟩ := caseAndNumber_of_asks hfirst ha
    rw [hread, choose_of_several hg ho hne htag htag']
    rfl
  | @text asked n gender noun ha hg htag honly hn =>
    obtain ⟨c, hc, rfl, hread⟩ := caseAndNumber_of_asks hfirst ha
    have hnoun : declinedForm value c n = noun := form_of_inflects hn
    rw [hread, choose_of_only hnodup hg htag honly, ← harticle c hc n gender, ← hnoun]
    change Except.ok _ = _
    cases article c n gender <;> simp

end

end Transform

namespace Builtin

open Transform

/-- The articles that agree with the gender of the noun. -/
def paradigm? : Builtin → Option Paradigm
  | spanishEl => some (.twoGenders "el" ("el ", "la ") ("los ", "las ") none)
  | spanishUn => some (.twoGenders "un" ("un ", "una ") ("unos ", "unas ") none)
  | portugueseO => some (.twoGenders "o" ("o ", "a ") ("os ", "as ") none)
  | portugueseUm => some (.twoGenders "um" ("um ", "uma ") ("uns ", "umas ") none)
  | portugueseDe => some (.twoGenders "de" ("do ", "da ") ("dos ", "das ") none)
  | portugueseEm => some (.twoGenders "em" ("no ", "na ") ("nos ", "nas ") none)
  | frenchLe => some (.twoGenders "le" ("le ", "la ") ("les ", "les ") (some "l'"))
  | frenchUn => some (.twoGenders "un" ("un ", "une ") ("des ", "des ") none)
  | frenchDe => some (.twoGenders "de" ("du ", "de la ") ("des ", "des ") (some "de l'"))
  | frenchAu => some (.twoGenders "au" ("au ", "à la ") ("aux ", "aux ") (some "à l'"))
  | italianIl => some (.italian "il" "il " "lo " "l'" "i " "gli " "la " "l'" "le ")
  | italianUn => some (.italian "un" "un " "uno " "un " "dei " "degli " "una " "un'" "delle ")
  | italianDi =>
    some (.italian "di" "del " "dello " "dell'" "dei " "degli " "della " "dell'" "delle ")
  | italianA => some (.italian "a" "al " "allo " "all'" "ai " "agli " "alla " "all'" "alle ")
  | germanDer => some (.declined "der"
      [⟨.nom, ("der", "die", "das"), ("die", "die", "die")⟩,
       ⟨.acc, ("den", "die", "das"), ("die", "die", "die")⟩,
       ⟨.dat, ("dem", "der", "dem"), ("den", "den", "den")⟩,
       ⟨.gen, ("des", "der", "des"), ("der", "der", "der")⟩])
  | germanEin => some (.declined "ein"
      [⟨.nom, ("ein", "eine", "ein"), ("", "", "")⟩,
       ⟨.acc, ("einen", "eine", "ein"), ("", "", "")⟩,
       ⟨.dat, ("einem", "einer", "einem"), ("", "", "")⟩,
       ⟨.gen, ("eines", "einer", "eines"), ("", "", "")⟩])
  | greekO => some (.declined "o"
      [⟨.nom, ("ο", "η", "το"), ("οι", "οι", "τα")⟩,
       ⟨.acc, ("τον", "την", "το"), ("τους", "τις", "τα")⟩,
       ⟨.gen, ("του", "της", "του"), ("των", "των", "των")⟩])
  | greekEnas => some (.declined "enas"
      [⟨.nom, ("ένας", "μία", "ένα"), ("", "", "")⟩,
       ⟨.acc, ("έναν", "μία", "ένα"), ("", "", "")⟩,
       ⟨.gen, ("ενός", "μιας", "ενός"), ("", "", "")⟩])
  | _ => none

variable {t : Builtin} {p : Paradigm} {value : Value} {context : Option String}
  {setting : Setting} {result : Except EvalError String}

theorem transform_of_gives (hp : t.paradigm? = some p) (h : p.Gives value context setting result) :
    t.transform value context setting = result := by
  cases t with
  | spanishEl | spanishUn | portugueseO | portugueseUm | portugueseDe | portugueseEm | frenchUn =>
    cases hp
    exact gendered_of_gives rfl rfl (article_fixedArticles _ _ _ _ _) h
  | frenchLe | frenchDe | frenchAu =>
    cases hp
    exact gendered_of_gives rfl rfl (article_frenchArticles _ _ _ _ _) h
  | italianIl | italianUn | italianDi | italianA =>
    cases hp
    exact gendered_of_gives rfl rfl (article_italianArticles _ _ _ _ _ _ _ _ _) h
  | germanDer | germanEin | greekO | greekEnas =>
    cases hp
    refine declined_of_gives rfl rfl rfl rfl (fun c hc n gender onset => ?_) h
    cases c <;> cases n <;> cases gender <;> first | rfl | exact absurd hc (by decide)
  | _ => cases hp

/-- An article comes out just as its paradigm says, for every value and context. -/
theorem paradigm_outcome_iff (hp : t.paradigm? = some p) (value : Value) (context : Option String)
    (setting : Setting) (result : Except EvalError String) :
    t.transform value context setting = result ↔ p.Gives value context setting result := by
  refine ⟨?_, transform_of_gives hp⟩
  rintro rfl
  obtain ⟨result, h⟩ := p.exists_gives value context setting
  rwa [transform_of_gives hp h]

/-- The dative plural in German, of a masculine with a form of its own for it, and of a noun of two
genders. -/
theorem paradigm_outcome_iff_dative :
    let forms : VariantTable := ⟨[("one", "Band"), ("dat", "Band"), ("dat.other", "Bänden"),
      ("other", "Bände")], by decide, .inr (by decide +kernel)⟩
    ∃ p, germanDer.paradigm? = some p ∧
      p.Gives (.phrase ⟨"Band", forms, .ofList ["masc"]⟩) (some "dat.3") (.empty "de")
        (.ok "den Bänden") ∧
      p.Gives (.phrase ⟨"Band", forms, .ofList ["neut", "masc"]⟩) (some "dat.3") (.empty "de")
        (.error (.unsupportedTags "der" ["masc", "neut"])) := by
  intro forms
  have hp : germanDer.paradigm? = some _ := rfl
  exact ⟨_, hp, (paradigm_outcome_iff hp _ _ _ _).1 (by decide +kernel),
    (paradigm_outcome_iff hp _ _ _ _).1 (by decide +kernel)⟩

end Builtin

end Phrasebook
