import Phrasebook.Proofs.Inheritance
import Phrasebook.Proofs.Integers

/-!
Counting with a parameter in English: as the context of the transform `plural`, and as the selector
of a form. A number counts alike in both. A text that spells one between blanks does not: the
selector takes the blanks off, and the transform takes the text for a key.
-/

namespace Phrasebook

open Text

/-- A hole such as `{@plural:$n card}`. -/
def Interpolation.counting (noun : Reference) (parameter : String) : Interpolation :=
  ⟨some ⟨"plural", some (.parameter parameter)⟩, noun, []⟩

/-- A hole such as `{card:$n}`. -/
def Interpolation.selecting (noun : Reference) (parameter : String) : Interpolation :=
  ⟨none, noun, [.parameter parameter]⟩

namespace Transform

variable {setting : Setting} {p : Phrase} {n : Int64}

theorem englishPlural_shown_number :
    englishPlural (.phrase p) (some (Value.number n).shown) setting =
      .ok (p.variant (setting.category n).key) := by
  simp only [englishPlural, Value.shown, integer?_showInteger]
  rfl

/-- A text that spells an integer between blanks counts as it only where there are no blanks. -/
theorem englishPlural_text {s : String} (h : integer? (trim s.toList) = some n) :
    englishPlural (.phrase p) (some s) setting =
      .ok (p.variant (if trim s.toList = s.toList then (setting.category n).key else s)) := by
  simp only [englishPlural, integer?_of_trim h]
  by_cases ht : trim s.toList = s.toList
  · simp only [if_pos ht]
    rfl
  · simp only [if_neg ht]
    rfl

end Transform

namespace Registry

/-- English has its plural, unless a locale takes the name for a transform of its own. -/
theorem get?_plural {transforms : List (String × Transform)}
    (h : "plural" ∉ transforms.map Prod.fst) :
    ((forLanguage "en").registerAll transforms).get? "plural" = some Transform.englishPlural :=
  Dictionary.get?_insertAll_of_notMem h

end Registry

namespace Rendering

variable {c : Conventions} {call : Call} {b : Bindings} {noun : Reference} {parameter : String}
  {p : Phrase} {v : Value} {n : Int64}

theorem interpolation_selecting (hr : reference call b noun = .ok (.phrase p))
    (hv : b.value parameter = .ok v) (hn : v.numeric? = some n) :
    interpolation c call b (.selecting noun parameter) =
      .ok (p.variant (c.category n).key) := by
  have hkey : selectorKey c b (.parameter parameter) = .ok (c.category n).key := by
    simp only [selectorKey, hv, Except.bind, keyOf, hn]
  have hselect : select c b (.phrase p) [.parameter parameter] =
      .ok (.phrase (p.withText (p.variant (c.category n).key))) := by
    simp [select, hkey, joinSegments]
  exact bind_eq_ok.2 ⟨_, hr, bind_eq_ok.2 ⟨_, hselect, rfl⟩⟩

theorem interpolation_counting (hr : reference call b noun = .ok (.phrase p))
    (hv : b.value parameter = .ok v)
    {text : String} (happly : c.apply "plural" (.phrase p) (some (contextOf v)) = .ok text) :
    interpolation c call b (.counting noun parameter) = .ok text := by
  have hcontext : context b (.parameter parameter) = .ok (contextOf v) := by
    rw [context, hv]
    rfl
  refine bind_eq_ok.2 ⟨_, hr, bind_eq_ok.2 ⟨_, rfl, bind_eq_ok.2 ⟨some (contextOf v), ?_, happly⟩⟩⟩
  exact map_eq_ok.2 ⟨_, hcontext, rfl⟩

end Rendering

namespace Locale

open Rendering

variable {call : Call} {b : Bindings} {noun : Reference} {parameter : String} {p : Phrase}
  {v : Value} {n : Int64} {l : Locale}

theorem apply_plural (ht : l.transforms.get? "plural" = some Transform.englishPlural)
    (value : Value) (context : Option String) :
    l.conventions.apply "plural" value context =
      Transform.englishPlural value context l.toSetting := by
  change l.transforms.apply "plural" value context l.toSetting = _
  rw [Registry.apply, ht]

/-- Numbers count alike in both holes. A text that spells one counts alike where no blanks surround
it, or where the form under the text itself is the form of the number. -/
theorem counting_eq_selecting_iff (hr : reference call b noun = .ok (.phrase p))
    (hv : b.value parameter = .ok v) (hn : v.numeric? = some n)
    (ht : l.transforms.get? "plural" = some Transform.englishPlural) :
    interpolation l.conventions call b (.counting noun parameter) =
        interpolation l.conventions call b (.selecting noun parameter) ↔
      ∀ s, v = .text s → trim s.toList = s.toList ∨
        p.variant s = p.variant (l.category n).key := by
  have hselecting : interpolation l.conventions call b (.selecting noun parameter) =
      .ok (p.variant (l.category n).key) := interpolation_selecting hr hv hn
  have happly := apply_plural ht (.phrase p) (some (contextOf v))
  rw [hselecting]
  cases v with
  | phrase q => cases hn
  | number m =>
    cases hn
    have hp : Transform.englishPlural (.phrase p) (some (contextOf (.number n))) l.toSetting =
        .ok (p.variant (l.category n).key) := Transform.englishPlural_shown_number
    rw [interpolation_counting hr hv (happly.trans hp)]
    simp
  | text s =>
    have hp : Transform.englishPlural (.phrase p) (some (contextOf (.text s))) l.toSetting =
        .ok (p.variant (if trim s.toList = s.toList then (l.category n).key else s)) :=
      Transform.englishPlural_text hn
    rw [interpolation_counting hr hv (happly.trans hp), Except.ok.injEq]
    by_cases hs : trim s.toList = s.toList
    · simp [hs]
    · simp [hs]

theorem get?_plural_of_build {b : Blueprint} {l : Locale} {language : Language}
    (h : b.build = .ok l) (hl : Language.parse? b.language = some language)
    (he : language.primary = "en") (ht : "plural" ∉ b.transforms.map Prod.fst) :
    l.transforms.get? "plural" = some Transform.englishPlural := by
  obtain ⟨language', hl', hregistry⟩ := Blueprint.registry_of_build h
  cases hl.symm.trans hl'
  rw [hregistry, Blueprint.registry, he]
  exact Registry.get?_plural ht

/-- English counts a noun by a parameter alike as a context and as a selector, exactly unless the
parameter is a text that spells its number between blanks and the noun has another form under that
very text. -/
theorem counting_iff {b : Blueprint} {l : Locale} {language : Language} (h : b.build = .ok l)
    (hl : Language.parse? b.language = some language) (he : language.primary = "en")
    (ht : "plural" ∉ b.transforms.map Prod.fst) {bindings : Bindings} {noun : Reference}
    {parameter : String} {p : Phrase} {v : Value} {n : Int64}
    (hr : Rendering.reference l.call bindings noun = .ok (.phrase p))
    (hv : bindings.value parameter = .ok v) (hn : v.numeric? = some n) :
    Rendering.interpolation l.conventions l.call bindings (.selecting noun parameter) =
        .ok (p.variant (l.category n).key) ∧
      (Rendering.interpolation l.conventions l.call bindings (.counting noun parameter) =
          Rendering.interpolation l.conventions l.call bindings (.selecting noun parameter) ↔
        ∀ s, v = .text s → trim s.toList = s.toList ∨
          p.variant s = p.variant (l.category n).key) :=
  ⟨interpolation_selecting hr hv hn,
    counting_eq_selecting_iff hr hv hn (get?_plural_of_build h hl he ht)⟩

/-- A card, one or several. -/
def cards : Blueprint where
  language := "en"
  source := "card = \x7b one: \"card\", other: \"cards\" \x7d;"

/-- A one behind a blank. -/
def blankOne : Bindings :=
  [("n", .text " 1")]

theorem numeric?_blankOne : (Value.text " 1").numeric? = some 1 := by decide +kernel

theorem cards_built : ∃ l language, cards.build = .ok l ∧
    Language.parse? cards.language = some language ∧ language.primary = "en" ∧
    Rendering.reference l.call blankOne (.term "card") = .ok (.phrase card) ∧
    card.variant " 1" ≠ card.variant (l.category 1).key := by
  have h : ∃ l, cards.build = .ok l ∧ decide (
      (Language.parse? cards.language).map Language.primary = some "en" ∧
      (l.call "card" []).toOption = some card ∧
      card.variant " 1" ≠ card.variant (l.category 1).key) :=
    exists_of_build (by decide +kernel)
  obtain ⟨l, hl, ht⟩ := h
  obtain ⟨hlanguage, hcall, hne⟩ := of_decide_eq_true ht
  obtain ⟨language, hlanguage, hprimary⟩ := Option.map_eq_some_iff.1 hlanguage
  exact ⟨l, language, hl, hlanguage, hprimary,
    map_eq_ok.2 ⟨card, eq_ok_of_toOption hcall, rfl⟩, hne⟩

theorem counting_iff_cards : ∃ l language, cards.build = .ok l ∧
    Language.parse? cards.language = some language ∧ language.primary = "en" ∧
    "plural" ∉ cards.transforms.map Prod.fst ∧
    Rendering.reference l.call blankOne (.term "card") = .ok (.phrase card) ∧
    blankOne.value "n" = .ok (.text " 1") ∧ (Value.text " 1").numeric? = some 1 ∧
    Rendering.interpolation l.conventions l.call blankOne (.selecting (.term "card") "n") =
        .ok (card.variant (l.category 1).key) ∧
      (Rendering.interpolation l.conventions l.call blankOne (.counting (.term "card") "n") =
          Rendering.interpolation l.conventions l.call blankOne
            (.selecting (.term "card") "n") ↔
        ∀ s, Value.text " 1" = .text s → trim s.toList = s.toList ∨
          card.variant s = card.variant (l.category 1).key) := by
  obtain ⟨l, language, hl, hlanguage, hprimary, hr, -⟩ := cards_built
  have ht : "plural" ∉ cards.transforms.map Prod.fst := List.not_mem_nil
  exact ⟨l, language, hl, hlanguage, hprimary, ht, hr, rfl, numeric?_blankOne,
    counting_iff hl hlanguage hprimary ht hr rfl numeric?_blankOne⟩

/-- A context and a selector do not agree on every number: a one behind a blank selects `card`, and
counts as `cards`. -/
theorem not_counting_eq_selecting : ¬ ∀ (b : Blueprint) (l : Locale) (language : Language),
    b.build = .ok l → Language.parse? b.language = some language → language.primary = "en" →
    "plural" ∉ b.transforms.map Prod.fst →
    ∀ (bindings : Bindings) (noun : Reference) (parameter : String) (p : Phrase) (v : Value)
      (n : Int64), Rendering.reference l.call bindings noun = .ok (.phrase p) →
      bindings.value parameter = .ok v → v.numeric? = some n →
      Rendering.interpolation l.conventions l.call bindings (.counting noun parameter) =
        Rendering.interpolation l.conventions l.call bindings (.selecting noun parameter) := by
  intro agree
  obtain ⟨l, language, hl, hlanguage, hprimary, hr, hne⟩ := cards_built
  have ht : "plural" ∉ cards.transforms.map Prod.fst := List.not_mem_nil
  have heq := agree _ l language hl hlanguage hprimary ht blankOne _ "n" card _ _ hr rfl
    numeric?_blankOne
  rw [counting_eq_selecting_iff hr rfl numeric?_blankOne
    (get?_plural_of_build hl hlanguage hprimary ht)] at heq
  rcases heq " 1" rfl with htrim | hsame
  · exact absurd htrim (by decide +kernel)
  · exact hne hsame

end Locale

end Phrasebook
