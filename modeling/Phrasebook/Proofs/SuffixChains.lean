import Phrasebook.Proofs.Choices
import Phrasebook.Proofs.Segments
import Phrasebook.Transform.Form

/-!
Chains of Turkish suffixes. Each suffix goes behind the word built so far, whose last letter and
whose harmony are all that it depends on; and so a chain may be cut anywhere and the second part put
behind the word that the first part makes.
-/

namespace Phrasebook.Transform

open Text

namespace Harmony

/-- The tag that marks a word for a harmony. -/
def tag : Harmony → String
  | front => "front"
  | back => "back"

def other : Harmony → Harmony
  | front => back
  | back => front

theorem mem_all (h : Harmony) : h ∈ [front, back] := by
  cases h <;> decide

theorem eq_or_eq_other (h harmony : Harmony) : h = harmony ∨ h = harmony.other := by
  cases h <;> cases harmony <;> decide

end Harmony

/-- The phrase is marked for this harmony and not for the other. -/
def Harmonic (harmony : Harmony) (p : Phrase) : Prop :=
  p.hasTag harmony.tag ∧ ¬ p.hasTag harmony.other.tag

instance (harmony : Harmony) (p : Phrase) : Decidable (Harmonic harmony p) :=
  inferInstanceAs (Decidable (p.hasTag harmony.tag ∧ ¬ p.hasTag harmony.other.tag))

variable {harmony : Harmony} {p q : Phrase} {word word' letters : List Char} {suffix : String}

/-! ### One suffix -/

/-- A suffix has one vowel that heeds the harmony, and none that does not. -/
theorem count_vowel_turkishSuffix? (h : turkishSuffix? harmony word suffix = some letters) :
    letters.count harmony.vowel = 1 ∧ harmony.other.vowel ∉ letters := by
  unfold turkishSuffix? at h
  dsimp only at h
  split at h
  all_goals cases h
  · cases harmony <;> decide
  · split <;> cases harmony <;> decide
  · split <;> cases harmony <;> decide
  · split <;> cases harmony <;> decide

theorem addSuffix?_eq_some (h : addSuffix? harmony word suffix = some word') :
    ∃ letters, word' = word ++ letters ∧ letters.count harmony.vowel = 1 ∧
      harmony.other.vowel ∉ letters := by
  obtain ⟨letters, hletters, rfl⟩ := Option.map_eq_some_iff.1 h
  exact ⟨letters, rfl, count_vowel_turkishSuffix? hletters⟩

/-! ### Chains -/

/-- A chain of suffixes leaves the word in front of it, and has as many vowels as suffixes. -/
theorem foldlM_addSuffix?_eq_some {suffixes : List String}
    (h : suffixes.foldlM (addSuffix? harmony) word = some word') :
    ∃ letters, word' = word ++ letters ∧ letters.count harmony.vowel = suffixes.length ∧
      harmony.other.vowel ∉ letters := by
  induction suffixes generalizing word with
  | nil =>
    cases h
    exact ⟨[], (List.append_nil _).symm, rfl, List.not_mem_nil⟩
  | cons suffix suffixes ih =>
    rw [List.foldlM_cons] at h
    obtain ⟨next, hnext, h⟩ := Option.bind_eq_some_iff.1 h
    obtain ⟨letters, rfl, hcount, hother⟩ := addSuffix?_eq_some hnext
    obtain ⟨more, rfl, hmore, hmore'⟩ := ih h
    refine ⟨letters ++ more, List.append_assoc .., ?_, ?_⟩
    · rw [List.count_append, hcount, hmore, List.length_cons, Nat.add_comm]
    · rw [List.mem_append, not_or]
      exact ⟨hother, hmore'⟩

theorem choose_of_harmonic (hp : Harmonic harmony p) :
    choose "inflect" (.phrase p) [("front", Harmony.front), ("back", .back)] = .ok harmony := by
  have hoptions : [("front", Harmony.front), ("back", .back)] =
      [Harmony.front, .back].map fun h => (h.tag, h) := rfl
  have htag : (Value.phrase p).hasTag harmony.tag := hp.1
  have hother : ¬ (Value.phrase p).hasTag harmony.other.tag := hp.2
  rw [hoptions]
  refine choose_of_only (by decide) harmony.mem_all htag fun h _ hh => ?_
  exact (h.eq_or_eq_other harmony).resolve_right fun he => hother (he ▸ hh)

/-- Of a phrase only its text and its harmony count. -/
theorem turkishInflect_of_harmonic (hp : Harmonic harmony p) (context : Option String)
    (setting : Setting) : turkishInflect (.phrase p) context setting =
      match (segments (context.getD "")).foldlM (addSuffix? harmony) p.text.toList with
      | some word => .ok (String.ofList word)
      | none => invalidContext "inflect" context := by
  rw [turkishInflect, choose_of_harmonic hp]
  rfl

theorem turkishInflect_eq_ok_iff (hp : Harmonic harmony p) {context text : String}
    {setting : Setting} : turkishInflect (.phrase p) (some context) setting = .ok text ↔
      (segments context).foldlM (addSuffix? harmony) p.text.toList = some text.toList := by
  rw [turkishInflect_of_harmonic hp, Option.getD_some]
  cases (segments context).foldlM (addSuffix? harmony) p.text.toList with
  | none => simp [invalidContext]
  | some word => simp [String.ext_iff]

theorem harmonic_withText (hp : Harmonic harmony p) (text : String) :
    Harmonic harmony (p.withText text) :=
  hp

/-- A context spells a chain of suffixes, and two chains with a dot between them are put behind a
word one after the other. What they make depends on the word and the harmony alone, and starts with
the word; behind it, each suffix brings one vowel, which follows the harmony. -/
theorem turkishInflect_chain (hp : Harmonic harmony p) (first second : String)
    (setting : Setting) :
    (∀ text, turkishInflect (.phrase p) (some (first ++ "." ++ second)) setting = .ok text ↔
      ∃ word, turkishInflect (.phrase p) (some first) setting = .ok word ∧
        turkishInflect (.phrase (p.withText word)) (some second) setting = .ok text) ∧
    (∀ q, Harmonic harmony q → q.text = p.text → ∀ context setting',
      turkishInflect (.phrase q) context setting' = turkishInflect (.phrase p) context setting) ∧
    ∀ text, turkishInflect (.phrase p) (some first) setting = .ok text →
      ∃ letters, text = p.text ++ letters ∧
        letters.toList.count harmony.vowel = (segments first).length ∧
        harmony.other.vowel ∉ letters.toList := by
  refine ⟨fun text => ?_, fun q hq htext context setting' => ?_, fun text h => ?_⟩
  · rw [turkishInflect_eq_ok_iff hp, segments_append, List.foldlM_append]
    constructor
    · intro h
      obtain ⟨word, hword, h⟩ := Option.bind_eq_some_iff.1 h
      refine ⟨.ofList word, ?_, ?_⟩
      · rw [turkishInflect_eq_ok_iff hp, String.toList_ofList, hword]
      · rw [turkishInflect_eq_ok_iff (harmonic_withText hp _), ← h, Phrase.withText,
          String.toList_ofList]
    · rintro ⟨word, hword, h⟩
      rw [turkishInflect_eq_ok_iff hp] at hword
      rw [turkishInflect_eq_ok_iff (harmonic_withText hp _)] at h
      exact Option.bind_eq_some_iff.2 ⟨_, hword, h⟩
  · rw [turkishInflect_of_harmonic hq, turkishInflect_of_harmonic hp, htext]
  · obtain ⟨letters, hletters, hcount, hother⟩ :=
      foldlM_addSuffix?_eq_some ((turkishInflect_eq_ok_iff hp).1 h)
    refine ⟨.ofList letters, String.toList_injective ?_, ?_, ?_⟩
    · rw [String.toList_append, String.toList_ofList, hletters]
    · rw [String.toList_ofList, hcount]
    · rwa [String.toList_ofList]

/-- A dative behind a locative, which ends in a vowel. -/
theorem turkishInflect_chain_cards :
    let kart : Phrase := ⟨"kart", .empty, .ofList ["noun", "back"]⟩
    Harmonic .back kart ∧
      (∃ word, turkishInflect (.phrase kart) (some "pl.loc") (.empty "tr") = .ok word ∧
        turkishInflect (.phrase (kart.withText word)) (some "dat") (.empty "tr") =
          .ok "kartlardaya") ∧
      ∃ letters, "kartlarda" = "kart" ++ letters ∧ letters.toList.count 'a' = 2 ∧
        'e' ∉ letters.toList := by
  intro kart
  have hkart : Harmonic .back kart := by decide
  obtain ⟨parts, -, vowels⟩ := turkishInflect_chain hkart "pl.loc" "dat" (.empty "tr")
  exact ⟨hkart, (parts "kartlardaya").1 (by decide +kernel), vowels "kartlarda" (by decide +kernel)⟩

end Phrasebook.Transform
