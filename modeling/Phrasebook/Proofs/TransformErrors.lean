import Phrasebook.Transform.Builtin
import Phrasebook.Proofs.Outcomes

/-!
The errors of the transforms: the built-in ones only refuse the value or the context that they are
given.
-/

namespace Phrasebook

/-- An error that the arguments of a call can bring about, however the phrases are defined. -/
inductive EvalError.OfArguments : EvalError → Prop where
  | noMatchingVariant (phrase : String) (values : List String) :
    OfArguments (.noMatchingVariant phrase values)
  | missingTag (transform : String) (expected : List String) (value : String) :
    OfArguments (.missingTag transform expected value)
  | unsupportedTags (transform : String) (tags : List String) :
    OfArguments (.unsupportedTags transform tags)
  | invalidContext (transform context : String) : OfArguments (.invalidContext transform context)
  | untaggedSelector (parameter value : String) : OfArguments (.untaggedSelector parameter value)

open EvalError (OfArguments)

namespace Transform

variable {α : Type} {name : String} {value : Value} {context : Option String} {setting : Setting}

/-- The transform only refuses its value or its context. -/
def Proper (t : Transform) : Prop :=
  ∀ value context setting, FailsOnly OfArguments (t value context setting)

theorem choose_fails {options : List (String × α)} :
    FailsOnly OfArguments (choose name value options) := by
  unfold choose
  split
  · exact .ok _
  · exact .error (.missingTag ..)
  · exact .error (.unsupportedTags ..)

theorem invalidContext_fails :
    FailsOnly OfArguments (invalidContext name context : Except EvalError α) :=
  .error (.invalidContext ..)

theorem number_fails : FailsOnly OfArguments (number name context setting) := by
  unfold number
  split
  · exact .ok _
  · exact invalidContext_fails

theorem caseAndNumber_fails {first : α} {cases : List (String × α)} :
    FailsOnly OfArguments (caseAndNumber name first cases context setting) := by
  unfold caseAndNumber
  split
  · exact .ok _
  · dsimp only
    split
    · exact .ok _
    · exact invalidContext_fails

/-! ### Articles -/

theorem englishA_proper : englishA.Proper := fun _ _ _ =>
  choose_fails.bind fun _ _ => .ok _

theorem dutchDe_proper : dutchDe.Proper := by
  intro value context setting
  refine number_fails.bind fun n _ => ?_
  cases n with
  | singular => exact choose_fails.bind fun _ _ => .ok _
  | plural => exact .ok _

theorem dutchEen_proper : dutchEen.Proper := fun _ _ _ =>
  number_fails.bind fun _ _ => .ok _

theorem gendered_proper (articles : Articles) : (gendered name articles).Proper := fun _ _ _ =>
  number_fails.bind fun _ _ => choose_fails.bind fun _ _ => .ok _

theorem declined_proper (cases : List (String × Case))
    (article : Case → Number → Gender → Option String) : (declined name cases article).Proper :=
  fun _ _ _ => caseAndNumber_fails.bind fun _ _ => choose_fails.bind fun _ _ => .ok _

theorem romanianDef_proper : romanianDef.Proper := by
  intro value context setting
  refine number_fails.bind fun n _ => ?_
  dsimp only
  split
  · exact .ok _
  · exact choose_fails.bind fun _ _ => .ok _

theorem arabicAl_proper : arabicAl.Proper := by
  intro value context setting
  refine choose_fails.bind fun sun _ => ?_
  split
  · exact .ok _
  · exact .ok _

/-! ### Forms -/

theorem counted_proper (measures : List (String × String))
    (arrange : String → String → String → String) : (counted measures arrange).Proper := by
  intro value context setting
  unfold counted
  split
  · exact invalidContext_fails
  · exact choose_fails.bind fun _ _ => .ok _

theorem koreanParticle_proper : koreanParticle.Proper := by
  intro value context setting
  unfold koreanParticle
  split
  · exact .ok _
  · exact invalidContext_fails

theorem turkishInflect_proper : turkishInflect.Proper := by
  intro value context setting
  refine choose_fails.bind fun harmony _ => ?_
  split
  · exact .ok _
  · exact invalidContext_fails

theorem finnishInflect_proper : finnishInflect.Proper := by
  intro value context setting
  refine choose_fails.bind fun harmony _ => ?_
  split
  · exact invalidContext_fails
  · exact .ok _

theorem postposition_proper (word : String) : (postposition name word).Proper := fun _ _ _ =>
  number_fails.bind fun _ _ => .ok _

theorem hindiKa_proper : hindiKa.Proper := by
  intro value context setting
  unfold hindiKa
  dsimp only
  -- However the number is found, the word follows from it and the gender, or there is none.
  split
  all_goals
    refine FailsOnly.bind (by first | exact .ok _ | exact number_fails) fun n _ => ?_
    split
    · exact .ok _
    · exact .ok _
    · exact .ok _
    · exact invalidContext_fails.bind fun _ _ => .ok _

end Transform

/-- A built-in transform never fails but by its value or its context. -/
theorem Builtin.proper (t : Builtin) : t.transform.Proper := by
  unfold transform
  cases t with
  | cap | upper | lower | englishThe | englishPlural => exact fun _ _ _ => .ok _
  | englishA => exact Transform.englishA_proper
  | dutchDe => exact Transform.dutchDe_proper
  | dutchEen => exact Transform.dutchEen_proper
  | spanishEl | spanishUn | portugueseO | portugueseUm | portugueseDe | portugueseEm
  | frenchLe | frenchUn | frenchDe | frenchAu | italianIl | italianUn | italianDi | italianA =>
    exact Transform.gendered_proper _
  | germanDer | germanEin | greekO | greekEnas => exact Transform.declined_proper _ _
  | romanianDef => exact Transform.romanianDef_proper
  | arabicAl => exact Transform.arabicAl_proper
  | chineseCount | japaneseCount | koreanCount | vietnameseCount | thaiCount =>
    exact Transform.counted_proper _ _
  | koreanParticle => exact Transform.koreanParticle_proper
  | turkishInflect => exact Transform.turkishInflect_proper
  | finnishInflect => exact Transform.finnishInflect_proper
  | hindiKa => exact Transform.hindiKa_proper
  | hindiKo | hindiSe | hindiMe | hindiPar | hindiNe => exact Transform.postposition_proper _

/-! ### Registries -/

namespace Registry

theorem get?_registerAll {r : Registry} {transforms : List (String × Transform)} {name : String}
    {t : Transform} (h : (r.registerAll transforms).get? name = some t) :
    (name, t) ∈ transforms ∨ r.get? name = some t :=
  Dictionary.mem_of_get?_insertAll h

theorem exists_get?_of_mem_names {r : Registry} {name : String} (h : name ∈ r.names) :
    ∃ t, r.get? name = some t :=
  Option.isSome_iff_exists.1 (Dictionary.mem_keys.1 h)

theorem exists_builtin_of_get? {language name : String} {t : Transform}
    (h : (forLanguage language).get? name = some t) :
    ∃ builtin : Builtin, builtin.transform = t := by
  rcases get?_registerAll h with hm | he
  · obtain ⟨entry, -, he⟩ := List.mem_map.1 hm
    cases he
    exact ⟨entry.2, rfl⟩
  · cases he

end Registry

end Phrasebook
