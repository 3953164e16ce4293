import Phrasebook.Proofs.Index
import Phrasebook.Proofs.Writing

/-!
The ids that a locale lists. An id has room for 255 parameters and a phrase has not: the id that is
listed for a phrase with more of them stands for its name, but calls nothing.
-/

namespace Phrasebook

open Text

namespace Locale

variable {l : Locale}

theorem mem_ids {id : PhraseId} :
    id ∈ l.ids ↔ ∃ name d, l.phrases.get? name = some d ∧ id = idOf d := by
  rw [ids, List.mem_map]
  constructor
  · rintro ⟨d, hd, rfl⟩
    obtain ⟨name, hname⟩ := Dictionary.mem_values.1 hd
    exact ⟨name, d, hname, rfl⟩
  · rintro ⟨name, d, hname, rfl⟩
    exact ⟨d, Dictionary.mem_values.2 ⟨name, hname⟩, rfl⟩

/-- The number of parameters that an id holds is cut off at 255. -/
theorem arity_idOf (d : Definition) : (idOf d).arity.toNat = min d.arity 255 := by
  have hlt : min d.arity 255 < 2 ^ 8 := Nat.lt_of_le_of_lt (Nat.min_le_right _ _) (by decide)
  exact UInt8.toNat_ofNat_of_lt' hlt

theorem nameForId?_idOf (hc : l.Checked) (hi : l.phrases.Indexed) {name : String} {d : Definition}
    (hd : l.phrases.get? name = some d) : l.nameForId? (idOf d) = some name := by
  obtain rfl := hc.named name d hd
  exact nameForId?_ofName hi hd _

/-- A call by the id of a phrase is a call of the phrase, if the id could hold its number of
parameters. -/
theorem callById_idOf (hc : l.Checked) (hi : l.phrases.Indexed) {name : String} {d : Definition}
    (hd : l.phrases.get? name = some d) (arguments : List Value) :
    l.callById (idOf d) arguments =
      if d.arity ≤ 255 then l.call name arguments
      else .error (.idNotFound (idOf d).hash) := by
  obtain rfl := hc.named name d hd
  have hcall := callById_ofName hc hi hd (idOf d).arity arguments
  have harity : d.arity = (idOf d).arity.toNat ↔ d.arity ≤ 255 := by
    rw [arity_idOf]
    omega
  simp only [harity] at hcall
  exact hcall

/-- Every id that a locale lists stands for the name of a phrase. It calls that phrase, whatever the
arguments are, exactly if the phrase has at most 255 parameters; the id of any other phrase is not
found by any call. -/
theorem listed_id_calls_iff {b : Blueprint} (h : b.build = .ok l) {id : PhraseId}
    (hid : id ∈ l.ids) :
    ∃ name d, l.phrases.get? name = some d ∧ l.nameForId? id = some name ∧
      ((∀ arguments, l.callById id arguments = l.call name arguments) ↔ d.arity ≤ 255) ∧
      (255 < d.arity → ∀ arguments, l.callById id arguments = .error (.idNotFound id.hash)) := by
  have hc := checked_of_build h
  have hi := indexed_of_build h
  obtain ⟨name, d, hd, rfl⟩ := mem_ids.1 hid
  have hcall := callById_idOf hc hi hd
  refine ⟨name, d, hd, nameForId?_idOf hc hi hd, ⟨fun hall => ?_, fun ha arguments => ?_⟩,
    fun ha arguments => ?_⟩
  · by_contra ha
    -- Without arguments the phrase is called with too few of them, and is found.
    have hnone : l.call name [] = .error (.argumentCount name d.arity 0) := by
      apply hc.call_of_length_ne hd
      rw [List.length_nil]
      omega
    have hfound := hall []
    rw [hcall, if_neg ha, hnone] at hfound
    cases hfound
  · rw [hcall, if_pos ha]
  · rw [hcall, if_neg (Nat.not_le.2 ha)]

/-! ### Phrases with many parameters -/

/-- A phrase with so many parameters, none of which it uses. -/
def wideScript (arity : Nat) : Script where
  name := "wide"
  parameters := (List.range arity).map fun i => String.ofList ('p' :: Nat.toDigits 10 i)
  tags := []
  inherits := none
  selectors := []
  body := .template "wide"

def wide (arity : Nat) : Blueprint where
  language := "en"
  source := String.ofList (Script.writeAll [wideScript arity])

example : (wide 2).source = "wide($p0, $p1) = \"wide\";\n" := by decide +kernel

theorem valid_wideScript (arity : Nat) : (wideScript arity).Valid where
  name := (by decide : Script.IsName "wide")
  small := (by decide : "wide".toList.head?.any fun c => 'a' ≤ c ∧ c ≤ 'z')
  parameters := by
    intro p hp
    obtain ⟨i, -, rfl⟩ := List.mem_map.1 hp
    have hdigits : ∀ c ∈ Nat.toDigits 10 i, isWordChar c := by
      intro c hc
      have hd : c.isDigit := Nat.isDigit_of_mem_toDigits (by decide) (by decide) hc
      simp [isWordChar, Char.isAlphanum, hd]
    rw [Script.IsName, String.toList_ofList]
    exact ⟨(by decide : isNameStart 'p'), List.forall_mem_cons.2 ⟨by decide, hdigits⟩⟩
  tags := nofun
  distinct := List.nodup_nil
  inherits := nofun
  selectors := nofun
  body := trivial

def wideDefinition (arity : Nat) : Definition where
  name := "wide"
  parameters := (wideScript arity).parameters
  tags := []
  inherits := none
  selectors := []
  body := .template ⟨[.literal "wide"]⟩
  bodyless := false
  position := .start

theorem read_wide (arity : Nat) : ∃ d, Definition.parseAll (wide arity).source = .ok [d] ∧
    d.placeless = wideDefinition arity := by
  have hvalid := valid_wideScript arity
  have htemplate : Template.parse "wide" = .ok ⟨[.literal "wide"]⟩ := by decide +kernel
  have hmeaning : (wideScript arity).meaning = .ok (wideDefinition arity) := by
    simp only [Script.meaning, wideScript, Script.Body.meaning, htemplate]
    rfl
  have hsource : Source (wide arity).source.toList [(wideScript arity).draft] := by
    rw [wide, String.toList_ofList]
    exact Script.source_writeAll (List.forall_mem_singleton.2 hvalid)
  have hsettle : [(wideScript arity).draft].mapM Draft.settle? = some [wideDefinition arity] := by
    rw [List.mapM_cons, Script.settle?_draft hvalid, hmeaning]
    rfl
  obtain ⟨read, hread, hplaceless⟩ := Definition.parseAll_iff.2 ⟨_, hsource, hsettle⟩
  obtain ⟨d, rfl, hd⟩ := List.map_eq_singleton_iff.1 hplaceless
  exact ⟨d, hread, hd⟩

theorem checkAll_wide (arity : Nat) (transforms : List String) :
    checkAll [wideDefinition arity] transforms = [] := by
  rfl

/-- However many parameters the phrase has, a locale is built of it, and renders it. -/
theorem wide_built (arity : Nat) : ∃ l d, (wide arity).build = .ok l ∧
    l.phrases.get? "wide" = some d ∧ d.arity = arity ∧
    ∀ arguments : List Value, arguments.length = arity →
      l.call "wide" arguments = .ok (.ofText "wide") := by
  obtain ⟨d, hread, hd⟩ := read_wide arity
  have hcheck (transforms : List String) : checkAll [d] transforms = [] := by
    rw [← Definition.checkAll_placeless, List.map_singleton, hd]
    exact checkAll_wide arity transforms
  obtain ⟨l, hl⟩ : ∃ l, (wide arity).build = .ok l := by
    have hlanguage : (Language.parse? "en").isSome := by decide +kernel
    obtain ⟨language, hlanguage⟩ := Option.isSome_iff_exists.1 hlanguage
    exact (Blueprint.exists_build_iff hread).2 ⟨language, hlanguage, hcheck _, _, rfl⟩
  have hname : d.name = "wide" := congrArg Definition.name hd
  have harity : d.arity = arity := by
    have hparameters : d.placeless.parameters = (wideDefinition arity).parameters := by rw [hd]
    change d.placeless.parameters.length = arity
    simp [hparameters, wideDefinition, wideScript]
  have hget : l.phrases.get? "wide" = some d := by
    obtain ⟨_, definitions, -, hread', -, -, hphrases⟩ := Blueprint.build_eq_ok hl
    cases hread.symm.trans hread'
    rw [Store.get?, hphrases, List.map_singleton, hname]
    rfl
  refine ⟨l, d, hl, hget, harity, fun arguments ha => ?_⟩
  rw [(checked_of_build hl).call_of_get? hget (ha.trans harity.symm)]
  have hsame : (wideDefinition arity).placeless = d.placeless := hd.symm
  rw [← definition_of_placeless_eq hsame]
  rfl

/-- At the limit. -/
theorem listed_id_calls_iff_wide : ∃ l id, (wide 255).build = .ok l ∧ id ∈ l.ids ∧
    l.nameForId? id = some "wide" ∧
    ∀ arguments, l.callById id arguments = l.call "wide" arguments := by
  obtain ⟨l, d, hl, hd, harity, -⟩ := wide_built 255
  have hid : idOf d ∈ l.ids := mem_ids.2 ⟨"wide", d, hd, rfl⟩
  obtain ⟨name, d', hd', hname, hcalls, -⟩ := listed_id_calls_iff hl hid
  cases hname.symm.trans (nameForId?_idOf (checked_of_build hl) (indexed_of_build hl) hd)
  cases hd'.symm.trans hd
  exact ⟨l, idOf d, hl, hid, hname, hcalls.2 (Nat.le_of_eq harity)⟩

/-- A listed id may call nothing: a phrase with 256 parameters is called by its name only. -/
theorem not_listed_id_calls : ¬ ∀ (b : Blueprint) (l : Locale), b.build = .ok l →
    ∀ id ∈ l.ids, ∃ name, l.nameForId? id = some name ∧
      ∀ arguments, l.callById id arguments = l.call name arguments := by
  intro works
  obtain ⟨l, d, hl, hd, harity, hcall⟩ := wide_built 256
  have hc := checked_of_build hl
  have hi := indexed_of_build hl
  obtain ⟨name, hname, hsame⟩ := works _ l hl (idOf d) (mem_ids.2 ⟨"wide", d, hd, rfl⟩)
  cases hname.symm.trans (nameForId?_idOf hc hi hd)
  have hones := hsame (List.replicate 256 (.number 1))
  rw [hcall _ List.length_replicate, callById_idOf hc hi hd, harity] at hones
  cases hones

end Locale

end Phrasebook
