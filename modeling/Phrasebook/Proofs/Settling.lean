import Phrasebook.Proofs.Extension
import Phrasebook.Proofs.SourceCompleteness

/-!
A source is read as the definitions that its drafts settle to: where they stand, and how their texts
are escaped, makes no difference but to their positions.
-/

namespace Phrasebook

namespace Draft

/-- A tag counts once; `:from` and `:match` may each stand once. -/
def addModifier? (header : RawDefinition.Header) : Modifier → Option RawDefinition.Header
  | .tag name =>
    some (if name ∈ header.tags then header else { header with tags := header.tags ++ [name] })
  | .inherits parameter =>
    if header.inherits = none then some { header with inherits := some parameter } else none
  | .selects parameters =>
    if header.selectors = [] then some { header with selectors := parameters } else none
  | .unknown _ _ => none

def header? (modifiers : List Modifier) : Option RawDefinition.Header :=
  modifiers.foldlM addModifier? ⟨[], none, []⟩

def template? (text : String) : Option Template :=
  (Template.parse text).toOption

def Entry.settle? (e : Draft.Entry) : Option Phrasebook.Entry :=
  (template? e.text).map (⟨e.keys, ·⟩)

def Body.settle? (inherits : Option String) : Draft.Body → Option Phrasebook.Body
  | template text => (template? text).map .template
  | entries es => (es.mapM Entry.settle?).map .entries
  | absent => inherits.map fun name => .template (RawDefinition.parameterAlone name)

/-- The definition that is written, as if it stood at the start of its source. -/
def settle? (d : Draft) : Option Definition := do
  let header ← header? d.modifiers
  let body ← d.body.settle? header.inherits
  return {
    name := d.name
    parameters := d.parameters
    tags := header.tags
    inherits := header.inherits
    selectors := header.selectors
    body
    bodyless := d.body == .absent
    position := .start }

end Draft

namespace RawDefinition

variable {source : List Char} {raw : RawDefinition}

theorem header_toOption : (raw.header source).toOption = Draft.header? raw.modifiers := by
  rw [header, toOption_foldlM, Draft.header?]
  congr 1
  funext header modifier
  cases modifier with
  | tag name => rfl
  | inherits parameter =>
    cases hi : header.inherits <;>
      simp [addModifier, Draft.addModifier?, failure, hi, Except.toOption]
  | selects parameters =>
    cases hs : header.selectors <;>
      simp [addModifier, Draft.addModifier?, failure, hs, Except.toOption]
  | unknown name left => rfl

theorem template_toOption (q : Quoted) : (q.template source).toOption = Draft.template? q.text := by
  unfold Quoted.template Draft.template? Template.parse Quoted.text
  rw [String.toList_ofList]
  cases Template.scan (q.glyphs.map Glyph.char) <;> rfl

theorem settleEntry_toOption (e : RawEntry) :
    (settleEntry source e).toOption = e.draft.settle? := by
  rw [settleEntry, toOption_bind_pure, template_toOption]
  rfl

theorem settleBody_toOption (inherits : Option String) :
    (raw.settleBody source inherits).toOption = raw.body.draft.settle? inherits := by
  unfold settleBody
  cases raw.body with
  | template text =>
    simp only [toOption_bind_pure, template_toOption]
    rfl
  | entries es =>
    simp only [toOption_bind_pure, toOption_mapM, settleEntry_toOption]
    rw [RawBody.draft, Draft.Body.settle?, List.mapM_map]
    rfl
  | absent => cases inherits <;> rfl

theorem draft_eq_absent {body : RawBody} : (body.draft == .absent) = (body == .absent) := by
  cases body <;> rfl

/-- What a definition is settled to depends on its draft alone, but for its position. -/
theorem settle_toOption (source : List Char) (raw : RawDefinition) :
    (raw.settle source).toOption.map Definition.placeless = raw.draft.settle? := by
  rw [settle, toOption_bind, header_toOption, Draft.settle?, RawDefinition.draft]
  cases Draft.header? raw.modifiers with
  | none => rfl
  | some header =>
    simp only [Option.bind_some, toOption_bind_pure, settleBody_toOption, Option.bind_eq_bind,
      draft_eq_absent]
    cases raw.body.draft.settle? header.inherits <;> rfl

theorem mapM_settle_toOption (source : List Char) (raws : List RawDefinition) :
    (raws.mapM (settle source)).toOption.map (List.map Definition.placeless) =
      (raws.map RawDefinition.draft).mapM Draft.settle? := by
  rw [toOption_mapM, map_mapM, List.mapM_map]
  exact congrArg (List.mapM · raws) (funext (settle_toOption source))

end RawDefinition

namespace Draft

theorem known_of_header? {modifiers : List Modifier} {start header : RawDefinition.Header}
    (h : modifiers.foldlM addModifier? start = some header) : ∀ m ∈ modifiers, m.Known := by
  induction modifiers generalizing start with
  | nil => simp
  | cons m modifiers ih =>
    rw [List.foldlM_cons, Option.bind_eq_bind, Option.bind_eq_some_iff] at h
    obtain ⟨next, hm, h⟩ := h
    refine List.forall_mem_cons.2 ⟨?_, ih h⟩
    rintro name left rfl
    cases hm

theorem known_of_settle? {d : Draft} {definition : Definition} (h : d.settle? = some definition) :
    ∀ m ∈ d.modifiers, m.Known := by
  rw [settle?, Option.bind_eq_bind, Option.bind_eq_some_iff] at h
  obtain ⟨header, hh, -⟩ := h
  exact known_of_header? hh

theorem signature_of_settle? {d : Draft} {definition : Definition}
    (h : d.settle? = some definition) :
    definition.name = d.name ∧ definition.parameters = d.parameters := by
  simp only [settle?, Option.bind_eq_bind, Option.bind_eq_some_iff] at h
  obtain ⟨header, -, body, -, hd⟩ := h
  cases hd
  exact ⟨rfl, rfl⟩

end Draft

namespace Source

theorem Definition.small {text rest : List Char} {draft : Draft} (h : Definition text draft rest) :
    ∃ c, draft.name.toList.head? = some c ∧ 'a' ≤ c ∧ c ≤ 'z' := by
  obtain ⟨hc, hsmall, hn⟩ := h
  obtain ⟨c, hc', -⟩ := hn.start
  rw [hn.spelled, List.head?_append, hc'] at hc
  cases hc
  exact ⟨_, hc', hsmall⟩

theorem Definitions.exists_text {text : List Char} {drafts : List Draft}
    (h : Definitions text drafts) :
    ∀ draft ∈ drafts, ∃ text rest, Definition text draft rest := by
  induction h with
  | nil => simp
  | cons hd _ _ ih => exact List.forall_mem_cons.2 ⟨⟨_, _, hd⟩, ih⟩

end Source

namespace Definition

theorem parseAll_eq_ok {source : String} {read : List Definition} :
    parseAll source = .ok read ↔ ∃ raws, Grammar.definitions source.toList = .done raws [] ∧
      raws.mapM (RawDefinition.settle source.toList) = .ok read := by
  rw [parseAll]
  generalize Grammar.definitions source.toList = outcome
  rcases outcome with ⟨raws, _ | _⟩ | _ | _ <;> simp

/-- Definitions that settle have no directives but those that exist. -/
theorem known_of_settled {source : List Char} {raws : List RawDefinition} {read : List Definition}
    (h : raws.mapM (RawDefinition.settle source) = .ok read) :
    ∀ raw ∈ raws, ∀ m ∈ raw.modifiers, m.Known := by
  intro raw hraw
  have hsettle := RawDefinition.mapM_settle_toOption source raws
  rw [h] at hsettle
  have hall := isSome_mapM.1 (Option.isSome_iff_exists.2 ⟨_, hsettle.symm⟩)
  obtain ⟨d, hd⟩ := Option.isSome_iff_exists.1 (hall _ (List.mem_map_of_mem hraw))
  exact Draft.known_of_settle? hd

/-- A source is read as the definitions that the drafts it spells settle to. -/
theorem parseAll_iff {source : String} {definitions : List Definition} :
    (∃ read, parseAll source = .ok read ∧ read.map placeless = definitions) ↔
      ∃ drafts, Source source.toList drafts ∧ drafts.mapM Draft.settle? = some definitions := by
  constructor
  · rintro ⟨read, hread, rfl⟩
    obtain ⟨raws, hraws, hr⟩ := parseAll_eq_ok.1 hread
    have hsettle := RawDefinition.mapM_settle_toOption source.toList raws
    rw [hr] at hsettle
    exact ⟨raws.map RawDefinition.draft, source_of_definitions hraws (known_of_settled hr),
      hsettle.symm⟩
  · rintro ⟨drafts, hs, hd⟩
    obtain ⟨raws, rfl, hraws⟩ := definitions_of_source hs
    rw [← RawDefinition.mapM_settle_toOption source.toList, Option.map_eq_some_iff] at hd
    obtain ⟨read, hr, hd⟩ := hd
    exact ⟨read, parseAll_eq_ok.2 ⟨raws, hraws, eq_ok_of_toOption hr⟩, hd⟩

/-- What is read is written somewhere in the source. -/
theorem exists_draft {source : String} {read : List Definition} (h : parseAll source = .ok read)
    {d : Definition} (hd : d ∈ read) :
    ∃ draft text rest, Source.Definition text draft rest ∧ draft.settle? = some d.placeless := by
  obtain ⟨drafts, ⟨start, -, hs⟩, hsettle⟩ := parseAll_iff.1 ⟨read, h, rfl⟩
  obtain ⟨draft, hdraft, hset⟩ := exists_mem_of_mapM_eq_some hsettle (List.mem_map_of_mem hd)
  obtain ⟨text, rest, hdef⟩ := hs.exists_text draft hdraft
  exact ⟨draft, text, rest, hdef, hset⟩

/-- The name of a definition that is read starts with a small letter. -/
theorem small_of_parseAll {source : String} {read : List Definition}
    (h : parseAll source = .ok read) {d : Definition} (hd : d ∈ read) :
    ∃ c, d.name.toList.head? = some c ∧ 'a' ≤ c ∧ c ≤ 'z' := by
  obtain ⟨draft, text, rest, hdef, hset⟩ := exists_draft h hd
  have hname : d.placeless.name = draft.name := (Draft.signature_of_settle? hset).1
  rw [show d.name = draft.name from hname]
  exact hdef.small

end Definition

end Phrasebook
