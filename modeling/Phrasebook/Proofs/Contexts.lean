import Phrasebook.Proofs.Contradictions
import Phrasebook.Proofs.Integers

/-!
The contexts of transforms. Each transform that reads its context takes contexts of one form: where
a value has the tags for it, a context of the form gives text, and any other is refused and named in
the error. The Hindi genitive differs twice: a dot without a number behind it is let pass, and of a
gender with a bad number only the number is named.
-/

namespace Phrasebook

open Text

/-! ### Forms of contexts -/

/-- Digits with an optional sign, within 64 bits, or the name of a plural category. -/
def IsNumber (text : String) : Prop :=
  (integer? text.toList).isSome ∨ text ∈ ["zero", "one", "two", "few", "many", "other"]

/-- What the contexts of a transform look like. -/
inductive ContextForm where
  | number
  | agreement (heads : List String)
  | count
  | suffixes (names : List String)
  | single (names : List String)

/-- The contexts of a form. -/
inductive ContextForm.Admits : ContextForm → Option String → Prop where
  | noNumber : Admits number none
  | number {text : String} (hn : IsNumber text) : Admits number (some text)
  | noHead {heads : List String} : Admits (agreement heads) none
  | head {heads : List String} {head : String} (hh : head ∈ heads) :
    Admits (agreement heads) (some head)
  | headAndNumber {heads : List String} {head text : String} (hh : head ∈ heads)
    (hn : IsNumber text) : Admits (agreement heads) (some (head ++ "." ++ text))
  | count {before digits after : String} (hb : ∀ c ∈ before.toList, isBlank c)
    (ha : ∀ c ∈ after.toList, isBlank c) (hn : (integer? digits.toList).isSome) :
    Admits count (some (before ++ digits ++ after))
  | suffixes {names pieces : List String} (hne : pieces ≠ [])
    (hp : ∀ piece ∈ pieces, piece ∈ names) :
    Admits (suffixes names) (some (joinSegments pieces))
  | single {names : List String} {name : String} (hn : name ∈ names) :
    Admits (single names) (some name)

namespace Transform

/-- A context of the form is taken, and any other is refused as a whole. -/
structure Decides {α : Type} (name : String) (form : ContextForm) (context : Option String)
    (result : Except EvalError α) : Prop where
  taken : form.Admits context → ∃ a, result = .ok a
  refused : ¬ form.Admits context → result = invalidContext name context

section

variable {α β : Type} {name text : String} {form : ContextForm} {context : Option String}
  {setting : Setting} {value : Value} {result : Except EvalError α}

theorem Decides.ok (a : α) (h : form.Admits context) :
    Decides name form context (.ok a : Except EvalError α) :=
  ⟨fun _ => ⟨a, rfl⟩, fun hn => absurd h hn⟩

theorem Decides.invalid (h : ¬ form.Admits context) :
    Decides name form context (invalidContext name context : Except EvalError α) :=
  ⟨fun ha => absurd ha h, fun _ => rfl⟩

theorem Decides.bind {f : α → Except EvalError β} (h : Decides name form context result)
    (hf : ∀ a, ∃ b, f a = .ok b) : Decides name form context (result >>= f) := by
  constructor
  · intro ha
    obtain ⟨a, rfl⟩ := h.taken ha
    exact hf a
  · intro hn
    rw [h.refused hn]
    rfl

/-- The form is what some partial function reads, and the outcome follows from what it finds. -/
theorem Decides.of_isSome {found : Option β} (h : form.Admits context ↔ found.isSome)
    (hnone : found = none → result = invalidContext name context)
    (hsome : ∀ b, found = some b → ∃ a, result = .ok a) : Decides name form context result := by
  constructor
  · intro ha
    obtain ⟨b, hb⟩ := Option.isSome_iff_exists.1 (h.1 ha)
    exact hsome b hb
  · intro hn
    exact hnone (Option.not_isSome_iff_eq_none.1 (mt h.2 hn))

/-! ### Numbers -/

theorem Number.isSome_named? : (named? text).isSome ↔
    text ∈ ["zero", "one", "two", "few", "many", "other"] := by
  unfold named?
  split <;> simp_all

theorem Number.isSome_ofContext? (context : Option String) (setting : Setting) :
    (ofContext? context setting).isSome ↔ ContextForm.number.Admits context := by
  cases context with
  | none => exact ⟨fun _ => .noNumber, fun _ => rfl⟩
  | some text =>
    have hnumber : (ofContext? (some text) setting).isSome ↔ IsNumber text := by
      rw [IsNumber, ofContext?]
      cases integer? text.toList with
      | none => simpa using isSome_named?
      | some n => simp
    rw [hnumber]
    exact ⟨.number, fun | .number hn => hn⟩

theorem number_decides : Decides name .number context (number name context setting) := by
  have hadmits := (Number.isSome_ofContext? context setting).symm
  refine .of_isSome hadmits (fun hn => ?_) fun n hn => ⟨n, ?_⟩
  · simp only [number, hn]
  · simp only [number, hn]

/-! ### Cases and genders, with or without a number -/

section

variable {heads : List String} {head rest : String}

theorem splitContext_of_not_mem (h : '.' ∉ text.toList) : splitContext text = (text, none) := by
  simp [splitContext, cutFirst_of_not_mem h]

theorem splitContext_append (h : '.' ∉ head.toList) :
    splitContext (head ++ "." ++ rest) = (head, some rest) := by
  simp [splitContext, cutFirst_append h]

theorem exists_append_of_mem (h : '.' ∈ text.toList) :
    ∃ head rest : String, '.' ∉ head.toList ∧ text = head ++ "." ++ rest := by
  obtain ⟨head, rest, htext, hhead⟩ := List.eq_append_cons_of_mem h
  refine ⟨String.ofList head, String.ofList rest, by simpa using hhead, ?_⟩
  apply String.toList_injective
  simp [htext]

/-- The first dot divides a context, and the number behind it may hold no other. -/
theorem admits_agreement_iff (hheads : ∀ head ∈ heads, '.' ∉ head.toList) (text : String) :
    (ContextForm.agreement heads).Admits (some text) ↔
      (splitContext text).1 ∈ heads ∧ ContextForm.number.Admits (splitContext text).2 := by
  constructor
  · intro h
    cases h with
    | head hh =>
      rw [splitContext_of_not_mem (hheads _ hh)]
      exact ⟨hh, .noNumber⟩
    | headAndNumber hh hn =>
      rw [splitContext_append (hheads _ hh)]
      exact ⟨hh, .number hn⟩
  · by_cases hdot : '.' ∈ text.toList
    · obtain ⟨head, rest, hhead, rfl⟩ := exists_append_of_mem hdot
      rw [splitContext_append hhead]
      rintro ⟨hh, _ | hn⟩
      exact .headAndNumber hh hn
    · rw [splitContext_of_not_mem hdot]
      exact fun ⟨hh, _⟩ => .head hh

theorem isSome_lookup {entries : List (String × α)} :
    (entries.lookup text).isSome ↔ text ∈ entries.map Prod.fst := by
  rw [← not_iff_not, Option.not_isSome_iff_eq_none, List.lookup_eq_none_iff, List.mem_map]
  constructor
  · rintro h ⟨entry, hm, rfl⟩
    simpa using h entry hm
  · intro h entry hm
    simpa using fun he => h ⟨entry, hm, he.symm⟩

theorem caseAndNumber_decides {first : α} {cases : List (String × α)}
    (hheads : ∀ head ∈ cases.map Prod.fst, '.' ∉ head.toList) :
    Decides name (.agreement (cases.map Prod.fst)) context
      (caseAndNumber name first cases context setting) := by
  cases context with
  | none => exact .ok _ .noHead
  | some text =>
    have hadmits := admits_agreement_iff hheads text
    rw [← isSome_lookup, ← Number.isSome_ofContext? _ setting] at hadmits
    simp only [caseAndNumber]
    cases hc : cases.lookup (splitContext text).1 with
    | none => exact .invalid (mt hadmits.1 (by simp [hc]))
    | some c =>
      cases hn : Number.ofContext? (splitContext text).2 setting with
      | none => exact .invalid (mt hadmits.1 (by simp [hn]))
      | some n => exact .ok _ (hadmits.2 (by simp [hc, hn]))

end

/-! ### Counts -/

theorem admits_count_iff (context : Option String) : ContextForm.count.Admits context ↔
    (integer? (trim (context.getD "").toList)).isSome := by
  constructor
  · intro h
    cases h with
    | @count before digits after hb ha hn =>
      obtain ⟨n, hn⟩ := Option.isSome_iff_exists.1 hn
      have htrim : trim (before ++ digits ++ after).toList = digits.toList := by
        rw [String.toList_append, String.toList_append]
        exact trim_append hb (isBlank_of_integer? hn) ha
      rw [Option.getD_some, htrim, hn]
      rfl
  · intro h
    cases context with
    | none => cases h
    | some text =>
      obtain ⟨before, after, htext, hb, ha⟩ := exists_trim text.toList
      have he : text = String.ofList before ++ String.ofList (trim text.toList) ++
          String.ofList after := by
        apply String.toList_injective
        simpa using htext
      rw [he]
      exact .count (by simpa using hb) (by simpa using ha) (by simpa using h)

/-! ### Endings -/

theorem admits_suffixes_iff {names : List String} (hdots : ∀ name ∈ names, '.' ∉ name.toList)
    (hempty : "" ∉ names) (context : Option String) :
    (ContextForm.suffixes names).Admits context ↔
      ∀ piece ∈ segments (context.getD ""), piece ∈ names := by
  constructor
  · intro h
    cases h with
    | suffixes hne hp =>
      rw [Option.getD_some, segments_joinSegments hne fun piece hm => hdots piece (hp piece hm)]
      exact hp
  · intro h
    cases context with
    | none => exact absurd (h "" (by decide)) hempty
    | some text =>
      have hne : segments text ≠ [] := by simpa [segments] using cutAll_ne_nil '.' text.toList
      have hadmits := ContextForm.Admits.suffixes hne h
      rwa [joinSegments_segments] at hadmits

theorem admits_single_iff {names : List String} (hempty : "" ∉ names) (context : Option String) :
    (ContextForm.single names).Admits context ↔ context.getD "" ∈ names := by
  constructor
  · intro h
    cases h with
    | single hn => exact hn
  · intro h
    cases context with
    | none => exact absurd h hempty
    | some name => exact .single h

theorem isSome_addSuffix? (harmony : Harmony) (word : List Char) (suffix : String) :
    (addSuffix? harmony word suffix).isSome ↔ suffix ∈ ["pl", "dat", "loc", "abl"] := by
  unfold addSuffix? turkishSuffix?
  split <;> simp_all

theorem isSome_foldlM_addSuffix? (harmony : Harmony) (word : List Char) (pieces : List String) :
    (pieces.foldlM (addSuffix? harmony) word).isSome ↔
      ∀ piece ∈ pieces, piece ∈ ["pl", "dat", "loc", "abl"] := by
  induction pieces generalizing word with
  | nil => simp
  | cons piece pieces ih =>
    rw [List.forall_mem_cons, ← isSome_addSuffix? harmony word, List.foldlM_cons]
    cases addSuffix? harmony word piece with
    | none => simp
    | some word' => simpa using ih word'

end

/-! ### Transforms -/

/-- The value carries one of the tags, where there are any to choose from. -/
def Ready (options : List String) (value : Value) : Prop :=
  options ≠ [] → ∃ option, options.filter value.hasTag = [option]

/-- Of the values that carry the tags for it, the transform takes those contexts. -/
def Answers (t : Transform) (name : String) (form : ContextForm) (options : List String) : Prop :=
  ∀ value, Ready options value → ∀ context setting,
    Decides name form context (t value context setting)

section

variable {α β : Type} {name : String} {value : Value} {options : List (String × α)}
  {tags : List String} {f : α → Except EvalError β}

theorem choose_of_ready (name : String) (hr : Ready (options.map Prod.fst) value)
    (hne : options ≠ []) : ∃ a, choose name value options = .ok a := by
  obtain ⟨tag, htag⟩ := hr (by simpa using hne)
  rw [List.filter_map, List.map_eq_singleton_iff] at htag
  obtain ⟨option, hoption, -⟩ := htag
  have hfilter : (options.filter fun option => value.hasTag option.1) = [option] := hoption
  exact ⟨option.2, by rw [choose, hfilter]⟩

theorem choose_bind_ok (hr : Ready tags value) (ho : options.map Prod.fst = tags)
    (hne : options ≠ []) (hf : ∀ a, ∃ b, f a = .ok b) :
    ∃ b, (choose name value options >>= f) = .ok b := by
  subst ho
  obtain ⟨a, ha⟩ := choose_of_ready name hr hne
  rw [ha]
  exact hf a

theorem choose_bind_decides {form : ContextForm} {context : Option String} (hr : Ready tags value)
    (ho : options.map Prod.fst = tags) (hne : options ≠ [])
    (hf : ∀ a, Decides name form context (f a)) :
    Decides name form context (choose name value options >>= f) := by
  subst ho
  obtain ⟨a, ha⟩ := choose_of_ready name hr hne
  rw [ha]
  exact hf a

end

section

variable {name : String}

theorem dutchDe_answers : dutchDe.Answers "de" .number ["de", "het"] := by
  intro value hr context setting
  refine number_decides.bind fun n => ?_
  cases n with
  | singular => exact choose_bind_ok hr rfl (by decide) fun _ => ⟨_, rfl⟩
  | plural => exact ⟨_, rfl⟩

theorem dutchEen_answers : dutchEen.Answers "een" .number [] :=
  fun _ _ _ _ => number_decides.bind fun _ => ⟨_, rfl⟩

theorem gendered_answers (articles : Articles) :
    (gendered name articles).Answers name .number ["masc", "fem"] :=
  fun _ hr _ _ => number_decides.bind fun _ =>
    choose_bind_ok hr rfl (by decide) fun _ => ⟨_, rfl⟩

theorem declined_answers {cases : List (String × Case)}
    (article : Case → Number → Gender → Option String)
    (hheads : ∀ head ∈ cases.map Prod.fst, '.' ∉ head.toList) :
    (declined name cases article).Answers name (.agreement (cases.map Prod.fst))
      ["masc", "fem", "neut"] :=
  fun _ hr _ _ => (caseAndNumber_decides hheads).bind fun _ =>
    choose_bind_ok hr rfl (by decide) fun _ => ⟨_, rfl⟩

theorem romanianDef_answers : romanianDef.Answers "def" .number ["masc", "fem", "neut"] := by
  intro value hr context setting
  refine number_decides.bind fun n => ?_
  dsimp only
  split
  · exact ⟨_, rfl⟩
  · exact choose_bind_ok hr rfl (by decide) fun _ => ⟨_, rfl⟩

theorem counted_answers {measures : List (String × String)} (hne : measures ≠ [])
    (arrange : String → String → String → String) :
    (counted measures arrange).Answers "count" .count (measures.map Prod.fst) := by
  intro value hr context setting
  refine .of_isSome (admits_count_iff context) (fun hn => ?_) fun n hn => ?_
  · simp only [counted, hn]
  · simp only [counted, hn]
    exact choose_bind_ok hr rfl hne fun _ => ⟨_, rfl⟩

theorem koreanParticle_answers : koreanParticle.Answers "particle"
    (.single (particles.map Prod.fst)) [] := by
  intro value hr context setting
  have hempty : "" ∉ particles.map Prod.fst := by decide
  have hadmits := admits_single_iff hempty context
  rw [← isSome_lookup] at hadmits
  refine .of_isSome hadmits (fun hl => ?_) fun particle hl => ?_
  · simp only [koreanParticle, hl]
  · simp only [koreanParticle, hl]
    exact ⟨_, rfl⟩

theorem turkishInflect_answers : turkishInflect.Answers "inflect"
    (.suffixes ["pl", "dat", "loc", "abl"]) ["front", "back"] := by
  intro value hr context setting
  refine choose_bind_decides hr rfl (by decide) fun harmony => ?_
  have hdots : ∀ name ∈ ["pl", "dat", "loc", "abl"], '.' ∉ name.toList := by decide
  have hadmits := admits_suffixes_iff hdots (by decide) context
  rw [← isSome_foldlM_addSuffix? harmony value.shown.toList] at hadmits
  refine .of_isSome hadmits (fun hf => ?_) fun word hf => ?_
  · simp only [hf]
  · simp only [hf]
    exact ⟨_, rfl⟩

theorem finnishInflect_answers : finnishInflect.Answers "inflect"
    (.single (finnishEndings.map Prod.fst)) ["back", "front"] := by
  intro value hr context setting
  refine choose_bind_decides hr rfl (by decide) fun harmony => ?_
  have hempty : "" ∉ finnishEndings.map Prod.fst := by decide
  have hadmits := admits_single_iff hempty context
  rw [← isSome_lookup] at hadmits
  refine .of_isSome hadmits (fun hl => ?_) fun endings hl => ?_
  · simp only [hl]
  · simp only [hl]
    exact ⟨_, rfl⟩

theorem postposition_answers (word : String) :
    (postposition name word).Answers name .number [] :=
  fun _ _ _ _ => number_decides.bind fun _ => ⟨_, rfl⟩

end

/-! ### The Hindi genitive -/

/-- A context with a number that is none behind its first dot. -/
def BadNumber (context : Option String) (number : String) : Prop :=
  number ≠ "" ∧ ¬ IsNumber number ∧
    ∃ gender : String, '.' ∉ gender.toList ∧ context = some (gender ++ "." ++ number)

section

variable {value : Value} {context : Option String} {setting : Setting} {text gender number : String}

/-- The word for a gender and a number; other genders have none. -/
def genitive? (gender : String) (n : Number) : Option String :=
  match gender, n with
  | "fem", _ => some "की"
  | "masc", .singular => some "का"
  | "masc", .plural => some "के"
  | _, _ => none

theorem isSome_genitive? (gender : String) (n : Number) :
    (genitive? gender n).isSome ↔ gender ∈ ["masc", "fem"] := by
  unfold genitive?
  split
  · simp
  · simp
  · simp
  · next hfem hsingular hplural =>
    have hmasc : gender ≠ "masc" := by
      rintro rfl
      cases n with
      | singular => exact hsingular rfl rfl
      | plural => exact hplural rfl rfl
    simp [hmasc, show gender ≠ "fem" from hfem]

/-- The number behind a dot, of which nothing may be left. -/
def genitiveNumber (rest : Option String) (setting : Setting) : Except EvalError Number :=
  if rest.getD "" = "" then .ok .singular else Transform.number "ka" rest setting

theorem hindiKa_some (value : Value) (text : String) (setting : Setting) :
    hindiKa value (some text) setting =
      (genitiveNumber (splitContext text).2 setting >>= fun n =>
        match genitive? (splitContext text).1 n with
        | some word => .ok (oblique value .singular ++ " " ++ word)
        | none => invalidContext "ka" (some text)) := by
  have hword (gender : String) (n : Number) : (do
      let word ← match gender, n with
        | "fem", _ => pure "की"
        | "masc", .singular => pure "का"
        | "masc", .plural => pure "के"
        | _, _ => invalidContext "ka" (some text)
      return oblique value .singular ++ " " ++ word) =
      match genitive? gender n with
      | some word => .ok (oblique value .singular ++ " " ++ word)
      | none => invalidContext "ka" (some text) := by
    unfold genitive?
    split <;> rfl
  cases hs : splitContext text with
  | mk gender rest =>
    simp only [hindiKa, genitiveNumber, hs]
    split
    · exact hword gender .singular
    · exact hword gender .singular
    · next rest hrest =>
      rw [Option.getD_some, if_neg hrest]
      exact bind_congr (hword gender)

theorem hindiKa_badNumber (h : BadNumber context number) :
    hindiKa value context setting = .error (.invalidContext "ka" number) := by
  obtain ⟨hne, hnumber, gender, hgender, rfl⟩ := h
  have hbad : Transform.number "ka" (some number) setting = invalidContext "ka" (some number) :=
    number_decides.refused (mt (fun | .number hn => hn) hnumber)
  rw [hindiKa_some, splitContext_append hgender, genitiveNumber, Option.getD_some, if_neg hne, hbad]
  rfl

theorem not_isNumber_empty : ¬ IsNumber "" := by
  rintro (hn | hn)
  · cases hn
  · revert hn
    decide

theorem mem_dotted_iff {text : String} : text ∈ ["masc.", "fem."] ↔
    (splitContext text).1 ∈ ["masc", "fem"] ∧ (splitContext text).2 = some "" := by
  constructor
  · intro ht
    rcases List.mem_pair.1 ht with rfl | rfl <;> decide
  · by_cases hdot : '.' ∈ text.toList
    · obtain ⟨head, rest, hhead, rfl⟩ := exists_append_of_mem hdot
      rw [splitContext_append hhead]
      rintro ⟨hh, he⟩
      cases he
      rcases List.mem_pair.1 hh with rfl | rfl <;> decide
    · rw [splitContext_of_not_mem hdot]
      exact fun h => nomatch h.2

/-- The contexts that the genitive takes: those of its form, and those that end in a bare dot. -/
def TakenByGenitive (context : Option String) : Prop :=
  (ContextForm.agreement ["masc", "fem"]).Admits context ∨ context ∈ [some "masc.", some "fem."]

theorem number_or_empty (h : ∀ number, ¬ BadNumber (some text) number) :
    ContextForm.number.Admits (splitContext text).2 ∨ (splitContext text).2 = some "" := by
  by_cases hdot : '.' ∈ text.toList
  · obtain ⟨head, rest, hhead, rfl⟩ := exists_append_of_mem hdot
    rw [splitContext_append hhead]
    by_cases hrest : rest = ""
    · exact .inr (congrArg some hrest)
    · by_contra hnot
      have hnumber : ¬ IsNumber rest := fun hn => hnot (.inl (.number hn))
      exact h rest ⟨hrest, hnumber, head, hhead, rfl⟩
  · rw [splitContext_of_not_mem hdot]
    exact .inl .noNumber

theorem takenByGenitive_iff (h : ∀ number, ¬ BadNumber (some text) number) :
    TakenByGenitive (some text) ↔ (splitContext text).1 ∈ ["masc", "fem"] := by
  have hmem : some text ∈ [some "masc.", some "fem."] ↔ text ∈ ["masc.", "fem."] := by simp
  rw [TakenByGenitive, admits_agreement_iff (by decide) text, hmem, mem_dotted_iff, ← and_or_left]
  exact and_iff_left (number_or_empty h)

theorem genitiveNumber_ok (h : ∀ number, ¬ BadNumber (some text) number) (setting : Setting) :
    ∃ n, genitiveNumber (splitContext text).2 setting = .ok n := by
  unfold genitiveNumber
  split
  · exact ⟨_, rfl⟩
  · next hne =>
    refine number_decides.taken ((number_or_empty h).resolve_right fun he => hne ?_)
    rw [he, Option.getD_some]

theorem not_takenByGenitive (h : BadNumber context number) : ¬ TakenByGenitive context := by
  obtain ⟨hne, hnumber, gender, hgender, rfl⟩ := h
  rintro (ha | hm)
  · rw [admits_agreement_iff (by decide), splitContext_append hgender] at ha
    obtain ⟨-, _ | hn⟩ := ha
    exact hnumber hn
  · have hempty := (mem_dotted_iff.1 (by simpa using hm)).2
    rw [splitContext_append hgender] at hempty
    exact hne (Option.some.inj hempty)

/-- Only a part of the context is a bad number. -/
theorem badNumber_ne (h : BadNumber context number) : number ≠ context.getD "" := by
  obtain ⟨-, -, gender, -, rfl⟩ := h
  intro he
  have hlength := congrArg (fun s : String => s.toList.length) he
  simp at hlength
  omega

/-- Without a bad number, the context counts as a whole. -/
theorem hindiKa_answers (h : ∀ number, ¬ BadNumber context number) (value : Value)
    (setting : Setting) :
    (TakenByGenitive context → ∃ text, hindiKa value context setting = .ok text) ∧
      (¬ TakenByGenitive context →
        hindiKa value context setting = invalidContext "ka" context) := by
  cases context with
  | none => exact ⟨fun _ => ⟨_, rfl⟩, fun hn => absurd (.inl .noHead) hn⟩
  | some text =>
    obtain ⟨n, hn⟩ := genitiveNumber_ok h setting
    rw [takenByGenitive_iff h, hindiKa_some, hn, ← isSome_genitive? _ n]
    simp only [bind, Except.bind]
    cases genitive? (splitContext text).1 n with
    | none => simp
    | some word => simp

end

end Transform

namespace Builtin

open Transform (Answers Ready BadNumber TakenByGenitive)

/-- The form of the contexts of a transform that reads them. To the English plural any text is a
key, so that it has no form. -/
def contextForm? : Builtin → Option ContextForm
  | cap | upper | lower | englishA | englishThe | englishPlural | arabicAl => none
  | spanishEl | spanishUn | portugueseO | portugueseUm | portugueseDe | portugueseEm
  | frenchLe | frenchUn | frenchDe | frenchAu | italianIl | italianUn | italianDi | italianA
  | dutchDe | dutchEen | romanianDef | hindiKo | hindiSe | hindiMe | hindiPar | hindiNe =>
    some .number
  | germanDer | germanEin => some (.agreement ["nom", "acc", "dat", "gen"])
  | greekO | greekEnas => some (.agreement ["nom", "acc", "gen"])
  | hindiKa => some (.agreement ["masc", "fem"])
  | chineseCount | japaneseCount | koreanCount | vietnameseCount | thaiCount => some .count
  | koreanParticle => some (.single ["subj", "obj", "topic", "and"])
  | turkishInflect => some (.suffixes ["pl", "dat", "loc", "abl"])
  | finnishInflect => some (.single ["pl", "ine", "ela", "ade", "abl", "all", "ess", "tra"])

/-- Where there is no form, the context makes no difference, except to the English plural. -/
theorem ignores_context {t : Builtin} (h : t.contextForm? = none) (hne : t ≠ englishPlural)
    (value : Value) (context other : Option String) (setting : Setting) :
    t.transform value context setting = t.transform value other setting := by
  cases t with
  | cap | upper | lower | englishA | englishThe | arabicAl => rfl
  | englishPlural => exact absurd rfl hne
  | _ => cases h

/-- All but the Hindi genitive go by the form. -/
theorem answers_contextForm {t : Builtin} {form : ContextForm} (hf : t.contextForm? = some form)
    (hne : t ≠ hindiKa) : ∃ name, t.transform.Answers name form t.options := by
  unfold transform
  cases t with
  | cap | upper | lower | englishA | englishThe | englishPlural | arabicAl => cases hf
  | hindiKa => exact absurd rfl hne
  | spanishEl | spanishUn | portugueseO | portugueseUm | portugueseDe | portugueseEm
  | frenchLe | frenchUn | frenchDe | frenchAu | italianIl | italianUn | italianDi | italianA =>
    cases hf
    exact ⟨_, Transform.gendered_answers _⟩
  | dutchDe =>
    cases hf
    exact ⟨_, Transform.dutchDe_answers⟩
  | dutchEen =>
    cases hf
    exact ⟨_, Transform.dutchEen_answers⟩
  | romanianDef =>
    cases hf
    exact ⟨_, Transform.romanianDef_answers⟩
  | hindiKo | hindiSe | hindiMe | hindiPar | hindiNe =>
    cases hf
    exact ⟨_, Transform.postposition_answers _⟩
  | germanDer | germanEin | greekO | greekEnas =>
    cases hf
    exact ⟨_, Transform.declined_answers _ (by decide)⟩
  | chineseCount | japaneseCount | koreanCount | vietnameseCount | thaiCount =>
    cases hf
    exact ⟨_, Transform.counted_answers (by decide) _⟩
  | koreanParticle =>
    cases hf
    exact ⟨_, Transform.koreanParticle_answers⟩
  | turkishInflect =>
    cases hf
    exact ⟨_, Transform.turkishInflect_answers⟩
  | finnishInflect =>
    cases hf
    exact ⟨_, Transform.finnishInflect_answers⟩

/-- A transform refuses the contexts that are not of its form, and names the whole context in the
error. Only the Hindi genitive takes two more, and names just the number where that is bad. -/
theorem context_refused_iff {t : Builtin} {form : ContextForm} {value : Value}
    (hf : t.contextForm? = some form) (hr : Ready t.options value) (context : Option String)
    (setting : Setting) :
    ((∃ name shown, t.transform value context setting = .error (.invalidContext name shown)) ↔
      ¬ form.Admits context ∧ ¬ (t = hindiKa ∧ context ∈ [some "masc.", some "fem."])) ∧
    ∀ name shown, t.transform value context setting = .error (.invalidContext name shown) →
      (shown = context.getD "" ↔ ¬ (t = hindiKa ∧ ∃ number, BadNumber context number)) := by
  by_cases ht : t = hindiKa
  · subst ht
    cases hf
    simp only [true_and, ← not_or, transform]
    rw [← TakenByGenitive]
    by_cases hbad : ∃ number, BadNumber context number
    · obtain ⟨number, hnumber⟩ := hbad
      have hpart := Transform.badNumber_ne hnumber
      rw [Transform.hindiKa_badNumber hnumber]
      refine ⟨iff_of_true ⟨_, _, rfl⟩ (Transform.not_takenByGenitive hnumber), ?_⟩
      rintro name shown ⟨⟩
      exact iff_of_false hpart fun h => h ⟨number, hnumber⟩
    · obtain ⟨htaken, hrefused⟩ := Transform.hindiKa_answers (not_exists.1 hbad) value setting
      by_cases hadmits : TakenByGenitive context
      · obtain ⟨text, htext⟩ := htaken hadmits
        simp [hadmits, htext]
      · simp [hadmits, hbad, hrefused hadmits, Transform.invalidContext]
  · obtain ⟨name, ha⟩ := answers_contextForm hf ht
    have hd := ha value hr context setting
    simp only [ht, false_and, not_false_iff, and_true, iff_true]
    by_cases hadmits : form.Admits context
    · obtain ⟨text, htext⟩ := hd.taken hadmits
      simp [hadmits, htext]
    · simp [hadmits, hd.refused hadmits, Transform.invalidContext]

/-- A case with a bare dot, in German. -/
theorem context_refused_iff_dot : ∃ name, germanDer.transform (.phrase (.tagged "Band" ["neut"]))
    (some "acc.") (.empty "de") = .error (.invalidContext name "acc.") := by
  have hr : Ready germanDer.options (.phrase (.tagged "Band" ["neut"])) :=
    fun _ => ⟨"neut", by decide⟩
  have hnot : ¬ (ContextForm.agreement ["nom", "acc", "dat", "gen"]).Admits (some "acc.") := by
    rw [Transform.admits_agreement_iff (by decide)]
    rintro ⟨-, ⟨⟩ | hn⟩
    exact Transform.not_isNumber_empty hn
  obtain ⟨hrefused, hshown⟩ := context_refused_iff rfl hr (some "acc.") (.empty "de")
  obtain ⟨name, shown, he⟩ := hrefused.2 ⟨hnot, fun h => nomatch h.1⟩
  have hwhole : shown = "acc." := (hshown name shown he).2 fun h => nomatch h.1
  exact ⟨name, hwhole ▸ he⟩

/-- The Hindi genitive takes a gender with a bare dot behind it. -/
theorem not_context_refused_iff : ¬ ∀ (t : Builtin) (form : ContextForm) (value : Value)
    (context : Option String) (setting : Setting), t.contextForm? = some form →
    Ready t.options value →
    ((∃ name shown, t.transform value context setting = .error (.invalidContext name shown)) ↔
      ¬ form.Admits context) ∧
    ∀ name shown, t.transform value context setting = .error (.invalidContext name shown) →
      shown = context.getD "" := by
  intro refuses
  have hnot : ¬ (ContextForm.agreement ["masc", "fem"]).Admits (some "masc.") := by
    rw [Transform.admits_agreement_iff (by decide)]
    rintro ⟨-, ⟨⟩ | hn⟩
    exact Transform.not_isNumber_empty hn
  obtain ⟨name, shown, he⟩ := (refuses hindiKa _ (.text "x") (some "masc.") (.empty "hi") rfl
    fun h => absurd rfl h).1.2 hnot
  cases he

end Builtin

end Phrasebook
