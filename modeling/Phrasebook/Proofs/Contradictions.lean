import Phrasebook.Proofs.TransformErrors
import Phrasebook.TagGroups

/-!
Tags that contradict each other. The tags of one group exclude each other, and a transform that
needs one of them refuses a phrase with two. One group escapes: of what an Italian noun starts with,
the vowel counts, and nothing is said of the other tag.
-/

namespace Phrasebook

/-- The phrase with other tags. -/
def Phrase.withTags (p : Phrase) (tags : TagSet) : Phrase :=
  { p with tags }

namespace TagSet

theorem mem_insertAll {s : TagSet} {tags : List String} {tag : String} :
    tag ∈ s.insertAll tags ↔ tag ∈ s ∨ tag ∈ tags := by
  induction tags generalizing s with
  | nil => exact ⟨.inl, fun h => h.resolve_right List.not_mem_nil⟩
  | cons first rest ih =>
    rw [insertAll, List.foldl_cons, ← insertAll, ih, mem_insert, List.mem_cons, or_assoc]

theorem mem_ofList {tags : List String} {tag : String} : tag ∈ ofList tags ↔ tag ∈ tags :=
  mem_insertAll.trans ⟨fun h => h.resolve_left List.not_mem_nil, .inr⟩

end TagSet

/-- The phrase with these tags and a single form. -/
def Phrase.tagged (text : String) (tags : List String) : Phrase :=
  ⟨text, .empty, .ofList tags⟩

/-- An error that is not about tags that contradict each other. -/
def EvalError.Consistent (e : EvalError) : Prop :=
  ∀ name tags, e ≠ .unsupportedTags name tags

open EvalError (Consistent)

namespace Transform

/-! ### What tags do to a transform -/

/-- Of the tags of a phrase the transform sees these and no others. -/
def Reads (t : Transform) (tags : List String) : Prop :=
  ∀ (p : Phrase) (a b : TagSet), (∀ tag ∈ tags, tag ∈ a ↔ tag ∈ b) → ∀ context setting,
    t (.phrase (p.withTags a)) context setting = t (.phrase (p.withTags b)) context setting

/-- In the context no tags make a difference. -/
def Blind (t : Transform) (context : Option String) (setting : Setting) : Prop :=
  ∀ (p : Phrase) (a b : TagSet),
    t (.phrase (p.withTags a)) context setting = t (.phrase (p.withTags b)) context setting

/-- In the context the result for some phrase changes with the tags that it has of the group. -/
def Heeds (t : Transform) (group : TagGroup) (context : Option String) (setting : Setting) : Prop :=
  ∃ (p : Phrase) (a b : TagSet), (∀ tag, tag ∉ group.members → (tag ∈ a ↔ tag ∈ b)) ∧
    t (.phrase (p.withTags a)) context setting ≠ t (.phrase (p.withTags b)) context setting

/-- The phrase brings a definite form along for the number of the context. -/
def HasDefinite (p : Phrase) (context : Option String) (setting : Setting) : Prop :=
  ∃ n, Number.ofContext? context setting = some n ∧
    ∃ key ∈ ["def." ++ n.key, "def"], (p.variants.lookup? key).isSome

/-- Several of the options among the tags of a phrase are refused, all of them by name. Otherwise
nothing is said of a contradiction. -/
def Judged (name : String) (options : List String) (p : Phrase)
    (result : Except EvalError String) : Prop :=
  if 1 < (options.filter p.hasTag).length then
    result = .error (.unsupportedTags name (options.filter p.hasTag))
  else FailsOnly Consistent result

/-- Where tags make a difference, the transform wants at most one of the options of every phrase
that is not spared. -/
def Demands (t : Transform) (name : String) (options : List String)
    (spared : Phrase → Option String → Setting → Prop) : Prop :=
  ∀ context setting, t.Blind context setting ∨
    ∀ p, ¬ spared p context setting → Judged name options p (t (.phrase p) context setting)

section

variable {t : Transform} {tags : List String} {group : TagGroup} {context : Option String}
  {setting : Setting}

theorem exists_mem_of_heeds (hr : t.Reads tags) (hh : t.Heeds group context setting) :
    ∃ tag ∈ group.members, tag ∈ tags := by
  obtain ⟨p, a, b, hab, hne⟩ := hh
  by_contra hnone
  refine hne (hr p a b (fun tag htag => hab tag fun hm => ?_) context setting)
  exact hnone ⟨tag, hm, htag⟩

/-- The tags of two phrases that come out differently are of the group, or common to both. -/
theorem heeds_of_ne {text : String} {own other : List String}
    (hgroup : ∀ tag ∈ own ++ other, tag ∈ group.members ∨ tag ∈ own ∧ tag ∈ other)
    (hne : t (.phrase (.tagged text own)) context setting ≠
      t (.phrase (.tagged text other)) context setting) : t.Heeds group context setting := by
  refine ⟨.ofText text, .ofList own, .ofList other, fun tag htag => ?_, hne⟩
  rw [TagSet.mem_ofList, TagSet.mem_ofList]
  constructor
  · exact fun h => ((hgroup tag (List.mem_append_left _ h)).resolve_left htag).2
  · exact fun h => ((hgroup tag (List.mem_append_right _ h)).resolve_left htag).1

theorem not_blind_of_heeds (hh : t.Heeds group context setting) : ¬ t.Blind context setting := by
  obtain ⟨p, a, b, -, hne⟩ := hh
  exact fun hb => hne (hb p a b)

theorem demands_of_reads_nil {spared : Phrase → Option String → Setting → Prop}
    (hr : t.Reads []) (name : String) (options : List String) : t.Demands name options spared :=
  fun context setting => .inl fun p a b => hr p a b nofun context setting

end

/-! ### The choice of a tag -/

section

variable {α : Type} {name : String} {options : List (String × α)} {tags : List String} {p : Phrase}

/-- Phrases that have the same ones of the options' tags fare alike with them. -/
theorem bind_choose_withTags {a b : TagSet} {f g : α → Except EvalError String}
    (ho : options.map Prod.fst = tags) (h : ∀ tag ∈ tags, tag ∈ a ↔ tag ∈ b) (hfg : f = g) :
    (choose name (.phrase (p.withTags a)) options >>= f) =
      (choose name (.phrase (p.withTags b)) options >>= g) := by
  subst ho hfg
  have hfilter : options.filter (fun option => (Value.phrase (p.withTags a)).hasTag option.1) =
      options.filter fun option => (Value.phrase (p.withTags b)).hasTag option.1 :=
    List.filter_congr fun option hm => decide_eq_decide.2 (h _ (List.mem_map_of_mem hm))
  simp only [choose, hfilter]
  rfl

/-- What is done with the choice brings no contradiction of its own. -/
theorem judged_choose {f : α → Except EvalError String} (ho : options.map Prod.fst = tags)
    (hf : ∀ a, FailsOnly Consistent (f a)) :
    Judged name tags p (choose name (.phrase p) options >>= f) := by
  subst ho
  have hfilter : (options.map Prod.fst).filter p.hasTag =
      (options.filter fun option => (Value.phrase p).hasTag option.1).map Prod.fst :=
    List.filter_map
  rw [Judged, hfilter, choose]
  cases options.filter fun option => (Value.phrase p).hasTag option.1 with
  | nil => exact FailsOnly.error nofun
  | cons option rest =>
    cases rest with
    | nil => exact hf option.2
    | cons other rest =>
      rw [if_pos (by simp)]
      rfl

end

variable {name : String} {spared : Phrase → Option String → Setting → Prop}

/-! ### Articles -/

theorem englishA_reads : englishA.Reads ["a", "an"] :=
  fun _ _ _ hab _ _ => bind_choose_withTags rfl hab rfl

theorem englishA_demands : englishA.Demands "a" ["a", "an"] spared :=
  fun _ _ => .inr fun _ _ => judged_choose rfl fun _ => .ok _

theorem dutchDe_reads : dutchDe.Reads ["de", "het"] := by
  intro p a b hab context setting
  refine bind_congr fun n => ?_
  cases n with
  | singular => exact bind_choose_withTags rfl hab rfl
  | plural => rfl

theorem dutchDe_demands : dutchDe.Demands "de" ["de", "het"] spared := by
  intro context setting
  simp only [Blind, dutchDe]
  cases number "de" context setting with
  | error e => exact .inl fun _ _ _ => rfl
  | ok n =>
    cases n with
    | singular => exact .inr fun _ _ => judged_choose rfl fun _ => .ok _
    | plural => exact .inl fun _ _ _ => rfl

theorem onset_withTags {p : Phrase} {a b : TagSet}
    (h : ∀ tag ∈ ["vowel", "s_imp"], tag ∈ a ↔ tag ∈ b) :
    Onset.of (.phrase (p.withTags a)) = Onset.of (.phrase (p.withTags b)) := by
  have hv : (Value.phrase (p.withTags a)).hasTag "vowel" =
      (Value.phrase (p.withTags b)).hasTag "vowel" := decide_eq_decide.2 (h _ (by simp))
  have hs : (Value.phrase (p.withTags a)).hasTag "s_imp" =
      (Value.phrase (p.withTags b)).hasTag "s_imp" := decide_eq_decide.2 (h _ (by simp))
  simp only [Onset.of, hv, hs]

theorem gendered_reads (articles : Articles) :
    (gendered name articles).Reads ["masc", "fem", "vowel", "s_imp"] := by
  intro p a b hab context setting
  refine bind_congr fun n => bind_choose_withTags rfl (fun tag htag => ?_) ?_
  · exact hab tag (List.mem_append_left ["vowel", "s_imp"] htag)
  · rw [onset_withTags fun tag htag => hab tag (List.mem_append_right ["masc", "fem"] htag)]
    rfl

theorem gendered_demands (articles : Articles) :
    (gendered name articles).Demands name ["masc", "fem"] spared := by
  intro context setting
  simp only [Blind, gendered]
  cases number name context setting with
  | error e => exact .inl fun _ _ _ => rfl
  | ok n => exact .inr fun _ _ => judged_choose rfl fun _ => .ok _

theorem declined_reads (cases : List (String × Case))
    (article : Case → Number → Gender → Option String) :
    (declined name cases article).Reads ["masc", "fem", "neut"] :=
  fun _ _ _ hab _ _ => bind_congr fun _ => bind_choose_withTags rfl hab rfl

theorem declined_demands (cases : List (String × Case))
    (article : Case → Number → Gender → Option String) :
    (declined name cases article).Demands name ["masc", "fem", "neut"] spared := by
  intro context setting
  simp only [Blind, declined]
  cases caseAndNumber name .nom cases context setting with
  | error e => exact .inl fun _ _ _ => rfl
  | ok found => exact .inr fun _ _ => judged_choose rfl fun _ => .ok _

theorem romanianDef_reads : romanianDef.Reads ["masc", "fem", "neut"] := by
  intro p a b hab context setting
  refine bind_congr fun n => ?_
  dsimp only [Value.phrase?, Phrase.withTags, Option.bind]
  split
  · rfl
  · exact bind_choose_withTags rfl hab rfl

/-- Behind the number, a definite form of the phrase comes before all else. -/
theorem romanianDef_phrase {p : Phrase} {context : Option String} {setting : Setting} {n : Number}
    (hn : number "def" context setting = .ok n) :
    romanianDef (.phrase p) context setting =
      match ["def." ++ n.key, "def"].findSome? p.variants.lookup? with
      | some text => .ok text
      | none => choose "def" (.phrase p) threeGenders >>= fun gender =>
        .ok (romanianEnding gender n (form (.phrase p) [n.key])) := by
  simp only [romanianDef, hn]
  rfl

theorem romanianDef_demands :
    romanianDef.Demands "def" ["masc", "fem", "neut"] HasDefinite := by
  intro context setting
  cases hn : Number.ofContext? context setting with
  | none =>
    simp only [Blind, romanianDef, number, hn]
    exact .inl fun _ _ _ => rfl
  | some n =>
    have hnumber : number "def" context setting = .ok n := by simp only [number, hn]
    refine .inr fun p hspared => ?_
    rw [romanianDef_phrase hnumber]
    cases he : ["def." ++ n.key, "def"].findSome? p.variants.lookup? with
    | some text =>
      obtain ⟨key, hkey, htext⟩ := List.exists_of_findSome?_eq_some he
      exact absurd ⟨n, hn, key, hkey, Option.isSome_of_eq_some htext⟩ hspared
    | none => exact judged_choose rfl fun _ => .ok _

theorem arabicAl_reads : arabicAl.Reads ["sun", "moon"] :=
  fun _ _ _ hab _ _ => bind_choose_withTags rfl hab rfl

theorem arabicAl_demands : arabicAl.Demands "al" ["sun", "moon"] spared := by
  refine fun _ _ => .inr fun _ _ => judged_choose rfl fun sun => ?_
  split
  · exact .ok _
  · exact .ok _

/-! ### Forms -/

theorem counted_reads (measures : List (String × String))
    (arrange : String → String → String → String) :
    (counted measures arrange).Reads (measures.map Prod.fst) := by
  intro p a b hab context setting
  simp only [counted]
  split
  · rfl
  · exact bind_choose_withTags rfl hab rfl

theorem counted_demands (measures : List (String × String))
    (arrange : String → String → String → String) :
    (counted measures arrange).Demands "count" (measures.map Prod.fst) spared := by
  intro context setting
  simp only [Blind, counted]
  split
  · exact .inl fun _ _ _ => rfl
  · exact .inr fun _ _ => judged_choose rfl fun _ => .ok _

theorem turkishInflect_reads : turkishInflect.Reads ["front", "back"] :=
  fun _ _ _ hab _ _ => bind_choose_withTags rfl hab rfl

theorem turkishInflect_demands : turkishInflect.Demands "inflect" ["front", "back"] spared := by
  refine fun _ _ => .inr fun _ _ => judged_choose rfl fun harmony => ?_
  split
  · exact .ok _
  · exact .error nofun

theorem finnishInflect_reads : finnishInflect.Reads ["back", "front"] :=
  fun _ _ _ hab _ _ => bind_choose_withTags rfl hab rfl

theorem finnishInflect_demands : finnishInflect.Demands "inflect" ["back", "front"] spared := by
  refine fun _ _ => .inr fun _ _ => judged_choose rfl fun harmony => ?_
  split
  · exact .error nofun
  · exact .ok _

theorem Judged.unsupported_iff {options : List String} {p : Phrase}
    {result : Except EvalError String} (h : Judged name options p result) :
    (∃ name tags, result = .error (.unsupportedTags name tags)) ↔
      1 < (options.filter p.hasTag).length := by
  unfold Judged at h
  split at h
  · exact ⟨fun _ => ‹_›, fun _ => ⟨_, _, h⟩⟩
  · refine ⟨fun ⟨name, tags, hr⟩ => ?_, fun hlt => absurd hlt ‹_›⟩
    exact absurd rfl (h _ hr name tags)

end Transform

open Transform (Judged)

namespace Builtin

/-- The tags of which the transform wants one. -/
def options : Builtin → List String
  | englishA => ["a", "an"]
  | dutchDe => ["de", "het"]
  | spanishEl | spanishUn | portugueseO | portugueseUm | portugueseDe | portugueseEm
  | frenchLe | frenchUn | frenchDe | frenchAu | italianIl | italianUn | italianDi | italianA =>
    ["masc", "fem"]
  | germanDer | germanEin | greekO | greekEnas | romanianDef => ["masc", "fem", "neut"]
  | arabicAl => ["sun", "moon"]
  | chineseCount => Transform.chineseMeasures.map Prod.fst
  | japaneseCount => Transform.japaneseMeasures.map Prod.fst
  | koreanCount => Transform.koreanMeasures.map Prod.fst
  | vietnameseCount => Transform.vietnameseMeasures.map Prod.fst
  | thaiCount => Transform.thaiMeasures.map Prod.fst
  | turkishInflect => ["front", "back"]
  | finnishInflect => ["back", "front"]
  | _ => []

/-- All the tags that make a difference to the transform: where there are two genders, the tags for
the first sound are among them. -/
def reads (t : Builtin) : List String :=
  t.options ++ if t.options = ["masc", "fem"] then ["vowel", "s_imp"] else []

theorem reads_only (t : Builtin) : t.transform.Reads t.reads := by
  unfold transform
  cases t with
  | cap | upper | lower | englishThe | englishPlural => exact fun _ _ _ _ _ _ => rfl
  | dutchEen | koreanParticle | hindiKa | hindiKo | hindiSe | hindiMe | hindiPar | hindiNe =>
    exact fun _ _ _ _ _ _ => rfl
  | englishA => exact Transform.englishA_reads
  | dutchDe => exact Transform.dutchDe_reads
  | spanishEl | spanishUn | portugueseO | portugueseUm | portugueseDe | portugueseEm
  | frenchLe | frenchUn | frenchDe | frenchAu | italianIl | italianUn | italianDi | italianA =>
    exact Transform.gendered_reads _
  | germanDer | germanEin | greekO | greekEnas => exact Transform.declined_reads _ _
  | romanianDef => exact Transform.romanianDef_reads
  | arabicAl => exact Transform.arabicAl_reads
  | chineseCount | japaneseCount | koreanCount | vietnameseCount | thaiCount =>
    exact Transform.counted_reads _ _
  | turkishInflect => exact Transform.turkishInflect_reads
  | finnishInflect => exact Transform.finnishInflect_reads

/-- A Romanian noun with a definite form of its own needs no ending. -/
def spared : Builtin → Phrase → Option String → Setting → Prop
  | romanianDef => Transform.HasDefinite
  | _ => fun _ _ _ => False

theorem demands_options (t : Builtin) :
    ∃ name, t.transform.Demands name t.options t.spared := by
  have hr := t.reads_only
  unfold transform at hr ⊢
  cases t with
  | cap | upper | lower | englishThe | englishPlural =>
    exact ⟨"", Transform.demands_of_reads_nil hr "" []⟩
  | dutchEen | koreanParticle | hindiKa | hindiKo | hindiSe | hindiMe | hindiPar | hindiNe =>
    exact ⟨"", Transform.demands_of_reads_nil hr "" []⟩
  | englishA => exact ⟨_, Transform.englishA_demands⟩
  | dutchDe => exact ⟨_, Transform.dutchDe_demands⟩
  | spanishEl | spanishUn | portugueseO | portugueseUm | portugueseDe | portugueseEm
  | frenchLe | frenchUn | frenchDe | frenchAu | italianIl | italianUn | italianDi | italianA =>
    exact ⟨_, Transform.gendered_demands _⟩
  | germanDer | germanEin | greekO | greekEnas => exact ⟨_, Transform.declined_demands _ _⟩
  | romanianDef => exact ⟨_, Transform.romanianDef_demands⟩
  | arabicAl => exact ⟨_, Transform.arabicAl_demands⟩
  | chineseCount | japaneseCount | koreanCount | vietnameseCount | thaiCount =>
    exact ⟨_, Transform.counted_demands _ _⟩
  | turkishInflect => exact ⟨_, Transform.turkishInflect_demands⟩
  | finnishInflect => exact ⟨_, Transform.finnishInflect_demands⟩

/-! ### The groups of a language and its transforms -/

/-- A group that makes a difference to a transform holds just the tags of which the transform wants
one. What a noun starts with is an exception: it matters beside the gender. -/
theorem options_of_group : ∀ entry ∈ TagGroups.table, ∀ t ∈ (named entry.1).map Prod.snd,
    ∀ group ∈ entry.2, (∀ tag ∈ group.members, tag ∉ t.reads) ∨
      if group.name = "onset" then t.options = ["masc", "fem"]
      else t.options.Perm group.members := by
  decide

section

variable {language : String} {group : TagGroup} {t : Builtin} {p : Phrase}
  {context : Option String} {setting : Setting}

/-- Where a group of the language makes a difference, and no form takes the place of the tags, the
transform judges the tags of which it wants one. -/
theorem judged_of_heeds (hg : group ∈ (TagGroups.forLanguage language).groups)
    (ht : t ∈ (named language).map Prod.snd) (hh : t.transform.Heeds group context setting)
    (hp : ¬ t.spared p context setting) :
    (if group.name = "onset" then t.options = ["masc", "fem"]
      else t.options.Perm group.members) ∧
      ∃ name, Judged name t.options p (t.transform (.phrase p) context setting) := by
  have hmem := (TagGroups.mem_table_of_groups language).resolve_left (List.ne_nil_of_mem hg)
  constructor
  · refine (options_of_group _ hmem t ht group hg).resolve_left fun hapart => ?_
    obtain ⟨tag, hm, hr⟩ := Transform.exists_mem_of_heeds t.reads_only hh
    exact hapart tag hm hr
  · obtain ⟨name, hd⟩ := t.demands_options
    have hsees := (hd context setting).resolve_left (Transform.not_blind_of_heeds hh)
    exact ⟨name, hsees p hp⟩

theorem one_lt_length_filter {α : Type} {xs : List α} {q : α → Bool} {a b : α} (ha : a ∈ xs)
    (hb : b ∈ xs) (hne : a ≠ b) (hqa : q a) (hqb : q b) : 1 < (xs.filter q).length := by
  have ha' := List.mem_filter.2 ⟨ha, hqa⟩
  have hb' := List.mem_filter.2 ⟨hb, hqb⟩
  match xs.filter q, ha', hb' with
  | [c], ha', hb' =>
    exact absurd ((List.mem_singleton.1 ha').trans (List.mem_singleton.1 hb').symm) hne
  | _ :: _ :: _, _, _ => simp

/-- Two tags of a group that makes a difference are refused, and the error names just the tags that
the phrase has of the group. Only two first sounds pass, unless there are two genders as well. -/
theorem contradiction_refused_iff {a b : String}
    (hg : group ∈ (TagGroups.forLanguage language).groups)
    (ht : t ∈ (named language).map Prod.snd) (hh : t.transform.Heeds group context setting)
    (hp : ¬ t.spared p context setting) (ha : a ∈ group.members)
    (hb : b ∈ group.members) (hne : a ≠ b) (hpa : p.hasTag a) (hpb : p.hasTag b) :
    ((∃ name tags, t.transform (.phrase p) context setting =
        .error (.unsupportedTags name tags)) ↔
      (group.name = "onset" → p.hasTag "masc" ∧ p.hasTag "fem")) ∧
    (group.name ≠ "onset" → ∃ name tags, t.transform (.phrase p) context setting =
        .error (.unsupportedTags name tags) ∧ tags.Perm (group.members.filter p.hasTag)) := by
  obtain ⟨ho, name, hj⟩ := judged_of_heeds hg ht hh hp
  by_cases honset : group.name = "onset"
  · rw [if_pos honset] at ho
    refine ⟨?_, fun h => absurd honset h⟩
    rw [hj.unsupported_iff, ho]
    cases hm : p.hasTag "masc" <;> cases hf : p.hasTag "fem" <;> simp [honset, hm, hf]
  · rw [if_neg honset] at ho
    have hperm := ho.filter p.hasTag
    have hlt : 1 < (t.options.filter p.hasTag).length := by
      rw [hperm.length_eq]
      exact one_lt_length_filter ha hb hne hpa hpb
    refine ⟨⟨fun _ h => absurd h honset, fun _ => hj.unsupported_iff.2 hlt⟩, fun _ => ?_⟩
    rw [Judged, if_pos hlt] at hj
    exact ⟨name, _, hj, hperm⟩

/-- Two of the three genders of German. -/
theorem contradiction_refused_iff_genders :
    ∃ name tags, germanDer.transform (.phrase (.tagged "Band" ["masc", "neut"])) none
        (.empty "de") = .error (.unsupportedTags name tags) ∧
      tags.Perm ["masc", "neut"] := by
  have hg : TagGroups.threeGenders ∈ (TagGroups.forLanguage "de").groups := by decide
  have ht : germanDer ∈ (named "de").map Prod.snd := by decide
  have hh : germanDer.transform.Heeds TagGroups.threeGenders none (.empty "de") := by
    have hne : germanDer.transform (.phrase (.tagged "Band" ["masc"])) none (.empty "de") ≠
        germanDer.transform (.phrase (.tagged "Band" ["neut"])) none (.empty "de") := by decide
    exact Transform.heeds_of_ne (by decide) hne
  have ha : "masc" ∈ TagGroups.threeGenders.members := by decide
  have hb : "neut" ∈ TagGroups.threeGenders.members := by decide
  exact (contradiction_refused_iff hg ht hh not_false ha hb (by decide) (by decide) (by decide)).2
    (by decide)

/-- With a vowel the other first sound goes unnoticed. -/
theorem not_contradiction_refused : ¬ ∀ (language : String) (group : TagGroup) (t : Builtin)
    (p : Phrase) (context : Option String) (setting : Setting),
    group ∈ (TagGroups.forLanguage language).groups → t ∈ (named language).map Prod.snd →
    t.transform.Heeds group context setting → ¬ t.spared p context setting →
    (∃ a ∈ group.members, ∃ b ∈ group.members, a ≠ b ∧ p.hasTag a ∧ p.hasTag b) →
    ∃ name tags, t.transform (.phrase p) context setting =
      .error (.unsupportedTags name tags) := by
  intro refuses
  have hh : italianIl.transform.Heeds ⟨"onset", ["vowel", "s_imp"]⟩ none (.empty "it") := by
    have hne : italianIl.transform (.phrase (.tagged "studente" ["masc", "vowel"])) none
        (.empty "it") ≠ italianIl.transform (.phrase (.tagged "studente" ["masc", "s_imp"]))
        none (.empty "it") := by decide
    exact Transform.heeds_of_ne (by decide) hne
  obtain ⟨name, tags, h⟩ := refuses "it" ⟨"onset", ["vowel", "s_imp"]⟩ italianIl
    (.tagged "studente" ["masc", "vowel", "s_imp"]) none (.empty "it") (by decide) (by decide)
    hh not_false ⟨"vowel", by decide, "s_imp", by decide, by decide⟩
  cases h

end

end Builtin

end Phrasebook
