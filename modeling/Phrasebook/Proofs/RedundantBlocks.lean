import Phrasebook.Proofs.RedundantSelectors

/-!
Blocks that are reported to do with a single template: every entry passes a form of the inherited
parameter on, at one and the same place. What the report leaves aside is under which of its keys an
entry does so, and what stands in the other holes.
-/

namespace Phrasebook

namespace Definition

variable {d : Definition} {parameter key : String} {entries : List Entry}

theorem mem_redundantBlock_of_lint {name language language' : String}
    (h : .redundantBlock name language ∈ d.lint language') :
    .redundantBlock name language ∈ d.redundantBlock language' := by
  simp only [lint, List.mem_append] at h
  rcases h with ((hb | hs) | hm) | hv
  · exact hb
  · obtain ⟨_, _, _, _, _, _, _, hw⟩ := mem_redundantSelectors.1 hs
    cases hw
  · unfold missingFrom at hm
    split at hm
    · cases hm
    · obtain ⟨_, -, hw⟩ := Option.map_eq_some_iff.1 (Option.mem_toList.1 hm)
      cases hw
  · unfold verboseWrapper at hv
    split at hv
    · split at hv
      · cases List.mem_singleton.1 hv
      · cases hv
    · cases hv

theorem eq_of_mem_redundantBlock {language : String} {w : Warning}
    (hw : w ∈ d.redundantBlock language) : w = .redundantBlock d.name language := by
  unfold redundantBlock at hw
  split at hw
  · split at hw
    · split at hw
      · exact List.mem_singleton.1 hw
      · cases hw
    · cases hw
  · cases hw

theorem segments_of_passingShape? {entry : Entry} {shapes : List Shape}
    (h : passingShape? parameter entry = some shapes) :
    entry.template.segments.map (shape parameter entry.keys) = shapes := by
  unfold passingShape? at h
  dsimp only at h
  split at h
  · exact Option.some.inj h
  · cases h

/-- The entries of a block that is reported all look the same. -/
theorem exists_shapes {language : String} {w : Warning} (hw : w ∈ d.redundantBlock language)
    (hb : d.inheritingBlock? = some (parameter, entries)) :
    ∃ shapes, ∀ entry ∈ entries,
      entry.template.segments.map (shape parameter entry.keys) = shapes := by
  unfold redundantBlock at hw
  rw [hb] at hw
  split at hw
  · next first rest he =>
    cases he
    split at hw
    · next shapes hfirst =>
      split at hw
      · next hrest =>
        refine ⟨shapes, fun entry hm => segments_of_passingShape? ?_⟩
        rcases List.mem_cons.1 hm with rfl | hm
        · exact hfirst
        · exact of_decide_eq_true (List.all_eq_true.1 hrest entry hm)
      · cases hw
    · cases hw
  · cases hw

theorem shape_eq_passed {keys : List EntryKey} {s : Segment} :
    shape parameter keys s = .passed ↔
      ∃ key, s = .formOf parameter key ∧ ∃ own ∈ keys, own.variantKey = key := by
  cases s with
  | literal text => simp [shape, Segment.formOf]
  | interpolation hole =>
    simp only [shape, Segment.formOf, Segment.interpolation.injEq, ← passedKey?_eq_some]
    rw [← Option.isSome_iff_exists]
    split
    · next h => simp [h]
    · next h => simp [h]

/-- All entries of a block that is reported pass a form on at the same place. -/
theorem Passes.of_redundantBlock {language : String} {w : Warning}
    (hw : w ∈ d.redundantBlock language) {i j : Nat} {entry : Entry}
    (hp : d.Passes entries i entry j parameter key) {m : Nat} {other : Entry}
    (hm : entries[m]? = some other) : ∃ key', d.Passes entries m other j parameter key' := by
  obtain ⟨shapes, hall⟩ := exists_shapes hw hp.block
  have hj : shapes[j]? = some .passed := by
    rw [← hall entry (List.mem_of_getElem? hp.place), List.getElem?_map, hp.hole]
    exact congrArg some (shape_eq_passed.2 ⟨key, rfl, hp.own⟩)
  rw [← hall other (List.mem_of_getElem? hm), List.getElem?_map] at hj
  obtain ⟨s, hs, hshape⟩ := Option.map_eq_some_iff.1 hj
  obtain ⟨key', rfl, hown⟩ := shape_eq_passed.1 hshape
  exact ⟨key', hp.block, hm, hs, hown⟩

end Definition

namespace Rendering

variable {c : Conventions} {call : Call} {d : Definition} {arguments : List Value}
  {parameter : String} {entries : List Entry} {j : Nat} {p : Phrase}

/-- A form of a block is the text of the last entry for its key, around the form passed on. -/
theorem variant_of_passes {i : Nat} {entry : Entry} {key : String}
    (hp : d.Passes entries i entry j parameter key)
    (hv : (Bindings.ofArguments d.parameters arguments).value parameter = .ok (.phrase p))
    {result : Phrase} (h : definition c call d arguments = .ok result) {k : String}
    (hi : lastPlace k entries = some i) :
    template c call (.ofArguments d.parameters arguments)
      (entry.template.put j (.literal (p.variant key))) = .ok (result.variant k) := by
  rw [definition_of_block hp.block hv] at h
  obtain ⟨r, hblock, rfl⟩ := map_eq_ok.1 h
  rw [← variant_of_block hblock hi hp.place]
  conv => rhs; rw [← Template.put_of_getElem? hp.hole]
  exact template_put_congr (segment_formOf hv key).symm

/-- A form of the suggested phrase is the suggested text around that form of the parameter, which
all other holes see as well. -/
theorem variant_of_suggestion {i : Nat} {entry : Entry} {key : String}
    (hp : d.Passes entries i entry j parameter key)
    (hv : (Bindings.ofArguments d.parameters arguments).value parameter = .ok (.phrase p))
    {result : Phrase}
    (h : definition c call (d.withBody (.template (entry.template.put j (.bare parameter))))
      arguments = .ok result) (k : String) :
    template c call ((parameter, .phrase (p.withText (p.variant k))) ::
        Bindings.ofArguments d.parameters arguments)
      (entry.template.put j (.literal (p.variant k))) = .ok (result.variant k) := by
  obtain ⟨hi, -, -⟩ := Definition.inheritingBlock?_eq_some.1 hp.block
  have hi' : (d.withBody (.template (entry.template.put j (.bare parameter)))).inherits =
      some parameter := hi
  obtain ⟨inherited, hs, hf, -⟩ := definition_eq_ok.1 h
  obtain rfl := Except.ok.inj ((source_of_inherits hi' hv).symm.trans hs)
  rw [forms_of_selectors (by intro entries he; cases he)] at hf
  rw [← variant_of_perForm hv hf k]
  apply template_put_congr
  rw [segment_bare (v := .phrase (p.withText (p.variant k)))]
  · rfl
  · rw [Bindings.value_cons, if_pos rfl]

/-- Where the rest of two templates is the same and does not read the parameter, all depends on what
is in the hole. -/
theorem put_literal_eq_iff {b : Bindings} {t t' : Template} {v : Value}
    {held held' text text' : String}
    (ht : template c call b (t.put j (.literal held)) = .ok text)
    (ht' : template c call ((parameter, v) :: b) (t'.put j (.literal held')) = .ok text')
    (hj : j < t.segments.length) (hrest : t.put j (.literal "") = t'.put j (.literal ""))
    (hreads : parameter ∉ (t'.put j (.literal "")).reads) : text = text' ↔ held = held' := by
  have hput (s : Segment) : t.put j s = t'.put j s := by
    rw [← Template.put_put t j (.literal ""), hrest, Template.put_put]
  have hsame : template c call ((parameter, v) :: b) (t'.put j (.literal held')) =
      template c call b (t.put j (.literal held')) := by
    rw [hput]
    refine template_congr (fun n hn => ?_) fun _ _ => rfl
    rw [Template.reads_put_literal] at hn
    rw [Bindings.value_cons, if_neg (ne_of_mem_of_not_mem hn hreads)]
  rw [hsame] at ht'
  rcases template_put c call b hj with ⟨e, he⟩ | ⟨before, behind, hx⟩
  · rw [he _ _ rfl] at ht
    cases ht
  · rw [hx _ _ rfl, Except.ok.injEq] at ht ht'
    rw [← ht, ← ht', String.append_left_inj, String.append_right_inj]

end Rendering

namespace Locale

variable {l : Locale} {name : String} {d : Definition} {entries : List Entry} {j : Nat}
  {first : Entry} {parameter key₀ : String}

theorem Checked.replaces_template (h : l.Checked) (hd : l.phrases.get? name = some d) {i : Nat}
    (hp : d.Passes entries i first j parameter key₀) :
    l.Replaces d (d.withBody (.template (first.template.put j (.bare parameter)))) := by
  obtain ⟨hi, -, -⟩ := Definition.inheritingBlock?_eq_some.1 hp.block
  apply h.replaces_withBody hd hi
  · intro t ht hole hh
    obtain rfl := List.mem_singleton.1 ht
    refine (Template.mem_interpolations_put hh).imp_left fun hm => ?_
    exact Definition.mem_interpolations_of_mem_templates hp.template_mem hm
  · intro entries he
    cases he

/-- The phrase that is suggested for a block has the form of the block under a key just when the two
texts around the hole agree there; where nothing but the keys of the hole differs, when the form
that the entry passes on is the form for the key. A transform that reads the phrases of its locale
would tell the two definitions apart by itself. -/
theorem redundantBlock_iff {b : Blueprint} (h : b.build = .ok l) (hb : b.KeepsToLanguage)
    (hd : l.phrases.get? name = some d) (hw : .redundantBlock name l.language ∈ l.lint)
    (hp : d.Passes entries 0 first j parameter key₀) {arguments : List Value} {p : Phrase}
    (hv : (Bindings.ofArguments d.parameters arguments).value parameter = .ok (.phrase p))
    {result result' : Phrase} (hr : l.call name arguments = .ok result)
    (hr' : (l.redefine (d.withBody (.template (first.template.put j (.bare parameter))))).call
      name arguments = .ok result')
    {k : String} (hk : k ∈ (entries.flatMap Entry.keys).map EntryKey.variantKey) :
    ∃ i entry key, Rendering.lastPlace k entries = some i ∧
      d.Passes entries i entry j parameter key ∧
      (result.variant k = result'.variant k ↔
        Rendering.template l.conventions l.call (.ofArguments d.parameters arguments)
            (entry.template.put j (.literal (p.variant key))) =
          Rendering.template l.conventions l.call
            ((parameter, .phrase (p.withText (p.variant k))) ::
              Bindings.ofArguments d.parameters arguments)
            (first.template.put j (.literal (p.variant k)))) ∧
      (entry.template.put j (.literal "") = first.template.put j (.literal "") →
        parameter ∉ (first.template.put j (.literal "")).reads →
        (result.variant k = result'.variant k ↔ p.variant key = p.variant k)) := by
  have hc := checked_of_build h
  have ha := hc.length_of_call_eq_ok hd hr
  obtain rfl := hc.named name d hd
  have hmem : .redundantBlock d.name l.language ∈ d.redundantBlock l.language := by
    obtain ⟨other, d', hd', hw⟩ := mem_lint.1 hw
    have hw := Definition.mem_redundantBlock_of_lint hw
    have hname := (Warning.redundantBlock.inj (Definition.eq_of_mem_redundantBlock hw)).1
    rw [hc.named other d' hd'] at hname
    rw [← hname, hd] at hd'
    cases hd'
    exact hw
  have hreplace := hc.replaces_template hd hp
  have hcall := hreplace.call_redefine hc (hb.of_build h) ha
  rw [Definition.name_withBody] at hcall
  rw [hcall] at hr'
  rw [hc.call_of_get? hd ha] at hr
  obtain ⟨i, entry, hlast, hplace, -⟩ := Rendering.exists_lastPlace hk
  obtain ⟨key, hpasses⟩ := hp.of_redundantBlock hmem hplace
  have hblock := Rendering.variant_of_passes hpasses hv hr hlast
  have hsuggestion := Rendering.variant_of_suggestion hp hv hr' k
  refine ⟨i, entry, key, hlast, hpasses, ?_, fun hrest hreads => ?_⟩
  · rw [hblock, hsuggestion, Except.ok.injEq]
  · have hj := (List.getElem?_eq_some_iff.1 hpasses.hole).1
    exact Rendering.put_literal_eq_iff hblock hsuggestion hj hrest hreads

/-- A block whose first entry passes the form for `nom` on under two keys. -/
def declining : Blueprint where
  language := "ru"
  source := "noun($p) = :from($p) \x7b nom, acc: \"\x7b$p:nom\x7d\", " ++
    "other: \"\x7b$p:other\x7d\" \x7d;"

def nominative : Entry :=
  ⟨[⟨[.literal "nom"]⟩, ⟨[.literal "acc"]⟩], ⟨[.formOf "p" "nom"]⟩⟩

def noun : Definition where
  name := "noun"
  parameters := ["p"]
  tags := []
  inherits := some "p"
  selectors := []
  body := .entries [nominative, passing "other"]
  bodyless := false
  position := ⟨1, 1⟩

def karta : Phrase where
  text := "karta"
  variants := ⟨[("nom", "karta"), ("acc", "kartu"), ("other", "karty")], by decide, by decide⟩
  tags := .empty

theorem passes_noun : noun.Passes [nominative, passing "other"] 0 nominative 0 "p" "nom" :=
  ⟨rfl, rfl, rfl, _, List.mem_cons_self, by decide⟩

theorem declining_built : ∃ l result result', declining.build = .ok l ∧
    l.phrases.get? "noun" = some noun ∧ .redundantBlock "noun" l.language ∈ l.lint ∧
    l.call "noun" [.phrase karta] = .ok result ∧
    (l.redefine (noun.withBody (.template (nominative.template.put 0 (.bare "p"))))).call
      "noun" [.phrase karta] = .ok result' ∧
    result.variant "acc" = "karta" ∧ result'.variant "acc" = "kartu" := by
  have h : ∃ l, declining.build = .ok l ∧ decide (l.phrases.get? "noun" = some noun ∧
      .redundantBlock "noun" l.language ∈ l.lint ∧
      (l.call "noun" [.phrase karta]).toOption.map (·.variant "acc") = some "karta" ∧
      ((l.redefine (noun.withBody (.template (nominative.template.put 0 (.bare "p"))))).call
        "noun" [.phrase karta]).toOption.map (·.variant "acc") = some "kartu") :=
    exists_of_build (by decide +kernel)
  obtain ⟨l, hl, ht⟩ := h
  obtain ⟨hd, hw, hr, hr'⟩ := of_decide_eq_true ht
  obtain ⟨result, hr, hv⟩ := Option.map_eq_some_iff.1 hr
  obtain ⟨result', hr', hv'⟩ := Option.map_eq_some_iff.1 hr'
  exact ⟨l, result, result', hl, hd, hw, eq_ok_of_toOption hr, eq_ok_of_toOption hr', hv, hv'⟩

theorem redundantBlock_iff_declining : ∃ l result result', declining.build = .ok l ∧
    declining.KeepsToLanguage ∧ l.phrases.get? "noun" = some noun ∧ .redundantBlock "noun" l.language ∈ l.lint ∧
    l.call "noun" [.phrase karta] = .ok result ∧
    (l.redefine (noun.withBody (.template (nominative.template.put 0 (.bare "p"))))).call
      "noun" [.phrase karta] = .ok result' ∧
    ∃ i entry key, Rendering.lastPlace "acc" [nominative, passing "other"] = some i ∧
      noun.Passes [nominative, passing "other"] i entry 0 "p" key ∧
      (result.variant "acc" = result'.variant "acc" ↔
        Rendering.template l.conventions l.call (.ofArguments noun.parameters [.phrase karta])
            (entry.template.put 0 (.literal (karta.variant key))) =
          Rendering.template l.conventions l.call
            (("p", .phrase (karta.withText (karta.variant "acc"))) ::
              Bindings.ofArguments noun.parameters [.phrase karta])
            (nominative.template.put 0 (.literal (karta.variant "acc")))) ∧
      (entry.template.put 0 (.literal "") = nominative.template.put 0 (.literal "") →
        "p" ∉ (nominative.template.put 0 (.literal "")).reads →
        (result.variant "acc" = result'.variant "acc" ↔
          karta.variant key = karta.variant "acc")) := by
  obtain ⟨l, result, result', hl, hd, hw, hr, hr', -⟩ := declining_built
  have hk : declining.KeepsToLanguage := .of_transforms_eq_nil rfl
  exact ⟨l, result, result', hl, hk, hd, hw, hr, hr',
    redundantBlock_iff hl hk hd hw passes_noun rfl hr hr' (by decide)⟩

/-- What is suggested does not always give the same forms: the block has `karta` under `acc`, where
a single template takes `kartu` over. -/
theorem not_redundantBlock_sound : ¬ ∀ (b : Blueprint) (l : Locale) (name : String)
    (d : Definition) (entries : List Entry) (first : Entry) (j : Nat) (parameter key : String),
    b.build = .ok l → b.KeepsToLanguage → l.phrases.get? name = some d →
    .redundantBlock name l.language ∈ l.lint → d.Passes entries 0 first j parameter key →
    ∀ (arguments : List Value) (p result result' : Phrase),
      (Bindings.ofArguments d.parameters arguments).value parameter = .ok (.phrase p) →
      l.call name arguments = .ok result →
      (l.redefine (d.withBody (.template (first.template.put j (.bare parameter))))).call
        name arguments = .ok result' →
      ∀ k ∈ (entries.flatMap Entry.keys).map EntryKey.variantKey,
        result.variant k = result'.variant k := by
  intro sound
  obtain ⟨l, result, result', hl, hd, hw, hr, hr', hv, hv'⟩ := declining_built
  have heq := sound _ l _ _ _ _ _ _ _ hl (.of_transforms_eq_nil rfl) hd hw passes_noun _ karta
    result result' rfl hr hr' "acc" (by decide)
  rw [hv, hv'] at heq
  exact absurd heq (by decide)

end Locale

end Phrasebook
