import Phrasebook.Proofs.Blocks
import Phrasebook.Proofs.Redefinition

/-!
Definitions with another hole in the place of one of theirs, and what becomes of the text around it.
-/

namespace Phrasebook

open Text

namespace Segment

/-- The parameter as it is. -/
def bare (parameter : String) : Segment :=
  .interpolation ⟨none, .parameter parameter, []⟩

/-- The form of a parameter under a key. -/
def formOf (parameter key : String) : Segment :=
  .interpolation ⟨none, .parameter parameter, [.literal key]⟩

end Segment

namespace Template

/-- The template with another segment at a place. -/
def put (t : Template) (j : Nat) (s : Segment) : Template :=
  ⟨t.segments.set j s⟩

theorem put_of_getElem? {t : Template} {j : Nat} {s : Segment} (h : t.segments[j]? = some s) :
    t.put j s = t := by
  obtain ⟨hj, rfl⟩ := List.getElem?_eq_some_iff.1 h
  rw [put, List.set_getElem_self]

theorem put_put (t : Template) (j : Nat) (s s' : Segment) : (t.put j s).put j s' = t.put j s' := by
  simp only [put, List.set_set]

theorem reads_put_literal (t : Template) (j : Nat) (text text' : String) :
    (t.put j (.literal text)).reads = (t.put j (.literal text')).reads := by
  have h : (t.put j (.literal text)).interpolations =
      (t.put j (.literal text')).interpolations := by
    simp only [interpolations, put, List.set_eq_take_append_cons_drop]
    split
    · simp only [List.filterMap_append, List.filterMap_cons]
    · rfl
  rw [reads, h, reads]

theorem mem_interpolations_put {t : Template} {j : Nat} {parameter : String}
    {hole : Interpolation} (h : hole ∈ (t.put j (.bare parameter)).interpolations) :
    hole ∈ t.interpolations ∨ hole = ⟨none, .parameter parameter, []⟩ := by
  rcases List.mem_or_eq_of_mem_set (mem_interpolations.1 h) with hm | he
  · exact .inl (mem_interpolations.2 hm)
  · exact .inr (Segment.interpolation.inj he)

end Template

namespace Entry

/-- The entry with another segment at a place of its template. -/
def put (entry : Entry) (j : Nat) (s : Segment) : Entry :=
  { entry with template := entry.template.put j s }

variable {entries : List Entry} {entry : Entry} {i j : Nat}

theorem map_keys_set_put (he : entries[i]? = some entry) (s : Segment) :
    (entries.set i (entry.put j s)).map keys = entries.map keys := by
  obtain ⟨hi, rfl⟩ := List.getElem?_eq_some_iff.1 he
  rw [List.map_set, put, ← List.getElem_map keys (h := by simpa using hi), List.set_getElem_self]

theorem set_put_of_getElem? (he : entries[i]? = some entry) {s : Segment}
    (hs : entry.template.segments[j]? = some s) : entries.set i (entry.put j s) = entries := by
  obtain ⟨hi, rfl⟩ := List.getElem?_eq_some_iff.1 he
  rw [put, Template.put_of_getElem? hs, List.set_getElem_self]

end Entry

namespace Rendering

variable {c : Conventions} {call : Call} {b : Bindings} {parameter : String}

theorem segment_bare {v : Value} (hv : b.value parameter = .ok v) :
    segment c call b (.bare parameter) = .ok v.shown := by
  simp only [Segment.bare, segment, interpolation, reference, hv]
  cases v <;> rfl

theorem segment_formOf {v : Value} (hv : b.value parameter = .ok v) (key : String) :
    segment c call b (.formOf parameter key) = .ok (v.variantText key) := by
  have hk : joinSegments [key] = key := by simp [joinSegments]
  simp only [Segment.formOf, segment, interpolation, reference, hv]
  cases v with
  | number n => rfl
  | text content => rfl
  | phrase p =>
    change Except.ok (p.withText (p.variant (joinSegments [key]))).text = _
    rw [hk]
    rfl

theorem template_put_congr {t : Template} {j : Nat} {s s' : Segment}
    (h : segment c call b s = segment c call b s') :
    template c call b (t.put j s) = template c call b (t.put j s') := by
  simp only [template, Template.put, mapM_set_congr h]

variable (c call b) in
/-- The text at a place of a template stands between two others, if these can be rendered. -/
theorem template_put {t : Template} {j : Nat} (hj : j < t.segments.length) :
    (∃ e, ∀ s text, segment c call b s = .ok text →
      template c call b (t.put j s) = .error e) ∨
      ∃ before after, ∀ s text, segment c call b s = .ok text →
        template c call b (t.put j s) = .ok (before ++ text ++ after) := by
  rcases mapM_set (f := segment c call b) hj with ⟨e, he⟩ | ⟨before, after, -, h⟩
  · refine .inl ⟨e, fun s text hs => ?_⟩
    rw [template, Template.put, he s text hs]
    rfl
  · refine .inr ⟨String.join before, String.join after, fun s text hs => ?_⟩
    rw [template, Template.put, h s text hs, Except.map, String.join_append, String.join_cons,
      String.append_assoc]

variable {entries : List Entry} {entry : Entry} {i j : Nat}

theorem keyed_set_put {α : Type} (he : entries[i]? = some entry) (s : Segment)
    (values : List α) : keyed (entries.set i (entry.put j s)) values = keyed entries values := by
  rw [keyed, keyed, Entry.map_keys_set_put he]

variable (c call b) in
theorem texts_put (he : entries[i]? = some entry) (hj : j < entry.template.segments.length) :
    (∃ e, ∀ s text, segment c call b s = .ok text →
      texts c call b (entries.set i (entry.put j s)) = .error e) ∨
      ∃ (found after : List String) (before behind : String), found.length = i ∧
        ∀ s text, segment c call b s = .ok text →
          texts c call b (entries.set i (entry.put j s)) =
            .ok (found ++ (before ++ text ++ behind) :: after) := by
  obtain ⟨hi, -⟩ := List.getElem?_eq_some_iff.1 he
  rcases template_put c call b hj with ⟨e, ht⟩ | ⟨before, behind, ht⟩
  · -- Whatever the hole is, the entry fails in the same way.
    left
    cases hx : texts c call b (entries.set i (entry.put j (.literal ""))) with
    | error e' =>
      refine ⟨e', fun s text hs => ?_⟩
      rw [← hx]
      exact mapM_set_congr ((ht s text hs).trans (ht _ _ rfl).symm)
    | ok found =>
      obtain ⟨text, -, hok⟩ := getElem?_of_mapM_eq_ok hx (List.getElem?_set_self hi)
      rw [Entry.put, ht _ _ rfl] at hok
      cases hok
  · rcases mapM_set (f := fun entry => template c call b entry.template) hi with
      ⟨e, hx⟩ | ⟨found, after, hl, hx⟩
    · exact .inl ⟨e, fun s text hs => hx _ _ (ht s text hs)⟩
    · exact .inr ⟨found, after, before, behind, hl, fun s text hs => hx _ _ (ht s text hs)⟩

theorem block_set_put (he : entries[i]? = some entry) (s : Segment) :
    block c call b (entries.set i (entry.put j s)) =
      texts c call b (entries.set i (entry.put j s)) >>= outcome c entries := by
  have ho : outcome c (entries.set i (entry.put j s)) = outcome c entries := by
    funext found
    simp only [outcome, tableOf, keyed_set_put he]
  rw [block_eq, ho]

theorem getD_middle_self (found after : List String) (text : String) :
    (found ++ text :: after).getD found.length "" = text := by
  rw [List.getD_eq_getElem?_getD, List.getElem?_append_right (Nat.le_refl _), Nat.sub_self]
  rfl

theorem getD_middle_of_ne {found after : List String} {m : Nat} (h : m ≠ found.length)
    (text text' : String) :
    (found ++ text :: after).getD m "" = (found ++ text' :: after).getD m "" := by
  induction found generalizing m with
  | nil =>
    cases m with
    | zero => exact absurd rfl h
    | succ m => rfl
  | cons first rest ih =>
    cases m with
    | zero => rfl
    | succ m => exact ih fun hm => h (congrArg _ hm)

/-- Another hole makes another outcome just when the entry shows and the hole reads otherwise. -/
theorem block_put_iff (he : entries[i]? = some entry) (hj : j < entry.template.segments.length)
    (ho : ∃ key ∈ entries.flatMap Entry.keys, endsInOther key.variantKey) {s s' : Segment}
    {text text' : String} (hs : segment c call b s = .ok text)
    (hs' : segment c call b s' = .ok text') :
    block c call b (entries.set i (entry.put j s')) =
        block c call b (entries.set i (entry.put j s)) ↔
      ¬ ((∃ r, block c call b (entries.set i (entry.put j s)) = .ok r) ∧ Shows c entries i ∧
        text ≠ text') := by
  simp only [block_set_put he]
  rcases texts_put c call b he hj with
    ⟨e, hx⟩ | ⟨found, after, before, behind, hl, hx⟩
  · rw [hx s text hs, hx s' text' hs']
    simp [bind, Except.bind]
  · have hlen (text : String) : (found ++ (before ++ text ++ behind) :: after).length =
        entries.length := by
      have h := length_of_texts_eq_ok (hx (.literal text) text rfl)
      rwa [List.length_set] at h
    obtain ⟨t, ht⟩ := exists_tableOf ho (hlen text)
    have hok : ∃ r, outcome c entries (found ++ (before ++ text ++ behind) :: after) = .ok r :=
      ⟨_, bind_eq_ok.2 ⟨t, ht, rfl⟩⟩
    rw [hx s text hs, hx s' text' hs']
    change outcome c entries _ = outcome c entries _ ↔ ¬ ((∃ r, outcome c entries _ = .ok r) ∧ _)
    rw [outcome_eq_iff (hlen _) (hlen _) ho]
    constructor
    · rintro h ⟨-, hi, hne⟩
      have heq := h i hi
      rw [← hl, getD_middle_self, getD_middle_self, String.append_left_inj,
        String.append_right_inj] at heq
      exact hne heq.symm
    · intro h m hm
      by_cases hmi : m = found.length
      · have heq : text = text' := by
          by_contra hne
          exact h ⟨hok, hl ▸ hmi ▸ hm, hne⟩
        rw [heq]
      · exact getD_middle_of_ne hmi _ _

end Rendering

/-- The definition with another body. -/
def Definition.withBody (d : Definition) (body : Body) : Definition :=
  { d with body }

@[simp] theorem Definition.name_withBody (d : Definition) (body : Body) :
    (d.withBody body).name = d.name := rfl

/-- A body of the old holes and of bare inherited parameters may take the place of the old one. -/
theorem Locale.Checked.replaces_withBody {l : Locale} (h : l.Checked) {name : String}
    {d : Definition} (hd : l.phrases.get? name = some d) {parameter : String}
    (hi : d.inherits = some parameter) {body : Body}
    (hh : ∀ t ∈ body.templates, ∀ hole ∈ t.interpolations,
      hole ∈ d.interpolations ∨ hole = ⟨none, .parameter parameter, []⟩)
    (ho : ∀ entries, body = .entries entries → d.selectors = [] →
      ∃ key ∈ entries.flatMap Entry.keys, endsInOther key.variantKey) :
    l.Replaces d (d.withBody body) := by
  have hs := h.supported name d hd
  have hmem : ∀ hole ∈ (d.withBody body).interpolations,
      hole ∈ d.interpolations ∨ hole = ⟨none, .parameter parameter, []⟩ := by
    intro hole hm
    obtain ⟨t, ht, hm⟩ := List.mem_flatMap.1 hm
    exact hh t ht hole hm
  have hcalls : ∀ k ∈ (d.withBody body).calls, k ∈ d.calls := by
    intro k hk
    obtain ⟨hole, hm, hk⟩ := List.mem_flatMap.1 hk
    rcases hmem hole hm with hm | rfl
    · exact List.mem_flatMap.2 ⟨hole, hm, hk⟩
    · cases hk
  refine ⟨?_, rfl, ⟨hs.inherits, hs.selectors, ?_, ?_, ?_, ho⟩, hcalls⟩
  · rw [← hd]
    exact congrArg _ (h.named name d hd)
  · intro hole hm n hn
    rcases hmem hole hm with hm | rfl
    · exact hs.reads hole hm n hn
    · obtain rfl : n = parameter := by
        simpa [Interpolation.reads, Reference.reads] using hn
      exact hs.inherits n hi
  · exact fun k hk => hs.calls k (hcalls k hk)
  · intro hole hm t ht
    rcases hmem hole hm with hm | rfl
    · exact hs.transforms hole hm t ht
    · cases ht

end Phrasebook
