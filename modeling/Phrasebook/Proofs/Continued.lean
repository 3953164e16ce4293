import Phrasebook.Proofs.Outcomes
import Phrasebook.Proofs.SourceCompleteness

/-!
Texts with a further line behind them. What a text spells it still spells when a line end and more
follow, and the more is left: no word, gap or quotation runs on over the line end, except a gap at
the very end of the text, which goes on into what follows.
-/

namespace Phrasebook

open Text Template.Grammar Reader

namespace Source

variable {text rest : List Char} {name : String}

/-! ### Gaps and words -/

/-- A line end begins no comment. -/
theorem skipGap_cons_append (inComment : Bool) (c : Char) (rest later : List Char) :
    skipGap inComment (c :: rest ++ '\n' :: later) =
      if inComment then skipGap (c ≠ '\n') (rest ++ '\n' :: later)
      else if c = '/' ∧ rest.head? = some '/' then skipGap true (rest ++ '\n' :: later)
      else if isBlank c then skipGap false (rest ++ '\n' :: later)
      else c :: rest ++ '\n' :: later := by
  have hhead : (rest ++ '\n' :: later).head? = some '/' ↔ rest.head? = some '/' := by
    cases rest <;> simp
  simp only [List.cons_append, skipGap, hhead]

/-- A gap that ends before the text does ends there still. One up to the end goes on over the line
end, even if it is a comment. -/
theorem skipGap_append (inComment : Bool) (text later : List Char) :
    skipGap inComment (text ++ '\n' :: later) =
      if skipGap inComment text = [] then skipGap false later
      else skipGap inComment text ++ '\n' :: later := by
  fun_induction skipGap inComment text with
  | case1 inComment =>
    cases inComment with
    | true => rfl
    | false => simp [skipGap, isBlank]
  | case2 c rest ih => rw [skipGap_cons_append, if_pos rfl, ih]
  | case3 inComment c rest hin hs ih => rw [skipGap_cons_append, if_neg hin, if_pos hs, ih]
  | case4 inComment c rest hin hs hb ih =>
    rw [skipGap_cons_append, if_neg hin, if_neg hs, if_pos hb, ih]
  | case5 inComment c rest hin hs hb =>
    rw [skipGap_cons_append, if_neg hin, if_neg hs, if_neg hb, if_neg (List.cons_ne_nil c rest)]

theorem Gap.append (h : Gap text rest) (hne : rest ≠ []) (later : List Char) :
    Gap (text ++ '\n' :: later) (rest ++ '\n' :: later) := by
  rw [← h] at hne ⊢
  exact (skipGap_append ..).trans (if_neg hne)

theorem ended_append {p : Char → Bool} (hp : p '\n' = false) (h : Ended p rest)
    (later : List Char) : Ended p (rest ++ '\n' :: later) := by
  cases rest with
  | nil =>
    rintro c ⟨⟩
    exact hp
  | cons d rest => exact h

theorem word_append {first p : Char → Bool} {word : String} (hp : p '\n' = false)
    (h : Word first p text word rest) (later : List Char) :
    Word first p (text ++ '\n' :: later) word (rest ++ '\n' :: later) where
  spelled := by rw [h.spelled, List.append_assoc]
  inside := h.inside
  ended := ended_append hp h.ended later
  start := h.start

theorem name_append (h : Name text name rest) (later : List Char) :
    Name (text ++ '\n' :: later) name (rest ++ '\n' :: later) :=
  word_append (by decide) h later

theorem blanks_append (h : Blanks text rest) (hne : rest ≠ []) (later : List Char) :
    Blanks (text ++ '\n' :: later) (rest ++ '\n' :: later) := by
  obtain ⟨blanks, hr⟩ := h
  obtain ⟨c, more, rfl⟩ := List.exists_cons_of_ne_nil hne
  exact ⟨blanks, ⟨by rw [hr.spelled, List.append_assoc], hr.inside, hr.ended⟩⟩

theorem ne_nil_of_length_lt (h : rest.length < text.length) : text ≠ [] :=
  List.ne_nil_of_length_pos (Nat.zero_lt_of_lt h)

/-! ### Keys and entries -/

theorem Quotation.append {content : String} (h : Quotation text content rest) (later : List Char) :
    Quotation (text ++ '\n' :: later) content (rest ++ '\n' :: later) := by
  obtain ⟨hg⟩ := h
  rw [List.cons_append, List.append_assoc]
  exact .mk hg

theorem Part.append {part : KeyPart} (h : Part text part rest) (later : List Char) :
    Part (text ++ '\n' :: later) part (rest ++ '\n' :: later) := by
  cases h with
  | word hw => exact .word (word_append (by decide) hw later)
  | star => exact .star
  | labelled hw => exact .labelled (word_append (by decide) hw later)

theorem Parts.append {parts : List KeyPart} (h : Parts text parts rest) (later : List Char) :
    Parts (text ++ '\n' :: later) parts (rest ++ '\n' :: later) := by
  induction h with
  | last hp => exact .last (hp.append later)
  | more hp _ ih => exact .more (hp.append later) ih

theorem Keys.append {keys : List EntryKey} (h : Keys text keys rest) (later : List Char) :
    Keys (text ++ '\n' :: later) keys (rest ++ '\n' :: later) := by
  induction h with
  | last hk hg => exact .last (hk.append later) (hg.append (List.cons_ne_nil _ _) later)
  | more hk hg hn hs ih =>
    exact .more (hk.append later) (hg.append (List.cons_ne_nil _ _) later)
      (hn.append (ne_nil_of_length_lt hs.length_lt) later) ih

theorem Entry.append {entry : Draft.Entry} (h : Source.Entry text entry rest)
    (later : List Char) : Source.Entry (text ++ '\n' :: later) entry (rest ++ '\n' :: later) := by
  obtain ⟨hk, hg, hq⟩ := h
  exact .mk (hk.append later) (hg.append (ne_nil_of_length_lt hq.length_lt) later)
    (hq.append later)

theorem Entries.append {entries : List Draft.Entry} (h : Entries text entries rest)
    (later : List Char) : Entries (text ++ '\n' :: later) entries (rest ++ '\n' :: later) := by
  induction h with
  | last he hg => exact .last (he.append later) (hg.append (List.cons_ne_nil _ _) later)
  | comma he hg hn =>
    exact .comma (he.append later) (hg.append (List.cons_ne_nil _ _) later)
      (hn.append (List.cons_ne_nil _ _) later)
  | more he hg hn hs ih =>
    exact .more (he.append later) (hg.append (List.cons_ne_nil _ _) later)
      (hn.append (ne_nil_of_length_lt hs.length_lt) later) ih

theorem Body.append {body : Draft.Body} (h : Source.Body text body rest) (later : List Char) :
    Source.Body (text ++ '\n' :: later) body (rest ++ '\n' :: later) := by
  cases h with
  | absent => exact .absent
  | template hq hg => exact .template (hq.append later) (hg.append (List.cons_ne_nil _ _) later)
  | entries hn he hg =>
    exact .entries (hn.append (ne_nil_of_length_lt he.length_lt) later) (he.append later)
      (hg.append (List.cons_ne_nil _ _) later)

/-! ### Modifiers and parameters -/

theorem Selecting.append {names : List String} (h : Selecting text names rest)
    (later : List Char) : Selecting (text ++ '\n' :: later) names (rest ++ '\n' :: later) := by
  induction h with
  | last hn hb =>
    exact .last (name_append hn later) (blanks_append hb (List.cons_ne_nil _ _) later)
  | more hn hb hs hm ih =>
    exact .more (name_append hn later) (blanks_append hb (List.cons_ne_nil _ _) later)
      (blanks_append hs (ne_nil_of_length_lt hm.length_lt) later) ih

theorem Modifier.append {modifier : Phrasebook.Modifier} (h : Source.Modifier text modifier rest)
    (later : List Char) :
    Source.Modifier (text ++ '\n' :: later) modifier (rest ++ '\n' :: later) := by
  cases h with
  | tag hn hfrom hmatch => exact .tag (name_append hn later) hfrom hmatch
  | inherits hf hb hn he =>
    exact .inherits (name_append hf later) (blanks_append hb (List.cons_ne_nil _ _) later)
      (name_append hn later) (blanks_append he (List.cons_ne_nil _ _) later)
  | selects hm hb hs =>
    exact .selects (name_append hm later)
      (blanks_append hb (ne_nil_of_length_lt hs.length_lt) later) (hs.append later)

theorem Tail.append {modifiers : List Phrasebook.Modifier} {body : Draft.Body}
    (h : Tail text modifiers body rest) (later : List Char) :
    Tail (text ++ '\n' :: later) modifiers body (rest ++ '\n' :: later) := by
  induction h with
  | body hb => exact .body (hb.append later)
  | modifier hm hg ht ih =>
    exact .modifier (hm.append later) (hg.append (ne_nil_of_length_lt ht.length_lt) later) ih

theorem SomeParameters.append {names : List String} (h : SomeParameters text names rest)
    (later : List Char) : SomeParameters (text ++ '\n' :: later) names (rest ++ '\n' :: later) := by
  induction h with
  | last hg hn he =>
    exact .last (hg.append (List.cons_ne_nil _ _) later) (name_append hn later)
      (he.append (List.cons_ne_nil _ _) later)
  | more hg hn he _ ih =>
    exact .more (hg.append (List.cons_ne_nil _ _) later) (name_append hn later)
      (he.append (List.cons_ne_nil _ _) later) ih

theorem Parameters.append {names : List String} (h : Parameters text names rest)
    (later : List Char) : Parameters (text ++ '\n' :: later) names (rest ++ '\n' :: later) := by
  cases h with
  | absent => exact .absent
  | none hg => exact .none (hg.append (List.cons_ne_nil _ _) later)
  | some hs => exact .some (hs.append later)

/-! ### Definitions -/

theorem Definition.append {draft : Draft} (h : Source.Definition text draft rest)
    (later : List Char) :
    Source.Definition (text ++ '\n' :: later) draft (rest ++ '\n' :: later) := by
  obtain ⟨hc, hsmall, hn, hg, hp, he, hb, ht⟩ := h
  refine .mk ?_ hsmall (name_append hn later) (hg.append ?_ later) (hp.append later)
    (he.append (List.cons_ne_nil _ _) later)
    (hb.append (ne_nil_of_length_lt ht.length_lt) later) (ht.append later)
  · rw [List.head?_append, hc]
    rfl
  · exact ne_nil_of_length_lt (Nat.lt_of_lt_of_le he.length_lt hp.length_le)

end Source

/-- The same definition, written with so many more characters to come. -/
structure RawDefinition.Moved (more : Nat) (raw moved : RawDefinition) : Prop where
  draft : moved.draft = raw.draft
  left : moved.left = raw.left + more

/-- What is read becomes something else. -/
def Outcome.map {α β : Type} (f : α → β) : Outcome α → Outcome β
  | .done value rest => .done (f value) rest
  | .declined wanted rest => .declined wanted rest
  | .stuck wanted rest => .stuck wanted rest

section

open Source

variable {text start rest : List Char} {raw : RawDefinition}

theorem left_of_definition (h : Grammar.definition text = .done raw rest) :
    raw.left = text.length := by
  simp only [Grammar.definition, bind_eq_done, many_bind_eq_done, left_eq_done, pure_eq_done] at h
  obtain ⟨_, _, ⟨rfl, rfl⟩, _, _, -, _, _, -, _, _, -, _, _, -, _, _, -, _, _, -, _, _, -, _, _, -,
    _, _, -, _, _, -, rfl, rfl⟩ := h
  rfl

/-- Two texts that differ in the gap before their definitions are read alike. -/
theorem definitions_congr {other : List Char} (h : skipGap false text = skipGap false other) :
    Grammar.definitions text = Grammar.definitions other := by
  change many _ (skipGap false text) = many _ (skipGap false other)
  rw [h]

theorem definitions_cons (hg : Gap text start) (hd : Grammar.definition start = .done raw rest)
    (hlt : rest.length < start.length) :
    Grammar.definitions text = (Grammar.definitions rest).map (raw :: ·) := by
  have hitem : (do
      let definition ← Grammar.definition
      gap
      return definition : Reader RawDefinition) start = .done raw (skipGap false rest) :=
    bind_eq_done.2 ⟨raw, rest, hd, bind_eq_done.2 ⟨(), _, gap_done rfl, pure_eq_done.2 ⟨rfl, rfl⟩⟩⟩
  have hgap (text : List Char) : Grammar.definitions text = many (do
      let definition ← Grammar.definition
      gap
      return definition) (skipGap false text) := rfl
  have hshorter := Nat.lt_of_le_of_lt (length_skipGap_le false rest) hlt
  rw [hgap text, hg, many]
  simp only [hitem, if_pos hshorter, ← hgap rest]
  cases Grammar.definitions rest <;> rfl

theorem Outcome.map_map {α β γ : Type} (f : α → β) (g : β → γ) (outcome : Outcome α) :
    (outcome.map f).map g = outcome.map (g ∘ f) := by
  cases outcome <;> rfl

/-- Definitions are read up to the line end as if nothing followed, then what follows is read. -/
theorem definitions_of_append {drafts : List Draft} (hg : Gap text start)
    (hs : Definitions start drafts) (later : List Char) :
    ∃ raws moved, Grammar.definitions text = .done raws [] ∧
      Grammar.definitions (text ++ '\n' :: later) =
        (Grammar.definitions later).map (moved ++ ·) ∧
      List.Forall₂ (RawDefinition.Moved (later.length + 1)) raws moved := by
  induction hs generalizing text with
  | nil =>
    obtain ⟨raws, hraws, hdone⟩ := definitions_of_source ⟨[], hg, .nil⟩
    rw [List.map_eq_nil_iff] at hraws
    subst hraws
    refine ⟨[], [], hdone, ?_, .nil⟩
    rw [definitions_congr ((skipGap_append ..).trans (if_pos hg))]
    cases Grammar.definitions later <;> rfl
  | @cons start stop next draft drafts hd hn hs ih =>
    obtain ⟨raws, moved, hraws, hmoved, hall⟩ := ih hn
    obtain ⟨raw, hdraft, hraw⟩ := definition_complete hd
    obtain ⟨raw', hdraft', hraw'⟩ := definition_complete (hd.append later)
    have hstart := hg.append (ne_nil_of_length_lt hd.length_lt) later
    refine ⟨raw :: raws, raw' :: moved, ?_, ?_, .cons ⟨hdraft'.trans hdraft.symm, ?_⟩ hall⟩
    · rw [definitions_cons hg hraw hd.length_lt, hraws]
      rfl
    · rw [definitions_cons hstart hraw' (hd.append later).length_lt, hmoved, Outcome.map_map]
      rfl
    · rw [left_of_definition hraw', left_of_definition hraw, List.length_append, List.length_cons]

end

end Phrasebook
