import Phrasebook.Proofs.SourceCompleteness

/-!
How far a reader can go: forwards only. What it leaves is the end of what it was given, whether it
is done or gives up, and the texts that it reads and the places that it notes are in between.
-/

namespace Phrasebook

open Text

/-- What is left, and what is read if anything is, are as described. -/
inductive Outcome.Ends {α : Type} (P : List Char → Prop) (Q : α → Prop) : Outcome α → Prop where
  | done {value : α} {rest : List Char} (hl : P rest) (hq : Q value) : Ends P Q (.done value rest)
  | declined {wanted : Wanted} {rest : List Char} (hl : P rest) : Ends P Q (.declined wanted rest)
  | stuck {wanted : Wanted} {rest : List Char} (hl : P rest) : Ends P Q (.stuck wanted rest)

namespace Outcome.Ends

variable {α : Type} {P P' : List Char → Prop} {Q Q' : α → Prop} {outcome : Outcome α}

theorem mono (h : outcome.Ends P Q) (hp : ∀ rest, P rest → P' rest) (hq : ∀ a, Q a → Q' a) :
    outcome.Ends P' Q' := by
  cases h with
  | done hl ha => exact .done (hp _ hl) (hq _ ha)
  | declined hl => exact .declined (hp _ hl)
  | stuck hl => exact .stuck (hp _ hl)

theorem of_done (h : outcome.Ends P Q)
    (hq : ∀ a rest, outcome = .done a rest → Q' a) : outcome.Ends P Q' := by
  cases h with
  | done hl _ => exact .done hl (hq _ _ rfl)
  | declined hl => exact .declined hl
  | stuck hl => exact .stuck hl

end Outcome.Ends

/-- No more than so many characters are left, and what is read is as described. -/
abbrev Outcome.Within {α : Type} (most : Nat) (Q : α → Prop) : Outcome α → Prop :=
  Outcome.Ends (fun rest => rest.length ≤ most) Q

namespace Reader

/-- Given the end of a source, it leaves one, and what it reads is as described. -/
def Keeps {α : Type} (source : List Char) (Q : α → Prop) (r : Reader α) : Prop :=
  ∀ text, text <:+ source → (r text).Ends (· <:+ source) Q

namespace Keeps

variable {α β : Type} {source : List Char} {Q : α → Prop} {P : β → Prop} {r s : Reader α}
  {t : Reader β}

theorem pure {a : α} (h : Q a) : Keeps source Q (Pure.pure a) :=
  fun _ hl => .done hl h

theorem bind {f : β → Reader α} (h : Keeps source P t) (hf : ∀ b, P b → Keeps source Q (f b)) :
    Keeps source Q (t >>= f) := by
  intro text hl
  have ho := h text hl
  rw [bind_apply]
  generalize t text = outcome at ho ⊢
  cases ho with
  | done hl hb => exact hf _ hb _ hl
  | declined hl => exact .declined hl
  | stuck hl => exact .stuck hl

theorem left : Keeps source (· ≤ source.length) Reader.left :=
  fun _ hl => .done hl hl.length_le

theorem ofOption {f : List Char → Option (α × List Char)}
    (h : ∀ text a rest, f text = some (a, rest) → rest <:+ text) :
    Keeps source (fun _ => True) (Reader.ofOption f) := by
  intro text hl
  unfold Reader.ofOption
  split
  · next value rest hf => exact .done ((h text value rest hf).trans hl) trivial
  · exact .declined hl

theorem drop {f : List Char → List Char} (h : ∀ text, f text <:+ text) :
    Keeps source (fun _ => True) (Reader.drop f) :=
  fun text hl => .done ((h text).trans hl) trivial

theorem commit (h : Keeps source Q r) : Keeps source Q (Reader.commit r) := by
  intro text hl
  have ho := h text hl
  unfold Reader.commit
  generalize r text = outcome at ho ⊢
  cases ho with
  | done hl hq => exact .done hl hq
  | declined hl => exact .stuck hl
  | stuck hl => exact .stuck hl

theorem explain {f : Wanted → Wanted} (h : Keeps source Q r) :
    Keeps source Q (Reader.explain f r) := by
  intro text hl
  have ho := h text hl
  unfold Reader.explain
  generalize r text = outcome at ho ⊢
  cases ho with
  | done hl hq => exact .done hl hq
  | declined hl => exact .declined hl
  | stuck hl => exact .stuck hl

theorem orElse (hr : Keeps source Q r) (hs : Keeps source Q s) :
    Keeps source Q (Reader.orElse r s) := by
  intro text hl
  have ho := hr text hl
  unfold Reader.orElse
  generalize r text = outcome at ho ⊢
  cases ho with
  | done hl hq => exact .done hl hq
  | declined _ => exact hs text hl
  | stuck hl => exact .stuck hl

theorem optional (h : Keeps source Q r) : Keeps source (fun _ => True) (Reader.optional r) := by
  intro text hl
  have ho := h text hl
  unfold Reader.optional
  generalize r text = outcome at ho ⊢
  cases ho with
  | done hl _ => exact .done hl trivial
  | declined _ => exact .done hl trivial
  | stuck hl => exact .stuck hl

theorem many (h : Keeps source Q r) : Keeps source (fun as => ∀ a ∈ as, Q a) (Reader.many r) := by
  intro text hl
  have ho := h text hl
  fun_induction Reader.many r text with
  | case1 => exact .done hl (List.forall_mem_nil _)
  | case2 text wanted rest hr =>
    rw [hr] at ho
    cases ho with
    | stuck hl => exact .stuck hl
  | case3 text a middle hr hlt as stop hm ih =>
    rw [hr] at ho
    cases ho with
    | done hl hq =>
      have hs := ih hl (h middle hl)
      rw [hm] at hs
      cases hs with
      | done hl hqs => exact .done hl (List.forall_mem_cons.2 ⟨hq, hqs⟩)
  | case4 text a middle hr hlt hne ih =>
    rw [hr] at ho
    cases ho with
    | done hl hq => exact ih hl (h middle hl)
  | case5 text a middle hr hge =>
    rw [hr] at ho
    cases ho with
    | done hl hq => exact .done hl (List.forall_mem_singleton.2 hq)

theorem separated1 (hr : Keeps source Q r) (ht : Keeps source P t) :
    Keeps source (fun as => ∀ a ∈ as, Q a) (Reader.separated1 r t) :=
  hr.bind fun _ ha => (ht.bind fun _ _ => hr).many.bind fun _ hs =>
    pure (List.forall_mem_cons.2 ⟨ha, hs⟩)

theorem char (c : Char) : Keeps source (fun _ => True) (Reader.char c) := by
  refine ofOption fun text a rest h => ?_
  rw [char_eq_done.1 (ofOption_eq_done.2 h)]
  exact List.suffix_cons c rest

theorem expect (c : Char) : Keeps source (fun _ => True) (Reader.expect c) :=
  (char c).explain

theorem name : Keeps source (fun _ => True) Reader.name :=
  ofOption fun _ _ _ h => ⟨_, (Template.name?_eq_some.1 h).spelled.symm⟩

theorem word : Keeps source (fun _ => True) Reader.word :=
  ofOption fun _ _ _ h => ⟨_, (Template.run?_eq_some.1 h).spelled.symm⟩

theorem parameter : Keeps source (fun _ => True) Reader.parameter :=
  (char '$').bind fun _ _ => name

theorem blanks : Keeps source (fun _ => True) Reader.blanks :=
  drop fun text => text.dropWhile_suffix isBlank

theorem gap : Keeps source (fun _ => True) Reader.gap :=
  drop (Source.skipGap_suffix false)

end Keeps

end Reader

/-! ### Quoted texts -/

namespace Quoted

open Reader

/-- The text stands in the source where it notes, its characters spelled between quotes. -/
structure Between (source before : List Char) (q : Quoted) (after : List Char) : Prop where
  spelled : ∀ g ∈ q.glyphs, g.Spelled
  source_eq : source = before ++ '"' :: (q.glyphs.flatMap Glyph.spelling ++ '"' :: after)
  left : before.length + q.left = source.length

def Stands (source : List Char) (q : Quoted) : Prop :=
  ∃ before after, q.Between source before after

variable {source : List Char} {q : Quoted}

theorem Stands.left_le (h : q.Stands source) : q.left ≤ source.length := by
  obtain ⟨before, after, h⟩ := h
  rw [← h.left]
  exact Nat.le_add_left _ _

theorem stands_of_quoted {text rest : List Char} (h : quoted text = .done q rest)
    (hs : text <:+ source) : q.Stands source := by
  obtain ⟨hall, rfl, hl⟩ := quoted_eq_done.1 h
  obtain ⟨before, rfl⟩ := hs
  exact ⟨before, rest, hall, rfl, by rw [hl, List.length_append]⟩

theorem letterEscape_keeps : Keeps source (fun _ => True) letterEscape := by
  refine .ofOption fun text c rest h => ?_
  obtain ⟨letter, rfl, -⟩ := letterEscape_eq_done.1 (ofOption_eq_done.2 h)
  exact List.suffix_cons letter rest

theorem hexDigits_keeps : Keeps source (fun _ => True) hexDigits := by
  refine .ofOption fun text n rest h => ?_
  obtain ⟨-, -, -, -, hr⟩ := hexDigits_eq_done.1 (ofOption_eq_done.2 h)
  obtain ⟨digits, rfl, -⟩ := exists_of_hexRun hr
  exact List.suffix_append digits rest

theorem hexOpening_keeps : Keeps source (fun _ => True) hexOpening := by
  refine .ofOption fun text u rest h => ?_
  rw [hexOpening_eq_done.1 (ofOption_eq_done.2 h)]
  exact List.suffix_append ['u', '{'] rest

theorem hexEscape_keeps : Keeps source (fun _ => True) hexEscape := by
  intro text hl
  have hvalue : Keeps source (fun _ => True) (do
      hexOpening
      let value ← hexDigits
      char '}'
      return value : Reader Nat) :=
    hexOpening_keeps.bind fun _ _ => hexDigits_keeps.bind fun _ _ => (Keeps.char '}').bind
      fun _ _ => .pure trivial
  have ho := hvalue text hl
  unfold hexEscape
  dsimp only
  split
  · next n rest hv =>
    rw [hv] at ho
    cases ho with
    | done hrest _ =>
      split
      · exact .done hrest trivial
      · exact .declined hl
  · next wanted rest hv =>
    rw [hv] at ho
    cases ho with
    | declined hrest => exact .declined hrest
  · next wanted rest hv =>
    rw [hv] at ho
    cases ho with
    | stuck hrest => exact .stuck hrest

theorem glyph_keeps : Keeps source (fun _ => True) glyph := by
  intro text hl
  unfold glyph
  split
  · exact .declined hl
  · exact .declined hl
  · next rest =>
    have hescape : Keeps source (fun _ => True) (commit (labelled "escape sequence" escape)) :=
      (letterEscape_keeps.orElse hexEscape_keeps).explain.commit
    have ho := hescape rest ((List.suffix_cons _ _).trans hl)
    generalize commit (labelled "escape sequence" escape) rest = outcome at ho ⊢
    cases ho with
    | done hrest _ => exact .done hrest trivial
    | declined hrest => exact .declined hrest
    | stuck hrest => exact .stuck hrest
  · exact .done ((List.suffix_cons _ _).trans hl) trivial

theorem quoted_keeps : Keeps source (Stands source) quoted := by
  intro text hl
  have hends : Keeps source (fun _ => True) quoted :=
    Keeps.left.bind fun _ _ => (Keeps.char '"').bind fun _ _ => glyph_keeps.many.bind fun _ _ =>
      (Keeps.expect '"').commit.bind fun _ _ => .pure trivial
  exact (hends text hl).of_done fun q rest hq => stands_of_quoted hq hl

end Quoted

/-! ### Definitions -/

def RawBody.texts : RawBody → List Quoted
  | .template text => [text]
  | .entries es => es.map RawEntry.text
  | .absent => []

/-- The texts of a definition that are read as templates, in their order. -/
def RawDefinition.texts (raw : RawDefinition) : List Quoted :=
  raw.body.texts

def Modifier.Within (most : Nat) : Modifier → Prop
  | .unknown _ left => left ≤ most
  | _ => True

def RawBody.Within (most : Nat) : RawBody → Prop
  | .template text => text.left ≤ most
  | .entries es => ∀ entry ∈ es, entry.text.left ≤ most
  | .absent => True

/-- The places that a definition notes, each with no more characters to come. -/
structure RawDefinition.Within (most : Nat) (raw : RawDefinition) : Prop where
  left : raw.left ≤ most
  modifiers : ∀ m ∈ raw.modifiers, m.Within most
  body : raw.body.Within most

/-- The places that a definition notes lie in the source, and its texts stand there. -/
structure RawDefinition.Stands (source : List Char) (raw : RawDefinition) : Prop where
  left : raw.left ≤ source.length
  modifiers : ∀ m ∈ raw.modifiers, m.Within source.length
  texts : ∀ q ∈ raw.texts, q.Stands source

theorem RawBody.within_of_texts {most : Nat} {body : RawBody}
    (h : ∀ q ∈ body.texts, q.left ≤ most) : body.Within most := by
  cases body with
  | template q => exact h q (List.mem_singleton_self q)
  | entries es => exact fun e he => h e.text (List.mem_map_of_mem he)
  | absent => trivial

theorem RawDefinition.Stands.within {most : Nat} {source : List Char} {raw : RawDefinition}
    (h : raw.Stands source) (hl : source.length ≤ most) : raw.Within most where
  left := Nat.le_trans h.left hl
  modifiers m hm := by
    have hm := h.modifiers m hm
    cases m with
    | unknown name left => exact Nat.le_trans hm hl
    | tag | inherits | selects => trivial
  body := RawBody.within_of_texts fun q hq => Nat.le_trans (h.texts q hq).left_le hl

namespace Grammar

open Reader

variable {source : List Char}

theorem phraseName_keeps : Keeps source (fun _ => True) phraseName := by
  intro text hl
  unfold phraseName
  split
  · split
    · exact Keeps.name _ hl
    · exact .declined hl
  · exact .declined hl

theorem parameterList_keeps : Keeps source (fun _ => True) parameterList := by
  have hitem : Keeps source (fun _ => True) (do gap; parameter) :=
    Keeps.gap.bind fun _ _ => Keeps.parameter
  have hcomma : Keeps source (fun _ => True) (do gap; char ',') :=
    Keeps.gap.bind fun _ _ => .char ','
  have hnames : Keeps source (fun _ => True) (separated (do gap; parameter) (do gap; char ',')) :=
    (hitem.separated1 hcomma).optional.bind fun _ _ => .pure trivial
  exact (Keeps.char '(').bind fun _ _ => hnames.bind fun _ _ => Keeps.gap.bind fun _ _ =>
    (Keeps.expect ')').commit.bind fun _ _ => .pure trivial

theorem fromModifier_keeps : Keeps source (Modifier.Within source.length) fromModifier :=
  .explain <| .commit <| (Keeps.char '(').bind fun _ _ => Keeps.blanks.bind fun _ _ =>
    Keeps.parameter.bind fun _ _ => Keeps.blanks.bind fun _ _ => (Keeps.char ')').bind fun _ _ =>
      .pure trivial

theorem matchModifier_keeps : Keeps source (Modifier.Within source.length) matchModifier := by
  have hcomma : Keeps source (fun _ => True) (do blanks; char ','; blanks) :=
    Keeps.blanks.bind fun _ _ => (Keeps.char ',').bind fun _ _ => .blanks
  exact .explain <| .commit <| (Keeps.char '(').bind fun _ _ => Keeps.blanks.bind fun _ _ =>
    (Keeps.parameter.separated1 hcomma).bind fun _ _ => Keeps.blanks.bind fun _ _ =>
      (Keeps.char ')').bind fun _ _ => .pure trivial

theorem tagModifier_keeps {name : String} {left : Nat} (hleft : left ≤ source.length) :
    Keeps source (Modifier.Within source.length) (tagModifier name left) := by
  intro text hl
  unfold tagModifier
  split
  · next inside =>
    split
    · next c rest hd =>
      have hdrop := inside.dropWhile_suffix (· ≠ ')')
      rw [hd] at hdrop
      have hrest : rest <:+ inside := (List.suffix_cons c rest).trans hdrop
      exact .done (hrest.trans ((List.suffix_cons _ _).trans hl)) hleft
    · exact .declined List.nil_suffix
  · exact .done hl trivial

theorem modifier_keeps : Keeps source (Modifier.Within source.length) modifier := by
  refine Keeps.left.bind fun left hleft => (Keeps.char ':').bind fun _ _ =>
    Keeps.name.bind fun name _ => ?_
  split
  · exact fromModifier_keeps
  · split
    · exact matchModifier_keeps
    · exact tagModifier_keeps hleft

theorem keyPart_keeps : Keeps source (fun _ => True) keyPart :=
  .orElse ((Keeps.char '*').bind fun _ _ => Keeps.word.optional.bind fun _ _ => .pure trivial)
    (Keeps.word.bind fun _ _ => .pure trivial)

theorem entryKey_keeps : Keeps source (fun _ => True) entryKey :=
  (keyPart_keeps.separated1 (.char '.')).bind fun _ _ => .pure trivial

theorem comma_keeps : Keeps source (fun _ => True) comma :=
  Keeps.gap.bind fun _ _ => (Keeps.char ',').bind fun _ _ => .gap

theorem entry_keeps : Keeps source (fun e => e.text.Stands source) entry :=
  (entryKey_keeps.separated1 comma_keeps).bind fun _ _ => Keeps.gap.bind fun _ _ =>
    (Keeps.expect ':').bind fun _ _ => Keeps.gap.bind fun _ _ =>
      Quoted.quoted_keeps.bind fun _ hq => .pure hq

theorem block_keeps : Keeps source (fun es => ∀ e ∈ es, e.text.Stands source) block := by
  have hcomma : Keeps source (fun _ => True) (do gap; char ',') :=
    Keeps.gap.bind fun _ _ => .char ','
  exact (Keeps.char '{').bind fun _ _ => .commit <| Keeps.gap.bind fun _ _ =>
    (entry_keeps.separated1 comma_keeps).bind fun _ hes => hcomma.optional.bind fun _ _ =>
      Keeps.gap.bind fun _ _ => (Keeps.expect '}').bind fun _ _ => .pure hes

theorem phraseBody_keeps :
    Keeps source (fun body => ∀ q ∈ body.texts, q.Stands source) phraseBody := by
  intro text hl
  unfold phraseBody
  split
  · exact .done hl (List.forall_mem_nil _)
  · refine (Keeps.orElse ?_ ?_).explain.explain.explain.commit text hl
    · exact block_keeps.bind fun _ hes => .pure (List.forall_mem_map.2 hes)
    · exact Quoted.quoted_keeps.bind fun _ hq => .pure (List.forall_mem_singleton.2 hq)

theorem definition_keeps : Keeps source (RawDefinition.Stands source) definition := by
  have hmodifier : Keeps source (Modifier.Within source.length) (do
      let modifier ← modifier
      gap
      return modifier) :=
    modifier_keeps.bind fun _ hm => Keeps.gap.bind fun _ _ => .pure hm
  exact Keeps.left.bind fun _ hleft => phraseName_keeps.bind fun _ _ => Keeps.gap.bind fun _ _ =>
    parameterList_keeps.optional.bind fun _ _ => Keeps.gap.bind fun _ _ =>
    (Keeps.expect '=').commit.bind fun _ _ => Keeps.gap.bind fun _ _ =>
    hmodifier.many.bind fun _ hms => phraseBody_keeps.bind fun _ hbody => Keeps.gap.bind fun _ _ =>
    (Keeps.expect ';').commit.bind fun _ _ => .pure ⟨hleft, hms, hbody⟩

theorem definitions_stand :
    Keeps source (fun raws => ∀ raw ∈ raws, raw.Stands source) definitions := by
  have hitem : Keeps source (RawDefinition.Stands source) (do
      let definition ← definition
      gap
      return definition) :=
    definition_keeps.bind fun _ hd => Keeps.gap.bind fun _ _ => .pure hd
  exact Keeps.gap.bind fun _ _ => hitem.many

theorem definitions_keeps {most : Nat} (text : List Char) (h : text.length ≤ most) :
    (definitions text).Within most fun raws => ∀ raw ∈ raws, raw.Within most :=
  (definitions_stand text (List.suffix_refl text)).mono
    (fun _ hl => Nat.le_trans hl.length_le h) fun _ hraws raw hraw => (hraws raw hraw).within h

end Grammar

end Phrasebook
