import Phrasebook.Proofs.Bounds
import Phrasebook.Proofs.Concatenation
import Phrasebook.Proofs.Settling

/-!
Where the faults of templates are reported. A template is read without the escapes of its text, so
that a place in it is found again in the source by the spellings of the characters before it. Main
statement: of a source whose definitions are regular, the first fault in any of its templates is
reported, where the source spells the offending character.
-/

namespace Phrasebook

open Text String

/-! ### Spellings -/

namespace Glyph

def isEscape (g : Glyph) : Bool :=
  g.spelling.head? = some '\\'

/-- The bytes that an escape takes up beyond those of its character. -/
def extra (g : Glyph) : Nat :=
  utf8Len g.spelling - g.char.utf8Size

variable {g : Glyph}

theorem Spelled.utf8Len_of_escape (h : g.Spelled) (he : g.isEscape) :
    utf8Len g.spelling = g.char.utf8Size + g.extra := by
  have hle : g.char.utf8Size ≤ utf8Len g.spelling := by
    cases h with
    | plain hq hb => simp
    | newline | tab | quote | backslash => decide
    | @codePoint c digits _ _ _ _ =>
      have hspelling : utf8Len ('\\' :: 'u' :: '{' :: (digits ++ ['}'])) = utf8Len digits + 4 := by
        simp only [utf8Len_cons, utf8Len_append, utf8Len_nil]
        rfl
      exact Nat.le_trans c.utf8Size_le_four (hspelling ▸ Nat.le_add_left _ _)
  rw [extra]
  omega

theorem Spelled.utf8Len_of_plain (h : g.Spelled) (hp : g.isEscape = false) :
    utf8Len g.spelling = g.char.utf8Size := by
  cases h with
  | plain hq hb => simp
  | newline | tab | quote | backslash | codePoint => cases hp

end Glyph

/-! ### Places in a quoted text -/

namespace Quoted

/-- Behind `offset` bytes of the text comes the character whose spelling begins `place` bytes into
the source; at the end of the text it is the closing quote that stands there. -/
def Located (source : List Char) (q : Quoted) (offset place : Nat) : Prop :=
  ∃ before after read coming, q.Between source before after ∧ q.glyphs = read ++ coming ∧
    utf8Len (read.map Glyph.char) = offset ∧
    utf8Len (before ++ '"' :: read.flatMap Glyph.spelling) = place

/-- An escape, with the bytes of the text before its character. -/
structure Escape where
  start : Nat
  extra : Nat

/-- The escapes among the characters behind so many bytes of the text. -/
def escapes (start : Nat) : List Glyph → List Escape
  | [] => []
  | g :: glyphs =>
    (if g.isEscape then [⟨start, g.extra⟩] else []) ++ escapes (start + g.char.utf8Size) glyphs

/-- What the escapes before an offset add. -/
def extraBefore (offset : Nat) : List Escape → Nat
  | [] => 0
  | e :: found => (if e.start < offset then e.extra else 0) + extraBefore offset found

/-- The bytes of the source before an offset in the text, by the escapes that move it. -/
def place (source : List Char) (q : Quoted) (offset : Nat) : Nat :=
  utf8Len (source.take (source.length - q.left)) + 1 + offset +
    extraBefore offset (escapes 0 q.glyphs)

section

variable {source : List Char} {q : Quoted} {glyphs read coming : List Glyph} {g : Glyph}
  {start offset : Nat}

theorem extraBefore_append (offset : Nat) (some more : List Escape) :
    extraBefore offset (some ++ more) = extraBefore offset some + extraBefore offset more := by
  induction some with
  | nil => exact (Nat.zero_add _).symm
  | cons e some ih => rw [List.cons_append, extraBefore, extraBefore, ih, Nat.add_assoc]

theorem extraBefore_eq_zero {found : List Escape} (h : ∀ e ∈ found, offset ≤ e.start) :
    extraBefore offset found = 0 := by
  induction found with
  | nil => rfl
  | cons e found ih =>
    obtain ⟨he, hfound⟩ := List.forall_mem_cons.1 h
    rw [extraBefore, if_neg (Nat.not_lt.2 he), ih hfound]

theorem le_start {e : Escape} (h : e ∈ escapes start glyphs) : start ≤ e.start := by
  induction glyphs generalizing start with
  | nil => cases h
  | cons g glyphs ih =>
    rw [escapes, List.mem_append] at h
    rcases h with h | h
    · split at h
      · cases List.mem_singleton.1 h
        exact Nat.le_refl _
      · cases h
    · exact Nat.le_of_add_right_le (ih h)

theorem utf8Len_spelling (h : g.Spelled) (hs : start < offset) : utf8Len g.spelling =
    g.char.utf8Size + extraBefore offset (if g.isEscape then [⟨start, g.extra⟩] else []) := by
  cases he : g.isEscape with
  | true => simp [extraBefore, hs, h.utf8Len_of_escape he]
  | false => simp [extraBefore, h.utf8Len_of_plain he]

/-- What is read of a text takes up its own bytes and those that its escapes add. -/
theorem utf8Len_spelled (h : ∀ g ∈ read, g.Spelled) (start : Nat) (coming : List Glyph) :
    utf8Len (read.flatMap Glyph.spelling) = utf8Len (read.map Glyph.char) +
      extraBefore (start + utf8Len (read.map Glyph.char)) (escapes start (read ++ coming)) := by
  induction read generalizing start with
  | nil => simp [extraBefore_eq_zero fun e he => le_start he]
  | cons g read ih =>
    obtain ⟨hg, hread⟩ := List.forall_mem_cons.1 h
    have hstart : start < start + g.char.utf8Size + utf8Len (read.map Glyph.char) :=
      Nat.lt_add_right _ (Nat.lt_add_of_pos_right g.char.utf8Size_pos)
    have hoffset : start + utf8Len ((g :: read).map Glyph.char) =
        start + g.char.utf8Size + utf8Len (read.map Glyph.char) := by
      rw [List.map_cons, utf8Len_cons]
      omega
    rw [hoffset, List.cons_append, escapes, extraBefore_append, List.flatMap_cons, utf8Len_append,
      utf8Len_spelling hg hstart, ih hread (start + g.char.utf8Size), List.map_cons, utf8Len_cons]
    omega

theorem Located.place_eq {n : Nat} (h : q.Located source offset n) :
    q.place source offset = n := by
  obtain ⟨before, after, read, coming, hb, hglyphs, rfl, rfl⟩ := h
  have hread : ∀ g ∈ read, g.Spelled := fun g hg =>
    hb.spelled g (hglyphs ▸ List.mem_append_left _ hg)
  have htake : source.take (source.length - q.left) = before := by
    rw [← hb.left, Nat.add_sub_cancel, hb.source_eq, List.take_left]
  have hspelled := utf8Len_spelled hread 0 coming
  have hquote : '"'.utf8Size = 1 := by decide
  rw [Nat.zero_add, ← hglyphs] at hspelled
  rw [place, htake, utf8Len_append, utf8Len_cons, hspelled, hquote]
  omega

theorem Between.split {before after : List Char} (h : q.Between source before after)
    (hg : q.glyphs = read ++ coming) : source = before ++ '"' :: read.flatMap Glyph.spelling ++
      (coming.flatMap Glyph.spelling ++ '"' :: after) := by
  rw [h.source_eq, hg]
  simp

/-- Behind what is read of a text, its quote and spellings less is left than in front of it. -/
theorem Between.ahead_eq {before after : List Char} (h : q.Between source before after)
    (hg : q.glyphs = read ++ coming) :
    Position.ahead source (q.left - 1 - (read.flatMap Glyph.spelling).length) =
      Position.after (before ++ '"' :: read.flatMap Glyph.spelling) := by
  have hsource := h.split hg
  have hleft : q.left - 1 - (read.flatMap Glyph.spelling).length =
      (coming.flatMap Glyph.spelling ++ '"' :: after).length := by
    have hlength := h.left
    rw [hsource, List.length_append, List.length_append, List.length_cons] at hlength
    omega
  rw [hleft, hsource, Position.ahead_eq_after (Nat.le_refl _), Nat.sub_self, List.take_zero,
    List.append_nil]

/-- A template fails as its text does on its own, at the place in the source of the offset in the
text. -/
theorem template_eq_error {source : String} {e : ParseError} (hs : q.Stands source.toList)
    (he : Template.parse q.text = .error e) : ∃ place position,
      q.Located source.toList (e.position.offsetIn q.text) place ∧
      Position.at? source place = some position ∧
      q.template source.toList = .error (e.relocated position) := by
  obtain ⟨before, after, hb⟩ := hs
  obtain ⟨fault, hf, rfl⟩ := Template.parse_eq_error.1 he
  have htext : q.text.toList = q.glyphs.map Glyph.char := String.toList_ofList
  obtain ⟨read, coming, hglyphs, hread⟩ : ∃ read coming, q.glyphs = read ++ coming ∧
      read = q.glyphs.take (q.glyphs.length - fault.left) :=
    ⟨_, _, (List.take_append_drop _ _).symm, rfl⟩
  have hposition : Position.ahead q.text.toList fault.left =
      Position.after (read.map Glyph.char) := by
    rw [htext, Position.ahead, List.length_map, ← List.map_take, hread]
  have hoffset : (Position.after (read.map Glyph.char)).offsetIn q.text =
      utf8Len (read.map Glyph.char) :=
    Position.offsetIn_after (htext.trans (by rw [hglyphs, List.map_append]))
  refine ⟨_, _, ⟨before, after, read, coming, hb, hglyphs, ?_, rfl⟩,
    Position.at?_utf8Len (hb.split hglyphs), ?_⟩
  · rw [hposition, hoffset]
  · rw [template, ← htext, hf]
    dsimp only
    rw [spelled, ← hread, hb.ahead_eq hglyphs]
    rfl

theorem template_eq_ok {source : List Char} {t : Template} :
    q.template source = .ok t ↔ Template.parse q.text = .ok t := by
  have hsame : (q.template source).toOption = (Template.parse q.text).toOption :=
    RawDefinition.template_toOption q
  constructor
  · intro h
    rw [h] at hsame
    exact eq_ok_of_toOption hsame.symm
  · intro h
    rw [h] at hsame
    exact eq_ok_of_toOption hsame

/-- Of several texts of a source, the first with a fault decides what is reported. -/
theorem exists_first_fault {source : String} {texts : List Quoted} {e : ParseError}
    (hs : ∀ text ∈ texts, text.Stands source.toList) (hq : q ∈ texts)
    (he : Template.parse q.text = .error e) : ∃ earlier first later fault place position,
      texts = earlier ++ first :: later ∧
      (∀ text ∈ earlier, ∃ t, Template.parse text.text = .ok t) ∧
      Template.parse first.text = .error fault ∧
      first.Located source.toList (fault.position.offsetIn first.text) place ∧
      Position.at? source place = some position ∧
      texts.mapM (template · source.toList) = .error (fault.relocated position) := by
  cases hall : texts.mapM (template · source.toList) with
  | ok ts =>
    obtain ⟨t, ht⟩ := exists_of_mapM_eq_ok hall hq
    cases he.symm.trans (template_eq_ok.1 ht)
  | error cause =>
    obtain ⟨earlier, first, later, rfl, hearlier, hfirst⟩ := mapM_eq_error.1 hall
    have hfirst' := hs first (List.mem_append_right _ List.mem_cons_self)
    cases hp : Template.parse first.text with
    | ok t => cases hfirst.symm.trans (template_eq_ok.2 hp)
    | error fault =>
      obtain ⟨place, position, hlocated, hposition, htemplate⟩ := template_eq_error hfirst' hp
      refine ⟨earlier, first, later, fault, place, position, rfl, fun text htext => ?_, hp,
        hlocated, hposition, congrArg _ (Except.error.inj (hfirst.symm.trans htemplate))⟩
      obtain ⟨t, ht⟩ := hearlier text htext
      exact ⟨t, template_eq_ok.1 ht⟩

end

end Quoted

/-! ### Definitions without faults of their own -/

namespace Modifier

def inherited : Modifier → List String
  | .inherits parameter => [parameter]
  | _ => []

def selected : Modifier → List (List String)
  | .selects parameters => [parameters]
  | _ => []

def isKnown : Modifier → Bool
  | .unknown _ _ => false
  | _ => true

theorem isKnown_iff {m : Modifier} : m.isKnown ↔ m.Known := by
  cases m <;> simp [isKnown, Known]

instance (m : Modifier) : Decidable m.Known :=
  decidable_of_iff _ isKnown_iff

end Modifier

namespace RawDefinition

/-- Every directive exists, `:from` and `:match` stand once at most, and a phrase without a body
inherits. -/
structure Regular (raw : RawDefinition) : Prop where
  known : ∀ m ∈ raw.modifiers, m.Known
  inherits : (raw.modifiers.flatMap Modifier.inherited).length ≤ 1
  selects : (raw.modifiers.flatMap Modifier.selected).length ≤ 1
  body : raw.body = .absent → raw.modifiers.flatMap Modifier.inherited ≠ []

instance (raw : RawDefinition) : Decidable raw.Regular :=
  decidable_of_iff
    ((∀ m ∈ raw.modifiers, m.Known) ∧ (raw.modifiers.flatMap Modifier.inherited).length ≤ 1 ∧
      (raw.modifiers.flatMap Modifier.selected).length ≤ 1 ∧
      (raw.body = .absent → raw.modifiers.flatMap Modifier.inherited ≠ []))
    ⟨fun ⟨hk, hi, hs, hb⟩ => ⟨hk, hi, hs, hb⟩, fun ⟨hk, hi, hs, hb⟩ => ⟨hk, hi, hs, hb⟩⟩

section

variable {source : List Char} {raw : RawDefinition} {raws : List RawDefinition}
  {modifiers : List Modifier} {m : Modifier} {start : Header}

theorem exists_addModifier? (hk : m.Known)
    (hi : (start.inherits.toList ++ m.inherited).length ≤ 1)
    (hs : m.selected = [] ∨ start.selectors = []) : ∃ next,
      Draft.addModifier? start m = some next ∧
        next.inherits.toList = start.inherits.toList ++ m.inherited ∧
        (m.selected = [] → next.selectors = start.selectors) := by
  cases m with
  | tag name =>
    refine ⟨_, rfl, ?_, fun _ => ?_⟩
    · split <;> exact (List.append_nil _).symm
    · split <;> rfl
  | inherits parameter =>
    have hnone : start.inherits = none := by
      cases h : start.inherits with
      | none => rfl
      | some other => simp [h, Modifier.inherited] at hi
    refine ⟨_, if_pos hnone, ?_, fun _ => rfl⟩
    rw [hnone]
    rfl
  | selects parameters =>
    have hnil : start.selectors = [] := hs.resolve_left (List.cons_ne_nil _ _)
    exact ⟨_, if_pos hnil, (List.append_nil _).symm, fun h => absurd h (List.cons_ne_nil _ _)⟩
  | unknown name left => exact absurd rfl (hk name left)

theorem exists_foldlM_addModifier? (hk : ∀ m ∈ modifiers, m.Known)
    (hi : (start.inherits.toList ++ modifiers.flatMap Modifier.inherited).length ≤ 1)
    (hs : modifiers.flatMap Modifier.selected = [] ∨
      start.selectors = [] ∧ (modifiers.flatMap Modifier.selected).length ≤ 1) : ∃ header,
      modifiers.foldlM Draft.addModifier? start = some header ∧ header.inherits.toList =
        start.inherits.toList ++ modifiers.flatMap Modifier.inherited := by
  induction modifiers generalizing start with
  | nil => exact ⟨start, rfl, (List.append_nil _).symm⟩
  | cons m modifiers ih =>
    obtain ⟨hm, hk⟩ := List.forall_mem_cons.1 hk
    rw [List.flatMap_cons, ← List.append_assoc] at hi
    rw [List.flatMap_cons, List.append_eq_nil_iff, List.length_append] at hs
    obtain ⟨next, hnext, hinherits, hselectors⟩ := exists_addModifier? hm
      (Nat.le_trans (List.prefix_append _ _).length_le hi) (hs.imp And.left And.left)
    have hs' : modifiers.flatMap Modifier.selected = [] ∨
        next.selectors = [] ∧ (modifiers.flatMap Modifier.selected).length ≤ 1 := by
      rcases hs with ⟨-, hrest⟩ | ⟨hnil, hlength⟩
      · exact .inl hrest
      · cases hselected : m.selected with
        | nil => exact .inr ⟨by rw [hselectors hselected, hnil], by omega⟩
        | cons _ _ =>
          rw [hselected, List.length_cons] at hlength
          exact .inl (List.length_eq_zero_iff.1 (by omega))
    rw [← hinherits] at hi
    obtain ⟨header, hheader, hall⟩ := ih hk hi hs'
    refine ⟨header, ?_, ?_⟩
    · rw [List.foldlM_cons, hnext]
      exact hheader
    · rw [hall, hinherits, List.flatMap_cons, List.append_assoc]

theorem Regular.exists_header (h : raw.Regular) (source : List Char) : ∃ header,
    raw.header source = .ok header ∧ (raw.body = .absent → header.inherits.isSome) := by
  obtain ⟨header, hheader, hinherits⟩ :=
    @exists_foldlM_addModifier? raw.modifiers ⟨[], none, []⟩ h.known h.inherits
      (.inr ⟨rfl, h.selects⟩)
  refine ⟨header, eq_ok_of_toOption (header_toOption.trans hheader), fun hb => ?_⟩
  cases hi : header.inherits with
  | none =>
    rw [hi] at hinherits
    exact absurd hinherits.symm (h.body hb)
  | some parameter => rfl

theorem settleEntry_agrees (source : List Char) (e : RawEntry) :
    Agree (fun _ _ => True) (settleEntry source e) (e.text.template source) :=
  (Agree.refl (fun _ => rfl) (e.text.template source)).bind_left (R := Eq) fun _ _ _ => .ok trivial

theorem settleBody_agrees (source : List Char) {inherits : Option String}
    (h : raw.body = .absent → inherits.isSome) : Agree (fun _ _ => True)
      (raw.settleBody source inherits) (raw.texts.mapM (Quoted.template · source)) := by
  unfold settleBody texts
  cases hb : raw.body with
  | template q =>
    rw [RawBody.texts, List.mapM_cons]
    exact (Agree.refl (fun _ => rfl) _).bind (R := Eq) fun _ _ _ => .ok trivial
  | entries es =>
    rw [RawBody.texts, List.mapM_map]
    exact (Agree.mapM (settleEntry_agrees source) es).bind_left fun _ _ _ => .ok trivial
  | absent =>
    obtain ⟨name, rfl⟩ := Option.isSome_iff_exists.1 (h hb)
    exact .ok trivial

/-- A regular definition settles as its texts are read. -/
theorem Regular.settle_agrees (h : raw.Regular) (source : List Char) :
    Agree (fun _ _ => True) (raw.settle source) (raw.texts.mapM (Quoted.template · source)) := by
  obtain ⟨header, hheader, hinherits⟩ := h.exists_header source
  rw [settle, hheader]
  exact (settleBody_agrees source hinherits).bind_left fun _ _ _ => .ok trivial

theorem mapM_settle_agrees (h : ∀ raw ∈ raws, raw.Regular) (source : List Char) :
    Agree (fun _ _ => True) (raws.mapM (settle source))
      ((raws.flatMap texts).mapM (Quoted.template · source)) := by
  induction raws with
  | nil => exact .ok trivial
  | cons raw raws ih =>
    obtain ⟨hraw, hraws⟩ := List.forall_mem_cons.1 h
    rw [List.mapM_cons, List.flatMap_cons, List.mapM_append]
    exact (hraw.settle_agrees source).bind fun _ _ _ => (ih hraws).bind fun _ _ _ => .ok trivial

end

end RawDefinition

/-- What is read, if nothing is left. -/
def Outcome.whole? {α : Type} : Outcome α → Option α
  | done a [] => some a
  | _ => none

theorem Outcome.whole?_eq_some {α : Type} {outcome : Outcome α} {a : α} :
    outcome.whole? = some a ↔ outcome = .done a [] := by
  rcases outcome with ⟨_, _ | _⟩ | _ | _ <;> simp [whole?]

namespace Definition

/-- Of a source whose definitions are regular, the first fault in any template is reported, at the
place where the source spells the character that the fault is at, or at the closing quote. -/
theorem parseAll_eq_error_of_template {source : String} {raws : List RawDefinition} {q : Quoted}
    {e : ParseError} (hraws : Grammar.definitions source.toList = .done raws [])
    (hregular : ∀ raw ∈ raws, raw.Regular) (hq : q ∈ raws.flatMap RawDefinition.texts)
    (he : Template.parse q.text = .error e) : ∃ earlier first later fault place position,
      raws.flatMap RawDefinition.texts = earlier ++ first :: later ∧
      (∀ text ∈ earlier, ∃ t, Template.parse text.text = .ok t) ∧
      Template.parse first.text = .error fault ∧
      first.Located source.toList (fault.position.offsetIn first.text) place ∧
      first.place source.toList (fault.position.offsetIn first.text) = place ∧
      Position.at? source place = some position ∧
      parseAll source = .error (fault.relocated position) := by
  have hstand := Grammar.definitions_stand source.toList (List.suffix_refl _)
  rw [hraws] at hstand
  cases hstand with
  | done _ hstand =>
    have htexts : ∀ text ∈ raws.flatMap RawDefinition.texts, text.Stands source.toList := by
      intro text htext
      obtain ⟨raw, hraw, htext⟩ := List.mem_flatMap.1 htext
      exact (hstand raw hraw).texts text htext
    obtain ⟨earlier, first, later, fault, place, position, hsplit, hearlier, hfault, hlocated,
      hposition, herror⟩ := Quoted.exists_first_fault htexts hq he
    refine ⟨earlier, first, later, fault, place, position, hsplit, hearlier, hfault, hlocated,
      hlocated.place_eq, hposition, ?_⟩
    have hagree := RawDefinition.mapM_settle_agrees hregular source.toList
    rw [herror] at hagree
    rw [parseAll, hraws]
    dsimp only
    generalize raws.mapM (RawDefinition.settle source.toList) = settled at hagree ⊢
    cases hagree
    rfl

/-- The opening brace of a template that has no closing one is an escape, behind others. -/
def kings : String :=
  "ace = \"Ace\";\nkings = \x7b one: \"Kö\\u\x7be9\x7d\\n\\u\x7b7b\x7dn\", other: \"\x7b\" \x7d;"

theorem parseAll_eq_error_of_template_kings : ∃ raws q e,
    Grammar.definitions kings.toList = .done raws [] ∧ (∀ raw ∈ raws, raw.Regular) ∧
      q ∈ raws.flatMap RawDefinition.texts ∧ Template.parse q.text = .error e ∧
      ∃ (first : Quoted) (fault : ParseError) (place : Nat),
        first.Located kings.toList (fault.position.offsetIn first.text) place ∧
        Position.at? kings place = some ⟨2, 27⟩ ∧
        parseAll kings = .error (fault.relocated ⟨2, 27⟩) := by
  have hread : ((Grammar.definitions kings.toList).whole?.map fun raws =>
      decide ((∀ raw ∈ raws, raw.Regular) ∧
        ∃ q ∈ raws.flatMap RawDefinition.texts, (Template.parse q.text).toOption = none)) =
      some true := by
    decide +kernel
  have hkings : parseAll kings = .error ⟨.unterminatedInterpolation, ⟨2, 27⟩⟩ := by
    decide +kernel
  obtain ⟨raws, hraws, hdecide⟩ := Option.map_eq_some_iff.1 hread
  obtain ⟨hregular, q, hq, hfails⟩ := of_decide_eq_true hdecide
  replace hraws := Outcome.whole?_eq_some.1 hraws
  cases he : Template.parse q.text with
  | ok t =>
    rw [he] at hfails
    cases hfails
  | error e =>
    obtain ⟨_, first, _, fault, place, position, -, -, -, hlocated, -, hposition, herror⟩ :=
      parseAll_eq_error_of_template hraws hregular hq he
    obtain rfl : position = ⟨2, 27⟩ :=
      congrArg ParseError.position (Except.error.inj (herror.symm.trans hkings))
    exact ⟨raws, q, e, hraws, hregular, hq, he, first, fault, place, hlocated, hposition, herror⟩

end Definition

end Phrasebook
