import Phrasebook.Proofs.Bounds
import Phrasebook.Proofs.Continued
import Phrasebook.Proofs.Positions
import Phrasebook.Proofs.Settling

/-!
Sources put together line by line. Where the first can be read, a second source behind it is read as
it would be on its own, and its definitions, or the fault in it, stand so many lines further down.
-/

namespace Phrasebook

open Text

namespace Text

/-- How many lines a text takes up, with the one that its last line end begins. -/
def lines (text : List Char) : Nat :=
  text.count '\n' + 1

namespace Position

/-- The place so many lines further down. -/
def lowered (lines : Nat) (p : Position) : Position :=
  ⟨p.line + lines, p.column⟩

theorem next_lowered (lines : Nat) (p : Position) (c : Char) :
    (p.lowered lines).next c = (p.next c).lowered lines := by
  by_cases hc : c = '\n'
  · simp [next, lowered, hc, Nat.add_right_comm]
  · simp [next, lowered, hc]

theorem foldl_next_lowered (lines : Nat) (p : Position) (text : List Char) :
    text.foldl next (p.lowered lines) = (text.foldl next p).lowered lines := by
  induction text generalizing p with
  | nil => rfl
  | cons c text ih => rw [List.foldl_cons, List.foldl_cons, next_lowered, ih]

/-- Behind a line end, the lines before it count and nothing else does. -/
theorem after_append_line (text later : List Char) :
    after (text ++ '\n' :: later) = (after later).lowered (lines text) := by
  have hline : (after text).next '\n' = start.lowered (lines text) := by
    simp [next, lowered, start, line_after, lines]
    omega
  rw [after, List.foldl_append, List.foldl_cons, ← after, hline, foldl_next_lowered, ← after]

theorem ahead_append_line {left : Nat} (text : List Char) {later : List Char}
    (h : left ≤ later.length) :
    ahead (text ++ '\n' :: later) left = (ahead later left).lowered (lines text) := by
  have hsource : text ++ '\n' :: later = text ++ ['\n'] ++ later := by simp
  rw [hsource, ahead_eq_after h, List.append_assoc, List.singleton_append, after_append_line, ahead]

theorem ahead_append (text later : List Char) (left : Nat) :
    ahead (text ++ later) (left + later.length) = ahead text left := by
  have htake : (text ++ later).length - (left + later.length) = text.length - left := by
    rw [List.length_append]
    omega
  rw [ahead, htake, List.take_append_of_le_length (Nat.sub_le _ _), ahead]

end Position

end Text

def ParseError.lowered (lines : Nat) (e : ParseError) : ParseError :=
  { e with position := e.position.lowered lines }

def Definition.lowered (lines : Nat) (d : Definition) : Definition :=
  { d with position := d.position.lowered lines }

namespace RawDefinition

section

variable {text later : List Char} {raw : RawDefinition}

theorem failure_lowered {α : Type} {left : Nat} {cause : ParseError.Cause}
    (h : left ≤ later.length) :
    (failure (text ++ '\n' :: later) left cause : Except ParseError α) =
      (failure later left cause).mapError (.lowered (lines text)) := by
  rw [failure, Position.ahead_append_line text h]
  rfl

theorem template_lowered {q : Quoted} (h : q.left ≤ later.length) :
    q.template (text ++ '\n' :: later) =
      (q.template later).mapError (.lowered (lines text)) := by
  unfold Quoted.template
  cases Template.scan (q.glyphs.map Glyph.char) with
  | ok pieces => rfl
  | error fault =>
    dsimp only
    rw [Position.ahead_append_line text (by omega)]
    rfl

theorem header_lowered (h : raw.Within later.length) :
    raw.header (text ++ '\n' :: later) =
      (raw.header later).mapError (.lowered (lines text)) := by
  refine foldlM_mapError fun m hm header => ?_
  have hwithin := h.modifiers m hm
  cases m with
  | tag name => rfl
  | inherits parameter =>
    unfold addModifier
    cases header.inherits with
    | none => rfl
    | some _ => exact failure_lowered h.left
  | selects parameters =>
    unfold addModifier
    cases header.selectors with
    | nil => rfl
    | cons _ _ => exact failure_lowered h.left
  | unknown name left => exact failure_lowered hwithin

theorem settleBody_lowered (h : raw.Within later.length) (inherits : Option String) :
    raw.settleBody (text ++ '\n' :: later) inherits =
      (raw.settleBody later inherits).mapError (.lowered (lines text)) := by
  have hbody := h.body
  unfold settleBody
  cases hb : raw.body with
  | template q =>
    rw [hb] at hbody
    dsimp only
    rw [template_lowered hbody, mapError_bind]
    rfl
  | entries es =>
    rw [hb] at hbody
    have hentries : es.mapM (settleEntry (text ++ '\n' :: later)) =
        (es.mapM (settleEntry later)).mapError (.lowered (lines text)) := by
      refine mapM_mapError fun e he => ?_
      rw [settleEntry, settleEntry, template_lowered (hbody e he), mapError_bind]
      rfl
    dsimp only
    rw [hentries, mapError_bind]
    rfl
  | absent =>
    cases inherits with
    | some name => rfl
    | none => exact failure_lowered h.left

/-- A definition behind a line end settles as it does on its own, further down. -/
theorem settle_lowered (h : raw.Within later.length) :
    raw.settle (text ++ '\n' :: later) =
      ((raw.settle later).map (.lowered (lines text))).mapError
        (.lowered (lines text)) := by
  rw [settle, settle, header_lowered h, Position.ahead_append_line text h.left]
  cases raw.header later with
  | error e => rfl
  | ok header =>
    simp only [Except.mapError, bind, Except.bind]
    rw [settleBody_lowered h]
    cases raw.settleBody later header.inherits <;> rfl

theorem mapM_settle_lowered {raws : List RawDefinition}
    (h : ∀ raw ∈ raws, raw.Within later.length) :
    raws.mapM (settle (text ++ '\n' :: later)) =
      ((raws.mapM (settle later)).map (List.map (.lowered (lines text)))).mapError
        (.lowered (lines text)) := by
  induction raws with
  | nil => rfl
  | cons raw raws ih =>
    obtain ⟨hraw, hraws⟩ := List.forall_mem_cons.1 h
    rw [List.mapM_cons, List.mapM_cons, settle_lowered hraw, ih hraws]
    cases settle later raw with
    | error e => rfl
    | ok d => cases raws.mapM (settle later) <;> rfl

theorem position_of_settle {source : List Char} {d : Definition}
    (h : raw.settle source = .ok d) : d.position = Position.ahead source raw.left := by
  obtain ⟨header, -, h⟩ := bind_eq_ok.1 h
  obtain ⟨body, -, h⟩ := bind_eq_ok.1 h
  cases h
  rfl

/-- A definition in front of what is added settles as before, at its old place. -/
theorem settle_moved {moved : RawDefinition} {d : Definition}
    (hm : raw.Moved later.length moved) (h : raw.settle text = .ok d) :
    moved.settle (text ++ later) = .ok d := by
  have hsettle := settle_toOption (text ++ later) moved
  rw [hm.draft, ← settle_toOption text, h] at hsettle
  obtain ⟨d', hd', hplaceless⟩ := Option.map_eq_some_iff.1 hsettle
  replace hd' := eq_ok_of_toOption hd'
  have hposition : d'.position = d.position := by
    rw [position_of_settle hd', position_of_settle h, hm.left, Position.ahead_append]
  have hsame : d' = d := calc
    d' = { d'.placeless with position := d'.position } := rfl
    _ = { d.placeless with position := d.position } := by rw [hplaceless, hposition]
    _ = d := rfl
  rw [hd', hsame]

theorem mapM_settle_moved {raws moved : List RawDefinition} {read : List Definition}
    (hm : List.Forall₂ (Moved later.length) raws moved)
    (h : raws.mapM (settle text) = .ok read) : moved.mapM (settle (text ++ later)) = .ok read := by
  induction hm generalizing read with
  | nil => exact h
  | cons hm _ ih =>
    rw [List.mapM_cons] at h ⊢
    obtain ⟨d, hd, h⟩ := bind_eq_ok.1 h
    obtain ⟨others, hothers, h⟩ := bind_eq_ok.1 h
    cases h
    rw [settle_moved hm hd, ih hothers]
    rfl

end

end RawDefinition

namespace Definition

/-- Behind a source that can be read, a further one is read as on its own: its definitions come
after the others, or its fault is reported, so many lines further down. -/
theorem parseAll_append_line {a b : String} {first : List Definition}
    (ha : parseAll a = .ok first) : parseAll (a ++ "\n" ++ b) =
      match parseAll b with
      | .ok second => .ok (first ++ second.map (lowered (lines a.toList)))
      | .error e => .error (e.lowered (lines a.toList)) := by
  obtain ⟨raws, hraws, hsettle⟩ := parseAll_eq_ok.1 ha
  obtain ⟨start, hg, hs⟩ := source_of_definitions hraws (known_of_settled hsettle)
  obtain ⟨raws', moved, hraws', hjoined, hmoved⟩ := definitions_of_append hg hs b.toList
  cases hraws.symm.trans hraws'
  have htext : (a ++ "\n" ++ b).toList = a.toList ++ '\n' :: b.toList := by simp
  have hfirst : moved.mapM (RawDefinition.settle (a.toList ++ '\n' :: b.toList)) = .ok first :=
    RawDefinition.mapM_settle_moved hmoved hsettle
  have hwithin := Grammar.definitions_keeps b.toList (Nat.le_refl _)
  have hunread (wanted : Wanted) {rest : List Char} (hl : rest.length ≤ b.toList.length) :
      unread (a.toList ++ '\n' :: b.toList) wanted rest =
        (unread b.toList wanted rest).lowered (lines a.toList) := by
    rw [unread, Position.ahead_append_line _ hl]
    rfl
  rw [parseAll, htext, hjoined, parseAll]
  generalize Grammar.definitions b.toList = outcome at hwithin ⊢
  cases hwithin with
  | @done raws rest hl hraws =>
    cases rest with
    | nil =>
      simp only [Outcome.map, List.mapM_append, hfirst, RawDefinition.mapM_settle_lowered hraws]
      cases raws.mapM (RawDefinition.settle b.toList) <;> rfl
    | cons c rest =>
      simp only [Outcome.map]
      rw [Position.ahead_append_line _ (List.length_cons ▸ hl)]
      rfl
  | declined hl => exact congrArg Except.error (hunread _ hl)
  | stuck hl => exact congrArg Except.error (hunread _ hl)

/-- The definition of a phrase with a single text. -/
def plain (name text : String) (position : Position) : Definition where
  name
  parameters := []
  tags := []
  inherits := none
  selectors := []
  body := .template ⟨[.literal text]⟩
  bodyless := false
  position

/-- A comment ends with the first source, and a template of the second has a fault. -/
theorem parseAll_append_line_kings :
    parseAll ("ace = \"Ace\"; // of spades" ++ "\n" ++ "\n  king = \"King\";") =
      .ok [plain "ace" "Ace" ⟨1, 1⟩, plain "king" "King" ⟨3, 3⟩] ∧
    parseAll ("ace = \"Ace\"; // of spades" ++ "\n" ++ "\n  king = \"\x7b\";") =
      .error ⟨.unterminatedInterpolation, ⟨3, 11⟩⟩ := by
  have ha : parseAll "ace = \"Ace\"; // of spades" = .ok [plain "ace" "Ace" ⟨1, 1⟩] := by
    decide +kernel
  have hb : parseAll "\n  king = \"King\";" = .ok [plain "king" "King" ⟨2, 3⟩] := by
    decide +kernel
  have he : parseAll "\n  king = \"\x7b\";" =
      .error ⟨.unterminatedInterpolation, ⟨2, 11⟩⟩ := by
    decide +kernel
  rw [parseAll_append_line ha, parseAll_append_line ha, hb, he]
  exact ⟨rfl, rfl⟩

end Definition

end Phrasebook
