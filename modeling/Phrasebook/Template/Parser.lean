import Phrasebook.Template.Hole

/-!
Reading templates. Two braces open a verbatim span that the next two closing braces end, two
closing braces stand for one, and a single brace opens a hole that ends at the next closing brace
outside quotes.
-/

namespace Phrasebook.Template

open Text

/-- What stands before the first two closing braces, and what behind them. -/
def verbatim? : List Char → Option (List Char × List Char)
  | [] => none
  | '}' :: '}' :: rest => some ([], rest)
  | c :: rest => (verbatim? rest).map fun (inside, after) => (c :: inside, after)

/-- What stands before the closing brace of a hole, and what behind it. Quotes hide braces. -/
def hole? (quoted : Bool) : List Char → Option (List Char × List Char)
  | [] => none
  | c :: rest =>
    if c = '}' ∧ quoted = false then some ([], rest)
    else (hole? (quoted ^^ c = '"') rest).map fun (inside, after) => (c :: inside, after)

theorem length_lt_of_verbatim? {text inside after : List Char}
    (h : verbatim? text = some (inside, after)) : after.length < text.length := by
  fun_induction verbatim? text generalizing inside after with
  | case1 => cases h
  | case2 rest => cases h; simp only [List.length_cons]; omega
  | case3 c rest _ ih =>
    obtain ⟨⟨i, a⟩, ha, he⟩ := Option.map_eq_some_iff.1 h
    cases he
    exact Nat.lt_succ_of_lt (ih ha)

theorem length_lt_of_hole? {quoted : Bool} {text inside after : List Char}
    (h : hole? quoted text = some (inside, after)) : after.length < text.length := by
  induction text generalizing quoted inside after with
  | nil => cases h
  | cons c rest ih =>
    simp only [hole?] at h
    split at h
    · cases h; exact Nat.lt_succ_self _
    · obtain ⟨⟨i, a⟩, ha, he⟩ := Option.map_eq_some_iff.1 h
      cases he
      exact Nat.lt_succ_of_lt (ih ha)

/-- The pieces of a template. -/
def scan : List Char → Except Fault (List Piece)
  | [] => .ok []
  | '{' :: '{' :: text =>
    match h : verbatim? text with
    | none => .error ⟨.unterminatedEscape, text.length + 2⟩
    | some (inside, after) => do
      have := length_lt_of_verbatim? h
      let rest ← scan after
      return (('{' :: inside ++ ['}']).map .char) ++ rest
  | '{' :: text =>
    match h : hole? false text with
    | none => .error ⟨.unterminatedInterpolation, text.length + 1⟩
    | some (inside, after) => do
      have := length_lt_of_hole? h
      let hole ← (interpolation inside).mapError fun fault =>
        { fault with left := fault.left + after.length + 1 }
      let rest ← scan after
      return .hole hole :: rest
  | '}' :: '}' :: text => do
    let rest ← scan text
    return .char '}' :: rest
  | '}' :: text => malformed .unmatchedBrace ('}' :: text)
  | c :: text => do
    let rest ← scan text
    return .char c :: rest
termination_by text => text.length

/-- Reads a template, and tells of a failure by its position. -/
def parse (source : String) : Except ParseError Template :=
  match scan source.toList with
  | .ok pieces => .ok (ofPieces pieces)
  | .error fault => .error ⟨fault.cause, Position.ahead source.toList fault.left⟩

end Phrasebook.Template
