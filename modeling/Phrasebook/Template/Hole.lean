import Phrasebook.ParseError
import Phrasebook.Template.Basic
import Phrasebook.Text.Blank
import Phrasebook.Text.Word

/-!
Reading the inside of a hole: an optional transform call, a reference with its arguments, and
selectors. A reader takes the characters to come and answers with those it left; a fault tells how
many were left at the offending place.
-/

namespace Phrasebook.Template

open Text

structure Fault where
  cause : ParseError.Cause
  left : Nat
deriving DecidableEq, Repr

def malformed {α : Type} (detail : Malformed) (place : List Char) : Except Fault α :=
  .error ⟨.malformed detail, place.length⟩

/-- A key behind a colon. -/
def selector? (text : List Char) : Option (Selector × List Char) :=
  match parameter? text with
  | some (name, rest) => some (.parameter name, rest)
  | none => (word? text).map fun (key, rest) => (.literal key, rest)

/-- A context behind a colon; its key may hold dots. -/
def context? (text : List Char) : Option (Selector × List Char) :=
  match parameter? text with
  | some (name, rest) => some (.parameter name, rest)
  | none => (dottedWord? text).map fun (key, rest) => (.literal key, rest)

/-- A colon that no context follows is left alone. -/
def optionalContext : List Char → Option Selector × List Char
  | ':' :: text =>
    match context? text with
    | some (context, rest) => (some context, rest)
    | none => (none, ':' :: text)
  | text => (none, text)

def transform? : List Char → Option (TransformCall × List Char)
  | '@' :: text => (name? text).map fun (name, rest) =>
    let (context, rest) := optionalContext rest
    (⟨name, context⟩, rest)
  | _ => none

/-- An integer without a plus sign, in range. -/
def number? (text : List Char) : Option (Int64 × List Char) :=
  let (sign, digits) := match text with
    | '-' :: rest => (['-'], rest)
    | rest => ([], rest)
  (integer? (sign ++ digits.takeWhile Char.isDigit)).map fun n => (n, digits.dropWhile Char.isDigit)

/-- A text in quotes, which has no escapes. -/
def quoted? : List Char → Option (String × List Char)
  | '"' :: text =>
    match text.dropWhile (· ≠ '"') with
    | _ :: rest => some (String.ofList (text.takeWhile (· ≠ '"')), rest)
    | [] => none
  | _ => none

def argument? (text : List Char) : Option (Argument × List Char) :=
  match parameter? text with
  | some (name, rest) => some (.parameter name, rest)
  | none =>
    match number? text with
    | some (n, rest) => some (.number n, rest)
    | none =>
      match quoted? text with
      | some (content, rest) => some (.text content, rest)
      | none => (name? text).map fun (name, rest) => (.term name, rest)

/-- The text of an argument as a message shows it: up to the next comma or parenthesis. -/
def argumentText (text : List Char) : String :=
  String.ofList (trim (text.takeWhile fun c => c ≠ ',' ∧ c ≠ ')'))

/-- One argument of a call to `callee`, which must not itself be a call or carry a selector. -/
def argument (callee : String) (text : List Char) :
    Except Fault (Argument × List Char) :=
  if text.head? = some '@' ∨ text.head? = some '{' then
    .error ⟨.complexArgument (argumentText text), text.length⟩
  else
    match argument? text with
    | none => malformed (.argument callee) text
    | some (arg, rest) =>
      if rest.head? = some '(' then
        match arg with
        | .term name => .error ⟨.nestedCall name, text.length⟩
        | _ => malformed (.argument callee) rest
      else if rest.head? = some ':' then
        .error ⟨.complexArgument (argumentText text), text.length⟩
      else .ok (arg, rest)

theorem length_lt_of_number? {text rest : List Char} {n : Int64}
    (h : number? text = some (n, rest)) : rest.length < text.length := by
  obtain ⟨sign, digits, he, hs⟩ : ∃ sign digits,
      (match text with
        | '-' :: rest => (['-'], rest)
        | rest => ([], rest)) = (sign, digits) ∧ text = sign ++ digits := by
    split <;> exact ⟨_, _, rfl, rfl⟩
  simp only [number?, he] at h
  obtain ⟨m, hm, hr⟩ := Option.map_eq_some_iff.1 h
  cases hr
  have hle := length_dropWhile_le Char.isDigit digits
  subst hs
  rw [List.length_append]
  rcases Nat.lt_or_ge (digits.dropWhile Char.isDigit).length digits.length with hlt | hge
  · omega
  · cases sign with
    | cons c cs => simp only [List.length_cons]; omega
    | nil =>
      have hnil : digits.takeWhile Char.isDigit = [] := by
        have := congrArg List.length
          (List.takeWhile_append_dropWhile (p := Char.isDigit) (l := digits))
        rw [List.length_append] at this
        exact List.length_eq_zero_iff.1 (by omega)
      rw [hnil] at hm
      simp [integer?, decimal?] at hm

theorem length_lt_of_quoted? {text rest : List Char} {s : String}
    (h : quoted? text = some (s, rest)) : rest.length < text.length := by
  unfold quoted? at h
  split at h
  · next body =>
    split at h
    · next c r hd =>
      cases h
      have := length_dropWhile_le (· ≠ '"') body
      rw [hd] at this
      simp only [List.length_cons] at *
      omega
    · cases h
  · cases h

theorem length_lt_of_argument? {text rest : List Char} {a : Argument}
    (h : argument? text = some (a, rest)) : rest.length < text.length := by
  unfold argument? at h
  split at h
  · next hp => cases h; exact length_lt_of_parameter? hp
  · split at h
    · next hn => cases h; exact length_lt_of_number? hn
    · split at h
      · next hq => cases h; exact length_lt_of_quoted? hq
      · obtain ⟨⟨name, r⟩, hn, he⟩ := Option.map_eq_some_iff.1 h
        cases he
        exact length_lt_of_name? hn

theorem length_lt_of_argument {callee : String} {text rest : List Char} {a : Argument}
    (h : argument callee text = .ok (a, rest)) : rest.length < text.length := by
  unfold argument malformed at h
  split at h
  · cases h
  · split at h
    · cases h
    · next ha =>
      split at h
      · split at h <;> cases h
      · split at h
        · cases h
        · cases h; exact length_lt_of_argument? ha

theorem length_skipBlanks_le (text : List Char) : (skipBlanks text).length ≤ text.length :=
  length_dropWhile_le _ _

/-- The arguments of a call, behind the opening parenthesis and up to the closing one; there is at
least one. -/
def arguments (callee : String) (text : List Char) :
    Except Fault (List Argument × List Char) :=
  match h : argument callee (skipBlanks text) with
  | .error fault => .error fault
  | .ok (arg, rest) =>
    match hb : skipBlanks rest with
    | ',' :: more => do
      have : more.length < text.length := by
        have h₁ := length_lt_of_argument h
        have h₂ := length_skipBlanks_le text
        have h₃ := length_skipBlanks_le rest
        rw [hb, List.length_cons] at h₃
        omega
      let (args, rest) ← arguments callee more
      return (arg :: args, rest)
    | ')' :: more => .ok ([arg], more)
    | place => malformed (.argumentEnd callee) place
termination_by text.length

def allArguments (callee : String) (text : List Char) : Except Fault (List Argument × List Char) :=
  match skipBlanks text with
  | ')' :: rest => .ok ([], rest)
  | rest => arguments callee rest

def isUpper (c : Char) : Bool :=
  'A' ≤ c && c ≤ 'Z'

/-- A name that starts with a capital asks for the name with a small letter, capitalised. -/
def decapitalise (name : String) : String × Bool :=
  match name.toList with
  | c :: rest => if isUpper c then (String.ofList (c.toLower :: rest), true) else (name, false)
  | [] => (name, false)

/-- A reference, and whether its name was capitalised. -/
def reference (text : List Char) : Except Fault ((Reference × Bool) × List Char) :=
  if text.head? = some '$' then
    match parameter? text with
    | some (name, rest) => .ok ((.parameter name, false), rest)
    | none => malformed .parameterName text
  else
    match name? text with
    | none => malformed .referenceName text
    | some (written, rest) =>
      let (name, capital) := decapitalise written
      match rest with
      | '(' :: more => do
        let (args, rest) ← allArguments name more
        return ((.call name args, capital), rest)
      | _ => .ok ((.term name, capital), rest)

theorem length_lt_of_selector? {text rest : List Char} {s : Selector}
    (h : selector? text = some (s, rest)) : rest.length < text.length := by
  unfold selector? at h
  split at h
  · next hp => cases h; exact length_lt_of_parameter? hp
  · obtain ⟨⟨key, r⟩, hw, he⟩ := Option.map_eq_some_iff.1 h
    cases he
    exact length_lt_of_run? hw

def selectors : List Char → Except Fault (List Selector × List Char)
  | ':' :: text =>
    match h : selector? text with
    | none => malformed .selector (':' :: text)
    | some (key, rest) => do
      have := length_lt_of_selector? h
      let (keys, rest) ← selectors rest
      return (key :: keys, rest)
  | text => .ok ([], text)
termination_by text => text.length

/-- A transform call, if there is one; a second one is refused. -/
def optionalTransform (text : List Char) : Except Fault (Option TransformCall × List Char) :=
  if text.head? = some '@' then
    match transform? text with
    | none => malformed .transformName text
    | some (call, rest) =>
      match skipBlanks rest with
      | '@' :: more =>
        let name := ((name? more).map Prod.fst).getD ""
        .error ⟨.nestedCall ("@" ++ name), more.length + 1⟩
      | rest => .ok (some call, rest)
  else .ok (none, text)

/-- A capitalised name is a transform call of its own, and only one call may stand in a hole. -/
def capitalised (transform : Option TransformCall) (capital : Bool) (place : List Char) :
    Except Fault (Option TransformCall) :=
  match transform, capital with
  | transform, false => .ok transform
  | none, true => .ok (some ⟨"cap", none⟩)
  | some _, true => .error ⟨.nestedCall "@cap", place.length⟩

/-- The whole inside of a hole. -/
def interpolation (text : List Char) : Except Fault Interpolation := do
  let text := skipBlanks text
  match text with
  | ':' :: rest =>
    throw ⟨.unknownDirective (((name? rest).map Prod.fst).getD ""), text.length⟩
  | _ => pure ()
  let (transform, text) ← optionalTransform text
  let ((reference, capital), rest) ← reference text
  let transform ← capitalised transform capital text
  let (selectors, rest) ← selectors rest
  match skipBlanks rest with
  | [] => return ⟨transform, reference, selectors⟩
  | c :: more => malformed (.leftover c) (c :: more)

end Phrasebook.Template
