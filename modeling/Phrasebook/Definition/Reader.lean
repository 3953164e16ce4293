import Phrasebook.ParseError
import Phrasebook.Text.Blank
import Phrasebook.Text.Word

/-!
Readers with two ways to give up. A reader that declines lets another form be tried; one that is
stuck ends the whole reading. Both say what was wanted and what was left at that place.
-/

namespace Phrasebook

open Text

inductive Outcome (α : Type) where
  | done (value : α) (rest : List Char)
  | declined (wanted : Wanted) (rest : List Char)
  | stuck (wanted : Wanted) (rest : List Char)
deriving Repr

def Reader (α : Type) : Type :=
  List Char → Outcome α

namespace Reader

variable {α β : Type}

def read (r : Reader α) (text : List Char) : Outcome α :=
  r text

instance : Monad Reader where
  pure value := fun text => .done value text
  bind r f := fun text =>
    match r text with
    | .done value rest => f value rest
    | .declined wanted rest => .declined wanted rest
    | .stuck wanted rest => .stuck wanted rest

/-- Reads what a partial function reads, or declines on the spot. -/
def ofOption (f : List Char → Option (α × List Char)) : Reader α :=
  fun text =>
    match f text with
    | some (value, rest) => .done value rest
    | none => .declined .nothing text

def char (c : Char) : Reader Unit :=
  ofOption fun
    | d :: rest => if d = c then some ((), rest) else none
    | [] => none

/-- Passes over what `f` drops. -/
def drop (f : List Char → List Char) : Reader Unit :=
  fun text => .done () (f text)

/-- How many characters are left. -/
def left : Reader Nat :=
  fun text => .done text.length text

/-- No other form will be tried. -/
def commit (r : Reader α) : Reader α :=
  fun text =>
    match r text with
    | .declined wanted rest => .stuck wanted rest
    | outcome => outcome

def explain (f : Wanted → Wanted) (r : Reader α) : Reader α :=
  fun text =>
    match r text with
    | .done value rest => .done value rest
    | .declined wanted rest => .declined (f wanted) rest
    | .stuck wanted rest => .stuck (f wanted) rest

def labelled (name : String) : Reader α → Reader α :=
  explain fun w => { w with labels := w.labels ++ [name] }

def wanting (c : Char) : Reader α → Reader α :=
  explain fun w => { w with characters := w.characters ++ [c] }

/-- A character that must stand here, and is asked for by name. -/
def expect (c : Char) : Reader Unit :=
  wanting c (char c)

/-- The second form is tried from the start if the first declines. -/
def orElse (r s : Reader α) : Reader α :=
  fun text =>
    match r text with
    | .declined _ _ => s text
    | outcome => outcome

def optional (r : Reader α) : Reader (Option α) :=
  fun text =>
    match r text with
    | .done value rest => .done (some value) rest
    | .declined _ _ => .done none text
    | .stuck wanted rest => .stuck wanted rest

/-- As many as there are: where the next one declines, nothing of it is read. -/
def many (r : Reader α) (text : List Char) : Outcome (List α) :=
  match r text with
  | .declined _ _ => .done [] text
  | .stuck wanted rest => .stuck wanted rest
  | .done value rest =>
    if rest.length < text.length then
      match many r rest with
      | .done values rest => .done (value :: values) rest
      | outcome => outcome
    else .done [value] rest
termination_by text.length

/-- More items, each behind a separator. A separator that no item follows is not read. -/
def further (item : Reader α) (separator : Reader β) : Reader (List α) :=
  many (separator >>= fun _ => item)

/-- At least one item, with separators between them. -/
def separated1 (item : Reader α) (separator : Reader β) : Reader (List α) := do
  let first ← item
  let rest ← further item separator
  return first :: rest

def separated (item : Reader α) (separator : Reader β) : Reader (List α) := do
  let items ← optional (separated1 item separator)
  return items.getD []

/-! ### Words and gaps of the grammar -/

def name : Reader String :=
  ofOption name?

def word : Reader String :=
  ofOption word?

/-- A name behind a dollar sign. -/
def parameter : Reader String := do
  char '$'
  name

def blanks : Reader Unit :=
  drop skipBlanks

/-- Passes over blanks and comments. A comment runs from two slashes to the end of its line;
`inComment` tells that one has begun. -/
def skipGap (inComment : Bool) : List Char → List Char
  | [] => []
  | c :: rest =>
    if inComment then skipGap (c ≠ '\n') rest
    else if c = '/' ∧ rest.head? = some '/' then skipGap true rest
    else if isBlank c then skipGap false rest
    else c :: rest

def gap : Reader Unit :=
  drop (skipGap false)

end Reader

end Phrasebook
