import Phrasebook.Text.Integer

/-!
Templates: literal text with holes. A hole refers to a parameter or to another phrase, may select
one of its forms, and may pass the result through one transform.
-/

namespace Phrasebook

/-- A key written out, or one that a parameter supplies when the phrase is rendered. -/
inductive Selector where
  | literal (key : String)
  | parameter (name : String)
deriving DecidableEq, Repr

structure TransformCall where
  name : String
  context : Option Selector
deriving DecidableEq, Repr

/-- An argument is never itself a call. -/
inductive Argument where
  | parameter (name : String)
  | number (n : Int64)
  | text (content : String)
  | term (name : String)
deriving DecidableEq, Repr

inductive Reference where
  | parameter (name : String)
  | term (name : String)
  | call (name : String) (arguments : List Argument)
deriving DecidableEq, Repr

/-- The phrase that a reference names, if it names one. -/
def Reference.phrase? : Reference → Option String
  | parameter _ => none
  | term name => some name
  | call name _ => some name

structure Interpolation where
  transform : Option TransformCall
  reference : Reference
  selectors : List Selector
deriving DecidableEq, Repr

inductive Segment where
  | literal (text : String)
  | interpolation (hole : Interpolation)
deriving DecidableEq, Repr

structure Template where
  segments : List Segment
deriving DecidableEq, Repr

/-- What a template means, character by character and hole by hole. -/
inductive Piece where
  | char (c : Char)
  | hole (hole : Interpolation)
deriving DecidableEq, Repr

namespace Template

def interpolations (t : Template) : List Interpolation :=
  t.segments.filterMap fun
    | .literal _ => none
    | .interpolation hole => some hole

/-- The text of a template without holes. -/
def literal? (t : Template) : Option String :=
  t.segments.foldlM (fun text segment => match segment with
    | .literal more => some (text ++ more)
    | .interpolation _ => none) ""

/-- Ends a literal: an empty one leaves no segment. -/
def close (pending : List Char) (rest : List Segment) : List Segment :=
  if pending.isEmpty then rest else .literal (String.ofList pending.reverse) :: rest

/-- Gathers characters that stand side by side into one literal; `pending` holds those before. -/
def gather (pending : List Char) : List Piece → List Segment
  | [] => close pending []
  | .char c :: rest => gather (c :: pending) rest
  | .hole hole :: rest => close pending (.interpolation hole :: gather [] rest)

def ofPieces (pieces : List Piece) : Template :=
  ⟨gather [] pieces⟩

def pieces (t : Template) : List Piece :=
  t.segments.flatMap fun
    | .literal text => text.toList.map .char
    | .interpolation hole => [.hole hole]

end Template

end Phrasebook
