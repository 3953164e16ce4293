/-!
Places in a text. A position is a line and a column, both counted from one, and a column counts
characters. An offset counts the bytes of the text's encoding. `Position.at?` and
`Position.offsetIn` go between the two.
-/

namespace Phrasebook.Text

structure Position where
  line : Nat
  column : Nat
deriving DecidableEq, Repr

namespace Position

def start : Position := ⟨1, 1⟩

def next (p : Position) (c : Char) : Position :=
  if c = '\n' then ⟨p.line + 1, 1⟩ else ⟨p.line, p.column + 1⟩

/-- The position just behind a text. -/
def after (text : List Char) : Position :=
  text.foldl next start

/-- The position in `text` with so many characters still to come. -/
def ahead (text : List Char) (left : Nat) : Position :=
  after (text.take (text.length - left))

/-- The characters that the first `offset` bytes hold: none when the offset cuts one in two. -/
def takeBytes : Nat → List Char → Option (List Char)
  | 0, _ => some []
  | _, [] => some []
  | offset, c :: rest =>
    if offset < c.utf8Size then none else (takeBytes (offset - c.utf8Size) rest).map (c :: ·)

/-- An offset past the end is the end. -/
def at? (source : String) (offset : Nat) : Option Position :=
  (takeBytes offset source.toList).map after

/-- The bytes before a place that is so many line ends and then so many characters away. A line
that is too short ends the walk at its end. -/
def offsetFrom : Nat → Nat → List Char → Nat
  | _, _, [] => 0
  | 0, columns, c :: rest =>
    if c = '\n' ∨ columns = 0 then 0 else c.utf8Size + offsetFrom 0 (columns - 1) rest
  | lines + 1, columns, c :: rest =>
    c.utf8Size + offsetFrom (if c = '\n' then lines else lines + 1) columns rest

def offsetIn (p : Position) (source : String) : Nat :=
  offsetFrom (p.line - 1) (p.column - 1) source.toList

/-- Line first, then column. -/
protected def lt (p q : Position) : Prop :=
  p.line < q.line ∨ p.line = q.line ∧ p.column < q.column

instance : LT Position := ⟨Position.lt⟩

instance (p q : Position) : Decidable (p < q) :=
  inferInstanceAs (Decidable (p.line < q.line ∨ p.line = q.line ∧ p.column < q.column))

protected def toString (p : Position) : String :=
  s!"{p.line}:{p.column}"

instance : ToString Position := ⟨Position.toString⟩

end Position

end Phrasebook.Text
