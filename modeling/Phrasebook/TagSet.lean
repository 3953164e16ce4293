/-!
Ordered sets of grammatical tags. Order matters, since selection by a phrase uses its first tag; a
tag that is already there is not added again.
-/

namespace Phrasebook

/-- A set that insertions have built. One that is read from stored data, where nothing keeps a tag
from standing twice, is not meant. -/
structure TagSet where
  tags : List String
  nodup : tags.Nodup
deriving DecidableEq, Repr

namespace TagSet

def empty : TagSet := ⟨[], List.nodup_nil⟩

instance : EmptyCollection TagSet := ⟨empty⟩

instance : Membership String TagSet := ⟨fun s tag => tag ∈ s.tags⟩

instance (s : TagSet) (tag : String) : Decidable (tag ∈ s) :=
  inferInstanceAs (Decidable (tag ∈ s.tags))

def contains (s : TagSet) (tag : String) : Bool :=
  decide (tag ∈ s)

def insert (s : TagSet) (tag : String) : TagSet :=
  if h : tag ∈ s.tags then s
  else ⟨s.tags ++ [tag], List.nodup_append.2 ⟨s.nodup, by simp, by grind⟩⟩

def insertAll (s : TagSet) (tags : List String) : TagSet :=
  tags.foldl insert s

def ofList (tags : List String) : TagSet :=
  empty.insertAll tags

def first? (s : TagSet) : Option String :=
  s.tags.head?

protected def toString (s : TagSet) : String :=
  " ".intercalate (s.tags.map (":" ++ ·))

theorem tags_insert (s : TagSet) (tag : String) :
    (s.insert tag).tags = if tag ∈ s.tags then s.tags else s.tags ++ [tag] := by
  unfold insert; split <;> rfl

@[simp] theorem mem_insert {s : TagSet} {tag other : String} :
    other ∈ s.insert tag ↔ other ∈ s ∨ other = tag := by
  change other ∈ (s.insert tag).tags ↔ other ∈ s.tags ∨ other = tag
  rw [tags_insert]
  split <;> grind

end TagSet

end Phrasebook
