import Mathlib.Data.List.Nodup
import Phrasebook.Transform.Basic

/-!
Choices by a tag. Of options that have a tag each, a value chooses the one whose tag it carries, and
it is refused with none of them or with several.
-/

namespace Phrasebook.Transform

variable {α : Type} {tag : α → String} {options : List α} {option other : α} {value : Value}
  {name : String}

theorem choose_tagged (options : List α) (value : Value) (name : String) :
    choose name value (options.map fun a => (tag a, a)) =
      match options.filter fun a => value.hasTag (tag a) with
      | [a] => .ok a
      | [] => .error (.missingTag name (options.map tag) value.shown)
      | _ => .error (.unsupportedTags name ((options.map tag).filter value.hasTag)) := by
  have hfound : (options.map fun a => (tag a, a)).filter (fun o => value.hasTag o.1) =
      (options.filter fun a => value.hasTag (tag a)).map fun a => (tag a, a) := List.filter_map
  have htags : (options.map tag).filter value.hasTag =
      (options.filter fun a => value.hasTag (tag a)).map tag := List.filter_map
  rw [choose, hfound, htags, List.map_map]
  cases options.filter fun a => value.hasTag (tag a) with
  | nil => rfl
  | cons a rest =>
    cases rest with
    | nil => rfl
    | cons b rest =>
      simp only [List.map_cons, List.map_map]
      rfl

theorem choose_of_none (h : ∀ a ∈ options, ¬ value.hasTag (tag a)) :
    choose name value (options.map fun a => (tag a, a)) =
      .error (.missingTag name (options.map tag) value.shown) := by
  rw [choose_tagged, List.filter_eq_nil_iff.2 h]

theorem choose_of_several (hm : option ∈ options) (ho : other ∈ options) (hne : option ≠ other)
    (htag : value.hasTag (tag option)) (htag' : value.hasTag (tag other)) :
    choose name value (options.map fun a => (tag a, a)) =
      .error (.unsupportedTags name ((options.map tag).filter value.hasTag)) := by
  have hfound : option ∈ options.filter fun a => value.hasTag (tag a) :=
    List.mem_filter.2 ⟨hm, htag⟩
  have hfound' : other ∈ options.filter fun a => value.hasTag (tag a) :=
    List.mem_filter.2 ⟨ho, htag'⟩
  rw [choose_tagged]
  split
  · next a he =>
    rw [he, List.mem_singleton] at hfound hfound'
    exact absurd (hfound.trans hfound'.symm) hne
  · next he =>
    rw [he] at hfound
    cases hfound
  · rfl

theorem choose_of_only (hn : options.Nodup) (hm : option ∈ options)
    (htag : value.hasTag (tag option))
    (honly : ∀ other ∈ options, value.hasTag (tag other) → other = option) :
    choose name value (options.map fun a => (tag a, a)) = .ok option := by
  have hmem (a : α) : a ∈ options.filter (fun a => value.hasTag (tag a)) ↔ a ∈ [option] := by
    rw [List.mem_filter, List.mem_singleton]
    exact ⟨fun h => honly a h.1 h.2, fun h => h ▸ ⟨hm, htag⟩⟩
  have hperm := (List.perm_ext_iff_of_nodup (hn.filter _) (List.nodup_singleton option)).2 hmem
  rw [choose_tagged, List.perm_singleton.1 hperm]

end Phrasebook.Transform
