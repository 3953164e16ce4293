import Phrasebook.Proofs.Built
import Phrasebook.Proofs.TransformErrors

/-!
What transforms read of the locale that calls them. They are handed all of it, for its language and
its plural rule. Where none reads more, locales that differ in their phrases alone go by the same
conventions.
-/

namespace Phrasebook

/-- Of the locale that calls it, the transform reads the language and the plural rule, which is what
it is handed the locale for. -/
def Transform.KeepsToLanguage (t : Transform) : Prop :=
  ∀ value context (s s' : Setting), s.language = s'.language → s.rule = s'.rule →
    t value context s = t value context s'

theorem Builtin.keepsToLanguage (t : Builtin) : t.transform.KeepsToLanguage := by
  intro value context s s' hl hr
  cases s
  cases s'
  cases hl
  cases hr
  cases t <;> rfl

namespace Registry

def KeepsToLanguage (r : Registry) : Prop :=
  ∀ name t, r.get? name = some t → t.KeepsToLanguage

theorem KeepsToLanguage.apply {r : Registry} (h : r.KeepsToLanguage) (name : String) :
    (r.apply name).KeepsToLanguage := by
  intro value context s s' hl hr
  unfold Registry.apply
  cases hg : r.get? name with
  | none => rfl
  | some t => exact h name t hg value context s s' hl hr

end Registry

namespace Blueprint

/-- The transforms on top of the built-in ones keep to the language. -/
def KeepsToLanguage (b : Blueprint) : Prop :=
  ∀ entry ∈ b.transforms, entry.2.KeepsToLanguage

variable {b : Blueprint} {l : Locale}

theorem KeepsToLanguage.of_transforms_eq_nil (h : b.transforms = []) : b.KeepsToLanguage := by
  simp [KeepsToLanguage, h]

theorem KeepsToLanguage.registry (h : b.KeepsToLanguage) (language : Language) :
    (b.registry language).KeepsToLanguage := by
  intro name t hg
  rcases Registry.get?_registerAll hg with hm | hg
  · exact h (name, t) hm
  · obtain ⟨builtin, rfl⟩ := Registry.exists_builtin_of_get? hg
    exact builtin.keepsToLanguage

theorem KeepsToLanguage.of_build (h : b.KeepsToLanguage) (hl : b.build = .ok l) :
    l.transforms.KeepsToLanguage := by
  obtain ⟨language, -, hr⟩ := registry_of_build hl
  rw [hr]
  exact h.registry language

end Blueprint

/-- The conventions of a locale do not depend on its phrases. -/
theorem Locale.conventions_withPhrases {l : Locale} (h : l.transforms.KeepsToLanguage)
    (phrases : Store) : conventions { l with phrases } = l.conventions := by
  have happly (name : String) (value : Value) (context : Option String) :
      l.transforms.apply name value context { l.toSetting with phrases } =
        l.transforms.apply name value context l.toSetting :=
    h.apply name value context _ _ rfl rfl
  simp only [conventions, happly]
  rfl

end Phrasebook
