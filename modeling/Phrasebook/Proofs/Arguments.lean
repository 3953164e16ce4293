import Phrasebook.Proofs.Outcomes
import Phrasebook.Proofs.Words

/-!
Reading the arguments of a call, as the grammar has them.
-/

namespace Phrasebook.Template

open Text Template.Grammar

section

variable {text rest : List Char}

/-- What an argument is shows in its first character. -/
theorem argument?_eq_some {argument : Phrasebook.Argument}
    (hcall : rest.head? ≠ some '(') (hkey : rest.head? ≠ some ':') :
    argument? text = some (argument, rest) ↔ Grammar.Argument text argument rest := by
  constructor
  · intro h
    unfold argument? at h
    split at h
    · next name more hp =>
      cases h
      obtain ⟨text, rfl, hn⟩ := parameter?_eq_some.1 hp
      exact .parameter hn
    · split at h
      · next n more hi =>
        cases h
        exact .number (number?_eq_some.1 hi)
      · split at h
        · next content more hq =>
          cases h
          obtain ⟨inside, hin, rfl, rfl⟩ := quoted?_eq_some.1 hq
          exact .text hin
        · obtain ⟨⟨name, more⟩, hn, he⟩ := Option.map_eq_some_iff.1 h
          cases he
          exact .term (name?_eq_some.1 hn) hcall hkey
  · intro h
    unfold argument?
    cases h with
    | parameter hn => rw [parameter?_eq_some.2 ⟨_, rfl, hn⟩]
    | number hi =>
      have hp : text.head? ≠ some '$' := by
        intro hd
        have := number?_eq_none hd (by decide) (by decide)
        rw [number?_eq_some.2 hi] at this
        cases this
      rw [parameter?_eq_none hp, number?_eq_some.2 hi]
    | text hq =>
      rw [parameter?_eq_none (by simp), number?_eq_none rfl (by decide) (by decide),
        quoted?_eq_some.2 ⟨_, hq, rfl, rfl⟩]
    | term hn =>
      obtain ⟨c, hc, hs⟩ := hn.head?_eq
      have hminus : c ≠ '-' := fun h => hn.head?_ne (by decide) (h ▸ hc)
      rw [parameter?_eq_none (hn.head?_ne (by decide)), quoted?_eq_none (hn.head?_ne (by decide)),
        number?_eq_none hc hminus (isDigit_of_isNameStart hs), name?_eq_some.2 hn]
      rfl

theorem argument_eq_ok {callee : String} {argument : Phrasebook.Argument} :
    Template.argument callee text = .ok (argument, rest) ↔
      Grammar.Argument text argument rest ∧ rest.head? ≠ some '(' ∧ rest.head? ≠ some ':' := by
  constructor
  · intro h
    unfold Template.argument at h
    split at h
    · cases h
    · split at h
      · cases h
      · next ha =>
        split at h
        · split at h <;> cases h
        · next hcall =>
          split at h
          · cases h
          · next hkey =>
            cases h
            exact ⟨(argument?_eq_some hcall hkey).1 ha, hcall, hkey⟩
  · rintro ⟨ha, hcall, hkey⟩
    have ha := (argument?_eq_some hcall hkey).2 ha
    have hsimple : ¬ (text.head? = some '@' ∨ text.head? = some '{') := by
      intro hd
      cases text with
      | nil => simp at hd
      | cons c more =>
        rcases hd with hd | hd <;> cases hd <;> cases ha
    rw [Template.argument, if_neg hsimple, ha]
    simp only [if_neg hcall, if_neg hkey]

/-- Between blanks nothing can follow an argument that would make it a call or select a key. -/
theorem argument_of_blanks (callee : String) {start stop next : List Char} {c : Char}
    {argument : Phrasebook.Argument} (hb : Blanks text start)
    (ha : Grammar.Argument start argument stop) (he : Blanks stop (c :: next)) (hcall : c ≠ '(')
    (hkey : c ≠ ':') : Template.argument callee (skipBlanks text) = .ok (argument, stop) := by
  rw [skipBlanks_eq_iff.2 hb, argument_eq_ok]
  exact ⟨ha, he.head?_ne (by decide) hcall, he.head?_ne (by decide) hkey⟩

/-- One argument, and what the character behind its blanks says is to come. -/
theorem arguments_eq (callee : String) (text : List Char) :
    Template.arguments callee text =
      match Template.argument callee (skipBlanks text) with
      | .error fault => .error fault
      | .ok (argument, rest) =>
        match skipBlanks rest with
        | ',' :: more => do
          let (args, rest) ← Template.arguments callee more
          return (argument :: args, rest)
        | ')' :: more => .ok ([argument], more)
        | place => malformed (.argumentEnd callee) place := by
  rw [Template.arguments]
  split
  · next h => rw [h]
  · next h =>
    simp only [h]
    split
    · next hb => simp only [hb]
    · next hb => simp only [hb]
    · next hcomma hclose =>
      split
      · next hb => exact absurd hb (hcomma _)
      · next hb => exact absurd hb (hclose _)
      · rfl

theorem arguments_eq_ok {callee : String} {args : List Phrasebook.Argument} :
    Template.arguments callee text = .ok (args, rest) ↔ SomeArguments text args rest := by
  constructor
  · intro h
    fun_induction Template.arguments callee text generalizing args rest with
    | case1 => cases h
    | case2 text argument stop ha next hb this ih =>
      obtain ⟨⟨args, rest⟩, hm, he⟩ := bind_eq_ok.1 h
      cases he
      exact .more (skipBlanks_eq_iff.1 rfl) (argument_eq_ok.1 ha).1 (skipBlanks_eq_iff.1 hb) (ih hm)
    | case3 text argument stop ha next hb =>
      cases h
      exact .last (skipBlanks_eq_iff.1 rfl) (argument_eq_ok.1 ha).1 (skipBlanks_eq_iff.1 hb)
    | case4 => cases h
  · intro h
    induction h with
    | last hb ha he =>
      rw [arguments_eq, argument_of_blanks callee hb ha he (by decide) (by decide)]
      simp only [skipBlanks_eq_iff.2 he]
    | more hb ha he hm ih =>
      rw [arguments_eq, argument_of_blanks callee hb ha he (by decide) (by decide)]
      simp only [skipBlanks_eq_iff.2 he, ih]
      rfl

theorem skipBlanks_skipBlanks (text : List Char) :
    skipBlanks (skipBlanks text) = skipBlanks text := by
  obtain ⟨blanks, h⟩ := skipBlanks_eq_iff.1 (rfl : skipBlanks text = skipBlanks text)
  cases hs : skipBlanks text with
  | nil => rfl
  | cons c more =>
    have hc : isBlank c = false := h.ended c (by rw [hs]; rfl)
    simp [skipBlanks, hc]

theorem someArguments_skipBlanks {args : List Phrasebook.Argument} :
    SomeArguments (skipBlanks text) args rest ↔ SomeArguments text args rest := by
  have hstart {start : List Char} : Blanks (skipBlanks text) start ↔ Blanks text start := by
    rw [← skipBlanks_eq_iff, ← skipBlanks_eq_iff, skipBlanks_skipBlanks]
  constructor
  · intro h
    cases h with
    | last hb ha he => exact .last (hstart.1 hb) ha he
    | more hb ha he hm => exact .more (hstart.1 hb) ha he hm
  · intro h
    cases h with
    | last hb ha he => exact .last (hstart.2 hb) ha he
    | more hb ha he hm => exact .more (hstart.2 hb) ha he hm

theorem Grammar.SomeArguments.skipBlanks_ne {args : List Phrasebook.Argument}
    (h : SomeArguments text args rest) (more : List Char) : skipBlanks text ≠ ')' :: more := by
  intro hs
  have hread : Template.arguments "" (')' :: more) = .ok (args, rest) :=
    arguments_eq_ok.2 (hs ▸ someArguments_skipBlanks.2 h)
  rw [arguments_eq] at hread
  cases hread

theorem allArguments_eq_ok {callee : String} {args : List Phrasebook.Argument} :
    allArguments callee text = .ok (args, rest) ↔ Arguments text args rest := by
  constructor
  · intro h
    unfold allArguments at h
    split at h
    · next hs =>
      cases h
      exact .none (skipBlanks_eq_iff.1 hs)
    · exact .some (someArguments_skipBlanks.1 (arguments_eq_ok.1 h))
  · intro h
    unfold allArguments
    cases h with
    | none hb =>
      rw [skipBlanks_eq_iff.2 hb]
      rfl
    | some hs =>
      split
      · next hd => exact absurd hd (hs.skipBlanks_ne _)
      · exact arguments_eq_ok.2 (someArguments_skipBlanks.2 hs)

end

end Phrasebook.Template
