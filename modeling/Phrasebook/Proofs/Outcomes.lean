import Mathlib.Data.List.Forall2

/-!
Computations that may fail: when they succeed, and which errors they can fail with.
-/

namespace Phrasebook

variable {ε α β : Type}

theorem bind_eq_ok {x : Except ε α} {f : α → Except ε β} {b : β} :
    (x >>= f) = .ok b ↔ ∃ a, x = .ok a ∧ f a = .ok b := by
  cases x with
  | error e => simp [bind, Except.bind]
  | ok a => simp [bind, Except.bind]

theorem bind_eq_error {x : Except ε α} {f : α → Except ε β} {e : ε} :
    (x >>= f) = .error e ↔ x = .error e ∨ ∃ a, x = .ok a ∧ f a = .error e := by
  cases x with
  | error e => simp [bind, Except.bind]
  | ok a => simp [bind, Except.bind]

theorem map_eq_ok {x : Except ε α} {f : α → β} {b : β} :
    x.map f = .ok b ↔ ∃ a, x = .ok a ∧ f a = b := by
  cases x with
  | error e => simp [Except.map]
  | ok a => simp [Except.map]

theorem eq_ok_of_toOption {x : Except ε α} {a : α} (h : x.toOption = some a) : x = .ok a := by
  cases x with
  | error e => cases h
  | ok b => exact congrArg _ (Option.some.inj h)

theorem toOption_bind {x : Except ε α} {f : α → Except ε β} :
    (x >>= f).toOption = x.toOption.bind fun a => (f a).toOption := by
  cases x <;> rfl

theorem toOption_bind_pure {x : Except ε α} {f : α → β} :
    (x >>= fun a => pure (f a)).toOption = x.toOption.map f := by
  cases x <;> rfl

theorem toOption_mapM {f : α → Except ε β} {xs : List α} :
    (xs.mapM f).toOption = xs.mapM fun x => (f x).toOption := by
  induction xs with
  | nil => rfl
  | cons x xs ih =>
    rw [List.mapM_cons, List.mapM_cons, toOption_bind]
    congr 1
    funext y
    rw [toOption_bind, ih]
    rfl

theorem toOption_foldlM {f : β → α → Except ε β} {xs : List α} {b : β} :
    (xs.foldlM f b).toOption = xs.foldlM (fun b x => (f b x).toOption) b := by
  induction xs generalizing b with
  | nil => rfl
  | cons x xs ih =>
    rw [List.foldlM_cons, List.foldlM_cons, toOption_bind]
    congr 1
    funext c
    exact ih

theorem map_mapM {γ : Type} {f : α → Option β} {g : β → γ} {xs : List α} :
    (xs.mapM f).map (List.map g) = xs.mapM fun x => (f x).map g := by
  induction xs with
  | nil => rfl
  | cons x xs ih =>
    rw [List.mapM_cons, List.mapM_cons, ← ih]
    cases f x with
    | none => rfl
    | some y => cases xs.mapM f <;> rfl

theorem isSome_mapM {f : α → Option β} {xs : List α} :
    (xs.mapM f).isSome ↔ ∀ x ∈ xs, (f x).isSome := by
  induction xs with
  | nil => simp
  | cons x xs ih =>
    rw [List.forall_mem_cons, ← ih, List.mapM_cons]
    cases f x with
    | none => simp
    | some y => cases xs.mapM f <;> simp

theorem forall₂_of_mapM_eq_some {f : α → Option β} {xs : List α} {ys : List β}
    (h : xs.mapM f = some ys) : List.Forall₂ (fun x y => f x = some y) xs ys := by
  induction xs generalizing ys with
  | nil =>
    cases h
    exact .nil
  | cons x xs ih =>
    simp only [List.mapM_cons, Option.bind_eq_bind, Option.bind_eq_some_iff] at h
    obtain ⟨y, hy, rest, hr, he⟩ := h
    cases he
    exact .cons hy (ih hr)

theorem exists_mem_of_mapM_eq_some {f : α → Option β} {xs : List α} {ys : List β} {y : β}
    (h : xs.mapM f = some ys) (hy : y ∈ ys) : ∃ x ∈ xs, f x = some y := by
  have hall := forall₂_of_mapM_eq_some h
  clear h
  induction hall with
  | nil => cases hy
  | @cons x y' xs ys hx _ ih =>
    rcases List.mem_cons.1 hy with rfl | hy
    · exact ⟨x, List.mem_cons_self, hx⟩
    · obtain ⟨x', hx', hy'⟩ := ih hy
      exact ⟨x', List.mem_cons_of_mem x hx', hy'⟩

theorem map_of_mapM_eq_some {γ : Type} {f : α → Option β} {g : β → γ} {g' : α → γ} {xs : List α}
    {ys : List β} (h : xs.mapM f = some ys) (hg : ∀ x ∈ xs, ∀ y, f x = some y → g y = g' x) :
    ys.map g = xs.map g' := by
  have hall := forall₂_of_mapM_eq_some h
  clear h
  induction hall with
  | nil => rfl
  | @cons x y xs ys hx _ ih =>
    obtain ⟨hy, hys⟩ := List.forall_mem_cons.1 hg
    rw [List.map_cons, List.map_cons, hy y hx, ih hys]

theorem map_inj {x y : Except ε α} {f : α → β} (hf : ∀ a b, f a = f b → a = b) :
    x.map f = y.map f ↔ x = y := by
  constructor
  · intro h
    cases x with
    | error e =>
      cases y with
      | error e' => exact congrArg _ (Except.error.inj h)
      | ok b => cases h
    | ok a =>
      cases y with
      | error e' => cases h
      | ok b => exact congrArg _ (hf a b (Except.ok.inj h))
  · rintro rfl
    rfl

theorem mapError_eq_ok {x : Except ε α} {f : ε → β} {a : α} :
    x.mapError f = .ok a ↔ x = .ok a := by
  cases x with
  | error e => simp [Except.mapError]
  | ok a => simp [Except.mapError]

theorem mapError_bind {δ : Type} {g : ε → δ} {x : Except ε α} {f : α → Except ε β} :
    (x >>= f).mapError g = x.mapError g >>= fun a => (f a).mapError g := by
  cases x <;> rfl

theorem mapM_mapError {δ : Type} {g : ε → δ} {f : α → Except ε β} {f' : α → Except δ β}
    {xs : List α}
    (h : ∀ a ∈ xs, f' a = (f a).mapError g) : xs.mapM f' = (xs.mapM f).mapError g := by
  induction xs with
  | nil => rfl
  | cons a xs ih =>
    obtain ⟨ha, hxs⟩ := List.forall_mem_cons.1 h
    rw [List.mapM_cons, List.mapM_cons, ha, ih hxs, mapError_bind]
    refine bind_congr fun b => ?_
    rw [mapError_bind]
    rfl

theorem foldlM_mapError {δ : Type} {g : ε → δ} {f : β → α → Except ε β}
    {f' : β → α → Except δ β} {xs : List α} {b : β}
    (h : ∀ a ∈ xs, ∀ b, f' b a = (f b a).mapError g) :
    xs.foldlM f' b = (xs.foldlM f b).mapError g := by
  induction xs generalizing b with
  | nil => rfl
  | cons a xs ih =>
    obtain ⟨ha, hxs⟩ := List.forall_mem_cons.1 h
    rw [List.foldlM_cons, List.foldlM_cons, ha, mapError_bind]
    exact bind_congr fun c => ih hxs

/-- A list is worked through when each item is. -/
theorem mapM_eq_ok {f : α → Except ε β} {xs : List α} {ys : List β} :
    xs.mapM f = .ok ys ↔ List.Forall₂ (fun x y => f x = .ok y) xs ys := by
  induction xs generalizing ys with
  | nil =>
    rw [List.mapM_nil, List.forall₂_nil_left_iff]
    exact ⟨fun h => (Except.ok.inj h).symm, fun h => congrArg _ h.symm⟩
  | cons x xs ih =>
    rw [List.mapM_cons, List.forall₂_cons_left_iff, bind_eq_ok]
    constructor
    · rintro ⟨y, hy, h⟩
      obtain ⟨rest, hr, he⟩ := bind_eq_ok.1 h
      exact ⟨y, rest, hy, ih.1 hr, (Except.ok.inj he).symm⟩
    · rintro ⟨y, rest, hy, hr, rfl⟩
      exact ⟨y, hy, bind_eq_ok.2 ⟨rest, ih.2 hr, rfl⟩⟩

/-- The work on a list fails as the first item does that fails. -/
theorem mapM_eq_error {f : α → Except ε β} {xs : List α} {e : ε} :
    xs.mapM f = .error e ↔ ∃ before x after, xs = before ++ x :: after ∧
      (∀ y ∈ before, ∃ b, f y = .ok b) ∧ f x = .error e := by
  induction xs with
  | nil =>
    rw [List.mapM_nil]
    exact ⟨fun h => (by cases h), fun ⟨before, x, after, h, _⟩ => (by simp at h)⟩
  | cons x xs ih =>
    rw [List.mapM_cons, bind_eq_error]
    constructor
    · rintro (hx | ⟨b, hx, h⟩)
      · exact ⟨[], x, xs, rfl, List.forall_mem_nil _, hx⟩
      · obtain hxs | ⟨_, _, h⟩ := bind_eq_error.1 h
        · obtain ⟨before, x', after, rfl, hb, hx'⟩ := ih.1 hxs
          exact ⟨x :: before, x', after, rfl, List.forall_mem_cons.2 ⟨⟨b, hx⟩, hb⟩, hx'⟩
        · cases h
    · rintro ⟨before, x', after, hs, hb, hx'⟩
      cases before with
      | nil =>
        cases hs
        exact .inl hx'
      | cons y before =>
        cases hs
        obtain ⟨⟨b, hy⟩, hb⟩ := List.forall_mem_cons.1 hb
        have hxs := ih.2 ⟨before, x', after, rfl, hb, hx'⟩
        exact .inr ⟨b, hy, bind_eq_error.2 (.inl hxs)⟩

theorem getElem?_of_mapM_eq_ok {f : α → Except ε β} {xs : List α} {ys : List β}
    (h : xs.mapM f = .ok ys) {i : Nat} {x : α} (hx : xs[i]? = some x) :
    ∃ y, ys[i]? = some y ∧ f x = .ok y := by
  replace h := mapM_eq_ok.1 h
  induction h generalizing i with
  | nil => simp at hx
  | @cons x' y _ _ hy _ ih =>
    cases i with
    | zero =>
      cases hx
      exact ⟨y, rfl, hy⟩
    | succ i => exact ih hx

theorem exists_of_mapM_eq_ok {f : α → Except ε β} {xs : List α} {ys : List β}
    (h : xs.mapM f = .ok ys) {x : α} (hx : x ∈ xs) : ∃ y, f x = .ok y := by
  obtain ⟨i, hi⟩ := List.mem_iff_getElem?.1 hx
  obtain ⟨y, -, hy⟩ := getElem?_of_mapM_eq_ok h hi
  exact ⟨y, hy⟩

theorem mapM_congr {m : Type → Type} [Monad m] [LawfulMonad m] {f g : α → m β} {xs : List α}
    (h : ∀ x ∈ xs, f x = g x) : xs.mapM f = xs.mapM g := by
  induction xs with
  | nil => rfl
  | cons x xs ih =>
    rw [List.mapM_cons, List.mapM_cons, h x List.mem_cons_self,
      ih fun y hy => h y (List.mem_cons_of_mem x hy)]

theorem mapM_set_congr {f : α → Except ε β} {xs : List α} {i : Nat} {x x' : α} (h : f x = f x') :
    (xs.set i x).mapM f = (xs.set i x').mapM f := by
  simp only [List.set_eq_take_append_cons_drop]
  split
  · rw [List.mapM_append, List.mapM_append, List.mapM_cons, List.mapM_cons, h]
  · rfl

/-- With another item that succeeds at a place, the work fails all the same or goes through with
another result there. -/
theorem mapM_set {f : α → Except ε β} {xs : List α} {i : Nat} (hi : i < xs.length) :
    (∃ e, ∀ x y, f x = .ok y → (xs.set i x).mapM f = .error e) ∨
      ∃ before after, before.length = i ∧
        ∀ x y, f x = .ok y → (xs.set i x).mapM f = .ok (before ++ y :: after) := by
  have split (x : α) (y : β) (hy : f x = .ok y) : (xs.set i x).mapM f = (do
      let before ← (xs.take i).mapM f
      let after ← (xs.drop (i + 1)).mapM f
      return before ++ y :: after) := by
    rw [List.set_eq_take_append_cons_drop, if_pos hi, List.mapM_append, List.mapM_cons, hy]
    cases (xs.take i).mapM f with
    | error e => rfl
    | ok before =>
      cases (xs.drop (i + 1)).mapM f with
      | error e => rfl
      | ok after => rfl
  cases hb : (xs.take i).mapM f with
  | error e => exact .inl ⟨e, fun x y hy => by rw [split x y hy, hb]; rfl⟩
  | ok before =>
    cases ha : (xs.drop (i + 1)).mapM f with
    | error e => exact .inl ⟨e, fun x y hy => by rw [split x y hy, hb, ha]; rfl⟩
    | ok after =>
      have hl : before.length = i := by
        rw [← (mapM_eq_ok.1 hb).length_eq, List.length_take, Nat.min_eq_left (Nat.le_of_lt hi)]
      exact .inr ⟨before, after, hl, fun x y hy => by rw [split x y hy, hb, ha]; rfl⟩

/-- Two computations fail with one error, or come to results that are related. -/
inductive Agree {γ : Type} (R : α → γ → Prop) : Except ε α → Except ε γ → Prop where
  | ok {a : α} {c : γ} : R a c → Agree R (.ok a) (.ok c)
  | error (e : ε) : Agree R (.error e) (.error e)

namespace Agree

variable {γ δ : Type} {R : α → γ → Prop} {S : β → δ → Prop} {x : Except ε α} {y : Except ε γ}

theorem refl {R : α → α → Prop} (hR : ∀ a, R a a) (x : Except ε α) : Agree R x x := by
  cases x with
  | error e => exact error e
  | ok a => exact ok (hR a)

theorem eq {y : Except ε α} (h : Agree Eq x y) : x = y := by
  cases h with
  | error e => rfl
  | ok h => rw [h]

theorem bind {f : α → Except ε β} {g : γ → Except ε δ} (h : Agree R x y)
    (hf : ∀ a c, R a c → Agree S (f a) (g c)) : Agree S (x >>= f) (y >>= g) := by
  cases h with
  | error e => exact error e
  | ok h => exact hf _ _ h

/-- What one of them goes on to do beyond the other cannot fail. -/
theorem bind_left {R' : β → γ → Prop} {f : α → Except ε β} (h : Agree R x y)
    (hf : ∀ a c, R a c → Agree R' (f a) (.ok c)) : Agree R' (x >>= f) y := by
  cases h with
  | error e => exact error e
  | ok h => exact hf _ _ h

/-- Where the second parts agree in full, so do the whole computations. -/
theorem bind_eq {f : α → Except ε β} {g : γ → Except ε β} (h : Agree R x y)
    (hf : ∀ a c, R a c → f a = g c) : (x >>= f) = (y >>= g) := by
  cases h with
  | error e => rfl
  | ok h => exact hf _ _ h

theorem map {f : α → β} {g : γ → δ} (h : Agree R x y) (hf : ∀ a c, R a c → S (f a) (g c)) :
    Agree S (x.map f) (y.map g) := by
  cases h with
  | error e => exact error e
  | ok h => exact ok (hf _ _ h)

theorem mapM {f : β → Except ε α} {g : β → Except ε γ} (h : ∀ b, Agree R (f b) (g b))
    (xs : List β) : Agree (List.Forall₂ R) (xs.mapM f) (xs.mapM g) := by
  induction xs with
  | nil => exact ok .nil
  | cons b xs ih =>
    rw [List.mapM_cons, List.mapM_cons]
    refine (h b).bind fun a c hac => ih.bind fun as cs hs => ?_
    exact ok (.cons hac hs)

end Agree

/-- Whatever goes wrong is an error of the given kind. -/
def FailsOnly (Q : ε → Prop) (x : Except ε α) : Prop :=
  ∀ e, x = .error e → Q e

namespace FailsOnly

variable {Q : ε → Prop} {x : Except ε α}

theorem ok (a : α) : FailsOnly Q (.ok a : Except ε α) := by
  intro e h
  cases h

theorem error {e : ε} (h : Q e) : FailsOnly Q (.error e : Except ε α) := by
  intro e' he
  cases he
  exact h

theorem ofError {e : ε} (hx : FailsOnly Q (.error e : Except ε α)) :
    FailsOnly Q (.error e : Except ε β) :=
  error (hx e rfl)

theorem bind {f : α → Except ε β} (hx : FailsOnly Q x)
    (hf : ∀ a, x = .ok a → FailsOnly Q (f a)) : FailsOnly Q (x >>= f) := by
  cases x with
  | error e => exact hx.ofError
  | ok a => exact hf a rfl

theorem map (f : α → β) (hx : FailsOnly Q x) : FailsOnly Q (x.map f) := by
  cases x with
  | error e => exact hx.ofError
  | ok a => exact ok (f a)

theorem mapError {f : ε → β} {Q : β → Prop} (hx : FailsOnly (fun e => Q (f e)) x) :
    FailsOnly Q (x.mapError f) := by
  cases x with
  | error e => exact error (hx e rfl)
  | ok a => exact ok a

theorem mapM {f : α → Except ε β} {xs : List α} (h : ∀ a ∈ xs, FailsOnly Q (f a)) :
    FailsOnly Q (xs.mapM f) := by
  induction xs with
  | nil => exact ok []
  | cons a xs ih =>
    rw [List.mapM_cons]
    refine bind (h a List.mem_cons_self) fun _ _ => ?_
    exact bind (ih fun b hb => h b (List.mem_cons_of_mem a hb)) fun _ _ => ok _

end FailsOnly

end Phrasebook
