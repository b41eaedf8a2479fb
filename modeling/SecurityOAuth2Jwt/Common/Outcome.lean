import Mathlib.Data.List.Forall2

/-!
# Sequencing calls that may fail

Inversion of a sequence of fallible calls: a sequence returns exactly when its first call does and
the rest returns on that value. `ErrorsIn` bounds the errors with which a call may end.
-/

namespace Outcome

variable {ε α β : Type}

/-- A sequence that returns has a first call that returns. -/
theorem bind_eq_ok {x : Except ε α} {f : α → Except ε β} {b : β} :
    (x >>= f) = .ok b ↔ ∃ a, x = .ok a ∧ f a = .ok b := by
  cases x with
  | error e =>
    constructor
    · intro h
      cases h
    · rintro ⟨a, h, -⟩
      cases h
  | ok a =>
    constructor
    · intro h
      exact ⟨a, rfl, h⟩
    · rintro ⟨a', h, hb⟩
      cases h
      exact hb

/-- A sequence that fails has a first call that fails, or a first call that returns and a rest that
fails. -/
theorem bind_eq_error {x : Except ε α} {f : α → Except ε β} {e : ε} (h : (x >>= f) = .error e) :
    x = .error e ∨ ∃ a, x = .ok a ∧ f a = .error e := by
  cases x with
  | error e' =>
    cases h
    exact Or.inl rfl
  | ok a => exact Or.inr ⟨a, rfl, h⟩

@[simp] theorem ok_bind (a : α) (f : α → Except ε β) : (Except.ok a >>= f) = f a := rfl

@[simp] theorem error_bind (e : ε) (f : α → Except ε β) :
    ((Except.error e : Except ε α) >>= f) = .error e := rfl

@[simp] theorem pure_eq_ok (a : α) : (pure a : Except ε α) = .ok a := rfl

/-! ## Calls for each element of a list -/

/-- The calls for the elements of a list all return exactly when each one does. -/
theorem mapM_returns_iff {f : α → Except ε β} {l : List α} :
    (∃ bs, l.mapM f = .ok bs) ↔ ∀ a ∈ l, ∃ b, f a = .ok b := by
  induction l with
  | nil => simp
  | cons a l ih =>
    rw [List.forall_mem_cons, ← ih]
    simp only [List.mapM_cons, bind_eq_ok, pure_eq_ok, Except.ok.injEq]
    constructor
    · rintro ⟨_, b, hb, bs, hbs, rfl⟩
      exact ⟨⟨b, hb⟩, bs, hbs⟩
    · rintro ⟨⟨b, hb⟩, bs, hbs⟩
      exact ⟨b :: bs, b, hb, bs, hbs, rfl⟩

/-- The calls for the elements of a list end with the error of the first call that fails. -/
theorem mapM_eq_error_iff {f : α → Except ε β} {l : List α} {e : ε} :
    l.mapM f = .error e ↔ ∃ pre a post, l = pre ++ a :: post ∧ (∀ x ∈ pre, ∃ b, f x = .ok b) ∧
      f a = .error e := by
  induction l with
  | nil =>
    constructor
    · intro h
      cases h
    · rintro ⟨pre, a, post, h, -⟩
      cases pre <;> cases h
  | cons a l ih =>
    rw [List.mapM_cons]
    cases hfirst : f a with
    | error e' =>
      constructor
      · intro h
        cases h
        exact ⟨[], a, l, rfl, by simp, hfirst⟩
      · rintro ⟨pre, x, post, hl, hpre, hx⟩
        cases pre with
        | nil =>
          cases hl
          rw [hfirst] at hx
          cases hx
          rfl
        | cons y pre =>
          cases hl
          obtain ⟨b, hb⟩ := hpre a (List.mem_cons_self ..)
          rw [hfirst] at hb
          cases hb
    | ok b =>
      have hrest : (do let bs ← l.mapM f; pure (b :: bs)) = .error e ↔ l.mapM f = .error e := by
        cases l.mapM f with
        | error e' => exact Iff.rfl
        | ok bs =>
          constructor
          · intro h
            cases h
          · intro h
            cases h
      rw [ok_bind, hrest, ih]
      constructor
      · rintro ⟨pre, x, post, rfl, hpre, hx⟩
        exact ⟨a :: pre, x, post, rfl, List.forall_mem_cons.mpr ⟨⟨b, hfirst⟩, hpre⟩, hx⟩
      · rintro ⟨pre, x, post, hl, hpre, hx⟩
        cases pre with
        | nil =>
          cases hl
          rw [hfirst] at hx
          cases hx
        | cons y pre =>
          cases hl
          exact ⟨pre, x, post, rfl, fun z hz => hpre z (List.mem_cons_of_mem _ hz), hx⟩

/-- What holds of each call holds of the elements and their values, in order. -/
theorem forall₂_of_mapM_ok {f : α → Except ε β} {R : α → β → Prop} {l : List α} {bs : List β}
    (h : l.mapM f = .ok bs) (hR : ∀ a ∈ l, ∀ b, f a = .ok b → R a b) : List.Forall₂ R l bs := by
  induction l generalizing bs with
  | nil =>
    cases h
    exact .nil
  | cons a l ih =>
    simp only [List.mapM_cons, bind_eq_ok, pure_eq_ok, Except.ok.injEq] at h
    obtain ⟨b, hb, bs, hbs, rfl⟩ := h
    exact .cons (hR a (List.mem_cons_self ..) b hb)
      (ih hbs fun x hx => hR x (List.mem_cons_of_mem _ hx))

/-! ## Bounds on the errors -/

/-- The call returns, or ends with an error that satisfies `P`. -/
def ErrorsIn (P : ε → Prop) (x : Except ε α) : Prop := ∀ e, x = .error e → P e

variable {P : ε → Prop}

@[simp] theorem errorsIn_ok (a : α) : ErrorsIn P (.ok a : Except ε α) := by
  intro e h
  cases h

@[simp] theorem errorsIn_error_iff {e : ε} : ErrorsIn P (.error e : Except ε α) ↔ P e := by
  constructor
  · intro h
    exact h e rfl
  · intro h e' he'
    cases he'
    exact h

/-- The errors of a sequence are those of its first call and of the rest on the value it returns. -/
theorem errorsIn_bind_iff {x : Except ε α} {f : α → Except ε β} :
    ErrorsIn P (x >>= f) ↔ ErrorsIn P x ∧ ∀ a, x = .ok a → ErrorsIn P (f a) := by
  cases x with
  | error e => simp
  | ok a => simp

/-- A first call for its effect: the rest runs exactly when it returns. -/
theorem errorsIn_then_iff {x : Except ε Unit} {y : Except ε β} :
    ErrorsIn P (do x; y) ↔ ErrorsIn P x ∧ (x = .ok () → ErrorsIn P y) := by
  rw [errorsIn_bind_iff]
  exact and_congr_right fun _ => ⟨fun h => h (), fun h _ => h⟩

/-- The errors of a loop are those of its steps. -/
theorem errorsIn_foldlM {f : β → α → Except ε β} (hstep : ∀ b a, ErrorsIn P (f b a)) (b : β)
    (l : List α) : ErrorsIn P (l.foldlM f b) := by
  induction l generalizing b with
  | nil => exact errorsIn_ok b
  | cons a l ih =>
    rw [List.foldlM_cons]
    exact errorsIn_bind_iff.mpr ⟨hstep b a, fun b' _ => ih b'⟩

/-- A condition that an error settles, and that no returned value satisfies, says with which errors
the call ends, if at most one value satisfies it. -/
theorem error_iff_of_unique {γ : Type} {x : Except ε α} {g : ε → γ} {Q : γ → Prop}
    (herror : ∀ e, x = .error e → Q (g e)) (hok : ∀ a, x = .ok a → ∀ c, ¬ Q c)
    (hunique : ∀ c c', Q c → Q c' → c = c') {c : γ} : (∃ e, x = .error e ∧ g e = c) ↔ Q c := by
  constructor
  · rintro ⟨e, he, rfl⟩
    exact herror e he
  · intro hc
    cases x with
    | error e => exact ⟨e, rfl, hunique _ _ (herror e rfl) hc⟩
    | ok a => exact absurd hc (hok a rfl c)

theorem error_iff_not_ok {x : Except ε α} : (∃ e, x = .error e) ↔ ¬ ∃ a, x = .ok a := by
  cases x with
  | error e => simp
  | ok a => simp

end Outcome
