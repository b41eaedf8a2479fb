import SecurityOAuth2Jwt.Common.Machine

/-!
# Where a run changes, and refinement on the reachable states

What holds after a run and did not hold before it was brought about by one of the steps. A
refinement matches every step of a run of one machine with a step of a run of another, under an
invariant: it need not say anything about states that no run reaches. An event of the abstract run
can be traced back to the event of the concrete run that it matches.
-/

namespace Machine

variable {σ ε ω : Type*} (M : Machine σ ε ω)

/-! ## Runs -/

theorem run_append (s : σ) (es es' : List ε) : M.run s (es ++ es') = M.run (M.run s es) es' :=
  List.foldl_append ..

theorem run_concat (s : σ) (es : List ε) (e : ε) :
    M.run s (es ++ [e]) = (M.step (M.run s es) e).1 :=
  M.run_append s es [e]

/-- What every step keeps, every run keeps. -/
theorem run_induction {P : σ → Prop} (hstep : ∀ s e, P s → P (M.step s e).1) {s : σ} (hs : P s)
    (es : List ε) : P (M.run s es) := by
  induction es generalizing s with
  | nil => exact hs
  | cons e es ih => exact ih (hstep s e hs)

/-- What holds after a run and not before it begins to hold with one of its steps. -/
theorem exists_step_of_run {P : σ → Prop} {s : σ} {es : List ε} (hs : ¬ P s)
    (h : P (M.run s es)) :
    ∃ pre e post, es = pre ++ e :: post ∧ ¬ P (M.run s pre) ∧ P (M.step (M.run s pre) e).1 := by
  induction es generalizing s with
  | nil => exact absurd h hs
  | cons e es ih =>
    by_cases hnext : P (M.step s e).1
    · exact ⟨[], e, es, rfl, hs, hnext⟩
    · obtain ⟨pre, e', post, rfl, hpre, hstep⟩ := ih hnext h
      exact ⟨e :: pre, e', post, rfl, hpre, hstep⟩

/-! ## Refinement -/

variable {σ' ε' ω' : Type*}

/-- From a state that satisfies the invariant, every step of `M` is matched by a step of `N` and
leads to such a state again. -/
structure Refinement (M : Machine σ ε ω) (N : Machine σ' ε' ω') where
  Inv : σ → Prop
  abs : σ → σ'
  event : σ → ε → ε'
  Out : ε → ω → ω' → Prop
  inv_step : ∀ s e, Inv s → Inv (M.step s e).1
  state_step : ∀ s e, Inv s → (N.step (abs s) (event s e)).1 = abs (M.step s e).1
  out_step : ∀ s e, Inv s → Out e (M.step s e).2 (N.step (abs s) (event s e)).2

namespace Refinement

variable {M : Machine σ ε ω} {N : Machine σ' ε' ω'} (R : Refinement M N)

/-- The events of `N` that match a run of `M`. -/
def events : σ → List ε → List ε'
  | _, [] => []
  | s, e :: es => R.event s e :: events (M.step s e).1 es

theorem inv_run {s : σ} (hs : R.Inv s) (es : List ε) : R.Inv (M.run s es) :=
  M.run_induction R.inv_step hs es

/-- The abstract run ends in the abstraction of the state in which the concrete run ends. -/
theorem run_events {s : σ} (hs : R.Inv s) (es : List ε) :
    N.run (R.abs s) (R.events s es) = R.abs (M.run s es) := by
  induction es generalizing s with
  | nil => rfl
  | cons e es ih =>
    have hnext := ih (R.inv_step s e hs)
    rw [← R.state_step s e hs] at hnext
    exact hnext

/-- Every step of the concrete run is matched in the abstract run. -/
theorem mem_trace {s : σ} (hs : R.Inv s) {es : List ε} {x : Entry σ ε ω} (hx : x ∈ M.trace s es) :
    ∃ y ∈ N.trace (R.abs s) (R.events s es), y.before = R.abs x.before ∧
      y.event = R.event x.before x.event ∧ R.Out x.event x.output y.output := by
  induction es generalizing s with
  | nil => cases hx
  | cons e es ih =>
    rcases List.mem_cons.mp hx with rfl | hx
    · exact ⟨_, List.mem_cons_self .., rfl, rfl, R.out_step s e hs⟩
    · obtain ⟨y, hy, hbefore, hevent, hout⟩ := ih (R.inv_step s e hs) hx
      refine ⟨y, List.mem_cons_of_mem _ ?_, hbefore, hevent, hout⟩
      rw [R.state_step s e hs]
      exact hy

/-- An event of the abstract run stands at the place of the concrete event that it matches. -/
theorem exists_of_events_eq {s : σ} {es : List ε} {pre' post' : List ε'} {e' : ε'}
    (h : R.events s es = pre' ++ e' :: post') :
    ∃ pre e post, es = pre ++ e :: post ∧ R.events s pre = pre' ∧
      R.event (M.run s pre) e = e' := by
  induction es generalizing s pre' with
  | nil =>
    have hlength := congrArg List.length h
    simp [events] at hlength
  | cons e es ih =>
    cases pre' with
    | nil =>
      obtain ⟨rfl, -⟩ := List.cons.inj h
      exact ⟨[], e, es, rfl, rfl, rfl⟩
    | cons a pre' =>
      obtain ⟨rfl, hrest⟩ := List.cons.inj h
      obtain ⟨pre, e₁, post, rfl, rfl, he⟩ := ih hrest
      exact ⟨e :: pre, e₁, post, rfl, rfl, he⟩

end Refinement

end Machine
