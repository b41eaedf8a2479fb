import Mathlib.Logic.Basic

/-!
# Runs of a machine with outputs

A machine reacts to an event with a new state and an output. A run is a list of events; its trace
records, for every event, the state before it and the output.
-/

/-- A deterministic machine with states `σ`, events `ε` and outputs `ω`. -/
structure Machine (σ ε ω : Type*) where
  /-- The state after an event, and the output. -/
  step : σ → ε → σ × ω

namespace Machine

variable {σ ε ω : Type*} (M : Machine σ ε ω)

/-- One step of a run: the state before it, the event, and the output. -/
structure Entry (σ ε ω : Type*) where
  before : σ
  event : ε
  output : ω

/-- The state after a list of events. -/
def run (s : σ) (es : List ε) : σ := es.foldl (fun s e => (M.step s e).1) s

/-- The steps of a run, in order. -/
def trace : σ → List ε → List (Entry σ ε ω)
  | _, [] => []
  | s, e :: es => ⟨s, e, (M.step s e).2⟩ :: trace (M.step s e).1 es

/-- Every step of a run is a step of the machine from the state reached by the events before it. -/
theorem mem_trace {s : σ} {es : List ε} {x : Entry σ ε ω} (h : x ∈ M.trace s es) :
    ∃ pre post, es = pre ++ x.event :: post ∧ x.before = M.run s pre ∧
      x.output = (M.step x.before x.event).2 := by
  induction es generalizing s with
  | nil => cases h
  | cons e es ih =>
    rcases List.mem_cons.mp h with rfl | h
    · exact ⟨[], es, rfl, rfl, rfl⟩
    · obtain ⟨pre, post, rfl, hb, ho⟩ := ih h
      exact ⟨e :: pre, post, rfl, hb, ho⟩

end Machine
