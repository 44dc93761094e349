/-!
# Runs

A run makes one call after the other, whatever the answers are. It leaves a state, and a log of
the calls with their answers.

## Results

* `Run.calls_all`, `Run.length_all`: the log has all calls;
* `Run.state_append`: one run behind another;
* `Run.invariant`: what every call keeps true of the log and the state.
-/

namespace Pushdown
namespace Run

variable {C A S : Type}

/-- Make calls one after the other. -/
def all (step : C → S → A × S) : List C → S → List (C × A) × S
  | [], s => ([], s)
  | call :: calls, s =>
      let (answer, mid) := step call s
      let (log, last) := all step calls mid
      ((call, answer) :: log, last)

variable (step : C → S → A × S)

theorem calls_all : ∀ (calls : List C) (s : S), (all step calls s).1.map Prod.fst = calls
  | [], _ => rfl
  | call :: calls, s => congrArg (call :: ·) (calls_all calls (step call s).2)

theorem length_all (calls : List C) (s : S) : (all step calls s).1.length = calls.length := by
  rw [← List.length_map, calls_all]

/-- A run goes on where the one before it ended. -/
theorem state_append : ∀ (first rest : List C) (s : S),
    (all step (first ++ rest) s).2 = (all step rest (all step first s).2).2
  | [], _, _ => rfl
  | call :: first, rest, s => state_append first rest (step call s).2

variable {step} {P : List (C × A) → S → Prop}

-- By induction on the calls, with the log of the calls before them.
theorem invariant_append
    (hstep : ∀ log call s, P log s → P (log ++ [(call, (step call s).1)]) (step call s).2) :
    ∀ (calls : List C) (log : List (C × A)) (s : S), P log s →
      P (log ++ (all step calls s).1) (all step calls s).2
  | [], log, s, h => by
      rw [all, List.append_nil]
      exact h
  | call :: calls, log, s, h => by
      have ih := invariant_append hstep calls (log ++ [(call, (step call s).1)])
        (step call s).2 (hstep log call s h)
      rw [List.append_assoc] at ih
      exact ih

/-- What holds at the start and is kept by every call holds after a run. -/
theorem invariant {s : S} (hstart : P [] s)
    (hstep : ∀ log call s, P log s → P (log ++ [(call, (step call s).1)]) (step call s).2)
    (calls : List C) : P (all step calls s).1 (all step calls s).2 :=
  invariant_append hstep calls [] s hstart

end Run
end Pushdown
