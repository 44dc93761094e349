/-!
# Outcomes of steps that may fail

A sequence of steps succeeds when every one of them does; the lemmas here take a successful
sequence apart into its steps.

## Results

* `Outcome.map_eq_ok_iff`, `Outcome.bind_eq_ok_iff`: when a step and what follows it succeed;
* `Outcome.map_map_eq_some_iff`: the same for a step that may find nothing;
* `Outcome.exists_error_iff`: a step fails or succeeds;
* `Outcome.Settles.elim`, `Outcome.Settles.bind`, `Outcome.Settles.map`: what holds of a value, or
  of the error in its place, after a step and what follows it.
-/

namespace Pushdown
namespace Outcome

universe u

variable {ε : Type} {α β : Type u}

theorem map_eq_ok_iff {x : Except ε α} {f : α → β} {b : β} :
    x.map f = .ok b ↔ ∃ a, x = .ok a ∧ f a = b := by
  cases x <;> simp [Except.map]

theorem bind_eq_ok_iff {x : Except ε α} {f : α → Except ε β} {b : β} :
    (x >>= f) = .ok b ↔ ∃ a, x = .ok a ∧ f a = .ok b := by
  cases x <;> simp [bind, Except.bind]

theorem map_map_eq_some_iff {x : Except ε (Option α)} {f : α → β} {b : β} :
    (x.map fun found => found.map f) = .ok (some b) ↔ ∃ a, x = .ok (some a) ∧ f a = b := by
  rw [map_eq_ok_iff]
  constructor
  · rintro ⟨found, hfound, h⟩
    obtain ⟨a, rfl, ha⟩ := Option.map_eq_some_iff.mp h
    exact ⟨a, hfound, ha⟩
  · rintro ⟨a, hfound, ha⟩
    exact ⟨some a, hfound, Option.map_eq_some_iff.mpr ⟨a, rfl, ha⟩⟩

theorem exists_error_iff {x : Except ε α} : (∃ e, x = .error e) ↔ ¬ ∃ a, x = .ok a := by
  cases x <;> simp

/-- What holds of a value, and what of the error in its place. -/
def Settles (failed : ε → Prop) (done : α → Prop) : Except ε α → Prop
  | .ok a => done a
  | .error e => failed e

namespace Settles

variable {failed : ε → Prop} {done : α → Prop} {next : β → Prop} {x : Except ε α}

/-- To what is made of an outcome, by cases on it. -/
@[elab_as_elim]
theorem elim {motive : Except ε α → Prop} (h : Settles failed done x)
    (herror : ∀ e, failed e → motive (.error e)) (hok : ∀ a, done a → motive (.ok a)) :
    motive x := by
  cases x with
  | ok a => exact hok a h
  | error e => exact herror e h

theorem bind {f : α → Except ε β} (h : Settles failed done x)
    (hnext : ∀ a, done a → Settles failed next (f a)) : Settles failed next (x >>= f) := by
  cases x with
  | ok a => exact hnext a h
  | error e => exact h

theorem map {f : α → β} (h : Settles failed done x) (hdone : ∀ a, done a → next (f a)) :
    Settles failed next (x.map f) := by
  cases x with
  | ok a => exact hdone a h
  | error e => exact h

end Settles

end Outcome
end Pushdown
