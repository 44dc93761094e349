import Pushdown.Proofs.Number.Shortest

/-!
# The digits of shortest decimals

A grid on which the search finds nothing has its steps no shorter than the window, which is at
least three quarters of a place wide. The next grid is ten times as fine, and the search ends there
or later. So a shortest decimal has no more than seventeen digits, and a number of so many digits
fits in 64 bits.

## Results

* `Double.width_le_step`: the steps of a grid that is missed;
* `Double.coefficient_shortest_le`: the coefficient of a shortest decimal.
-/

namespace Pushdown
namespace Double

open Binary

theorem pow_two_le_pow_ten_of_le {k n : Nat} (h : 10 * k ≤ 33 * n) :
    Nat.pow 2 k ≤ Nat.pow 10 n := by
  -- the thirty-third power of two is less than ten billion
  have htenth : (Nat.pow 2 k) ^ 10 ≤ (Nat.pow 10 n) ^ 10 :=
    calc (Nat.pow 2 k) ^ 10 = 2 ^ (k * 10) := (Nat.pow_mul 2 k 10).symm
      _ ≤ 2 ^ (33 * n) := Nat.pow_le_pow_right (by decide) (by omega)
      _ = (2 ^ 33) ^ n := Nat.pow_mul 2 33 n
      _ ≤ (10 ^ 10) ^ n := Nat.pow_le_pow_left (by decide) n
      _ = (Nat.pow 10 n) ^ 10 := by
          exact (Nat.pow_mul 10 10 n).symm.trans ((congrArg (10 ^ ·) (Nat.mul_comm 10 n)).trans
            (Nat.pow_mul 10 n 10))
  exact (Nat.pow_le_pow_iff_left (by decide)).mp htenth

/-- The step of a decimal grid, on the scale on which it is compared with a window. -/
def gridStep (w : Window) (power : Int) : Nat :=
  Nat.pow 10 power.toNat * Nat.pow 2 (-w.exponent).toNat

/-- A quarter of a place, on the same scale. -/
def gridQuarter (w : Window) (power : Int) : Nat :=
  Nat.pow 10 (-power).toNat * Nat.pow 2 w.exponent.toNat

section grid

variable {w : Window} {tie : Tie} {power : Int}

theorem gridStep_pos (w : Window) (power : Int) : 0 < gridStep w power :=
  Nat.mul_pos (Nat.pow_pos (by decide)) (Nat.two_pow_pos _)

theorem gridQuarter_pos (w : Window) (power : Int) : 0 < gridQuarter w power :=
  Nat.mul_pos (Nat.pow_pos (by decide)) (Nat.two_pow_pos _)

/-- The next coarser grid has ten times the step. -/
theorem gridStep_succ (w : Window) (power : Int) :
    gridStep w (power + 1) * gridQuarter w power =
      10 * (gridStep w power * gridQuarter w (power + 1)) := by
  unfold gridStep gridQuarter
  generalize Nat.pow 2 (-w.exponent).toNat = low
  generalize Nat.pow 2 w.exponent.toNat = high
  rcases Int.lt_or_le power 0 with hneg | hnonneg
  · have hwhole : (power + 1).toNat = power.toNat := by omega
    have hplaces : (-power).toNat = (-(power + 1)).toNat + 1 := by omega
    have hten : Nat.pow 10 ((-(power + 1)).toNat + 1) = Nat.pow 10 (-(power + 1)).toNat * 10 := rfl
    rw [hwhole, hplaces, hten]
    ac_rfl
  · have hwhole : (power + 1).toNat = power.toNat + 1 := by omega
    have hplaces : (-(power + 1)).toNat = (-power).toNat := by omega
    have hten : Nat.pow 10 (power.toNat + 1) = Nat.pow 10 power.toNat * 10 := rfl
    rw [hwhole, hplaces, hten]
    ac_rfl

theorem holds_iff_grid (w : Window) (coefficient : Nat) (power : Int) :
    w.holds coefficient power = true ↔
      Spans w.closed (w.lower * gridQuarter w power) (coefficient * gridStep w power)
        (w.upper * gridQuarter w power) := by
  rw [holds_iff_spans, Nat.mul_assoc]
  rfl

/-- A grid that is missed has neither neighbor of the value in the window. -/
theorem onGrid?_eq_none (h : w.onGrid? tie power = none) :
    w.holds (w.value * gridQuarter w power / gridStep w power) power = false ∧
      w.holds (w.value * gridQuarter w power / gridStep w power + 1) power = false := by
  simp only [Window.onGrid?] at h
  split at h
  · cases h
  · cases h
  · cases h
  · next hbelow habove => exact ⟨hbelow, habove⟩

/-- A coefficient that is taken is at most the next one above the value. -/
theorem le_of_onGrid? {coefficient : Nat} (h : w.onGrid? tie power = some coefficient) :
    coefficient ≤ w.value * gridQuarter w power / gridStep w power + 1 := by
  have hite : ∀ (above : Bool) (n : Nat), (if above then n + 1 else n) ≤ n + 1 := fun above n => by
    split <;> omega
  simp only [Window.onGrid?] at h
  split at h <;> cases h
  · exact hite _ _
  · exact Nat.le_succ _
  · exact Nat.le_refl _

/-- The steps of a grid that is missed are no shorter than the window. -/
theorem width_le_step (h : w.onGrid? tie power = none) (hlower : w.lower ≤ w.value)
    (hupper : w.value < w.upper) :
    w.upper * gridQuarter w power ≤ w.lower * gridQuarter w power + gridStep w power := by
  obtain ⟨hbelow, habove⟩ := onGrid?_eq_none h
  refine Nat.le_of_not_lt fun hlt => ?_
  have hstep := gridStep_pos w power
  have hquarter := gridQuarter_pos w power
  have hvalueLower := Nat.mul_le_mul_right (gridQuarter w power) hlower
  have hvalueUpper := Nat.mul_lt_mul_of_pos_right hupper hquarter
  rw [← Bool.not_eq_true, holds_iff_grid] at hbelow habove
  generalize gridStep w power = step at *
  generalize gridQuarter w power = quarter at *
  have hdiv := Nat.div_add_mod (w.value * quarter) step
  have hmod := Nat.mod_lt (w.value * quarter) hstep
  rw [Nat.mul_comm step] at hdiv
  rw [Nat.add_mul, Nat.one_mul] at habove
  -- a value below the window leaves room for the next one
  rcases Nat.lt_or_ge (w.lower * quarter) (w.value * quarter / step * step) with hin | hout
  · exact hbelow (Spans.of_lt hin (by omega))
  · exact habove (Spans.of_lt (by omega) (by omega))

end grid

section coefficient

variable {x : Double} {tie : Tie} {power : Int}

theorem value_window_le (x : Double) :
    x.window.value ≤ Nat.pow 2 (x.significand.log2 + 3) := by
  have hlt := self_lt_pow x.significand
  have hpow : Nat.pow 2 (x.significand.log2 + 3) = Nat.pow 2 x.significand.log2 * 8 :=
    pow_add 2 _ 3
  show 4 * x.significand ≤ _
  omega

/-- The steps of the grid at which the search starts are long. -/
theorem coarse_of_first (hfinite : x.isFinite = true) :
    x.window.value * gridQuarter x.window (firstPower x) ≤
      20 * hidden * gridStep x.window (firstPower x) := by
  have hbits : x.significand.log2 ≤ 52 := log2_le_of_lt (significand_lt_twice x)
  have hshift := shift_le hfinite
  have hvalue := value_window_le x
  have hconstant : Nat.pow 2 53 ≤ 20 * hidden := by decide
  unfold gridQuarter gridStep
  rw [exponent_window]
  generalize hpower : firstPower x = power
  rw [firstPower] at hpower
  rcases Int.le_total power 0 with hle | hge
  · have hwhole : power.toNat = 0 := by omega
    obtain ⟨places, hplaces⟩ : ∃ places : Nat, (-power).toNat = places := ⟨_, rfl⟩
    rw [hwhole, hplaces]
    calc x.window.value * (Nat.pow 10 places * Nat.pow 2 (-1074 + (x.shift : Int) - 2).toNat)
        ≤ Nat.pow 2 (x.significand.log2 + 3) * (Nat.pow 2 ((10 * places + 2) / 3) *
            Nat.pow 2 (-1074 + (x.shift : Int) - 2).toNat) :=
          Nat.mul_le_mul hvalue (Nat.mul_le_mul_right _ (pow_ten_le_pow_two (by omega)))
      _ = Nat.pow 2 (x.significand.log2 + 3 + ((10 * places + 2) / 3 +
            (-1074 + (x.shift : Int) - 2).toNat)) := by
          rw [pow_add 2 (x.significand.log2 + 3), pow_add 2 (_ / _)]
      _ ≤ Nat.pow 2 (53 + (-(-1074 + (x.shift : Int) - 2)).toNat) := pow_le_pow (by omega)
      _ = Nat.pow 2 53 * Nat.pow 2 (-(-1074 + (x.shift : Int) - 2)).toNat := pow_add 2 _ _
      _ ≤ 20 * hidden * (Nat.pow 10 0 * Nat.pow 2 (-(-1074 + (x.shift : Int) - 2)).toNat) :=
          Nat.mul_le_mul hconstant (Nat.le_of_eq (Nat.one_mul _).symm)
  · have hplaces : (-power).toNat = 0 := by omega
    rw [hplaces]
    calc x.window.value * (Nat.pow 10 0 * Nat.pow 2 (-1074 + (x.shift : Int) - 2).toNat)
        ≤ Nat.pow 2 (x.significand.log2 + 3) * Nat.pow 2 (-1074 + (x.shift : Int) - 2).toNat :=
          Nat.mul_le_mul hvalue (Nat.le_of_eq (Nat.one_mul _))
      _ = Nat.pow 2 (x.significand.log2 + 3 + (-1074 + (x.shift : Int) - 2).toNat) :=
          (pow_add 2 _ _).symm
      _ ≤ Nat.pow 2 (53 + (33 * power.toNat / 10 + (-(-1074 + (x.shift : Int) - 2)).toNat)) :=
          pow_le_pow (by omega)
      _ = Nat.pow 2 53 * (Nat.pow 2 (33 * power.toNat / 10) *
            Nat.pow 2 (-(-1074 + (x.shift : Int) - 2)).toNat) := by rw [pow_add, pow_add 2 (_ / _)]
      _ ≤ 20 * hidden * (Nat.pow 10 power.toNat *
            Nat.pow 2 (-(-1074 + (x.shift : Int) - 2)).toNat) :=
          Nat.mul_le_mul hconstant
            (Nat.mul_le_mul_right _ (pow_two_le_pow_ten_of_le (by omega)))

/-- A window is four quarters of a place wide, or three about the first number of a binade. -/
theorem width_window (hpos : 0 < x.magnitude) :
    x.window.lower + 4 = x.window.upper ∨
      x.window.lower + 3 = x.window.upper ∧ x.significand = hidden := by
  have hsignificand := significand_pos hpos
  have hupper : x.window.upper = 4 * x.significand + 2 := rfl
  rw [lower_eq, hupper]
  split
  · next hnarrow =>
    have hfirst : x.significand =
        if x.magnitude / hidden = 0 then x.magnitude % hidden
        else x.magnitude % hidden + hidden := rfl
    rw [if_neg (by omega), hnarrow.1, Nat.zero_add] at hfirst
    exact .inr ⟨by omega, hfirst⟩
  · exact .inl (by omega)

/-- The steps of the grid behind a missed one are still long. -/
theorem coarse_of_missed (hpos : 0 < x.magnitude)
    (h : x.window.onGrid? tie (power + 1) = none) :
    x.window.value * gridQuarter x.window power ≤ 20 * hidden * gridStep x.window power := by
  have hsignificand := significand_lt_twice x
  have hvalue : x.window.value = 4 * x.significand := rfl
  have hwidth := width_window hpos
  have hlower : x.window.lower ≤ x.window.value := by
    rw [lower_eq, hvalue]
    split <;> omega
  have hupper : x.window.value < x.window.upper := by
    show 4 * x.significand < 4 * x.significand + 2
    omega
  have hstep := width_le_step h hlower hupper
  have hsucc := gridStep_succ x.window power
  have hnext := gridQuarter_pos x.window (power + 1)
  generalize gridStep x.window (power + 1) = coarse at *
  generalize gridQuarter x.window (power + 1) = nextQuarter at *
  generalize gridStep x.window power = step at *
  generalize gridQuarter x.window power = quarter at *
  -- a width in quarters, times a finer quarter, against ten finer steps
  have hwide : ∀ width : Nat, x.window.lower + width = x.window.upper →
      width * quarter ≤ 10 * step := fun width hsum => by
    rw [← hsum, Nat.add_mul] at hstep
    have hle : width * nextQuarter * quarter ≤ coarse * quarter :=
      Nat.mul_le_mul_right _ (by omega)
    refine Nat.le_of_mul_le_mul_right (c := nextQuarter) ?_ hnext
    calc width * quarter * nextQuarter = width * nextQuarter * quarter := Nat.mul_right_comm _ _ _
      _ ≤ 10 * (step * nextQuarter) := hsucc ▸ hle
      _ = 10 * step * nextQuarter := (Nat.mul_assoc _ _ _).symm
  rcases hwidth with hfour | ⟨hthree, hfirst⟩
  · calc x.window.value * quarter = x.significand * (4 * quarter) := by rw [hvalue]; ac_rfl
      _ ≤ (2 * hidden) * (10 * step) :=
          Nat.mul_le_mul (Nat.le_of_lt hsignificand) (hwide 4 hfour)
      _ = 20 * hidden * step := by rw [← Nat.mul_assoc]; rfl
  · have hle := hwide 3 hthree
    calc x.window.value * quarter = hidden * (4 * quarter) := by rw [hvalue, hfirst]; ac_rfl
      _ ≤ hidden * (20 * step) := Nat.mul_le_mul_left _ (by omega)
      _ = 20 * hidden * step := by ac_rfl

/-- The coefficient of a shortest decimal has no more than seventeen digits. -/
theorem coefficient_shortest_le (tie : Tie) (hfinite : x.isFinite = true) :
    (shortest tie x).coefficient ≤ 20 * hidden + 1 := by
  rcases Nat.eq_zero_or_pos x.magnitude with hzero | hpos
  · rw [shortest_zero tie hzero]
    exact Nat.zero_le _
  · have hfound := found_shortest tie hfinite hpos
    have hcoarse : x.window.value * gridQuarter x.window (shortest tie x).power ≤
        20 * hidden * gridStep x.window (shortest tie x).power := by
      rcases hfound.missed with hfirst | hmissed
      · rw [hfirst]
        exact coarse_of_first hfinite
      · exact coarse_of_missed hpos hmissed
    have hdiv := Nat.div_le_of_le_mul (Nat.mul_comm _ (gridStep _ _) ▸ hcoarse)
    exact Nat.le_trans (le_of_onGrid? hfound.taken) (Nat.succ_le_succ hdiv)

end coefficient

end Double
end Pushdown
