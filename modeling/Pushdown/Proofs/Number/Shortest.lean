import Pushdown.Number.Decimal
import Pushdown.Proofs.Number.Nearest

/-!
# Shortest decimals

The window of a double reaches from the midpoint to the previous word to the midpoint to the
next one. A decimal in the window is nearer to the double than to any other, or halfway where
the tie goes to the double, so it is rounded to the double.

The search for a decimal in the window goes through finer and finer grids. A grid whose steps
are no longer than a quarter of a place has a decimal in the window, and the last of the grids
is as fine as that. So every finite double has a decimal, and is read back from it.

## Results

* `Double.ratioWord_eq`: the ratios that are rounded to a word;
* `Double.ofDecimal_of_holds`: a decimal in the window of a double is rounded to it;
* `Double.holds_shortest`: the search ends in the window;
* `Double.ofDecimal_written`: a finite double is read back from the decimal that is written.
-/

namespace Pushdown
namespace Double

open Binary

/-! ## Ratios about a word -/

/-- A ratio that is no farther from a word than from its neighbors is rounded to it. Halfway, the
word must be even. -/
theorem ratioWord_eq {word num den : Nat} (hword : 0 < word) (hden : 0 < den)
    (hbelow : (unitsOf (word - 1) + unitsOf word) * den ≤ 2 * (num * unitsOfOne))
    (habove : 2 * (num * unitsOfOne) ≤ (unitsOf word + unitsOf (word + 1)) * den)
    (hodd : word % 2 = 1 → (unitsOf (word - 1) + unitsOf word) * den < 2 * (num * unitsOfOne) ∧
      2 * (num * unitsOfOne) < (unitsOf word + unitsOf (word + 1)) * den) :
    ratioWord num den = word := by
  have hprevious : unitsOf (word - 1) < unitsOf word := unitsOf_lt (by omega)
  have hnum : 0 < num := by
    refine Nat.pos_of_ne_zero fun hzero => ?_
    have hpos : 0 < (unitsOf (word - 1) + unitsOf word) * den := Nat.mul_pos (by omega) hden
    rw [hzero] at hbelow
    omega
  obtain ⟨floor, henclosed, hratio⟩ := exists_encloses hnum hden
  have hfirst := henclosed.below
  have hlast := henclosed.above
  have hstep := Nat.mul_lt_mul_of_pos_right hprevious hden
  have hnext := Nat.mul_lt_mul_of_pos_right (unitsOf_lt_succ word) hden
  rw [hratio]
  simp only [Nat.add_mul] at hbelow habove hodd ⊢
  rcases Nat.lt_trichotomy (floor + 1) word with hlow | rfl | hhigh
  · -- the ratio would be below the previous word
    have hle := Nat.mul_le_mul_right den (unitsOf_le (show floor + 1 ≤ word - 1 by omega))
    omega
  · rw [Nat.add_sub_cancel] at hbelow hodd
    split
    · omega
    · split
      · rfl
      · split <;> omega
  · rcases Nat.lt_or_eq_of_le (Nat.le_of_lt_succ hhigh) with hlt | rfl
    · -- the ratio would not be below the next word
      have hle := Nat.mul_le_mul_right den (unitsOf_le (show word + 1 ≤ floor by omega))
      omega
    · split
      · rfl
      · split
        · omega
        · split <;> omega

/-! ## Windows -/

theorem magnitude_eq (x : Double) : x.shift * hidden + x.significand = x.magnitude :=
  word_eq x.magnitude

theorem significand_lt_twice (x : Double) : x.significand < 2 * hidden :=
  significandOf_lt x.magnitude

theorem unitsOf_magnitude (x : Double) : unitsOf x.magnitude = x.significand * Nat.pow 2 x.shift :=
  rfl

/-- The upper end of a window is the midpoint to the next word. -/
theorem upper_window (x : Double) : x.window.upper * Nat.pow 2 x.shift =
    2 * (unitsOf x.magnitude + unitsOf (x.magnitude + 1)) := by
  have hnext : unitsOf (x.magnitude + 1) = (x.significand + 1) * Nat.pow 2 x.shift :=
    unitsOf_succ x.magnitude
  rw [hnext, unitsOf_magnitude, ← Nat.add_mul, ← Nat.mul_assoc]
  congr 1
  show 4 * x.significand + 2 = _
  omega

theorem lower_eq (x : Double) : x.window.lower =
    if x.magnitude % hidden = 0 ∧ 1 < x.magnitude / hidden then 4 * x.significand - 1
    else 4 * x.significand - 2 := rfl

/-- The lower end of a window is the midpoint to the previous word. -/
theorem lower_window {x : Double} (hpos : 0 < x.magnitude) :
    x.window.lower * Nat.pow 2 x.shift =
      2 * (unitsOf (x.magnitude - 1) + unitsOf x.magnitude) := by
  have hword := magnitude_eq x
  have hhigh := significand_lt_twice x
  have hshift : x.shift = x.magnitude / hidden - 1 := rfl
  have hsignificand : x.significand =
      if x.magnitude / hidden = 0 then x.magnitude % hidden
      else x.magnitude % hidden + hidden := rfl
  rw [unitsOf_magnitude, lower_eq]
  split
  · -- the first word of a binade: the words below are half as far apart
    next hnarrow =>
    obtain ⟨hmod, hquotient⟩ := hnarrow
    rw [if_neg (by omega), hmod, Nat.zero_add] at hsignificand
    obtain ⟨places, hplaces⟩ : ∃ places, x.shift = places + 1 := ⟨x.shift - 1, by omega⟩
    rw [hplaces, hsignificand] at hword ⊢
    have hprevious : x.magnitude - 1 = places * hidden + (2 * hidden - 1) := by
      rw [← hword, Nat.succ_mul places]
      omega
    rw [hprevious, unitsOf_eq (.inr (by decide)) (by omega), pow_add,
      Nat.mul_comm (Nat.pow 2 places), ← Nat.mul_assoc, ← Nat.mul_assoc, ← Nat.add_mul,
      ← Nat.mul_assoc]
    rfl
  · next hwide =>
    have hlow : x.shift = 0 ∨ hidden ≤ x.significand - 1 := by
      split at hsignificand <;> omega
    have hone : 0 < x.significand := by
      rcases hlow with hzero | hle
      · rw [hzero, Nat.zero_mul] at hword
        omega
      · have : 0 < hidden := by decide
        omega
    have hprevious : x.magnitude - 1 = x.shift * hidden + (x.significand - 1) := by omega
    rw [hprevious, unitsOf_eq hlow (by omega), ← Nat.add_mul, ← Nat.mul_assoc]
    congr 1
    omega

/-- A number between two ends, which belong to what is between them if it is closed. -/
def Spans (closed : Bool) (lower middle upper : Nat) : Prop :=
  if closed then lower ≤ middle ∧ middle ≤ upper else lower < middle ∧ middle < upper

theorem spans_mul_iff {closed : Bool} {lower middle upper factor : Nat} (hfactor : 0 < factor) :
    Spans closed (lower * factor) (middle * factor) (upper * factor) ↔
      Spans closed lower middle upper := by
  simp only [Spans, Nat.mul_le_mul_right_iff hfactor, Nat.mul_lt_mul_right hfactor]

theorem Spans.le {closed : Bool} {lower middle upper : Nat} (h : Spans closed lower middle upper) :
    lower ≤ middle ∧ middle ≤ upper := by
  rw [Spans] at h
  split at h
  · exact h
  · omega

/-- A decimal lies in a window. -/
theorem holds_iff_spans (w : Window) (coefficient : Nat) (power : Int) :
    w.holds coefficient power = true ↔
      Spans w.closed (w.lower * (Nat.pow 10 (-power).toNat * Nat.pow 2 w.exponent.toNat))
        (coefficient * Nat.pow 10 power.toNat * Nat.pow 2 (-w.exponent).toNat)
        (w.upper * (Nat.pow 10 (-power).toNat * Nat.pow 2 w.exponent.toNat)) := by
  simp only [Window.holds, Spans]
  split <;> simp only [Bool.and_eq_true, decide_eq_true_eq]

theorem exponent_window (x : Double) : x.window.exponent = -1074 + (x.shift : Int) - 2 := rfl

theorem closed_window (x : Double) : x.window.closed = decide (x.significand % 2 = 0) := rfl

/-- The powers of two by which a window is scaled, in terms of units. -/
theorem pow_exponent (places : Nat) :
    Nat.pow 2 (-1074 + (places : Int) - 2).toNat * Nat.pow 2 (min places 1076) =
      Nat.pow 2 places :=
  (pow_add 2 _ _).symm.trans (pow_congr (by omega))

theorem pow_neg_exponent (places : Nat) :
    Nat.pow 2 (-(-1074 + (places : Int) - 2)).toNat * Nat.pow 2 (min places 1076) =
      unitsOfOne * 4 :=
  calc _ = Nat.pow 2 ((-(-1074 + (places : Int) - 2)).toNat + min places 1076) :=
        (pow_add 2 _ _).symm
    _ = Nat.pow 2 (unitPlaces + 2) := pow_congr (by rw [unitPlaces_eq]; omega)
    _ = unitsOfOne * 4 := pow_add 2 _ _

/-- A decimal in the window of a word is a ratio about the word. -/
theorem ratioWord_of_holds {x : Double} {coefficient : Nat} {power : Int}
    (hpos : 0 < x.magnitude) (h : x.window.holds coefficient power = true) :
    ratioWord (coefficient * Nat.pow 10 power.toNat) (Nat.pow 10 (-power).toNat) =
      x.magnitude := by
  have hden : 0 < Nat.pow 10 (-power).toNat := Nat.pow_pos (by decide)
  rw [holds_iff_spans] at h
  generalize Nat.pow 10 (-power).toNat = den at *
  generalize coefficient * Nat.pow 10 power.toNat = num at *
  have hends : ∀ n : Nat, n * (den * Nat.pow 2 x.window.exponent.toNat) *
      Nat.pow 2 (min x.shift 1076) = n * Nat.pow 2 x.shift * den := fun n => by
    rw [exponent_window, Nat.mul_assoc, Nat.mul_assoc, pow_exponent, Nat.mul_comm den,
      ← Nat.mul_assoc]
  have hratio : num * Nat.pow 2 (-x.window.exponent).toNat * Nat.pow 2 (min x.shift 1076) =
      num * unitsOfOne * 4 := by
    rw [exponent_window, Nat.mul_assoc, pow_neg_exponent, Nat.mul_assoc]
  have hfactor : 0 < Nat.pow 2 (min x.shift 1076) := Nat.two_pow_pos _
  have hlower : x.window.lower * Nat.pow 2 x.shift * den =
      2 * ((unitsOf (x.magnitude - 1) + unitsOf x.magnitude) * den) := by
    rw [lower_window hpos, Nat.mul_assoc]
  have hupper : x.window.upper * Nat.pow 2 x.shift * den =
      2 * ((unitsOf x.magnitude + unitsOf (x.magnitude + 1)) * den) := by
    rw [upper_window, Nat.mul_assoc]
  rw [← spans_mul_iff hfactor, hends, hends, hratio, hlower, hupper, closed_window] at h
  have hparity : x.magnitude % 2 = x.significand % 2 := by
    have := magnitude_eq x
    unfold hidden at this
    omega
  obtain ⟨hbelow, habove⟩ := h.le
  refine ratioWord_eq hpos hden (by omega) (by omega) fun hodd => ?_
  rw [decide_eq_false (by omega), Spans, if_neg Bool.false_ne_true] at h
  omega

theorem eq_of_magnitude {x y : Double} (hnegative : x.negative = y.negative)
    (hmagnitude : x.magnitude = y.magnitude) : x = y := by
  cases x
  cases y
  simp_all

/-- A decimal in the window of a double is rounded to it. -/
theorem ofRatio_of_holds {x : Double} {coefficient : Nat} {power : Int}
    (hfinite : x.isFinite = true) (hpos : 0 < x.magnitude)
    (h : x.window.holds coefficient power = true) :
    ofRatio x.negative (coefficient * Nat.pow 10 power.toNat) (Nat.pow 10 (-power).toNat) = x := by
  refine eq_of_magnitude (negative_ofRatio _ _ _) ?_
  · rw [magnitude_ofRatio_eq, ratioWord_of_holds hpos h]
    exact Nat.min_eq_left (magnitude_le_of_isFinite hfinite)

/-! ## Powers of ten -/

theorem pow_two_le_pow_ten (n : Nat) : Nat.pow 2 (3 * n) ≤ Nat.pow 10 n := by
  have height : Nat.pow 2 (3 * n) = Nat.pow (Nat.pow 2 3) n := Nat.pow_mul 2 3 n
  rw [height]
  exact Nat.pow_le_pow_left (by decide) n

theorem pow_ten_le_pow_two {n k : Nat} (h : 10 * n ≤ 3 * k) : Nat.pow 10 n ≤ Nat.pow 2 k := by
  -- a thousand is less than the tenth power of two
  have hcubes : (Nat.pow 10 n) ^ 3 ≤ (Nat.pow 2 k) ^ 3 :=
    calc (Nat.pow 10 n) ^ 3 = (10 ^ 3) ^ n := by
          exact (Nat.pow_mul 10 n 3).symm.trans ((congrArg (10 ^ ·) (Nat.mul_comm n 3)).trans
            (Nat.pow_mul 10 3 n))
      _ ≤ (2 ^ 10) ^ n := Nat.pow_le_pow_left (by decide) n
      _ = 2 ^ (10 * n) := (Nat.pow_mul 2 10 n).symm
      _ ≤ 2 ^ (k * 3) := Nat.pow_le_pow_right (by decide) (by omega)
      _ = (Nat.pow 2 k) ^ 3 := Nat.pow_mul 2 k 3
  exact (Nat.pow_le_pow_iff_left (by decide)).mp hcubes

theorem le_of_pow_le {m n : Nat} (h : Nat.pow 2 m ≤ Nat.pow 2 n) : m ≤ n :=
  (Nat.pow_le_pow_iff_right (by decide)).mp h

theorem lt_of_pow_lt {m n : Nat} (h : Nat.pow 2 m < Nat.pow 2 n) : m < n :=
  (Nat.pow_lt_pow_iff_right (by decide)).mp h

theorem significand_pos {x : Double} (hpos : 0 < x.magnitude) : 0 < x.significand := by
  have hword := magnitude_eq x
  rcases hidden_le_significandOf x.magnitude with hzero | hle
  · have hshift : x.shift = 0 := hzero
    rw [hshift, Nat.zero_mul] at hword
    omega
  · have hhidden : 0 < hidden := by decide
    exact Nat.lt_of_lt_of_le hhidden hle

theorem shift_le {x : Double} (hfinite : x.isFinite = true) : x.shift ≤ 2045 := by
  have hword : x.magnitude < 2047 * hidden := of_decide_eq_true hfinite
  have hquotient : x.magnitude / hidden < 2047 :=
    (Nat.div_lt_iff_lt_mul (by decide)).mpr hword
  show x.magnitude / hidden - 1 ≤ 2045
  omega

theorem lower_pos {x : Double} (hpos : 0 < x.magnitude) : 0 < x.window.lower := by
  have hsignificand := significand_pos hpos
  rw [lower_eq]
  split <;> omega

theorem upper_le (x : Double) : x.window.upper ≤ Nat.pow 2 56 := by
  have hhigh := significand_lt_twice x
  have hupper : x.window.upper = 4 * x.significand + 2 := rfl
  have hpow : 4 * (2 * hidden) + 2 ≤ Nat.pow 2 56 := by decide
  omega

section size

variable {x : Double} {coefficient : Nat} {power : Int}

theorem coefficient_pos (hpos : 0 < x.magnitude)
    (h : x.window.holds coefficient power = true) : 0 < coefficient := by
  have hbelow := ((holds_iff_spans _ _ _).mp h).le.1
  have hscale : 0 < x.window.lower *
      (Nat.pow 10 (-power).toNat * Nat.pow 2 x.window.exponent.toNat) :=
    Nat.mul_pos (lower_pos hpos) (Nat.mul_pos (Nat.pow_pos (by decide)) (Nat.two_pow_pos _))
  refine Nat.pos_of_ne_zero fun hzero => ?_
  rw [hzero, Nat.zero_mul, Nat.zero_mul] at hbelow
  omega

/-- A coefficient in a window is not too small for its power of ten. -/
theorem le_log2_of_holds (hpos : 0 < x.magnitude) (hpower : power ≤ 0)
    (h : x.window.holds coefficient power = true) :
    3 * (-power).toNat ≤ coefficient.log2 + 1076 := by
  have hbelow := ((holds_iff_spans _ _ _).mp h).le.1
  have hzero : power.toNat = 0 := by omega
  rw [hzero, exponent_window] at hbelow
  generalize (-power).toNat = places at hbelow ⊢
  have hscale : 0 < x.window.lower * Nat.pow 2 (-1074 + (x.shift : Int) - 2).toNat :=
    Nat.mul_pos (lower_pos hpos) (Nat.two_pow_pos _)
  have hlt : Nat.pow 2 (3 * places) < Nat.pow 2 (coefficient.log2 + 1 + (unitPlaces + 2)) :=
    calc Nat.pow 2 (3 * places) ≤ Nat.pow 10 places := pow_two_le_pow_ten places
      _ ≤ Nat.pow 10 places *
            (x.window.lower * Nat.pow 2 (-1074 + (x.shift : Int) - 2).toNat) :=
          Nat.le_mul_of_pos_right _ hscale
      _ = x.window.lower *
            (Nat.pow 10 places * Nat.pow 2 (-1074 + (x.shift : Int) - 2).toNat) :=
          Nat.mul_left_comm _ _ _
      _ ≤ coefficient * Nat.pow 10 0 * Nat.pow 2 (-(-1074 + (x.shift : Int) - 2)).toNat := hbelow
      _ ≤ coefficient * Nat.pow 10 0 * Nat.pow 2 (unitPlaces + 2) :=
          Nat.mul_le_mul_left _ (pow_le_pow (by rw [unitPlaces_eq]; omega))
      _ = coefficient * Nat.pow 2 (unitPlaces + 2) := congrArg (· * _) (Nat.mul_one coefficient)
      _ < Nat.pow 2 (coefficient.log2 + 1) * Nat.pow 2 (unitPlaces + 2) :=
          Nat.mul_lt_mul_of_pos_right (self_lt_pow coefficient) (Nat.two_pow_pos _)
      _ = Nat.pow 2 (coefficient.log2 + 1 + (unitPlaces + 2)) := (pow_add 2 _ _).symm
  have := lt_of_pow_lt hlt
  rw [unitPlaces_eq] at this
  omega

/-- A coefficient in a window is not too large for its power of ten. -/
theorem log2_le_of_holds (hfinite : x.isFinite = true) (hpos : 0 < x.magnitude)
    (h : x.window.holds coefficient power = true) :
    coefficient.log2 + 3 * power.toNat ≤ 1025 + 4 * (-power).toNat := by
  have habove := ((holds_iff_spans _ _ _).mp h).le.2
  have hshift := shift_le hfinite
  rw [exponent_window] at habove
  generalize (-power).toNat = places at habove ⊢
  have hle : Nat.pow 2 (coefficient.log2 + 3 * power.toNat) ≤
      Nat.pow 2 (56 + (4 * places + (-1074 + (x.shift : Int) - 2).toNat)) :=
    calc Nat.pow 2 (coefficient.log2 + 3 * power.toNat)
        = Nat.pow 2 coefficient.log2 * Nat.pow 2 (3 * power.toNat) := pow_add 2 _ _
      _ ≤ coefficient * Nat.pow 10 power.toNat :=
          Nat.mul_le_mul (pow_le_self (coefficient_pos hpos h)) (pow_two_le_pow_ten _)
      _ ≤ coefficient * Nat.pow 10 power.toNat *
            Nat.pow 2 (-(-1074 + (x.shift : Int) - 2)).toNat :=
          Nat.le_mul_of_pos_right _ (Nat.two_pow_pos _)
      _ ≤ x.window.upper *
            (Nat.pow 10 places * Nat.pow 2 (-1074 + (x.shift : Int) - 2).toNat) := habove
      _ ≤ Nat.pow 2 56 *
            (Nat.pow 2 (4 * places) * Nat.pow 2 (-1074 + (x.shift : Int) - 2).toNat) :=
          Nat.mul_le_mul (upper_le x)
            (Nat.mul_le_mul_right _ (pow_ten_le_pow_two (by omega)))
      _ = Nat.pow 2 56 * Nat.pow 2 (4 * places + (-1074 + (x.shift : Int) - 2).toNat) :=
          congrArg _ (pow_add 2 _ _).symm
      _ = Nat.pow 2 (56 + (4 * places + (-1074 + (x.shift : Int) - 2).toNat)) :=
          (pow_add 2 _ _).symm
  have := le_of_pow_le hle
  omega

/-- A decimal in the window of a double is read as the double, if its power is not too small for
any double. -/
theorem ofDecimal_of_holds (hfinite : x.isFinite = true) (hpos : 0 < x.magnitude)
    (hpower : -390 ≤ power) (h : x.window.holds coefficient power = true) :
    ofDecimal x.negative coefficient power = x := by
  have hcoefficient := coefficient_pos hpos h
  have hhigh := log2_le_of_holds hfinite hpos h
  have hlow : -400 ≤ (coefficient.log2 : Int) * 30103 / 100000 + power := by
    rcases Int.le_total power 0 with hle | hge
    · have := le_log2_of_holds hpos hle h
      omega
    · omega
  simp only [ofDecimal]
  rw [if_neg (Nat.ne_of_gt hcoefficient), if_neg (by omega), if_neg (by omega)]
  exact ofRatio_of_holds hfinite hpos h

end size

/-! ## The search -/

section search

variable {tie : Tie}

theorem holds_ite {w : Window} {power : Int} {n : Nat} (above : Bool)
    (hbelow : w.holds n power = true) (habove : w.holds (n + 1) power = true) :
    w.holds (if above then n + 1 else n) power = true := by
  cases above
  · exact hbelow
  · exact habove

/-- A decimal on a grid that is taken is in the window. -/
theorem holds_of_onGrid? {w : Window} {power : Int} {coefficient : Nat}
    (h : w.onGrid? tie power = some coefficient) : w.holds coefficient power = true := by
  simp only [Window.onGrid?] at h
  split at h
  · next hbelow habove =>
    rw [← Option.some.inj h]
    exact holds_ite _ hbelow habove
  · next hbelow habove =>
    rw [← Option.some.inj h]
    exact hbelow
  · next hbelow habove =>
    rw [← Option.some.inj h]
    exact habove
  · cases h

/-- A grid on which the decimal below the value is in the window is taken. -/
theorem isSome_onGrid? {w : Window} {power : Int}
    (h : w.holds (w.value * (Nat.pow 10 (-power).toNat * Nat.pow 2 w.exponent.toNat) /
      (Nat.pow 10 power.toNat * Nat.pow 2 (-w.exponent).toNat)) power = true) :
    (w.onGrid? tie power).isSome = true := by
  simp only [Window.onGrid?, h]
  split <;> first | rfl | contradiction

/-- What the search ends with if one of its grids is taken. -/
structure Found (w : Window) (tie : Tie) (first last : Int) (found : Decimal) : Prop where
  taken : w.onGrid? tie found.power = some found.coefficient
  last_le : last ≤ found.power
  /-- Every coarser grid was tried in vain. -/
  missed : found.power = first ∨ w.onGrid? tie (found.power + 1) = none

theorem found_search {w : Window} : ∀ {fuel : Nat} {first : Int} {places : Nat}, places < fuel →
    (w.onGrid? tie (first - places)).isSome = true →
    Found w tie first (first - places) (w.search tie fuel first)
  | 0, _, _, hplaces, _ => absurd hplaces (Nat.not_lt_zero _)
  | fuel + 1, first, places, hplaces, h => by
      rw [Window.search]
      cases hgrid : w.onGrid? tie first with
      | some coefficient => exact ⟨hgrid, by show first - places ≤ first; omega, .inl rfl⟩
      | none =>
          cases places with
          | zero =>
              have hsame : first - ((0 : Nat) : Int) = first := by omega
              rw [hsame, hgrid] at h
              cases h
          | succ places =>
              have hnext : first - ((places + 1 : Nat) : Int) = first - 1 - (places : Int) := by
                omega
              rw [hnext] at h ⊢
              obtain ⟨htaken, hlast, hmissed⟩ := found_search (show places < fuel by omega) h
              refine ⟨htaken, hlast, .inr ?_⟩
              rcases hmissed with hfirst | hmissed
              · rw [hfirst, Int.sub_add_cancel, hgrid]
              · exact hmissed

theorem Spans.of_lt {closed : Bool} {lower middle upper : Nat} (hlower : lower < middle)
    (hupper : middle < upper) : Spans closed lower middle upper := by
  rw [Spans]
  split <;> omega

/-- A grid whose steps are no longer than a quarter of a place is taken. -/
theorem isSome_onGrid?_of_fine {x : Double} (hpos : 0 < x.magnitude) {power : Int}
    (hfine : Nat.pow 10 power.toNat * Nat.pow 2 (-x.window.exponent).toNat ≤
      Nat.pow 10 (-power).toNat * Nat.pow 2 x.window.exponent.toNat) :
    (x.window.onGrid? tie power).isSome = true := by
  have hlower : x.window.lower + 1 ≤ x.window.value := by
    have hsignificand := significand_pos hpos
    have hvalue : x.window.value = 4 * x.significand := rfl
    rw [lower_eq, hvalue]
    split <;> omega
  have hupper : x.window.upper = x.window.value + 2 := rfl
  have hstep : 0 < Nat.pow 10 power.toNat * Nat.pow 2 (-x.window.exponent).toNat :=
    Nat.mul_pos (Nat.pow_pos (by decide)) (Nat.two_pow_pos _)
  apply isSome_onGrid?
  rw [holds_iff_spans, Nat.mul_assoc, hupper]
  generalize Nat.pow 10 power.toNat * Nat.pow 2 (-x.window.exponent).toNat = step at *
  generalize Nat.pow 10 (-power).toNat * Nat.pow 2 x.window.exponent.toNat = quarter at *
  have hbelow := Nat.mul_le_mul_right quarter hlower
  have hdiv := Nat.div_add_mod (x.window.value * quarter) step
  have hmod := Nat.mod_lt (x.window.value * quarter) hstep
  rw [Nat.mul_comm step] at hdiv
  rw [Nat.add_mul, Nat.one_mul] at hbelow
  refine Spans.of_lt (by omega) ?_
  rw [Nat.add_mul]
  omega

/-- The last grid of the search is fine enough. -/
theorem fine_of_last {x : Double} (hfinite : x.isFinite = true) {power : Int}
    (hpower : power = ((x.significand.log2 : Int) + 1 - 1074 + x.shift) * 30103 / 100000 - 61) :
    Nat.pow 10 power.toNat * Nat.pow 2 (-x.window.exponent).toNat ≤
      Nat.pow 10 (-power).toNat * Nat.pow 2 x.window.exponent.toNat := by
  have hbits : x.significand.log2 ≤ 52 := log2_le_of_lt (significand_lt_twice x)
  have hshift := shift_le hfinite
  rw [exponent_window]
  rcases Int.le_total power 0 with hle | hge
  · have hzero : power.toNat = 0 := by omega
    rw [hzero]
    calc Nat.pow 10 0 * Nat.pow 2 (-(-1074 + (x.shift : Int) - 2)).toNat
        = Nat.pow 2 (-(-1074 + (x.shift : Int) - 2)).toNat := Nat.one_mul _
      _ ≤ Nat.pow 2 (3 * (-power).toNat) := pow_le_pow (by omega)
      _ ≤ Nat.pow 10 (-power).toNat := pow_two_le_pow_ten _
      _ ≤ Nat.pow 10 (-power).toNat * Nat.pow 2 (-1074 + (x.shift : Int) - 2).toNat :=
          Nat.le_mul_of_pos_right _ (Nat.two_pow_pos _)
  · have hzero : (-(-1074 + (x.shift : Int) - 2)).toNat = 0 := by omega
    have hzero' : (-power).toNat = 0 := by omega
    rw [hzero, hzero']
    calc Nat.pow 10 power.toNat * Nat.pow 2 0 = Nat.pow 10 power.toNat := Nat.mul_one _
      _ ≤ Nat.pow 2 (-1074 + (x.shift : Int) - 2).toNat := pow_ten_le_pow_two (by omega)
      _ = Nat.pow 10 0 * Nat.pow 2 (-1074 + (x.shift : Int) - 2).toNat := (Nat.one_mul _).symm

end search

/-! ## Reading back -/

/-- The power of ten at which the search starts. -/
def firstPower (x : Double) : Int :=
  ((x.significand.log2 : Int) + 1 - 1074 + x.shift) * 30103 / 100000 + 2

theorem shortest_eq {tie : Tie} {x : Double} (hpos : 0 < x.magnitude) :
    shortest tie x = x.window.search tie 64 (firstPower x) := by
  rw [shortest, if_neg (Nat.ne_of_gt hpos)]
  rfl

/-- The search for the shortest decimal ends on one of its grids. -/
theorem found_shortest (tie : Tie) {x : Double} (hfinite : x.isFinite = true)
    (hpos : 0 < x.magnitude) :
    Found x.window tie (firstPower x) (firstPower x - 63) (shortest tie x) := by
  have hplaces : 63 < 64 := by decide
  have hgrid : (x.window.onGrid? tie (firstPower x - ((63 : Nat) : Int))).isSome = true :=
    isSome_onGrid?_of_fine hpos (fine_of_last hfinite (by unfold firstPower; omega))
  rw [shortest_eq hpos]
  exact found_search hplaces hgrid

/-- The shortest decimal of a double is in its window. -/
theorem holds_shortest (tie : Tie) {x : Double} (hfinite : x.isFinite = true)
    (hpos : 0 < x.magnitude) :
    x.window.holds (shortest tie x).coefficient (shortest tie x).power = true ∧
      -390 ≤ (shortest tie x).power := by
  have hfound := found_shortest tie hfinite hpos
  have hlast := hfound.last_le
  unfold firstPower at hlast
  exact ⟨holds_of_onGrid? hfound.taken, by omega⟩

theorem shortest_zero (tie : Tie) {x : Double} (hzero : x.magnitude = 0) :
    shortest tie x = ⟨0, 0⟩ := by
  rw [shortest, if_pos hzero]

/-- Only zero has no digits, and its decimal is written without places. -/
theorem power_shortest_of_zero (tie : Tie) {x : Double} (hfinite : x.isFinite = true)
    (h : (shortest tie x).coefficient = 0) : (shortest tie x).power = 0 := by
  rcases Nat.eq_zero_or_pos x.magnitude with hzero | hpos
  · rw [shortest_zero tie hzero]
  · have hcoefficient := coefficient_pos hpos (holds_shortest tie hfinite hpos).1
    omega

/-- A decimal in a window is there with one place behind the point, too. -/
theorem holds_point {w : Window} {coefficient : Nat} {power : Int} (hpower : 0 ≤ power)
    (h : w.holds coefficient power = true) :
    w.holds (coefficient * Nat.pow 10 (power.toNat + 1)) (-1) = true := by
  have hwhole : (-power).toNat = 0 := by omega
  have htenth : (-(-1 : Int)).toNat = 1 := rfl
  have hnone : (-1 : Int).toNat = 0 := rfl
  rw [holds_iff_spans, hwhole] at h
  rw [holds_iff_spans, htenth, hnone]
  have hends : ∀ n scale : Nat, n * (Nat.pow 10 1 * scale) = n * (Nat.pow 10 0 * scale) * 10 :=
    fun n scale => by
      rw [Nat.mul_assoc, Nat.mul_right_comm]
  have hpoint : ∀ scale : Nat, coefficient * Nat.pow 10 (power.toNat + 1) * Nat.pow 10 0 * scale =
      coefficient * Nat.pow 10 power.toNat * scale * 10 := fun scale => by
    have hten : Nat.pow 10 (power.toNat + 1) = Nat.pow 10 power.toNat * 10 := rfl
    have hone : Nat.pow 10 0 = 1 := rfl
    rw [hten, hone, Nat.mul_one, ← Nat.mul_assoc]
    exact Nat.mul_right_comm _ 10 scale
  rw [hends, hends, hpoint]
  exact (spans_mul_iff (by decide)).mpr h

/-- The decimal that is written for another one: a whole number without an exponent gets one more
place, behind its point. -/
def placed (d : Decimal) : Decimal :=
  if 0 ≤ d.power ∧ (d.coefficient = 0 || Layout.literal.positional d.leadExponent) = true then
    ⟨d.coefficient * Nat.pow 10 (d.power.toNat + 1), -1⟩
  else d

/-- Only a decimal with an exponent is written without a point. -/
theorem placed_eq_or (d : Decimal) : (placed d).power = -1 ∨ placed d = d := by
  rw [placed]
  split
  · exact .inl rfl
  · exact .inr rfl

theorem holds_placed {w : Window} {d : Decimal} (h : w.holds d.coefficient d.power = true) :
    w.holds (placed d).coefficient (placed d).power = true := by
  rw [placed]
  split
  · next hwhole => exact holds_point hwhole.1 h
  · exact h

/-- The decimal that is written for a double. -/
def written (x : Double) : Decimal := placed (x.shortest .toEven)

theorem coefficient_written_zero {x : Double} (hzero : x.magnitude = 0) :
    x.written.coefficient = 0 := by
  rw [written, shortest_zero .toEven hzero]
  rfl

theorem holds_written {x : Double} (hfinite : x.isFinite = true) (hpos : 0 < x.magnitude) :
    x.window.holds x.written.coefficient x.written.power = true :=
  holds_placed (holds_shortest .toEven hfinite hpos).1

/-- What is written for a finite double is read as the double. -/
theorem ofDecimal_written {x : Double} (hfinite : x.isFinite = true) :
    ofDecimal x.negative x.written.coefficient x.written.power = x := by
  rcases Nat.eq_zero_or_pos x.magnitude with hzero | hpos
  · rw [coefficient_written_zero hzero, ofDecimal, if_pos rfl]
    exact eq_of_magnitude rfl hzero.symm
  · have hpower : -390 ≤ x.written.power := by
      rcases placed_eq_or (x.shortest .toEven) with hpoint | hsame
      · rw [written, hpoint]
        decide
      · rw [written, hsame]
        exact (holds_shortest .toEven hfinite hpos).2
    exact ofDecimal_of_holds hfinite hpos hpower (holds_written hfinite hpos)

end Double
end Pushdown
