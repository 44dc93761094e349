import Pushdown.Number.Stepwise
import Pushdown.Proofs.Number.Digits

/-!
# Doubles that are written and read step by step

A finite double is written by its shortest decimal, with a zero behind the point of a whole one.
Read step by step, the decimal is rounded up to three times, and the double that comes out may be
another one. It is finite all the same: a quotient by a power of ten is not larger than its
dividend, and a product is below infinity, since the decimal itself is and there are few numbers
of seventeen digits that come near.

The double is the same one if the digits of its decimal make a number of 53 bits and the power of
ten is no larger than the twenty-second. Then the number and the power are doubles themselves, and
only their product or quotient is rounded.

## Results

* `Double.ratioWord_mul_right`: a ratio is rounded alike in other terms;
* `Double.isFinite_reread`: a finite double is read as a finite one;
* `Double.Short.reread_eq`: a double with a short decimal is read as itself.
-/

namespace Pushdown
namespace Double

open Binary

/-! ## Ratios in other terms -/

section ratios

variable {num den factor : Nat}

theorem encloses_mul_right_iff {word : Nat} (hfactor : 0 < factor) :
    Encloses word (num * factor) (den * factor) ↔ Encloses word num den := by
  have hnum : num * factor * unitsOfOne = num * unitsOfOne * factor := Nat.mul_right_comm _ _ _
  constructor
  · rintro ⟨hbelow, habove⟩
    rw [hnum, ← Nat.mul_assoc] at hbelow habove
    exact ⟨Nat.le_of_mul_le_mul_right hbelow hfactor, Nat.lt_of_mul_lt_mul_right habove⟩
  · rintro ⟨hbelow, habove⟩
    refine ⟨?_, ?_⟩
    · rw [hnum, ← Nat.mul_assoc]
      exact Nat.mul_le_mul_right factor hbelow
    · rw [hnum, ← Nat.mul_assoc]
      exact Nat.mul_lt_mul_of_pos_right habove hfactor

/-- A ratio lies between one word and the next only. -/
theorem Encloses.unique {a b : Nat} (ha : Encloses a num den) (hb : Encloses b num den) :
    a = b := by
  have hlt : ∀ {a b : Nat}, Encloses a num den → Encloses b num den → a < b + 1 := fun ha hb =>
    unitsOf_lt_iff.mp (Nat.lt_of_mul_lt_mul_right (Nat.lt_of_le_of_lt ha.below hb.above))
  have := hlt ha hb
  have := hlt hb ha
  omega

/-- A ratio is rounded alike in other terms. -/
theorem ratioWord_mul_right (num : Nat) (hden : 0 < den) (hfactor : 0 < factor) :
    ratioWord (num * factor) (den * factor) = ratioWord num den := by
  rcases Nat.eq_zero_or_pos num with rfl | hnum
  · rw [Nat.zero_mul, ratioWord, if_pos rfl, ratioWord, if_pos rfl]
  · obtain ⟨word, henclosed, hword⟩ := exists_encloses hnum hden
    obtain ⟨same, hsame, hscaled⟩ :=
      exists_encloses (Nat.mul_pos hnum hfactor) (Nat.mul_pos hden hfactor)
    obtain rfl := ((encloses_mul_right_iff hfactor).mp hsame).unique henclosed
    have htwice : 2 * (num * factor * unitsOfOne) = 2 * (num * unitsOfOne) * factor := by
      rw [Nat.mul_right_comm num, Nat.mul_assoc 2]
    have hends : ∀ n : Nat, n * (den * factor) = n * den * factor := fun n =>
      (Nat.mul_assoc n den factor).symm
    rw [hscaled, hword]
    simp only [htwice, hends, Nat.mul_lt_mul_right hfactor]

theorem ofRatio_mul_right (negative : Bool) (num : Nat) (hden : 0 < den) (hfactor : 0 < factor) :
    (ofRatio negative (num * factor) (den * factor) : Double) = ofRatio negative num den := by
  refine eq_of_magnitude ?_ ?_
  · rw [negative_ofRatio, negative_ofRatio]
  · rw [magnitude_ofRatio_eq, magnitude_ofRatio_eq, ratioWord_mul_right num hden hfactor]

/-- A larger ratio has no smaller word. -/
theorem ratioWord_mono {a b : Nat} (hden : 0 < den) (h : a ≤ b) :
    ratioWord a den ≤ ratioWord b den := by
  rcases Nat.eq_zero_or_pos a with rfl | ha
  · exact Nat.zero_le _
  · obtain ⟨first, hfirst, hlower⟩ := exists_encloses ha hden
    obtain ⟨last, hlast, hupper⟩ := exists_encloses (Nat.lt_of_lt_of_le ha h) hden
    have hunits := Nat.mul_le_mul_right unitsOfOne h
    have hle : first < last + 1 := unitsOf_lt_iff.mp
      (Nat.lt_of_mul_lt_mul_right
        (Nat.lt_of_le_of_lt (Nat.le_trans hfirst.below hunits) hlast.above))
    rw [hlower, hupper]
    rcases Nat.lt_or_eq_of_le (Nat.le_of_lt_succ hle) with hlt | rfl
    · -- the words about the larger ratio are not below those about the smaller one
      repeat' split
      all_goals omega
    · repeat' split
      all_goals omega

theorem isFinite_ofRatio_iff (negative : Bool) (num den : Nat) :
    (ofRatio negative num den : Double).isFinite = true ↔
      ratioWord num den < Format.binary64.infinity := by
  rw [isFinite, decide_eq_true_eq, magnitude_ofRatio_eq]
  omega

end ratios

/-! ## Products and quotients -/

section operations

variable {x y : Double}

theorem unitsPerOne_eq : unitsPerOne .binary64 = unitsOfOne := by
  have hplaces : (-Format.unitExponent .binary64).toNat = unitPlaces := by
    rw [unitPlaces_eq]
    rfl
  rw [unitsPerOne, hplaces, unitsOfOne]

theorem natAbs_units (x : Double) : x.units.natAbs = unitsOf x.magnitude := by
  rw [units_eq]
  split <;> omega

theorem times_eq (x y : Double) : x.times y =
    ofRatio (x.negative != y.negative) (unitsOf x.magnitude * unitsOf y.magnitude)
      (unitsOfOne * unitsOfOne) := by
  rw [times, natAbs_units, natAbs_units, unitsPerOne_eq]

theorem divided_eq (x y : Double) : x.divided y =
    ofRatio (x.negative != y.negative) (unitsOf x.magnitude) (unitsOf y.magnitude) := by
  rw [divided, natAbs_units, natAbs_units]

/-- A product with a smaller factor is finite if one with a larger factor is. -/
theorem isFinite_times {x' y' : Double} (hx : x.magnitude ≤ x'.magnitude)
    (hy : y.magnitude ≤ y'.magnitude) (h : (x'.times y').isFinite = true) :
    (x.times y).isFinite = true := by
  rw [times_eq, isFinite_ofRatio_iff] at h ⊢
  exact Nat.lt_of_le_of_lt (ratioWord_mono (Nat.mul_pos unitsOfOne_pos unitsOfOne_pos)
    (Nat.mul_le_mul (unitsOf_le hx) (unitsOf_le hy))) h

theorem magnitude_tenTo (places : Nat) :
    (tenTo places).magnitude = nearestWord (Nat.pow 10 places) := magnitude_ofRatio _ _

/-- No power of ten is rounded below one. -/
theorem unitsOfOne_le_tenTo (places : Nat) : unitsOfOne ≤ unitsOf (tenTo places).magnitude := by
  obtain ⟨one, hfinite, hone⟩ := exists_word (show 1 < 2 * hidden by decide)
  rw [Nat.one_mul] at hone
  rw [magnitude_tenTo, ← hone]
  refine unitsOf_le (le_nearestWord hfinite ?_)
  rw [hone]
  exact Nat.le_mul_of_pos_left _ (Nat.pow_pos (by decide))

/-- A quotient by a power of ten is finite as its dividend. -/
theorem isFinite_divided_tenTo (h : x.isFinite = true) (places : Nat) :
    (x.divided (tenTo places)).isFinite = true := by
  have hone := unitsOfOne_le_tenTo places
  rw [divided_eq, isFinite_ofRatio_iff]
  calc ratioWord (unitsOf x.magnitude) (unitsOf (tenTo places).magnitude) ≤ x.magnitude :=
        ratioWord_le (Nat.lt_of_lt_of_le unitsOfOne_pos hone) (Nat.mul_le_mul_left _ hone)
    _ < Format.binary64.infinity := of_decide_eq_true h

-- By induction on the places behind the point, of which each step takes some away.
theorem isFinite_scaled_of_neg (h : x.isFinite = true) {power : Int} (hpower : power < 0) :
    (scaled x power).isFinite = true := by
  induction hplaces : (-power).toNat using Nat.strongRecOn generalizing x power with
  | ind places ih =>
      have hmax : (maxPlaces : Int) = 308 := rfl
      rw [scaled, if_neg (by omega)]
      split
      · exact isFinite_divided_tenTo h _
      · split
        · exact h
        · exact ih _ (by omega) (isFinite_divided_tenTo h _) (by omega) rfl

end operations

/-! ## Numbers of seventeen digits -/

section whole

variable {negative : Bool} {significand places : Nat}

theorem isFinite_ofNat (negative : Bool) (h : significand ≤ 18446744073709551616) :
    (ofRatio negative significand 1 : Double).isFinite = true := by
  have hbound : nearestWord 18446744073709551616 < Format.binary64.infinity := by decide +kernel
  rw [isFinite, decide_eq_true_eq, magnitude_ofRatio]
  exact Nat.lt_of_le_of_lt (nearestWord_mono h) hbound

theorem isFinite_times_tenTo {s p : Nat} (hsignificand : significand ≤ s) (hplaces : places ≤ p)
    (h : ((ofRatio false s 1 : Double).times (tenTo p)).isFinite = true) :
    ((ofRatio negative significand 1 : Double).times (tenTo places)).isFinite = true := by
  refine isFinite_times ?_ ?_ h
  · rw [magnitude_ofRatio, magnitude_ofRatio]
    exact nearestWord_mono hsignificand
  · rw [magnitude_tenTo, magnitude_tenTo]
    exact nearestWord_mono (Nat.pow_le_pow_right (by decide) hplaces)

/-- The digits of the largest double, rounded up. -/
def largestDigits : Nat := 17976931348623158

/-- From the first power of ten that makes a number of seventeen digits infinite, the digits of the
largest double are those of the largest number below infinity. -/
theorem largestDigits_spec : ∀ more < 18,
    (ofRatio false ((largestDigits / Nat.pow 10 more + 1) * Nat.pow 10 (292 + more)) 1 :
      Double).isFinite = false ∧
    (more ≠ 0 → ((ofRatio false (largestDigits / Nat.pow 10 more) 1 : Double).times
      (tenTo (292 + more))).isFinite = true) := by
  decide +kernel

theorem isFinite_times_of_lt_largest :
    ((ofRatio false (largestDigits - 1) 1 : Double).times (tenTo 292)).isFinite = true := by
  decide +kernel

/-- A whole number below infinity has no more than 308 places behind its digits. -/
theorem places_le_of_isFinite (hpos : 0 < significand)
    (hfinite : ratioWord (significand * Nat.pow 10 places) 1 < Format.binary64.infinity) :
    places ≤ 308 := by
  refine Nat.le_of_not_lt fun hlt => ?_
  -- kept apart, lest the power of ten be computed
  obtain ⟨more, hmore⟩ : ∃ more, more = 17 := ⟨17, rfl⟩
  have hinfinite := (largestDigits_spec more (by omega)).1
  rw [← Bool.not_eq_true, isFinite_ofRatio_iff] at hinfinite
  have hone : largestDigits / Nat.pow 10 more + 1 ≤ significand := by
    rw [hmore]
    exact hpos
  have hpow : Nat.pow 10 (292 + more) ≤ Nat.pow 10 places :=
    Nat.pow_le_pow_right (by decide) (by omega)
  exact hinfinite (Nat.lt_of_le_of_lt
    (ratioWord_mono Nat.one_pos (Nat.mul_le_mul hone hpow)) hfinite)

/-- A whole number below infinity is read as a finite double, except for the digits of the largest
double, rounded up. -/
theorem isFinite_scaled_of_whole (hpos : 0 < significand) (hdigits : significand ≤ 20 * hidden + 1)
    (hfinite : (ofRatio negative (significand * Nat.pow 10 places) 1 : Double).isFinite = true)
    (hlargest : ¬(significand = largestDigits ∧ places = 292)) :
    (scaled (ofRatio negative significand 1) places).isFinite = true := by
  rw [isFinite_ofRatio_iff] at hfinite
  have hmax : maxPlaces = 308 := rfl
  have hplaces := places_le_of_isFinite hpos hfinite
  rw [scaled, if_pos (Int.natCast_nonneg places), if_pos (by omega), Int.toNat_natCast]
  rcases Nat.lt_or_ge places 292 with hsmall | hlarge
  · have hbound : ((ofRatio false (20 * hidden + 1) 1 : Double).times (tenTo 291)).isFinite =
        true := by decide +kernel
    exact isFinite_times_tenTo hdigits (by omega) hbound
  · obtain ⟨more, rfl⟩ := Nat.exists_eq_add_of_le hlarge
    obtain ⟨hnext, hlast⟩ := largestDigits_spec more (by omega)
    rw [← Bool.not_eq_true, isFinite_ofRatio_iff] at hnext
    have hle : significand ≤ largestDigits / Nat.pow 10 more := by
      refine Nat.le_of_not_lt fun hlt => hnext ?_
      exact Nat.lt_of_le_of_lt
        (ratioWord_mono Nat.one_pos (Nat.mul_le_mul_right _ hlt)) hfinite
    by_cases hmore : more = 0
    · subst hmore
      have hone : largestDigits / Nat.pow 10 0 = largestDigits := Nat.div_one _
      exact isFinite_times_tenTo (by omega) (Nat.le_refl _) isFinite_times_of_lt_largest
    · exact isFinite_times_tenTo hle (Nat.le_refl _) (hlast hmore)

end whole

/-! ## Writing and reading -/

/-- The double that is read where a double was written. -/
def reread (x : Double) : Double :=
  ofParts x.negative x.written.coefficient x.written.power

section reread

variable {x : Double}

/-- The digits that are written make a number of 64 bits. -/
theorem coefficient_written_lt (hfinite : x.isFinite = true) :
    x.written.coefficient < 18446744073709551616 := by
  have hdigits := coefficient_shortest_le .toEven hfinite
  have hbound : 20 * hidden + 1 < 18446744073709551616 := by decide
  rw [written, placed]
  generalize shortest .toEven x = d at *
  split
  · next hwhole =>
    obtain ⟨hpower, hlead⟩ := hwhole
    rcases Nat.eq_zero_or_pos d.coefficient with hzero | hpos
    · rw [hzero, Nat.zero_mul]
      decide
    · -- at most sixteen digits before the point and a zero behind it
      have hlength : 0 < d.digits.length := List.length_pos_iff.mpr Nat.toDigits_ne_nil
      have hlt : d.coefficient < 10 ^ d.digits.length :=
        (Nat.length_toDigits_le_iff (by decide) hlength).mp (Nat.le_refl _)
      have hpositional : d.leadExponent < 16 := by
        have hne : ¬d.coefficient = 0 := Nat.ne_of_gt hpos
        simp only [Layout.literal, hne, decide_false, Bool.false_or, Bool.and_eq_true,
          decide_eq_true_eq] at hlead
        exact hlead.2
      rw [Decimal.leadExponent] at hpositional
      calc d.coefficient * Nat.pow 10 (d.power.toNat + 1)
          ≤ 10 ^ d.digits.length * 10 ^ (d.power.toNat + 1) :=
            Nat.mul_le_mul_right _ (Nat.le_of_lt hlt)
        _ = 10 ^ (d.digits.length + (d.power.toNat + 1)) := (Nat.pow_add 10 _ _).symm
        _ ≤ 10 ^ 17 := Nat.pow_le_pow_right (by decide) (by omega)
        _ < 18446744073709551616 := by decide
  · omega

/-- What is written is rounded to the double. -/
theorem ofRatio_written (hfinite : x.isFinite = true) :
    ofRatio x.negative (x.written.coefficient * Nat.pow 10 x.written.power.toNat)
      (Nat.pow 10 (-x.written.power).toNat) = x := by
  rcases Nat.eq_zero_or_pos x.magnitude with hzero | hpos
  · rw [coefficient_written_zero hzero, Nat.zero_mul]
    exact eq_of_magnitude rfl hzero.symm
  · exact ofRatio_of_holds hfinite hpos (holds_written hfinite hpos)

/-- The largest double is written by its digits rounded down. -/
theorem shortest_largest {x : Double} (h : x.magnitude = Format.binary64.infinity - 1) :
    shortest .toEven x = ⟨largestDigits - 1, 292⟩ := by
  have hboth : ∀ negative, shortest .toEven (⟨negative, Format.binary64.infinity - 1,
      Nat.lt_of_le_of_lt (Nat.sub_le _ _) (Format.infinity_lt_size _)⟩ : Double) =
        ⟨largestDigits - 1, 292⟩ := by
    decide +kernel
  obtain ⟨negative, magnitude, hmagnitude⟩ := x
  obtain rfl : magnitude = Format.binary64.infinity - 1 := h
  exact hboth negative

/-- No double is written by the digits of the largest one, rounded up. -/
theorem written_ne_largest (hwritten : x.written = shortest .toEven x)
    (hround : ofRatio x.negative
      (x.written.coefficient * Nat.pow 10 x.written.power.toNat) 1 = x) :
    ¬(x.written.coefficient = largestDigits ∧ x.written.power.toNat = 292) := by
  rintro ⟨hlargest, hplaces⟩
  rw [hlargest, hplaces] at hround
  have hmagnitude : x.magnitude = Format.binary64.infinity - 1 := by
    rw [← hround, magnitude_ofRatio]
    decide +kernel
  rw [hwritten, shortest_largest hmagnitude] at hlargest
  exact absurd hlargest (by decide)

/-- A finite double is read as a finite one. -/
theorem isFinite_reread (hfinite : x.isFinite = true) : x.reread.isFinite = true := by
  have hcoefficient := coefficient_written_lt hfinite
  rw [reread, ofParts]
  rcases Int.lt_or_le x.written.power 0 with hneg | hpower
  · exact isFinite_scaled_of_neg (isFinite_ofNat _ (Nat.le_of_lt hcoefficient)) hneg
  · have hwritten : x.written = shortest .toEven x :=
      (placed_eq_or _).resolve_left (Int.ne_of_gt (Int.lt_of_lt_of_le (by decide) hpower))
    have hpos : 0 < x.magnitude := by
      refine Nat.pos_of_ne_zero fun hzero => ?_
      rw [written, shortest_zero .toEven hzero] at hpower
      exact absurd hpower (by decide)
    have hround : ofRatio x.negative
        (x.written.coefficient * Nat.pow 10 x.written.power.toNat) 1 = x := by
      have hone : Nat.pow 10 (-x.written.power).toNat = 1 := by
        rw [Int.toNat_of_nonpos (by omega)]
      rw [← hone, ofRatio_written hfinite]
    rw [← Int.toNat_of_nonneg hpower]
    refine isFinite_scaled_of_whole ?_ ?_ (by rwa [hround]) (written_ne_largest hwritten hround)
    · rw [hwritten]
      exact coefficient_pos hpos (holds_shortest .toEven hfinite hpos).1
    · rw [hwritten]
      exact coefficient_shortest_le .toEven hfinite

/-- A power of ten up to the twenty-second is a double. -/
theorem unitsOf_tenTo {places : Nat} (h : places ≤ 22) :
    unitsOf (tenTo places).magnitude = Nat.pow 10 places * unitsOfOne := by
  have hexact : ∀ places < 23, unitsOf (tenTo places).magnitude =
      Nat.pow 10 places * unitsPerOne .binary64 := by decide +kernel
  rw [← unitsPerOne_eq]
  exact hexact places (by omega)

theorem unitsOf_ofNat (negative : Bool) {n : Nat} (h : n < 2 * hidden) :
    unitsOf (ofRatio negative n 1 : Double).magnitude = n * unitsOfOne := by
  obtain ⟨word, hfinite, hword⟩ := exists_word h
  rw [magnitude_ofRatio, nearestWord_eq_of_units hfinite hword, hword]

/-- A short number times a small power of ten is rounded once. -/
theorem scaled_eq_of_short {negative : Bool} {significand : Nat} {power : Int}
    (hdigits : significand < 2 * hidden) (hpower : power.natAbs ≤ 22) :
    scaled (ofRatio negative significand 1) power =
      ofRatio negative (significand * Nat.pow 10 power.toNat) (Nat.pow 10 (-power).toNat) := by
  have hmax : (maxPlaces : Int) = 308 := rfl
  have hunits := unitsOf_ofNat negative hdigits
  have hsign : ∀ places, (negative != (tenTo places).negative) = negative := fun places => by
    rw [tenTo, negative_ofRatio, Bool.bne_false]
  rw [scaled]
  split
  · next hnonneg =>
    have hplaces : (-power).toNat = 0 := by omega
    have hproduct : significand * unitsOfOne * (Nat.pow 10 power.toNat * unitsOfOne) =
        significand * Nat.pow 10 power.toNat * (unitsOfOne * unitsOfOne) := by ac_rfl
    have hscaled := ofRatio_mul_right negative (significand * Nat.pow 10 power.toNat) Nat.one_pos
      (Nat.mul_pos unitsOfOne_pos unitsOfOne_pos)
    rw [Nat.one_mul] at hscaled
    rw [if_pos (by omega), times_eq, hunits, unitsOf_tenTo (by omega), negative_ofRatio, hsign,
      hproduct, hplaces]
    exact hscaled
  · next hneg =>
    have hwhole : power.toNat = 0 := by omega
    have hone : Nat.pow 10 0 = 1 := rfl
    rw [if_pos (by omega), divided_eq, hunits, unitsOf_tenTo (by omega), negative_ofRatio, hsign,
      hwhole, hone, Nat.mul_one]
    exact ofRatio_mul_right _ _ (Nat.pow_pos (by decide)) unitsOfOne_pos

/-- The digits that are written make a number of 53 bits, and the power of ten is no larger than the
twenty-second. -/
def Short (x : Double) : Prop :=
  x.written.coefficient < 2 * hidden ∧ x.written.power.natAbs ≤ 22

/-- A double with a short decimal is read as itself. -/
theorem Short.reread_eq (h : x.Short) (hfinite : x.isFinite = true) : x.reread = x := by
  rw [reread, ofParts, scaled_eq_of_short h.1 h.2, ofRatio_written hfinite]

end reread

end Double
end Pushdown
