import Pushdown.Proofs.Number.Rounding

/-!
# The double nearest to a ratio

The exact value of a double is a number of units, where one unit is the smallest positive double.
Magnitude words stand for numbers of units in their order, so a ratio lies between the numbers
of two neighboring words. Its double has one of these two words: the nearer one, or the even one
if the ratio is halfway between them.

A ratio is thus never rounded past a double. An integer and a finite double compare as their
exact values, unless the integer is rounded to that very double.

## Results

* `Double.rank_lt_iff`: doubles are in the order of their numbers;
* `Double.exists_encloses`: the two words about a ratio, and the one that is taken;
* `Double.rank_ofInt_le`, `Double.le_rank_ofInt`: an integer is not rounded past a double;
* `Double.compare?_ofInt_iff`: when an integer compares with a double by its exact value;
* `Double.units_ofInt`: up to 53 digits an integer is not rounded at all.
-/

namespace Pushdown

theorem roundDiv_mul_right {c : Nat} (num den : Nat) (hc : 0 < c) :
    roundDiv (num * c) (den * c) = roundDiv num den := by
  have htwice : 2 * (num % den * c) = 2 * (num % den) * c := (Nat.mul_assoc _ _ _).symm
  have hbelow : 2 * (num % den) * c < den * c ↔ 2 * (num % den) < den := Nat.mul_lt_mul_right hc
  have habove : den * c < 2 * (num % den) * c ↔ den < 2 * (num % den) := Nat.mul_lt_mul_right hc
  simp only [roundDiv, Nat.mul_div_mul_right _ _ hc, Nat.mul_mod_mul_right, htwice, hbelow, habove]

namespace Double

open Binary

theorem pow_add (b m n : Nat) : Nat.pow b (m + n) = Nat.pow b m * Nat.pow b n := Nat.pow_add b m n

theorem pow_congr {m n : Nat} (h : m = n) : Nat.pow 2 m = Nat.pow 2 n := congrArg (Nat.pow 2) h

theorem pow_le_pow {m n : Nat} (h : m ≤ n) : Nat.pow 2 m ≤ Nat.pow 2 n :=
  Nat.pow_le_pow_right (by decide) h

/-- Places of the number one above the smallest positive double. Irreducible, since the power of
two with this exponent is not to be computed in proofs. -/
@[irreducible] def unitPlaces : Nat := 1074

theorem unitPlaces_eq : unitPlaces = 1074 := by rw [unitPlaces]

/-- The number one, in units of the smallest positive double. -/
def unitsOfOne : Nat := Nat.pow 2 unitPlaces

theorem unitsOfOne_pos : 0 < unitsOfOne := Nat.two_pow_pos _

/-- The significand of a magnitude word, hidden bit included. -/
def significandOf (word : Nat) : Nat :=
  if word / hidden = 0 then word % hidden else word % hidden + hidden

/-- The places by which the significand of a magnitude word is shifted. -/
def placesOf (word : Nat) : Nat := word / hidden - 1

/-- The number of a magnitude word, in units of the smallest positive double. -/
def unitsOf (word : Nat) : Nat := significandOf word * Nat.pow 2 (placesOf word)

theorem units_eq (x : Double) :
    x.units = if x.negative then -(unitsOf x.magnitude : Int) else unitsOf x.magnitude := rfl

/-- Every word stands in a binade. -/
theorem word_eq (word : Nat) : placesOf word * hidden + significandOf word = word := by
  have hdiv := Nat.div_add_mod word hidden
  rw [placesOf, significandOf]
  rcases Nat.eq_zero_or_pos (word / hidden) with hzero | hpos
  · rw [hzero] at hdiv ⊢
    rw [if_pos rfl]
    omega
  · have hsucc : word / hidden = word / hidden - 1 + 1 := by omega
    have hmul : hidden * (word / hidden) = (word / hidden - 1) * hidden + hidden := by
      rw [hsucc, Nat.mul_comm, Nat.succ_mul, Nat.add_sub_cancel]
    rw [if_neg (Nat.ne_of_gt hpos)]
    omega

theorem significandOf_lt (word : Nat) : significandOf word < 2 * hidden := by
  have hmod : word % hidden < hidden := Nat.mod_lt _ (by decide)
  rw [significandOf]
  split <;> omega

/-- Only a word of the first two binades has no hidden bit, or no shift. -/
theorem hidden_le_significandOf (word : Nat) :
    placesOf word = 0 ∨ hidden ≤ significandOf word := by
  rw [placesOf, significandOf]
  split
  · left
    omega
  · exact .inr (Nat.le_add_left _ _)

/-- The places and the significand of a word are the only ones. -/
theorem places_and_significand {places significand : Nat}
    (hlow : places = 0 ∨ hidden ≤ significand) (hhigh : significand < 2 * hidden) :
    placesOf (places * hidden + significand) = places ∧
      significandOf (places * hidden + significand) = significand := by
  have hpos : 0 < hidden := by decide
  rw [placesOf, significandOf, Nat.mul_add_mod_self_right, Nat.add_comm (places * hidden),
    Nat.add_mul_div_right _ _ hpos]
  rcases Nat.lt_or_ge significand hidden with hsmall | hlarge
  · obtain rfl : places = 0 := hlow.resolve_right (by omega)
    rw [Nat.div_eq_of_lt hsmall, Nat.mod_eq_of_lt hsmall]
    exact ⟨rfl, rfl⟩
  · have hdiv : significand / hidden = 1 := Nat.div_eq_of_lt_le (by omega) (by omega)
    have hmod := Nat.div_add_mod significand hidden
    rw [hdiv] at hmod ⊢
    rw [if_neg (by omega)]
    omega

/-- A word of `places` binades above a significand stands for the significand, shifted. -/
theorem unitsOf_eq {places significand : Nat} (hlow : places = 0 ∨ hidden ≤ significand)
    (hhigh : significand ≤ 2 * hidden) :
    unitsOf (places * hidden + significand) = significand * Nat.pow 2 places := by
  rcases Nat.lt_or_eq_of_le hhigh with hlt | rfl
  · obtain ⟨hplaces, hsignificand⟩ := places_and_significand hlow hlt
    rw [unitsOf, hplaces, hsignificand]
  · -- the first word of the next binade
    have hnext : places * hidden + 2 * hidden = (places + 1) * hidden + hidden := by
      rw [Nat.succ_mul places]
      omega
    obtain ⟨hplaces, hsignificand⟩ := places_and_significand
      (show places + 1 = 0 ∨ hidden ≤ hidden from .inr (Nat.le_refl _))
      (show hidden < 2 * hidden by decide)
    rw [hnext, unitsOf, hplaces, hsignificand, pow_add, Nat.mul_comm 2 hidden, Nat.mul_assoc,
      Nat.mul_comm (Nat.pow 2 places)]

theorem unitsOf_succ_eq {places significand : Nat} (hlow : places = 0 ∨ hidden ≤ significand)
    (hhigh : significand < 2 * hidden) :
    unitsOf (places * hidden + significand + 1) = (significand + 1) * Nat.pow 2 places := by
  rw [Nat.add_assoc]
  exact unitsOf_eq (hlow.imp_right fun h => Nat.le_succ_of_le h) hhigh

/-- The next word stands for one shifted unit more. -/
theorem unitsOf_succ (word : Nat) :
    unitsOf (word + 1) = (significandOf word + 1) * Nat.pow 2 (placesOf word) := by
  have hsucc := unitsOf_succ_eq (hidden_le_significandOf word) (significandOf_lt word)
  rw [word_eq] at hsucc
  exact hsucc

theorem unitsOf_lt_succ (word : Nat) : unitsOf word < unitsOf (word + 1) := by
  rw [unitsOf_succ]
  exact Nat.mul_lt_mul_of_pos_right (Nat.lt_succ_self _) (Nat.two_pow_pos _)

/-- Larger words stand for larger numbers. -/
theorem unitsOf_lt {a b : Nat} (h : a < b) : unitsOf a < unitsOf b := by
  induction b with
  | zero => exact absurd h (Nat.not_lt_zero a)
  | succ b ih =>
      rcases Nat.lt_or_eq_of_le (Nat.le_of_lt_succ h) with hlt | rfl
      · exact Nat.lt_trans (ih hlt) (unitsOf_lt_succ b)
      · exact unitsOf_lt_succ a

theorem unitsOf_le {a b : Nat} (h : a ≤ b) : unitsOf a ≤ unitsOf b := by
  rcases Nat.lt_or_eq_of_le h with hlt | rfl
  · exact Nat.le_of_lt (unitsOf_lt hlt)
  · exact Nat.le_refl _

theorem unitsOf_lt_iff {a b : Nat} : unitsOf a < unitsOf b ↔ a < b := by
  refine ⟨fun h => Nat.lt_of_not_le fun hle => ?_, unitsOf_lt⟩
  rcases Nat.lt_or_eq_of_le hle with hlt | rfl
  · exact absurd (unitsOf_lt hlt) (Nat.lt_asymm h)
  · exact absurd h (Nat.lt_irrefl _)

/-- The power of two above the unit by which a denominator is scaled. -/
theorem pow_above (places : Nat) :
    Nat.pow 2 (-1074 + (places : Int)).toNat * Nat.pow 2 (min places 1074) = Nat.pow 2 places :=
  calc _ = Nat.pow 2 ((-1074 + (places : Int)).toNat + min places 1074) := (pow_add 2 _ _).symm
    _ = Nat.pow 2 places := pow_congr (by omega)

/-- The power of two below one by which a numerator is scaled. -/
theorem pow_below (places : Nat) :
    Nat.pow 2 (-(-1074 + (places : Int))).toNat * Nat.pow 2 (min places 1074) = unitsOfOne :=
  calc _ = Nat.pow 2 ((-(-1074 + (places : Int))).toNat + min places 1074) :=
        (pow_add 2 _ _).symm
    _ = Nat.pow 2 unitPlaces := pow_congr (by rw [unitPlaces_eq]; omega)

theorem scaled_iff (num den places : Nat) :
    Nat.pow 2 (52 + 1) * den * Nat.pow 2 (-1074 + (places : Int)).toNat ≤
        num * Nat.pow 2 (-(-1074 + (places : Int))).toNat ↔
      den * Nat.pow 2 (places + 53) ≤ num * unitsOfOne := by
  have hden : Nat.pow 2 (52 + 1) * den * Nat.pow 2 (-1074 + (places : Int)).toNat *
      Nat.pow 2 (min places 1074) = den * Nat.pow 2 (places + 53) := by
    rw [Nat.mul_assoc, pow_above, Nat.mul_comm (Nat.pow 2 (52 + 1)), Nat.mul_assoc, Nat.mul_comm
      (Nat.pow 2 (52 + 1)), pow_add 2 places 53]
  have hnum : num * Nat.pow 2 (-(-1074 + (places : Int))).toNat * Nat.pow 2 (min places 1074) =
      num * unitsOfOne := by
    rw [Nat.mul_assoc, pow_below]
  rw [← hden, ← hnum]
  exact (Nat.mul_le_mul_right_iff (Nat.two_pow_pos _)).symm

/-- The places by which a ratio is shifted leave 53 digits, or are none. -/
theorem placesFor_spec {num den : Nat} (hnum : 0 < num) (hden : 0 < den) :
    num * unitsOfOne < den * Nat.pow 2 (placesFor .binary64 num den + 53) ∧
      (placesFor .binary64 num den = 0 ∨
        den * Nat.pow 2 (placesFor .binary64 num den + 52) ≤ num * unitsOfOne) := by
  have hbits : Format.fractionBits .binary64 = 52 := rfl
  simp only [placesFor, unitExponent_eq, hbits, scaled_iff, decide_eq_true_eq]
  generalize hfirst : ((num.log2 : Int) - den.log2 - 1 - ((52 : Nat) : Int) - -1074).toNat = first
  split
  · next hscaled =>
    refine ⟨?_, .inr hscaled⟩
    calc num * unitsOfOne < Nat.pow 2 (num.log2 + 1) * unitsOfOne :=
          Nat.mul_lt_mul_of_pos_right (self_lt_pow num) unitsOfOne_pos
      _ = Nat.pow 2 (num.log2 + 1 + unitPlaces) := (pow_add 2 _ _).symm
      _ ≤ Nat.pow 2 (den.log2 + (first + 1 + 53)) := pow_le_pow (by rw [unitPlaces_eq]; omega)
      _ = Nat.pow 2 den.log2 * Nat.pow 2 (first + 1 + 53) := pow_add 2 _ _
      _ ≤ den * Nat.pow 2 (first + 1 + 53) := Nat.mul_le_mul_right _ (pow_le_self hden)
  · next hscaled =>
    refine ⟨Nat.lt_of_not_le hscaled, ?_⟩
    rcases Nat.eq_zero_or_pos first with hzero | hpos
    · exact .inl hzero
    · right
      calc den * Nat.pow 2 (first + 52) ≤ Nat.pow 2 (den.log2 + 1) * Nat.pow 2 (first + 52) :=
            Nat.mul_le_mul_right _ (Nat.le_of_lt (self_lt_pow den))
        _ = Nat.pow 2 (den.log2 + 1 + (first + 52)) := (pow_add 2 _ _).symm
        _ = Nat.pow 2 (num.log2 + unitPlaces) := pow_congr (by rw [unitPlaces_eq]; omega)
        _ = Nat.pow 2 num.log2 * unitsOfOne := pow_add 2 _ _
        _ ≤ num * unitsOfOne := Nat.mul_le_mul_right _ (pow_le_self hnum)

/-- The magnitude word of the double nearest to a ratio, before it is cut off at infinity. -/
def ratioWord (num den : Nat) : Nat :=
  if num = 0 then 0
  else placesFor .binary64 num den * hidden +
    roundDiv (num * unitsOfOne) (den * Nat.pow 2 (placesFor .binary64 num den))

theorem magnitude_ofRatio_eq (negative : Bool) (num den : Nat) :
    (ofRatio negative num den : Double).magnitude =
      min (ratioWord num den) Format.binary64.infinity := by
  rcases Nat.eq_zero_or_pos num with rfl | hnum
  · rfl
  · simp only [ofRatio, ratioWord, if_neg (Nat.ne_of_gt hnum), ofMagnitude, unitExponent_eq]
    generalize placesFor .binary64 num den = places
    have hscaled := roundDiv_mul_right (num * Nat.pow 2 (-(-1074 + (places : Int))).toNat)
      (den * Nat.pow 2 (-1074 + (places : Int)).toNat) (Nat.two_pow_pos (min places 1074))
    have hnumerator : num * Nat.pow 2 (-(-1074 + (places : Int))).toNat *
        2 ^ (min places 1074) = num * unitsOfOne :=
      (Nat.mul_assoc _ _ _).trans (congrArg (num * ·) (pow_below places))
    have hdenominator : den * Nat.pow 2 (-1074 + (places : Int)).toNat *
        2 ^ (min places 1074) = den * Nat.pow 2 places :=
      (Nat.mul_assoc _ _ _).trans (congrArg (den * ·) (pow_above places))
    rw [hnumerator, hdenominator] at hscaled
    rw [hscaled]
    rfl

/-- A word, as far as it is below a ratio: it and the next one enclose the ratio. -/
structure Encloses (word num den : Nat) : Prop where
  below : unitsOf word * den ≤ num * unitsOfOne
  above : num * unitsOfOne < unitsOf (word + 1) * den

theorem roundDiv_eq (num den : Nat) : roundDiv num den =
    if 2 * num < (2 * (num / den) + 1) * den then num / den
    else if (2 * (num / den) + 1) * den < 2 * num then num / den + 1
    else if num / den % 2 = 0 then num / den
    else num / den + 1 := by
  have hdiv := Nat.div_add_mod num den
  have hmiddle : (2 * (num / den) + 1) * den = 2 * (den * (num / den)) + den := by
    rw [Nat.add_mul, Nat.one_mul, Nat.mul_assoc, Nat.mul_comm den]
  have hbelow : 2 * (num % den) < den ↔ 2 * num < (2 * (num / den) + 1) * den := by omega
  have habove : den < 2 * (num % den) ↔ (2 * (num / den) + 1) * den < 2 * num := by omega
  simp only [roundDiv, hbelow, habove]

/-- The word of a ratio is the nearer one of the two that enclose it, an even one if both are
equally near. -/
theorem exists_encloses {num den : Nat} (hnum : 0 < num) (hden : 0 < den) :
    ∃ word, Encloses word num den ∧ ratioWord num den =
      if 2 * (num * unitsOfOne) < (unitsOf word + unitsOf (word + 1)) * den then word
      else if (unitsOf word + unitsOf (word + 1)) * den < 2 * (num * unitsOfOne) then word + 1
      else if word % 2 = 0 then word else word + 1 := by
  obtain ⟨hhigh, hlow⟩ := placesFor_spec hnum hden
  rw [ratioWord, if_neg (Nat.ne_of_gt hnum), roundDiv_eq]
  generalize placesFor .binary64 num den = places at hhigh hlow
  rw [pow_add, ← Nat.mul_assoc] at hhigh hlow
  have hpos : 0 < den * Nat.pow 2 places := Nat.mul_pos hden (Nat.two_pow_pos _)
  have hmul : ∀ n : Nat, n * Nat.pow 2 places * den = n * (den * Nat.pow 2 places) := fun n => by
    rw [Nat.mul_assoc, Nat.mul_comm (Nat.pow 2 places)]
  generalize hquotient : num * unitsOfOne / (den * Nat.pow 2 places) = quotient
  have hdigits : quotient < 2 * hidden := by
    rw [← hquotient]
    exact Nat.div_lt_of_lt_mul hhigh
  have hbit : places = 0 ∨ hidden ≤ quotient := by
    rw [← hquotient]
    exact hlow.imp_right fun h => (Nat.le_div_iff_mul_le hpos).mpr (Nat.mul_comm _ _ ▸ h)
  have hword : unitsOf (places * hidden + quotient) = quotient * Nat.pow 2 places :=
    unitsOf_eq hbit (Nat.le_of_lt hdigits)
  have hnext : unitsOf (places * hidden + quotient + 1) = (quotient + 1) * Nat.pow 2 places :=
    unitsOf_succ_eq hbit hdigits
  have hparity : (places * hidden + quotient) % 2 = quotient % 2 := by
    unfold hidden
    omega
  have hmiddle : (unitsOf (places * hidden + quotient) +
      unitsOf (places * hidden + quotient + 1)) * den =
        (2 * quotient + 1) * (den * Nat.pow 2 places) := by
    rw [hword, hnext, ← Nat.add_mul, hmul]
    congr 1
    omega
  refine ⟨places * hidden + quotient, ⟨?_, ?_⟩, ?_⟩
  · rw [hword, hmul, ← hquotient]
    exact Nat.div_mul_le_self _ _
  · rw [hnext, hmul, ← hquotient]
    exact (Nat.div_lt_iff_lt_mul hpos).mp (Nat.lt_succ_self _)
  · rw [hmiddle, hparity]
    simp only [apply_ite (places * hidden + ·), Nat.add_assoc]

/-- A ratio that is not above a word is not rounded above it. -/
theorem ratioWord_le {num den word : Nat} (hden : 0 < den)
    (h : num * unitsOfOne ≤ unitsOf word * den) : ratioWord num den ≤ word := by
  rcases Nat.eq_zero_or_pos num with rfl | hnum
  · rw [ratioWord, if_pos rfl]
    exact Nat.zero_le word
  · obtain ⟨floor, henclosed, hword⟩ := exists_encloses hnum hden
    have hle : floor ≤ word := by
      have := Nat.le_of_mul_le_mul_right (Nat.le_trans henclosed.below h) hden
      exact Nat.le_of_not_lt fun hlt => Nat.not_lt.mpr this (unitsOf_lt hlt)
    rcases Nat.lt_or_eq_of_le hle with hlt | rfl
    · rw [hword]
      split
      · exact hle
      · split
        · exact hlt
        · split
          · exact hle
          · exact hlt
    · -- the ratio is the word itself, and nearer to it than to the next one
      have hnear : 2 * (num * unitsOfOne) < (unitsOf floor + unitsOf (floor + 1)) * den := by
        have := Nat.mul_lt_mul_of_pos_right (unitsOf_lt_succ floor) hden
        rw [Nat.add_mul]
        omega
      exact Nat.le_of_eq (hword.trans (if_pos hnear))

/-- A ratio that is not below a word is not rounded below it. -/
theorem le_ratioWord {num den word : Nat} (hden : 0 < den)
    (h : unitsOf word * den ≤ num * unitsOfOne) : word ≤ ratioWord num den := by
  rcases Nat.eq_zero_or_pos num with rfl | hnum
  · have hzero : unitsOf word = 0 := by
      rw [Nat.zero_mul, Nat.le_zero, Nat.mul_eq_zero] at h
      omega
    have hle : ¬ 0 < word := fun hlt => by
      have := unitsOf_lt hlt
      omega
    omega
  · obtain ⟨floor, henclosed, hword⟩ := exists_encloses hnum hden
    have hle : word ≤ floor := by
      have hlt := Nat.lt_of_mul_lt_mul_right (Nat.lt_of_le_of_lt h henclosed.above)
      exact Nat.le_of_lt_succ (unitsOf_lt_iff.mp hlt)
    rw [hword]
    split
    · exact hle
    · split
      · exact Nat.le_succ_of_le hle
      · split
        · exact hle
        · exact Nat.le_succ_of_le hle

theorem unitsOf_pos_iff (word : Nat) : 0 < unitsOf word ↔ 0 < word :=
  unitsOf_lt_iff (a := 0)

/-- Doubles are in the order of their numbers. -/
theorem rank_lt_iff (x y : Double) : x.rank < y.rank ↔ x.units < y.units := by
  have hxy := unitsOf_lt_iff (a := x.magnitude) (b := y.magnitude)
  have hyx := unitsOf_lt_iff (a := y.magnitude) (b := x.magnitude)
  have hx := unitsOf_pos_iff x.magnitude
  have hy := unitsOf_pos_iff y.magnitude
  rw [units_eq, units_eq, rank, rank]
  split <;> split <;> omega

theorem nearestWord_eq (n : Nat) :
    nearestWord n = min (ratioWord n 1) Format.binary64.infinity := by
  rw [← magnitude_ofRatio false, magnitude_ofRatio_eq]

theorem nearestWord_le {n word : Nat} (h : n * unitsOfOne ≤ unitsOf word) :
    nearestWord n ≤ word := by
  have hle := ratioWord_le Nat.one_pos (Nat.le_trans h (Nat.le_of_eq (Nat.mul_one _).symm))
  rw [nearestWord_eq]
  exact Nat.le_trans (Nat.min_le_left _ _) hle

theorem le_nearestWord {n word : Nat} (hfinite : word ≤ Format.binary64.infinity)
    (h : unitsOf word ≤ n * unitsOfOne) : word ≤ nearestWord n := by
  have hle := le_ratioWord Nat.one_pos (Nat.le_trans (Nat.le_of_eq (Nat.mul_one _)) h)
  rw [nearestWord_eq]
  exact Nat.le_min.mpr ⟨hle, hfinite⟩

theorem mul_unitsOfOne_eq (i : Int) : i * (unitsOfOne : Int) =
    if i < 0 then -((i.natAbs * unitsOfOne : Nat) : Int) else (i.natAbs * unitsOfOne : Nat) := by
  rcases Int.natAbs_eq i with h | h
  · rw [if_neg (by omega), Int.natCast_mul, ← h]
  · rw [Int.natCast_mul, ← Int.neg_mul, ← h]
    split
    · rfl
    · obtain rfl : i = 0 := by omega
      rfl

/-- An integer that is not above a double is not rounded above it. -/
theorem rank_ofInt_le {i : Int} {d : Double} (hnum : d.magnitude ≤ Format.binary64.infinity)
    (h : i * unitsOfOne ≤ d.units) : (ofInt i : Double).rank ≤ d.rank := by
  have hup : i.natAbs * unitsOfOne ≤ unitsOf d.magnitude → nearestWord i.natAbs ≤ d.magnitude :=
    nearestWord_le
  have hzero : i.natAbs * unitsOfOne ≤ unitsOf 0 → nearestWord i.natAbs ≤ 0 := nearestWord_le
  have hdown := le_nearestWord (n := i.natAbs) hnum
  have hpos := unitsOf_pos_iff d.magnitude
  rw [units_eq, mul_unitsOfOne_eq] at h
  rw [rank_ofInt, rank]
  generalize i.natAbs * unitsOfOne = scaled at *
  by_cases hi : i < 0 <;> by_cases hneg : d.negative
  all_goals
    simp only [hi, hneg, if_true, if_false, Bool.false_eq_true] at h ⊢
    omega

/-- An integer that is not below a double is not rounded below it. -/
theorem le_rank_ofInt {i : Int} {d : Double} (hnum : d.magnitude ≤ Format.binary64.infinity)
    (h : d.units ≤ i * unitsOfOne) : d.rank ≤ (ofInt i : Double).rank := by
  have hup : i.natAbs * unitsOfOne ≤ unitsOf d.magnitude → nearestWord i.natAbs ≤ d.magnitude :=
    nearestWord_le
  have hzero : i.natAbs * unitsOfOne ≤ unitsOf 0 → nearestWord i.natAbs ≤ 0 := nearestWord_le
  have hdown := le_nearestWord (n := i.natAbs) hnum
  have hpos := unitsOf_pos_iff d.magnitude
  rw [units_eq, mul_unitsOfOne_eq] at h
  rw [rank_ofInt, rank]
  generalize i.natAbs * unitsOfOne = scaled at *
  by_cases hi : i < 0 <;> by_cases hneg : d.negative
  all_goals
    simp only [hi, hneg, if_true, if_false, Bool.false_eq_true] at h ⊢
    omega

theorem magnitude_le_of_isFinite {d : Double} (h : d.isFinite = true) :
    d.magnitude ≤ Format.binary64.infinity :=
  Nat.le_of_lt (of_decide_eq_true h)

theorem isNaN_of_isFinite {d : Double} (h : d.isFinite = true) : d.isNaN = false :=
  decide_eq_false (Nat.not_lt.mpr (magnitude_le_of_isFinite h))

/-- Equal doubles have one exact value. -/
theorem units_eq_of_equals {x y : Double} (h : x.equals y = true) : x.units = y.units := by
  have hxy := rank_lt_iff x y
  have hyx := rank_lt_iff y x
  rw [Binary.equals, Binary.compare?, beq_iff_eq] at h
  split at h
  · cases h
  · rw [Option.some.injEq, Int.compare_eq_eq] at h
    omega

/-- Finite doubles compare as their exact values. -/
theorem compare?_eq_units {x y : Double} (hx : x.isFinite = true) (hy : y.isFinite = true) :
    Binary.compare? x y = some (compare x.units y.units) := by
  have hxy := rank_lt_iff x y
  have hyx := rank_lt_iff y x
  rw [Binary.compare?, isNaN_of_isFinite hx, isNaN_of_isFinite hy]
  simp only [Bool.or_self, Bool.false_eq_true, if_false, Option.some.injEq]
  simp only [compare, compareOfLessAndEq]
  grind

/-- An integer compares with a finite double by its exact value, unless it is rounded to it. -/
theorem compare?_ofInt_iff {i : Int} {d : Double} (hfinite : d.isFinite = true) :
    Binary.compare? (ofInt i) d = some (compare (i * unitsOfOne) d.units) ↔
      ¬((ofInt i : Double).equals d = true ∧ d.units ≠ i * unitsOfOne) := by
  have hnum := magnitude_le_of_isFinite hfinite
  have hcompare : Binary.compare? (ofInt i) d = some (compare (ofInt i : Double).rank d.rank) := by
    rw [Binary.compare?, isNaN_ofInt, isNaN_of_isFinite hfinite]
    rfl
  rw [Binary.equals, hcompare, beq_iff_eq, Option.some.injEq, Option.some.injEq,
    Int.compare_eq_eq]
  rcases Int.lt_trichotomy (i * unitsOfOne) d.units with hlt | heq | hgt
  · have := rank_ofInt_le hnum (Int.le_of_lt hlt)
    rw [Int.compare_eq_lt.mpr hlt, Int.compare_eq_lt]
    omega
  · have := rank_ofInt_le hnum (Int.le_of_eq heq)
    have := le_rank_ofInt hnum (Int.le_of_eq heq.symm)
    rw [Int.compare_eq_eq.mpr heq, Int.compare_eq_eq]
    omega
  · have := le_rank_ofInt hnum (Int.le_of_lt hgt)
    rw [Int.compare_eq_gt.mpr hgt, Int.compare_eq_gt]
    omega

/-- A word that stands for an integer is the nearest one. -/
theorem nearestWord_eq_of_units {n word : Nat} (hfinite : word ≤ Format.binary64.infinity)
    (h : unitsOf word = n * unitsOfOne) : nearestWord n = word :=
  Nat.le_antisymm (nearestWord_le (Nat.le_of_eq h.symm)) (le_nearestWord hfinite (Nat.le_of_eq h))

/-- Up to 53 digits a natural number has a word. -/
theorem exists_word {n : Nat} (h : n < 2 * hidden) :
    ∃ word, word ≤ Format.binary64.infinity ∧ unitsOf word = n * unitsOfOne := by
  rcases Nat.eq_zero_or_pos n with rfl | hpos
  · exact ⟨0, Nat.zero_le _, (Nat.zero_mul _).symm⟩
  · have hk := log2_le_of_lt h
    have hshift : Nat.pow 2 (52 - n.log2) * Nat.pow 2 (n.log2 + 1022) = unitsOfOne :=
      (pow_add 2 _ _).symm.trans (pow_congr (by rw [unitPlaces_eq]; omega))
    refine ⟨wordOf n, ?_, ?_⟩
    · calc wordOf n ≤ (n.log2 + 1024) * hidden := wordOf_le hpos
        _ ≤ 2047 * hidden := Nat.mul_le_mul_right _ (by omega)
    · rw [wordOf_of_pos hpos, unitsOf_eq (.inr (hidden_le_roundedSignificand hpos))
        (roundedSignificand_le n), roundedSignificand_eq hk, Nat.mul_assoc, hshift]

/-- Up to 53 digits an integer is not rounded. -/
theorem units_ofInt {i : Int} (h : i.natAbs < 2 * hidden) :
    (ofInt i : Double).units = i * unitsOfOne := by
  obtain ⟨word, hfinite, hword⟩ := exists_word h
  rw [units_eq, mul_unitsOfOne_eq, ofInt, negative_ofRatio, magnitude_ofRatio,
    nearestWord_eq_of_units hfinite hword, hword]
  simp only [decide_eq_true_eq]

end Double
end Pushdown
