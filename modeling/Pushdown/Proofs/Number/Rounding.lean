import Pushdown.Number.Binary

/-!
# Integers as doubles

The double nearest to an integer keeps the order of integers, and tells integers apart as
long as one of the two needs no more than 53 bits.

The magnitude word of the double nearest to `n` is the number of places by which `n` is
shifted, put above its rounded significand. A rounded significand lies between `2 ^ 52` and
`2 ^ 53`; one that reaches the upper end is the smallest word of the next binade, so words
of smaller binades never pass those of larger ones.

## Results

* `roundDiv_mono`: rounding a quotient keeps the order of numerators;
* `Double.rank_ofInt_mono`: a larger integer has no smaller double;
* `Double.rank_ofInt_lt`: it has a larger one if one of the two is exact;
* `Double.compare?_ofInt`: doubles of integers compare by their ranks.
-/

namespace Pushdown

theorem le_roundDiv (num den : Nat) : num / den ≤ roundDiv num den := by
  simp only [roundDiv]
  split
  · exact Nat.le_refl _
  · split
    · exact Nat.le_succ _
    · split
      · exact Nat.le_refl _
      · exact Nat.le_succ _

theorem roundDiv_le (num den : Nat) : roundDiv num den ≤ num / den + 1 := by
  simp only [roundDiv]
  split
  · exact Nat.le_succ _
  · split
    · exact Nat.le_refl _
    · split
      · exact Nat.le_succ _
      · exact Nat.le_refl _

theorem roundDiv_one (num : Nat) : roundDiv num 1 = num := by
  simp [roundDiv, Nat.mod_one]

/-- Rounding a quotient keeps the order of numerators. -/
theorem roundDiv_mono {a b : Nat} (den : Nat) (h : a ≤ b) :
    roundDiv a den ≤ roundDiv b den := by
  have hq : a / den ≤ b / den := Nat.div_le_div_right h
  rcases Nat.lt_or_eq_of_le hq with hlt | heq
  · calc roundDiv a den ≤ a / den + 1 := roundDiv_le a den
      _ ≤ b / den := hlt
      _ ≤ roundDiv b den := le_roundDiv b den
  · -- with one quotient, the remainders decide, and they are in the order of `a` and `b`
    have ha := Nat.div_add_mod a den
    have hb := Nat.div_add_mod b den
    have hr : a % den ≤ b % den := by
      rw [heq] at ha
      omega
    simp only [roundDiv]
    rw [heq]
    repeat' split
    all_goals omega

theorem roundDiv_le_of_lt {num den k : Nat} (h : num < k * den) (hden : 0 < den) :
    roundDiv num den ≤ k := by
  have hq : num / den < k := (Nat.div_lt_iff_lt_mul hden).2 h
  have := roundDiv_le num den
  omega

theorem le_roundDiv_of_le {num den k : Nat} (h : k * den ≤ num) (hden : 0 < den) :
    k ≤ roundDiv num den :=
  Nat.le_trans ((Nat.le_div_iff_mul_le hden).2 h) (le_roundDiv num den)

namespace Double

open Binary

/-- The power of two that a significand starts with. -/
def hidden : Nat := 4503599627370496

/-- The significand of the double nearest to `n`, which has `k` binary digits after its
first. -/
def roundedSignificand (n k : Nat) : Nat :=
  roundDiv (n * Nat.pow 2 (52 - k)) (Nat.pow 2 (k - 52))

/-- The magnitude word of the double nearest to `n`, before it is cut off at infinity. -/
def wordOf (n : Nat) : Nat :=
  if n = 0 then 0 else (n.log2 + 1022) * hidden + roundedSignificand n n.log2

theorem pow_le_self {n : Nat} (h : 0 < n) : Nat.pow 2 n.log2 ≤ n :=
  Nat.log2_self_le (Nat.ne_of_gt h)

theorem self_lt_pow (n : Nat) : n < Nat.pow 2 n.log2 * 2 :=
  Nat.lt_log2_self

theorem log2_mono {a b : Nat} (ha : 0 < a) (h : a ≤ b) : a.log2 ≤ b.log2 :=
  (Nat.le_log2 (by omega)).2 (Nat.le_trans (pow_le_self ha) h)

theorem log2_le_of_lt {n : Nat} (h : n < 2 * hidden) : n.log2 ≤ 52 := by
  rcases Nat.eq_zero_or_pos n with rfl | hpos
  · decide
  · have : n.log2 < 53 := (Nat.log2_lt (Nat.ne_of_gt hpos)).2 h
    omega

/-- Shifting up to 53 digits leaves what shifting down from there takes away. -/
theorem pow_mul_pow (k : Nat) :
    Nat.pow 2 k * Nat.pow 2 (52 - k) = hidden * Nat.pow 2 (k - 52) := by
  have hsum : k + (52 - k) = 52 + (k - 52) := by omega
  calc Nat.pow 2 k * Nat.pow 2 (52 - k) = Nat.pow 2 (k + (52 - k)) :=
        (Nat.pow_add 2 k (52 - k)).symm
    _ = Nat.pow 2 (52 + (k - 52)) := by rw [hsum]
    _ = Nat.pow 2 52 * Nat.pow 2 (k - 52) := Nat.pow_add 2 52 (k - 52)

/-- A rounded significand has its hidden bit. -/
theorem hidden_le_roundedSignificand {n : Nat} (h : 0 < n) :
    hidden ≤ roundedSignificand n n.log2 := by
  refine le_roundDiv_of_le ?_ (Nat.two_pow_pos _)
  rw [← pow_mul_pow]
  exact Nat.mul_le_mul_right _ (pow_le_self h)

theorem significand_lt (n : Nat) :
    n * Nat.pow 2 (52 - n.log2) < 2 * hidden * Nat.pow 2 (n.log2 - 52) := by
  rw [Nat.mul_assoc, ← pow_mul_pow, ← Nat.mul_assoc, Nat.mul_comm 2]
  exact Nat.mul_lt_mul_of_pos_right (self_lt_pow n) (Nat.two_pow_pos _)

/-- A rounded significand does not pass the first one of the next binade. -/
theorem roundedSignificand_le (n : Nat) : roundedSignificand n n.log2 ≤ 2 * hidden :=
  roundDiv_le_of_lt (significand_lt n) (Nat.two_pow_pos _)

/-- Up to 53 digits nothing is rounded. -/
theorem roundedSignificand_eq {n k : Nat} (hk : k ≤ 52) :
    roundedSignificand n k = n * Nat.pow 2 (52 - k) := by
  unfold roundedSignificand
  rw [Nat.sub_eq_zero_of_le hk]
  exact roundDiv_one _

theorem roundedSignificand_lt {n : Nat} (hk : n.log2 ≤ 52) :
    roundedSignificand n n.log2 < 2 * hidden := by
  have hlt := significand_lt n
  rw [Nat.sub_eq_zero_of_le hk] at hlt
  rw [roundedSignificand_eq hk]
  exact hlt

theorem wordOf_of_pos {n : Nat} (h : 0 < n) :
    wordOf n = (n.log2 + 1022) * hidden + roundedSignificand n n.log2 :=
  if_neg (Nat.ne_of_gt h)

theorem add_hidden (k : Nat) : k * hidden + hidden = (k + 1) * hidden :=
  (Nat.succ_mul k hidden).symm

theorem add_twice_hidden (k : Nat) : k * hidden + 2 * hidden = (k + 2) * hidden :=
  (Nat.add_mul k 2 hidden).symm

theorem le_wordOf {n : Nat} (h : 0 < n) : (n.log2 + 1023) * hidden ≤ wordOf n :=
  calc (n.log2 + 1023) * hidden = (n.log2 + 1022) * hidden + hidden :=
        (add_hidden (n.log2 + 1022)).symm
    _ ≤ (n.log2 + 1022) * hidden + roundedSignificand n n.log2 :=
        Nat.add_le_add_left (hidden_le_roundedSignificand h) _
    _ = wordOf n := (wordOf_of_pos h).symm

/-- Words of smaller binades do not pass those of larger ones. -/
theorem wordOf_le {n : Nat} (h : 0 < n) : wordOf n ≤ (n.log2 + 1024) * hidden :=
  calc wordOf n = (n.log2 + 1022) * hidden + roundedSignificand n n.log2 := wordOf_of_pos h
    _ ≤ (n.log2 + 1022) * hidden + 2 * hidden :=
        Nat.add_le_add_left (roundedSignificand_le n) _
    _ = (n.log2 + 1024) * hidden := add_twice_hidden (n.log2 + 1022)

theorem wordOf_lt_of_exact {n : Nat} (h : 0 < n) (hk : n.log2 ≤ 52) :
    wordOf n < (n.log2 + 1024) * hidden :=
  calc wordOf n = (n.log2 + 1022) * hidden + roundedSignificand n n.log2 := wordOf_of_pos h
    _ < (n.log2 + 1022) * hidden + 2 * hidden :=
        Nat.add_lt_add_left (roundedSignificand_lt hk) _
    _ = (n.log2 + 1024) * hidden := add_twice_hidden (n.log2 + 1022)

theorem binade_le {k l : Nat} (h : k < l) : (k + 1024) * hidden ≤ (l + 1023) * hidden :=
  Nat.mul_le_mul_right _ (by omega)

/-- A larger number has no smaller word. -/
theorem wordOf_mono {a b : Nat} (h : a ≤ b) : wordOf a ≤ wordOf b := by
  rcases Nat.eq_zero_or_pos a with rfl | ha
  · exact Nat.zero_le _
  · have hb : 0 < b := Nat.lt_of_lt_of_le ha h
    rcases Nat.lt_or_eq_of_le (log2_mono ha h) with hlt | heq
    · -- between two binades, the first word of the larger one separates the words
      calc wordOf a ≤ (a.log2 + 1024) * hidden := wordOf_le ha
        _ ≤ (b.log2 + 1023) * hidden := binade_le hlt
        _ ≤ wordOf b := le_wordOf hb
    · -- within one binade, the significands are rounded by the same shift
      rw [wordOf_of_pos ha, wordOf_of_pos hb, heq]
      exact Nat.add_le_add_left (roundDiv_mono _ (Nat.mul_le_mul_right _ h)) _

/-- A larger number has a larger word than one of at most 53 digits. -/
theorem wordOf_lt {a b : Nat} (h : a < b) (hexact : a < 2 * hidden) :
    wordOf a < wordOf b := by
  have hb : 0 < b := Nat.lt_of_le_of_lt (Nat.zero_le a) h
  rcases Nat.eq_zero_or_pos a with rfl | ha
  · calc wordOf 0 < (b.log2 + 1023) * hidden := Nat.mul_pos (by omega) (by decide)
      _ ≤ wordOf b := le_wordOf hb
  · have hk := log2_le_of_lt hexact
    rcases Nat.lt_or_eq_of_le (log2_mono ha (Nat.le_of_lt h)) with hlt | heq
    · calc wordOf a < (a.log2 + 1024) * hidden := wordOf_lt_of_exact ha hk
        _ ≤ (b.log2 + 1023) * hidden := binade_le hlt
        _ ≤ wordOf b := le_wordOf hb
    · rw [wordOf_of_pos ha, wordOf_of_pos hb, ← heq, roundedSignificand_eq hk,
        roundedSignificand_eq hk]
      exact Nat.add_lt_add_left (Nat.mul_lt_mul_of_pos_right h (Nat.two_pow_pos _)) _

/-- The magnitude word of the double nearest to `n`. -/
def nearestWord (n : Nat) : Nat := min (wordOf n) Format.binary64.infinity

theorem nearestWord_mono {a b : Nat} (h : a ≤ b) : nearestWord a ≤ nearestWord b := by
  have := wordOf_mono h
  unfold nearestWord
  omega

theorem nearestWord_lt {a b : Nat} (h : a < b) (hexact : a < 2 * hidden) :
    nearestWord a < nearestWord b := by
  have hword := wordOf_lt h hexact
  have hfinite : wordOf a < Format.binary64.infinity := by
    rcases Nat.eq_zero_or_pos a with rfl | ha
    · decide
    · have hk := log2_le_of_lt hexact
      calc wordOf a < (a.log2 + 1024) * hidden := wordOf_lt_of_exact ha hk
        _ ≤ 2047 * hidden := Nat.mul_le_mul_right _ (by omega)
  unfold nearestWord
  omega

theorem unitExponent_eq : Format.unitExponent .binary64 = -1074 := rfl

/-- The places by which a number is shifted. -/
theorem placesFor_eq {n : Nat} (h : 0 < n) :
    placesFor .binary64 n 1 = n.log2 + 1022 := by
  have hsum : n.log2 + (53 - n.log2) = 53 + (n.log2 - 53) := by omega
  -- after one place less, the significand would still have 54 digits
  have hscaled : Nat.pow 2 (52 + 1) * 1 * Nat.pow 2 (n.log2 - 53) ≤ n * Nat.pow 2 (53 - n.log2) :=
    calc Nat.pow 2 (52 + 1) * 1 * Nat.pow 2 (n.log2 - 53) = Nat.pow 2 (53 + (n.log2 - 53)) := by
          rw [Nat.mul_one]
          exact (Nat.pow_add 2 53 (n.log2 - 53)).symm
      _ = Nat.pow 2 n.log2 * Nat.pow 2 (53 - n.log2) := by
          rw [← hsum]
          exact Nat.pow_add 2 n.log2 (53 - n.log2)
      _ ≤ n * Nat.pow 2 (53 - n.log2) := Nat.mul_le_mul_right _ (pow_le_self h)
  have hlog : Nat.log2 1 = 0 := by decide
  have hbits : Format.fractionBits .binary64 = 52 := rfl
  have hfull :
      ((n.log2 : Int) - Nat.log2 1 - 1 - ((52 : Nat) : Int) - -1074).toNat = n.log2 + 1021 := by
    rw [hlog]
    omega
  have hup : (-1074 + ((n.log2 + 1021 : Nat) : Int)).toNat = n.log2 - 53 := by omega
  have hdown : (-(-1074 + ((n.log2 + 1021 : Nat) : Int))).toNat = 53 - n.log2 := by omega
  simp only [placesFor, unitExponent_eq, hbits, hfull, hup, hdown]
  rw [if_pos (decide_eq_true hscaled)]

theorem magnitude_ofRatio (negative : Bool) (n : Nat) :
    (ofRatio negative n 1 : Double).magnitude = nearestWord n := by
  rcases Nat.eq_zero_or_pos n with rfl | h
  · rfl
  · have hbits : Format.fractionBits .binary64 = 52 := rfl
    have hup : (-1074 + ((n.log2 + 1022 : Nat) : Int)).toNat = n.log2 - 52 := by omega
    have hdown : (-(-1074 + ((n.log2 + 1022 : Nat) : Int))).toNat = 52 - n.log2 := by omega
    simp only [ofRatio, placesFor_eq h, unitExponent_eq, hbits, hup, hdown,
      if_neg (Nat.ne_of_gt h), ofMagnitude, Nat.one_mul]
    rw [nearestWord, wordOf_of_pos h]
    rfl

theorem negative_ofRatio (negative : Bool) (num den : Nat) :
    (ofRatio negative num den : Double).negative = negative := by
  unfold ofRatio
  dsimp only
  split <;> rfl

theorem rank_ofInt (i : Int) :
    (ofInt i : Double).rank =
      if i < 0 then -(nearestWord i.natAbs : Int) else nearestWord i.natAbs := by
  simp only [ofInt, rank, magnitude_ofRatio, negative_ofRatio, decide_eq_true_eq]

/-- A larger integer has no smaller double. -/
theorem rank_ofInt_mono {i j : Int} (h : i ≤ j) :
    (ofInt i : Double).rank ≤ (ofInt j : Double).rank := by
  rw [rank_ofInt, rank_ofInt]
  split
  · split
    · have := nearestWord_mono (show j.natAbs ≤ i.natAbs by omega)
      omega
    · omega
  · have := nearestWord_mono (show i.natAbs ≤ j.natAbs by omega)
    split
    · omega
    · omega

/-- A larger integer has a larger double if one of the two has at most 53 digits. -/
theorem rank_ofInt_lt {i j : Int} (h : i < j)
    (hexact : i.natAbs < 2 * hidden ∨ j.natAbs < 2 * hidden) :
    (ofInt i : Double).rank < (ofInt j : Double).rank := by
  rw [rank_ofInt, rank_ofInt]
  by_cases hi : i < 0
  · by_cases hj : j < 0
    · have := nearestWord_lt (show j.natAbs < i.natAbs by omega) (by omega)
      rw [if_pos hi, if_pos hj]
      omega
    · have := nearestWord_lt (show 0 < i.natAbs by omega) (by decide)
      rw [if_pos hi, if_neg hj]
      omega
  · have := nearestWord_lt (show i.natAbs < j.natAbs by omega) (by omega)
    rw [if_neg hi, if_neg (by omega)]
    omega

theorem isNaN_ofInt (i : Int) : (ofInt i : Double).isNaN = false := by
  have h : (ofInt i : Double).magnitude ≤ Format.binary64.infinity := by
    rw [ofInt, magnitude_ofRatio]
    exact Nat.min_le_right _ _
  exact decide_eq_false (Nat.not_lt.2 h)

/-- Doubles of integers compare by their ranks. -/
theorem compare?_ofInt (i j : Int) :
    Binary.compare? (ofInt i : Double) (ofInt j) =
      some (compare (ofInt i : Double).rank (ofInt j : Double).rank) := by
  simp [Binary.compare?, isNaN_ofInt]

end Double
end Pushdown
