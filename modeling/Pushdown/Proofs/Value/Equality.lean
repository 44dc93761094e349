import Pushdown.Proofs.Number.Nearest
import Pushdown.Proofs.Value.Narrowing
import Pushdown.Proofs.Value.StoreComparison

/-!
# Equality of values

Two integers are compared exactly, and so are two finite doubles. An integer and a double are
compared as doubles, and that is the order of their exact values unless the integer is rounded
to the double. Only an integer beyond 53 bits can be.

Equality is reflexive and symmetric. It is transitive but where a double lies between two
different integers that are both rounded to it.

## Results

* `Value.compare?_units_iff`: when two numbers compare as their exact values;
* `Value.equals_self`, `Value.equals_comm`: reflexivity and symmetry;
* `Value.equals_trans_iff`: when equality is passed on;
* `Value.compares_exactly`: all of these together;
* `Value.not_rounded_of_support`: exact operands are compared by their exact values.
-/

namespace Pushdown
namespace Value

open Double (unitsOfOne)

/-- The exact value of a finite number, in units of the smallest positive double. -/
def units? : Value → Option Int
  | int32 value => some (value.toInt * unitsOfOne)
  | int64 value => some (value.toInt * unitsOfOne)
  | double value => if value.isFinite then some value.units else none
  | _ => none

/-- A double and an integer that is rounded to it, although their values differ. -/
def RoundedTo (integer number : Value) : Prop :=
  ∃ i d, integer.asInt? = some i ∧ number = double d ∧
    (Binary.ofInt i : Double).equals d = true ∧ d.units ≠ i * unitsOfOne

/-- One of two numbers is an integer that is rounded to the other one. -/
def Rounded (a b : Value) : Prop := RoundedTo a b ∨ RoundedTo b a

mutual

/-- At some place, a double between two different integers. -/
def Bridged : Value → Value → Value → Prop
  | list as, list bs, list cs => BridgedItems as bs cs
  | map as, map bs, map cs => BridgedEntries as bs cs
  | a, double _, c => ∃ m n, a.asInt? = some m ∧ c.asInt? = some n ∧ m ≠ n
  | _, _, _ => False

/-- At some place of some items, a double between two different integers. -/
def BridgedItems : List Value → List Value → List Value → Prop
  | a :: as, b :: bs, c :: cs => Bridged a b c ∨ BridgedItems as bs cs
  | _, _, _ => False

/-- At some place of some entries, a double between two different integers. -/
def BridgedEntries :
    List (String × Value) → List (String × Value) → List (String × Value) → Prop
  | (_, a) :: as, (_, b) :: bs, (_, c) :: cs => Bridged a b c ∨ BridgedEntries as bs cs
  | _, _, _ => False

end

/-! ## The order of numbers -/

/-- An integer or a finite double. -/
theorem units?_cases {a : Value} {m : Int} (h : a.units? = some m) :
    (∃ i, a.asInt? = some i ∧ m = i * unitsOfOne) ∨
      ∃ d, a = double d ∧ d.isFinite = true ∧ m = d.units := by
  cases a with
  | int32 value | int64 value => exact .inl ⟨_, rfl, (Option.some.inj h).symm⟩
  | double value =>
      rw [units?] at h
      split at h
      · next hfinite => exact .inr ⟨value, rfl, hfinite, (Option.some.inj h).symm⟩
      · cases h
  | null | bool | string | list | map => cases h

theorem compare?_of_asInt? {a b : Value} {m n : Int} (ha : a.asInt? = some m)
    (hb : b.asInt? = some n) : compare? a b = some (compare m n) := by
  cases a with
  | int32 | int64 =>
      cases b with
      | int32 | int64 => rw [← Option.some.inj ha, ← Option.some.inj hb]; rfl
      | null | bool | double | string | list | map => cases hb
  | null | bool | double | string | list | map => cases ha

theorem compare?_double {a : Value} {i : Int} (ha : a.asInt? = some i) (d : Double) :
    compare? a (double d) = Binary.compare? (Binary.ofInt i) d := by
  have hdouble := asDouble?_of_asInt? ha
  cases a with
  | int32 | int64 =>
      simp only [compare?, compareDoubles?, hdouble]
      rfl
  | null | bool | double | string | list | map => cases ha

theorem not_roundedTo_of_asInt? {a b : Value} {n : Int} (hb : b.asInt? = some n) :
    ¬RoundedTo a b := by
  rintro ⟨i, d, hi, rfl, hequals, hunits⟩
  cases hb

theorem not_roundedTo_double (d : Double) (b : Value) : ¬RoundedTo (double d) b := by
  rintro ⟨i, e, hi, hnumber, hequals, hunits⟩
  cases hi

/-- An integer compares with a double by its exact value, unless it is rounded to it. -/
theorem compare?_double_iff {a : Value} {i : Int} {d : Double} (ha : a.asInt? = some i)
    (hfinite : d.isFinite = true) :
    compare? a (double d) = some (compare (i * unitsOfOne) d.units) ↔ ¬Rounded a (double d) := by
  rw [compare?_double ha, Double.compare?_ofInt_iff hfinite]
  apply not_congr
  constructor
  · rintro ⟨hequals, hunits⟩
    exact .inl ⟨i, d, ha, rfl, hequals, hunits⟩
  · rintro (⟨j, e, hj, he, hequals, hunits⟩ | h)
    · cases he
      obtain rfl : i = j := Option.some.inj (ha.symm.trans hj)
      exact ⟨hequals, hunits⟩
    · exact absurd h (not_roundedTo_double d a)

theorem compare?_eq_some_comm {a b : Value} {m n : Int} :
    compare? a b = some (compare m n) ↔ compare? b a = some (compare n m) := by
  constructor
  · intro h
    rw [compare?_swap h, Int.compare_swap]
  · intro h
    rw [compare?_swap h, Int.compare_swap]

/-- Two numbers compare as their exact values, unless one is rounded to the other. -/
theorem compare?_units_iff {a b : Value} {m n : Int} (ha : a.units? = some m)
    (hb : b.units? = some n) :
    compare? a b = some (compare m n) ↔ ¬Rounded a b := by
  rcases units?_cases ha with ⟨i, hi, rfl⟩ | ⟨d, rfl, hd, rfl⟩
  · rcases units?_cases hb with ⟨j, hj, rfl⟩ | ⟨e, rfl, he, rfl⟩
    · have hpos : (0 : Int) < unitsOfOne := Int.natCast_pos.mpr Double.unitsOfOne_pos
      have hscaled : compare (i * (unitsOfOne : Int)) (j * unitsOfOne) = compare i j := by
        rcases Int.lt_trichotomy i j with hlt | rfl | hgt
        · rw [Int.compare_eq_lt.mpr hlt,
            Int.compare_eq_lt.mpr (Int.mul_lt_mul_of_pos_right hlt hpos)]
        · rw [Int.compare_eq_eq.mpr rfl, Int.compare_eq_eq.mpr rfl]
        · rw [Int.compare_eq_gt.mpr hgt,
            Int.compare_eq_gt.mpr (Int.mul_lt_mul_of_pos_right hgt hpos)]
      rw [hscaled]
      refine ⟨fun _ h => ?_, fun _ => compare?_of_asInt? hi hj⟩
      exact h.elim (not_roundedTo_of_asInt? hj) (not_roundedTo_of_asInt? hi)
    · exact compare?_double_iff hi he
  · rcases units?_cases hb with ⟨j, hj, rfl⟩ | ⟨e, rfl, he, rfl⟩
    · rw [compare?_eq_some_comm, compare?_double_iff hj hd, Rounded, Rounded, or_comm]
    · refine ⟨fun _ h => ?_, fun _ => Double.compare?_eq_units hd he⟩
      exact h.elim (not_roundedTo_double d _) (not_roundedTo_double e _)

/-- An exact integer is not rounded. -/
theorem not_roundedTo_of_support {a b : Value} (h : a.support = .full) : ¬RoundedTo a b := by
  rintro ⟨i, d, hi, rfl, hequals, hunits⟩
  have hexact : i.natAbs < 2 * Double.hidden :=
    Nat.lt_of_le_of_lt (natAbs_le_of_support hi h) (by decide)
  exact hunits ((Double.units_eq_of_equals hequals).symm.trans (Double.units_ofInt hexact))

/-- Exact numbers compare as their exact values. -/
theorem not_rounded_of_support {a b : Value} (ha : a.support = .full) (hb : b.support = .full) :
    ¬Rounded a b :=
  fun h => h.elim (not_roundedTo_of_support ha) (not_roundedTo_of_support hb)

/-! ## Equality -/

theorem equalNumbers_comm (a b : Value) : equalNumbers a b = equalNumbers b a := by
  have heq : compare? a b = some .eq ↔ compare? b a = some .eq :=
    ⟨fun h => compare?_swap h, fun h => compare?_swap h⟩
  rw [Bool.eq_iff_iff]
  simp only [equalNumbers, Bool.and_eq_true, beq_iff_eq, heq]
  exact and_congr_left' and_comm

/-- Equality with a number is that of numbers. -/
theorem equals_of_isNumber {a : Value} (h : a.isNumber = true) (b : Value) :
    a.equals b = equalNumbers a b := by
  cases a with
  | int32 | int64 | double => cases b <;> rfl
  | null | bool | string | list | map => cases h

theorem equalNumbers_self {a : Value} (hnumber : a.isNumber = true) (h : a.AllFinite) :
    equalNumbers a a = true := by
  have hself : compare? a a = some .eq := by
    cases a with
    | int32 value | int64 value =>
        rw [compare?_of_asInt? rfl rfl, Int.compare_eq_eq.mpr rfl]
    | double value =>
        have hfinite : value.isFinite = true := h
        exact (Double.compare?_eq_units hfinite hfinite).trans
          (congrArg some (Int.compare_eq_eq.mpr rfl))
    | null | bool | string | list | map => cases hnumber
  rw [equalNumbers, hnumber, hself]
  rfl

mutual

/-- A value without other doubles than finite ones equals itself. -/
theorem equals_self : ∀ {a : Value}, a.AllFinite → a.equals a = true
  | null, _ => rfl
  | bool _, _ | string _, _ => beq_self_eq_true _
  | int32 _, h | int64 _, h | double _, h => equalNumbers_self rfl h
  | list _, h => equalItems_self h
  | map _, h => equalEntries_self h

theorem equalItems_self : ∀ {as : List Value}, AllFiniteItems as → equalItems as as = true
  | [], _ => rfl
  | a :: as, h => by
      rw [equalItems, equals_self h.1, equalItems_self h.2]
      rfl

theorem equalEntries_self : ∀ {as : List (String × Value)}, AllFiniteEntries as →
    equalEntries as as = true
  | [], _ => rfl
  | (key, a) :: as, h => by
      rw [equalEntries, equals_self h.1, equalEntries_self h.2, beq_self_eq_true]
      rfl

end

mutual

/-- Equality goes both ways. -/
theorem equals_comm : ∀ a b : Value, a.equals b = b.equals a
  | null, b => by cases b <;> rfl
  | bool a, b => by
      cases b with
      | bool b => exact Bool.beq_comm
      | null | int32 | int64 | double | string | list | map => rfl
  | string a, b => by
      cases b with
      | string b => exact BEq.comm
      | null | bool | int32 | int64 | double | list | map => rfl
  | int32 a, b | int64 a, b | double a, b => by
      rw [equals_of_isNumber rfl, equalNumbers_comm]
      cases b <;> rfl
  | list as, b => by
      cases b with
      | list bs => exact equalItems_comm as bs
      | null | bool | int32 | int64 | double | string | map => rfl
  | map as, b => by
      cases b with
      | map bs => exact equalEntries_comm as bs
      | null | bool | int32 | int64 | double | string | list => rfl

theorem equalItems_comm : ∀ as bs : List Value, equalItems as bs = equalItems bs as
  | [], [] | [], _ :: _ | _ :: _, [] => rfl
  | a :: as, b :: bs => by
      rw [equalItems, equalItems, equals_comm a b, equalItems_comm as bs]

theorem equalEntries_comm : ∀ as bs : List (String × Value),
    equalEntries as bs = equalEntries bs as
  | [], [] | [], _ :: _ | _ :: _, [] => rfl
  | (ka, a) :: as, (kb, b) :: bs => by
      rw [equalEntries, equalEntries, equals_comm a b, equalEntries_comm as bs, BEq.comm]

end

theorem rank_of_compare? {x y : Double} (h : Binary.compare? x y = some .eq) :
    x.isNaN = false ∧ y.isNaN = false ∧ x.rank = y.rank := by
  rw [Binary.compare?] at h
  split at h
  · cases h
  · next hnum =>
    rw [Bool.or_eq_true, not_or, Bool.not_eq_true, Bool.not_eq_true] at hnum
    exact ⟨hnum.1, hnum.2, Int.compare_eq_eq.mp (Option.some.inj h)⟩

/-- Doubles of numbers that are equal in a row are equal. -/
theorem compareDoubles?_trans {a b c : Value} (hab : compareDoubles? a b = some .eq)
    (hbc : compareDoubles? b c = some .eq) : compareDoubles? a c = some .eq := by
  obtain ⟨x, hx, hab⟩ := Option.bind_eq_some_iff.mp hab
  obtain ⟨y, hy, hab⟩ := Option.bind_eq_some_iff.mp hab
  obtain ⟨z, hz, hbc⟩ := Option.bind_eq_some_iff.mp hbc
  obtain ⟨w, hw, hbc⟩ := Option.bind_eq_some_iff.mp hbc
  obtain rfl : y = z := Option.some.inj (hy.symm.trans hz)
  obtain ⟨hnum, -, hxy⟩ := rank_of_compare? hab
  obtain ⟨-, hnum', hyw⟩ := rank_of_compare? hbc
  simp only [compareDoubles?, hx, hw, Option.bind_eq_bind, Option.bind_some]
  rw [Binary.compare?, hnum, hnum', Int.compare_eq_eq.mpr (hxy.trans hyw)]
  rfl

theorem equalNumbers_of_asInt? {a b : Value} {m n : Int} (ha : a.asInt? = some m)
    (hb : b.asInt? = some n) : equalNumbers a b = true ↔ m = n := by
  have hnumber : a.isNumber = true ∧ b.isNumber = true := by
    constructor
    · cases a <;> first | rfl | cases ha
    · cases b <;> first | rfl | cases hb
  rw [equalNumbers, hnumber.1, hnumber.2, compare?_of_asInt? ha hb]
  simp only [Bool.true_and, beq_iff_eq, Option.some.injEq, Int.compare_eq_eq]

/-- A number is an integer or a double. -/
theorem isNumber_cases {a : Value} (h : a.isNumber = true) :
    (∃ i, a.asInt? = some i) ∨ ∃ d, a = double d := by
  cases a with
  | int32 | int64 => exact .inl ⟨_, rfl⟩
  | double d => exact .inr ⟨d, rfl⟩
  | null | bool | string | list | map => cases h

theorem bridged_double_iff {a c : Value} {d : Double} (ha : a.isNumber = true) :
    Bridged a (double d) c ↔ ∃ m n, a.asInt? = some m ∧ c.asInt? = some n ∧ m ≠ n := by
  cases a with
  | int32 | int64 | double => rw [Bridged]
  | null | bool | string | list | map => cases ha

theorem not_bridged_of_asInt? {a b c : Value} {n : Int} (hb : b.asInt? = some n) :
    ¬Bridged a b c := by
  cases b with
  | int32 | int64 => cases a <;> simp [Bridged]
  | null | bool | double | string | list | map => cases hb

/-- Numbers that are equal as doubles are equal, but for different integers. -/
theorem equalNumbers_iff {a b : Value} (h : compareDoubles? a b = some .eq) :
    equalNumbers a b = true ↔ ¬∃ m n, a.asInt? = some m ∧ b.asInt? = some n ∧ m ≠ n := by
  obtain ⟨ha, hb⟩ := isNumber_of_compareDoubles? h
  constructor
  · rintro hequal ⟨m, n, hm, hn, hne⟩
    exact hne ((equalNumbers_of_asInt? hm hn).mp hequal)
  · intro hsame
    rcases compare?_of_isNumber ha hb with ⟨m, n, hm, hn, -⟩ | hcompare
    · rw [equalNumbers_of_asInt? hm hn]
      exact Decidable.not_not.mp fun hne => hsame ⟨m, n, hm, hn, hne⟩
    · rw [equalNumbers, ha, hb, hcompare, h]
      rfl

theorem equalNumbers_trans_iff {a b c : Value} (hab : equalNumbers a b = true)
    (hbc : equalNumbers b c = true) : equalNumbers a c = true ↔ ¬Bridged a b c := by
  have hdoubles := compareDoubles?_trans (compareDoubles?_of_equalNumbers hab)
    (compareDoubles?_of_equalNumbers hbc)
  obtain ⟨ha, hb⟩ := isNumber_of_compareDoubles? (compareDoubles?_of_equalNumbers hab)
  rw [equalNumbers_iff hdoubles]
  rcases isNumber_cases hb with ⟨i, hi⟩ | ⟨d, rfl⟩
  · refine ⟨fun _ => not_bridged_of_asInt? hi, fun _ => ?_⟩
    rintro ⟨m, n, hm, hn, hne⟩
    exact hne (((equalNumbers_of_asInt? hm hi).mp hab).trans
      ((equalNumbers_of_asInt? hi hn).mp hbc))
  · rw [bridged_double_iff ha]

mutual

/-- Equality is passed on, but by a double between two different integers. -/
theorem equals_trans_iff : ∀ {a b c : Value}, a.equals b = true → b.equals c = true →
    (a.equals c = true ↔ ¬Bridged a b c)
  | null, null, null, _, _ => by simp [equals, Bridged]
  | bool a, bool b, bool c, hab, hbc => by
      simp only [equals, beq_iff_eq] at hab hbc ⊢
      simp [hab, hbc, Bridged]
  | string a, string b, string c, hab, hbc => by
      simp only [equals, beq_iff_eq] at hab hbc ⊢
      simp [hab, hbc, Bridged]
  | list as, list bs, list cs, hab, hbc => by
      rw [equals, Bridged]
      exact equalItems_trans_iff hab hbc
  | map as, map bs, map cs, hab, hbc => by
      rw [equals, Bridged]
      exact equalEntries_trans_iff hab hbc
  | int32 a, b, c, hab, hbc | int64 a, b, c, hab, hbc | double a, b, c, hab, hbc => by
      have hb : b.isNumber = true := by
        cases b <;> first | rfl | cases hab
      rw [equals_of_isNumber rfl] at hab ⊢
      rw [equals_of_isNumber hb] at hbc
      exact equalNumbers_trans_iff hab hbc

theorem equalItems_trans_iff : ∀ {as bs cs : List Value}, equalItems as bs = true →
    equalItems bs cs = true → (equalItems as cs = true ↔ ¬BridgedItems as bs cs)
  | [], [], [], _, _ => by simp [equalItems, BridgedItems]
  | a :: as, b :: bs, c :: cs, hab, hbc => by
      simp only [equalItems, Bool.and_eq_true] at hab hbc ⊢
      rw [BridgedItems, not_or, equals_trans_iff hab.1 hbc.1, equalItems_trans_iff hab.2 hbc.2]

theorem equalEntries_trans_iff : ∀ {as bs cs : List (String × Value)},
    equalEntries as bs = true → equalEntries bs cs = true →
    (equalEntries as cs = true ↔ ¬BridgedEntries as bs cs)
  | [], [], [], _, _ => by simp [equalEntries, BridgedEntries]
  | (ka, a) :: as, (kb, b) :: bs, (kc, c) :: cs, hab, hbc => by
      simp only [equalEntries, Bool.and_eq_true, beq_iff_eq] at hab hbc ⊢
      obtain ⟨⟨rfl, hab⟩, habs⟩ := hab
      obtain ⟨⟨rfl, hbc⟩, hbcs⟩ := hbc
      rw [BridgedEntries, not_or, equals_trans_iff hab hbc, equalEntries_trans_iff habs hbcs]
      simp only [true_and]

end

/-- Numbers compare as their exact values unless one is rounded to the other. Equality is
reflexive, but for doubles that are not finite, and symmetric; it is passed on unless a double
stands between two different integers. -/
theorem compares_exactly (a b c : Value) :
    (∀ {m n : Int}, a.units? = some m → b.units? = some n →
      (compare? a b = some (compare m n) ↔ ¬Rounded a b)) ∧
    (a.AllFinite → a.equals a = true) ∧
    a.equals b = b.equals a ∧
    (a.equals b = true → b.equals c = true → (a.equals c = true ↔ ¬Bridged a b c)) :=
  ⟨compare?_units_iff, equals_self, equals_comm a b, equals_trans_iff⟩

section wide

/-- The double `2 ^ 53`, to which the integer after it is rounded. -/
def firstWide : Double := Binary.ofInt 9007199254740992

theorem units?_firstWide : (double firstWide).units? = some (9007199254740992 * unitsOfOne) := by
  decide +kernel

theorem bridged_firstWide :
    Bridged (int64 9007199254740993) (double firstWide) (int64 9007199254740992) :=
  (bridged_double_iff rfl).mpr ⟨9007199254740993, 9007199254740992, rfl, rfl, by decide⟩

theorem compares_exactly_firstWide :
    compare? (int32 7) (double firstWide) =
        some (compare (7 * (unitsOfOne : Int)) (9007199254740992 * unitsOfOne)) ∧
      (list [double firstWide]).equals (list [double firstWide]) = true ∧
      (double firstWide).equals (int64 9007199254740993) =
        (int64 9007199254740993).equals (double firstWide) ∧
      (list [int64 9007199254740993]).equals (list [int64 9007199254740992]) = false := by
  have hfinite : firstWide.isFinite = true := by decide +kernel
  have hunits : (int32 7).units? = some (7 * (unitsOfOne : Int)) := rfl
  have hab : (list [int64 9007199254740993]).equals (list [double firstWide]) = true := by
    decide +kernel
  have hbc : (list [double firstWide]).equals (list [int64 9007199254740992]) = true := by
    decide +kernel
  obtain ⟨hcompare, -, -, -⟩ := compares_exactly (int32 7) (double firstWide) null
  obtain ⟨-, -, hcomm, -⟩ := compares_exactly (double firstWide) (int64 9007199254740993) null
  obtain ⟨-, hself, -, -⟩ := compares_exactly (list [double firstWide]) null null
  obtain ⟨-, -, -, htrans⟩ := compares_exactly (list [int64 9007199254740993])
    (list [double firstWide]) (list [int64 9007199254740992])
  refine ⟨(hcompare hunits units?_firstWide).mpr ?_, hself ⟨hfinite, trivial⟩, hcomm, ?_⟩
  · exact not_rounded_of_support rfl rfl
  · rw [← Bool.not_eq_true, htrans hab hbc, Bridged, BridgedItems]
    exact fun h => h (.inl bridged_firstWide)

/-- The integer after `2 ^ 53` is not the number of the double `2 ^ 53`, and compares equal to
it; and it is not the integer `2 ^ 53`, to which that double is equal as well. -/
theorem not_exact_of_wide :
    (int64 9007199254740993).units? = some (9007199254740993 * unitsOfOne) ∧
      (double firstWide).units? = some (9007199254740992 * unitsOfOne) ∧
      compare? (int64 9007199254740993) (double firstWide) = some .eq ∧
      (int64 9007199254740993).equals (double firstWide) = true ∧
      (double firstWide).equals (int64 9007199254740992) = true ∧
      (int64 9007199254740993).equals (int64 9007199254740992) = false := by
  refine ⟨rfl, units?_firstWide, ?_, ?_, ?_, ?_⟩ <;> decide +kernel

end wide

end Value
end Pushdown
