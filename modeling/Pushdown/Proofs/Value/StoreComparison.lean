import Pushdown.Proofs.Number.Rounding
import Pushdown.Proofs.Value.Support
import Pushdown.Value.Compare

/-!
# Comparing values in the store

The store compares all numbers as doubles, and orders any two values by their category
first. A traversal host compares integers exactly and leaves values of two categories
unordered.

The store accepts every equality of the host. The converse holds when the operand is exact,
since a double of at most 53 digits is the nearest one of a single integer. A strict ordering
of the host is one of the store too, unless the doubles of two integers coincide.

## Results

* `Value.storeEquals_of_equals`, `Value.equals_of_storeEquals`: the two equalities;
* `Value.storeLess_or_blurred`, `Value.storeLess_of_blurred`: the two orderings.
-/

namespace Pushdown
namespace Value

mutual

/-- Equality in the store. -/
def storeEquals : Value → Value → Bool
  | null, null => true
  | bool a, bool b => a == b
  | string a, string b => a == b
  | list a, list b => storeEqualItems a b
  | map a, map b => storeEqualEntries a b
  | a, b => compareDoubles? a b == some .eq

/-- Items equal one by one. -/
def storeEqualItems : List Value → List Value → Bool
  | [], [] => true
  | a :: as, b :: bs => storeEquals a b && storeEqualItems as bs
  | _, _ => false

/-- Entries equal one by one. -/
def storeEqualEntries : List (String × Value) → List (String × Value) → Bool
  | [], [] => true
  | (ka, a) :: as, (kb, b) :: bs => ka == kb && storeEquals a b && storeEqualEntries as bs
  | _, _ => false

end

/-- The place of a value's category in the order of the store. -/
def category : Value → Nat
  | null => 0
  | bool _ => 1
  | int32 _ | int64 _ | double _ => 2
  | string _ => 3
  | list _ => 4
  | map _ => 5

/-- The strict order of the store. How it orders two lists or two maps is left open. -/
def storeLess (nested : Value → Value → Bool) : Value → Value → Bool
  | bool a, bool b => !a && b
  | string a, string b => decide (a < b)
  | list a, list b => nested (list a) (list b)
  | map a, map b => nested (map a) (map b)
  | a, b =>
      if a.isNumber && b.isNumber then compareDoubles? a b == some .lt
      else decide (a.category < b.category)

theorem asDouble?_of_asInt? {a : Value} {i : Int} (h : a.asInt? = some i) :
    a.asDouble? = some (Binary.ofInt i) := by
  cases a <;> simp_all [asInt?, asDouble?]

theorem compareDoubles?_of_asInt? {a b : Value} {m n : Int} (ha : a.asInt? = some m)
    (hb : b.asInt? = some n) :
    compareDoubles? a b =
      some (compare (Binary.ofInt m : Double).rank (Binary.ofInt n : Double).rank) := by
  simp only [compareDoubles?, asDouble?_of_asInt? ha, asDouble?_of_asInt? hb,
    Option.bind_eq_bind, Option.bind_some]
  exact Double.compare?_ofInt m n

/-- Two numbers are compared as integers, or as doubles. -/
theorem compare?_of_isNumber {a b : Value} (ha : a.isNumber = true) (hb : b.isNumber = true) :
    (∃ m n, a.asInt? = some m ∧ b.asInt? = some n ∧ compare? a b = some (compare m n)) ∨
      compare? a b = compareDoubles? a b := by
  cases a with
  | int32 | int64 =>
      cases b with
      | int32 | int64 => exact .inl ⟨_, _, rfl, rfl, rfl⟩
      | double => exact .inr rfl
      | null | bool | string | list | map => cases hb
  | double => exact .inr (by cases b <;> rfl)
  | null | bool | string | list | map => cases ha

/-- Numbers that are equal for the host have one double. -/
theorem compareDoubles?_of_equalNumbers {a b : Value} (h : equalNumbers a b = true) :
    compareDoubles? a b = some .eq := by
  simp only [equalNumbers, Bool.and_eq_true, beq_iff_eq] at h
  obtain ⟨⟨ha, hb⟩, heq⟩ := h
  rcases compare?_of_isNumber ha hb with ⟨m, n, hm, hn, hcompare⟩ | hcompare
  · rw [hcompare, Option.some.injEq, Int.compare_eq_eq] at heq
    subst heq
    rw [compareDoubles?_of_asInt? hm hn, Option.some.injEq, Int.compare_eq_eq]
  · rw [← hcompare, heq]

/-- A value with a double is a number. -/
theorem isNumber_of_compareDoubles? {a b : Value} {o : Ordering}
    (h : compareDoubles? a b = some o) : a.isNumber = true ∧ b.isNumber = true := by
  obtain ⟨x, hx, h⟩ := Option.bind_eq_some_iff.mp h
  obtain ⟨y, hy, -⟩ := Option.bind_eq_some_iff.mp h
  constructor
  · cases a <;> first | rfl | cases hx
  · cases b <;> first | rfl | cases hy

/-- Numbers with one double are equal in the store. -/
theorem storeEquals_of_doubles {a b : Value} (h : compareDoubles? a b = some .eq) :
    a.storeEquals b = true := by
  obtain ⟨ha, -⟩ := isNumber_of_compareDoubles? h
  have heq : (compareDoubles? a b == some .eq) = true := beq_iff_eq.mpr h
  cases a with
  | int32 | int64 | double => cases b <;> exact heq
  | null | bool | string | list | map => cases ha

theorem storeEquals_of_equalNumbers {a b : Value} (h : equalNumbers a b = true) :
    a.storeEquals b = true :=
  storeEquals_of_doubles (compareDoubles?_of_equalNumbers h)

mutual

/-- What is equal for the host is equal in the store. -/
theorem storeEquals_of_equals : ∀ {a b : Value}, a.equals b = true → a.storeEquals b = true
  | null, null, _ => rfl
  | bool _, bool _, h => h
  | string _, string _, h => h
  | list _, list _, h => storeEqualItems_of_equalItems h
  | map _, map _, h => storeEqualEntries_of_equalEntries h
  | int32 _, b, h | int64 _, b, h | double _, b, h => by
      cases b <;> exact storeEquals_of_equalNumbers h

theorem storeEqualItems_of_equalItems :
    ∀ {as bs : List Value}, equalItems as bs = true → storeEqualItems as bs = true
  | [], [], _ => rfl
  | a :: as, b :: bs, h => by
      simp only [equalItems, storeEqualItems, Bool.and_eq_true] at h ⊢
      exact ⟨storeEquals_of_equals h.1, storeEqualItems_of_equalItems h.2⟩

theorem storeEqualEntries_of_equalEntries :
    ∀ {as bs : List (String × Value)}, equalEntries as bs = true → storeEqualEntries as bs = true
  | [], [], _ => rfl
  | (ka, a) :: as, (kb, b) :: bs, h => by
      simp only [equalEntries, storeEqualEntries, Bool.and_eq_true] at h ⊢
      exact ⟨⟨h.1.1, storeEquals_of_equals h.1.2⟩, storeEqualEntries_of_equalEntries h.2⟩

end

/-- Among the integers of one double, an exact one is alone. -/
theorem equalNumbers_of_compareDoubles? {a b : Value} (hb : b.support = .full)
    (h : compareDoubles? a b = some .eq) : equalNumbers a b = true := by
  obtain ⟨hnum, hnum'⟩ := isNumber_of_compareDoubles? h
  have heq : compare? a b = some .eq := by
    rcases compare?_of_isNumber hnum hnum' with ⟨m, n, hm, hn, hcompare⟩ | hcompare
    · rw [compareDoubles?_of_asInt? hm hn, Option.some.injEq, Int.compare_eq_eq] at h
      have hexact : n.natAbs < 2 * Double.hidden :=
        Nat.lt_of_le_of_lt (natAbs_le_of_support hn hb) (by decide)
      -- of two integers in order, one of them exact, the doubles are in order too
      have hmn : m = n := by
        rcases Int.lt_trichotomy m n with hlt | heq | hgt
        · have := Double.rank_ofInt_lt hlt (.inr hexact)
          omega
        · exact heq
        · have := Double.rank_ofInt_lt hgt (.inl hexact)
          omega
      rw [hcompare, hmn, Option.some.injEq, Int.compare_eq_eq]
    · rw [hcompare, h]
  rw [equalNumbers, hnum, hnum', heq]
  rfl

mutual

/-- What is equal in the store to an exact value is equal to it for the host. -/
theorem equals_of_storeEquals :
    ∀ {a b : Value}, b.support = .full → a.storeEquals b = true → a.equals b = true
  | null, null, _, _ => rfl
  | bool _, bool _, _, h => h
  | string _, string _, _, h => h
  | list _, list _, hfull, h => equalItems_of_storeEqualItems hfull h
  | map _, map _, hfull, h => equalEntries_of_storeEqualEntries hfull h
  | int32 _, b, hfull, h | int64 _, b, hfull, h | double _, b, hfull, h => by
      cases b <;> exact equalNumbers_of_compareDoubles? hfull (beq_iff_eq.mp h)

theorem equalItems_of_storeEqualItems :
    ∀ {as bs : List Value}, Support.joinAll (supports bs) = .full →
      storeEqualItems as bs = true → equalItems as bs = true
  | [], [], _, _ => rfl
  | a :: as, b :: bs, hfull, h => by
      rw [supports, Support.joinAll_cons_eq_full_iff] at hfull
      simp only [equalItems, storeEqualItems, Bool.and_eq_true] at h ⊢
      exact ⟨equals_of_storeEquals hfull.1 h.1, equalItems_of_storeEqualItems hfull.2 h.2⟩

theorem equalEntries_of_storeEqualEntries :
    ∀ {as bs : List (String × Value)}, Support.joinAll (entrySupports bs) = .full →
      storeEqualEntries as bs = true → equalEntries as bs = true
  | [], [], _, _ => rfl
  | (ka, a) :: as, (kb, b) :: bs, hfull, h => by
      rw [entrySupports, Support.joinAll_cons_eq_full_iff] at hfull
      simp only [equalEntries, storeEqualEntries, Bool.and_eq_true] at h ⊢
      exact ⟨⟨h.1.1, equals_of_storeEquals hfull.1 h.1.2⟩,
        equalEntries_of_storeEqualEntries hfull.2 h.2⟩

end

/-- Numbers are ordered in the store as their doubles are. -/
theorem storeLess_of_isNumber {nested : Value → Value → Bool} {a b : Value}
    (ha : a.isNumber = true) (hb : b.isNumber = true) :
    storeLess nested a b = (compareDoubles? a b == some .lt) := by
  cases a with
  | int32 | int64 | double =>
      cases b with
      | int32 | int64 | double => rfl
      | null | bool | string | list | map => cases hb
  | null | bool | string | list | map => cases ha

/-- A smaller and a larger integer with one double. -/
def Blurred (a b : Value) : Prop :=
  ∃ m n, a.asInt? = some m ∧ b.asInt? = some n ∧ m < n ∧
    (Binary.ofInt m : Double).equals (Binary.ofInt n) = true

theorem compareDoubles?_of_blurred {a b : Value} (h : Blurred a b) :
    compareDoubles? a b = some .eq := by
  obtain ⟨m, n, hm, hn, -, heq⟩ := h
  rw [compareDoubles?_of_asInt? hm hn, ← Double.compare?_ofInt]
  exact beq_iff_eq.mp heq

/-- Values that are ordered are two numbers, two texts or two truth values. -/
theorem compare?_cases {a b : Value} {o : Ordering} (h : compare? a b = some o) :
    (a.isNumber = true ∧ b.isNumber = true) ∨
      (∃ x y, a = string x ∧ b = string y ∧ Ord.compare x y = o) ∨
      ∃ x y, a = bool x ∧ b = bool y ∧ Ord.compare x y = o := by
  cases a with
  | int32 | int64 | double =>
      cases b with
      | int32 | int64 | double => exact .inl ⟨rfl, rfl⟩
      | null | bool | string | list | map => cases h
  | string x =>
      cases b with
      | string y => exact .inr (.inl ⟨x, y, rfl, rfl, Option.some.inj h⟩)
      | null | bool | int32 | int64 | double | list | map => cases h
  | bool x =>
      cases b with
      | bool y => exact .inr (.inr ⟨x, y, rfl, rfl, Option.some.inj h⟩)
      | null | int32 | int64 | double | string | list | map => cases h
  | null | list | map => cases b <;> cases h

theorem compareDoubles?_swap {a b : Value} {o : Ordering} (h : compareDoubles? a b = some o) :
    compareDoubles? b a = some o.swap := by
  obtain ⟨x, hx, h⟩ := Option.bind_eq_some_iff.mp h
  obtain ⟨y, hy, h⟩ := Option.bind_eq_some_iff.mp h
  simp only [compareDoubles?, hx, hy, Option.bind_eq_bind, Option.bind_some]
  unfold Binary.compare? at h ⊢
  rw [Bool.or_comm] at h
  split at h
  · cases h
  · rw [if_neg ‹_›, ← Int.compare_swap, Option.some.inj h]

/-- The ordering of two values turned around. -/
theorem compare?_swap {a b : Value} {o : Ordering} (h : compare? a b = some o) :
    compare? b a = some o.swap := by
  rcases compare?_cases h with ⟨ha, hb⟩ | ⟨x, y, rfl, rfl, rfl⟩ | ⟨x, y, rfl, rfl, rfl⟩
  · cases a with
    | int32 | int64 =>
        cases b with
        | int32 | int64 => rw [← Option.some.inj h, Int.compare_swap]; rfl
        | double => exact compareDoubles?_swap h
        | null | bool | string | list | map => cases hb
    | double =>
        cases b with
        | int32 | int64 | double => exact compareDoubles?_swap h
        | null | bool | string | list | map => cases hb
    | null | bool | string | list | map => cases ha
  · exact congrArg some Std.OrientedOrd.eq_swap
  · cases x <;> cases y <;> rfl

/-- Values in the same place of the host's order are equal for it. -/
theorem equals_of_compare? {a b : Value} (h : compare? a b = some .eq) : a.equals b = true := by
  rcases compare?_cases h with ⟨ha, hb⟩ | ⟨x, y, rfl, rfl, hxy⟩ | ⟨x, y, rfl, rfl, hxy⟩
  · have heq : equalNumbers a b = true := by
      rw [equalNumbers, ha, hb, h]
      rfl
    cases a with
    | int32 | int64 | double => cases b <;> exact heq
    | null | bool | string | list | map => cases ha
  · exact beq_iff_eq.mpr (Std.LawfulEqOrd.eq_of_compare hxy)
  · cases x <;> cases y <;> first | rfl | cases hxy

/-- What is less for the host is less in the store, but for integers that the store blurs. -/
theorem storeLess_or_blurred (nested : Value → Value → Bool) {a b : Value}
    (h : compare? a b = some .lt) : storeLess nested a b = true ∨ Blurred a b := by
  rcases compare?_cases h with ⟨ha, hb⟩ | ⟨x, y, rfl, rfl, hxy⟩ | ⟨x, y, rfl, rfl, hxy⟩
  · rw [storeLess_of_isNumber ha hb, beq_iff_eq]
    rcases compare?_of_isNumber ha hb with ⟨m, n, hm, hn, hcompare⟩ | hcompare
    · have hlt : m < n := by
        rw [hcompare, Option.some.injEq, Int.compare_eq_lt] at h
        exact h
      rcases Int.lt_or_eq_of_le (Double.rank_ofInt_mono (Int.le_of_lt hlt)) with hrank | hrank
      · left
        rw [compareDoubles?_of_asInt? hm hn, Option.some.injEq, Int.compare_eq_lt]
        exact hrank
      · right
        refine ⟨m, n, hm, hn, hlt, ?_⟩
        rw [Binary.equals, Double.compare?_ofInt, beq_iff_eq, Option.some.injEq,
          Int.compare_eq_eq]
        exact hrank
    · exact .inl (hcompare ▸ h)
  · exact .inl (decide_eq_true (compareOfLessAndEq_eq_lt.mp hxy))
  · left
    cases x <;> cases y <;> first | rfl | cases hxy

/-- What the store blurs, the host tells apart. -/
theorem compare?_of_blurred {a b : Value} (h : Blurred a b) : compare? a b = some .lt := by
  obtain ⟨m, n, hm, hn, hlt, -⟩ := h
  have hcompare : compare? a b = compareInts? a b := by
    cases a with
    | int32 | int64 =>
        cases b with
        | int32 | int64 => rfl
        | null | bool | double | string | list | map => cases hn
    | null | bool | double | string | list | map => cases hm
  rw [hcompare]
  simp only [compareInts?, hm, hn, Option.bind_eq_bind, Option.bind_some]
  exact congrArg some (Int.compare_eq_lt.mpr hlt)

/-- The store orders no two integers that it blurs. -/
theorem storeLess_of_blurred {nested : Value → Value → Bool} {a b : Value} (h : Blurred a b) :
    storeLess nested a b = false := by
  have heq := compareDoubles?_of_blurred h
  obtain ⟨ha, hb⟩ := isNumber_of_compareDoubles? heq
  rw [storeLess_of_isNumber ha hb, heq]
  rfl

end Value
end Pushdown
