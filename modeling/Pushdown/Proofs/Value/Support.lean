import Pushdown.Number.Width
import Pushdown.Value.Basic

/-!
# Exactness of values

A list or map is as exact as the worst of its members, and no value is left without a
literal. The integers that are exact are those that a double holds.

## Results

* `Support.joinAll_cons`: the worst of a list, member by member;
* `Value.support_ne_none`: every value has a literal;
* `Value.natAbs_le_of_support`: how large an exact integer can be.
-/

namespace Pushdown

namespace Support

theorem join_eq_full_iff {a b : Support} : join a b = full ↔ a = full ∧ b = full := by
  cases a <;> cases b <;> decide

theorem join_ne_none {a b : Support} (ha : a ≠ none) (hb : b ≠ none) : join a b ≠ none := by
  cases a <;> cases b <;> first | contradiction | decide

theorem full_join (a : Support) : join full a = a := by
  cases a <;> decide

theorem foldl_join (a : Support) :
    ∀ supports : List Support, supports.foldl join a = join a (joinAll supports)
  | [] => by cases a <;> decide
  | s :: supports => by
      rw [joinAll, List.foldl_cons, List.foldl_cons, foldl_join (join a s),
        foldl_join (join full s), full_join, join_assoc]

/-- The worst of a list is the worse of its head and the worst of its tail. -/
theorem joinAll_cons (s : Support) (supports : List Support) :
    joinAll (s :: supports) = join s (joinAll supports) := by
  rw [joinAll, List.foldl_cons, foldl_join, full_join]

theorem joinAll_cons_eq_full_iff {s : Support} {supports : List Support} :
    joinAll (s :: supports) = full ↔ s = full ∧ joinAll supports = full := by
  rw [joinAll_cons, join_eq_full_iff]

theorem joinAll_ne_none :
    ∀ {supports : List Support}, (∀ s ∈ supports, s ≠ none) → joinAll supports ≠ none
  | [], _ => by decide
  | s :: supports, h => by
      rw [joinAll_cons]
      exact join_ne_none (h s List.mem_cons_self)
        (joinAll_ne_none fun t ht => h t (List.mem_cons_of_mem s ht))

end Support

namespace Value

mutual

/-- Every value has a literal. -/
theorem support_ne_none : ∀ value : Value, value.support ≠ .none
  | null => by decide
  | bool _ | int32 _ | double _ | string _ => by simp [support]
  | int64 value => by
      rw [support]
      split <;> decide
  | list items => Support.joinAll_ne_none (supports_ne_none items)
  | map entries => Support.joinAll_ne_none (entrySupports_ne_none entries)

theorem supports_ne_none : ∀ items : List Value, ∀ s ∈ supports items, s ≠ .none
  | [] => by simp [supports]
  | item :: items => by
      rw [supports, List.forall_mem_cons]
      exact ⟨support_ne_none item, supports_ne_none items⟩

theorem entrySupports_ne_none :
    ∀ entries : List (String × Value), ∀ s ∈ entrySupports entries, s ≠ .none
  | [] => by simp [entrySupports]
  | (key, value) :: entries => by
      rw [entrySupports, List.forall_mem_cons]
      exact ⟨support_ne_none value, entrySupports_ne_none entries⟩

end

/-- An exact integer has at most 53 digits. -/
theorem natAbs_le_of_support {value : Value} {n : Int} (hn : value.asInt? = some n)
    (h : value.support = .full) : n.natAbs ≤ 9007199254740991 := by
  cases value with
  | int32 value =>
      cases hn
      have := fits32_toInt value
      omega
  | int64 value =>
      cases hn
      rw [support] at h
      split at h
      · next hbound =>
        unfold maxExactInteger at hbound
        omega
      · cases h
  | null | bool | double | string | list | map => cases hn

end Value
end Pushdown
