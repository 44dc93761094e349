import Pushdown.Plan.Query
import Pushdown.Proofs.Predicate.Total

/-!
# Id predicates, planned and tested

An id predicate is planned on what the id fields of documents hold, and tested on the ids of
traversals. Both forms keep the operators and the shapes of operands, so that an id predicate
whose planned form has a filter can be tested.

## Results

* `Predicate.onIdText_test_total`: an id predicate whose stored form has a filter can be tested.
-/

namespace Pushdown

/-- The stored form of a single id is a text. -/
theorem eq_string_of_storedIdValue {config : GraphConfig} {kind : ElementKind}
    {value stored : Value} (h : storedIdValue config kind value = .ok stored) :
    ∃ text, stored = .string text := by
  obtain ⟨id, -, h⟩ := Outcome.bind_eq_ok_iff.mp h
  obtain ⟨text, -, h⟩ := Outcome.bind_eq_ok_iff.mp h
  cases h
  exact ⟨text, rfl⟩

namespace Operator

/-- A stored operand keeps the shape that an operator needs. -/
theorem test_onIdText_total {config : GraphConfig} {kind : ElementKind} {op : String}
    {known : Operator} {operand stored : Value} {field : String} {f : Filter}
    (hop : ofName? op = some known)
    (hstored : Predicate.storedOperand config kind op operand = .ok (some stored))
    (hf : known.filter field stored = .ok f) (value : Value) :
    ∃ b, known.test value operand.integersAsText = .ok b := by
  unfold Predicate.storedOperand at hstored
  rw [hop] at hstored
  cases known with
  | eq | neq | lt | lte | gt | gte => exact ⟨_, rfl⟩
  | within | without =>
      cases operand with
      | list items =>
          rw [Value.integersAsText]
          exact ⟨_, rfl⟩
      | null | bool | int32 | int64 | double | string | map =>
          obtain ⟨single, hsingle, heq⟩ := Outcome.map_eq_ok_iff.mp hstored
          obtain ⟨text, rfl⟩ := eq_string_of_storedIdValue hsingle
          cases heq
          -- memberships are planned on lists only
          cases hf
  | containing | notContaining | startingWith | notStartingWith | endingWith | notEndingWith
  | regex | notRegex => cases hstored

end Operator

namespace Predicate

variable {config : GraphConfig} {kind : ElementKind}

theorem onIdTextMembers_eq_map (ps : List Predicate) : onIdTextMembers ps = ps.map onIdText := by
  induction ps with
  | nil => rfl
  | cons p ps ih => rw [onIdTextMembers, ih, List.map_cons]

/-- Every member of a connective with a stored form has one. -/
theorem onStoredIds_of_mem {p : Predicate} :
    ∀ {ps qs : List Predicate}, onStoredIdsMembers config kind ps = .ok (some qs) → p ∈ ps →
      ∃ q ∈ qs, onStoredIds config kind p = .ok (some q)
  | [], _, _, hp => by cases hp
  | r :: rs, qs, h, hp => by
      rw [onStoredIdsMembers] at h
      split at h
      · cases h
      · cases h
      · next q hq =>
        split at h
        · cases h
        · cases h
        · next rest hrest =>
          cases h
          rcases List.mem_cons.mp hp with rfl | hp
          · exact ⟨q, List.mem_cons_self, hq⟩
          · obtain ⟨s, hs, heq⟩ := onStoredIds_of_mem hrest hp
            exact ⟨s, List.mem_cons_of_mem q hs, heq⟩

/-- An id predicate whose stored form has a filter has a truth value on every id, and on the
absence of one. -/
theorem onIdText_test_total {field : String} {p q : Predicate} {f : Filter}
    (hq : onStoredIds config kind p = .ok (some q)) (hf : q.filter field = .ok f)
    (value : Option Value) : ∃ b, p.onIdText.test value = .ok b := by
  induction p using memberInduction generalizing q f with
  | compare op operand =>
      rw [onStoredIds] at hq
      obtain ⟨stored, hstored, rfl⟩ := Outcome.map_map_eq_some_iff.mp hq
      rw [filter] at hf
      obtain ⟨known, hop, hf⟩ := filterCompare_eq_ok hf
      simp only [onIdText, test, testCompare, hop]
      cases value with
      | none => exact ⟨false, rfl⟩
      | some value => exact Operator.test_onIdText_total hop hstored hf value
  | all members ih =>
      rw [onStoredIds] at hq
      obtain ⟨qs, hqs, rfl⟩ := Outcome.map_map_eq_some_iff.mp hq
      obtain ⟨fs, hfs, -⟩ := filter_all_eq_ok hf
      rw [onIdText, onIdTextMembers_eq_map, test]
      refine testAll_total fun r hr => ?_
      obtain ⟨p, hp, rfl⟩ := List.mem_map.mp hr
      obtain ⟨s, hs, hstored⟩ := onStoredIds_of_mem hqs hp
      obtain ⟨g, -, hg⟩ := filter_of_mem hfs hs
      exact ih p hp hstored hg
  | any members ih =>
      rw [onStoredIds] at hq
      obtain ⟨qs, hqs, rfl⟩ := Outcome.map_map_eq_some_iff.mp hq
      obtain ⟨fs, hfs, -⟩ := filter_any_eq_ok hf
      rw [onIdText, onIdTextMembers_eq_map, test]
      refine testAny_total fun r hr => ?_
      obtain ⟨p, hp, rfl⟩ := List.mem_map.mp hr
      obtain ⟨s, hs, hstored⟩ := onStoredIds_of_mem hqs hp
      obtain ⟨g, -, hg⟩ := filter_of_mem hfs hs
      exact ih p hp hstored hg

end Predicate
end Pushdown
