import Pushdown.Predicate.Evaluate
import Pushdown.Proofs.Filter.Monotonicity
import Pushdown.Proofs.Value.StoreComparison

/-!
# Filters in the store

What a filter accepts when the store evaluates it on a document. A field that is missing
reads as null; text functions hold of texts only, and agree there with the tests of the
traversal host.

## Results

* `Filter.holds_conjoin_iff`: a conjunction holds when what can be pushed of it does;
* `Filter.holds_disjoin_of_mem`: a disjunction holds when a member does;
* `Filter.negate_of_isPushable`: a negation is pushed over exact filters only.
-/

namespace Pushdown
namespace Filter

/-- What a field of a document reads as. -/
def read (document : Entries Value) (field : String) : Value :=
  (Entries.find? field document).getD .null

mutual

/-- Whether the store accepts a document. How it orders two lists or two maps is given. -/
def holds (nested : Value → Value → Bool) (document : Entries Value) : Filter → Bool
  | empty => true
  | equals field value => (read document field).storeEquals value
  | lessThan field value => Value.storeLess nested (read document field) value
  | greaterThan field value => Value.storeLess nested value (read document field)
  | within field values => values.any (read document field).storeEquals
  | contains field text => Operator.onText true (read document field) (Text.contains · text)
  | startsWith field text => Operator.onText true (read document field) (Text.startsWith · text)
  | endsWith field text => Operator.onText true (read document field) (Text.endsWith · text)
  | regex field pattern =>
      Operator.onText true (read document field) fun text =>
        (Regex.ofPattern? pattern).any (·.isMatch text)
  | not inner => !holds nested document inner
  | and members => holdsAll nested document members
  | or members => holdsAny nested document members

/-- Whether every filter accepts a document. -/
def holdsAll (nested : Value → Value → Bool) (document : Entries Value) : List Filter → Bool
  | [] => true
  | f :: fs => holds nested document f && holdsAll nested document fs

/-- Whether some filter accepts a document. -/
def holdsAny (nested : Value → Value → Bool) (document : Entries Value) : List Filter → Bool
  | [] => false
  | f :: fs => holds nested document f || holdsAny nested document fs

end

variable {nested : Value → Value → Bool} {document : Entries Value}

theorem holdsAll_iff :
    ∀ {fs : List Filter},
      holdsAll nested document fs = true ↔ ∀ f ∈ fs, f.holds nested document = true
  | [] => by simp [holdsAll]
  | f :: fs => by rw [holdsAll, Bool.and_eq_true, List.forall_mem_cons, holdsAll_iff]

theorem holdsAny_iff :
    ∀ {fs : List Filter},
      holdsAny nested document fs = true ↔ ∃ f ∈ fs, f.holds nested document = true
  | [] => by simp [holdsAny]
  | f :: fs => by
      rw [holdsAny, Bool.or_eq_true, holdsAny_iff]
      simp only [List.mem_cons, exists_eq_or_imp]

/-- A conjunction holds when every member that can be pushed does. -/
theorem holds_conjoin_iff {fs : List Filter} :
    (conjoin fs).holds nested document = true ↔
      ∀ f ∈ fs, f.isPushable = true → f.holds nested document = true := by
  have hmem : (∀ f ∈ fs.filter isPushable, f.holds nested document = true) ↔
      ∀ f ∈ fs, f.isPushable = true → f.holds nested document = true := by
    simp only [List.mem_filter, and_imp]
  rw [← hmem]
  unfold conjoin
  split
  · next h =>
    rw [h]
    simp [holds]
  · next f h =>
    rw [h]
    simp
  · rw [holds, holdsAll_iff]

/-- A conjunction can be pushed when a member can. -/
theorem isPushable_conjoin {fs : List Filter} {f : Filter} (hf : f ∈ fs)
    (hpush : f.isPushable = true) : (conjoin fs).isPushable = true := by
  have hmem : f ∈ fs.filter isPushable := List.mem_filter.mpr ⟨hf, hpush⟩
  unfold conjoin
  split
  · next h =>
    rw [h] at hmem
    cases hmem
  · next g h =>
    rw [h, List.mem_singleton] at hmem
    exact hmem ▸ hpush
  · exact isPushable_and_iff.mpr ⟨f, hmem, hpush⟩

/-- A disjunction that can be pushed has members that can. -/
theorem isPushable_of_disjoin {fs : List Filter} (h : (disjoin fs).isPushable = true) :
    ∀ f ∈ fs, f.isPushable = true := by
  unfold disjoin at h
  split at h
  · next hall => exact List.all_eq_true.mp hall
  · cases h

/-- A disjunction holds when a member does. -/
theorem holds_disjoin_of_mem {fs : List Filter} {f : Filter} (hf : f ∈ fs)
    (h : f.holds nested document = true) : (disjoin fs).holds nested document = true := by
  unfold disjoin
  split
  · split
    · cases hf
    · obtain rfl := List.mem_singleton.mp hf
      exact h
    · rw [holds, holdsAny_iff]
      exact ⟨f, hf, h⟩
  · rw [holds]

/-- A disjunction that can be pushed holds through one of its members. -/
theorem exists_of_holds_disjoin {fs : List Filter} (hpush : (disjoin fs).isPushable = true)
    (h : (disjoin fs).holds nested document = true) :
    ∃ f ∈ fs, f.holds nested document = true := by
  unfold disjoin at hpush h
  split at h
  · next hall =>
    rw [if_pos hall] at hpush
    split at h
    · cases hpush
    · next f => exact ⟨f, List.mem_singleton_self f, h⟩
    · rw [holds, holdsAny_iff] at h
      exact h
  · next hall =>
    rw [if_neg hall] at hpush
    cases hpush

/-- Of two filters one of which holds, the disjunction does. -/
theorem holds_disjoin_pair {f g : Filter}
    (h : f.holds nested document = true ∨ g.holds nested document = true) :
    (disjoin [f, g]).holds nested document = true := by
  rcases h with h | h
  · exact holds_disjoin_of_mem List.mem_cons_self h
  · exact holds_disjoin_of_mem (List.mem_cons_of_mem f List.mem_cons_self) h

/-- A negation that can be pushed stands over an exact filter. -/
theorem negate_of_isPushable {f : Filter} (h : (negate f).isPushable = true) :
    f.support = .full ∧ negate f = not f := by
  unfold negate at h ⊢
  split at h
  · next hfull =>
    rw [if_pos hfull]
    exact ⟨beq_iff_eq.mp hfull, rfl⟩
  · cases h

end Filter
end Pushdown
