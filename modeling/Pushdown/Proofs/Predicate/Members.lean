import Pushdown.Filter.Mapping
import Pushdown.Proofs.Outcome

/-!
# Members of predicates

A predicate is a tree with comparisons at its leaves. Statements about all predicates go by
induction over the members of connectives; those about a single leaf speak of a comparison
that stands somewhere in the tree.

## Results

* `Predicate.memberInduction`: induction over the members of connectives;
* `Predicate.testAll_eq_true_iff`, `Predicate.exists_of_testAny`: what passing a connective
  says of its members;
* `Predicate.filter_of_mem`, `Predicate.mem_filters`, `Predicate.forall_mem_filters_iff`: members
  and their filters.
-/

namespace Pushdown
namespace Predicate

/-- Induction over the members of connectives. -/
@[elab_as_elim]
theorem memberInduction {motive : Predicate → Prop}
    (compare : ∀ op operand, motive (.compare op operand))
    (all : ∀ members, (∀ p ∈ members, motive p) → motive (.all members))
    (any : ∀ members, (∀ p ∈ members, motive p) → motive (.any members))
    (p : Predicate) : motive p := by
  refine @Predicate.rec motive (fun ps => ∀ p ∈ ps, motive p) compare all any ?_ ?_ p
  · intro p hp
    cases hp
  · intro q qs hq hqs p hp
    rcases List.mem_cons.mp hp with rfl | hp
    · exact hq
    · exact hqs p hp

/-- A comparison stands somewhere in a predicate. -/
inductive Compares (op : String) (operand : Value) : Predicate → Prop
  | leaf : Compares op operand (.compare op operand)
  | all {members : List Predicate} {p : Predicate} :
      p ∈ members → Compares op operand p → Compares op operand (.all members)
  | any {members : List Predicate} {p : Predicate} :
      p ∈ members → Compares op operand p → Compares op operand (.any members)

/-- A conjunction is passed when every member is. -/
theorem testAll_eq_true_iff (value : Option Value) :
    ∀ ps : List Predicate, testAll ps value = .ok true ↔ ∀ p ∈ ps, p.test value = .ok true
  | [] => by simp [testAll]
  | p :: ps => by
      rw [testAll, List.forall_mem_cons, ← testAll_eq_true_iff value ps]
      cases p.test value with
      | error e => simp
      | ok keep => cases keep <;> simp

/-- A disjunction is passed through one of its members. -/
theorem exists_of_testAny {value : Option Value} :
    ∀ {ps : List Predicate}, testAny ps value = .ok true → ∃ p ∈ ps, p.test value = .ok true
  | [], h => by simp [testAny] at h
  | p :: ps, h => by
      cases hp : p.test value with
      | error e => simp [testAny, hp] at h
      | ok keep =>
          cases keep with
          | true => exact ⟨p, List.mem_cons_self, hp⟩
          | false =>
              simp only [testAny, hp] at h
              obtain ⟨q, hq, hpass⟩ := exists_of_testAny h
              exact ⟨q, List.mem_cons_of_mem p hq, hpass⟩

theorem testAll_total {value : Option Value} :
    ∀ {ps : List Predicate}, (∀ p ∈ ps, ∃ b, p.test value = .ok b) →
      ∃ b, testAll ps value = .ok b
  | [], _ => ⟨true, rfl⟩
  | p :: ps, h => by
      obtain ⟨keep, hp⟩ := h p List.mem_cons_self
      cases keep with
      | false => exact ⟨false, by simp only [testAll, hp]⟩
      | true =>
          obtain ⟨b, hb⟩ := testAll_total fun q hq => h q (List.mem_cons_of_mem p hq)
          exact ⟨b, by simp only [testAll, hp, hb]⟩

theorem testAny_total {value : Option Value} :
    ∀ {ps : List Predicate}, (∀ p ∈ ps, ∃ b, p.test value = .ok b) →
      ∃ b, testAny ps value = .ok b
  | [], _ => ⟨false, rfl⟩
  | p :: ps, h => by
      obtain ⟨keep, hp⟩ := h p List.mem_cons_self
      cases keep with
      | true => exact ⟨true, by simp only [testAny, hp]⟩
      | false =>
          obtain ⟨b, hb⟩ := testAny_total fun q hq => h q (List.mem_cons_of_mem p hq)
          exact ⟨b, by simp only [testAny, hp, hb]⟩

/-- The filters of several predicates start with the filter of the first. -/
theorem filters_cons_eq_ok {field : String} {p : Predicate} {ps : List Predicate}
    {fs : List Filter} (h : filters field (p :: ps) = .ok fs) :
    ∃ f rest, p.filter field = .ok f ∧ filters field ps = .ok rest ∧ fs = f :: rest := by
  rw [filters] at h
  cases hp : p.filter field with
  | error e => simp [hp] at h
  | ok f =>
      cases hps : filters field ps with
      | error e => simp [hp, hps] at h
      | ok rest =>
          simp only [hp, hps, Except.ok.injEq] at h
          exact ⟨f, rest, rfl, rfl, h.symm⟩

/-- Every member has its filter among those of the members. -/
theorem filter_of_mem {field : String} {p : Predicate} :
    ∀ {ps : List Predicate} {fs : List Filter}, filters field ps = .ok fs → p ∈ ps →
      ∃ f ∈ fs, p.filter field = .ok f
  | [], _, _, hp => by cases hp
  | q :: qs, fs, h, hp => by
      obtain ⟨f, rest, hf, hrest, rfl⟩ := filters_cons_eq_ok h
      rcases List.mem_cons.mp hp with rfl | hp
      · exact ⟨f, List.mem_cons_self, hf⟩
      · obtain ⟨g, hg, heq⟩ := filter_of_mem hrest hp
        exact ⟨g, List.mem_cons_of_mem f hg, heq⟩

/-- Every filter of the members is the filter of one of them. -/
theorem mem_filters {field : String} {f : Filter} :
    ∀ {ps : List Predicate} {fs : List Filter}, filters field ps = .ok fs → f ∈ fs →
      ∃ p ∈ ps, p.filter field = .ok f
  | [], fs, h, hf => by
      simp only [filters, Except.ok.injEq] at h
      subst h
      cases hf
  | q :: qs, fs, h, hf => by
      obtain ⟨g, rest, hg, hrest, rfl⟩ := filters_cons_eq_ok h
      rcases List.mem_cons.mp hf with rfl | hf
      · exact ⟨q, List.mem_cons_self, hg⟩
      · obtain ⟨p, hp, heq⟩ := mem_filters hrest hf
        exact ⟨p, List.mem_cons_of_mem q hp, heq⟩

/-- What says the same of a member and of its filter says the same of all. -/
theorem forall_mem_filters_iff {ofFilter : Filter → Prop} {ofMember : Predicate → Prop}
    {field : String} {members : List Predicate} {fs : List Filter}
    (hfs : filters field members = .ok fs)
    (h : ∀ p ∈ members, ∀ f, p.filter field = .ok f → (ofFilter f ↔ ofMember p)) :
    (∀ f ∈ fs, ofFilter f) ↔ ∀ p ∈ members, ofMember p := by
  constructor
  · intro hall p hp
    obtain ⟨f, hf, hfilter⟩ := filter_of_mem hfs hp
    exact (h p hp f hfilter).mp (hall f hf)
  · intro hall f hf
    obtain ⟨p, hp, hfilter⟩ := mem_filters hfs hf
    exact (h p hp f hfilter).mpr (hall p hp)

theorem eq_nil_iff_of_filters {field : String} {members : List Predicate} {fs : List Filter}
    (hfs : filters field members = .ok fs) : fs = [] ↔ members = [] := by
  rw [List.eq_nil_iff_forall_not_mem, List.eq_nil_iff_forall_not_mem]
  exact forall_mem_filters_iff hfs fun _ _ _ _ => Iff.rfl

/-- Members that have filters have them all at once. -/
theorem filters_total {field : String} {members : List Predicate}
    (h : ∀ p ∈ members, ∃ f, p.filter field = .ok f) :
    ∃ fs, filters field members = .ok fs := by
  induction members with
  | nil => exact ⟨[], rfl⟩
  | cons p members ih =>
      rw [List.forall_mem_cons] at h
      obtain ⟨⟨f, hf⟩, hmembers⟩ := h
      obtain ⟨fs, hfs⟩ := ih hmembers
      exact ⟨f :: fs, by simp only [filters, hf, hfs]⟩

theorem filter_all_eq_ok {field : String} {ps : List Predicate} {f : Filter}
    (h : (Predicate.all ps).filter field = .ok f) :
    ∃ fs, filters field ps = .ok fs ∧ Filter.conjoin fs = f := by
  rw [filter] at h
  exact Outcome.map_eq_ok_iff.mp h

theorem filter_any_eq_ok {field : String} {ps : List Predicate} {f : Filter}
    (h : (Predicate.any ps).filter field = .ok f) :
    ∃ fs, filters field ps = .ok fs ∧ Filter.disjoin fs = f := by
  rw [filter] at h
  exact Outcome.map_eq_ok_iff.mp h

end Predicate
end Pushdown
