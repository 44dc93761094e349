import Pushdown.Plan.Scan
import Pushdown.Proofs.Config.Validation
import Pushdown.Proofs.Filter.Constructors
import Pushdown.Proofs.Predicate.Total

/-!
# Exactness of predicates and plans

A conjunction keeps the members that can be pushed and leaves the others to the re-check; its class
is that of what it keeps. What is pushed of a predicate is thus a predicate of its own, with
the same filter, and that filter is exact if and only if the comparisons which are left are, and
no connective that is left is empty. A plan does the same with its containers.

## Results

* `Predicate.filter_pushedPart`: what is pushed has the filter of the whole predicate;
* `Predicate.support_eq_full_iff`: a filter is exact if what is pushed is exact throughout;
* `Predicate.pushedPart_eq_self`: a predicate of which nothing is dropped is pushed as it is;
* `GraphConfig.support_plan_eq_full_iff`: when a plan is exact;
* `GraphConfig.exact_iff_pushedPart`: predicates and plans together.
-/

namespace Pushdown

/-- Pruning a second time changes nothing. -/
theorem Filter.conjoin_filter_isPushable (fs : List Filter) :
    conjoin (fs.filter isPushable) = conjoin fs := by
  simp [conjoin, List.filter_filter]

namespace Predicate

/-- A node of a predicate. -/
inductive Node (q : Predicate) : Predicate → Prop
  | root : Node q q
  | all {members : List Predicate} {p : Predicate} : p ∈ members → Node q p → Node q (.all members)
  | any {members : List Predicate} {p : Predicate} : p ∈ members → Node q p → Node q (.any members)

/-- A comparison has an exact filter of its own; a connective has members. -/
def ExactNode (field : String) : Predicate → Prop
  | compare op operand => ∃ f, (compare op operand).filter field = .ok f ∧ f.support = .full
  | all members => members ≠ []
  | any members => members ≠ []

/-- Every node is exact. -/
def ExactThroughout (field : String) (p : Predicate) : Prop := ∀ q, Node q p → ExactNode field q

/-- Whether the filter of a predicate can be pushed. -/
def pushes (field : String) (p : Predicate) : Bool :=
  match p.filter field with
  | .ok f => f.isPushable
  | .error _ => false

mutual

/-- What is pushed of a predicate: conjunctions keep the members that can be pushed. -/
def pushedPart (field : String) : Predicate → Predicate
  | compare op operand => compare op operand
  | all members => all (pushedMembers field members)
  | any members => any (pushedParts field members)

/-- What is pushed of the members that can be pushed. -/
def pushedMembers (field : String) : List Predicate → List Predicate
  | [] => []
  | p :: ps =>
      if pushes field p then pushedPart field p :: pushedMembers field ps
      else pushedMembers field ps

/-- What is pushed of every member. -/
def pushedParts (field : String) : List Predicate → List Predicate
  | [] => []
  | p :: ps => pushedPart field p :: pushedParts field ps

end

/-- A conjunction somewhere in a predicate has a member that cannot be pushed. -/
def Drops (field : String) (p : Predicate) : Prop :=
  ∃ members, Node (.all members) p ∧ ∃ q ∈ members, pushes field q = false

variable {field op : String} {operand : Value} {p : Predicate} {members : List Predicate}
  {f : Filter} {fs : List Filter}

theorem exactThroughout_compare_iff :
    ExactThroughout field (compare op operand) ↔ ExactNode field (compare op operand) := by
  constructor
  · exact fun h => h _ .root
  · intro h q hq
    cases hq
    exact h

theorem exactThroughout_all_iff :
    ExactThroughout field (all members) ↔
      members ≠ [] ∧ ∀ p ∈ members, ExactThroughout field p := by
  constructor
  · exact fun h => ⟨h _ .root, fun p hp q hq => h q (.all hp hq)⟩
  · rintro ⟨hne, hall⟩ q hq
    cases hq with
    | root => exact hne
    | all hp hq => exact hall _ hp q hq

theorem exactThroughout_any_iff :
    ExactThroughout field (any members) ↔
      members ≠ [] ∧ ∀ p ∈ members, ExactThroughout field p := by
  constructor
  · exact fun h => ⟨h _ .root, fun p hp q hq => h q (.any hp hq)⟩
  · rintro ⟨hne, hall⟩ q hq
    cases hq with
    | root => exact hne
    | any hp hq => exact hall _ hp q hq

theorem pushes_eq (h : p.filter field = .ok f) : pushes field p = f.isPushable := by
  rw [pushes, h]

theorem pushedMembers_eq (ps : List Predicate) :
    pushedMembers field ps = (ps.filter (pushes field)).map (pushedPart field) := by
  induction ps with
  | nil => rfl
  | cons p ps ih =>
      rw [pushedMembers, List.filter_cons, ih]
      split <;> rfl

theorem pushedParts_eq (ps : List Predicate) :
    pushedParts field ps = ps.map (pushedPart field) := by
  induction ps with
  | nil => rfl
  | cons p ps ih => rw [pushedParts, List.map_cons, ih]

/-- Members whose filters are kept are pushed with those of their filters that can be pushed. -/
theorem filters_pushedMembers (hfs : filters field members = .ok fs)
    (hkept : ∀ p ∈ members, ∀ f, p.filter field = .ok f →
      (p.pushedPart field).filter field = .ok f) :
    filters field (pushedMembers field members) = .ok (fs.filter Filter.isPushable) := by
  induction members generalizing fs with
  | nil =>
      cases hfs
      rfl
  | cons p members ih =>
      obtain ⟨f, rest, hf, hrest, rfl⟩ := filters_cons_eq_ok hfs
      rw [List.forall_mem_cons] at hkept
      have hmembers := ih hrest hkept.2
      rw [pushedMembers, pushes_eq hf, List.filter_cons]
      split
      · simp only [filters, hkept.1 f hf, hmembers]
      · exact hmembers

theorem filters_pushedParts (hfs : filters field members = .ok fs)
    (hkept : ∀ p ∈ members, ∀ f, p.filter field = .ok f →
      (p.pushedPart field).filter field = .ok f) :
    filters field (pushedParts field members) = .ok fs := by
  induction members generalizing fs with
  | nil => exact hfs
  | cons p members ih =>
      obtain ⟨f, rest, hf, hrest, rfl⟩ := filters_cons_eq_ok hfs
      rw [List.forall_mem_cons] at hkept
      simp only [pushedParts, filters, hkept.1 f hf, ih hrest hkept.2]

/-- What is pushed of a predicate has the same filter. -/
theorem filter_pushedPart (h : p.filter field = .ok f) :
    (p.pushedPart field).filter field = .ok f := by
  induction p using memberInduction generalizing f with
  | compare op operand => exact h
  | all members ih =>
      obtain ⟨fs, hfs, rfl⟩ := filter_all_eq_ok h
      rw [pushedPart, filter, filters_pushedMembers hfs fun p hp _ => ih p hp, Except.map,
        Filter.conjoin_filter_isPushable]
  | any members ih =>
      obtain ⟨fs, hfs, rfl⟩ := filter_any_eq_ok h
      rw [pushedPart, filter, filters_pushedParts hfs fun p hp _ => ih p hp, Except.map]

/-- A filter is exact if and only if what is pushed of its predicate is exact throughout. -/
theorem support_eq_full_iff (h : p.filter field = .ok f) :
    f.support = .full ↔ ExactThroughout field (p.pushedPart field) := by
  induction p using memberInduction generalizing f with
  | compare op operand =>
      rw [pushedPart, exactThroughout_compare_iff, ExactNode]
      simp [h]
  | all members ih =>
      obtain ⟨fs, hfs, rfl⟩ := filter_all_eq_ok h
      -- what cannot be pushed is neither in the filter nor in what is pushed
      have hnil : fs.filter Filter.isPushable = [] ↔ members.filter (pushes field) = [] := by
        rw [List.filter_eq_nil_iff, List.filter_eq_nil_iff]
        exact forall_mem_filters_iff hfs fun p _ f hf => by rw [pushes_eq hf]
      have hall : (∀ f ∈ fs.filter Filter.isPushable, f.support = .full) ↔
          ∀ p ∈ members.filter (pushes field), ExactThroughout field (p.pushedPart field) := by
        simp only [List.mem_filter, and_imp]
        exact forall_mem_filters_iff hfs fun p hp f hf => by rw [pushes_eq hf, ih p hp hf]
      rw [Filter.support_conjoin, Support.conjunction_eq_full_iff, List.forall_mem_map, pushedPart,
        pushedMembers_eq, exactThroughout_all_iff, List.forall_mem_map, hall, Ne, Ne,
        List.map_eq_nil_iff, List.map_eq_nil_iff, hnil]
  | any members ih =>
      obtain ⟨fs, hfs, rfl⟩ := filter_any_eq_ok h
      have hall : (∀ f ∈ fs, f.support = .full) ↔
          ∀ p ∈ members, ExactThroughout field (p.pushedPart field) :=
        forall_mem_filters_iff hfs fun p hp f hf => ih p hp hf
      rw [Filter.support_disjoin, Filter.support_or, Support.disjunction_eq_full_iff,
        List.forall_mem_map, pushedPart, pushedParts_eq, exactThroughout_any_iff,
        List.forall_mem_map, hall, Ne, Ne, List.map_eq_nil_iff, List.map_eq_nil_iff,
        eq_nil_iff_of_filters hfs]

/-- The members of a connective with exact members have exact filters. -/
theorem exact_filters_of_members
    (h : ∀ p ∈ members, ∃ f, p.filter field = .ok f ∧ f.support = .full) :
    ∃ fs, filters field members = .ok fs ∧ ∀ f ∈ fs, f.support = .full := by
  have htotal : ∀ p ∈ members, ∃ f, p.filter field = .ok f := by
    intro p hp
    obtain ⟨f, hf, -⟩ := h p hp
    exact ⟨f, hf⟩
  obtain ⟨fs, hfs⟩ := filters_total htotal
  refine ⟨fs, hfs, fun f hf => ?_⟩
  obtain ⟨p, hp, hfilter⟩ := mem_filters hfs hf
  obtain ⟨g, hg, hfull⟩ := h p hp
  rw [hg] at hfilter
  cases hfilter
  exact hfull

/-- A predicate that is exact throughout has an exact filter. -/
theorem exact_filter_of_exactThroughout (h : ExactThroughout field p) :
    ∃ f, p.filter field = .ok f ∧ f.support = .full := by
  induction p using memberInduction with
  | compare op operand => exact exactThroughout_compare_iff.mp h
  | all members ih =>
      obtain ⟨hne, hall⟩ := exactThroughout_all_iff.mp h
      obtain ⟨fs, hfs, hexact⟩ := exact_filters_of_members fun p hp => ih p hp (hall p hp)
      refine ⟨.conjoin fs, by rw [filter, hfs, Except.map], ?_⟩
      obtain ⟨f, hf⟩ := List.exists_mem_of_ne_nil fs (mt (eq_nil_iff_of_filters hfs).mp hne)
      exact Filter.support_conjoin_eq_full_iff.mpr
        ⟨⟨f, hf, hexact f hf⟩, fun g hg => by simp [hexact g hg]⟩
  | any members ih =>
      obtain ⟨hne, hall⟩ := exactThroughout_any_iff.mp h
      obtain ⟨fs, hfs, hexact⟩ := exact_filters_of_members fun p hp => ih p hp (hall p hp)
      refine ⟨.disjoin fs, by rw [filter, hfs, Except.map], ?_⟩
      rw [Filter.support_disjoin, Filter.support_or, Support.disjunction_eq_full_iff,
        List.forall_mem_map, Ne, List.map_eq_nil_iff, eq_nil_iff_of_filters hfs]
      exact ⟨hne, hexact⟩

theorem drops_of_mem_all (hp : p ∈ members) (h : Drops field p) : Drops field (all members) := by
  obtain ⟨inner, hnode, hlost⟩ := h
  exact ⟨inner, .all hp hnode, hlost⟩

theorem drops_of_mem_any (hp : p ∈ members) (h : Drops field p) : Drops field (any members) := by
  obtain ⟨inner, hnode, hlost⟩ := h
  exact ⟨inner, .any hp hnode, hlost⟩

/-- A predicate of which nothing is dropped is pushed as it is. -/
theorem pushedPart_eq_self (h : ¬ Drops field p) : p.pushedPart field = p := by
  induction p using memberInduction with
  | compare op operand => rfl
  | all members ih =>
      have hkept : members.filter (pushes field) = members := by
        rw [List.filter_eq_self]
        intro p hp
        exact (Bool.not_eq_false _).mp fun hlost => h ⟨members, .root, p, hp, hlost⟩
      have hself : ∀ p ∈ members, p.pushedPart field = p := fun p hp =>
        ih p hp fun hdrops => h (drops_of_mem_all hp hdrops)
      rw [pushedPart, pushedMembers_eq, hkept, List.map_congr_left hself, List.map_id']
  | any members ih =>
      have hself : ∀ p ∈ members, p.pushedPart field = p := fun p hp =>
        ih p hp fun hdrops => h (drops_of_mem_any hp hdrops)
      rw [pushedPart, pushedParts_eq, List.map_congr_left hself, List.map_id']

end Predicate

namespace GraphConfig

variable {config : GraphConfig} {kind : ElementKind} {ids : List String}
  {containers : List HasContainer} {collections : List String} {plan : ScanPlan}

/-- A plan is exact if and only if some container is, and every one that is pushed. -/
theorem support_plan_eq_full_iff (h : config.plan kind ids containers collections = .ok plan) :
    plan.support = .full ↔
      (∃ planned ∈ plan.predicates, planned.support = .full) ∧
        ∀ planned ∈ plan.predicates, planned.support ≠ .part := by
  obtain ⟨planned, -, h⟩ := Outcome.bind_eq_ok_iff.mp h
  obtain ⟨query, -, h⟩ := Outcome.bind_eq_ok_iff.mp h
  cases h
  simp only [Filter.support_conjoin_eq_full_iff, List.mem_map, exists_exists_and_eq_and,
    forall_exists_index, and_imp, forall_apply_eq_imp_iff₂]
  rfl

/-- The filter of a predicate is that of what is pushed of it, and exact if and only if this is
exact throughout. It is exact if the predicate is; where no conjunction drops a member, what is
pushed is the predicate itself. A plan is exact if and only if some container is, and every one
that is pushed. -/
theorem exact_iff_pushedPart :
    (∀ (field : String) (p : Predicate) (f : Filter), p.filter field = .ok f →
      (p.pushedPart field).filter field = .ok f ∧
        (f.support = .full ↔ (p.pushedPart field).ExactThroughout field) ∧
        (p.ExactThroughout field → f.support = .full) ∧
        (¬ p.Drops field → p.pushedPart field = p)) ∧
    ∀ (config : GraphConfig) (kind : ElementKind) (ids : List String)
      (containers : List HasContainer) (collections : List String) (plan : ScanPlan),
      config.plan kind ids containers collections = .ok plan →
        (plan.support = .full ↔
          (∃ planned ∈ plan.predicates, planned.support = .full) ∧
            ∀ planned ∈ plan.predicates, planned.support ≠ .part) := by
  constructor
  · intro field p f h
    refine ⟨Predicate.filter_pushedPart h, Predicate.support_eq_full_iff h, fun hexact => ?_,
      Predicate.pushedPart_eq_self⟩
    obtain ⟨g, hg, hfull⟩ := Predicate.exact_filter_of_exactThroughout hexact
    rw [h] at hg
    cases hg
    exact hfull
  · intro config kind ids containers collections plan h
    exact support_plan_eq_full_iff h

/-- Above one, and not null: the second comparison cannot be pushed. -/
def aboveOne : Predicate := .all [.compare "gt" (.int32 1), .compare "neq" .null]

/-- The same two comparisons as containers of a scan. -/
def aboveOneContainers : List HasContainer :=
  [⟨.property "age", .compare "gt" (.int32 1)⟩, ⟨.property "age", .compare "neq" .null⟩]

theorem exact_iff_pushedPart_aboveOne :
    aboveOne.filter "age" = .ok (.greaterThan "age" (.int32 1)) ∧
      ((aboveOne.pushedPart "age").ExactThroughout "age") ∧
      ∃ plan, standard.plan .vertex [] aboveOneContainers ["vertex"] = .ok plan ∧
        plan.support = .full := by
  have hfilter : aboveOne.filter "age" = .ok (.greaterThan "age" (.int32 1)) := rfl
  obtain ⟨plan, hplan⟩ :
      ∃ plan, standard.plan .vertex [] aboveOneContainers ["vertex"] = .ok plan := ⟨_, rfl⟩
  obtain ⟨hpredicate, hplanned⟩ := exact_iff_pushedPart
  refine ⟨hfilter, (hpredicate "age" aboveOne _ hfilter).2.1.mp rfl, plan, hplan, ?_⟩
  rw [hplanned _ _ _ _ _ _ hplan]
  cases hplan
  exact ⟨⟨_, List.mem_cons_self, rfl⟩, by decide⟩

/-- A filter is exact although a comparison of its predicate, on its own, is lost. So is a plan. -/
theorem exact_despite_dropped :
    (∃ f, aboveOne.filter "age" = .ok f ∧ f.support = .full ∧
      ¬ aboveOne.ExactThroughout "age") ∧
    ∃ plan, standard.plan .vertex [] aboveOneContainers ["vertex"] = .ok plan ∧
      plan.support = .full ∧ ∃ planned ∈ plan.predicates, planned.support ≠ .full := by
  refine ⟨⟨_, rfl, rfl, ?_⟩, _, rfl, rfl, _, .tail _ (.head _), by decide⟩
  rw [aboveOne, Predicate.exactThroughout_all_iff, List.forall_mem_cons, List.forall_mem_singleton]
  rintro ⟨-, -, hnull⟩
  obtain ⟨f, hf, hfull⟩ := Predicate.exactThroughout_compare_iff.mp hnull
  cases hf
  cases hfull

end GraphConfig
end Pushdown
