import Pushdown.Filter.Basic
import Pushdown.Proofs.Value.Support

/-!
# Exactness of nested filters

A conjunction leaves out what cannot be pushed and is exact only if nothing had to be left
out; a disjunction is lost with one of its members. Neither is a plain minimum, but both can
be described by when they are lost and when they are exact, and a class of three is determined by
these two. A filter that becomes less exact somewhere inside becomes no more exact as a
whole.

## Results

* `Support.le_iff`: the order, by the worst and the best class;
* `Support.conjunction_eq_none_iff`, `Support.conjunction_eq_full_iff`,
  `Support.disjunction_eq_none_iff`, `Support.disjunction_eq_full_iff`: the classes of connectives;
* `Filter.exists_fill_iff`: every filter in a filter has a place there;
* `Filter.support_fill_le`: exactness is monotone in every place.
-/

namespace Pushdown

namespace Support

variable {a b : Support} {supports before after : List Support}

/-- A class is below another if it is lost whenever the other is, and the other is exact whenever
it is. -/
theorem le_iff : a ≤ b ↔ (b = none → a = none) ∧ (a = full → b = full) := by
  cases a <;> cases b <;> decide

/-- When it is lost and when it is exact determines a class. -/
theorem eq_of_iff (hnone : a = none ↔ b = none) (hfull : a = full ↔ b = full) : a = b := by
  cases a <;> cases b <;> simp_all

theorem join_eq_none_iff : join a b = none ↔ a = none ∨ b = none := by
  cases a <;> cases b <;> decide

theorem join_part_ne_full : join a part ≠ full := by
  cases a <;> decide

theorem joinAll_eq_full_iff : joinAll supports = full ↔ ∀ s ∈ supports, s = full := by
  induction supports with
  | nil => simp [joinAll]
  | cons s supports ih => simp [joinAll_cons_eq_full_iff, ih]

theorem joinAll_eq_none_iff : joinAll supports = none ↔ none ∈ supports := by
  induction supports with
  | nil => simp [joinAll]
  | cons s supports ih => simp [joinAll_cons, join_eq_none_iff, ih, @eq_comm _ s]

theorem isPushable_iff : a.isPushable = true ↔ a ≠ none := bne_iff_ne

theorem filter_isPushable_eq_nil_iff :
    supports.filter isPushable = [] ↔ ∀ s ∈ supports, s = none := by
  simp [List.filter_eq_nil_iff, isPushable]

theorem length_filter_isPushable_lt_iff :
    (supports.filter isPushable).length < supports.length ↔ none ∈ supports := by
  rw [List.length_filter_lt_length_iff_exists]
  simp [isPushable]

/-- A conjunction is lost with all of its members. -/
theorem conjunction_eq_none_iff : conjunction supports = none ↔ ∀ s ∈ supports, s = none := by
  have hkept : joinAll (supports.filter isPushable) ≠ none := by
    rw [Ne, joinAll_eq_none_iff]
    simp [isPushable]
  rw [← filter_isPushable_eq_nil_iff]
  simp only [conjunction, List.isEmpty_iff]
  split
  · next hnil => simp [hnil]
  · next hne =>
    split
    · simp [join_eq_none_iff, hkept, hne]
    · simp [hkept, hne]

/-- A conjunction is exact if it has members and all of them are. -/
theorem conjunction_eq_full_iff :
    conjunction supports = full ↔ supports ≠ [] ∧ ∀ s ∈ supports, s = full := by
  simp only [conjunction, List.isEmpty_iff]
  split
  · next hnil =>
    -- what is left out would be exact
    rw [filter_isPushable_eq_nil_iff] at hnil
    cases supports with
    | nil => simp
    | cons s supports => simp [hnil s List.mem_cons_self]
  · next hne =>
    have hnonempty : supports ≠ [] := by
      rintro rfl
      exact hne rfl
    split
    · next hdropped =>
      rw [length_filter_isPushable_lt_iff] at hdropped
      have hlost : ¬∀ s ∈ supports, s = full := fun hall => nomatch hall none hdropped
      simp [join_part_ne_full, hlost]
    · next hkept =>
      rw [length_filter_isPushable_lt_iff] at hkept
      have hall : supports.filter isPushable = supports := by
        rw [List.filter_eq_self]
        exact fun s hs => isPushable_iff.mpr fun h => hkept (h ▸ hs)
      simp [hall, joinAll_eq_full_iff, hnonempty]

/-- A disjunction is lost with one of its members, or without any. -/
theorem disjunction_eq_none_iff :
    disjunction supports = none ↔ supports = [] ∨ none ∈ supports := by
  cases supports with
  | nil => simp [disjunction]
  | cons s supports => simp [disjunction, joinAll_eq_none_iff]

/-- A disjunction is exact if it has members and all of them are. -/
theorem disjunction_eq_full_iff :
    disjunction supports = full ↔ supports ≠ [] ∧ ∀ s ∈ supports, s = full := by
  cases supports with
  | nil => simp [disjunction]
  | cons s supports => simp [disjunction, joinAll_eq_full_iff]

/-- A conjunction is monotone in each of its members. -/
theorem conjunction_mono (h : a ≤ b) :
    conjunction (before ++ a :: after) ≤ conjunction (before ++ b :: after) := by
  obtain ⟨hnone, hfull⟩ := le_iff.mp h
  refine le_iff.mpr ⟨fun hlost => ?_, fun hexact => ?_⟩
  · rw [conjunction_eq_none_iff, List.forall_mem_append, List.forall_mem_cons] at hlost ⊢
    obtain ⟨hbefore, hb, hafter⟩ := hlost
    exact ⟨hbefore, hnone hb, hafter⟩
  · rw [conjunction_eq_full_iff, List.forall_mem_append, List.forall_mem_cons] at hexact ⊢
    obtain ⟨-, hbefore, ha, hafter⟩ := hexact
    exact ⟨by simp, hbefore, hfull ha, hafter⟩

/-- A disjunction is monotone in each of its members. -/
theorem disjunction_mono (h : a ≤ b) :
    disjunction (before ++ a :: after) ≤ disjunction (before ++ b :: after) := by
  obtain ⟨hnone, hfull⟩ := le_iff.mp h
  refine le_iff.mpr ⟨fun hlost => ?_, fun hexact => ?_⟩
  · rw [disjunction_eq_none_iff, List.mem_append, List.mem_cons] at hlost ⊢
    rcases hlost with hnil | hbefore | hb | hafter
    · simp at hnil
    · exact .inr (.inl hbefore)
    · exact .inr (.inr (.inl (hnone hb.symm).symm))
    · exact .inr (.inr (.inr hafter))
  · rw [disjunction_eq_full_iff, List.forall_mem_append, List.forall_mem_cons] at hexact ⊢
    obtain ⟨-, hbefore, ha, hafter⟩ := hexact
    exact ⟨by simp, hbefore, hfull ha, hafter⟩

end Support

namespace Filter

/-- A filter with one place left open. -/
inductive Context where
  | hole
  | not (inner : Context)
  | and (before : List Filter) (inner : Context) (after : List Filter)
  | or (before : List Filter) (inner : Context) (after : List Filter)

/-- The filter that has a given one in the open place. -/
def Context.fill (f : Filter) : Context → Filter
  | hole => f
  | not inner => .not (inner.fill f)
  | and before inner after => .and (before ++ inner.fill f :: after)
  | or before inner after => .or (before ++ inner.fill f :: after)

/-- A filter stands somewhere in another. -/
inductive Inside (f : Filter) : Filter → Prop
  | self : Inside f f
  | not {inner : Filter} : Inside f inner → Inside f (.not inner)
  | and {members : List Filter} {g : Filter} : g ∈ members → Inside f g → Inside f (.and members)
  | or {members : List Filter} {g : Filter} : g ∈ members → Inside f g → Inside f (.or members)

/-- Every filter in a filter has a place there. -/
theorem exists_fill_iff {f g : Filter} : (∃ place : Context, place.fill f = g) ↔ Inside f g := by
  constructor
  · rintro ⟨place, rfl⟩
    induction place with
    | hole => exact .self
    | not inner ih => exact .not ih
    | and before inner after ih => exact .and (by simp) ih
    | or before inner after ih => exact .or (by simp) ih
  · intro h
    induction h with
    | self => exact ⟨.hole, rfl⟩
    | not _ ih =>
        obtain ⟨place, rfl⟩ := ih
        exact ⟨.not place, rfl⟩
    | and hmem _ ih =>
        obtain ⟨place, rfl⟩ := ih
        obtain ⟨before, after, rfl⟩ := List.append_of_mem hmem
        exact ⟨.and before place after, rfl⟩
    | or hmem _ ih =>
        obtain ⟨place, rfl⟩ := ih
        obtain ⟨before, after, rfl⟩ := List.append_of_mem hmem
        exact ⟨.or before place after, rfl⟩

theorem supports_eq_map (fs : List Filter) : supports fs = fs.map support := by
  induction fs with
  | nil => rfl
  | cons f fs ih => rw [supports, ih, List.map_cons]

theorem support_and (fs : List Filter) :
    (and fs).support = Support.conjunction (fs.map support) := by
  rw [support, supports_eq_map]

theorem support_or (fs : List Filter) :
    (or fs).support = Support.disjunction (fs.map support) := by
  rw [support, supports_eq_map]

theorem isPushable_iff {f : Filter} : f.isPushable = true ↔ f.support ≠ .none :=
  Support.isPushable_iff

/-- A conjunction can be pushed if a member can. -/
theorem isPushable_and_iff {fs : List Filter} :
    (and fs).isPushable = true ↔ ∃ f ∈ fs, f.isPushable = true := by
  simp [isPushable_iff, support_and, Support.conjunction_eq_none_iff]

/-- A disjunction can be pushed if it has members and all of them can. -/
theorem isPushable_or_iff {fs : List Filter} :
    (or fs).isPushable = true ↔ fs ≠ [] ∧ ∀ f ∈ fs, f.isPushable = true := by
  simp only [isPushable_iff, support_or, Ne, Support.disjunction_eq_none_iff]
  simp

/-- A negation is exact over an exact filter, and lost otherwise. -/
theorem support_not_mono {f g : Filter} (h : f.support ≤ g.support) :
    (not f).support ≤ (not g).support := by
  obtain ⟨-, hfull⟩ := Support.le_iff.mp h
  simp only [support, Support.isFull, beq_iff_eq]
  split
  · next hf => simp [hfull hf, Support.le_iff]
  · simp [Support.le_iff]

/-- With a less exact filter in one place, a filter is no more exact. -/
theorem support_fill_le {less more : Filter} (h : less.support ≤ more.support) (place : Context) :
    (place.fill less).support ≤ (place.fill more).support := by
  induction place with
  | hole => exact h
  | not inner ih => exact support_not_mono ih
  | and before inner after ih =>
      simp only [Context.fill, support_and, List.map_append, List.map_cons]
      exact Support.conjunction_mono ih
  | or before inner after ih =>
      simp only [Context.fill, support_or, List.map_append, List.map_cons]
      exact Support.disjunction_mono ih

/-- Under a negation, a member that is no longer exact costs the whole. -/
theorem support_fill_le_negated :
    (equals "name" .null).support ≤ (contains "name" "a").support ∧
      ((Context.not (.and [] .hole [endsWith "name" "b"])).fill (equals "name" .null)).support ≤
        ((Context.not (.and [] .hole [endsWith "name" "b"])).fill (contains "name" "a")).support :=
  ⟨by decide, support_fill_le (by decide) _⟩

end Filter
end Pushdown
