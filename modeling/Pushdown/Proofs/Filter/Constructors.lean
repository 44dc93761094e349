import Mathlib.Logic.Basic
import Pushdown.Proofs.Filter.Evaluation

/-!
# Normalizing constructors

A filter can be rendered if and only if its class is not the worst. The constructors prune a
filter up front, by its class; rendering a connective skips what has no text. Both come to the same
text. They come to the same class too, except that a conjunction which was pruned no
longer shows it: over exact members and such that cannot be pushed, the pruned one is exact.

## Results

* `Filter.isSome_render`: what can be rendered;
* `Filter.render_conjoin`, `Filter.render_disjoin`, `Filter.render_negate`: the same texts;
* `Filter.support_conjoin_eq_full_iff`: when a pruned conjunction is exact;
* `Filter.constructors_agree`: the constructors beside the plain variants.
-/

namespace Pushdown
namespace Filter

variable {var separator : String} {f : Filter} {fs : List Filter}

theorem isPushable_eq_false_iff : f.isPushable = false ↔ f.support = .none := by
  rw [← Bool.not_eq_true, isPushable_iff, not_not]

/-- The texts of several filters are those that there are. -/
theorem renderAll_eq_filterMap (fs : List Filter) :
    renderAll var fs = fs.filterMap (render var) := by
  induction fs with
  | nil => rfl
  | cons f fs ih =>
      rw [renderAll, List.filterMap_cons, ih]
      cases f.render var <;> rfl

theorem isSome_joinRendered {texts : List String} :
    (joinRendered separator texts).isSome = true ↔ texts ≠ [] := by
  match texts with
  | [] => simp [joinRendered]
  | [_] => simp [joinRendered]
  | _ :: _ :: _ => simp [joinRendered]

/-- Members can be joined if one of them has a text. -/
theorem isSome_joinRendered_renderAll (h : ∀ f ∈ fs, (f.render var).isSome = f.isPushable) :
    (joinRendered separator (renderAll var fs)).isSome = true ↔ ∃ f ∈ fs, f.isPushable = true := by
  rw [isSome_joinRendered, renderAll_eq_filterMap, Ne, List.filterMap_eq_nil_iff]
  simp only [← Option.not_isSome_iff_eq_none, not_forall, not_not, exists_prop]
  constructor
  · rintro ⟨f, hf, hsome⟩
    exact ⟨f, hf, h f hf ▸ hsome⟩
  · rintro ⟨f, hf, hpush⟩
    exact ⟨f, hf, (h f hf).trans hpush⟩

/-- The text of a conjunction joins those of its members, also when there are none. -/
theorem render_and_of (h : ∀ f ∈ fs, (f.render var).isSome = f.isPushable) :
    (and fs).render var = joinRendered " AND " (renderAll var fs) := by
  have hpush : (and fs).isPushable = true ↔ ∃ f ∈ fs, f.isPushable = true := isPushable_and_iff
  rw [isPushable, support] at hpush
  rw [render]
  split
  · rfl
  · next hlost =>
    rw [hpush, ← isSome_joinRendered_renderAll h] at hlost
    exact (Option.not_isSome_iff_eq_none.mp hlost).symm

theorem isSome_render_and (h : ∀ f ∈ fs, (f.render var).isSome = f.isPushable) :
    ((and fs).render var).isSome = (and fs).isPushable := by
  rw [render_and_of h, Bool.eq_iff_iff, isSome_joinRendered_renderAll h, isPushable_and_iff]

theorem render_or_eq :
    (or fs).render var =
      if (or fs).isPushable then joinRendered " OR " (renderAll var fs) else none := by
  rw [render, isPushable, support]

theorem isSome_render_or (h : ∀ f ∈ fs, (f.render var).isSome = f.isPushable) :
    ((or fs).render var).isSome = (or fs).isPushable := by
  rw [render_or_eq]
  split
  · next hpush =>
    obtain ⟨hne, hall⟩ := isPushable_or_iff.mp hpush
    obtain ⟨f, hf⟩ := List.exists_mem_of_ne_nil fs hne
    rw [hpush, isSome_joinRendered_renderAll h]
    exact ⟨f, hf, hall f hf⟩
  · next hlost => exact (Bool.eq_false_iff.mpr hlost).symm

mutual

/-- A filter has a text if and only if it can be pushed. -/
theorem isSome_render : ∀ f : Filter, (f.render var).isSome = f.isPushable
  | empty => rfl
  | equals _ value | lessThan _ value | greaterThan _ value =>
      (Support.isPushable_iff.mpr value.support_ne_none).symm
  | within _ values =>
      (Support.isPushable_iff.mpr
        (Support.joinAll_ne_none (Value.supports_ne_none values))).symm
  | contains _ _ | startsWith _ _ | endsWith _ _ | regex _ _ => rfl
  | not inner => by
      have ih := isSome_render inner
      rw [render, isPushable, support]
      split
      · next hfull =>
        -- an exact filter can be pushed, so that there is a text to negate
        rw [isPushable, beq_iff_eq.mp hfull] at ih
        obtain ⟨text, htext⟩ := Option.isSome_iff_exists.mp ih
        rw [htext]
        rfl
      · rfl
  | and members => isSome_render_and (isSome_renders members)
  | or members => isSome_render_or (isSome_renders members)

theorem isSome_renders : ∀ fs : List Filter, ∀ f ∈ fs, (f.render var).isSome = f.isPushable
  | [] => by simp
  | f :: fs => by
      rw [List.forall_mem_cons]
      exact ⟨isSome_render f, isSome_renders fs⟩

end

theorem render_eq_none_iff : f.render var = none ↔ f.isPushable = false := by
  have hsome : (f.render var).isSome = f.isPushable := isSome_render f
  rw [← hsome, Option.isSome_eq_false_iff, Option.isNone_iff_eq_none]

/-- The text of a conjunction joins those of its members. -/
theorem render_and (fs : List Filter) :
    (and fs).render var = joinRendered " AND " (renderAll var fs) :=
  render_and_of fun f _ => isSome_render f

/-- Members without a text are skipped. -/
theorem renderAll_filter_isPushable (fs : List Filter) :
    renderAll var (fs.filter isPushable) = renderAll var fs := by
  induction fs with
  | nil => rfl
  | cons f fs ih =>
      rw [List.filter_cons]
      split
      · rw [renderAll, renderAll, ih]
      · next hlost => rw [ih, renderAll, render_eq_none_iff.mpr (Bool.eq_false_iff.mpr hlost)]

theorem joinRendered_renderAll_singleton (f : Filter) :
    joinRendered separator (renderAll var [f]) = f.render var := by
  rw [renderAll, renderAll]
  cases f.render var <;> rfl

/-- A pruned conjunction has the text of the whole one. -/
theorem render_conjoin (fs : List Filter) : (conjoin fs).render var = (and fs).render var := by
  rw [render_and, ← renderAll_filter_isPushable]
  unfold conjoin
  split
  · next hnil => rw [hnil, render, renderAll, joinRendered]
  · next f hone => rw [hone, joinRendered_renderAll_singleton]
  · exact render_and _

/-- The class of a pruned conjunction is that of what can be pushed. -/
theorem support_conjoin (fs : List Filter) :
    (conjoin fs).support = Support.conjunction ((fs.filter isPushable).map support) := by
  unfold conjoin
  split
  · next hnil =>
    rw [hnil]
    rfl
  · next f hone =>
    rw [hone]
    refine Support.eq_of_iff ?_ ?_
    · simp [Support.conjunction_eq_none_iff]
    · simp [Support.conjunction_eq_full_iff]
  · exact support_and _

/-- A pruned conjunction is lost with all of its members. -/
theorem support_conjoin_eq_none_iff :
    (conjoin fs).support = .none ↔ ∀ f ∈ fs, f.support = .none := by
  rw [support_conjoin, Support.conjunction_eq_none_iff, List.forall_mem_map]
  refine forall_congr' fun f => ?_
  rw [List.mem_filter, isPushable_iff]
  constructor
  · intro h hf
    exact Decidable.byContradiction fun hkept => hkept (h ⟨hf, hkept⟩)
  · exact fun h hf => h hf.1

/-- A pruned conjunction is exact if some member is and what can be pushed is. -/
theorem support_conjoin_eq_full_iff :
    (conjoin fs).support = .full ↔
      (∃ f ∈ fs, f.support = .full) ∧ ∀ f ∈ fs, f.support ≠ .part := by
  have hkept : (∀ f ∈ fs.filter isPushable, f.support = .full) ↔ ∀ f ∈ fs, f.support ≠ .part := by
    refine forall_congr' fun f => ?_
    rw [List.mem_filter, isPushable_iff]
    cases f.support <;> simp
  rw [support_conjoin, Support.conjunction_eq_full_iff, List.forall_mem_map, hkept]
  refine and_congr_left fun hall => ?_
  rw [Ne, List.map_eq_nil_iff, List.filter_eq_nil_iff]
  simp only [not_forall, not_not, exists_prop]
  refine exists_congr fun f => and_congr_right fun hf => ?_
  have hpart := hall f hf
  rw [isPushable_iff]
  cases h : f.support <;> simp_all

/-- What becomes of a disjunction: it is given up, replaced by its only member or kept. -/
theorem disjoin_cases (fs : List Filter) :
    (or fs).isPushable = false ∧ disjoin fs = empty ∨ fs = [disjoin fs] ∨ disjoin fs = or fs := by
  by_cases hall : fs.all isPushable = true
  · match fs with
    | [] => exact .inl ⟨rfl, rfl⟩
    | [f] => exact .inr (.inl (congrArg (fun g => [g]) (if_pos hall).symm))
    | f :: g :: fs => exact .inr (.inr (if_pos hall))
  · refine .inl ⟨?_, if_neg hall⟩
    rw [Bool.eq_false_iff, Ne, isPushable_or_iff]
    exact fun h => hall (List.all_eq_true.mpr h.2)

theorem support_or_singleton (f : Filter) : (or [f]).support = f.support := by
  rw [support_or, List.map_singleton]
  refine Support.eq_of_iff ?_ ?_
  · simp [Support.disjunction_eq_none_iff, @eq_comm _ Support.none]
  · simp [Support.disjunction_eq_full_iff]

theorem render_or_singleton (f : Filter) : (or [f]).render var = f.render var := by
  rw [render_or_eq, joinRendered_renderAll_singleton, isPushable, support_or_singleton]
  split
  · rfl
  · next hlost => exact (render_eq_none_iff.mpr (Bool.eq_false_iff.mpr hlost)).symm

/-- A disjunction has the class of its plain variant. -/
theorem support_disjoin (fs : List Filter) : (disjoin fs).support = (or fs).support := by
  rcases disjoin_cases fs with ⟨hlost, hempty⟩ | hone | hkept
  · rw [hempty, isPushable_eq_false_iff.mp hlost, support]
  · rw [congrArg or hone, support_or_singleton]
  · rw [hkept]

/-- A disjunction has the text of its plain variant. -/
theorem render_disjoin (fs : List Filter) : (disjoin fs).render var = (or fs).render var := by
  rcases disjoin_cases fs with ⟨hlost, hempty⟩ | hone | hkept
  · rw [hempty, render, render_eq_none_iff.mpr hlost]
  · rw [congrArg or hone, render_or_singleton]
  · rw [hkept]

/-- A negation has the class of its plain variant. -/
theorem support_negate (f : Filter) : (negate f).support = (not f).support := by
  unfold negate
  split
  · rfl
  · next h => rw [support, support, if_neg h]

/-- A negation has the text of its plain variant. -/
theorem render_negate (f : Filter) : (negate f).render var = (not f).render var := by
  unfold negate
  split
  · rfl
  · next h => rw [render, render, if_neg h]

/-- Exact members stand beside such that cannot be pushed, and nothing stands between. -/
def MixesExact (fs : List Filter) : Prop :=
  (∃ f ∈ fs, f.support = .none) ∧ (∃ f ∈ fs, f.support = .full) ∧ ∀ f ∈ fs, f.support ≠ .part

instance (fs : List Filter) : Decidable (MixesExact fs) :=
  inferInstanceAs (Decidable (_ ∧ _ ∧ _))

example : MixesExact [contains "name" "a", empty] := by decide

/-- The plain conjunction is exact only if nothing is left out. -/
theorem support_conjoin_of_mixesExact (h : MixesExact fs) :
    (conjoin fs).support = .full ∧ (and fs).support = .part := by
  obtain ⟨⟨f, hf, hlost⟩, ⟨g, hg, hexact⟩, hpart⟩ := h
  refine ⟨support_conjoin_eq_full_iff.mpr ⟨⟨g, hg, hexact⟩, hpart⟩, ?_⟩
  have hnone : (and fs).support ≠ .none := by
    rw [support_and, Ne, Support.conjunction_eq_none_iff, List.forall_mem_map]
    intro hall
    rw [hall g hg] at hexact
    cases hexact
  have hfull : (and fs).support ≠ .full := by
    rw [support_and, Ne, Support.conjunction_eq_full_iff, List.forall_mem_map]
    rintro ⟨-, hall⟩
    rw [hall f hf] at hlost
    cases hlost
  cases h : (and fs).support with
  | none => exact absurd h hnone
  | part => rfl
  | full => exact absurd h hfull

theorem support_conjoin_of_not_mixesExact (h : ¬ MixesExact fs) :
    (conjoin fs).support = (and fs).support := by
  refine Support.eq_of_iff ?_ ?_
  · rw [support_conjoin_eq_none_iff, support_and, Support.conjunction_eq_none_iff,
      List.forall_mem_map]
  · rw [support_conjoin_eq_full_iff, support_and, Support.conjunction_eq_full_iff,
      List.forall_mem_map, Ne, List.map_eq_nil_iff]
    constructor
    · rintro ⟨hexact, hpart⟩
      have hnone : ∀ f ∈ fs, f.support ≠ .none := fun f hf hlost =>
        h ⟨⟨f, hf, hlost⟩, hexact, hpart⟩
      refine ⟨?_, fun f hf => ?_⟩
      · rintro rfl
        simp at hexact
      · have := hnone f hf
        have := hpart f hf
        cases hf : f.support <;> simp_all
    · rintro ⟨hne, hall⟩
      obtain ⟨f, hf⟩ := List.exists_mem_of_ne_nil fs hne
      exact ⟨⟨f, hf, hall f hf⟩, fun g hg => by simp [hall g hg]⟩

/-- The constructors come to the same texts as the plain variants, and to the same classes except
for conjunctions that mix exact members with such that cannot be pushed. -/
theorem constructors_agree (var : String) (f : Filter) (fs : List Filter) :
    (f.render var ≠ none ↔ f.support ≠ .none) ∧
      (conjoin fs).render var = (and fs).render var ∧
      (disjoin fs).render var = (or fs).render var ∧
      (negate f).render var = (not f).render var ∧
      (disjoin fs).support = (or fs).support ∧ (negate f).support = (not f).support ∧
      (¬MixesExact fs ∧ (conjoin fs).support = (and fs).support ∨
        MixesExact fs ∧ (conjoin fs).support = .full ∧ (and fs).support = .part) := by
  refine ⟨?_, render_conjoin fs, render_disjoin fs, render_negate f, support_disjoin fs,
    support_negate f, ?_⟩
  · rw [Ne, render_eq_none_iff, Bool.not_eq_false, isPushable_iff]
  · by_cases h : MixesExact fs
    · exact .inr ⟨h, support_conjoin_of_mixesExact h⟩
    · exact .inl ⟨h, support_conjoin_of_not_mixesExact h⟩

end Filter
end Pushdown
