import Pushdown.Graph.Run
import Pushdown.Proofs.Outcome

/-!
# What absorption does

A scan meets the containers of the filter steps after it one by one. Each of them names the
ids, narrows the collections, is taken in, or is left where it was; labels of emptied steps
come in between. A pass is a sequence of such steps, and what every step keeps, a pass keeps.

## Results

* `absorbs_of_absorb`: the four things that happen to a container;
* `pass_of_absorbSteps`: the filter steps at the start of a traversal make up a pass;
* `pass_of_pushDown`: a rewritten selection is the end of a pass;
* `Pass.invariant`: what every step keeps, a pass keeps.
-/

namespace Pushdown

/-- Whether a container is decided by its filter. -/
def FilterDecides (config : GraphConfig) (scan : Scan) (container : HasContainer) : Prop :=
  match container.key with
  | .id => scan.ids ≠ [] ∨ container.predicate.namedValues? = none
  | .label => config.type = .simple
  | .property _ => True
  | .synthetic _ => False

/-- What a scan becomes when it meets a container; none if the container is left. -/
inductive Absorbs (config : GraphConfig) (scan : Scan) (container : HasContainer) :
    Option Scan → Prop
  | folded {values : List Value} {ids : List String} :
      container.key = .id → scan.ids = [] →
      container.predicate.namedValues? = some values →
      config.namedIds scan.kind values = .ok ids →
      Absorbs config scan container (some { scan with ids := ids })
  | narrowed {collections : List String} :
      container.key = .label → config.type = .complex →
      GraphConfig.narrow container.predicate scan.collections = .ok collections →
      Absorbs config scan container (some { scan with collections := Names.ofList collections })
  | taken {filter : Filter} :
      FilterDecides config scan container →
      config.containerFilter scan.kind container = .ok filter →
      filter.isPushable = true →
      Absorbs config scan container
        (some { scan with containers := scan.containers ++ [container] })
  | refused {filter : Filter} :
      FilterDecides config scan container →
      config.containerFilter scan.kind container = .ok filter →
      filter.isPushable = false →
      Absorbs config scan container none
  | accessor {name : String} :
      container.key = .synthetic name →
      Absorbs config scan container none

/-- A scan meets a list of containers, some of which are left. -/
inductive Pass (config : GraphConfig) :
    Scan → List HasContainer → Scan → List HasContainer → Prop
  | done (scan : Scan) : Pass config scan [] scan []
  | took {scan next final : Scan} {container : HasContainer}
      {containers kept : List HasContainer} :
      Absorbs config scan container (some next) →
      Pass config next containers final kept →
      Pass config scan (container :: containers) final kept
  | left {scan final : Scan} {container : HasContainer} {containers kept : List HasContainer} :
      Absorbs config scan container none →
      Pass config scan containers final kept →
      Pass config scan (container :: containers) final (container :: kept)
  | labelled {scan final : Scan} {containers kept : List HasContainer} (labels : List String) :
      Pass config { scan with labels := scan.labels ++ labels } containers final kept →
      Pass config scan containers final kept

variable {config : GraphConfig}

theorem absorbs_of_absorbFilter {scan : Scan} {container : HasContainer} {next : Option Scan}
    (hdecides : FilterDecides config scan container)
    (h : config.absorbFilter scan container = .ok next) :
    Absorbs config scan container next := by
  unfold GraphConfig.absorbFilter at h
  split at h
  · cases h
  · next filter hf =>
    split at h
    · next hpush =>
      cases h
      exact .taken hdecides hf hpush
    · next hpush =>
      cases h
      exact .refused hdecides hf (Bool.eq_false_iff.mpr hpush)

/-- The things that happen to a container. -/
theorem absorbs_of_absorb {scan : Scan} {container : HasContainer} {next : Option Scan}
    (h : config.absorb scan container = .ok next) : Absorbs config scan container next := by
  unfold GraphConfig.absorb at h
  split at h
  · next hkey =>
    split at h
    · next values hnamed =>
      obtain ⟨ids, hids, rfl⟩ := Outcome.map_eq_ok_iff.mp h
      split at hnamed
      · next hempty => exact .folded hkey (List.isEmpty_iff.mp hempty) hnamed hids
      · cases hnamed
    · next hnamed =>
      refine absorbs_of_absorbFilter ?_ h
      rw [FilterDecides, hkey]
      split at hnamed
      · exact .inr hnamed
      · next hempty => exact .inl fun hids => hempty (List.isEmpty_iff.mpr hids)
  · next hkey =>
    split at h
    · next htype =>
      obtain ⟨collections, hnarrow, rfl⟩ := Outcome.map_eq_ok_iff.mp h
      exact .narrowed hkey htype hnarrow
    · next htype =>
      refine absorbs_of_absorbFilter ?_ h
      rw [FilterDecides, hkey]
      exact htype
  · next hkey =>
    refine absorbs_of_absorbFilter ?_ h
    rw [FilterDecides, hkey]
    trivial
  · next hkey =>
    cases h
    exact .accessor hkey

namespace Pass

theorem append {scan mid final : Scan} {cs ds kept kept' : List HasContainer}
    (h : Pass config scan cs mid kept) (h' : Pass config mid ds final kept') :
    Pass config scan (cs ++ ds) final (kept ++ kept') := by
  induction h with
  | done scan => exact h'
  | took habs _ ih => exact .took habs (ih h')
  | left habs _ ih => exact .left habs (ih h')
  | labelled labels _ ih => exact .labelled labels (ih h')

/-- What every step keeps, a pass keeps. -/
theorem invariant {Inv : Scan → Prop} {scan final : Scan} {cs kept : List HasContainer}
    (hstep : ∀ scan container next, Absorbs config scan container (some next) → Inv scan → Inv next)
    (hlabels : ∀ (scan : Scan) labels, Inv scan →
      Inv { scan with labels := scan.labels ++ labels })
    (h : Pass config scan cs final kept) (hinv : Inv scan) : Inv final := by
  induction h with
  | done scan => exact hinv
  | took habs _ ih => exact ih (hstep _ _ _ habs hinv)
  | left _ _ ih => exact ih hinv
  | labelled labels _ ih => exact ih (hlabels _ labels hinv)

end Pass

/-- The containers of a step make up a pass. -/
theorem pass_of_absorbAll :
    ∀ {containers : List HasContainer} {scan final : Scan} {kept : List HasContainer},
      config.absorbAll scan containers = .ok (final, kept) →
        Pass config scan containers final kept
  | [], scan, final, kept, h => by
      simp only [GraphConfig.absorbAll, Except.ok.injEq, Prod.mk.injEq] at h
      obtain ⟨rfl, rfl⟩ := h
      exact .done scan
  | container :: containers, scan, final, kept, h => by
      unfold GraphConfig.absorbAll at h
      split at h
      · cases h
      · next next habs => exact .took (absorbs_of_absorb habs) (pass_of_absorbAll h)
      · next habs =>
        split at h
        · cases h
        · next final' kept' hrest =>
          cases h
          exact .left (absorbs_of_absorb habs) (pass_of_absorbAll hrest)

/-- Whether a scan goes on past a step. -/
def Step.isFilter : Step → Bool
  | .has _ _ => true
  | .barrier => true
  | _ => false

/-- The filter steps at the start of a traversal make up a pass; the containers that are
left stand before those of the other steps. -/
theorem pass_of_absorbSteps :
    ∀ {steps rest : List Step} {scan final : Scan},
      config.absorbSteps scan steps = .ok (final, rest) →
        ∃ kept, Pass config scan (hasContainers (steps.takeWhile Step.isFilter)) final kept ∧
          hasContainers rest = kept ++ hasContainers (steps.dropWhile Step.isFilter)
  | [], rest, scan, final, h => by
      simp only [GraphConfig.absorbSteps, Except.ok.injEq, Prod.mk.injEq] at h
      obtain ⟨rfl, rfl⟩ := h
      exact ⟨[], .done scan, rfl⟩
  | .barrier :: steps, rest, scan, final, h => by
      unfold GraphConfig.absorbSteps at h
      split at h
      · cases h
      · next final' rest' hrest =>
        cases h
        obtain ⟨kept, hpass, hkept⟩ := pass_of_absorbSteps hrest
        exact ⟨kept, hpass, hkept⟩
  | .has containers labels :: steps, rest, scan, final, h => by
      unfold GraphConfig.absorbSteps at h
      split at h
      · cases h
      · next mid hall =>
        obtain ⟨kept, hpass, hkept⟩ := pass_of_absorbSteps h
        exact ⟨kept, (pass_of_absorbAll hall).append (.labelled labels hpass), hkept⟩
      · next mid left hleft hall =>
        split at h
        · cases h
        · next final' rest' hrest =>
          cases h
          obtain ⟨kept, hpass, hkept⟩ := pass_of_absorbSteps hrest
          refine ⟨left ++ kept, (pass_of_absorbAll hall).append hpass, ?_⟩
          show left ++ hasContainers rest' = _
          rw [hkept, ← List.append_assoc]
          rfl
  | .select kind ids labels :: steps, rest, scan, final, h
  | .other name arguments labels :: steps, rest, scan, final, h
  | .scan inner :: steps, rest, scan, final, h => by
      cases h
      exact ⟨[], .done scan, rfl⟩

/-- A rewritten selection starts with the scan that a pass ends with, and the containers that
the pass left stand before those of the other steps. -/
theorem pass_of_pushDown {kind : ElementKind} {ids labels : List String}
    {steps pushed : List Step}
    (h : config.pushDown (.select kind ids labels :: steps) = .ok pushed) :
    config.checkIds kind ids = .ok () ∧
      ∃ scan rest kept, pushed = .scan scan :: rest ∧
        Pass config (config.startScan kind ids labels)
          (hasContainers (steps.takeWhile Step.isFilter)) scan kept ∧
        hasContainers rest = kept ++ hasContainers (steps.dropWhile Step.isFilter) := by
  unfold GraphConfig.pushDown at h
  dsimp only at h
  split at h
  · cases h
  · next hids =>
    split at h
    · cases h
    · next scan rest hsteps =>
      cases h
      obtain ⟨kept, hpass, hkept⟩ := pass_of_absorbSteps hsteps
      exact ⟨hids, scan, rest, kept, rfl, hpass, hkept⟩

end Pushdown
