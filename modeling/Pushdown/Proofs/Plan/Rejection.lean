import Pushdown.Proofs.Config.Validation
import Pushdown.Proofs.Plan.Absorption
import Pushdown.Proofs.Predicate.Unknown

/-!
# Which operators are rejected

A traversal whose filter steps use an operator without a meaning is rejected where the operator
is met. Containers of properties, and of labels in a simple graph, are mapped to filters, which
reads all of them. A label container of a complex graph is tested on the names of the
collections that are left, and a test ends when a member decides it. An id container is
rewritten to stored ids, and gives up at the first operator without a stored form. So these two
may pass an operator over.

## Results

* `GraphConfig.absorb_total_iff`: the containers that pass an operator without a meaning over;
* `GraphConfig.absorbSteps_total_iff`: filter steps succeed when their containers do;
* `GraphConfig.rejected_unless_overlooked`: a traversal is rejected, unless the container that
  uses the operator passes it over;
* `GraphConfig.not_rejected_of_near`: traversals that are not rejected.
-/

namespace Pushdown

/-- A container passes an operator without a meaning over. -/
def Overlooks (config : GraphConfig) (scan : Scan) (container : HasContainer) : Prop :=
  match container.key with
  | .property _ => False
  | .label => config.type = .complex ∧ ∀ name ∈ scan.collections, ∃ keep,
      container.predicate.test (some (.string name)) = .ok keep
  | .id => container.predicate.GivesUp config scan.kind
  | .synthetic _ => True

namespace GraphConfig

variable {config : GraphConfig} {kind : ElementKind}

/-- Narrowing succeeds when every collection is decided. -/
theorem narrow_total_iff {p : Predicate} :
    ∀ {collections : List String}, (∃ narrowed, narrow p collections = .ok narrowed) ↔
      ∀ name ∈ collections, ∃ keep, p.test (some (.string name)) = .ok keep
  | [] => by simp [narrow]
  | name :: collections => by
      rw [List.forall_mem_cons, ← narrow_total_iff, narrow]
      cases p.test (some (.string name)) with
      | error e => simp
      | ok keep => cases narrow p collections <;> simp

/-- The filter of a property or label container that uses an operator without a meaning. -/
theorem containerFilter_of_usesUnknown (config : GraphConfig) (kind : ElementKind)
    {container : HasContainer} {field : String}
    (hunknown : container.predicate.UsesUnknown) (hkey : container.key ≠ .id)
    (hfield : config.fieldFor? container.key = some field) :
    ∃ e, config.containerFilter kind container = .error e := by
  obtain ⟨e, he⟩ := Predicate.filter_of_usesUnknown hunknown field
  refine ⟨e, ?_⟩
  rw [containerFilter, hfield]
  dsimp only
  rw [if_neg hkey, he]

/-- The filter of an id container that uses an operator without a meaning. -/
theorem containerFilter_id_of_usesUnknown {container : HasContainer} {filter : Filter}
    (hunknown : container.predicate.UsesUnknown) (hkey : container.key = .id) :
    config.containerFilter kind container = .ok filter ↔
      container.predicate.GivesUp config kind ∧ filter = .empty := by
  rw [← Predicate.onStoredIds_eq_none_iff, containerFilter, hkey]
  simp only [fieldFor?, if_true]
  cases hstored : container.predicate.onStoredIds config kind with
  | error e => simp
  | ok stored =>
      cases stored with
      | none => simp [eq_comm]
      | some p => exact absurd hstored (Predicate.onStoredIds_of_usesUnknown hunknown p)

theorem absorbFilter_total_iff {scan : Scan} {container : HasContainer} :
    (∃ next, config.absorbFilter scan container = .ok next) ↔
      ∃ filter, config.containerFilter scan.kind container = .ok filter := by
  rw [absorbFilter]
  cases config.containerFilter scan.kind container <;> simp

/-- A predicate that uses an operator without a meaning names no values. -/
theorem namedValues?_of_usesUnknown {p : Predicate} (h : p.UsesUnknown) :
    p.namedValues? = none := by
  obtain ⟨op, operand, hc, hop⟩ := h
  cases hc with
  | leaf =>
      have hne : ∀ known : Operator, op ≠ known.name := by
        rintro known rfl
        cases known <;> cases hop
      unfold Predicate.namedValues?
      dsimp only
      rw [if_neg (hne .eq), if_neg (hne .within)]
  | all => rfl
  | any => rfl

/-- Of the containers that use an operator without a meaning, those that pass it over are
absorbed or left, and the others are rejected. -/
theorem absorb_total_iff {scan : Scan} {container : HasContainer}
    (hunknown : container.predicate.UsesUnknown) :
    (∃ next, config.absorb scan container = .ok next) ↔ Overlooks config scan container := by
  obtain ⟨key, p⟩ := container
  cases key with
  | property name =>
      obtain ⟨e, he⟩ := containerFilter_of_usesUnknown config scan.kind
        hunknown (fun h => by cases h) rfl
      simp [absorb, absorbFilter_total_iff, he, Overlooks]
  | label =>
      simp only [absorb, Overlooks]
      cases htype : config.type with
      | simple =>
          obtain ⟨e, he⟩ := containerFilter_of_usesUnknown config scan.kind
            hunknown (fun h => by cases h) rfl
          simp [absorbFilter_total_iff, he]
      | complex =>
          simp only [← Names.mem_members]
          rw [← narrow_total_iff]
          cases narrow p scan.collections.members <;> simp [Except.map]
  | id =>
      simp only [absorb, namedValues?_of_usesUnknown hunknown, ite_self, Overlooks]
      rw [absorbFilter_total_iff]
      simp [containerFilter_id_of_usesUnknown hunknown]
  | synthetic name => simp [absorb, Overlooks]

/-- What happens to a container does not depend on the labels of the scan. -/
theorem absorb_withLabels (scan : Scan) (labels : List String) (container : HasContainer) :
    config.absorb { scan with labels := labels } container =
      (config.absorb scan container).map
        (Option.map fun next => { next with labels := labels }) := by
  have hfilter : config.absorbFilter { scan with labels := labels } container =
      (config.absorbFilter scan container).map
        (Option.map fun next => { next with labels := labels }) := by
    rw [absorbFilter, absorbFilter]
    cases config.containerFilter scan.kind container with
    | error e => rfl
    | ok filter =>
        dsimp only
        cases filter.isPushable <;> rfl
  obtain ⟨key, p⟩ := container
  cases key with
  | property name => exact hfilter
  | synthetic name => rfl
  | label =>
      simp only [absorb]
      cases config.type with
      | simple => exact hfilter
      | complex =>
          dsimp only
          cases narrow p scan.collections <;> rfl
  | id =>
      simp only [absorb]
      split
      · next values _ => cases config.namedIds scan.kind values <;> rfl
      · exact hfilter

theorem absorbAll_withLabels (labels : List String) :
    ∀ (containers : List HasContainer) (scan : Scan),
      config.absorbAll { scan with labels := labels } containers =
        (config.absorbAll scan containers).map
          fun r => ({ r.1 with labels := labels }, r.2)
  | [], scan => rfl
  | container :: containers, scan => by
      rw [absorbAll, absorbAll, absorb_withLabels]
      cases config.absorb scan container with
      | error e => rfl
      | ok next =>
          cases next with
          | some next => exact absorbAll_withLabels labels containers next
          | none =>
              simp only [Except.map, Option.map_none]
              rw [absorbAll_withLabels labels containers scan]
              cases config.absorbAll scan containers <;> rfl

/-- Containers meet a scan one after the other. -/
theorem absorbAll_append (after : List HasContainer) :
    ∀ (before : List HasContainer) (scan : Scan),
      config.absorbAll scan (before ++ after) =
        config.absorbAll scan before >>= fun r =>
          (config.absorbAll r.1 after).map fun r' => (r'.1, r.2 ++ r'.2)
  | [], scan => by
      show config.absorbAll scan after =
        (config.absorbAll scan after).map fun r' => (r'.1, r'.2)
      cases config.absorbAll scan after <;> rfl
  | container :: before, scan => by
      rw [List.cons_append, absorbAll, absorbAll]
      cases config.absorb scan container with
      | error e => rfl
      | ok next =>
          cases next with
          | some next => exact absorbAll_append after before next
          | none =>
              dsimp only
              rw [absorbAll_append after before scan]
              cases config.absorbAll scan before with
              | error e => rfl
              | ok r =>
                  obtain ⟨mid, kept⟩ := r
                  simp only [bind, Except.bind]
                  cases config.absorbAll mid after <;> rfl

/-- Filter steps succeed when their containers do. -/
theorem absorbSteps_total_iff :
    ∀ {steps : List Step}, (∀ step ∈ steps, step.isFilter = true) → ∀ scan : Scan,
      (∃ r, config.absorbSteps scan steps = .ok r) ↔
        ∃ r, config.absorbAll scan (hasContainers steps) = .ok r
  | [], _, scan => by simp [absorbSteps, hasContainers, absorbAll]
  | step :: steps, h, scan => by
      obtain ⟨hstep, hsteps⟩ := List.forall_mem_cons.mp h
      cases step with
      | barrier =>
          rw [absorbSteps]
          have ih := absorbSteps_total_iff hsteps scan
          show _ ↔ ∃ r, config.absorbAll scan (hasContainers steps) = .ok r
          rw [← ih]
          cases config.absorbSteps scan steps <;> simp
      | has containers labels =>
          show _ ↔ ∃ r, config.absorbAll scan (containers ++ hasContainers steps) = .ok r
          rw [absorbSteps, absorbAll_append]
          cases config.absorbAll scan containers with
          | error e => simp [bind, Except.bind]
          | ok r =>
              obtain ⟨mid, kept⟩ := r
              have hrest : (∃ r, config.absorbAll mid (hasContainers steps) = .ok r) ↔
                  ∃ r, (config.absorbAll mid (hasContainers steps)).map
                    (fun r' => (r'.1, kept ++ r'.2)) = .ok r := by
                cases config.absorbAll mid (hasContainers steps) <;> simp [Except.map]
              show _ ↔ ∃ r, (config.absorbAll mid (hasContainers steps)).map
                (fun r' => (r'.1, kept ++ r'.2)) = .ok r
              rw [← hrest]
              cases kept with
              | nil =>
                  -- the step goes, and the labels it leaves to the scan change nothing
                  dsimp only
                  rw [absorbSteps_total_iff hsteps, absorbAll_withLabels]
                  cases config.absorbAll mid (hasContainers steps) <;> simp [Except.map]
              | cons first others =>
                  dsimp only
                  rw [← absorbSteps_total_iff hsteps]
                  cases config.absorbSteps mid steps <;> simp
      | select | other | scan => cases hstep

/-- A rewritten selection: its ids are checked, and then its containers are met. -/
theorem pushDown_total_iff {ids labels : List String} {steps : List Step}
    (hfilters : ∀ step ∈ steps, step.isFilter = true) :
    (∃ pushed, config.pushDown (.select kind ids labels :: steps) = .ok pushed) ↔
      config.checkIds kind ids = .ok () ∧
        ∃ r, config.absorbAll (config.startScan kind ids labels) (hasContainers steps) = .ok r := by
  rw [pushDown, ← absorbSteps_total_iff hfilters]
  cases config.checkIds kind ids with
  | error e => simp
  | ok => cases config.absorbSteps (config.startScan kind ids labels) steps <;> simp

/-- A container after others succeeds when they do and it does. -/
theorem absorbAll_concat_total_iff {start : Scan} {before : List HasContainer}
    {container : HasContainer} :
    (∃ r, config.absorbAll start (before ++ [container]) = .ok r) ↔
      ∃ scan kept, config.absorbAll start before = .ok (scan, kept) ∧
        ∃ next, config.absorb scan container = .ok next := by
  rw [absorbAll_append]
  cases config.absorbAll start before with
  | error e => simp [bind, Except.bind]
  | ok r =>
      obtain ⟨scan, kept⟩ := r
      simp only [bind, Except.bind, absorbAll]
      cases habs : config.absorb scan container with
      | error e => simp [Except.map, habs]
      | ok next => cases next <;> simp [Except.map, habs]

/-- The containers before another succeed when all do. -/
theorem absorbAll_total_of_append {start : Scan} {before after : List HasContainer}
    (h : ∃ r, config.absorbAll start (before ++ after) = .ok r) :
    ∃ r, config.absorbAll start before = .ok r := by
  rw [absorbAll_append] at h
  obtain ⟨r, h⟩ := h
  obtain ⟨mid, hmid, -⟩ := Outcome.bind_eq_ok_iff.mp h
  exact ⟨mid, hmid⟩

/-- A container is met after others, when the ids of the selection are ids, and passes an
operator without a meaning over. -/
def MetAndOverlooked (config : GraphConfig) (start : Scan) (before : List HasContainer)
    (container : HasContainer) : Prop :=
  config.checkIds start.kind start.ids = .ok () ∧ ∃ scan kept,
    config.absorbAll start before = .ok (scan, kept) ∧ Overlooks config scan container

theorem metAndOverlooked_iff {start : Scan} {before : List HasContainer}
    {container : HasContainer} (hunknown : container.predicate.UsesUnknown) :
    MetAndOverlooked config start before container ↔
      config.checkIds start.kind start.ids = .ok () ∧
        ∃ r, config.absorbAll start (before ++ [container]) = .ok r := by
  rw [absorbAll_concat_total_iff]
  simp only [MetAndOverlooked, absorb_total_iff hunknown]

/-- A selection whose filter steps use an operator without a meaning is rejected, unless the
container that uses it passes it over. If that one does and is the last, nothing is rejected. -/
theorem rejected_unless_overlooked {ids labels : List String} {steps : List Step}
    {before after : List HasContainer} {container : HasContainer}
    (hfilters : ∀ step ∈ steps, step.isFilter = true)
    (hmet : hasContainers steps = before ++ container :: after)
    (hunknown : container.predicate.UsesUnknown) :
    let start := config.startScan kind ids labels
    (¬ MetAndOverlooked config start before container →
      ∃ e, config.pushDown (.select kind ids labels :: steps) = .error e) ∧
    (after = [] → MetAndOverlooked config start before container →
      ∃ pushed, config.pushDown (.select kind ids labels :: steps) = .ok pushed) := by
  intro start
  rw [Outcome.exists_error_iff, pushDown_total_iff hfilters, metAndOverlooked_iff hunknown, hmet]
  refine ⟨fun hover hpushed => hover ⟨hpushed.1, ?_⟩, ?_⟩
  · -- the container is met before those after it, whatever becomes of them
    have happend : before ++ container :: after = (before ++ [container]) ++ after := by simp
    rw [happend] at hpushed
    exact absorbAll_total_of_append hpushed.2
  · rintro rfl hover
    exact hover

/-- A traversal that compares an age, and then a name by an operator without a meaning, below
two connectives and after an operator that decides most names. -/
def misspelledTraversal : List Step :=
  [.has [⟨.property "age", .compare "gt" (.int64 30)⟩] ["grown"], .barrier,
    .has [⟨.property "name", .any [.compare "neq" (.string "alice"),
      .all [.compare "near" (.string "x")]]⟩, ⟨.id, .compare "eq" (.string "alice")⟩] []]

theorem rejected_unless_overlooked_misspelled :
    (∀ step ∈ misspelledTraversal, step.isFilter = true) ∧
      hasContainers misspelledTraversal =
        [⟨.property "age", .compare "gt" (.int64 30)⟩] ++
          ⟨.property "name", .any [.compare "neq" (.string "alice"),
            .all [.compare "near" (.string "x")]]⟩ ::
          [⟨.id, .compare "eq" (.string "alice")⟩] ∧
      ∃ e, standard.pushDown (.select .vertex ["bob"] [] :: misspelledTraversal) = .error e := by
  have hfilters : ∀ step ∈ misspelledTraversal, step.isFilter = true := by
    simp [misspelledTraversal, Step.isFilter]
  have hunknown : Predicate.UsesUnknown (.any [.compare "neq" (.string "alice"),
      .all [.compare "near" (.string "x")]]) :=
    ⟨"near", .string "x", .any (List.mem_cons_of_mem _ List.mem_cons_self)
      (.all List.mem_cons_self .leaf), rfl⟩
  refine ⟨hfilters, rfl, (rejected_unless_overlooked hfilters rfl hunknown).1 ?_⟩
  rintro ⟨-, scan, kept, -, hover⟩
  exact hover

/-- An id container, and a label container of a complex graph, that pass an operator without a
meaning over: the traversal is not rejected, the first container is left in its step, and the
second is gone. -/
theorem not_rejected_of_near :
    Operator.ofName? "near" = none ∧ initial.validate = .ok standard ∧
      standard.pushDown [.select .vertex [] [], .has [⟨.id, .compare "near" (.string "x")⟩] []] =
        .ok [.scan ⟨.vertex, [], [], .single "vertex", []⟩,
          .has [⟨.id, .compare "near" (.string "x")⟩] []] ∧
      kennel.validate = .ok kennel ∧
      kennel.pushDown [.select .vertex [] [], .has [⟨.label, .any
          [.compare "without" (.list []), .compare "near" (.string "x")]⟩] []] =
        .ok [.scan ⟨.vertex, [], [], .ofList ["dog", "person"], []⟩] := by
  exact ⟨rfl, validate_initial, rfl, validate_kennel, rfl⟩

end GraphConfig
end Pushdown
