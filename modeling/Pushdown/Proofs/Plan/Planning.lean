import Pushdown.Proofs.Config.Validation
import Pushdown.Proofs.Plan.Absorption
import Pushdown.Proofs.Predicate.StoredIds

/-!
# Planning what absorption built

A scan built from a selection holds ids that were parsed and containers whose filters can be
pushed. Every step of absorption keeps this, and it is all that planning and the re-check
need.

## Results

* `GraphConfig.plannable_of_pushDown`: the scan at the start of a rewritten traversal;
* `GraphConfig.plan_total`: such a scan has a plan;
* `GraphConfig.testContainers_total`: its re-check has an answer for every element;
* `GraphConfig.planned_and_tested_of_pushDown`: all of this, for traversals that do not start
  with a scan that cannot be planned.
-/

namespace Pushdown

/-- A scan that can be planned: its containers were pushed and its ids parsed. -/
structure Plannable (config : GraphConfig) (scan : Scan) : Prop where
  pushed : ∀ container ∈ scan.containers, ∃ filter,
    config.containerFilter scan.kind container = .ok filter ∧ filter.isPushable = true
  parsed : ∀ id ∈ scan.ids, ∃ element, config.parseId scan.kind id = .ok element

namespace GraphConfig

variable {config : GraphConfig} {kind : ElementKind}

theorem parsed_of_checkIds :
    ∀ {ids : List String}, config.checkIds kind ids = .ok () →
      ∀ id ∈ ids, ∃ element, config.parseId kind id = .ok element
  | [], _, _, hid => by cases hid
  | id :: ids, h, id', hid => by
      obtain ⟨element, helement, h⟩ := Outcome.bind_eq_ok_iff.mp h
      rcases List.mem_cons.mp hid with rfl | hid
      · exact ⟨element, helement⟩
      · exact parsed_of_checkIds h id' hid

theorem parsed_of_namedIds :
    ∀ {values : List Value} {ids : List String}, config.namedIds kind values = .ok ids →
      ∀ id ∈ ids, ∃ element, config.parseId kind id = .ok element
  | [], ids, h, id, hid => by
      cases h
      cases hid
  | value :: values, ids, h, id, hid => by
      obtain ⟨first, -, h⟩ := Outcome.bind_eq_ok_iff.mp h
      obtain ⟨element, helement, h⟩ := Outcome.bind_eq_ok_iff.mp h
      obtain ⟨rest, hrest, h⟩ := Outcome.bind_eq_ok_iff.mp h
      cases h
      rcases List.mem_cons.mp hid with rfl | hid
      · exact ⟨element, helement⟩
      · exact parsed_of_namedIds hrest id hid

/-- A scan that starts out with parsed ids can be planned. -/
theorem plannable_startScan {ids labels : List String} (h : config.checkIds kind ids = .ok ()) :
    Plannable config (config.startScan kind ids labels) where
  pushed := by
    intro container hcontainer
    cases hcontainer
  parsed := parsed_of_checkIds h

/-- A container that was taken in keeps the scan plannable. -/
theorem plannable_of_absorbs {scan next : Scan} {container : HasContainer}
    (habs : Absorbs config scan container (some next)) (h : Plannable config scan) :
    Plannable config next := by
  cases habs with
  | folded _ _ _ hids => exact ⟨h.pushed, parsed_of_namedIds hids⟩
  | narrowed _ _ _ => exact ⟨h.pushed, h.parsed⟩
  | taken _ hfilter hpush =>
      refine ⟨?_, h.parsed⟩
      intro c hc
      rcases List.mem_append.mp hc with hc | hc
      · exact h.pushed c hc
      · obtain rfl := List.mem_singleton.mp hc
        exact ⟨_, hfilter, hpush⟩

/-- The scan of a rewritten traversal can be planned, unless it was given and cannot. -/
theorem plannable_of_pushDown {steps rest : List Step} {scan : Scan}
    (hstart : ∀ given, steps.head? = some (.scan given) → Plannable config given)
    (h : config.pushDown steps = .ok (.scan scan :: rest)) : Plannable config scan := by
  rcases steps with _ | ⟨first, steps⟩
  · cases h
  · cases first with
    | select kind ids labels =>
        obtain ⟨hids, final, rest', kept, heq, hpass, -⟩ := pass_of_pushDown h
        cases heq
        exact hpass.invariant (fun _ _ _ => plannable_of_absorbs)
          (fun _ _ hplan => ⟨hplan.pushed, hplan.parsed⟩) (plannable_startScan hids)
    | scan given =>
        -- a given scan stays as it is
        cases h
        exact hstart scan rfl
    | has | barrier | other => cases h

/-- Containers whose filters can be pushed are planned with those filters. -/
theorem planPredicates_total :
    ∀ {containers : List HasContainer},
      (∀ c ∈ containers, ∃ filter,
        config.containerFilter kind c = .ok filter ∧ filter.isPushable = true) →
      ∃ planned, config.planPredicates kind containers = .ok planned ∧
        ∀ p ∈ planned, p.filter.isPushable = true
  | [], _ => ⟨[], rfl, by simp⟩
  | container :: containers, h => by
      obtain ⟨filter, hfilter, hpush⟩ := h container List.mem_cons_self
      obtain ⟨planned, hplanned, hall⟩ :=
        planPredicates_total fun c hc => h c (List.mem_cons_of_mem container hc)
      refine ⟨⟨container, filter⟩ :: planned, ?_, ?_⟩
      · simp only [planPredicates, hfilter, hplanned]
      · intro p hp
        rcases List.mem_cons.mp hp with rfl | hp
        · exact hpush
        · exact hall p hp

/-- Parsed ids have document ids. -/
theorem documentIds_total (collections : List String) :
    ∀ {ids : List String}, (∀ id ∈ ids, ∃ element, config.parseId kind id = .ok element) →
      ∃ documents, config.documentIds kind collections ids = .ok documents
  | [], _ => ⟨[], rfl⟩
  | id :: ids, h => by
      obtain ⟨element, helement⟩ := h id List.mem_cons_self
      obtain ⟨rest, hrest⟩ :=
        documentIds_total collections fun i hi => h i (List.mem_cons_of_mem id hi)
      simp only [documentIds, helement, hrest, bind, Except.bind]
      split
      · exact ⟨_, rfl⟩
      · exact ⟨_, rfl⟩

theorem scanQuery_total {ids : List String} (filter : Filter) {collections : List String}
    (hids : ∀ id ∈ ids, ∃ element, config.parseId kind id = .ok element)
    (hne : collections ≠ []) :
    ∃ query, config.scanQuery kind ids filter collections = .ok query := by
  obtain ⟨documents, hdocuments⟩ := documentIds_total collections hids
  unfold scanQuery
  rw [if_neg (by simpa using hne), hdocuments]
  split
  · split
    · exact ⟨_, rfl⟩
    · exact ⟨_, rfl⟩
  · exact ⟨_, rfl⟩

/-- A plannable scan with collections to look in has a plan. The plan re-checks the
containers of the scan, and each of them has a filter that can be pushed. -/
theorem plan_total {scan : Scan} (h : Plannable config scan) (hne : scan.collections ≠ .empty) :
    ∃ plan, config.planScan scan = .ok plan ∧ plan.residual = scan.containers ∧
      ∀ planned ∈ plan.predicates, planned.filter.isPushable = true := by
  obtain ⟨planned, hplanned, hall⟩ := planPredicates_total h.pushed
  obtain ⟨query, hquery⟩ := scanQuery_total
    (Filter.conjoin (planned.map PlannedPredicate.filter)) h.parsed (Names.members_ne_nil hne)
  let combined := Filter.conjoin (planned.map PlannedPredicate.filter)
  refine ⟨⟨query, combined.support, planned, scan.containers⟩, ?_, rfl, hall⟩
  simp only [planScan, plan, hplanned, hquery, bind, Except.bind]
  rfl

/-- A container whose filter can be pushed has a truth value on every element. -/
theorem testContainer_total {container : HasContainer} {filter : Filter}
    (h : config.containerFilter kind container = .ok filter)
    (hpush : filter.isPushable = true) (element : Element) :
    ∃ b, config.testContainer container element = .ok b := by
  obtain ⟨key, predicate⟩ := container
  cases key with
  | label => exact Predicate.test_total h _
  | property name => exact Predicate.test_total h _
  | id =>
      unfold containerFilter at h
      split at h
      · cases h
        cases hpush
      · next field hfield =>
        rw [if_pos rfl] at h
        split at h
        · cases h
        · cases h
          cases hpush
        · -- the plan compares stored ids and the re-check compares texts
          next stored hstored => exact Predicate.onIdText_test_total hstored h _
  | synthetic name =>
      cases h
      cases hpush

theorem testContainers_total {element : Element} :
    ∀ {containers : List HasContainer},
      (∀ c ∈ containers, ∃ b, config.testContainer c element = .ok b) →
        ∃ b, config.testContainers element containers = .ok b
  | [], _ => ⟨true, rfl⟩
  | container :: containers, h => by
      obtain ⟨keep, hkeep⟩ := h container List.mem_cons_self
      cases keep with
      | false => exact ⟨false, by simp only [testContainers, hkeep]⟩
      | true =>
          obtain ⟨b, hb⟩ :=
            testContainers_total fun c hc => h c (List.mem_cons_of_mem container hc)
          exact ⟨b, by simp only [testContainers, hkeep, hb]⟩

/-- A filter that can be pushed is exact or a superset. -/
theorem support_of_isPushable {planned : PlannedPredicate}
    (h : planned.filter.isPushable = true) :
    planned.support = .full ∨ planned.support = .part := by
  unfold Filter.isPushable at h
  unfold PlannedPredicate.support
  cases hsupport : planned.filter.support with
  | none =>
      rw [hsupport] at h
      cases h
  | part => exact .inr rfl
  | full => exact .inl rfl

/-- What absorption makes of a traversal that does not start with a scan that cannot be planned
has a plan, with a pushed filter for every container, and the re-check has an answer for every
element. On any field, a predicate with a filter has a truth value on every value and on a
missing one. -/
theorem planned_and_tested_of_pushDown {steps rest : List Step} {scan : Scan}
    (hstart : ∀ given, steps.head? = some (.scan given) → Plannable config given)
    (hpush : config.pushDown steps = .ok (.scan scan :: rest)) (hne : scan.collections ≠ .empty) :
    (∃ plan, config.planScan scan = .ok plan ∧
      (∀ planned ∈ plan.predicates, planned.support = .full ∨ planned.support = .part) ∧
      ∀ element, ∃ b, config.testContainers element plan.residual = .ok b) ∧
    ∀ (field : String) (p : Predicate) (f : Filter), p.filter field = .ok f →
      ∀ value, ∃ b, p.test value = .ok b := by
  have hplannable : Plannable config scan := plannable_of_pushDown hstart hpush
  obtain ⟨plan, hplan, hresidual, hpushed⟩ := plan_total hplannable hne
  refine ⟨⟨plan, hplan, ?_, ?_⟩, ?_⟩
  · intro planned hplanned
    exact support_of_isPushable (hpushed planned hplanned)
  · intro element
    rw [hresidual]
    refine testContainers_total fun c hc => ?_
    obtain ⟨filter, hfilter, hpush⟩ := hplannable.pushed c hc
    exact testContainer_total hfilter hpush element
  · intro field p f hf value
    exact Predicate.test_total hf value

/-- A traversal that names an id, compares an age and looks up a key. -/
def namedTraversal : List Step :=
  [.select .vertex [] ["v"],
    .has [⟨.id, .compare "within" (.list [.string "alice", .int32 7])⟩,
      ⟨.property "age", .any [.compare "gt" (.int64 30), .compare "eq" .null]⟩] [],
    .barrier, .has [⟨.synthetic keyAccessor, .compare "eq" (.string "age")⟩] []]

/-- The scan that the traversal becomes. -/
def namedScan : Scan :=
  ⟨.vertex, ["alice", "7"],
    [⟨.property "age", .any [.compare "gt" (.int64 30), .compare "eq" .null]⟩],
    .single "vertex", ["v"]⟩

theorem planned_and_tested_namedTraversal :
    standard.pushDown namedTraversal =
        .ok [.scan namedScan, .barrier,
          .has [⟨.synthetic keyAccessor, .compare "eq" (.string "age")⟩] []] ∧
      ∃ plan, standard.planScan namedScan = .ok plan ∧
        ∀ element, ∃ b, standard.testContainers element plan.residual = .ok b := by
  have hpush : standard.pushDown namedTraversal =
      .ok [.scan namedScan, .barrier,
        .has [⟨.synthetic keyAccessor, .compare "eq" (.string "age")⟩] []] := rfl
  have hne : namedScan.collections ≠ .empty := by decide
  obtain ⟨⟨plan, hplan, -, htested⟩, -⟩ :=
    planned_and_tested_of_pushDown (fun given h => by cases h) hpush hne
  exact ⟨hpush, plan, hplan, htested⟩

/-- A scan that no selection becomes: its operator has no meaning. -/
def meaninglessScan : Scan :=
  ⟨.vertex, [], [⟨.property "name", .compare "bogus" (.string "a")⟩], .single "vertex", []⟩

/-- A scan at the start of a traversal is kept as it was given, planned or not. -/
theorem not_planned_of_given_scan :
    initial.validate = .ok standard ∧
      standard.pushDown [.scan meaninglessScan] = .ok [.scan meaninglessScan] ∧
      meaninglessScan.collections ≠ .empty ∧
      ¬ ∃ plan, standard.planScan meaninglessScan = .ok plan := by
  refine ⟨validate_initial, rfl, by decide, ?_⟩
  rintro ⟨plan, hplan⟩
  cases hplan

end GraphConfig
end Pushdown
