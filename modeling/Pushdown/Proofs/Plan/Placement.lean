import Pushdown.Proofs.Config.Validation
import Pushdown.Proofs.Entries.Names
import Pushdown.Proofs.Plan.Absorption

/-!
# Where containers go

A container of a filter step goes to one place. It stays in its step, joins the containers of
the scan, names the ids of the scan, or narrows its collections. The scan and the steps after
it follow from the containers with their places: nothing is lost, nothing is there twice, and
the order is kept.

## Results

* `moves_of_absorbs`: one container;
* `Moves.append`: containers of one step after the other;
* `exists_placed_steps`: the filter steps at the start of a traversal;
* `each_container_in_one_place`: a rewritten selection.
-/

namespace Pushdown

/-- Where a container goes. -/
inductive Place where
  /-- It stays in its step. -/
  | step
  /-- It joins the containers of the scan. -/
  | scan
  /-- It names the ids of the scan. -/
  | ids
  /-- It narrows the collections of the scan. -/
  | collections
deriving DecidableEq

/-- Containers, each with the place it goes to. -/
abbrev Placement := List (HasContainer × Place)

/-- The containers that go to a place, in their order. -/
def Placement.goingTo (place : Place) (placement : Placement) : List HasContainer :=
  (placement.filter fun placed => placed.2 = place).map Prod.fst

/-- A filter step whose containers have places. -/
inductive PlacedStep where
  | barrier
  | has (placement : Placement) (labels : List String)

namespace PlacedStep

/-- The step without the places. -/
def step : PlacedStep → Step
  | barrier => .barrier
  | has placement labels => .has (placement.map Prod.fst) labels

def placement : PlacedStep → Placement
  | barrier => []
  | has placement _ => placement

/-- What remains of the step; none if no container stays. -/
def remaining? : PlacedStep → Option Step
  | barrier => some .barrier
  | has placement labels =>
      match placement.goingTo .step with
      | [] => none
      | kept => some (.has kept labels)

/-- The labels of a step of which nothing remains. -/
def movedLabels : PlacedStep → List String
  | barrier => []
  | has placement labels =>
      match placement.goingTo .step with
      | [] => labels
      | _ => []

/-- The containers of several steps, each with its place. -/
def placements (steps : List PlacedStep) : Placement := steps.flatMap placement

end PlacedStep

/-- Whether the name of a collection satisfies a label predicate. -/
def Predicate.acceptsName (p : Predicate) (name : String) : Bool :=
  match p.test (some (.string name)) with
  | .ok keep => keep
  | .error _ => false

/-- A container has what its place asks for. -/
def Place.Fits (config : GraphConfig) (kind : ElementKind) (container : HasContainer) :
    Place → Prop
  | step => (container.key = .label → config.type = .simple) ∧
      ∃ filter, config.containerFilter kind container = .ok filter ∧ filter.isPushable = false
  | scan => (container.key = .label → config.type = .simple) ∧
      ∃ filter, config.containerFilter kind container = .ok filter ∧ filter.isPushable = true
  | ids => container.key = .id ∧ ∃ values, container.predicate.namedValues? = some values
  | collections => container.key = .label ∧ config.type = .complex

/-- The ids after some containers named theirs: those of the last, or the given ones if there
is none. Containers name ids only where none are given. -/
def Folds (config : GraphConfig) (kind : ElementKind) (given : List String)
    (containers : List HasContainer) (ids : List String) : Prop :=
  match containers.getLast? with
  | none => ids = given
  | some last => given = [] ∧ ∃ values, last.predicate.namedValues? = some values ∧
      config.namedIds kind values = .ok ids

/-- What a scan becomes when containers go to their places and labels are moved to it. -/
structure Moves (config : GraphConfig) (scan : Scan) (placement : Placement)
    (labels : List String) (final : Scan) : Prop where
  kind : final.kind = scan.kind
  containers : final.containers = scan.containers ++ placement.goingTo .scan
  ids : Folds config scan.kind scan.ids (placement.goingTo .ids) final.ids
  collections : final.collections = scan.collections.filter fun name =>
    (placement.goingTo .collections).all fun c => c.predicate.acceptsName name
  labels : final.labels = scan.labels ++ labels
  fits : ∀ placed ∈ placement, placed.2.Fits config scan.kind placed.1

variable {config : GraphConfig}

namespace Placement

theorem goingTo_append (place : Place) (p q : Placement) :
    goingTo place (p ++ q) = goingTo place p ++ goingTo place q := by
  rw [goingTo, List.filter_append, List.map_append]
  rfl

theorem goingTo_singleton_self (container : HasContainer) (place : Place) :
    goingTo place [(container, place)] = [container] := by
  simp [goingTo]

theorem goingTo_singleton_of_ne {container : HasContainer} {place other : Place}
    (h : other ≠ place) : goingTo place [(container, other)] = [] := by
  simp [goingTo, h]

end Placement

/-- Ids are named once: a container that comes later names them only if none were named. -/
theorem Folds.append {kind : ElementKind} {given mid ids : List String}
    {containers containers' : List HasContainer} (h : Folds config kind given containers mid)
    (h' : Folds config kind mid containers' ids) :
    Folds config kind given (containers ++ containers') ids := by
  unfold Folds at h h' ⊢
  cases hlast' : containers'.getLast? with
  | none =>
      rw [hlast'] at h'
      obtain rfl : ids = mid := h'
      rw [List.getLast?_eq_none_iff.mp hlast', List.append_nil]
      exact h
  | some last =>
      rw [hlast'] at h'
      obtain ⟨rfl, hnamed⟩ := h'
      rw [List.getLast?_append, hlast', Option.some_or]
      refine ⟨?_, hnamed⟩
      cases hlast : containers.getLast? with
      | none =>
          rw [hlast] at h
          exact h.symm
      | some first =>
          rw [hlast] at h
          exact h.1

namespace Moves

/-- Without containers the scan only gets labels. -/
theorem labelled (scan : Scan) (labels : List String) :
    Moves config scan [] labels { scan with labels := scan.labels ++ labels } where
  kind := rfl
  containers := (List.append_nil _).symm
  ids := rfl
  collections := (Names.filter_true _).symm
  labels := rfl
  fits := by
    intro placed hplaced
    cases hplaced

theorem nothing (scan : Scan) : Moves config scan [] [] scan := by
  have h : Moves config scan [] [] { scan with labels := scan.labels ++ [] } := .labelled scan []
  rw [List.append_nil] at h
  exact h

/-- Containers that come later go on from the scan that those before them left. -/
theorem append {scan mid final : Scan} {placement placement' : Placement}
    {labels labels' : List String} (h : Moves config scan placement labels mid)
    (h' : Moves config mid placement' labels' final) :
    Moves config scan (placement ++ placement') (labels ++ labels') final where
  kind := h'.kind.trans h.kind
  containers := by
    rw [h'.containers, h.containers, Placement.goingTo_append, List.append_assoc]
  ids := by
    rw [Placement.goingTo_append]
    have hids := h'.ids
    rw [h.kind] at hids
    exact h.ids.append hids
  collections := by
    rw [h'.collections, h.collections, Names.filter_filter, Placement.goingTo_append]
    simp only [List.all_append]
  labels := by rw [h'.labels, h.labels, List.append_assoc]
  fits := by
    intro placed hplaced
    rcases List.mem_append.mp hplaced with hplaced | hplaced
    · exact h.fits placed hplaced
    · have hfits := h'.fits placed hplaced
      rw [h.kind] at hfits
      exact hfits

end Moves

/-- Narrowing keeps the collections whose names satisfy the predicate. -/
theorem narrow_eq_filter {p : Predicate} :
    ∀ {collections narrowed : List String}, GraphConfig.narrow p collections = .ok narrowed →
      narrowed = collections.filter p.acceptsName
  | [], narrowed, h => by
      cases h
      rfl
  | name :: collections, narrowed, h => by
      rw [GraphConfig.narrow] at h
      split at h
      · cases h
      · next keep hkeep =>
        split at h
        · cases h
        · next rest hrest =>
          cases h
          have haccepts : p.acceptsName name = keep := by
            rw [Predicate.acceptsName, hkeep]
          rw [List.filter_cons, haccepts, narrow_eq_filter hrest]

/-- A container that its filter decides is no label of a complex graph. -/
theorem FilterDecides.simple {scan : Scan} {container : HasContainer}
    (h : FilterDecides config scan container) :
    container.key = .label → config.type = .simple := by
  intro hkey
  rw [FilterDecides, hkey] at h
  exact h

/-- A container that is taken goes to a place of the scan. -/
theorem moves_of_absorbs {scan next : Scan} {container : HasContainer}
    (h : Absorbs config scan container (some next)) :
    ∃ place, place ≠ .step ∧ Moves config scan [(container, place)] [] next := by
  cases h with
  | folded hkey hids hnamed hvalues =>
      refine ⟨.ids, by decide, rfl, ?_, ?_, ?_, (List.append_nil _).symm, ?_⟩
      · exact (List.append_nil _).symm
      · exact ⟨hids, _, hnamed, hvalues⟩
      · exact (Names.filter_true _).symm
      · intro placed hplaced
        obtain rfl := List.mem_singleton.mp hplaced
        exact ⟨hkey, _, hnamed⟩
  | narrowed hkey htype hnarrow =>
      refine ⟨.collections, by decide, rfl, ?_, rfl, ?_, (List.append_nil _).symm, ?_⟩
      · exact (List.append_nil _).symm
      · rw [Placement.goingTo_singleton_self]
        simp only [List.all_cons, List.all_nil, Bool.and_true]
        rw [narrow_eq_filter hnarrow, Names.ofList_filter]
      · intro placed hplaced
        obtain rfl := List.mem_singleton.mp hplaced
        exact ⟨hkey, htype⟩
  | taken hdecides hfilter hpush =>
      refine ⟨.scan, by decide, rfl, ?_, rfl, ?_, (List.append_nil _).symm, ?_⟩
      · rw [Placement.goingTo_singleton_self]
      · exact (Names.filter_true _).symm
      · intro placed hplaced
        obtain rfl := List.mem_singleton.mp hplaced
        exact ⟨hdecides.simple, _, hfilter, hpush⟩

/-- A container that is left stays in its step, and the scan stays as it is. -/
theorem moves_of_left {scan : Scan} {container : HasContainer}
    (h : Absorbs config scan container none) :
    Moves config scan [(container, .step)] [] scan := by
  refine ⟨rfl, (List.append_nil _).symm, rfl, ?_, (List.append_nil _).symm, ?_⟩
  · exact (Names.filter_true _).symm
  · intro placed hplaced
    obtain rfl := List.mem_singleton.mp hplaced
    cases h with
    | refused hdecides hfilter hpush => exact ⟨hdecides.simple, _, hfilter, hpush⟩
    | accessor hkey =>
        refine ⟨fun hlabel => ?_, .empty, ?_, rfl⟩
        · rw [hkey] at hlabel
          cases hlabel
        · rw [GraphConfig.containerFilter, hkey]
          rfl

/-- The containers of a step go to places, and those that are left stay in the step. -/
theorem exists_placement :
    ∀ {containers : List HasContainer} {scan final : Scan} {kept : List HasContainer},
      config.absorbAll scan containers = .ok (final, kept) →
        ∃ placement : Placement, placement.map Prod.fst = containers ∧
          placement.goingTo .step = kept ∧ Moves config scan placement [] final
  | [], scan, final, kept, h => by
      cases h
      exact ⟨[], rfl, rfl, .nothing scan⟩
  | container :: containers, scan, final, kept, h => by
      rw [GraphConfig.absorbAll] at h
      split at h
      · cases h
      · next next habs =>
        obtain ⟨place, hplace, hfirst⟩ := moves_of_absorbs (absorbs_of_absorb habs)
        obtain ⟨placement, hcontainers, hkept, hmoves⟩ := exists_placement h
        refine ⟨(container, place) :: placement, ?_, ?_, hfirst.append hmoves⟩
        · rw [List.map_cons, hcontainers]
        · rw [← List.singleton_append, Placement.goingTo_append,
            Placement.goingTo_singleton_of_ne hplace, hkept]
          rfl
      · next habs =>
        split at h
        · cases h
        · next final' kept' hrest =>
          cases h
          have hfirst := moves_of_left (absorbs_of_absorb habs)
          obtain ⟨placement, hcontainers, hkept, hmoves⟩ := exists_placement hrest
          refine ⟨(container, .step) :: placement, ?_, ?_, hfirst.append hmoves⟩
          · rw [List.map_cons, hcontainers]
          · rw [← List.singleton_append, Placement.goingTo_append,
              Placement.goingTo_singleton_self, hkept]
            rfl

/-- The containers of the filter steps at the start of a traversal go to places; what remains
of these steps stands before the other steps. -/
theorem exists_placed_steps :
    ∀ {steps rest : List Step} {scan final : Scan},
      config.absorbSteps scan steps = .ok (final, rest) →
        ∃ placed : List PlacedStep,
          placed.map PlacedStep.step = steps.takeWhile Step.isFilter ∧
          rest = placed.filterMap PlacedStep.remaining? ++ steps.dropWhile Step.isFilter ∧
          Moves config scan (placed.flatMap PlacedStep.placement)
            (placed.flatMap PlacedStep.movedLabels) final
  | [], rest, scan, final, h => by
      cases h
      exact ⟨[], rfl, rfl, .nothing scan⟩
  | .barrier :: steps, rest, scan, final, h => by
      rw [GraphConfig.absorbSteps] at h
      split at h
      · cases h
      · next final' rest' hrest =>
        cases h
        obtain ⟨placed, hsteps, rfl, hmoves⟩ := exists_placed_steps hrest
        refine ⟨.barrier :: placed, ?_, rfl, hmoves⟩
        rw [List.map_cons, hsteps]
        rfl
  | .has containers labels :: steps, rest, scan, final, h => by
      rw [GraphConfig.absorbSteps] at h
      split at h
      · cases h
      · next mid hall =>
        -- nothing is left of the step, and its labels go on with the scan
        obtain ⟨placement, hcontainers, hkept, hfirst⟩ := exists_placement hall
        obtain ⟨placed, hsteps, rfl, hmoves⟩ := exists_placed_steps h
        refine ⟨.has placement labels :: placed, ?_, ?_, ?_⟩
        · rw [List.map_cons, hsteps, PlacedStep.step, hcontainers]
          rfl
        · rw [List.filterMap_cons, PlacedStep.remaining?, hkept]
          rfl
        · rw [List.flatMap_cons, List.flatMap_cons, PlacedStep.movedLabels, hkept]
          exact hfirst.append ((Moves.labelled mid labels).append hmoves)
      · next mid left hleft hall =>
        split at h
        · cases h
        · next final' rest' hrest =>
          cases h
          obtain ⟨placement, hcontainers, hkept, hfirst⟩ := exists_placement hall
          obtain ⟨placed, hsteps, rfl, hmoves⟩ := exists_placed_steps hrest
          obtain ⟨first, others, rfl⟩ : ∃ first others, left = first :: others :=
            List.exists_cons_of_ne_nil hleft
          refine ⟨.has placement labels :: placed, ?_, ?_, ?_⟩
          · rw [List.map_cons, hsteps, PlacedStep.step, hcontainers]
            rfl
          · rw [List.filterMap_cons, PlacedStep.remaining?, hkept]
            rfl
          · rw [List.flatMap_cons, List.flatMap_cons, PlacedStep.movedLabels, hkept]
            exact hfirst.append hmoves
  | .select kind ids labels :: steps, rest, scan, final, h
  | .other name arguments labels :: steps, rest, scan, final, h
  | .scan inner :: steps, rest, scan, final, h => by
      cases h
      exact ⟨[], rfl, rfl, .nothing scan⟩

namespace GraphConfig

/-- What a selection is rewritten to follows from the places of the containers after it. Every
container of the filter steps goes to one place. The scan comes first, then what remains of the
filter steps in their order, then the other steps as they were. The scan keeps its kind, holds
the containers that go to it, has the ids of the last container that names some, looks in the
collections that satisfy every label container that goes there, and gets the labels of the
steps of which nothing remains. -/
theorem each_container_in_one_place {kind : ElementKind} {ids labels : List String}
    {steps pushed : List Step}
    (h : config.pushDown (.select kind ids labels :: steps) = .ok pushed) :
    ∃ (placed : List PlacedStep) (scan : Scan),
      placed.map PlacedStep.step = steps.takeWhile Step.isFilter ∧
      pushed = .scan scan ::
        (placed.filterMap PlacedStep.remaining? ++ steps.dropWhile Step.isFilter) ∧
      scan.kind = kind ∧
      scan.containers = (PlacedStep.placements placed).goingTo .scan ∧
      Folds config kind ids ((PlacedStep.placements placed).goingTo .ids) scan.ids ∧
      scan.collections = ((config.collections kind).filter fun name =>
        ((PlacedStep.placements placed).goingTo .collections).all fun c =>
          c.predicate.acceptsName name) ∧
      scan.labels = labels ++ placed.flatMap PlacedStep.movedLabels ∧
      ∀ c ∈ PlacedStep.placements placed, c.2.Fits config kind c.1 := by
  rw [pushDown] at h
  split at h
  · cases h
  · split at h
    · cases h
    · next scan rest hsteps =>
      cases h
      obtain ⟨placed, hfilters, rfl, hmoves⟩ := exists_placed_steps hsteps
      exact ⟨placed, scan, hfilters, rfl, hmoves.kind, hmoves.containers, hmoves.ids,
        hmoves.collections, hmoves.labels, hmoves.fits⟩

/-- A traversal with a container for each place, and a filter step after another step. -/
def kennelTraversal : List Step :=
  [.has [⟨.label, .compare "startingWith" (.string "d")⟩,
      ⟨.synthetic keyAccessor, .compare "eq" (.string "age")⟩] ["a"],
    .barrier,
    .has [⟨.id, .compare "within" (.list [.string "dog/rex"])⟩,
      ⟨.property "age", .compare "gt" (.int32 3)⟩] ["b"],
    .other "out" [] [],
    .has [⟨.property "age", .compare "gt" (.int32 4)⟩] ["c"]]

/-- What the traversal becomes, from all vertices on. -/
def kennelPushed : List Step :=
  [.scan ⟨.vertex, ["dog/rex"], [⟨.property "age", .compare "gt" (.int32 3)⟩], .single "dog",
      ["v", "b"]⟩,
    .has [⟨.synthetic keyAccessor, .compare "eq" (.string "age")⟩] ["a"],
    .barrier,
    .other "out" [] [],
    .has [⟨.property "age", .compare "gt" (.int32 4)⟩] ["c"]]

theorem each_container_in_one_place_kennel :
    kennel.pushDown (.select .vertex [] ["v"] :: kennelTraversal) = .ok kennelPushed ∧
      ∃ (placed : List PlacedStep) (scan : Scan),
        placed.map PlacedStep.step = kennelTraversal.takeWhile Step.isFilter ∧
        kennelPushed = .scan scan :: (placed.filterMap PlacedStep.remaining? ++
          kennelTraversal.dropWhile Step.isFilter) ∧
        scan.containers = (PlacedStep.placements placed).goingTo .scan ∧
        scan.labels = ["v"] ++ placed.flatMap PlacedStep.movedLabels := by
  have hpush : kennel.pushDown (.select .vertex [] ["v"] :: kennelTraversal) =
      .ok kennelPushed := rfl
  obtain ⟨placed, scan, hfilters, hpushed, -, hcontainers, -, -, hlabels, -⟩ :=
    each_container_in_one_place hpush
  exact ⟨hpush, placed, scan, hfilters, hpushed, hcontainers, hlabels⟩

end GraphConfig
end Pushdown
