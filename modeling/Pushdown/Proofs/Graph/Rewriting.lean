import Pushdown.Proofs.Graph.Documents
import Pushdown.Proofs.Plan.Absorption

/-!
# Rewriting finds the same elements

A scan that takes a container in keeps the elements that it kept before and that pass the
container, whether the container narrows its collections or joins its own. Containers that
are left are tested afterwards, so over a pass the elements that are kept and pass what is
left stay the same.

Ids folded into a scan are left out here: they stand for a test on ids that is not made again.

## Results

* `Scan.keeps_of_absorbs`: one container;
* `Pass.keeps_iff`: a pass;
* `Graph.mem_pushed_iff_mem_plain`: running what a traversal was rewritten to, and testing all
  elements.
-/

namespace Pushdown

variable {config : GraphConfig} {element : Element}

/-- In a complex graph, the label of an element is its collection. -/
def LabelledByCollection (config : GraphConfig) (element : Element) : Prop :=
  config.type = .complex → element.label = element.id.collection

/-- No container is folded into the ids of a scan: there are some, or no container names
any. -/
def Unfolded (ids : List String) (containers : List HasContainer) : Prop :=
  ids ≠ [] ∨ ∀ c ∈ containers, c.key = .id → c.predicate.namedValues? = none

theorem mem_narrow_iff {predicate : Predicate} (name : String) :
    ∀ {collections narrowed : List String},
      GraphConfig.narrow predicate collections = .ok narrowed →
      (name ∈ narrowed ↔ name ∈ collections ∧ predicate.test (some (.string name)) = .ok true)
  | [], narrowed, h => by
      cases h
      simp
  | collection :: collections, narrowed, h => by
      rw [GraphConfig.narrow] at h
      split at h
      · cases h
      · next keep hkeep =>
        split at h
        · cases h
        · next rest hrest =>
          cases h
          have hfirst : keep = true ↔ predicate.test (some (.string collection)) = .ok true := by
            rw [hkeep, Except.ok.injEq]
          exact Graph.mem_keep_iff (P := fun n => predicate.test (some (.string n)) = .ok true)
            (mem_narrow_iff name hrest) hfirst

/-- What `Unfolded` leaves out: a container that is folded into the ids. -/
theorem Unfolded.not_named {ids : List String} {container : HasContainer} {values : List Value}
    (h : Unfolded ids [container]) (hkey : container.key = .id) (hids : ids = [])
    (hnamed : container.predicate.namedValues? = some values) : False := by
  rcases h with hne | hnone
  · exact hne hids
  · rw [hnone container List.mem_cons_self hkey] at hnamed
    cases hnamed

namespace Scan

/-- A scan that takes a container in keeps what it kept before and what passes the container. -/
theorem keeps_of_absorbs (hlabel : LabelledByCollection config element) {scan next : Scan}
    {container : HasContainer} (hunfolded : Unfolded scan.ids [container])
    (h : Absorbs config scan container (some next)) :
    next.Keeps config element ↔
      scan.Keeps config element ∧ Graph.Passes config container element := by
  cases h with
  | folded hkey hids hnamed _ => exact (hunfolded.not_named hkey hids hnamed).elim
  | narrowed hkey htype hnarrow =>
      have hpasses : Graph.Passes config container element ↔
          container.predicate.test (some (.string element.id.collection)) = .ok true := by
        rw [Graph.Passes, GraphConfig.testContainer, hkey, ← hlabel htype]
      rw [hpasses]
      constructor
      · rintro ⟨hmem, hnamed, hall⟩
        obtain ⟨hmem, htest⟩ := (mem_narrow_iff _ hnarrow).mp (Names.mem_ofList.mp hmem)
        exact ⟨⟨hmem, hnamed, hall⟩, htest⟩
      · rintro ⟨⟨hmem, hnamed, hall⟩, htest⟩
        exact ⟨Names.mem_ofList.mpr ((mem_narrow_iff _ hnarrow).mpr ⟨hmem, htest⟩), hnamed, hall⟩
  | taken _ _ _ =>
      constructor
      · rintro ⟨hmem, hnamed, hall⟩
        rw [List.forall_mem_append, List.forall_mem_singleton] at hall
        exact ⟨⟨hmem, hnamed, hall.1⟩, hall.2⟩
      · rintro ⟨⟨hmem, hnamed, hall⟩, hpass⟩
        refine ⟨hmem, hnamed, ?_⟩
        rw [List.forall_mem_append, List.forall_mem_singleton]
        exact ⟨hall, hpass⟩

/-- Without folding, the ids of a scan stay as they are. -/
theorem ids_of_absorbs {scan next : Scan} {container : HasContainer}
    (hunfolded : Unfolded scan.ids [container])
    (h : Absorbs config scan container (some next)) : next.ids = scan.ids := by
  cases h with
  | folded hkey hids hnamed _ => exact (hunfolded.not_named hkey hids hnamed).elim
  | narrowed _ _ _ => rfl
  | taken _ _ _ => rfl

end Scan

theorem Unfolded.cons {ids : List String} {container : HasContainer}
    {containers : List HasContainer} (h : Unfolded ids (container :: containers)) :
    Unfolded ids [container] ∧ Unfolded ids containers := by
  rcases h with hne | hnone
  · exact ⟨.inl hne, .inl hne⟩
  · rw [List.forall_mem_cons] at hnone
    refine ⟨.inr ?_, .inr hnone.2⟩
    rw [List.forall_mem_singleton]
    exact hnone.1

/-- Over a pass, the elements that the scan keeps and that pass what is left are those that
it kept before and that pass every container. -/
theorem Pass.keeps_iff (hlabel : LabelledByCollection config element) {scan final : Scan}
    {containers kept : List HasContainer} (h : Pass config scan containers final kept)
    (hunfolded : Unfolded scan.ids containers) :
    (final.Keeps config element ∧ ∀ c ∈ kept, Graph.Passes config c element) ↔
      scan.Keeps config element ∧ ∀ c ∈ containers, Graph.Passes config c element := by
  -- each step moves a container between what the scan keeps and what is still to be tested
  induction h with
  | done scan => exact Iff.rfl
  | took habs _ ih =>
      obtain ⟨hone, hrest⟩ := hunfolded.cons
      rw [ih (Scan.ids_of_absorbs hone habs ▸ hrest),
        Scan.keeps_of_absorbs hlabel hone habs, List.forall_mem_cons, and_assoc]
  | left _ _ ih =>
      obtain ⟨-, hrest⟩ := hunfolded.cons
      rw [List.forall_mem_cons, List.forall_mem_cons, and_left_comm, ih hrest, and_left_comm]
  | labelled labels _ ih =>
      rw [ih hunfolded]
      exact and_congr_left fun _ =>
        ⟨fun h => ⟨h.collection, h.named, h.passes⟩, fun h => ⟨h.collection, h.named, h.passes⟩⟩

namespace Graph

/-- The label of a document of a complex graph is the collection of its element. -/
theorem labelledByCollection_of_decode {d : StoredDocument} (hplaced : d.Placed config)
    (hlabelled : d.Labelled config) (hdecode : config.decodeElementRow d.json = .ok element) :
    LabelledByCollection config element := by
  intro htype
  obtain ⟨name, hname, hfield⟩ := hlabelled htype
  obtain ⟨key, -, -, hcollection⟩ := hplaced.keyed hdecode
  obtain ⟨-, hlabel⟩ := GraphConfig.of_decodeElementRow hdecode
  rw [hcollection] at hname
  rw [hlabel, GraphConfig.decodeLabel, hfield]
  exact (ElementId.physicalName_inj hname).symm

/-- When every step is a filter step, no other step is left. -/
theorem takeWhile_isFilter :
    ∀ {steps : List Step}, (∀ step ∈ steps, step.isFilter = true) →
      steps.takeWhile Step.isFilter = steps ∧ steps.dropWhile Step.isFilter = []
  | [], _ => ⟨rfl, rfl⟩
  | step :: steps, h => by
      obtain ⟨hstep, hrest⟩ := List.forall_mem_cons.mp h
      obtain ⟨htake, hdrop⟩ := takeWhile_isFilter hrest
      rw [List.takeWhile_cons_of_pos hstep, List.dropWhile_cons_of_pos hstep, htake]
      exact ⟨rfl, hdrop⟩

/-- What a traversal was rewritten to finds, together with the containers that were left, the
elements that the bare selection finds together with all containers. -/
theorem mem_pushed_iff_mem_plain {σ : Type} [Client σ] {documents : List StoredDocument}
    (hplaced : ∀ d ∈ documents, d.Placed config)
    (hlabelled : ∀ d ∈ documents, d.Labelled config)
    {kind : ElementKind} {ids labels : List String} {filters rest : List Step} {scan : Scan}
    (hfilters : ∀ step ∈ filters, step.isFilter = true)
    (hunfolded : Unfolded ids (hasContainers filters))
    (hpush : config.pushDown (.select kind ids labels :: filters) = .ok (.scan scan :: rest))
    {s s' t t' : σ} (hserves : Serves config documents scan s)
    (hserves' : Serves config documents (config.startScan kind ids labels) t)
    {pushed plain : List Element}
    (hpushed : filtered ⟨config⟩ scan (hasContainers rest) s = (.ok pushed, s'))
    (hplain : filtered ⟨config⟩ (config.startScan kind ids labels) (hasContainers filters) t =
      (.ok plain, t')) (element : Element) :
    element ∈ pushed ↔ element ∈ plain := by
  rw [mem_filtered_iff hplaced hserves hpushed, mem_filtered_iff hplaced hserves' hplain]
  refine and_congr_right ?_
  rintro ⟨d, hd, hdecode⟩
  have hlabel := labelledByCollection_of_decode (hplaced d hd) (hlabelled d hd) hdecode
  obtain ⟨-, final, rest', kept, heq, hpass, hkept⟩ := pass_of_pushDown hpush
  cases heq
  obtain ⟨htake, hdrop⟩ := takeWhile_isFilter hfilters
  rw [htake] at hpass
  rw [hdrop] at hkept
  have hleft : hasContainers rest = kept := by
    rw [hkept]
    exact List.append_nil kept
  rw [hleft]
  exact hpass.keeps_iff hlabel hunfolded

/-- Filter steps of which one container is taken in and one is left. -/
def personFilters : List Step :=
  [.has [⟨.label, .compare "startingWith" (.string "per")⟩,
    ⟨.synthetic keyAccessor, .compare "eq" (.string "age")⟩] [], .barrier]

/-- The scan that takes in the first of their containers. -/
def personScan : Scan :=
  ⟨.vertex, [], [⟨.label, .compare "startingWith" (.string "per")⟩], .single "vertex", []⟩

/-- The steps that are left. -/
def personRest : List Step :=
  [.has [⟨.synthetic keyAccessor, .compare "eq" (.string "age")⟩] [], .barrier]

theorem mem_pushed_iff_mem_plain_persons :
    ∃ (pushed plain : List Element) (s' t' : Store),
      filtered ⟨GraphConfig.standard⟩ personScan (hasContainers personRest) Store.household =
        (.ok pushed, s') ∧
      filtered ⟨GraphConfig.standard⟩ (GraphConfig.standard.startScan .vertex [] [])
          (hasContainers personFilters) Store.household = (.ok plain, t') ∧
      ∀ element, element ∈ pushed ↔ element ∈ plain := by
  have hserves : Serves GraphConfig.standard [.alice, .rex] personScan Store.household := by
    intro plan hplan
    cases hplan
    exact ⟨[StoredDocument.alice.json, StoredDocument.rex.json], _, rfl,
      mem_household_iff rfl rfl⟩
  obtain ⟨pushed, s', hpushed⟩ := exists_of_toBool (filtered ⟨GraphConfig.standard⟩
    personScan (hasContainers personRest) Store.household) (by decide +kernel)
  obtain ⟨plain, t', hplain⟩ := exists_of_toBool (filtered ⟨GraphConfig.standard⟩
    (GraphConfig.standard.startScan .vertex [] []) (hasContainers personFilters)
    Store.household) (by decide +kernel)
  refine ⟨pushed, plain, s', t', hpushed, hplain, ?_⟩
  have hpush : GraphConfig.standard.pushDown (.select .vertex [] [] :: personFilters) =
      .ok (.scan personScan :: personRest) := rfl
  refine mem_pushed_iff_mem_plain placed_household ?_ ?_ ?_ hpush hserves
    (serves_household []) hpushed hplain
  · intro d _ htype
    cases htype
  · decide
  · refine .inr ?_
    intro c hc hkey
    rcases (List.mem_cons.mp hc).imp_right List.mem_singleton.mp with rfl | rfl
    · cases hkey
    · cases hkey

end Graph
end Pushdown
