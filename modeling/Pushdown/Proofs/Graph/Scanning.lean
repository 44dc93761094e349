import Pushdown.Proofs.Graph.Iteration
import Pushdown.Proofs.Store.Calls
import Pushdown.Proofs.Store.ReadCollections

/-!
# Scans without filters

A scan of all elements of a kind, or of those of some ids, sends one query, and its items are the
elements of the documents in the answer, up to the first document that is not decoded.

## Results

* `GraphConfig.exists_error_mem_readItems`, `GraphConfig.mem_readItems`: the items of documents;
* `Graph.exists_drained`: the items of the scan of all elements of a kind;
* `Graph.drained_of_legible`: the same for a legible scan, which does not fail;
* `Graph.drained_of_ids`: the items of the scan of the elements of some ids.
-/

namespace Pushdown

namespace ElementIteration

variable {σ : Type} [Client σ] {it : ElementIteration} {s s' : σ}

/-- A query that fails is the only item. -/
theorem drain_of_query_error {query : Query} {fault : StoreError}
    (hstate : it.state = .pending query) (hquery : Client.query query s = (.error fault, s')) :
    it.drain s = ([.error (.execution fault)], s') := by
  have hnext : it.next s =
      ((some (.error (.execution fault)), { it with state := .done }), s') := by
    simp only [next, hstate, hquery]
  rw [drain, hnext]
  rfl

theorem drain_of_done (hstate : it.state = .done) : it.drain s = ([], s) := by
  have hnext : it.next s = ((none, it), s) := by simp only [next, hstate]
  rw [drain, hnext]

end ElementIteration

namespace GraphConfig

variable {raw config : GraphConfig} {kind : ElementKind} {s : Store} {row : Json} {e : GraphError}
  {element : Element}

/-- The items of documents: their elements, up to the first that is not decoded. -/
def readItems (config : GraphConfig) : List Json → List (Result Element)
  | [] => []
  | row :: rows =>
      match config.decodeElementRow row with
      | .error e => [.error e]
      | .ok element => .ok element :: readItems config rows

/-- Without containers, every decoded document is an item. -/
theorem itemsOf_eq_readItems {it : ElementIteration} (h : it.residual = []) (rows : List Json) :
    ElementIteration.itemsOf it.accept (rows.map .ok) = it.config.readItems rows := by
  induction rows with
  | nil => rfl
  | cons row rows ih =>
      have hrow : it.accept row = (it.config.decodeElementRow row).map some := by
        unfold ElementIteration.accept
        rw [h]
        cases it.config.decodeElementRow row <;> rfl
      rw [List.map_cons, ElementIteration.itemsOf, readItems, hrow, ih]
      cases it.config.decodeElementRow row <;> rfl

/-- Every item is of a document. -/
theorem exists_of_mem_readItems {item : Result Element} :
    ∀ {rows : List Json}, item ∈ config.readItems rows →
      ∃ row ∈ rows, config.decodeElementRow row = item
  | [], h => by cases h
  | row :: rows, h => by
      rw [readItems] at h
      cases hrow : config.decodeElementRow row with
      | error fault =>
          rw [hrow] at h
          cases List.mem_singleton.mp h
          exact ⟨row, List.mem_cons_self, hrow⟩
      | ok read =>
          rw [hrow] at h
          rcases List.mem_cons.mp h with rfl | h
          · exact ⟨row, List.mem_cons_self, hrow⟩
          · obtain ⟨other, hother, hitem⟩ := exists_of_mem_readItems h
            exact ⟨other, List.mem_cons_of_mem row hother, hitem⟩

/-- If a document is not decoded, one of the items is an error. -/
theorem exists_error_mem_readItems :
    ∀ {rows : List Json}, row ∈ rows → config.decodeElementRow row = .error e →
      ∃ first, .error first ∈ config.readItems rows
  | first :: rows, hmem, hrow => by
      rw [readItems]
      cases hfirst : config.decodeElementRow first with
      | error fault => exact ⟨fault, List.mem_singleton.mpr rfl⟩
      | ok read =>
          have hrest : row ∈ rows := by
            refine (List.mem_cons.mp hmem).resolve_left ?_
            rintro rfl
            rw [hrow] at hfirst
            cases hfirst
          obtain ⟨fault, hfault⟩ := exists_error_mem_readItems hrest hrow
          exact ⟨fault, List.mem_cons_of_mem _ hfault⟩

/-- If all documents are decoded, each of them is an item. -/
theorem mem_readItems :
    ∀ {rows : List Json}, (∀ row ∈ rows, ∃ read, config.decodeElementRow row = .ok read) →
      row ∈ rows → config.decodeElementRow row = .ok element → .ok element ∈ config.readItems rows
  | first :: rows, hall, hmem, hrow => by
      obtain ⟨⟨read, hfirst⟩, hall⟩ := List.forall_mem_cons.mp hall
      rw [readItems, hfirst]
      rcases List.mem_cons.mp hmem with rfl | hmem
      · rw [hrow] at hfirst
        cases hfirst
        exact List.mem_cons_self
      · exact List.mem_cons_of_mem _ (mem_readItems hall hmem hrow)

theorem mem_readDocuments_iff (hs : s.Ordered) :
    row ∈ config.readDocuments kind s ↔
      ∃ name ∈ config.readCollections kind, ∃ key, s.document? name key = some row := by
  simp only [readDocuments, List.mem_flatMap, Entries.mem_values_iff (hs.ascending _)]
  rfl

end GraphConfig

namespace Graph

variable {raw config : GraphConfig} {kind : ElementKind} {ids : List String} {s : Store}

/-- A scan without filters sends its query if there are collections to look in. -/
theorem elements_eq (config : GraphConfig) (kind : ElementKind) (ids : List String) :
    Graph.elements ⟨config⟩ kind ids =
      if config.collections kind = .empty then .ok ⟨config, [], .done⟩
      else (config.scanQuery kind ids .empty (config.collections kind)).map
        (Graph.iteration ⟨config⟩ []) := by
  unfold Graph.elements Graph.scan
  by_cases hne : config.collections kind = .empty
  · rw [if_pos (by rw [GraphConfig.startScan, hne]; rfl), if_pos hne]
  · rw [if_neg (by rw [GraphConfig.startScan]; simpa using hne), if_neg hne, GraphConfig.planScan,
      GraphConfig.plan]
    show ((config.scanQuery kind ids .empty (config.collections kind) >>= _ :
      Result ScanPlan).map _) = _
    cases config.scanQuery kind ids .empty (config.collections kind) <;> rfl

/-- The items of a query that is answered. -/
theorem drain_iteration {query : Query} {rows : List Json} (h : s.Returns query rows) :
    ((Graph.iteration ⟨config⟩ [] query).drain s).1 = config.readItems rows := by
  rw [ElementIteration.drain_eq rfl (Prod.ext h rfl),
    GraphConfig.itemsOf_eq_readItems rfl rows]
  rfl

/-- The scan of all elements of a kind gives the elements of the documents that are read, or it
fails and none are. -/
theorem exists_drained (config : GraphConfig) (kind : ElementKind) (hs : s.answers = []) :
    ∃ it, Graph.elements ⟨config⟩ kind [] = .ok it ∧
      ((it.drain s).1 = config.readItems (config.readDocuments kind s) ∨
        config.collections kind ≠ .empty ∧ config.readCollections kind = [] ∧
          ∃ fault, (it.drain s).1 = [.error (.execution fault)]) := by
  rw [elements_eq]
  by_cases hne : config.collections kind = .empty
  · have hread : config.readCollections kind = [] := by
      rw [GraphConfig.readCollections, hne]
      rfl
    rw [if_pos hne]
    refine ⟨_, rfl, .inl ?_⟩
    rw [ElementIteration.drain_of_done rfl, GraphConfig.readDocuments, hread]
    rfl
  · obtain ⟨query, hquery⟩ : ∃ query,
        config.scanQuery kind [] .empty (config.collections kind) = .ok query :=
      (GraphConfig.exists_scanQuery (Names.members_ne_nil hne)).imp fun _ hexists => hexists.1
    have hunanswered := Store.unanswered_of_answers hs query
    rw [if_neg hne, hquery]
    refine ⟨_, rfl, ?_⟩
    rcases GraphConfig.answer_scan hquery hunanswered with hanswer | ⟨hnone, fault, hanswer⟩
    · exact .inl (drain_iteration (Store.returns_iff.mpr hanswer))
    · refine .inr ⟨hne, hnone, fault, ?_⟩
      rw [ElementIteration.drain_of_query_error rfl
        (Prod.ext (congrArg (Except.map _) hanswer) rfl)]

/-- A legible scan of all elements of a kind gives the elements of the documents that are read. -/
theorem drained_of_legible (hs : s.answers = [])
    (h : GraphConfig.Legible config .empty (config.collections kind)) {it : ElementIteration}
    (hit : Graph.elements ⟨config⟩ kind [] = .ok it) :
    (it.drain s).1 = config.readItems (config.readDocuments kind s) := by
  obtain ⟨other, hother, hitems⟩ := exists_drained config kind hs
  obtain rfl : it = other := Except.ok.inj (hit.symm.trans hother)
  rcases hitems with hitems | ⟨hne, hnone, -⟩
  · exact hitems
  · rw [GraphConfig.readCollections_of_legible h] at hnone
    exact absurd (Names.members_eq_nil_iff.mp (List.map_eq_nil_iff.mp hnone)) hne

/-- The scan of some ids gives the elements of their documents in the collections of the kind. -/
theorem drained_of_ids (hvalid : raw.validate = .ok config) (hids : ids ≠ [])
    (hs : s.answers = []) {it : ElementIteration}
    (hit : Graph.elements ⟨config⟩ kind ids = .ok it) :
    (it.drain s).1 = config.readItems
      (ids.filterMap (config.eligibleDocument? kind (config.collections kind) s)) := by
  rw [elements_eq] at hit
  split at hit
  · next hnone =>
    have hall : ids.filterMap (config.eligibleDocument? kind (config.collections kind) s) = [] := by
      rw [List.filterMap_eq_nil_iff]
      intro id _
      unfold GraphConfig.eligibleDocument?
      split
      · rfl
      · exact if_neg (by rw [hnone]; exact List.not_mem_nil)
    cases hit
    rw [ElementIteration.drain_of_done rfl, hall]
    rfl
  · obtain ⟨query, hquery, rfl⟩ := Outcome.map_eq_ok_iff.mp hit
    have hunanswered := Store.unanswered_of_answers hs query
    exact drain_iteration
      (GraphConfig.returns_fetched hvalid (fun _ hname => hname) hids hquery hunanswered)

end Graph
end Pushdown
