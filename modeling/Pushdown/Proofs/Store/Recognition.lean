import Pushdown.Proofs.Plan.Planning
import Pushdown.Proofs.Store.Neighborhoods
import Pushdown.Proofs.Store.Scans

/-!
# Queries that the store recognizes

The store recovers what a query asks for from its text, which also holds the names and texts that
were given to it. A fetch by ids is always recognized. A scan is when it is legible, and a
neighborhood when it is directed. Both conditions are exact: where one fails, some store answers in
another way.

## Results

* `GraphConfig.answered_iff_recognized`: when queries return what they ask for;
* `GraphConfig.not_answered_of_quoted_mark`: a scan and a neighborhood that do not.
-/

namespace Pushdown

open Store

/-- On every store without a fixed answer a query returns the given rows, if a condition holds;
otherwise some store with its keys in order returns others. -/
def Store.ReturnsIff (query : Query) (rows : Store → List Json) (condition : Prop) : Prop :=
  (condition → ∀ store : Store, store.Unanswered query → store.Returns query (rows store)) ∧
    (¬ condition → ∃ store : Store, store.Ordered ∧ store.Unanswered query ∧
      ¬ store.Returns query (rows store))

namespace GraphConfig

variable {raw config : GraphConfig}

theorem exists_neighborQuery {start : ElementId} {startId : String} {labels names : List String}
    {filter : Filter} (direction : Direction) (target : ElementKind)
    (hstart : start.documentId? = some startId)
    (hnames : config.neighborCollections labels = .ok (names, filter)) :
    ∃ query, config.neighborQuery start direction labels target = .ok query := by
  unfold neighborQuery
  rw [hstart, hnames]
  exact ⟨_, rfl⟩

/-- A fetch by ids returns the stored documents of the ids that lie in its collections, in their
order. A scan without ids returns the documents of its collections, exactly if it is legible. A
neighborhood returns the rows of the edges that are incident in its direction, exactly if it is
directed. -/
theorem answered_iff_recognized (h : raw.validate = .ok config) :
    (∀ (kind : ElementKind) (ids : List String) (filter : Filter) (collections : List String),
      ids ≠ [] → (∀ id ∈ ids, ∃ element, config.parseId kind id = .ok element) →
      collections ≠ [] → (∀ name ∈ collections, name ∈ config.collections kind) →
      ∃ query, config.scanQuery kind ids filter collections = .ok query ∧
        ∀ store : Store, store.Unanswered query →
          store.Returns query (ids.filterMap (config.eligibleDocument? kind collections store))) ∧
    (∀ (kind : ElementKind) (filter : Filter) (collections : List String), collections ≠ [] →
      ∃ query, config.scanQuery kind [] filter collections = .ok query ∧
        ReturnsIff query (config.scannedDocuments collections)
          (Legible config filter collections)) ∧
    (∀ (start : ElementId) (startId : String) (direction : Direction) (labels names : List String)
        (filter : Filter) (target : ElementKind), start.documentId? = some startId →
      config.neighborCollections labels = .ok (names, filter) →
      ∃ query, config.neighborQuery start direction labels target = .ok query ∧
        ReturnsIff query (fun store => config.incidentRows names store direction startId target)
          (Directed config filter names direction)) := by
  refine ⟨?_, ?_, ?_⟩
  · intro kind ids filter collections hids hparsed hne hcollections
    obtain ⟨query, hquery⟩ := scanQuery_total filter hparsed hne
    exact ⟨query, hquery, fun store hstore =>
      returns_fetched h hcollections hids hquery hstore⟩
  · intro kind filter collections hne
    have hexists : ∃ query, config.scanQuery kind [] filter collections = .ok query ∧
        query.bindings = [] ∧
        query.text.toList = Piece.write (config.scanPieces filter collections) :=
      exists_scanQuery hne
    obtain ⟨query, hquery, -⟩ := hexists
    exact ⟨query, hquery, fun hlegible store hstore =>
      returns_scanned_of_legible hne hquery hlegible hstore, exists_not_returns_scanned hne hquery⟩
  · intro start startId direction labels names filter target hstart hnames
    obtain ⟨query, hquery⟩ := exists_neighborQuery direction target hstart hnames
    exact ⟨query, hquery, fun hdirected store hstore =>
      returns_incident_of_directed hquery hstart hnames hdirected hstore,
      exists_not_returns_incident h hquery hstart hnames⟩

/-- The document of the dog of the kennel. -/
def rexDocument : Json :=
  .object [("_id", .string "kennel_dog/rex"), ("_key", .string "rex")]

/-- The document of the person who keeps it. -/
def aliceDocument : Json :=
  .object [("_id", .string "kennel_person/alice"), ("_key", .string "alice")]

/-- A store of both, and of the edge between them. -/
def kennelStore : Store :=
  { Store.empty with
    collections := [("kennel_dog", [("rex", rexDocument)]),
      ("kennel_keeps", [("1", edgeBetween "kennel_person/alice" "kennel_dog/rex")]),
      ("kennel_person", [("alice", aliceDocument)])] }

/-- A filter whose text opens a name that nothing closes. -/
def openingFilter : Filter := .equals "note" (.string "IN \x60kennel")

theorem legible_openingFilter : Legible kennel openingFilter ["dog"] where
  unmarked := by decide
  plain := by
    intro name hname
    obtain rfl := List.mem_singleton.mp hname
    exact ⟨by decide, by decide⟩
  settled := by
    intro piece _ _
    have hfirst : Text.contains " FILTER \x60x\x60.\x60note\x60 == \"" "IN \x60" = false := by
      decide
    have hnone := fun h => Bool.eq_false_iff.mp hfirst (Text.contains_iff.mpr h)
    exact ⟨rfl, " FILTER \x60x\x60.\x60note\x60 == \"".toList, "kennel\"".toList, rfl, hnone,
      by decide⟩

theorem answered_iff_recognized_kennel :
    kennel.validate = .ok kennel ∧
      (∃ query, kennel.scanQuery .vertex ["person/alice", "dog/rex", "dog/max"] openingFilter
          ["dog"] = .ok query ∧ kennelStore.Returns query [rexDocument]) ∧
      (∃ query, kennel.scanQuery .vertex [] openingFilter ["dog"] = .ok query ∧
        kennelStore.Returns query [rexDocument]) ∧
      ∃ query, kennel.neighborQuery rexOfKennel .incoming [] .vertex = .ok query ∧
        kennelStore.Returns query [aliceDocument] := by
  obtain ⟨hfetch, hscan, hneighbor⟩ := answered_iff_recognized validate_kennel
  refine ⟨validate_kennel, ?_, ?_, ?_⟩
  · have hparsed : ∀ id ∈ ["person/alice", "dog/rex", "dog/max"],
        ∃ element, kennel.parseId .vertex id = .ok element := by
      simp only [List.forall_mem_cons, List.not_mem_nil, false_implies, implies_true, and_true]
      exact ⟨⟨_, rfl⟩, ⟨_, rfl⟩, ⟨_, rfl⟩⟩
    obtain ⟨query, hquery, hrows⟩ :=
      hfetch .vertex _ openingFilter ["dog"] (by decide) hparsed (by decide) (by decide)
    exact ⟨query, hquery, hrows kennelStore rfl⟩
  · obtain ⟨query, hquery, hrows, -⟩ := hscan .vertex openingFilter ["dog"] (by decide)
    exact ⟨query, hquery, hrows legible_openingFilter kennelStore rfl⟩
  · have hdirected : Directed kennel .empty ["keeps"] .incoming := ⟨by decide, by decide⟩
    obtain ⟨query, hquery, hrows, -⟩ :=
      hneighbor rexOfKennel "kennel_dog/rex" .incoming [] ["keeps"] .empty .vertex rfl rfl
    exact ⟨query, hquery, hrows hdirected kennelStore rfl⟩

/-- A kennel under the name of a direction. -/
def outboundKennel : GraphConfig := { kennel with graph := " OUTBOUND " }

/-- The store of that kennel. -/
def outboundStore : Store :=
  { Store.empty with
    collections := [(" OUTBOUND _dog", [("rex", rexDocument)]),
      (" OUTBOUND _keeps", [("1", edgeBetween " OUTBOUND _person/alice" " OUTBOUND _dog/rex")]),
      (" OUTBOUND _person", [("alice", aliceDocument)])] }

/-- A scan that compares a name with the mark of a fetch is not answered by the dogs, and a
neighborhood of incoming edges in a graph named as outgoing ones not by the person. -/
theorem not_answered_of_quoted_mark :
    kennel.validate = .ok kennel ∧ outboundKennel.validate = .ok outboundKennel ∧
      (∃ query, kennel.scanQuery .vertex [] (.equals "name" (.string "DOCUMENT(@ids)")) ["dog"] =
          .ok query ∧ kennelStore.Unanswered query ∧
        kennel.scannedDocuments ["dog"] kennelStore = [rexDocument] ∧
        ¬ kennelStore.Returns query [rexDocument]) ∧
      ∃ query, outboundKennel.neighborQuery ⟨" OUTBOUND ", "dog", some "rex"⟩ .incoming [] .vertex =
          .ok query ∧ outboundStore.Unanswered query ∧
        outboundKennel.incidentRows ["keeps"] outboundStore .incoming " OUTBOUND _dog/rex" .vertex =
          [aliceDocument] ∧
        ¬ outboundStore.Returns query [aliceDocument] := by
  refine ⟨validate_kennel, rfl, ⟨_, rfl, rfl, rfl, fun h => ?_⟩, ⟨_, rfl, rfl, rfl, fun h => ?_⟩⟩
  · cases h
  · cases h

end GraphConfig
end Pushdown
