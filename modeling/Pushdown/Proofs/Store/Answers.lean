import Pushdown.Proofs.Identity.RoundTrip
import Pushdown.Proofs.Text.Occurrence
import Pushdown.Store.Memory

/-!
# Answers of the store

The store recognizes a query by marks in its text. A fetch by ids always carries its mark, and is
tested for it first, so it is answered by the documents of the ids.

## Results

* `Store.returns_iff`: what a query without a fixed answer returns;
* `Store.lookup?_documentId`: a document is found by its id;
* `GraphConfig.documentIds_eq_filterMap`: the document ids that are bound for some ids;
* `GraphConfig.returns_fetched`: the answer to a fetch by ids.
-/

namespace Pushdown
namespace Store

/-- The query has no fixed answer. -/
def Unanswered (store : Store) (query : Query) : Prop :=
  Entries.find? query.text store.answers = none

/-- The rows that a query returns. -/
def Returns (store : Store) (query : Query) (rows : List Json) : Prop :=
  (store.query query).1 = .ok (rows.map .ok)

/-- Collections and documents are in the order of their keys. -/
structure Ordered (store : Store) : Prop where
  collections : Entries.Ascending store.collections
  documents : ∀ entry ∈ store.collections, Entries.Ascending entry.2

/-- The mark of a fetch by ids. -/
def fetchMark : String := "DOCUMENT(@ids)"

/-- The mark of a neighborhood. -/
def neighborMark : String := "@startId"

variable {store : Store} {query : Query} {rows : List Json}

/-- A store without fixed answers has none for any query. -/
theorem unanswered_of_answers (h : store.answers = []) (query : Query) :
    store.Unanswered query := by
  rw [Unanswered, h]
  rfl

theorem returns_iff : store.Returns query rows ↔ store.answer query = .ok rows := by
  unfold Returns Store.query
  dsimp only
  cases store.answer query with
  | error e => simp [Except.map]
  | ok found =>
      have hrows : found.map Except.ok = rows.map (Except.ok (ε := StoreError)) ↔ found = rows :=
        List.map_inj_right fun _ _ h => Except.ok.inj h
      simpa [Except.map] using hrows

theorem answer_of_fetchMark (h : store.Unanswered query)
    (hfetch : Text.contains query.text fetchMark = true) :
    store.answer query = store.fetch query.bindings := by
  rw [Unanswered] at h
  rw [fetchMark] at hfetch
  rw [answer, h]
  dsimp only
  rw [if_pos hfetch]

theorem answer_of_neighborMark (h : store.Unanswered query)
    (hfetch : Text.contains query.text fetchMark = false)
    (hneighbor : Text.contains query.text neighborMark = true) :
    store.answer query = store.neighborhood query := by
  rw [Unanswered] at h
  rw [fetchMark] at hfetch
  rw [neighborMark] at hneighbor
  rw [answer, h]
  dsimp only
  rw [hfetch, if_neg Bool.false_ne_true, if_pos hneighbor]

theorem answer_of_unmarked (h : store.Unanswered query)
    (hfetch : Text.contains query.text fetchMark = false)
    (hneighbor : Text.contains query.text neighborMark = false) :
    store.answer query = store.scan query.text := by
  rw [Unanswered] at h
  rw [fetchMark] at hfetch
  rw [neighborMark] at hneighbor
  rw [answer, h]
  dsimp only
  rw [hfetch, hneighbor, if_neg Bool.false_ne_true, if_neg Bool.false_ne_true]

/-- A document is found by its id, which is cut behind the name of the collection. -/
theorem lookup?_documentId (store : Store) {collection : String}
    (h : keySeparator ∉ collection.toList) (key : String) :
    store.lookup? (documentId collection key) = store.document? collection key := by
  have hcut : Text.splitAt? keySeparator (documentId collection key).toList =
      some (collection.toList, key.toList) :=
    Text.splitAt?_eq_some_iff.mpr ⟨h, toList_join _ _ _⟩
  unfold lookup? document? documents
  rw [hcut, Option.bind_eq_bind, Option.bind_some]
  dsimp only
  rw [String.ofList_toList, String.ofList_toList]
  cases Entries.find? collection store.collections <;> rfl

/-- The texts of a list are all bound. -/
theorem boundTexts_strings {bindings : Entries Json} {name : String} {texts : List String}
    (h : Entries.find? name bindings = some (Json.strings texts)) :
    boundTexts bindings name = .ok texts := by
  have htexts : (texts.map Json.string).filterMap Json.asString? = texts := by
    rw [List.filterMap_map]
    exact List.filterMap_some
  rw [boundTexts, h]
  exact congrArg Except.ok htexts

end Store

namespace GraphConfig

variable {raw config : GraphConfig} {kind : ElementKind} {collections : List String}

/-- The stored document of an id that lies in one of several collections. -/
def eligibleDocument? (config : GraphConfig) (kind : ElementKind) (collections : List String)
    (store : Store) (id : String) : Option Json :=
  match config.parseId kind id with
  | .error _ => none
  | .ok element =>
      if element.collection ∈ collections then
        element.key.bind (store.document? (config.physicalCollection element.collection))
      else none

/-- The document id that is bound for an id. -/
def boundId? (config : GraphConfig) (kind : ElementKind) (collections : List String)
    (text : String) : Option String :=
  (config.parseId kind text).toOption.bind fun element =>
    if element.collection ∈ collections then element.documentId? else none

theorem boundId?_of_parseId {text : String} {element : ElementId}
    (h : config.parseId kind text = .ok element) :
    config.boundId? kind collections text =
      if element.collection ∈ collections then element.documentId? else none := by
  rw [boundId?, h]
  rfl

/-- An id is bound to the document of its identity, if that lies in the collections. -/
theorem boundId?_eq_some_iff {text document : String} :
    config.boundId? kind collections text = some document ↔
      ∃ element, config.parseId kind text = .ok element ∧
        element.documentId? = some document ∧ element.collection ∈ collections := by
  cases hparse : config.parseId kind text with
  | error e =>
      rw [boundId?, hparse]
      exact iff_of_false nofun fun ⟨_, h, _⟩ => nomatch h
  | ok element =>
      rw [boundId?_of_parseId hparse]
      simp [and_comm]

/-- Every id that has a document is bound, in the order of the ids. -/
theorem documentIds_eq_filterMap : ∀ {ids bound : List String},
    config.documentIds kind collections ids = .ok bound →
      bound = ids.filterMap (config.boundId? kind collections)
  | [], _, h => by
      cases h
      rfl
  | id :: ids, _, h => by
      obtain ⟨element, helement, h⟩ := Outcome.bind_eq_ok_iff.mp h
      obtain ⟨rest, hrest, h⟩ := Outcome.bind_eq_ok_iff.mp h
      rw [List.filterMap_cons, boundId?_of_parseId helement, ← documentIds_eq_filterMap hrest]
      by_cases hmem : element.collection ∈ collections
      · rw [if_pos hmem]
        split at h
        · next document hdocument =>
          rw [if_pos (List.contains_iff_mem.mpr hmem)] at h
          cases h
          rw [hdocument]
        · next hnone =>
          cases h
          rw [hnone]
      · rw [if_neg hmem]
        split at h
        · rw [if_neg fun hc => hmem (List.contains_iff_mem.mp hc)] at h
          cases h
          rfl
        · cases h
          rfl

/-- The documents of the ids in the collections. -/
theorem lookup_documentIds (h : raw.validate = .ok config)
    (hcollections : ∀ name ∈ collections, name ∈ config.collections kind) (store : Store)
    {ids bound : List String} (hids : config.documentIds kind collections ids = .ok bound) :
    bound.filterMap store.lookup? =
      ids.filterMap (config.eligibleDocument? kind collections store) := by
  rw [documentIds_eq_filterMap hids, List.filterMap_filterMap]
  refine congrArg (List.filterMap · ids) (funext fun id => ?_)
  cases hparse : config.parseId kind id with
  | error e => rw [boundId?, eligibleDocument?, hparse]; rfl
  | ok element =>
      rw [boundId?_of_parseId hparse, eligibleDocument?, hparse]
      dsimp only
      by_cases hmem : element.collection ∈ collections
      · obtain ⟨hgraph, ⟨key, hkey, -⟩, -⟩ := (parseId_eq_ok_iff_nameable h).mp hparse |>.1
        have hpart := ((names_of_validate h).2 kind _ (hcollections _ hmem)).part
        have hdocument : element.documentId? =
            some (Store.documentId (config.physicalCollection element.collection) key) := by
          rw [ElementId.documentId?, hkey, ElementId.physicalCollection_of_graph hgraph]
          rfl
        rw [if_pos hmem, if_pos hmem, hdocument, hkey, Option.bind_some, Option.bind_some,
          Store.lookup?_documentId store (keySeparator_not_mem_physicalCollection h hpart)]
      · -- an id of another collection is looked up by neither
        rw [if_neg hmem, if_neg hmem, Option.bind_none]

/-- A fetch by ids returns the documents of the ids that lie in the collections, whatever its
filter says. -/
theorem returns_fetched (h : raw.validate = .ok config) {ids : List String} {filter : Filter}
    {query : Query} (hcollections : ∀ name ∈ collections, name ∈ config.collections kind)
    (hids : ids ≠ []) (hquery : config.scanQuery kind ids filter collections = .ok query)
    {store : Store} (hstore : store.Unanswered query) :
    store.Returns query (ids.filterMap (config.eligibleDocument? kind collections store)) := by
  unfold scanQuery at hquery
  split at hquery
  · cases hquery
  · rw [if_neg (by simpa using hids)] at hquery
    split at hquery
    · cases hquery
    · next documentIds hdocuments =>
      cases hquery
      have hmark : Text.contains ("FOR d IN DOCUMENT(@ids)" ++ filter.clause "d" ++ " RETURN d")
          Store.fetchMark = true := by
        rw [Text.contains_iff, String.append_assoc, String.toList_append]
        exact ⟨"FOR d IN ".toList, _, rfl⟩
      have hbound : Store.boundTexts [("ids", Json.strings documentIds)] "ids" = .ok documentIds :=
        Store.boundTexts_strings rfl
      rw [Store.returns_iff, Store.answer_of_fetchMark hstore hmark, Store.fetch, hbound,
        ← lookup_documentIds h hcollections store hdocuments]
      rfl

end GraphConfig
end Pushdown
