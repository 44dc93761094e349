import Pushdown.Proofs.Config.Validation
import Pushdown.Proofs.Graph.Iteration
import Pushdown.Proofs.Store.Answers

/-!
# Documents and scans

The documents of a store lie at places, each under a key in a collection. A client that
answers a scan with the documents it asks for, whatever its filter, makes the scan find the
elements of its collections and ids that pass its containers.

## Results

* `StoredDocument.Placed.keyed`: the identity of a document is its place;
* `Graph.requested_iff`: the documents that a scan asks for;
* `Graph.mem_filtered_iff`: the elements that a scan and further containers leave.
-/

namespace Pushdown

/-- A document at its place in the store. -/
structure StoredDocument where
  /-- Name of the collection in the store. -/
  collection : String
  key : String
  fields : Entries Json

namespace StoredDocument

/-- Name of a document in the store. -/
def id (d : StoredDocument) : String := d.collection ++ keySeparator.toString ++ d.key

def json (d : StoredDocument) : Json := .object d.fields

/-- An element document that carries its place. -/
structure Placed (config : GraphConfig) (d : StoredDocument) : Prop where
  key : Entries.find? "_key" d.fields = some (.string d.key)
  id : Entries.find? "_id" d.fields = some (.string d.id)
  decodes : ∃ element, config.decodeElementRow d.json = .ok element

/-- In a complex graph, the label of a document is the name of its collection. -/
def Labelled (config : GraphConfig) (d : StoredDocument) : Prop :=
  config.type = .complex → ∃ name, d.collection = config.physicalCollection name ∧
    Entries.find? config.labelField d.fields = some (.string name)

end StoredDocument

/-- The documents that a scan asks for: those of the ids it binds, or those of its
collections. -/
def Requested (config : GraphConfig) (scan : Scan) (query : Query) (d : StoredDocument) : Prop :=
  if scan.ids = [] then ∃ name ∈ scan.collections, d.collection = config.physicalCollection name
  else ∃ ids, Entries.find? "ids" query.bindings = some (Json.strings ids) ∧ d.id ∈ ids

/-- A client answers the query of a scan with the documents it asks for, whatever its
filter. -/
def Serves {σ : Type} [Client σ] (config : GraphConfig) (documents : List StoredDocument)
    (scan : Scan) (s : σ) : Prop :=
  ∀ plan, config.planScan scan = .ok plan →
    ∃ (rows : List Json) (s' : σ), Client.query plan.query s = (.ok (rows.map .ok), s') ∧
      ∀ row, row ∈ rows ↔ ∃ d ∈ documents, Requested config scan plan.query d ∧ d.json = row

/-- What a scan is to find: elements of its collections, of its ids if there are any, that
pass its containers. -/
structure Scan.Keeps (config : GraphConfig) (scan : Scan) (element : Element) : Prop where
  collection : element.id.collection ∈ scan.collections
  named : scan.ids = [] ∨ ∃ id ∈ scan.ids, config.parseId scan.kind id = .ok element.id
  passes : ∀ c ∈ scan.containers, Graph.Passes config c element

variable {config : GraphConfig}

theorem Json.eq_string_of_asString? {json : Json} {text : String}
    (h : json.asString? = some text) : json = .string text := by
  cases json with
  | string value => exact congrArg Json.string (Option.some.inj h)
  | null | bool | int | double | array | object => cases h

theorem Json.strings_inj {xs ys : List String} (h : Json.strings xs = Json.strings ys) :
    xs = ys := by
  unfold Json.strings at h
  rw [Json.array.injEq] at h
  exact List.map_inj_right (fun _ _ => Json.string.inj) |>.mp h

namespace GraphConfig

theorem decodeId_eq_ok {fields : Entries Json} {field : String} {id : ElementId}
    (h : decoded (config.decodeId fields field) = .ok id) :
    ∃ text, Entries.find? field fields = some (.string text) ∧
      config.parseDocumentId text = .ok id := by
  unfold decodeId at h
  split at h
  · cases h
  · next text htext =>
    obtain ⟨json, hjson, hstring⟩ := Option.bind_eq_some_iff.mp htext
    obtain rfl := Json.eq_string_of_asString? hstring
    split at h
    · next id' hid =>
      cases h
      exact ⟨text, hjson, hid⟩
    · cases h

/-- The identity and the label of a decoded element. -/
theorem of_decodeElementRow {fields : Entries Json} {element : Element}
    (h : config.decodeElementRow (.object fields) = .ok element) :
    (∃ text, Entries.find? "_id" fields = some (.string text) ∧
      config.parseDocumentId text = .ok element.id) ∧
    element.label = config.decodeLabel fields element.id := by
  unfold decodeElementRow at h
  dsimp only at h
  split at h
  · obtain ⟨id, hid, h⟩ := Outcome.bind_eq_ok_iff.mp h
    dsimp only at h
    obtain ⟨properties, -, h⟩ := Outcome.bind_eq_ok_iff.mp h
    split at h
    · obtain ⟨source, -, h⟩ := Outcome.bind_eq_ok_iff.mp h
      obtain ⟨target, -, h⟩ := Outcome.bind_eq_ok_iff.mp h
      cases h
      exact ⟨decodeId_eq_ok hid, rfl⟩
    · obtain ⟨metadata, -, h⟩ := Outcome.bind_eq_ok_iff.mp h
      cases h
      exact ⟨decodeId_eq_ok hid, rfl⟩
  · cases h

/-- The ends of a decoded edge are read from its fields. -/
theorem ends_of_decodeElementRow {fields : Entries Json} {e : Edge}
    (h : config.decodeElementRow (.object fields) = .ok (.edge e)) :
    (∃ text, Entries.find? "_from" fields = some (.string text) ∧
      config.parseDocumentId text = .ok e.source) ∧
    ∃ text, Entries.find? "_to" fields = some (.string text) ∧
      config.parseDocumentId text = .ok e.target := by
  unfold decodeElementRow at h
  dsimp only at h
  split at h
  · obtain ⟨id, -, h⟩ := Outcome.bind_eq_ok_iff.mp h
    dsimp only at h
    obtain ⟨properties, -, h⟩ := Outcome.bind_eq_ok_iff.mp h
    split at h
    · obtain ⟨source, hsource, h⟩ := Outcome.bind_eq_ok_iff.mp h
      obtain ⟨target, htarget, h⟩ := Outcome.bind_eq_ok_iff.mp h
      cases h
      exact ⟨decodeId_eq_ok hsource, decodeId_eq_ok htarget⟩
    · obtain ⟨metadata, -, h⟩ := Outcome.bind_eq_ok_iff.mp h
      cases h
  · cases h

theorem mem_documentIds_iff {kind : ElementKind} {collections : List String} {document : String}
    {ids documents : List String} (h : config.documentIds kind collections ids = .ok documents) :
    document ∈ documents ↔ ∃ id ∈ ids, ∃ element, config.parseId kind id = .ok element ∧
      element.documentId? = some document ∧ element.collection ∈ collections := by
  simp only [documentIds_eq_filterMap h, List.mem_filterMap, boundId?_eq_some_iff]

/-- A fetch binds the document ids of its ids. -/
theorem bindings_of_scanQuery {kind : ElementKind} {ids : List String} {filter : Filter}
    {collections : List String} {query : Query} (hids : ids ≠ [])
    (h : config.scanQuery kind ids filter collections = .ok query) :
    ∃ documents, config.documentIds kind collections ids = .ok documents ∧
      query.bindings = [("ids", Json.strings documents)] := by
  unfold scanQuery at h
  split at h
  · cases h
  · rw [if_neg (by simpa using hids)] at h
    split at h
    · cases h
    · next documents hdocuments =>
      cases h
      exact ⟨documents, hdocuments, rfl⟩

/-- A plan re-checks the containers of its scan, and its query is made of the rest. -/
theorem of_planScan {scan : Scan} {plan : ScanPlan} (h : config.planScan scan = .ok plan) :
    plan.residual = scan.containers ∧ ∃ filter,
      config.scanQuery scan.kind scan.ids filter scan.collections = .ok plan.query := by
  obtain ⟨planned, -, h⟩ := Outcome.bind_eq_ok_iff.mp h
  obtain ⟨query, hquery, h⟩ := Outcome.bind_eq_ok_iff.mp h
  cases h
  exact ⟨rfl, _, hquery⟩

end GraphConfig

namespace StoredDocument

/-- The identity of a document is its place. -/
theorem Placed.keyed {d : StoredDocument} (h : d.Placed config) {element : Element}
    (hdecode : config.decodeElementRow d.json = .ok element) :
    ∃ key, KeyedIn config element.id key ∧ element.id.documentId? = some d.id ∧
      d.collection = config.physicalCollection element.id.collection := by
  obtain ⟨⟨text, htext, hparse⟩, -⟩ := GraphConfig.of_decodeElementRow hdecode
  rw [h.id, Option.some.injEq, Json.string.injEq] at htext
  subst htext
  obtain ⟨key, hkeyed, hdocument, hphysical⟩ := GraphConfig.keyedIn_of_parseDocumentId hparse
  refine ⟨key, hkeyed, hdocument, ?_⟩
  have hid : element.id.physicalCollection ++ keySeparator.toString ++ key = d.id := by
    rw [ElementId.documentId?, hkeyed.hasKey] at hdocument
    exact Option.some.inj hdocument
  have hlist := congrArg String.toList hid.symm
  rw [StoredDocument.id, toList_join, toList_join] at hlist
  -- neither part that was read holds the separator, so the place splits into the same two
  have hcut := Text.cut_unique hphysical hkeyed.key_part.noKeySeparator hlist
  rw [String.toList_inj.mp hcut.1, ElementId.physicalCollection_of_graph hkeyed.graph]

end StoredDocument

namespace Graph

theorem exists_bound_iff {documents : List String} {id : String} :
    (∃ ids, Entries.find? "ids" [("ids", Json.strings documents)] = some (Json.strings ids) ∧
      id ∈ ids) ↔ id ∈ documents := by
  constructor
  · rintro ⟨ids, hfind, hmem⟩
    rw [Json.strings_inj (Option.some.inj hfind)]
    exact hmem
  · intro hmem
    exact ⟨documents, rfl, hmem⟩

/-- A scan asks for the documents of its collections and of its ids, if there are any. -/
theorem requested_iff {scan : Scan} {plan : ScanPlan} (hplan : config.planScan scan = .ok plan)
    {d : StoredDocument} (hplaced : d.Placed config) {element : Element}
    (hdecode : config.decodeElementRow d.json = .ok element) :
    Requested config scan plan.query d ↔
      element.id.collection ∈ scan.collections ∧
        (scan.ids = [] ∨ ∃ id ∈ scan.ids, config.parseId scan.kind id = .ok element.id) := by
  obtain ⟨key, hkeyed, hdocument, hcollection⟩ := hplaced.keyed hdecode
  unfold Requested
  split
  · next hids =>
    constructor
    · rintro ⟨name, hname, heq⟩
      rw [hcollection] at heq
      rw [ElementId.physicalName_inj heq]
      exact ⟨hname, .inl hids⟩
    · rintro ⟨hmem, -⟩
      exact ⟨_, hmem, hcollection⟩
  · next hids =>
    obtain ⟨-, filter, hquery⟩ := GraphConfig.of_planScan hplan
    obtain ⟨documents, hdocuments, hbindings⟩ := GraphConfig.bindings_of_scanQuery hids hquery
    -- a bound id comes from an identity, and the document has the id of just one
    rw [hbindings, exists_bound_iff, GraphConfig.mem_documentIds_iff hdocuments]
    constructor
    · rintro ⟨id, hid, parsed, hparsed, hname, hmem⟩
      obtain ⟨key', hkeyed', -, -, -⟩ := GraphConfig.parseId_eq_ok_iff.mp hparsed
      obtain rfl := ElementId.eq_of_documentId? hkeyed' hkeyed hname hdocument
      exact ⟨hmem, .inr ⟨id, hid, hparsed⟩⟩
    · rintro ⟨hmem, hnone | ⟨id, hid, hparsed⟩⟩
      · exact (hids hnone).elim
      · exact ⟨id, hid, _, hparsed, hdocument, hmem⟩

variable {documents : List StoredDocument}

/-- Of the documents that a scan asks for, those that pass its containers give the elements
that it keeps. -/
theorem exists_requested_iff (hplaced : ∀ d ∈ documents, d.Placed config) {scan : Scan}
    {plan : ScanPlan} (hplan : config.planScan scan = .ok plan) (element : Element) :
    (∃ row, (∃ d ∈ documents, Requested config scan plan.query d ∧ d.json = row) ∧
        config.decodeElementRow row = .ok element ∧
        ∀ c ∈ scan.containers, Passes config c element) ↔
      (∃ d ∈ documents, config.decodeElementRow d.json = .ok element) ∧
        scan.Keeps config element := by
  constructor
  · rintro ⟨row, ⟨d, hd, hrequested, rfl⟩, hdecode, hpasses⟩
    obtain ⟨hmem, hnamed⟩ := (requested_iff hplan (hplaced d hd) hdecode).mp hrequested
    exact ⟨⟨d, hd, hdecode⟩, ⟨hmem, hnamed, hpasses⟩⟩
  · rintro ⟨⟨d, hd, hdecode⟩, hkeeps⟩
    have hrequested := (requested_iff hplan (hplaced d hd) hdecode).mpr
      ⟨hkeeps.collection, hkeeps.named⟩
    exact ⟨d.json, ⟨d, hd, hrequested, rfl⟩, hdecode, hkeeps.passes⟩

variable {σ : Type} [Client σ]

/-- The elements that a scan and further containers leave: those of documents that the scan
keeps and that pass the containers. -/
theorem mem_filtered_iff (hplaced : ∀ d ∈ documents, d.Placed config) {scan : Scan}
    {containers : List HasContainer} {found : List Element} {s s' : σ}
    (hserves : Serves config documents scan s)
    (hrun : filtered ⟨config⟩ scan containers s = (.ok found, s')) (element : Element) :
    element ∈ found ↔
      (∃ d ∈ documents, config.decodeElementRow d.json = .ok element) ∧
        scan.Keeps config element ∧ ∀ c ∈ containers, Passes config c element := by
  obtain ⟨it, elements, hscan, hcollected, hpassing, -⟩ := filtered_eq_ok_iff.mp hrun
  rw [mem_passing_iff element hpassing, ← and_assoc]
  refine and_congr_left fun _ => ?_
  unfold Graph.scan at hscan
  split at hscan
  · next hempty =>
    cases hscan
    cases hcollected
    rw [Names.isEmpty_iff] at hempty
    constructor
    · intro h
      cases h
    · rintro ⟨-, hkeeps⟩
      have hmem := hkeeps.collection
      rw [hempty] at hmem
      exact absurd hmem (Names.not_mem_empty _)
  · obtain ⟨plan, hplan, rfl⟩ := Outcome.map_eq_ok_iff.mp hscan
    obtain ⟨rows, s'', hquery, hrows⟩ := hserves plan hplan
    obtain ⟨hresidual, -⟩ := GraphConfig.of_planScan hplan
    rw [ElementIteration.drain_eq rfl hquery] at hcollected
    simp only [mem_collected_iff hcollected, accept_eq_some_iff, iteration, hresidual,
      List.mem_map, Except.ok.injEq, exists_eq_right, hrows]
    exact exists_requested_iff hplaced hplan element

end Graph

/-- A vertex of the standard graph. -/
def StoredDocument.alice : StoredDocument where
  collection := "tinkerpop_vertex"
  key := "alice"
  fields := [("_id", .string "tinkerpop_vertex/alice"), ("_key", .string "alice"),
    ("_label", .string "person"), ("_rev", .string "1"), ("age", .int 36)]

/-- Another vertex of the standard graph. -/
def StoredDocument.rex : StoredDocument where
  collection := "tinkerpop_vertex"
  key := "rex"
  fields := [("_id", .string "tinkerpop_vertex/rex"), ("_key", .string "rex"),
    ("_label", .string "dog"), ("_rev", .string "2"), ("age", .int 5)]

/-- The store that holds both. -/
def Store.household : Store :=
  { Store.empty with
    collections := [("tinkerpop_vertex",
      [("alice", StoredDocument.alice.json), ("rex", StoredDocument.rex.json)])] }

open StoredDocument

theorem placed_household :
    ∀ d ∈ [alice, rex], d.Placed GraphConfig.standard := by
  intro d hd
  rcases (List.mem_cons.mp hd).imp_right List.mem_singleton.mp with rfl | rfl
  · exact ⟨rfl, rfl, _, rfl⟩
  · exact ⟨rfl, rfl, _, rfl⟩

/-- A scan of all vertices asks for both. -/
theorem mem_household_iff {scan : Scan} {query : Query} (hids : scan.ids = [])
    (hcollections : scan.collections = .single "vertex") (row : Json) :
    row ∈ [alice.json, rex.json] ↔
      ∃ d ∈ [alice, rex], Requested GraphConfig.standard scan query d ∧ d.json = row := by
  have hall : ∀ d ∈ [alice, rex], Requested GraphConfig.standard scan query d := by
    intro d hd
    unfold Requested
    rw [if_pos hids, hcollections]
    refine ⟨"vertex", Names.mem_single.mpr rfl, ?_⟩
    rcases (List.mem_cons.mp hd).imp_right List.mem_singleton.mp with rfl | rfl <;> rfl
  constructor
  · intro hrow
    obtain ⟨d, hd, rfl⟩ := List.mem_map.mp (show row ∈ [alice, rex].map json from hrow)
    exact ⟨d, hd, hall d hd, rfl⟩
  · rintro ⟨d, hd, -, rfl⟩
    exact List.mem_map_of_mem (f := json) hd

/-- A scan of all vertices is answered with both. -/
theorem serves_household (labels : List String) :
    Serves GraphConfig.standard [alice, rex] (GraphConfig.standard.startScan .vertex [] labels)
      Store.household := by
  have hplanned : GraphConfig.standard.planScan
      (GraphConfig.standard.startScan .vertex [] labels) =
      .ok ⟨⟨"FOR x IN `tinkerpop_vertex` RETURN x", []⟩, .none, [], []⟩ := rfl
  intro plan hplan
  rw [hplanned] at hplan
  cases hplan
  exact ⟨[alice.json, rex.json], _, rfl, mem_household_iff rfl rfl⟩

end Pushdown
