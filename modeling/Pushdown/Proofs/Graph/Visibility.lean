import Pushdown.Proofs.Graph.Scanning
import Pushdown.Proofs.Graph.Writes
import Pushdown.Proofs.Plan.Planning

/-!
# Finding added elements

Scans look in the collections of a kind alone. An element that is added to one of them is found,
by its id and among all elements; one that data definition lets into another collection is stored,
but no scan finds it.

## Results

* `GraphConfig.id_of_decoded`: the identity of a decoded document is its place;
* `Graph.Finds.listed`: the elements that scans find lie in the collections of the kind;
* `Graph.finds_added`: which added elements are found;
* `Graph.not_finds_of_unlisted`: an added element that is not.
-/

namespace Pushdown

namespace GraphConfig

variable {raw config : GraphConfig} {kind : ElementKind} {s : Store} {name key : String}
  {row : Json} {read : Element}

/-- Every document in the collections of a kind is that of an element. -/
def Decodes (config : GraphConfig) (kind : ElementKind) (s : Store) : Prop :=
  ∀ name ∈ config.collections kind, ∀ key row,
    s.document? (config.physicalCollection name) key = some row →
      ∃ read, config.decodeElementRow row = .ok read

/-- The identity of a decoded document is its place in the store. -/
theorem id_of_decoded (hvalid : raw.validate = .ok config) (hs : s.Consistent)
    (hrow : s.document? (config.physicalCollection name) key = some row)
    (hread : config.decodeElementRow row = .ok read) :
    read.id = ⟨config.graph, name, some key⟩ := by
  obtain ⟨number, ⟨fields, rfl⟩, -⟩ := hs.stamped hrow
  obtain ⟨⟨text, htext, hparse⟩, -⟩ := of_decodeElementRow hread
  rw [Store.find?_id, Option.some.injEq, Json.string.injEq] at htext
  subst htext
  exact eq_of_parseDocumentId hvalid hparse rfl

/-- An id that a scan finds a document for is that of an identity of its place. -/
theorem of_eligibleDocument? {collections : List String} {id : String}
    (h : config.eligibleDocument? kind collections s id = some row) :
    ∃ name ∈ collections, ∃ key, s.document? (config.physicalCollection name) key = some row := by
  unfold eligibleDocument? at h
  split at h
  · cases h
  · next element helement =>
    split at h
    · next hmem =>
      obtain ⟨key, -, hrow⟩ := Option.bind_eq_some_iff.mp h
      exact ⟨element.collection, hmem, key, hrow⟩
    · cases h

/-- The identities of stored documents in the collections of a kind have ids in traversals. -/
theorem nameable_of_listed (hvalid : raw.validate = .ok config) {id : ElementId}
    (hid : Storable config id) (hlisted : id.collection ∈ config.collections kind) :
    Nameable config kind id := by
  refine ⟨hid.graph, hid.key, ?_⟩
  cases htype : config.type with
  | complex => exact hid.collection
  | simple =>
      rw [collections_eq_single hvalid htype, Names.mem_single] at hlisted
      exact hlisted

/-- In a simple graph, new identities are in the only collection of their kind. -/
theorem listed_of_createId (hvalid : raw.validate = .ok config) (htype : config.type = .simple)
    {label text : Option String} {id : ElementId} (h : config.createId kind label text = .ok id) :
    id.collection ∈ config.collections kind := by
  have hdefault : config.defaultCollection kind ∈ config.collections kind := by
    rw [collections_eq_single hvalid htype]
    exact Names.mem_single.mpr rfl
  rcases createId_cases h with
    ⟨given, collection, key, -, hdecode, -, -, rfl⟩ | ⟨-, collection, hinferred, -, rfl⟩
  · rw [htype] at hdecode
    obtain ⟨⟨⟩, -, hdecode⟩ := Outcome.bind_eq_ok_iff.mp hdecode
    cases hdecode
    exact hdefault
  · rw [htype] at hinferred
    cases hinferred
    exact hdefault

/-- The scan of all vertices of a standard graph is legible. -/
theorem legible_standard : Legible standard .empty (standard.collections .vertex) where
  unmarked := by decide
  plain := by
    intro name hname
    obtain rfl := List.mem_singleton.mp hname
    exact ⟨by decide, by decide⟩
  settled := fun piece hpiece => by cases hpiece

end GraphConfig

namespace Graph

variable {raw config : GraphConfig} {kind : ElementKind} {ids : List String} {s s' : Store}
  {id : ElementId} {element : Element}

/-- A scan of some ids, or of all elements if there are none, finds an element. -/
def Finds (graph : Graph) (kind : ElementKind) (ids : List String) (s : Store)
    (id : ElementId) : Prop :=
  ∃ it read, graph.elements kind ids = .ok it ∧ .ok read ∈ (it.drain s).1 ∧ read.id = id

/-- A scan yields the elements of documents in the collections of its kind or, if it is one of all
elements, in those that are read. -/
theorem place_of_item (hvalid : raw.validate = .ok config) (hs : s.Consistent)
    {it : ElementIteration} {read : Element} (hit : Graph.elements ⟨config⟩ kind ids = .ok it)
    (hitem : .ok read ∈ (it.drain s).1) :
    ∃ collection key row, s.document? collection key = some row ∧
      config.decodeElementRow row = .ok read ∧
      ((∃ name ∈ config.collections kind, collection = config.physicalCollection name) ∨
        ids = [] ∧ collection ∈ config.readCollections kind) := by
  by_cases hids : ids = []
  · obtain rfl := hids
    obtain ⟨other, hother, hitems⟩ := exists_drained config kind hs.answers
    obtain rfl : it = other := Except.ok.inj (hit.symm.trans hother)
    rcases hitems with hitems | ⟨-, -, fault, hitems⟩
    · rw [hitems] at hitem
      obtain ⟨row, hrow, hread⟩ := GraphConfig.exists_of_mem_readItems hitem
      obtain ⟨collection, hmem, key, hstored⟩ :=
        (GraphConfig.mem_readDocuments_iff hs.ordered).mp hrow
      exact ⟨collection, key, row, hstored, hread, .inr ⟨rfl, hmem⟩⟩
    · rw [hitems] at hitem
      cases List.mem_singleton.mp hitem
  · rw [drained_of_ids hvalid hids hs.answers hit] at hitem
    obtain ⟨row, hrow, hread⟩ := GraphConfig.exists_of_mem_readItems hitem
    obtain ⟨given, -, heligible⟩ := List.mem_filterMap.mp hrow
    obtain ⟨name, hname, key, hstored⟩ := GraphConfig.of_eligibleDocument? heligible
    exact ⟨_, key, row, hstored, hread, .inl ⟨name, hname, rfl⟩⟩

/-- The elements that scans find lie in the collections of the kind. -/
theorem Finds.listed (hvalid : raw.validate = .ok config) (hs : s.Consistent)
    (hlegible : ids = [] → GraphConfig.Legible config .empty (config.collections kind))
    (h : Finds ⟨config⟩ kind ids s id) : id.collection ∈ config.collections kind := by
  obtain ⟨it, read, hit, hitem, rfl⟩ := h
  obtain ⟨collection, key, row, hstored, hread, hplace⟩ := place_of_item hvalid hs hit hitem
  have hlisted : ∃ name ∈ config.collections kind,
      collection = config.physicalCollection name := by
    rcases hplace with hlisted | ⟨hids, hmem⟩
    · exact hlisted
    · rw [GraphConfig.readCollections_of_legible (hlegible hids)] at hmem
      obtain ⟨name, hname, heq⟩ := List.mem_map.mp hmem
      exact ⟨name, hname, heq.symm⟩
  obtain ⟨name, hname, rfl⟩ := hlisted
  rw [GraphConfig.id_of_decoded hvalid hs hstored hread]
  exact hname

/-- A scan of one id yields the element of its document, and nothing else. -/
theorem exists_drained_of_id (hvalid : raw.validate = .ok config) (hs : s.answers = [])
    {text key : String} {row : Json} {read : Element} (hid : Storable config id)
    (hlisted : id.collection ∈ config.collections kind) (htext : config.encodeId id = some text)
    (hkey : id.key = some key)
    (hrow : s.document? (config.physicalCollection id.collection) key = some row)
    (hread : config.decodeElementRow row = .ok read) :
    ∃ it, Graph.elements ⟨config⟩ kind [text] = .ok it ∧ (it.drain s).1 = [.ok read] := by
  have hparse : config.parseId kind text = .ok id :=
    (GraphConfig.parseId_eq_ok_iff_nameable hvalid).mpr
      ⟨GraphConfig.nameable_of_listed hvalid hid hlisted, htext⟩
  have hne : config.collections kind ≠ .empty := Names.ne_empty_of_mem hlisted
  have hparsed : ∀ given ∈ [text], ∃ element, config.parseId kind given = .ok element := by
    intro given hgiven
    rw [List.mem_singleton.mp hgiven]
    exact ⟨id, hparse⟩
  obtain ⟨query, hquery⟩ := GraphConfig.scanQuery_total .empty hparsed (Names.members_ne_nil hne)
  have hit : Graph.elements ⟨config⟩ kind [text] = .ok (Graph.iteration ⟨config⟩ [] query) := by
    rw [elements_eq, if_neg hne, hquery]
    rfl
  refine ⟨_, hit, ?_⟩
  have heligible :
      config.eligibleDocument? kind (config.collections kind) s text = some row := by
    rw [GraphConfig.eligibleDocument?, hparse]
    dsimp only
    rw [if_pos (Names.mem_members.mpr hlisted), hkey, Option.bind_some, hrow]
  rw [drained_of_ids hvalid (List.cons_ne_nil _ _) hs hit, List.filterMap_cons_some heligible,
    List.filterMap_nil, GraphConfig.readItems, hread]
  rfl

/-- The element of its document is one of the items of a scan of one id. -/
theorem exists_item_of_id (hvalid : raw.validate = .ok config) (hs : s.answers = [])
    {text key : String} {row : Json} {read : Element} (hid : Storable config id)
    (hlisted : id.collection ∈ config.collections kind) (htext : config.encodeId id = some text)
    (hkey : id.key = some key)
    (hrow : s.document? (config.physicalCollection id.collection) key = some row)
    (hread : config.decodeElementRow row = .ok read) :
    ∃ it, Graph.elements ⟨config⟩ kind [text] = .ok it ∧ .ok read ∈ (it.drain s).1 := by
  obtain ⟨it, hit, hitems⟩ := exists_drained_of_id hvalid hs hid hlisted htext hkey hrow hread
  refine ⟨it, hit, ?_⟩
  rw [hitems]
  exact List.mem_cons_self

/-- An element is found by its id if its document is decoded. -/
theorem finds_of_id (hvalid : raw.validate = .ok config) (hs : s.answers = [])
    {text key : String} {row : Json} {read : Element} (hid : Storable config id)
    (hlisted : id.collection ∈ config.collections kind) (htext : config.encodeId id = some text)
    (hkey : id.key = some key)
    (hrow : s.document? (config.physicalCollection id.collection) key = some row)
    (hread : config.decodeElementRow row = .ok read) (heq : read.id = id) :
    Finds ⟨config⟩ kind [text] s id := by
  obtain ⟨it, hit, hitem⟩ := exists_item_of_id hvalid hs hid hlisted htext hkey hrow hread
  exact ⟨it, read, hit, hitem, heq⟩

/-- A scan of all elements yields that of a document if all documents that are read are decoded. -/
theorem exists_item_of_decodes (hs : s.Consistent) {collection key : String} {row : Json}
    {read : Element} (hdecodes : ∀ name ∈ config.readCollections kind, ∀ k other,
      s.document? name k = some other → ∃ read, config.decodeElementRow other = .ok read)
    (hmem : collection ∈ config.readCollections kind)
    (hrow : s.document? collection key = some row)
    (hread : config.decodeElementRow row = .ok read) :
    ∃ it, Graph.elements ⟨config⟩ kind [] = .ok it ∧ .ok read ∈ (it.drain s).1 := by
  obtain ⟨it, hit, hitems⟩ := exists_drained config kind hs.answers
  refine ⟨it, hit, ?_⟩
  rcases hitems with hitems | ⟨-, hnone, -⟩
  · rw [hitems]
    refine GraphConfig.mem_readItems (fun other hother => ?_)
      ((GraphConfig.mem_readDocuments_iff hs.ordered).mpr ⟨collection, hmem, key, hrow⟩) hread
    obtain ⟨name, hname, k, hstored⟩ := (GraphConfig.mem_readDocuments_iff hs.ordered).mp hother
    exact hdecodes name hname k other hstored
  · rw [hnone] at hmem
    exact absurd hmem List.not_mem_nil

/-- An element is found among all elements of its kind if all documents there are decoded. -/
theorem finds_of_decodes (hs : s.Consistent)
    (hlegible : GraphConfig.Legible config .empty (config.collections kind))
    (hdecodes : config.Decodes kind s) {name key : String} {row : Json} {read : Element}
    (hlisted : name ∈ config.collections kind)
    (hrow : s.document? (config.physicalCollection name) key = some row)
    (hread : config.decodeElementRow row = .ok read) :
    Finds ⟨config⟩ kind [] s read.id := by
  have hcollections := GraphConfig.readCollections_of_legible hlegible
  have hmem : config.physicalCollection name ∈ config.readCollections kind := by
    rw [hcollections]
    exact List.mem_map_of_mem hlisted
  have hall : ∀ collection ∈ config.readCollections kind, ∀ k other,
      s.document? collection k = some other →
        ∃ read, config.decodeElementRow other = .ok read := by
    intro collection hcollection k other hother
    rw [hcollections] at hcollection
    obtain ⟨listed, hlistedToo, rfl⟩ := List.mem_map.mp hcollection
    exact hdecodes listed hlistedToo k other hother
  obtain ⟨it, hit, hitem⟩ := exists_item_of_decodes hs hall hmem hrow hread
  exact ⟨it, read, hit, hitem, rfl⟩

/-- Without data definition elements are added to collections of their kind alone; in a simple
graph they always are. -/
theorem listed_of_newElement (hvalid : raw.validate = .ok config) {label text : Option String}
    {given : String} (h : (⟨config⟩ : Graph).newElement kind label text = .ok (id, given))
    (hclosed : config.type = .simple ∨ config.dataDefinition = false) :
    id.collection ∈ config.collections kind := by
  obtain ⟨made, hmade, h⟩ := Outcome.bind_eq_ok_iff.mp h
  split at h
  · next hallowed =>
    cases h
    rcases hclosed with hsimple | hdefinition
    · exact GraphConfig.listed_of_createId hvalid hsimple hmade
    · rw [hdefinition, Bool.or_false] at hallowed
      exact List.contains_iff_mem.mp hallowed
  · cases h

/-- An added element of a collection of its kind is found: by its id if it is readable, and among
all elements if the scan of them is legible and gets past all documents. The elements of other
collections, which only data definition lets in, are found by no scan. -/
theorem finds_added (hvalid : raw.validate = .ok config) (hs : s.Reached) (a : Addition)
    (hadded : a.run ⟨config⟩ s = (.ok element, s')) :
    ∃ text, config.encodeId element.id = some text ∧
      (config.type = .simple ∨ config.dataDefinition = false →
        element.id.collection ∈ config.collections a.kind) ∧
      (element.id.collection ∈ config.collections a.kind → element.Readable config →
        Finds ⟨config⟩ a.kind [text] s' element.id ∧
        (GraphConfig.Legible config .empty (config.collections a.kind) →
          config.Decodes a.kind s' → Finds ⟨config⟩ a.kind [] s' element.id)) ∧
      (element.id.collection ∉ config.collections a.kind → ∀ ids,
        (ids = [] → GraphConfig.Legible config .empty (config.collections a.kind)) →
          ¬ Finds ⟨config⟩ a.kind ids s' element.id) := by
  have hreached : s'.Reached := hs.of_run (a.calls_run ⟨config⟩) hadded
  obtain ⟨draft, assigned, hadds, rfl⟩ := Addition.adds_of_run hadded
  have hrecords := GraphWrite.records_of_adds hadds
  have hid := Addition.id_element a draft assigned
  have hkey : (a.element draft assigned).id.key = some assigned.key := by rw [hid]; rfl
  have hcollection := Addition.collection_element a draft assigned
  have hstored : s'.document?
      (config.physicalCollection (a.element draft assigned).id.collection) assigned.key =
        some (.object (Store.stamped (draft.fields config) assigned)) := by
    rw [hcollection, ← hadds.physicalCollection]
    exact hadds.writes.stored
  obtain ⟨text, htext⟩ : ∃ text, config.encodeId (a.element draft assigned).id = some text :=
    GraphConfig.encodeId_of_key hkey
  refine ⟨text, htext, fun hclosed => ?_, fun hlisted hreadable => ?_,
    fun hunlisted ids hlegible hfinds => ?_⟩
  · rw [hcollection]
    exact listed_of_newElement hvalid (Addition.draft_eq_ok hadds.drafted).1 hclosed
  · obtain ⟨read, hread, heq⟩ := GraphConfig.exists_decoded hvalid hrecords hreadable
    refine ⟨finds_of_id hvalid hreached.consistent.answers hreadable.1 hlisted htext hkey hstored
      hread heq, fun hlegible hdecodes => ?_⟩
    rw [← heq]
    exact finds_of_decodes hreached.consistent hlegible hdecodes hlisted hstored hread
  · exact hunlisted (hfinds.listed hvalid hreached.consistent hlegible)

/-- Alice, added to a fresh graph. -/
def addedAlice : Addition := .vertex (some "person") (some "alice") []

theorem finds_added_alice :
    ∃ element last, addedAlice.run ⟨GraphConfig.standard⟩ (Store.fresh GraphConfig.standard) =
        (.ok element, last) ∧
      Finds ⟨GraphConfig.standard⟩ .vertex ["alice"] last element.id ∧
      Finds ⟨GraphConfig.standard⟩ .vertex [] last element.id := by
  have hstart := reached_fresh GraphConfig.validate_initial
  have hadded : addedAlice.run ⟨GraphConfig.standard⟩ (Store.fresh GraphConfig.standard) =
      (.ok (.vertex ⟨⟨"tinkerpop", "vertex", some "alice"⟩, "person", some "3", [], []⟩),
        (addedAlice.run ⟨GraphConfig.standard⟩ (Store.fresh GraphConfig.standard)).2) := rfl
  obtain ⟨text, htext, hlisted, hfound, -⟩ :=
    finds_added GraphConfig.validate_initial hstart addedAlice hadded
  obtain rfl : "alice" = text := Option.some.inj htext
  have hreadable : Element.Readable GraphConfig.standard
      (.vertex ⟨⟨"tinkerpop", "vertex", some "alice"⟩, "person", some "3", [], []⟩) :=
    Element.readable_alice rfl rfl
  have hdecodes : GraphConfig.standard.Decodes .vertex
      (addedAlice.run ⟨GraphConfig.standard⟩ (Store.fresh GraphConfig.standard)).2 := by
    intro name hname key row hrow
    obtain rfl := List.mem_singleton.mp hname
    have hplace : (addedAlice.run ⟨GraphConfig.standard⟩
        (Store.fresh GraphConfig.standard)).2.document?
          (GraphConfig.standard.physicalCollection "vertex") key =
          if "alice" = key then some (.object [("_id", .string "tinkerpop_vertex/alice"),
            ("_key", .string "alice"), ("_label", .string "person"), ("_rev", .string "3")])
          else none := rfl
    rw [hplace] at hrow
    split at hrow
    · cases hrow
      exact ⟨_, rfl⟩
    · cases hrow
  obtain ⟨hbyId, hall⟩ := hfound (hlisted (.inl rfl)) hreadable
  exact ⟨_, _, hadded, hbyId, hall GraphConfig.legible_standard hdecodes⟩

/-- The kennel with data definition. -/
def openKennel : GraphConfig := { GraphConfig.kennel with dataDefinition := true }

theorem validate_openKennel : openKennel.validate = .ok openKennel := rfl

/-- A robot, which is in no collection of vertices of the kennel. -/
def addedRobot : Addition := .vertex (some "robot") none []

/-- The robot is stored, and found neither by its id nor among all vertices. -/
theorem not_finds_of_unlisted :
    openKennel.validate = .ok openKennel ∧
      ∃ last byId all,
        Graph.opened openKennel Store.empty = (.ok ⟨openKennel⟩, Store.fresh openKennel) ∧
        addedRobot.run ⟨openKennel⟩ (Store.fresh openKennel) =
          (.ok (.vertex ⟨⟨"kennel", "robot", some "1"⟩, "robot", some "3", [], []⟩), last) ∧
        openKennel.encodeId ⟨"kennel", "robot", some "1"⟩ = some "robot/1" ∧
        Graph.elements ⟨openKennel⟩ .vertex ["robot/1"] = .ok byId ∧ (byId.drain last).1 = [] ∧
        Graph.elements ⟨openKennel⟩ .vertex [] = .ok all ∧ (all.drain last).1 = [] := by
  exact ⟨validate_openKennel, _, _, _, opened_empty validate_openKennel, rfl, rfl, rfl, rfl, rfl,
    rfl⟩

end Graph
end Pushdown
