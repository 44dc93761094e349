import Mathlib.Data.List.Nodup
import Pushdown.Proofs.Graph.Kinds
import Pushdown.Proofs.Graph.Updates
import Pushdown.Proofs.Store.Recognition

/-!
# Neighborhoods of added elements

The store compares the ids in the documents of edges with the id of the vertex that a neighborhood
starts from. An id that is read belongs to one identity, so these are the edges whose ends are the
vertex. In a complex graph they are looked for in the collections that the labels name. In a simple
one all edges share a collection, and the store evaluates no filter: labels select nothing there.

## Results

* `GraphConfig.otherEnd?_of_decoded`: the ends of an edge and those of its document;
* `GraphConfig.mem_incidentRows_iff`, `GraphConfig.incidentRows_vertex`: the rows of a neighborhood;
* `GraphConfig.pairwise_incidentRows`: no edge has two rows;
* `Addition.exists_readAs`: what is read from the document of an added edge;
* `Graph.neighborhood_of_additions`: the edges and vertices that a neighborhood yields;
* `Graph.not_neighborhood_of_label`: an edge of another label.
-/

namespace Pushdown

/-- The document of an identity that has a key. -/
def Store.documentOf? (s : Store) (id : ElementId) : Option Json :=
  id.key.bind (s.document? id.physicalCollection)

namespace Edge

variable {edge : Edge} {direction : Direction} {start id : ElementId}

/-- An edge leaves an identity, enters it, or does either. -/
def Meets (direction : Direction) (start : ElementId) (edge : Edge) : Prop :=
  direction ≠ .incoming ∧ edge.source = start ∨ direction ≠ .outgoing ∧ edge.target = start

/-- The other end of an edge that meets an identity. -/
def otherEnd? (direction : Direction) (start : ElementId) (edge : Edge) : Option ElementId :=
  if direction ≠ .incoming ∧ edge.source = start then some edge.target
  else if direction ≠ .outgoing ∧ edge.target = start then some edge.source
  else none

theorem exists_otherEnd?_iff :
    (∃ id, edge.otherEnd? direction start = some id) ↔ edge.Meets direction start := by
  unfold otherEnd? Meets
  split
  · next hleaves => exact iff_of_true ⟨_, rfl⟩ (.inl hleaves)
  · next hnot =>
    rw [or_iff_right hnot]
    split
    · next henters => exact iff_of_true ⟨_, rfl⟩ henters
    · next hneither => exact iff_of_false nofun hneither

theorem eq_or_eq_of_otherEnd? (h : edge.otherEnd? direction start = some id) :
    id = edge.target ∨ id = edge.source := by
  unfold otherEnd? at h
  split at h
  · exact .inl (Option.some.inj h).symm
  · split at h
    · exact .inr (Option.some.inj h).symm
    · cases h

/-- What is read from the document of an added edge: its identity and ends, and all of it with
narrow integers if its label has a field of its own. -/
structure ReadAs (config : GraphConfig) (s : Store) (added read : Edge) : Prop where
  decoded : ∃ row, s.documentOf? added.id = some row ∧
    config.decodeElementRow row = .ok (.edge read)
  id : read.id = added.id
  source : read.source = added.source
  target : read.target = added.target
  narrowed : config.labelField ∉ reservedFields →
    Element.edge read = (Element.edge added).narrowed

/-- An edge meets what the edge that is read from its document meets. -/
theorem ReadAs.meets_iff {config : GraphConfig} {s : Store} {read : Edge}
    (h : edge.ReadAs config s read) :
    read.Meets direction start ↔ edge.Meets direction start := by
  rw [Meets, Meets, h.source, h.target]

end Edge

namespace GraphConfig

variable {raw config : GraphConfig} {names labels : List String} {s : Store}
  {direction : Direction} {start : ElementId} {startId : String} {row : Json} {e : Edge}

section collections

/-- The collections that a neighborhood looks in: in a complex graph those that are given as
labels, if there are any, and otherwise all collections of edges. -/
def neighborNames (config : GraphConfig) (labels : List String) : List String :=
  if config.type = .complex ∧ labels ≠ [] then labels else config.edges

/-- What a neighborhood filters by: in a simple graph the labels, if there are any. -/
def neighborFilter (config : GraphConfig) (labels : List String) : Filter :=
  if config.type = .simple ∧ labels ≠ [] then
    .within config.labelField (labels.map .string)
  else .empty

/-- Labels are refused only in a complex graph, where they name collections of edges. -/
theorem neighborCollections_eq
    (h : config.type = .complex → ∀ label ∈ labels, label ∈ config.edges) :
    config.neighborCollections labels =
      .ok (config.neighborNames labels, config.neighborFilter labels) := by
  unfold neighborCollections neighborNames neighborFilter
  cases labels with
  | nil => simp
  | cons label rest =>
      cases htype : config.type with
      | simple => simp
      | complex =>
          have hknown : firstUnknown? config.edges (label :: rest) = none := by
            rw [firstUnknown?, List.find?_eq_none]
            intro name hname
            simp [h htype name hname]
          rw [hknown]
          simp

/-- A neighborhood looks in no collection twice, unless a label is repeated. -/
theorem nodup_neighborNames (h : config.type = .complex → labels.Nodup) :
    (config.neighborNames labels).Nodup := by
  unfold neighborNames
  split
  · next hcase => exact h hcase.1
  · exact config.edges.nodup

end collections

section ends

variable {fields : Entries Json}

/-- The field of an end holds the id of an identity exactly if the end that is read from it is that
identity. -/
theorem eq_startId_iff (hvalid : raw.validate = .ok config)
    (hstart : start.documentId? = some startId) {text : String} {id : ElementId}
    (hparse : config.parseDocumentId text = .ok id) : text = startId ↔ id = start := by
  constructor
  · rintro rfl
    exact eq_of_parseDocumentId hvalid hparse hstart
  · rintro rfl
    obtain ⟨-, -, hdocument, -⟩ := keyedIn_of_parseDocumentId hparse
    exact Option.some.inj (hdocument.symm.trans hstart)

theorem stringField?_of_find? {field text : String}
    (h : Entries.find? field fields = some (.string text)) :
    (Json.object fields).stringField? field = some text := by
  rw [Json.stringField?, Json.field?, h]
  rfl

/-- The other end of the document of an edge holds the id of the other end of the edge. -/
theorem otherEnd?_of_decoded (hvalid : raw.validate = .ok config)
    (hstart : start.documentId? = some startId) (direction : Direction)
    (h : config.decodeElementRow row = .ok (.edge e)) :
    Store.otherEnd? direction startId row =
      (e.otherEnd? direction start).bind ElementId.documentId? := by
  obtain ⟨fields, rfl⟩ := exists_fields_of_decoded h
  obtain ⟨⟨source, hsource, hfrom⟩, target, htarget, hto⟩ := ends_of_decodeElementRow h
  obtain ⟨-, -, hsourceId, -⟩ := keyedIn_of_parseDocumentId hfrom
  obtain ⟨-, -, htargetId, -⟩ := keyedIn_of_parseDocumentId hto
  simp only [Store.otherEnd?, Edge.otherEnd?, stringField?_of_find? hsource,
    stringField?_of_find? htarget, Option.some.injEq, eq_startId_iff hvalid hstart hfrom,
    eq_startId_iff hvalid hstart hto]
  split
  · exact htargetId.symm
  · split
    · exact hsourceId.symm
    · rfl

/-- The document of an edge has another end exactly if the edge meets the start. -/
theorem exists_otherEnd?_iff (hvalid : raw.validate = .ok config)
    (hstart : start.documentId? = some startId)
    (h : config.decodeElementRow row = .ok (.edge e)) :
    (∃ other, Store.otherEnd? direction startId row = some other) ↔ e.Meets direction start := by
  rw [otherEnd?_of_decoded hvalid hstart direction h, ← Edge.exists_otherEnd?_iff]
  constructor
  · rintro ⟨other, hother⟩
    obtain ⟨id, hid, -⟩ := Option.bind_eq_some_iff.mp hother
    exact ⟨id, hid⟩
  · rintro ⟨id, hid⟩
    obtain ⟨fields, rfl⟩ := exists_fields_of_decoded h
    obtain ⟨⟨source, -, hfrom⟩, target, -, hto⟩ := ends_of_decodeElementRow h
    rw [hid, Option.bind_some]
    rcases Edge.eq_or_eq_of_otherEnd? hid with rfl | rfl
    · obtain ⟨-, -, hdocument, -⟩ := keyedIn_of_parseDocumentId hto
      exact ⟨target, hdocument⟩
    · obtain ⟨-, -, hdocument, -⟩ := keyedIn_of_parseDocumentId hfrom
      exact ⟨source, hdocument⟩

/-- A document without one of the ends meets nothing. -/
theorem contains_of_otherEnd? {other : String}
    (h : Store.otherEnd? direction startId (.object fields) = some other) :
    (Entries.contains "_from" fields && Entries.contains "_to" fields) = true := by
  have hcontains : ∀ {field text : String},
      (Json.object fields).stringField? field = some text →
        Entries.contains field fields = true := by
    intro field text hfield
    obtain ⟨json, hjson, -⟩ := Option.bind_eq_some_iff.mp hfield
    exact contains_of_find? hjson
  rw [Bool.and_eq_true]
  rcases Store.otherEnd?_eq_some_iff.mp h with ⟨-, hfrom, hto⟩ | ⟨-, hto, hfrom⟩
  · exact ⟨hcontains hfrom, hcontains hto⟩
  · exact ⟨hcontains hfrom, hcontains hto⟩

/-- The document of an identity that was read is the one its id leads to. -/
theorem lookup?_of_parseDocumentId {text : String} {id : ElementId}
    (h : config.parseDocumentId text = .ok id) (s : Store) :
    id.documentId?.bind s.lookup? = s.documentOf? id := by
  obtain ⟨key, hkeyed, -, hseparator⟩ := keyedIn_of_parseDocumentId h
  rw [Store.documentOf?, ElementId.documentId?, hkeyed.hasKey]
  exact Store.lookup?_documentId s hseparator key

/-- The document that a row leads to is that of the other end of its edge. -/
theorem lookup?_otherEnd? (hvalid : raw.validate = .ok config)
    (hstart : start.documentId? = some startId)
    (h : config.decodeElementRow row = .ok (.edge e)) :
    (Store.otherEnd? direction startId row).bind s.lookup? =
      (e.otherEnd? direction start).bind s.documentOf? := by
  rw [otherEnd?_of_decoded hvalid hstart direction h, Option.bind_assoc]
  obtain ⟨fields, rfl⟩ := exists_fields_of_decoded h
  obtain ⟨⟨source, -, hfrom⟩, target, -, hto⟩ := ends_of_decodeElementRow h
  cases hother : e.otherEnd? direction start with
  | none => rfl
  | some id =>
      rcases Edge.eq_or_eq_of_otherEnd? hother with rfl | rfl
      · exact lookup?_of_parseDocumentId hto s
      · exact lookup?_of_parseDocumentId hfrom s

end ends

section rows

/-- The row of an edge is its document. -/
theorem neighborRow?_edge_eq_some_iff {found : Json} :
    s.neighborRow? true direction startId row = some found ↔
      found = row ∧ ∃ other, Store.otherEnd? direction startId row = some other := by
  unfold Store.neighborRow?
  cases Store.otherEnd? direction startId row with
  | none => simp
  | some other => simp [eq_comm]

/-- A neighborhood finds the documents of its collections that meet its start. -/
theorem mem_incidentRows_iff (hs : s.Ordered) :
    row ∈ config.incidentRows names s direction startId .edge ↔
      ∃ name ∈ names, (∃ key, s.document? (config.physicalCollection name) key = some row) ∧
        ∃ other, Store.otherEnd? direction startId row = some other := by
  simp only [incidentRows, List.mem_flatMap, List.mem_filterMap, decide_true,
    neighborRow?_edge_eq_some_iff, Entries.mem_values_iff (hs.ascending _)]
  constructor
  · rintro ⟨name, hname, found, hstored, rfl, hother⟩
    exact ⟨name, hname, hstored, hother⟩
  · rintro ⟨name, hname, hstored, hother⟩
    exact ⟨name, hname, row, hstored, rfl, hother⟩

/-- The vertices that are found are the documents that the rows of the edges lead to. -/
theorem incidentRows_vertex :
    config.incidentRows names s direction startId .vertex =
      (config.incidentRows names s direction startId .edge).filterMap fun row =>
        (Store.otherEnd? direction startId row).bind s.lookup? := by
  rw [incidentRows, incidentRows, List.filterMap_flatMap]
  refine List.flatMap_congr fun name _ => ?_
  rw [List.filterMap_filterMap]
  refine List.filterMap_congr fun row _ => ?_
  unfold Store.neighborRow?
  cases hother : Store.otherEnd? direction startId row with
  | none => rfl
  | some other => simp [hother]

/-- The edge of a document. -/
def readEdge? (config : GraphConfig) (row : Json) : Option Edge :=
  match config.decodeElementRow row with
  | .ok (.edge e) => some e
  | _ => none

theorem readEdge?_eq_some_iff :
    config.readEdge? row = some e ↔ config.decodeElementRow row = .ok (.edge e) := by
  unfold readEdge?
  split
  · next heq => rw [heq]; simp
  · next hnot => exact iff_of_false nofun (hnot e)

/-- Documents of edges are read as these. -/
theorem readItems_edges : ∀ {rows : List Json},
    (∀ row ∈ rows, ∃ e, config.decodeElementRow row = .ok (.edge e)) →
    config.readItems rows = (rows.filterMap config.readEdge?).map fun e => .ok (.edge e)
  | [], _ => rfl
  | row :: rows, h => by
      obtain ⟨⟨e, he⟩, hrest⟩ := List.forall_mem_cons.mp h
      rw [readItems, he, List.filterMap_cons_some (readEdge?_eq_some_iff.mpr he),
        readItems_edges hrest]
      rfl

/-- The edges of two rows have different identities, which are the places of their documents. -/
theorem pairwise_incidentRows (hvalid : raw.validate = .ok config) (hs : s.Consistent)
    (hnames : names.Nodup) :
    (config.incidentRows names s direction startId .edge).Pairwise fun row row' =>
      ∀ e, config.readEdge? row = some e → ∀ e', config.readEdge? row' = some e' →
        e.id ≠ e'.id := by
  have hplace : ∀ {name key row e},
      (key, row) ∈ s.documents (config.physicalCollection name) → config.readEdge? row = some e →
        e.id = ⟨config.graph, name, some key⟩ := fun hentry he =>
    id_of_decoded hvalid hs ((Entries.find?_eq_some_iff (hs.ordered.ascending _)).mpr hentry)
      (readEdge?_eq_some_iff.mp he)
  rw [incidentRows, List.pairwise_flatMap]
  refine ⟨fun name _ => ?_, hnames.imp_of_mem fun {name name'} _ _ hne => ?_⟩
  · -- in one collection the keys differ
    rw [List.pairwise_filterMap, Entries.values, List.pairwise_map]
    have hkeys := hs.ordered.ascending (config.physicalCollection name)
    rw [Entries.Ascending, Entries.keys, List.pairwise_map] at hkeys
    refine hkeys.imp_of_mem fun {entry entry'} hentry hentry' hlt => ?_
    intro found hfound found' hfound' e he e' he' heq
    obtain ⟨rfl, -⟩ := neighborRow?_edge_eq_some_iff.mp hfound
    obtain ⟨rfl, -⟩ := neighborRow?_edge_eq_some_iff.mp hfound'
    rw [hplace hentry he, hplace hentry' he', ElementId.mk.injEq, Option.some.injEq] at heq
    rw [heq.2.2] at hlt
    exact String.lt_irrefl _ hlt
  · intro found hfound found' hfound' e he e' he' heq
    obtain ⟨row, hrow, hfound⟩ := List.mem_filterMap.mp hfound
    obtain ⟨row', hrow', hfound'⟩ := List.mem_filterMap.mp hfound'
    obtain ⟨rfl, -⟩ := neighborRow?_edge_eq_some_iff.mp hfound
    obtain ⟨rfl, -⟩ := neighborRow?_edge_eq_some_iff.mp hfound'
    obtain ⟨entry, hentry, rfl⟩ := List.mem_map.mp hrow
    obtain ⟨entry', hentry', rfl⟩ := List.mem_map.mp hrow'
    rw [hplace hentry he, hplace hentry' he', ElementId.mk.injEq] at heq
    exact hne heq.2.1

end rows

/-- The ends of a decoded edge are those of the edge that was written. -/
theorem ends_of_decoded (hvalid : raw.validate = .ok config) {fields : Entries Json}
    {element : Element} {read : Edge} (h : Records config fields element)
    (hreadable : element.Readable config)
    (hread : config.decodeElementRow (.object fields) = .ok (.edge read)) :
    element.ends = some (read.source, read.target) := by
  have hkind := kind_of_decoded h hread
  obtain ⟨-, hstorable⟩ := hreadable
  have hends := h.ends
  cases element with
  | vertex v => cases hkind
  | edge written =>
      obtain ⟨hsource, htarget⟩ := hends
      obtain ⟨⟨source, hsourceField, hfrom⟩, target, htargetField, hto⟩ :=
        ends_of_decodeElementRow hread
      have hsame : ∀ {field text : String} {id parsed : ElementId}, Refers fields field id →
          Storable config id → Entries.find? field fields = some (.string text) →
          config.parseDocumentId text = .ok parsed → id = parsed :=
        fun href hid hfield hparse => Except.ok.inj
          ((href.decodeId_eq hvalid hid).symm.trans (decodeId_eq hfield hparse))
      rw [Element.ends, hsame hsource hstorable.1 hsourceField hfrom,
        hsame htarget hstorable.2 htargetField hto]

/-- The document of an identity that can be stored has an id that is read. -/
theorem reads_of_storable (hvalid : raw.validate = .ok config) {id : ElementId}
    (h : Storable config id) : config.Reads id := by
  obtain ⟨key, hkey, -⟩ := h.key
  have hdocument : id.documentId? = some (Store.documentId id.physicalCollection key) := by
    rw [ElementId.documentId?, hkey]
    rfl
  exact ⟨_, id, hdocument, (parseDocumentId_eq_ok_iff hvalid).mpr ⟨h, hdocument⟩⟩

end GraphConfig

namespace Addition

variable {raw config : GraphConfig} {a : Addition} {draft : Draft} {assigned : DocumentMeta}
  {additions : List Addition} {outcomes : List (Result Element)} {s s' last : Store}

/-- Where an added edge lies. Without data definition this is a collection of edges of the graph.
In a complex graph it is the collection of its label, unless an id alone said another. -/
structure Places (config : GraphConfig) (a : Addition) (added : Edge) : Prop where
  listed : config.type = .simple ∨ config.dataDefinition = false →
    added.id.collection ∈ config.edges
  labelled : config.type = .complex → (added.label = added.id.collection ↔
    a.label ≠ none ∨ a.id = none ∨ added.id.collection = defaultLabel .edge)

theorem kind_of_edge {added : Edge} (h : a.element draft assigned = .edge added) :
    a.kind = .edge := by
  rw [← kind_element a draft assigned, h]
  rfl

theorem places_of_adds (hvalid : raw.validate = .ok config)
    (hadds : Adds ⟨config⟩ a draft assigned s s') {added : Edge}
    (hadded : a.element draft assigned = .edge added) : a.Places config added := by
  have hkind := kind_of_edge hadded
  have hplace := collection_element a draft assigned
  have hlabel := GraphWrite.label_element a draft assigned
  rw [hadded] at hplace hlabel
  have hcollection : added.id.collection = draft.id.collection := hplace
  have hsame : added.label = draft.label := hlabel
  refine ⟨fun hclosed => ?_, fun htype => ?_⟩
  · have hlisted := Graph.listed_of_newElement hvalid (draft_eq_ok hadds.drafted).1 hclosed
    rw [hkind] at hlisted
    rw [hcollection]
    exact hlisted
  · rw [hcollection, hsame, label_eq_collection_iff htype hadds.drafted, hkind]

/-- The document of an added element is where its identity says. -/
theorem documentOf?_of_mem
    (hrun : runAll ⟨config⟩ additions s = (outcomes, last)) {element : Element}
    (hmem : (a, .ok element) ∈ additions.zip outcomes) :
    ∃ draft assigned before after, Adds ⟨config⟩ a draft assigned before after ∧
      element = a.element draft assigned ∧
      last.documentOf? element.id =
        some (.object (Store.stamped (draft.fields config) assigned)) := by
  have houtcomes : outcomes = (runAll ⟨config⟩ additions s).1 := by rw [hrun]
  have hlast : last = (runAll ⟨config⟩ additions s).2 := by rw [hrun]
  rw [houtcomes] at hmem
  obtain ⟨draft, assigned, before, after, hadds, rfl, hstored⟩ := stored_of_mem _ _ hmem
  refine ⟨draft, assigned, before, after, hadds, rfl, ?_⟩
  rw [hlast, id_element]
  exact hstored

/-- The document of a readable added element is decoded to that element with narrow integers, if its
label has a field of its own. -/
theorem decoded_of_readable (hvalid : raw.validate = .ok config)
    (hadds : Adds ⟨config⟩ a draft assigned s s') (hlabel : config.labelField ∉ reservedFields)
    (hlisted : draft.id.collection ∈ config.collections a.kind)
    (hreadable : (a.element draft assigned).Readable config) :
    config.decodeElementRow (.object (Store.stamped (draft.fields config) assigned)) =
      .ok (a.element draft assigned).narrowed := by
  have hreads : ∀ source target, a.ends = some (source, target) →
      config.Reads source ∧ config.Reads target := by
    intro source target hends
    obtain ⟨-, hstorable⟩ := hreadable
    rw [GraphWrite.ends_element, hends] at hstorable
    exact ⟨GraphConfig.reads_of_storable hvalid hstorable.1,
      GraphConfig.reads_of_storable hvalid hstorable.2⟩
  have hnarrow : a.element draft.narrowed assigned = (a.element draft assigned).narrowed := by
    cases a <;> rfl
  rw [← hnarrow]
  exact decodes_of_adds hvalid hadds hlabel hlisted hreads

/-- The document of a readable added edge is read as that edge. -/
theorem exists_readAs (hvalid : raw.validate = .ok config)
    (hadds : Adds ⟨config⟩ a draft assigned s s') {added : Edge}
    (hadded : a.element draft assigned = .edge added)
    (hstored : last.documentOf? added.id =
      some (.object (Store.stamped (draft.fields config) assigned)))
    (hreadable : Element.Readable config (.edge added))
    (hlisted : added.id.collection ∈ config.edges) :
    ∃ read, added.ReadAs config last read := by
  have hrecords := GraphWrite.records_of_adds hadds
  rw [hadded] at hrecords
  obtain ⟨element, hread, hid⟩ := GraphConfig.exists_decoded hvalid hrecords hreadable
  have hkind := GraphConfig.kind_of_decoded hrecords hread
  cases element with
  | vertex v => cases hkind
  | edge read =>
      have hends := GraphConfig.ends_of_decoded hvalid hrecords hreadable hread
      obtain ⟨hsource, htarget⟩ := Prod.mk.inj (Option.some.inj hends)
      refine ⟨read, ⟨_, hstored, hread⟩, hid, hsource.symm, htarget.symm, fun hlabel => ?_⟩
      have hplace : draft.id.collection ∈ config.collections a.kind := by
        rw [← collection_element a draft assigned, hadded, kind_of_edge hadded]
        exact hlisted
      have hnarrowed := decoded_of_readable hvalid hadds hlabel hplace (hadded ▸ hreadable)
      rw [hread, hadded] at hnarrowed
      exact Except.ok.inj hnarrowed

end Addition

namespace Graph

variable {raw config : GraphConfig} {additions : List Addition} {outcomes : List (Result Element)}
  {last : Store} {names labels : List String} {direction : Direction} {start : ElementId}
  {startId : String} {row : Json}

/-- Edges that are read after some additions: those of the added edges of some collections that
meet an identity. -/
structure Neighborhood (config : GraphConfig) (log : List (Addition × Result Element)) (s : Store)
    (names : List String) (direction : Direction) (start : ElementId) (edges : List Edge) :
    Prop where
  sound : ∀ e ∈ edges, ∃ a added, (a, .ok (.edge added)) ∈ log ∧
    added.id.collection ∈ names ∧ added.Meets direction start ∧ added.ReadAs config s e
  complete : ∀ a added, (a, .ok (.edge added)) ∈ log → added.id.collection ∈ names →
    added.Meets direction start → ∃ e ∈ edges, added.ReadAs config s e

/-- The added edges of some collections that meet an identity have readable added vertices at their
other ends. -/
def EndsAtVertices (config : GraphConfig) (log : List (Addition × Result Element))
    (names : List String) (direction : Direction) (start : ElementId) : Prop :=
  ∀ a added, (a, .ok (.edge added)) ∈ log → added.id.collection ∈ names →
    ∀ id, added.otherEnd? direction start = some id →
      ∃ b vertex, (b, .ok (.vertex vertex)) ∈ log ∧ vertex.id = id ∧
        Element.Readable config (.vertex vertex)

/-- A document that meets an identity is that of an added edge. -/
theorem exists_added_of_otherEnd?
    (hrun : Addition.runAll ⟨config⟩ additions (Store.fresh config) = (outcomes, last))
    {name key other : String}
    (hstored : last.document? (config.physicalCollection name) key = some row)
    (hother : Store.otherEnd? direction startId row = some other) :
    ∃ a added, (a, .ok (.edge added)) ∈ additions.zip outcomes ∧ added.id.collection = name ∧
      last.documentOf? added.id = some row := by
  have hlast : (Addition.runAll ⟨config⟩ additions (Store.fresh config)).2 = last := by rw [hrun]
  have houtcomes : (Addition.runAll ⟨config⟩ additions (Store.fresh config)).1 = outcomes := by
    rw [hrun]
  rw [← hlast] at hstored
  obtain ⟨a, draft, assigned, before, after, hadds, hcollection, rfl, rfl, hmem⟩ :=
    Addition.of_document? (config.variablesCollection_ne_physicalCollection name) hstored
  rw [houtcomes] at hmem
  have hends := (GraphWrite.records_of_adds hadds).ends
  have hid := Addition.id_element a draft assigned
  cases hadded : a.element draft assigned with
  | vertex v =>
      rw [hadded] at hends
      rw [GraphConfig.contains_of_otherEnd? hother] at hends
      exact absurd hends.1 Bool.true_eq_false.mp
  | edge added =>
      rw [hadded] at hmem hid
      replace hid : added.id = draft.id.withKey assigned.key := hid
      refine ⟨a, added, hmem, ?_, ?_⟩
      · rw [hid]
        exact (ElementId.physicalName_inj hcollection).symm
      · rw [hid, ← hlast]
        rw [hcollection, ← hadds.physicalCollection] at hstored
        exact hstored

/-- The document of a readable added vertex is read as a vertex with its identity. -/
theorem exists_vertex_of_mem (hvalid : raw.validate = .ok config)
    (hrun : Addition.runAll ⟨config⟩ additions (Store.fresh config) = (outcomes, last))
    {b : Addition} {vertex : Vertex}
    (hmem : (b, .ok (.vertex vertex)) ∈ additions.zip outcomes)
    (hreadable : Element.Readable config (.vertex vertex)) :
    ∃ row v, last.documentOf? vertex.id = some row ∧
      config.decodeElementRow row = .ok (.vertex v) ∧ v.id = vertex.id := by
  obtain ⟨draft, assigned, before, after, hadds, hadded, hstored⟩ :=
    Addition.documentOf?_of_mem hrun hmem
  have hrecords := GraphWrite.records_of_adds hadds
  rw [← hadded] at hrecords
  obtain ⟨read, hread, hid⟩ := GraphConfig.exists_decoded hvalid hrecords hreadable
  have hkind := GraphConfig.kind_of_decoded hrecords hread
  cases read with
  | vertex v => exact ⟨_, v, hstored, hread, hid⟩
  | edge e => cases hkind

/-- Documents of vertices at the other ends of edges are read one by one. -/
theorem exists_vertices : ∀ {edges : List Edge},
    (∀ e ∈ edges, ∃ id row v, e.otherEnd? direction start = some id ∧
      last.documentOf? id = some row ∧ config.decodeElementRow row = .ok (.vertex v) ∧
      v.id = id) →
    ∃ vertices : List Vertex,
      (config.readItems (edges.filterMap fun e =>
        (e.otherEnd? direction start).bind last.documentOf?)) =
          vertices.map (fun v => .ok (.vertex v)) ∧
      vertices.map (fun v => some v.id) = edges.map (Edge.otherEnd? direction start)
  | [], _ => ⟨[], rfl, rfl⟩
  | e :: edges, h => by
      obtain ⟨⟨id, row, v, hother, hrow, hread, rfl⟩, hrest⟩ := List.forall_mem_cons.mp h
      obtain ⟨vertices, hitems, hids⟩ := exists_vertices hrest
      have hfound : (e.otherEnd? direction start).bind last.documentOf? = some row := by
        rw [hother, Option.bind_some, hrow]
      refine ⟨v :: vertices, ?_, ?_⟩
      · rw [List.filterMap_cons, hfound]
        dsimp only
        rw [GraphConfig.readItems, hread, hitems]
        rfl
      · rw [List.map_cons, List.map_cons, hother, hids]

/-- A directed neighborhood yields the elements of the rows of the edges that are incident. -/
theorem exists_neighbors (hstart : start.documentId? = some startId)
    (hlabels : config.type = .complex → ∀ label ∈ labels, label ∈ config.edges)
    (hdirected : GraphConfig.Directed config (config.neighborFilter labels)
      (config.neighborNames labels) direction)
    (hs : last.answers = []) (target : ElementKind) :
    ∃ it, Graph.neighbors ⟨config⟩ start direction labels target = .ok it ∧
      (it.drain last).1 = config.readItems
        (config.incidentRows (config.neighborNames labels) last direction startId target) := by
  have hnames := GraphConfig.neighborCollections_eq hlabels
  obtain ⟨query, hquery⟩ := GraphConfig.exists_neighborQuery direction target hstart hnames
  refine ⟨_, congrArg (Except.map _) hquery, drain_iteration ?_⟩
  exact GraphConfig.returns_incident_of_directed hquery hstart hnames hdirected
    (Store.unanswered_of_answers hs query)

section rows

variable (hvalid : raw.validate = .ok config)
  (hrun : Addition.runAll ⟨config⟩ additions (Store.fresh config) = (outcomes, last))
  (hnames : ∀ name ∈ names, name ∈ config.edges)
  (hreadable : ∀ a added, (a, .ok (.edge added)) ∈ additions.zip outcomes →
    added.id.collection ∈ names → Element.Readable config (.edge added))

include hvalid hrun hnames hreadable

/-- Every row of a neighborhood is the document of an added edge, and read as that edge. -/
theorem exists_readAs_of_row (hs : last.Ordered)
    (hrow : row ∈ config.incidentRows names last direction startId .edge) :
    ∃ a added e, (a, .ok (.edge added)) ∈ additions.zip outcomes ∧
      added.id.collection ∈ names ∧ added.ReadAs config last e ∧
      config.decodeElementRow row = .ok (.edge e) := by
  obtain ⟨name, hname, ⟨key, hstored⟩, other, hother⟩ :=
    (GraphConfig.mem_incidentRows_iff hs).mp hrow
  obtain ⟨a, added, hmem, rfl, hdocument⟩ := exists_added_of_otherEnd? hrun hstored hother
  obtain ⟨draft, assigned, before, after, hadds, hadded, hown⟩ :=
    Addition.documentOf?_of_mem hrun hmem
  obtain ⟨e, he⟩ := Addition.exists_readAs hvalid hadds hadded.symm hown
    (hreadable a added hmem hname) (hnames _ hname)
  obtain ⟨found, hfound, hdecoded⟩ := he.decoded
  obtain rfl : row = found := Option.some.inj (hdocument.symm.trans hfound)
  exact ⟨a, added, e, hmem, hname, he, hdecoded⟩

/-- The edges of the rows of a neighborhood are those of the added edges that meet its start. -/
theorem neighborhood_of_rows (hs : last.Ordered) (hstart : start.documentId? = some startId) :
    Neighborhood config (additions.zip outcomes) last names direction start
      ((config.incidentRows names last direction startId .edge).filterMap
        config.readEdge?) where
  sound := by
    intro e he
    obtain ⟨row, hrow, hread⟩ := List.mem_filterMap.mp he
    obtain ⟨a, added, e', hmem, hname, hreadAs, hdecoded⟩ :=
      exists_readAs_of_row hvalid hrun hnames hreadable hs hrow
    obtain rfl : e = e' := Option.some.inj
      (hread.symm.trans (GraphConfig.readEdge?_eq_some_iff.mpr hdecoded))
    obtain ⟨-, -, -, hother⟩ := (GraphConfig.mem_incidentRows_iff hs).mp hrow
    have hmeets := (GraphConfig.exists_otherEnd?_iff hvalid hstart hdecoded).mp hother
    exact ⟨a, added, hmem, hname, hreadAs.meets_iff.mp hmeets, hreadAs⟩
  complete := by
    intro a added hmem hname hmeets
    obtain ⟨draft, assigned, before, after, hadds, hadded, hown⟩ :=
      Addition.documentOf?_of_mem hrun hmem
    have hownReadable := hreadable a added hmem hname
    obtain ⟨e, he⟩ := Addition.exists_readAs hvalid hadds hadded.symm hown hownReadable
      (hnames _ hname)
    obtain ⟨row, hrow, hdecoded⟩ := he.decoded
    refine ⟨e, List.mem_filterMap.mpr ⟨row, ?_, GraphConfig.readEdge?_eq_some_iff.mpr hdecoded⟩, he⟩
    obtain ⟨key, -, hstored⟩ := Option.bind_eq_some_iff.mp hrow
    have hgraph : added.id.graph = config.graph := hownReadable.1.graph
    rw [ElementId.physicalCollection_of_graph hgraph] at hstored
    exact (GraphConfig.mem_incidentRows_iff hs).mpr ⟨_, hname, ⟨key, hstored⟩,
      (GraphConfig.exists_otherEnd?_iff hvalid hstart hdecoded).mpr (he.meets_iff.mpr hmeets)⟩

/-- The vertices of a neighborhood are the documents at the other ends of its edges. -/
theorem incidentRows_vertex_eq (hs : last.Ordered) (hstart : start.documentId? = some startId) :
    config.incidentRows names last direction startId .vertex =
      ((config.incidentRows names last direction startId .edge).filterMap
        config.readEdge?).filterMap fun e =>
          (e.otherEnd? direction start).bind last.documentOf? := by
  rw [GraphConfig.incidentRows_vertex, List.filterMap_filterMap]
  refine List.filterMap_congr fun row hrow => ?_
  obtain ⟨-, -, e, -, -, -, hdecoded⟩ :=
    exists_readAs_of_row hvalid hrun hnames hreadable hs hrow
  rw [GraphConfig.lookup?_otherEnd? hvalid hstart hdecoded,
    GraphConfig.readEdge?_eq_some_iff.mpr hdecoded, Option.bind_some]

end rows

/-- After any additions to a graph that was opened over an empty store, a neighborhood that is
directed yields the added edges of its collections that meet its start, if these are readable: all
of them, no others, and each one once if no label is repeated. Beside them it yields the documents
at their other ends, which are one vertex for each edge if there are added vertices. -/
theorem neighborhood_of_additions (hvalid : raw.validate = .ok config)
    (hrun : Addition.runAll ⟨config⟩ additions (Store.fresh config) = (outcomes, last))
    (hstart : start.documentId? = some startId)
    (hlabels : config.type = .complex → ∀ label ∈ labels, label ∈ config.edges)
    (hdirected : GraphConfig.Directed config (config.neighborFilter labels)
      (config.neighborNames labels) direction)
    (hreadable : ∀ a added, (a, .ok (.edge added)) ∈ additions.zip outcomes →
      added.id.collection ∈ config.neighborNames labels → Element.Readable config (.edge added)) :
    Graph.opened raw Store.empty = (.ok ⟨config⟩, Store.fresh config) ∧
      (∀ a added, (a, .ok (.edge added)) ∈ additions.zip outcomes → a.Places config added) ∧
      ∃ (edgesIt vertexIt : ElementIteration) (edges : List Edge),
        Graph.neighbors ⟨config⟩ start direction labels .edge = .ok edgesIt ∧
        Graph.neighbors ⟨config⟩ start direction labels .vertex = .ok vertexIt ∧
        (edgesIt.drain last).1 = edges.map (fun e => .ok (.edge e)) ∧
        Neighborhood config (additions.zip outcomes) last (config.neighborNames labels) direction
          start edges ∧
        ((config.type = .complex → labels.Nodup) → (edges.map Edge.id).Nodup) ∧
        (vertexIt.drain last).1 = config.readItems (edges.filterMap fun e =>
          (e.otherEnd? direction start).bind last.documentOf?) ∧
        (EndsAtVertices config (additions.zip outcomes) (config.neighborNames labels) direction
            start →
          ∃ vertices : List Vertex,
            (vertexIt.drain last).1 = vertices.map (fun v => .ok (.vertex v)) ∧
            vertices.map (fun v => some v.id) = edges.map (Edge.otherEnd? direction start)) := by
  have hconsistent : last.Consistent := by
    have hreached : (Addition.runAll ⟨config⟩ additions (Store.fresh config)).2.Reached :=
      Addition.reached_of_runAll additions (reached_fresh hvalid)
    rw [hrun] at hreached
    exact hreached.consistent
  have hordered := hconsistent.ordered
  have hlisted := GraphConfig.mem_edges_of_neighborCollections
    (GraphConfig.neighborCollections_eq hlabels)
  refine ⟨opened_empty hvalid, fun a added hmem => ?_, ?_⟩
  · obtain ⟨draft, assigned, before, after, hadds, hadded, -⟩ :=
      Addition.documentOf?_of_mem hrun hmem
    exact Addition.places_of_adds hvalid hadds hadded.symm
  have hanswered := exists_neighbors hstart hlabels hdirected hconsistent.answers
  obtain ⟨edgesIt, hedges, hedgeItems⟩ := hanswered .edge
  obtain ⟨vertexIt, hvertices, hvertexItems⟩ := hanswered .vertex
  have hread : ∀ row ∈ config.incidentRows (config.neighborNames labels) last direction startId
      .edge, ∃ e, config.decodeElementRow row = .ok (.edge e) := by
    intro row hrow
    obtain ⟨-, -, e, -, -, -, hdecoded⟩ :=
      exists_readAs_of_row hvalid hrun hlisted hreadable hordered hrow
    exact ⟨e, hdecoded⟩
  rw [GraphConfig.readItems_edges hread] at hedgeItems
  rw [incidentRows_vertex_eq hvalid hrun hlisted hreadable hordered hstart] at hvertexItems
  have hneighborhood : Neighborhood config (additions.zip outcomes) last
      (config.neighborNames labels) direction start _ :=
    neighborhood_of_rows hvalid hrun hlisted hreadable hordered hstart
  refine ⟨edgesIt, vertexIt, _, hedges, hvertices, hedgeItems, hneighborhood, fun honce => ?_,
    hvertexItems, fun hends => ?_⟩
  · have hdistinct := GraphConfig.nodup_neighborNames honce
    rw [List.Nodup, List.pairwise_map, List.pairwise_filterMap]
    exact GraphConfig.pairwise_incidentRows hvalid hconsistent hdistinct
  · rw [hvertexItems]
    refine exists_vertices fun e he => ?_
    obtain ⟨a, added, hmem, hname, hmeets, hreadAs⟩ := hneighborhood.sound e he
    obtain ⟨id, hother⟩ := Edge.exists_otherEnd?_iff.mpr (hreadAs.meets_iff.mpr hmeets)
    have hadded : added.otherEnd? direction start = some id := by
      rw [← hother, Edge.otherEnd?, Edge.otherEnd?, hreadAs.source, hreadAs.target]
    obtain ⟨b, vertex, hvertex, rfl, hown⟩ := hends a added hmem hname id hadded
    obtain ⟨row, v, hrow, hdecoded, hid⟩ := exists_vertex_of_mem hvalid hrun hvertex hown
    exact ⟨_, row, v, hother, hrow, hdecoded, hid⟩

/-- Alice and Rex are added with their labels, and that she keeps him. -/
def keptRex : List Addition :=
  [.vertex (some "person") (some "person/alice") [], .vertex (some "dog") (some "dog/rex") [],
    aliceKeepsRex]

/-- The identity of Alice in the kennel. -/
def aliceOfKennel : ElementId := ⟨"kennel", "person", some "alice"⟩

/-- The edge from Alice to Rex, as it was added. -/
def addedKeeps : Edge :=
  ⟨⟨"kennel", "keeps", some "1"⟩, "keeps", some "5", aliceOfKennel, GraphConfig.rexOfKennel,
    [("since", .int64 2019)]⟩

/-- Rex, as he was added. -/
def labelledRex : Vertex := ⟨GraphConfig.rexOfKennel, "dog", some "4", [], []⟩

/-- What the three additions answer. -/
def keptOutcomes : List (Result Element) :=
  [.ok labelledAlice, .ok (.vertex labelledRex), .ok (.edge addedKeeps)]

/-- The store after them. -/
def withKeptRex : Store :=
  (Addition.runAll ⟨GraphConfig.kennel⟩ keptRex (Store.fresh GraphConfig.kennel)).2

theorem runAll_keptRex :
    Addition.runAll ⟨GraphConfig.kennel⟩ keptRex (Store.fresh GraphConfig.kennel) =
      (keptOutcomes, withKeptRex) :=
  Prod.ext rfl rfl

theorem readable_keptRex :
    Element.Readable GraphConfig.kennel (.edge addedKeeps) ∧
      Element.Readable GraphConfig.kennel (.vertex labelledRex) := by
  have hkeeps : Storable GraphConfig.kennel addedKeeps.id :=
    ⟨rfl, ⟨by decide, by decide, by decide⟩, "1", rfl, by decide, by decide, by decide⟩
  have halice : Storable GraphConfig.kennel aliceOfKennel :=
    ⟨rfl, ⟨by decide, by decide, by decide⟩, "alice", rfl, by decide, by decide, by decide⟩
  have hrex : Storable GraphConfig.kennel GraphConfig.rexOfKennel :=
    ⟨rfl, ⟨by decide, by decide, by decide⟩, "rex", rfl, by decide, by decide, by decide⟩
  have hlabel : GraphConfig.kennel.labelField ≠ metadataField := by decide
  exact ⟨⟨hkeeps, halice, hrex⟩, hrex, hlabel⟩

/-- What Alice keeps is the edge that was added, and Rex. -/
theorem neighborhood_of_additions_keeps :
    ∃ (edgesIt vertexIt : ElementIteration) (e : Edge) (v : Vertex),
      Graph.neighbors ⟨GraphConfig.kennel⟩ aliceOfKennel .outgoing ["keeps"] .edge = .ok edgesIt ∧
      Graph.neighbors ⟨GraphConfig.kennel⟩ aliceOfKennel .outgoing ["keeps"] .vertex =
        .ok vertexIt ∧
      .ok (.edge e) ∈ (edgesIt.drain withKeptRex).1 ∧ e.id = addedKeeps.id ∧
      .ok (.vertex v) ∈ (vertexIt.drain withKeptRex).1 ∧ v.id = GraphConfig.rexOfKennel := by
  have hstart : aliceOfKennel.documentId? = some "kennel_person/alice" := rfl
  have hlabels : GraphConfig.kennel.type = .complex →
      ∀ label ∈ ["keeps"], label ∈ GraphConfig.kennel.edges := by decide
  have hdirected : GraphConfig.Directed GraphConfig.kennel
      (GraphConfig.kennel.neighborFilter ["keeps"])
      (GraphConfig.kennel.neighborNames ["keeps"]) .outgoing := ⟨by decide, by decide⟩
  have hadded : ∀ a added, (a, .ok (.edge added)) ∈ keptRex.zip keptOutcomes →
      added = addedKeeps := by
    simp [keptRex, keptOutcomes, labelledAlice]
  have hreadable : ∀ a added, (a, .ok (.edge added)) ∈ keptRex.zip keptOutcomes →
      added.id.collection ∈ GraphConfig.kennel.neighborNames ["keeps"] →
      Element.Readable GraphConfig.kennel (.edge added) := by
    intro a added hmem _
    rw [hadded a added hmem]
    exact readable_keptRex.1
  obtain ⟨-, -, edgesIt, vertexIt, edges, hedges, hvertices, hedgeItems, hneighborhood, -, -,
      hends⟩ :=
    neighborhood_of_additions GraphConfig.validate_kennel runAll_keptRex
      hstart hlabels hdirected hreadable
  have hkept : (aliceKeepsRex, .ok (.edge addedKeeps)) ∈ keptRex.zip keptOutcomes := by
    simp [keptRex, keptOutcomes]
  obtain ⟨e, he, hreadAs⟩ := hneighborhood.complete _ _ hkept (by decide)
    (.inl ⟨by decide, rfl⟩)
  have hother : e.otherEnd? .outgoing aliceOfKennel = some GraphConfig.rexOfKennel := by
    rw [Edge.otherEnd?, hreadAs.source, hreadAs.target]
    rfl
  obtain ⟨vertices, hitems, hids⟩ := hends (by
    intro a added hmem _ id hid
    rw [hadded a added hmem] at hid
    cases hid
    exact ⟨_, labelledRex, List.mem_cons_of_mem _ List.mem_cons_self, rfl, readable_keptRex.2⟩)
  have hrex : some GraphConfig.rexOfKennel ∈ vertices.map fun v => some v.id := by
    rw [hids, ← hother]
    exact List.mem_map_of_mem he
  obtain ⟨v, hv, hid⟩ := List.mem_map.mp hrex
  refine ⟨edgesIt, vertexIt, e, v, hedges, hvertices, ?_, hreadAs.id, ?_, Option.some.inj hid⟩
  · rw [hedgeItems]
    exact List.mem_map_of_mem he
  · rw [hitems]
    exact List.mem_map_of_mem hv

/-- An edge of the standard graph from one person to another, as it was added. -/
def addedTie (label key revision : String) : Edge :=
  ⟨⟨"tinkerpop", "edge", some key⟩, label, some revision, ⟨"tinkerpop", "vertex", some "a"⟩,
    ⟨"tinkerpop", "vertex", some "b"⟩, []⟩

/-- Two persons, one of whom knows and likes the other. -/
def acquaintances : List Addition :=
  [.vertex (some "person") (some "a") [], .vertex (some "person") (some "b") [],
    .edge (some "knows") (some "k") ⟨"tinkerpop", "vertex", some "a"⟩
      ⟨"tinkerpop", "vertex", some "b"⟩ [],
    .edge (some "likes") (some "l") ⟨"tinkerpop", "vertex", some "a"⟩
      ⟨"tinkerpop", "vertex", some "b"⟩ []]

/-- The store after they were added. -/
def withAcquaintances : Store :=
  (Addition.runAll ⟨GraphConfig.standard⟩ acquaintances (Store.fresh GraphConfig.standard)).2

/-- Of the edges that leave the first, those of one label are asked for, and both are yielded. -/
theorem not_neighborhood_of_label :
    Graph.opened GraphConfig.initial Store.empty =
        (.ok ⟨GraphConfig.standard⟩, Store.fresh GraphConfig.standard) ∧
      (Addition.runAll ⟨GraphConfig.standard⟩ acquaintances
          (Store.fresh GraphConfig.standard)).1.drop 2 =
        [.ok (.edge (addedTie "knows" "k" "5")), .ok (.edge (addedTie "likes" "l" "6"))] ∧
      ∃ it, Graph.neighbors ⟨GraphConfig.standard⟩ ⟨"tinkerpop", "vertex", some "a"⟩ .outgoing
          ["knows"] .edge = .ok it ∧
        (it.drain withAcquaintances).1 =
          [.ok (.edge (addedTie "knows" "k" "5")), .ok (.edge (addedTie "likes" "l" "6"))] := by
  have hdirected : GraphConfig.Directed GraphConfig.standard
      (GraphConfig.standard.neighborFilter ["knows"])
      (GraphConfig.standard.neighborNames ["knows"]) .outgoing := ⟨by decide, by decide⟩
  have hstart : ElementId.documentId? ⟨"tinkerpop", "vertex", some "a"⟩ =
      some "tinkerpop_vertex/a" := rfl
  have hanswers : withAcquaintances.answers = [] := rfl
  obtain ⟨it, hit, hitems⟩ := exists_neighbors hstart (by decide) hdirected hanswers .edge
  exact ⟨opened_empty GraphConfig.validate_initial, rfl, it, hit, hitems⟩

end Graph
end Pushdown
