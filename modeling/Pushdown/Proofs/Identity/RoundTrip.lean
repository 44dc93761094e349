import Pushdown.Proofs.Config.Validation
import Pushdown.Proofs.Identity.Encoding

/-!
# Reading ids back

A validated configuration keeps its names free of the separators of ids. So an identity is
read back from its id in traversals and from the id of its document, these are all the texts
that are read, and the documents of another graph are none of this one.

## Results

* `GraphConfig.names_of_validate`: the names of a validated configuration;
* `GraphConfig.parseId_eq_ok_iff_nameable`: the ids of traversals;
* `GraphConfig.parseDocumentId_eq_ok_iff`: the ids of documents;
* `ElementId.graph_eq_of_documentId?`: a document id names one graph;
* `GraphConfig.ids_read_back`: all of this, with what the id field of a document holds.
-/

namespace Pushdown

/-- A name: a part of ids that is not empty. -/
structure IsName (text : String) : Prop where
  nonempty : text ≠ ""
  part : IdPart text

/-- An identity that ids of a kind stand for: one of the graph with a key, in the only
collection of the kind or, in a complex graph, in any. -/
structure Nameable (config : GraphConfig) (kind : ElementKind) (id : ElementId) : Prop where
  graph : id.graph = config.graph
  key : ∃ key, id.key = some key ∧ IsName key
  collection : match config.type with
    | .simple => id.collection = config.defaultCollection kind
    | .complex => IsName id.collection

/-- An identity that ids of documents stand for. -/
structure Storable (config : GraphConfig) (id : ElementId) : Prop where
  graph : id.graph = config.graph
  collection : IsName id.collection
  key : ∃ key, id.key = some key ∧ IsName key

/-- The documents of the elements of a graph are in its own collections. -/
theorem ElementId.physicalCollection_of_graph {config : GraphConfig} {id : ElementId}
    (h : id.graph = config.graph) :
    id.physicalCollection = config.physicalCollection id.collection := by
  rw [ElementId.physicalCollection, h]
  rfl

namespace GraphConfig

variable {raw config : GraphConfig} {kind : ElementKind}

theorem isName_of_checkName {what name : String} (h : checkName what name = .ok ()) :
    IsName name := by
  unfold checkName at h
  split at h
  · cases h
  · next hempty =>
    split at h
    · cases h
    · next hgraph =>
      split at h
      · cases h
      · next hkey =>
        rw [String.isEmpty_iff] at hempty
        rw [List.contains_iff_mem] at hgraph hkey
        exact ⟨hempty, hgraph, hkey⟩

theorem isName_of_checkNames {what : String} :
    ∀ {names : List String}, checkNames what names = .ok () → ∀ name ∈ names, IsName name
  | [], _, _, hname => by cases hname
  | first :: names, h, name, hname => by
      rw [checkNames] at h
      split at h
      · next hfirst =>
        rcases List.mem_cons.mp hname with rfl | hname
        · exact isName_of_checkName hfirst
        · exact isName_of_checkNames h name hname
      · cases h

/-- Graph and collections of a validated configuration have names without separators. -/
theorem names_of_validate (h : raw.validate = .ok config) :
    IsName config.graph ∧ ∀ kind, ∀ name ∈ config.collections kind, IsName name := by
  obtain ⟨-, -, hgraph, hnames⟩ := of_validate h
  have hall := isName_of_checkNames hnames
  refine ⟨isName_of_checkName hgraph, fun kind name hname => hall name ?_⟩
  cases kind with
  | vertex => exact List.mem_append_left _ hname
  | edge => exact List.mem_append_right _ hname

/-- The name of a collection in the store has no key separator. -/
theorem keySeparator_not_mem_physicalCollection (h : raw.validate = .ok config) {name : String}
    (hname : IdPart name) : keySeparator ∉ (config.physicalCollection name).toList := by
  rw [physicalCollection, physicalName, toList_join, List.mem_append, List.mem_cons, not_or, not_or]
  exact ⟨(names_of_validate h).1.part.noKeySeparator, by decide, hname.noKeySeparator⟩

/-- The only collection of a kind of a simple graph has a name. -/
theorem isName_defaultCollection (h : raw.validate = .ok config) (htype : config.type = .simple)
    (kind : ElementKind) : IsName (config.defaultCollection kind) := by
  refine (names_of_validate h).2 kind _ ?_
  rw [collections_eq_single h htype]
  exact Names.mem_single.mpr rfl

/-- An id is read as the identity that it is the id of, and nothing else is read. -/
theorem parseId_eq_ok_iff_nameable (h : raw.validate = .ok config) {text : String}
    {id : ElementId} :
    config.parseId kind text = .ok id ↔
      Nameable config kind id ∧ config.encodeId id = some text := by
  rw [parseId_eq_ok_iff]
  constructor
  · rintro ⟨key, ⟨hgraph, hkey, hcollection, hpart⟩, hne, hnames, hencode⟩
    refine ⟨⟨hgraph, ⟨key, hkey, hne, hpart⟩, ?_⟩, hencode⟩
    cases htype : config.type with
    | simple =>
        rw [htype] at hnames
        exact hnames
    | complex =>
        rw [htype] at hnames
        exact ⟨hnames, hcollection⟩
  · rintro ⟨⟨hgraph, ⟨key, hkey, hne, hpart⟩, hcollection⟩, hencode⟩
    cases htype : config.type with
    | simple =>
        rw [htype] at hcollection
        have hdefault : IdPart id.collection :=
          hcollection ▸ (isName_defaultCollection h htype kind).part
        exact ⟨key, ⟨hgraph, hkey, hdefault, hpart⟩, hne, hcollection, hencode⟩
    | complex =>
        rw [htype] at hcollection
        exact ⟨key, ⟨hgraph, hkey, hcollection.part, hpart⟩, hne, hcollection.nonempty, hencode⟩

/-- A document id is cut behind the name of the collection in the store. -/
theorem splitDocumentId?_eq_some_iff {text collection key : String} :
    config.splitDocumentId? text = some (collection, key) ↔
      keySeparator ∉ (config.physicalCollection collection).toList ∧ collection ≠ "" ∧ key ≠ "" ∧
        text = config.physicalCollection collection ++ keySeparator.toString ++ key := by
  have htext : text = config.physicalCollection collection ++ keySeparator.toString ++ key ↔
      text.toList =
        (config.physicalCollection collection).toList ++ keySeparator :: key.toList := by
    rw [← toList_join, String.toList_inj]
  have hphysical : (config.physicalCollection collection).toList =
      config.graph.toList ++ graphSeparator :: collection.toList := toList_join _ _ _
  rw [htext, hphysical]
  unfold splitDocumentId?
  constructor
  · intro h
    obtain ⟨⟨physical, rest⟩, hcut, h⟩ := Option.bind_eq_some_iff.mp h
    obtain ⟨tail, hgraph, h⟩ := Option.bind_eq_some_iff.mp h
    obtain ⟨name, hname, h⟩ := Option.bind_eq_some_iff.mp h
    rw [Text.splitAt?_eq_some_iff] at hcut
    rw [Text.dropStart?_eq_some_iff] at hgraph hname
    rw [hgraph, hname] at hcut
    split at h
    · cases h
    · next hempty =>
      cases h
      rw [Bool.or_eq_true, not_or, List.isEmpty_iff, List.isEmpty_iff] at hempty
      simp only [String.toList_ofList]
      refine ⟨hcut.1, ?_, ?_, hcut.2⟩
      · rw [Ne, ← String.toList_eq_nil_iff, String.toList_ofList]
        exact hempty.1
      · rw [Ne, ← String.toList_eq_nil_iff, String.toList_ofList]
        exact hempty.2
  · rintro ⟨hnot, hcollection, hkey, htext⟩
    have hcut := Text.splitAt?_eq_some_iff.mpr ⟨hnot, htext⟩
    refine Option.bind_eq_some_iff.mpr ⟨_, hcut, ?_⟩
    refine Option.bind_eq_some_iff.mpr ⟨_, Text.dropStart?_eq_some_iff.mpr rfl, ?_⟩
    refine Option.bind_eq_some_iff.mpr
      ⟨collection.toList, Text.dropStart?_eq_some_iff.mpr rfl, ?_⟩
    rw [Ne, ← String.toList_eq_nil_iff] at hcollection hkey
    simp [hcollection, hkey]

/-- A document id is read as the identity of the graph that it is the id of. -/
theorem parseDocumentId_eq_ok_iff (h : raw.validate = .ok config) {text : String}
    {id : ElementId} :
    config.parseDocumentId text = .ok id ↔
      Storable config id ∧ id.documentId? = some text := by
  constructor
  · intro hparse
    obtain ⟨key, ⟨hgraph, hkey, hcollection, hpart⟩, hdocument, -⟩ :=
      keyedIn_of_parseDocumentId hparse
    unfold parseDocumentId at hparse
    split at hparse
    · cases hparse
    · next collection key' hsplit =>
      obtain ⟨-, hname, hkeyname, -⟩ := splitDocumentId?_eq_some_iff.mp hsplit
      split at hparse
      · cases hparse
      · split at hparse
        · cases hparse
        · cases hparse
          cases hkey
          exact ⟨⟨rfl, ⟨hname, hcollection⟩, ⟨key, rfl, hkeyname, hpart⟩⟩, hdocument⟩
  · rintro ⟨⟨hgraph, hcollection, key, hkey, hkeyname⟩, hdocument⟩
    obtain ⟨graph, collection, k⟩ := id
    obtain rfl : graph = config.graph := hgraph
    obtain rfl : k = some key := hkey
    have hnot : keySeparator ∉ (config.physicalCollection collection).toList :=
      keySeparator_not_mem_physicalCollection h hcollection.part
    have hsplit : config.splitDocumentId? text = some (collection, key) :=
      splitDocumentId?_eq_some_iff.mpr
        ⟨hnot, hcollection.nonempty, hkeyname.nonempty, (Option.some.inj hdocument).symm⟩
    unfold parseDocumentId
    rw [hsplit]
    dsimp only
    rw [idPart_iff_firstOf?.mp hcollection.part, idPart_iff_firstOf?.mp hkeyname.part]

end GraphConfig

namespace ElementId

/-- A document id names one graph, if the names of graphs have no separators. -/
theorem graph_eq_of_documentId? {a b : ElementId} {text : String}
    (ha : graphSeparator ∉ a.graph.toList) (hb : graphSeparator ∉ b.graph.toList)
    (hdoc : a.documentId? = some text) (hdoc' : b.documentId? = some text) :
    a.graph = b.graph := by
  obtain ⟨key, -, rfl⟩ := Option.map_eq_some_iff.mp hdoc
  obtain ⟨key', -, htext⟩ := Option.map_eq_some_iff.mp hdoc'
  have hlist := congrArg String.toList htext
  simp only [physicalCollection, physicalName, toList_join, List.append_assoc,
    List.cons_append] at hlist
  exact String.toList_inj.mp (Text.cut_inj hb ha hlist).1.symm

end ElementId

namespace GraphConfig

variable {raw config : GraphConfig} {kind : ElementKind}

/-- What the id field of a document holds for an id: the key of its identity or, in a complex
graph, the id of its document. -/
theorem storedId_of_parseId {text : String} {id : ElementId}
    (h : config.parseId kind text = .ok id) (hkey : ∃ key, id.key = some key) :
    ∃ stored, config.storedId kind text = .ok stored ∧
      match config.type with
      | .simple => id.key = some stored
      | .complex => id.documentId? = some stored := by
  obtain ⟨key, hkey⟩ := hkey
  unfold storedId
  cases config.type with
  | simple =>
      refine ⟨key, Outcome.bind_eq_ok_iff.mpr ⟨id, h, ?_⟩, hkey⟩
      dsimp only
      rw [hkey]
      rfl
  | complex =>
      have hdocument : id.documentId? =
          some (id.physicalCollection ++ keySeparator.toString ++ key) := by
        rw [ElementId.documentId?, hkey, Option.map_some]
      refine ⟨_, Outcome.bind_eq_ok_iff.mpr ⟨id, h, ?_⟩, hdocument⟩
      dsimp only
      rw [hdocument]
      rfl

/-- Ids are read back. In traversals: what is read is the ids of the identities that a kind can
name, and reading and writing undo each other. In documents: what is read is the ids of the
identities of the graph, and no id of a graph with another name. What an id field holds is a
part of the identity that is read. -/
theorem ids_read_back (h : raw.validate = .ok config) (kind : ElementKind) :
    (∀ text, (∃ id, config.parseId kind text = .ok id) ↔
      ∃ id, Nameable config kind id ∧ config.encodeId id = some text) ∧
    (∀ text id, config.parseId kind text = .ok id → config.encodeId id = some text) ∧
    (∀ id, Nameable config kind id →
      ∃ text, config.encodeId id = some text ∧ config.parseId kind text = .ok id) ∧
    (∀ text id, config.parseDocumentId text = .ok id ↔
      Storable config id ∧ id.documentId? = some text) ∧
    (∀ raw' other : GraphConfig, raw'.validate = .ok other → other.graph ≠ config.graph →
      ∀ text id, other.parseDocumentId text = .ok id →
        ∃ fault, config.parseDocumentId text = .error fault) ∧
    (∀ text id, config.parseId kind text = .ok id →
      ∃ stored, config.storedId kind text = .ok stored ∧
        match config.type with
        | .simple => id.key = some stored
        | .complex => id.documentId? = some stored) := by
  refine ⟨?_, ?_, ?_, ?_, ?_, ?_⟩
  · intro text
    exact exists_congr fun id => parseId_eq_ok_iff_nameable h
  · intro text id hparse
    exact ((parseId_eq_ok_iff_nameable h).mp hparse).2
  · intro id hid
    obtain ⟨key, hkey, -⟩ := hid.key
    obtain ⟨text, htext⟩ : ∃ text, config.encodeId id = some text := encodeId_of_key hkey
    exact ⟨text, htext, (parseId_eq_ok_iff_nameable h).mpr ⟨hid, htext⟩⟩
  · intro text id
    exact parseDocumentId_eq_ok_iff h
  · intro raw' other h' hne text id hother
    cases hparse : config.parseDocumentId text with
    | error fault => exact ⟨fault, rfl⟩
    | ok own =>
        obtain ⟨hid, hdocument⟩ := (parseDocumentId_eq_ok_iff h').mp hother
        obtain ⟨hown, hdocument'⟩ := (parseDocumentId_eq_ok_iff h).mp hparse
        have hgraph : id.graph = own.graph := by
          refine ElementId.graph_eq_of_documentId? ?_ ?_ hdocument hdocument'
          · rw [hid.graph]
            exact (names_of_validate h').1.part.noGraphSeparator
          · rw [hown.graph]
            exact (names_of_validate h).1.part.noGraphSeparator
        rw [hid.graph, hown.graph] at hgraph
        exact absurd hgraph hne
  · intro text id hparse
    obtain ⟨key, hkey, -⟩ := ((parseId_eq_ok_iff_nameable h).mp hparse).1.key
    exact storedId_of_parseId hparse ⟨key, hkey⟩

/-- A dog of the kennel, whose ids in traversals and of its document differ. -/
def rexOfKennel : ElementId := ⟨"kennel", "dog", some "rex"⟩

theorem ids_read_back_kennel :
    kennel.validate = .ok kennel ∧ kennel.parseId .vertex "dog/rex" = .ok rexOfKennel ∧
      kennel.encodeId rexOfKennel = some "dog/rex" ∧
      kennel.parseDocumentId "kennel_dog/rex" = .ok rexOfKennel ∧
      (∃ fault, standard.parseDocumentId "kennel_dog/rex" = .error fault) ∧
      ¬ (∃ id, kennel.parseId .vertex "dog/" = .ok id) := by
  obtain ⟨-, hencode, -, hdocument, -, -⟩ := ids_read_back validate_kennel .vertex
  obtain ⟨-, -, -, -, hother, -⟩ := ids_read_back validate_initial .vertex
  have hparse : kennel.parseId .vertex "dog/rex" = .ok rexOfKennel := rfl
  have hread : kennel.parseDocumentId "kennel_dog/rex" = .ok rexOfKennel := by
    refine (hdocument _ _).mpr ⟨⟨rfl, ⟨by decide, by decide, by decide⟩, "rex", rfl, ?_⟩, rfl⟩
    exact ⟨by decide, by decide, by decide⟩
  refine ⟨validate_kennel, hparse, hencode _ _ hparse, hread, ?_, ?_⟩
  · exact hother kennel kennel validate_kennel (by decide) _ _ hread
  · rintro ⟨id, hid⟩
    cases hid

end GraphConfig
end Pushdown
