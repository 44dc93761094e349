import Pushdown.Proofs.Graph.ReadBack
import Pushdown.Proofs.Graph.Rewriting

/-!
# Labels and collections of added elements

In a complex graph, a scan is narrowed by the names of collections in place of a test of labels.
Both agree on an element if its label is its collection. An element that is added is stored under
the label that was given, or under the default one: an id alone says its collection, but not its
label.

## Results

* `Graph.opened_empty`: a graph that is opened over an empty store;
* `Addition.document?_of_runAll`: the documents after several additions;
* `narrowsAsTested_iff`: when a narrowed scan is a test of labels;
* `Graph.labelled_iff`: which elements are stored under their collections;
* `Graph.not_labelled_of_id_alone`: one that is not.
-/

namespace Pushdown

variable {raw config : GraphConfig}

theorem ofText?_libraryVersion :
    Version.ofText? libraryVersion = some libraryVersionNumbers := by decide

theorem checkVersion_libraryVersion : checkVersion libraryVersion = .ok () := by
  rw [checkVersion, ofText?_libraryVersion]
  rfl

/-- The store after a graph was opened over an empty one: it holds the variables alone. -/
def Store.fresh (config : GraphConfig) : Store :=
  let assigned : DocumentMeta :=
    ⟨Store.documentId variablesCollection config.graph, config.graph, toString 2⟩
  let document := Store.stamp
    [("_key", .string config.graph), (versionField, .string libraryVersion)] assigned
  ⟨[(variablesCollection, [(config.graph, document)])], [], [], 0, 2⟩

/-- A validated configuration is opened over an empty store. -/
theorem Graph.opened_empty (hvalid : raw.validate = .ok config) :
    Graph.opened raw Store.empty = (.ok ⟨config⟩, Store.fresh config) := by
  rw [Graph.opened, hvalid]
  simp [-bind_pure_comp, Store.fresh, GraphAction.bind_apply, GraphAction.pure_apply, result,
    Graph.initVariables, onStore,
    Client.ensureCollection, Store.ensureCollection, Store.empty, Graph.loadVariables, Client.get,
    Store.document?, Store.documents, Entries.find?, Entries.insert, Graph.createVariables,
    Client.insert, Store.insert, Store.fieldsOf, GraphVariables.toDocument, Store.keyFor,
    Json.asString?, Store.assign, Graph.storeVariables, Client.replace, Store.replace,
    Entries.contains, checkVersion_libraryVersion]

/-- Only the collection of the variables holds a document when a graph is opened. -/
theorem Store.document?_fresh_of_ne {collection : String} (h : variablesCollection ≠ collection)
    (key : String) : (Store.fresh config).document? collection key = none := by
  rw [Store.document?, Store.documents, Store.fresh, Entries.find?, if_neg h]
  rfl

/-- The collection of the variables is none of a graph: its name holds no separator. -/
theorem GraphConfig.variablesCollection_ne_physicalCollection (config : GraphConfig)
    (name : String) : variablesCollection ≠ config.physicalCollection name := by
  intro heq
  have hmem : graphSeparator ∈ (config.physicalCollection name).toList := by
    rw [GraphConfig.physicalCollection, physicalName, toList_join]
    exact List.mem_append_right _ List.mem_cons_self
  rw [← heq] at hmem
  exact absurd hmem (by decide)

/-- No collection of a graph holds a document when it is opened. -/
theorem Store.document?_fresh (name key : String) :
    (Store.fresh config).document? (config.physicalCollection name) key = none :=
  document?_fresh_of_ne (config.variablesCollection_ne_physicalCollection name) key

namespace Addition

/-- Add several elements one after the other; one that fails does not stop those after it. -/
def runAll (graph : Graph) : List Addition → Store → List (Result Element) × Store
  | [], s => ([], s)
  | a :: additions, s =>
      let (outcome, mid) := a.run graph s
      let (outcomes, last) := runAll graph additions mid
      (outcome :: outcomes, last)

variable {graph : Graph} {a : Addition} {additions : List Addition} {draft : Draft}
  {assigned : DocumentMeta} {element : Element} {s s' : Store} {collection key : String}
  {document : Json}

/-- The identity of an added element. -/
theorem id_element (a : Addition) (draft : Draft) (assigned : DocumentMeta) :
    (a.element draft assigned).id = draft.id.withKey assigned.key := by
  cases a <;> rfl

theorem collection_element (a : Addition) (draft : Draft) (assigned : DocumentMeta) :
    (a.element draft assigned).id.collection = draft.id.collection := by
  cases a <;> rfl

theorem revision_element (a : Addition) (draft : Draft) (assigned : DocumentMeta) :
    (a.element draft assigned).revision = some assigned.revision := by
  cases a <;> rfl

/-- What one addition does to the documents: those that were there stay, and a new one is that
of the added element. -/
theorem document?_of_run (graph : Graph) (a : Addition) (s : Store) :
    (∀ collection key document, s.document? collection key = some document →
      (a.run graph s).2.document? collection key = some document) ∧
    ∀ collection key document, (a.run graph s).2.document? collection key = some document →
      s.document? collection key = some document ∨
        ∃ element, (a.run graph s).1 = .ok element ∧
          element.id.physicalCollection = collection ∧ element.id.key = some key := by
  cases hrun : a.run graph s with
  | mk outcome s' =>
    cases outcome with
    | error e =>
        have hsame := document?_of_run_error hrun
        refine ⟨fun c k d hd => ?_, fun c k d hd => .inl ?_⟩
        · rw [hsame c k]
          exact hd
        · rw [← hsame c k]
          exact hd
    | ok element =>
        obtain ⟨draft, assigned, hadds, rfl⟩ := adds_of_run hrun
        refine ⟨fun c k d hd => ?_, fun c k d hd => ?_⟩
        · have hne : c ≠ draft.id.physicalCollection ∨ k ≠ assigned.key := by
            rw [← Decidable.not_and_iff_not_or_not]
            rintro ⟨rfl, rfl⟩
            rw [hadds.free] at hd
            cases hd
          exact (hadds.writes.others c k hne).trans hd
        · by_cases hsame : c = draft.id.physicalCollection ∧ k = assigned.key
          · refine .inr ⟨_, rfl, ?_⟩
            rw [id_element, hsame.1, hsame.2]
            exact ⟨rfl, rfl⟩
          · rw [Decidable.not_and_iff_not_or_not] at hsame
            exact .inl ((hadds.writes.others c k hsame).symm.trans hd)

/-- What several additions do to the documents. -/
theorem document?_of_runAll (graph : Graph) : ∀ (additions : List Addition) (s : Store),
    (∀ collection key document, s.document? collection key = some document →
      (runAll graph additions s).2.document? collection key = some document) ∧
    ∀ collection key document,
      (runAll graph additions s).2.document? collection key = some document →
      s.document? collection key = some document ∨
        ∃ a element, (a, .ok element) ∈ additions.zip (runAll graph additions s).1 ∧
          element.id.physicalCollection = collection ∧ element.id.key = some key
  | [], s => ⟨fun _ _ _ hd => hd, fun _ _ _ hd => .inl hd⟩
  | a :: additions, s => by
      obtain ⟨hkeeps, hnew⟩ := document?_of_run graph a s
      obtain ⟨hkeepsRest, hnewRest⟩ := document?_of_runAll graph additions (a.run graph s).2
      refine ⟨fun c k d hd => hkeepsRest c k d (hkeeps c k d hd), fun c k d hd => ?_⟩
      rcases hnewRest c k d hd with hd | ⟨b, element, hmem, hplace⟩
      · rcases hnew c k d hd with hd | ⟨element, hok, hplace⟩
        · exact .inl hd
        · refine .inr ⟨a, element, ?_, hplace⟩
          rw [← hok]
          exact List.mem_cons_self
      · exact .inr ⟨b, element, List.mem_cons_of_mem _ hmem, hplace⟩

/-- The document of an added element is there after the additions that follow. -/
theorem stored_of_mem : ∀ (additions : List Addition) (s : Store) {a : Addition}
    {element : Element}, (a, .ok element) ∈ additions.zip (runAll graph additions s).1 →
    ∃ draft assigned before after, Adds graph a draft assigned before after ∧
      element = a.element draft assigned ∧
      (runAll graph additions s).2.document? draft.id.physicalCollection assigned.key =
        some (.object (Store.stamped (draft.fields graph.config) assigned))
  | [], _, _, _, h => by cases h
  | first :: additions, s, a, element, h => by
      rcases List.mem_cons.mp h with h | h
      · obtain ⟨rfl, hok⟩ := Prod.mk.inj h
        have hrun : a.run graph s = (.ok element, (a.run graph s).2) := Prod.ext hok.symm rfl
        obtain ⟨draft, assigned, hadds, helement⟩ := adds_of_run hrun
        exact ⟨draft, assigned, s, _, hadds, helement,
          (document?_of_runAll graph additions _).1 _ _ _ hadds.writes.stored⟩
      · exact stored_of_mem additions (first.run graph s).2 h

/-- When the label field of an added element holds its collection: the label was given, or no
id says the collection, or the collection has the default label; and nothing else is written to
the field. -/
def Labels (config : GraphConfig) (a : Addition) (element : Element) : Prop :=
  if config.labelField = "_rev" then element.revision = some element.id.collection
  else config.labelField ≠ "_id" ∧
    (a.kind = .edge → config.labelField ≠ "_from" ∧ config.labelField ≠ "_to") ∧
    (a.label ≠ none ∨ a.id = none ∨ element.id.collection = defaultLabel a.kind)

/-- The label of a draft is its collection, unless the collection is that of an id alone. -/
theorem label_eq_collection_iff (htype : config.type = .complex)
    (h : a.draft ⟨config⟩ = .ok draft) :
    draft.label = draft.id.collection ↔
      a.label ≠ none ∨ a.id = none ∨ draft.id.collection = defaultLabel a.kind := by
  obtain ⟨hcreated, hlabel⟩ := newElement_eq_ok (draft_eq_ok h).1
  obtain ⟨hgiven, hdefault⟩ := GraphConfig.collection_of_createId htype hcreated
  rw [hlabel]
  cases hcase : a.label with
  | some label => simp [hgiven label hcase]
  | none =>
      cases hid : a.id with
      | none => simp [hdefault hcase hid]
      | some text => simp [eq_comm]

/-- The id of a document holds a separator, so it names no collection. -/
theorem documentId?_ne {id : ElementId} {text name : String} (h : id.documentId? = some text)
    (hname : IdPart name) : text ≠ name := by
  rintro rfl
  obtain ⟨key, -, rfl⟩ := Option.map_eq_some_iff.mp h
  refine hname.noKeySeparator ?_
  rw [toList_join]
  exact List.mem_append_right _ List.mem_cons_self

/-- An added element is in a collection of the graph. -/
theorem Adds.physicalCollection (hadds : Adds ⟨config⟩ a draft assigned s s') :
    draft.id.physicalCollection = config.physicalCollection draft.id.collection :=
  ElementId.physicalCollection_of_graph
    (GraphConfig.parts_of_createId (newElement_eq_ok (draft_eq_ok hadds.drafted).1).1).1

/-- The fields of the ends belong to edges. -/
theorem mem_keys_ends_iff (h : a.draft ⟨config⟩ = .ok draft) {field : String} :
    field ∈ Entries.keys draft.ends ↔ a.kind = .edge ∧ (field = "_from" ∨ field = "_to") := by
  rcases endpointFields_eq_ok (draft_eq_ok h).2.2 with
    ⟨hnone, hends⟩ | ⟨source, target, from', to', hsome, -, -, hends⟩
  · cases a with
    | vertex label id properties => simp [hends, Entries.keys, kind]
    | edge label id source target properties => cases hnone
  · cases a with
    | vertex label id properties => cases hsome
    | edge label id source target properties => simp [hends, Entries.keys, kind]

/-- The field of an end holds the id of a document. -/
theorem find?_end (assigned : DocumentMeta) (h : a.draft ⟨config⟩ = .ok draft) {field : String}
    (hfield : field ∈ Entries.keys draft.ends) :
    ∃ id text, ElementId.documentId? id = some text ∧
      Entries.find? field (Store.stamped (draft.fields config) assigned) =
        some (.string text) := by
  rcases endpointFields_eq_ok (draft_eq_ok h).2.2 with
    ⟨-, hends⟩ | ⟨source, target, from', to', -, hfrom, hto, hends⟩
  · rw [hends] at hfield
    cases hfield
  · obtain ⟨hfoundFrom, hfoundTo⟩ :=
      Draft.find?_ends assigned (classified_of_draft h).unreserved hends
    rcases Draft.mem_keys_ends (draft_eq_ok h).2.2 hfield with rfl | rfl
    · exact ⟨source, from', hfrom, hfoundFrom⟩
    · exact ⟨target, to', hto, hfoundTo⟩

/-- The label is in its field, where neither the store nor an end is written over it. As the key
of the document it stays, too. -/
theorem find?_labelField_of_free (hadds : Adds ⟨config⟩ a draft assigned s s')
    (hrev : config.labelField ≠ "_rev") (hid : config.labelField ≠ "_id")
    (hends : config.labelField ∉ Entries.keys draft.ends) :
    Entries.find? config.labelField (Store.stamped (draft.fields config) assigned) =
      some (.string draft.label) := by
  have hfound := Draft.find?_labelField (classified_of_draft hadds.drafted).unreserved hends
  by_cases hkey : config.labelField = "_key"
  · rw [hkey] at hfound ⊢
    have hassigned : assigned.key = draft.label := by
      rw [hadds.key, Store.keyFor, hfound]
      rfl
    rw [Store.find?_key, hassigned]
  · rw [Store.find?_stamped _ _ (by simp [hrev, hid, hkey])]
    exact hfound

/-- The label field of a stored document holds a text, which is the collection exactly if
`Labels` says so. -/
theorem exists_labelField (htype : config.type = .complex)
    (hadds : Adds ⟨config⟩ a draft assigned s s') :
    ∃ text, Entries.find? config.labelField (Store.stamped (draft.fields config) assigned) =
        some (.string text) ∧
      (text = draft.id.collection ↔ a.Labels config (a.element draft assigned)) := by
  have hdraft := hadds.drafted
  have hpart := (GraphConfig.parts_of_createId (newElement_eq_ok (draft_eq_ok hdraft).1).1).2.1
  unfold Labels
  rw [revision_element, id_element]
  by_cases hrev : config.labelField = "_rev"
  · rw [if_pos hrev, hrev]
    exact ⟨assigned.revision, Store.find?_revision _ _, by rw [Option.some.injEq]; rfl⟩
  · rw [if_neg hrev]
    by_cases hid : config.labelField = "_id"
    · have hdocument : (draft.id.withKey assigned.key).documentId? = some assigned.id := by
        rw [hadds.id]
        rfl
      refine ⟨assigned.id, ?_, fun heq => absurd heq (documentId?_ne hdocument hpart),
        fun h => absurd hid h.1⟩
      rw [hid]
      exact Store.find?_id _ _
    · by_cases hends : config.labelField ∈ Entries.keys draft.ends
      · obtain ⟨id, text, hdocument, hfound⟩ := find?_end assigned hdraft hends
        obtain ⟨hedge, hfield⟩ := (mem_keys_ends_iff hdraft).mp hends
        refine ⟨text, hfound, fun heq => absurd heq (documentId?_ne hdocument hpart), ?_⟩
        rintro ⟨-, hfree, -⟩
        exact (hfield.elim (hfree hedge).1 (hfree hedge).2).elim
      · refine ⟨draft.label, find?_labelField_of_free hadds hrev hid hends, ?_⟩
        rw [mem_keys_ends_iff hdraft, not_and, not_or] at hends
        rw [label_eq_collection_iff htype hdraft]
        exact ⟨fun h => ⟨hid, hends, h⟩, fun h => h.2.2⟩

end Addition

/-- A scan that a label predicate narrows to some collections keeps an element exactly if its
label passes the predicate. -/
def NarrowsAsTested (config : GraphConfig) (collections : List String) (element : Element) : Prop :=
  ∀ predicate narrowed, GraphConfig.narrow predicate collections = .ok narrowed →
    (element.id.collection ∈ narrowed ↔ Graph.Passes config ⟨.label, predicate⟩ element)

theorem test_eq_string (operand value : String) :
    (Predicate.of .eq (.string operand)).test (some (.string value)) = .ok (value == operand) := rfl

/-- Equality with a name narrows any collections. -/
theorem exists_narrowed (name : String) : ∀ collections : List String,
    ∃ narrowed, GraphConfig.narrow (.of .eq (.string name)) collections = .ok narrowed
  | [] => ⟨[], rfl⟩
  | collection :: collections => by
      obtain ⟨narrowed, hnarrowed⟩ := exists_narrowed name collections
      rw [GraphConfig.narrow, hnarrowed, test_eq_string]
      exact ⟨_, rfl⟩

/-- Narrowing is as good as testing exactly if the label is the collection. -/
theorem narrowsAsTested_iff {collections : List String} {element : Element}
    (hmem : element.id.collection ∈ collections) :
    NarrowsAsTested config collections element ↔ element.label = element.id.collection := by
  constructor
  · intro h
    obtain ⟨narrowed, hnarrowed⟩ := exists_narrowed element.id.collection collections
    have hcollection : element.id.collection ∈ narrowed :=
      (mem_narrow_iff _ hnarrowed).mpr ⟨hmem, by rw [test_eq_string, beq_self_eq_true]⟩
    have hpasses := (h _ _ hnarrowed).mp hcollection
    rw [Graph.Passes, GraphConfig.testContainer, test_eq_string, Except.ok.injEq] at hpasses
    exact eq_of_beq hpasses
  · intro hlabel predicate narrowed hnarrowed
    rw [mem_narrow_iff _ hnarrowed, Graph.Passes, GraphConfig.testContainer, hlabel]
    exact and_iff_right hmem

namespace Addition

variable {a : Addition} {draft : Draft} {assigned : DocumentMeta} {s s' : Store}

/-- What is read from the document of an added element has its collection and the text of the
label field as its label. -/
theorem label_of_decoded (hvalid : raw.validate = .ok config)
    (hadds : Adds ⟨config⟩ a draft assigned s s') {text : String}
    (htext : Entries.find? config.labelField (Store.stamped (draft.fields config) assigned) =
      some (.string text)) {read : Element}
    (hread : config.decodeElementRow (.object (Store.stamped (draft.fields config) assigned)) =
      .ok read) : read.id = draft.id.withKey assigned.key ∧ read.label = text := by
  obtain ⟨⟨document, hdocument, hparse⟩, hlabel⟩ := GraphConfig.of_decodeElementRow hread
  rw [Store.find?_id, Option.some.injEq, Json.string.injEq] at hdocument
  have hid : (draft.id.withKey assigned.key).documentId? = some document := by
    rw [← hdocument, hadds.id]
    rfl
  rw [GraphConfig.decodeLabel, htext] at hlabel
  exact ⟨GraphConfig.eq_of_parseDocumentId hvalid hparse hid, hlabel⟩

end Addition

namespace Graph

/-- After any additions to a complex graph that was opened over an empty store, its collections
hold the documents of the added elements and no others. In each of them the label field holds a
text. The text is the collection, and narrowing by collections is a test of the label, exactly
if `Addition.Labels` says so. -/
theorem labelled_iff (hvalid : raw.validate = .ok config) (htype : config.type = .complex)
    (additions : List Addition) :
    ∃ start outcomes last, Graph.opened raw Store.empty = (.ok ⟨config⟩, start) ∧
      Addition.runAll ⟨config⟩ additions start = (outcomes, last) ∧
      (∀ name key document, last.document? (config.physicalCollection name) key = some document →
        ∃ a element, (a, .ok element) ∈ additions.zip outcomes ∧
          element.id.collection = name ∧ element.id.key = some key) ∧
      ∀ a element, (a, .ok element) ∈ additions.zip outcomes →
        ∃ key fields text, element.id.key = some key ∧
          last.document? (config.physicalCollection element.id.collection) key =
            some (.object fields) ∧
          Entries.find? config.labelField fields = some (.string text) ∧
          (text = element.id.collection ↔ a.Labels config element) ∧
          ∀ read collections, config.decodeElementRow (.object fields) = .ok read →
            element.id.collection ∈ collections →
            (NarrowsAsTested config collections read ↔ a.Labels config element) := by
  refine ⟨_, _, _, opened_empty hvalid, rfl, ?_, ?_⟩
  · intro name key document hdocument
    rcases (Addition.document?_of_runAll ⟨config⟩ additions _).2 _ _ _ hdocument with
      hdocument | ⟨a, element, hmem, hcollection, hkey⟩
    · rw [Store.document?_fresh] at hdocument
      cases hdocument
    · refine ⟨a, element, hmem, ?_, hkey⟩
      obtain ⟨draft, assigned, before, after, hadds, rfl, -⟩ := Addition.stored_of_mem _ _ hmem
      rw [Addition.id_element] at hcollection ⊢
      exact ElementId.physicalName_inj (hadds.physicalCollection.symm.trans hcollection)
  · intro a element hmem
    obtain ⟨draft, assigned, before, after, hadds, rfl, hstored⟩ := Addition.stored_of_mem _ _ hmem
    obtain ⟨text, htext, hlabels⟩ := Addition.exists_labelField htype hadds
    rw [Addition.id_element]
    rw [hadds.physicalCollection] at hstored
    refine ⟨assigned.key, _, text, rfl, hstored, htext, hlabels, ?_⟩
    intro read collections hread hcollection
    obtain ⟨hid, hlabel⟩ := Addition.label_of_decoded hvalid hadds htext hread
    rw [← hid] at hcollection
    rw [narrowsAsTested_iff hcollection, hlabel, hid]
    exact hlabels

/-- Alice, added with her label. -/
def labelledAlice : Element :=
  .vertex ⟨⟨"kennel", "person", some "alice"⟩, "person", some "3", [], []⟩

/-- Rex, added by an id alone. -/
def unlabelledRex : Element :=
  .vertex ⟨⟨"kennel", "dog", some "rex"⟩, "vertex", some "4", [], []⟩

/-- Alice is added with her label, Rex by an id alone. -/
def aliceAndRex : List Addition :=
  [.vertex (some "person") (some "person/alice") [], .vertex none (some "dog/rex") []]

/-- The store after both were added. -/
def withAliceAndRex : Store :=
  (Addition.runAll ⟨GraphConfig.kennel⟩ aliceAndRex (Store.fresh GraphConfig.kennel)).2

theorem runAll_aliceAndRex :
    Addition.runAll ⟨GraphConfig.kennel⟩ aliceAndRex (Store.fresh GraphConfig.kennel) =
      ([.ok labelledAlice, .ok unlabelledRex], withAliceAndRex) :=
  Prod.ext rfl rfl

theorem labelled_iff_alice :
    ∃ fields, withAliceAndRex.document? "kennel_person" "alice" = some (.object fields) ∧
      Entries.find? "_label" fields = some (.string "person") := by
  obtain ⟨start, outcomes, last, hopened, hrun, -, hadded⟩ :=
    labelled_iff GraphConfig.validate_kennel rfl aliceAndRex
  rw [opened_empty GraphConfig.validate_kennel] at hopened
  cases hopened
  rw [runAll_aliceAndRex] at hrun
  cases hrun
  obtain ⟨key, fields, text, hkey, hstored, htext, hlabels, -⟩ :=
    hadded _ labelledAlice List.mem_cons_self
  obtain rfl : "alice" = key := Option.some.inj hkey
  have hlabel : text = "person" :=
    hlabels.mpr ⟨by decide, by decide, .inl (Option.some_ne_none _)⟩
  rw [hlabel] at htext
  exact ⟨fields, hstored, htext⟩

/-- Rex is stored among the dogs under the label of vertices without a label. A scan narrowed to
dogs finds him, a test of labels does not. -/
theorem not_labelled_of_id_alone :
    Graph.opened GraphConfig.kennel Store.empty =
        (.ok ⟨GraphConfig.kennel⟩, Store.fresh GraphConfig.kennel) ∧
      Addition.runAll ⟨GraphConfig.kennel⟩ aliceAndRex (Store.fresh GraphConfig.kennel) =
        ([.ok labelledAlice, .ok unlabelledRex], withAliceAndRex) ∧
      unlabelledRex.id.collection = "dog" ∧
      ∃ fields, withAliceAndRex.document? "kennel_dog" "rex" = some (.object fields) ∧
        Entries.find? "_label" fields = some (.string "vertex") ∧
        GraphConfig.kennel.decodeElementRow (.object fields) = .ok unlabelledRex ∧
        ¬ NarrowsAsTested GraphConfig.kennel (GraphConfig.kennel.collections .vertex)
          unlabelledRex := by
  refine ⟨opened_empty GraphConfig.validate_kennel, runAll_aliceAndRex, rfl,
    [("_id", .string "kennel_dog/rex"), ("_key", .string "rex"), ("_label", .string "vertex"),
      ("_rev", .string "4")], rfl, rfl, rfl, ?_⟩
  rw [narrowsAsTested_iff (by decide)]
  decide

end Graph
end Pushdown
