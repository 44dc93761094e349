import Pushdown.Proofs.Config.Normalization
import Pushdown.Proofs.Graph.Visibility

/-!
# Kinds of yielded elements

What a scan yields is a vertex or an edge by the ends in its document, not by the scan. So the
scans of a kind yield elements of the kind alone exactly if no other element can be stored where
they look. Validation does not see to it: a name may be that of a collection of vertices and of
one of edges, data definition lets elements into every collection, and a scan can read names from
its text that are not those of its collections.

## Results

* `GraphConfig.kind_of_decoded`: the kind of a decoded element;
* `GraphConfig.keepsApart_iff_of_legible`: which configurations keep the kinds apart;
* `Addition.of_document?`: every document is that of an added element;
* `Addition.exists_added`: an element that can be added;
* `Graph.yieldsOnly_iff`: when scans of a kind yield elements of the kind alone;
* `Graph.not_yieldsOnly_of_shared_name`: scans that do not.
-/

namespace Pushdown

variable {raw config : GraphConfig} {kind : ElementKind} {name : String}

namespace GraphConfig

/-- Documents of elements of a kind can be decoded: vertices have no data about properties, so
their labels must not be taken for it. -/
def DecodesKind (config : GraphConfig) : ElementKind → Prop
  | .vertex => config.labelField ≠ metadataField
  | .edge => True

/-- New elements of a kind can be stored in a collection. -/
def Stores (config : GraphConfig) (kind : ElementKind) (name : String) : Prop :=
  name ∈ config.collections kind ∨
    (config.type = .complex ∧ config.dataDefinition = true ∧ IsName name)

/-- Scans of a kind look in a collection, for some ids or for all elements. -/
def LooksIn (config : GraphConfig) (kind : ElementKind) (name : String) : Prop :=
  name ∈ config.collections kind ∨ config.physicalCollection name ∈ config.readCollections kind

/-- Where scans of a kind look, no other element that is decoded can be stored. -/
def KeepsApart (config : GraphConfig) (kind : ElementKind) : Prop :=
  ∀ other name, other ≠ kind → config.DecodesKind other → config.Stores other name →
    ¬ config.LooksIn kind name

theorem isName_of_stores (hvalid : raw.validate = .ok config) (h : config.Stores kind name) :
    IsName name := by
  rcases h with hlisted | ⟨-, -, hname⟩
  · exact (names_of_validate hvalid).2 kind name hlisted
  · exact hname

/-- A legible scan looks in the collections of its kind. -/
theorem looksIn_iff_of_legible (h : Legible config .empty (config.collections kind)) :
    config.LooksIn kind name ↔ name ∈ config.collections kind := by
  rw [LooksIn, readCollections_of_legible h]
  constructor
  · rintro (hlisted | hread)
    · exact hlisted
    · obtain ⟨other, hother, heq⟩ := List.mem_map.mp hread
      rw [← ElementId.physicalName_inj heq]
      exact hother
  · exact .inl

/-- If the scan is legible, the kinds are kept apart exactly if they share no collection and data
definition lets no element into one of the other kind. -/
theorem keepsApart_iff_of_legible (hvalid : raw.validate = .ok config)
    (hlegible : Legible config .empty (config.collections kind)) :
    config.KeepsApart kind ↔
      ∀ other, other ≠ kind → config.DecodesKind other →
        (∀ name ∈ config.collections kind, name ∉ config.collections other) ∧
        (config.type = .complex → config.dataDefinition = true →
          config.collections kind = .empty) := by
  constructor
  · intro h other hother hdecodes
    refine ⟨fun name hname hshared => ?_, fun htype hdefinition => ?_⟩
    · exact h other name hother hdecodes (.inl hshared) (.inl hname)
    · refine Names.eq_empty_iff.mpr fun name hname => ?_
      have hstores : config.Stores other name :=
        .inr ⟨htype, hdefinition, (names_of_validate hvalid).2 kind name hname⟩
      exact h other name hother hdecodes hstores (.inl hname)
  · intro h other name hother hdecodes hstores hlooks
    rw [looksIn_iff_of_legible hlegible] at hlooks
    obtain ⟨hdisjoint, hclosed⟩ := h other hother hdecodes
    rcases hstores with hshared | ⟨htype, hdefinition, -⟩
    · exact hdisjoint name hlooks hshared
    · rw [hclosed htype hdefinition] at hlooks
      exact absurd hlooks (Names.not_mem_empty name)

/-- The identities of elements that can be stored have ids in traversals. -/
theorem nameable_of_stores (hvalid : raw.validate = .ok config) {id : ElementId}
    (hid : Storable config id) (h : config.Stores kind id.collection) :
    Nameable config kind id := by
  rcases h with hlisted | ⟨htype, -, hname⟩
  · exact nameable_of_listed hvalid hid hlisted
  · refine ⟨hid.graph, hid.key, ?_⟩
    rw [htype]
    exact hname

/-- The kind of a decoded element is said by the ends in its document. -/
theorem kind_of_decodeElementRow {fields : Entries Json} {read : Element}
    (h : config.decodeElementRow (.object fields) = .ok read) :
    read.kind =
      if Entries.contains "_from" fields && Entries.contains "_to" fields then .edge
      else .vertex := by
  unfold decodeElementRow at h
  dsimp only at h
  split at h
  · obtain ⟨id, -, h⟩ := Outcome.bind_eq_ok_iff.mp h
    dsimp only at h
    obtain ⟨properties, -, h⟩ := Outcome.bind_eq_ok_iff.mp h
    split at h
    · next hends =>
      obtain ⟨source, -, h⟩ := Outcome.bind_eq_ok_iff.mp h
      obtain ⟨target, -, h⟩ := Outcome.bind_eq_ok_iff.mp h
      cases h
      rw [if_pos hends]
      rfl
    · next hends =>
      obtain ⟨metadata, -, h⟩ := Outcome.bind_eq_ok_iff.mp h
      cases h
      rw [if_neg hends]
      rfl
  · cases h

/-- The kind of a decoded element is that of the element that was written. -/
theorem kind_of_decoded {fields : Entries Json} {element read : Element}
    (h : Records config fields element)
    (hread : config.decodeElementRow (.object fields) = .ok read) : read.kind = element.kind := by
  rw [kind_of_decodeElementRow hread]
  have hends := h.ends
  cases element with
  | vertex v => rw [if_neg (by rw [hends.1]; exact Bool.false_ne_true)]; rfl
  | edge e => rw [if_pos (by rw [hends.1.contains, hends.2.contains]; rfl)]; rfl

end GraphConfig

theorem isName_defaultLabel (kind : ElementKind) : IsName (defaultLabel kind) := by
  cases kind with
  | vertex => exact ⟨by decide, by decide, by decide⟩
  | edge => exact ⟨by decide, by decide, by decide⟩

/-- An id is enough for a new element where elements of its kind can be stored. -/
theorem Graph.newElement_of_stores (hvalid : raw.validate = .ok config) {id : ElementId}
    (hid : Storable config id) (hstores : config.Stores kind id.collection) {text : String}
    (htext : config.encodeId id = some text) :
    Graph.newElement ⟨config⟩ kind none (some text) = .ok (id, defaultLabel kind) := by
  have hcreated : config.createId kind none (some text) = .ok id :=
    (GraphConfig.parseId_eq_ok_iff_nameable hvalid).mpr
      ⟨GraphConfig.nameable_of_stores hvalid hid hstores, htext⟩
  have hallowed :
      ((config.collections kind).contains id.collection || config.dataDefinition) = true := by
    rcases hstores with hlisted | ⟨-, hdefinition, -⟩
    · rw [Names.contains_iff.mpr hlisted, Bool.true_or]
    · rw [hdefinition, Bool.or_true]
  exact Outcome.bind_eq_ok_iff.mpr ⟨id, hcreated, if_pos hallowed⟩

namespace Addition

variable {graph : Graph} {a : Addition} {draft : Draft} {assigned : DocumentMeta} {s s' : Store}
  {read : Element}

theorem kind_element (a : Addition) (draft : Draft) (assigned : DocumentMeta) :
    (a.element draft assigned).kind = a.kind := by
  cases a <;> rfl

/-- Additions lead to stores that calls lead to. -/
theorem reached_of_runAll : ∀ (additions : List Addition) {s : Store}, s.Reached →
    (runAll graph additions s).2.Reached
  | [], _, h => h
  | a :: additions, s, h => by
      have hfirst : (a.run graph s).2.Reached := h.of_calls (calls_run graph a)
      exact reached_of_runAll additions hfirst

/-- What was added is decoded to an element of its kind, and lies where elements of the kind can
be stored. -/
theorem of_decoded (hvalid : raw.validate = .ok config)
    (hadds : Adds ⟨config⟩ a draft assigned s s')
    (hread : config.decodeElementRow (.object (Store.stamped (draft.fields config) assigned)) =
      .ok read) :
    read.kind = a.kind ∧ config.DecodesKind a.kind ∧
      config.Stores a.kind draft.id.collection := by
  have hrecords := GraphWrite.records_of_adds hadds
  have hreadable : (a.element draft assigned).Readable config := by
    by_contra hnot
    obtain ⟨fault, hfault⟩ := GraphConfig.exists_fault hvalid hrecords hnot
    rw [hfault] at hread
    cases hread
  obtain ⟨hid, hends⟩ := hreadable
  refine ⟨(GraphConfig.kind_of_decoded hrecords hread).trans (kind_element a draft assigned),
    ?_, ?_⟩
  · cases a with
    | vertex label id properties => exact hends
    | edge label id source target properties => trivial
  · rw [id_element] at hid
    have hlisted := Graph.listed_of_newElement hvalid (draft_eq_ok hadds.drafted).1
    cases htype : config.type with
    | simple => exact .inl (hlisted (.inl htype))
    | complex =>
        cases hdefinition : config.dataDefinition with
        | false => exact .inl (hlisted (.inr hdefinition))
        | true => exact .inr ⟨htype, hdefinition, hid.collection⟩

/-- After additions to a fresh store, every document but that of the variables is that of an
added element. -/
theorem of_document? {additions : List Addition} {collection key : String} {row : Json}
    (hne : variablesCollection ≠ collection)
    (hrow : (runAll ⟨config⟩ additions (Store.fresh config)).2.document? collection key =
      some row) :
    ∃ a draft assigned before after, Adds ⟨config⟩ a draft assigned before after ∧
      collection = config.physicalCollection draft.id.collection ∧ key = assigned.key ∧
      row = .object (Store.stamped (draft.fields config) assigned) ∧
      (a, .ok (a.element draft assigned)) ∈
        additions.zip (runAll ⟨config⟩ additions (Store.fresh config)).1 := by
  rcases (document?_of_runAll ⟨config⟩ additions _).2 _ _ _ hrow with
    hfresh | ⟨a, element, hmem, hcollection, hkey⟩
  · rw [Store.document?_fresh_of_ne hne] at hfresh
    cases hfresh
  · obtain ⟨draft, assigned, before, after, hadds, rfl, hstored⟩ := stored_of_mem _ _ hmem
    rw [id_element] at hcollection hkey
    obtain rfl : assigned.key = key := Option.some.inj hkey
    obtain rfl : draft.id.physicalCollection = collection := hcollection
    exact ⟨a, draft, assigned, before, after, hadds, hadds.physicalCollection, rfl,
      Option.some.inj (hrow.symm.trans hstored), hmem⟩

section byId

variable {text : String} {own : ElementId}

/-- An element that is added by an id alone. An edge goes from an identity to itself. -/
def byId (kind : ElementKind) (text : String) (own : ElementId) : Addition :=
  match kind with
  | .vertex => .vertex none (some text) []
  | .edge => .edge none (some text) own own []

theorem kind_byId (kind : ElementKind) (text : String) (own : ElementId) :
    (byId kind text own).kind = kind := by
  cases kind <;> rfl

/-- The ends of such an edge are identities that can be stored if its own is. -/
theorem readable_byId (hdecodes : config.DecodesKind kind) (hown : Storable config own)
    (hid : (draft.id.withKey assigned.key) = own) :
    ((byId kind text own).element draft assigned).Readable config := by
  refine ⟨?_, ?_⟩
  · rw [id_element, hid]
    exact hown
  · cases kind with
    | vertex => exact hdecodes
    | edge => exact ⟨hown, hown⟩

theorem exists_draft_byId {key : String} (hkey : own.key = some key)
    (hnew : Graph.newElement ⟨config⟩ kind none (some text) = .ok (own, defaultLabel kind)) :
    ∃ ends, (byId kind text own).draft ⟨config⟩ = .ok ⟨own, defaultLabel kind, [], ends⟩ := by
  have hend : ∃ document, Graph.endpointId own = .ok document := by
    rw [Graph.endpointId, ElementId.documentId?, hkey]
    exact ⟨_, rfl⟩
  obtain ⟨document, hend⟩ := hend
  cases kind with
  | vertex => exact ⟨_, Outcome.bind_eq_ok_iff.mpr ⟨_, hnew, rfl⟩⟩
  | edge =>
      have hends : Graph.endpointFields (some (own, own)) =
          .ok [("_from", .string document), ("_to", .string document)] := by
        rw [Graph.endpointFields, hend]
        rfl
      refine ⟨[("_from", .string document), ("_to", .string document)],
        Outcome.bind_eq_ok_iff.mpr ⟨_, hnew, Outcome.bind_eq_ok_iff.mpr ⟨[], rfl, ?_⟩⟩⟩
      exact Outcome.bind_eq_ok_iff.mpr ⟨_, hends, rfl⟩

/-- A draft whose key is free is stored. -/
theorem exists_run_of_draft {key : String} (hdraft : a.draft ⟨config⟩ = .ok draft)
    (hkey : Entries.find? "_key" (draft.fields config) = some (.string key))
    (hfree : s.document? draft.id.physicalCollection key = none) :
    ∃ s', a.run ⟨config⟩ s =
      (.ok (a.element draft (s.assign draft.id.physicalCollection key)), s') := by
  obtain ⟨s', hinserted⟩ := Store.exists_insert _ hkey hfree
  have hclient : Client.insert draft.id.physicalCollection (.object (draft.fields config)) s =
      (.ok (s.assign draft.id.physicalCollection key), s') := hinserted
  refine ⟨s', ?_⟩
  rw [run_eq, GraphAction.bind_apply, result, hdraft]
  dsimp only
  rw [GraphAction.bind_apply, Graph.insertElement, hclient]
  rfl

/-- The key of a draft is that of its document, also if the label that is stored there is the same
text. -/
theorem find?_key_of_draft (hdraft : a.draft ⟨config⟩ = .ok draft)
    (hkey : draft.id.key = some draft.label) :
    Entries.find? "_key" (draft.fields config) = some (.string draft.label) := by
  rw [Draft.find?_key (classified_of_draft hdraft).unreserved (draft_eq_ok hdraft).2.2, hkey]
  exact ite_self _

/-- Where elements of a kind can be stored, one can be added by an id alone. -/
theorem exists_added (hvalid : raw.validate = .ok config) (hstores : config.Stores kind name)
    (hdecodes : config.DecodesKind kind) :
    ∃ (a : Addition) (element : Element) (s' : Store), a.kind = kind ∧
      a.run ⟨config⟩ (Store.fresh config) = (.ok element, s') ∧ element.id.collection = name ∧
      element.Readable config := by
  -- the key is the label, so that it stays if the label is stored in its field
  let own : ElementId := ⟨config.graph, name, some (defaultLabel kind)⟩
  have hown : Storable config own :=
    ⟨rfl, GraphConfig.isName_of_stores hvalid hstores, _, rfl, isName_defaultLabel kind⟩
  obtain ⟨text, htext⟩ : ∃ text, config.encodeId own = some text :=
    GraphConfig.encodeId_of_key rfl
  obtain ⟨ends, hdraft⟩ := exists_draft_byId rfl
    (Graph.newElement_of_stores hvalid hown hstores htext)
  have hfree : (Store.fresh config).document? own.physicalCollection (defaultLabel kind) = none :=
    Store.document?_fresh name _
  obtain ⟨s', hrun⟩ := exists_run_of_draft hdraft (find?_key_of_draft hdraft rfl) hfree
  refine ⟨_, _, s', kind_byId kind text own, hrun, ?_, readable_byId hdecodes hown rfl⟩
  rw [id_element]
  rfl

end byId

/-- After one addition to a fresh store, every document but that of the variables is that of the
added element. -/
theorem Adds.eq_of_document? (hadds : Adds ⟨config⟩ a draft assigned (Store.fresh config) s')
    {collection key : String} {row : Json} (hne : variablesCollection ≠ collection)
    (hrow : s'.document? collection key = some row) :
    row = .object (Store.stamped (draft.fields config) assigned) := by
  by_cases hplace : collection = draft.id.physicalCollection ∧ key = assigned.key
  · obtain ⟨rfl, rfl⟩ := hplace
    exact Option.some.inj (hrow.symm.trans hadds.writes.stored)
  · rw [Decidable.not_and_iff_not_or_not] at hplace
    rw [hadds.writes.others _ _ hplace, Store.document?_fresh_of_ne hne] at hrow
    cases hrow

end Addition

namespace Graph

/-- Scans of a kind yield elements of the kind alone, whatever is added to the store before. -/
def YieldsOnly (graph : Graph) (kind : ElementKind) (start : Store) : Prop :=
  ∀ (additions : List Addition) (ids : List String) (it : ElementIteration) (read : Element),
    graph.elements kind ids = .ok it →
    .ok read ∈ (it.drain (Addition.runAll graph additions start).2).1 → read.kind = kind

/-- If the kinds are kept apart, what a scan yields was added as an element of its kind. -/
theorem yieldsOnly_of_keepsApart (hvalid : raw.validate = .ok config)
    (h : config.KeepsApart kind) : YieldsOnly ⟨config⟩ kind (Store.fresh config) := by
  intro additions ids it read hit hitem
  have hreached : (Addition.runAll ⟨config⟩ additions (Store.fresh config)).2.Reached :=
    Addition.reached_of_runAll additions (reached_fresh hvalid)
  obtain ⟨collection, key, row, hrow, hread, hplace⟩ :=
    place_of_item hvalid hreached.consistent hit hitem
  have hne : variablesCollection ≠ collection := by
    rcases hplace with ⟨name, -, rfl⟩ | ⟨-, hmem⟩
    · exact config.variablesCollection_ne_physicalCollection name
    · rintro rfl
      exact config.variablesCollection_not_mem_readCollections kind hmem
  obtain ⟨a, draft, assigned, before, after, hadds, rfl, -, rfl, -⟩ :=
    Addition.of_document? hne hrow
  obtain ⟨hkind, hdecodes, hstores⟩ := Addition.of_decoded hvalid hadds hread
  have hlooks : config.LooksIn kind draft.id.collection := by
    rcases hplace with ⟨name, hname, heq⟩ | ⟨-, hmem⟩
    · rw [ElementId.physicalName_inj heq]
      exact .inl hname
    · exact .inr hmem
  rw [hkind]
  by_contra hother
  exact h a.kind _ hother hdecodes hstores hlooks

/-- What is stored where scans of a kind look is yielded by one of them, if everything in the store
is decoded. -/
theorem exists_item_of_looksIn (hvalid : raw.validate = .ok config) {s : Store}
    (hs : s.Consistent) {id : ElementId} {key : String} {row : Json} {read : Element}
    (hid : Storable config id) (hkey : id.key = some key)
    (hlooks : config.LooksIn kind id.collection)
    (hrow : s.document? (config.physicalCollection id.collection) key = some row)
    (hread : config.decodeElementRow row = .ok read)
    (hall : ∀ collection k other, variablesCollection ≠ collection →
      s.document? collection k = some other → ∃ read, config.decodeElementRow other = .ok read) :
    ∃ ids it, Graph.elements ⟨config⟩ kind ids = .ok it ∧ .ok read ∈ (it.drain s).1 := by
  rcases hlooks with hlisted | hmem
  · obtain ⟨text, htext⟩ : ∃ text, config.encodeId id = some text :=
      GraphConfig.encodeId_of_key hkey
    exact ⟨[text], exists_item_of_id hvalid hs.answers hid hlisted htext hkey hrow hread⟩
  · refine ⟨[], exists_item_of_decodes hs ?_ hmem hrow hread⟩
    intro collection hcollection k other hother
    refine hall collection k other ?_ hother
    rintro rfl
    exact config.variablesCollection_not_mem_readCollections kind hcollection

/-- If they are not, one element can be added that a scan of the other kind yields. -/
theorem keepsApart_of_yieldsOnly (hvalid : raw.validate = .ok config)
    (h : YieldsOnly ⟨config⟩ kind (Store.fresh config)) : config.KeepsApart kind := by
  intro other name hother hdecodes hstores hlooks
  obtain ⟨a, element, s', rfl, hrun, rfl, hreadable⟩ :=
    Addition.exists_added hvalid hstores hdecodes
  have hreached : s'.Reached := (reached_fresh hvalid).of_run (a.calls_run ⟨config⟩) hrun
  have hlast : (Addition.runAll ⟨config⟩ [a] (Store.fresh config)).2 = s' := by
    rw [Addition.runAll, hrun]
    rfl
  obtain ⟨draft, assigned, hadds, rfl⟩ := Addition.adds_of_run hrun
  have hrecords := GraphWrite.records_of_adds hadds
  obtain ⟨read, hread, -⟩ := GraphConfig.exists_decoded hvalid hrecords hreadable
  have hkind : read.kind = a.kind :=
    (GraphConfig.kind_of_decoded hrecords hread).trans (Addition.kind_element a draft assigned)
  have hrow := hadds.writes.stored
  rw [hadds.physicalCollection] at hrow
  have hown : Storable config (draft.id.withKey assigned.key) :=
    Addition.id_element a draft assigned ▸ hreadable.1
  rw [Addition.id_element] at hlooks
  have hall : ∀ collection k other, variablesCollection ≠ collection →
      s'.document? collection k = some other →
        ∃ read, config.decodeElementRow other = .ok read := by
    intro collection k other hne hother
    rw [hadds.eq_of_document? hne hother]
    exact ⟨read, hread⟩
  obtain ⟨ids, it, hit, hitem⟩ :=
    exists_item_of_looksIn hvalid hreached.consistent hown rfl hlooks hrow hread hall
  rw [← hlast] at hitem
  exact hother (hkind.symm.trans (h [a] ids it read hit hitem))

/-- A graph is opened over an empty store and elements are added. Scans of a kind, of any ids and
of all elements, yield elements of the kind alone exactly if the configuration keeps the kinds
apart. Where the scan of all elements is legible, it does exactly if the kinds share no collection
and data definition lets no element into one of the other kind. -/
theorem yieldsOnly_iff (hvalid : raw.validate = .ok config) (kind : ElementKind) :
    ∃ start, Graph.opened raw Store.empty = (.ok ⟨config⟩, start) ∧
      (YieldsOnly ⟨config⟩ kind start ↔ config.KeepsApart kind) ∧
      (GraphConfig.Legible config .empty (config.collections kind) →
        (YieldsOnly ⟨config⟩ kind start ↔
          ∀ other, other ≠ kind → config.DecodesKind other →
            (∀ name ∈ config.collections kind, name ∉ config.collections other) ∧
            (config.type = .complex → config.dataDefinition = true →
              config.collections kind = .empty))) := by
  have hiff : YieldsOnly ⟨config⟩ kind (Store.fresh config) ↔ config.KeepsApart kind :=
    ⟨keepsApart_of_yieldsOnly hvalid, yieldsOnly_of_keepsApart hvalid⟩
  refine ⟨_, opened_empty hvalid, hiff, fun hlegible => ?_⟩
  rw [hiff, GraphConfig.keepsApart_iff_of_legible hvalid hlegible]

theorem yieldsOnly_iff_standard :
    YieldsOnly ⟨GraphConfig.standard⟩ .vertex (Store.fresh GraphConfig.standard) := by
  obtain ⟨start, hopened, -, hiff⟩ := yieldsOnly_iff GraphConfig.validate_initial .vertex
  rw [opened_empty GraphConfig.validate_initial] at hopened
  cases hopened
  refine (hiff GraphConfig.legible_standard).mpr fun other hother _ => ⟨?_, nofun⟩
  cases other with
  | vertex => exact absurd rfl hother
  | edge => decide

/-- A simple graph with one name for both of its collections. -/
def sharedName : GraphConfig :=
  { GraphConfig.initial with
    vertices := .single "x", edges := .single "x"
    edgeDefinitions := [⟨"x", .single "x", .single "x"⟩] }

/-- A vertex and an edge from it to itself. -/
def vertexAndLoop : List Addition :=
  [.vertex none (some "a") [],
    .edge none (some "e") ⟨"tinkerpop", "x", some "a"⟩ ⟨"tinkerpop", "x", some "a"⟩ []]

def sharedVertex : Element :=
  .vertex ⟨⟨"tinkerpop", "x", some "a"⟩, "vertex", some "3", [], []⟩

def sharedLoop : Element :=
  .edge ⟨⟨"tinkerpop", "x", some "e"⟩, "edge", some "4", ⟨"tinkerpop", "x", some "a"⟩,
    ⟨"tinkerpop", "x", some "a"⟩, []⟩

/-- The store after both were added. -/
def withVertexAndLoop : Store :=
  (Addition.runAll ⟨sharedName⟩ vertexAndLoop (Store.fresh sharedName)).2

/-- The scans of both kinds yield the vertex and the edge. -/
theorem not_yieldsOnly_of_shared_name :
    (GraphConfig.built [.vertices "x", .edges "x"]).validate = .ok sharedName ∧
      Graph.opened (GraphConfig.built [.vertices "x", .edges "x"]) Store.empty =
        (.ok ⟨sharedName⟩, Store.fresh sharedName) ∧
      Addition.runAll ⟨sharedName⟩ vertexAndLoop (Store.fresh sharedName) =
        ([.ok sharedVertex, .ok sharedLoop], withVertexAndLoop) ∧
      (∀ kind, ∃ it, Graph.elements ⟨sharedName⟩ kind [] = .ok it ∧
        (it.drain withVertexAndLoop).1 = [.ok sharedVertex, .ok sharedLoop]) ∧
      ∀ kind, ¬ YieldsOnly ⟨sharedName⟩ kind (Store.fresh sharedName) := by
  have hvalid : (GraphConfig.built [.vertices "x", .edges "x"]).validate = .ok sharedName := rfl
  have hitems : ∀ kind, ∃ it, Graph.elements ⟨sharedName⟩ kind [] = .ok it ∧
      (it.drain withVertexAndLoop).1 = [.ok sharedVertex, .ok sharedLoop] := by
    intro kind
    cases kind with
    | vertex => exact ⟨_, rfl, rfl⟩
    | edge => exact ⟨_, rfl, rfl⟩
  refine ⟨hvalid, opened_empty hvalid, rfl, hitems, fun kind honly => ?_⟩
  obtain ⟨it, hit, hdrained⟩ := hitems kind
  -- the kind of the scan would be that of the vertex and of the edge
  have hvertex : sharedVertex.kind = kind :=
    honly vertexAndLoop [] it sharedVertex hit (hdrained ▸ List.mem_cons_self)
  have hedge : sharedLoop.kind = kind :=
    honly vertexAndLoop [] it sharedLoop hit
      (hdrained ▸ List.mem_cons_of_mem _ List.mem_cons_self)
  exact absurd (hvertex.trans hedge.symm) (by decide)

end Graph
end Pushdown
