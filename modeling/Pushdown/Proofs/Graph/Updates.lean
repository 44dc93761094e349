import Pushdown.Proofs.Graph.Visibility

/-!
# Reading updated elements back

An element that a scan yielded is written back with another label and other properties, and read
again by its id. What is read is what the update answered, with integers in the narrowest width,
except for two things. The document that replaces the old one holds no data about properties,
though the answer still shows them. And properties are not classified again, so that a double
without a number is stored as null.

## Results

* `ElementIteration.exists_decoded_of_item`: what an iteration yields was decoded;
* `Value.exists_finite`: properties whose doubles are finite, with the same document;
* `GraphWrite.decoded_of_update`: what is read from the document of an updated element;
* `Graph.reads_update_iff`: when an updated element is read back by its id;
* `Graph.not_reads_update_of_metadata`: data about properties that are lost.
-/

namespace Pushdown

namespace ElementIteration

variable {accept : Json → Result (Option Element)} {element : Element}

/-- Every element that rows give is that of an accepted row. -/
theorem exists_of_mem_itemsOf : ∀ {rows : List StoreRow}, .ok element ∈ itemsOf accept rows →
    ∃ row, accept row = .ok (some element)
  | .error e :: _, h => by cases List.mem_singleton.mp h
  | .ok row :: rows, h => by
      rw [itemsOf] at h
      cases hrow : accept row with
      | error e =>
          rw [hrow] at h
          cases List.mem_singleton.mp h
      | ok found =>
          rw [hrow] at h
          cases found with
          | none => exact exists_of_mem_itemsOf h
          | some first =>
              rcases List.mem_cons.mp h with heq | h
              · cases heq
                exact ⟨row, hrow⟩
              · exact exists_of_mem_itemsOf h

/-- Every element that a scan yields was decoded from a row. -/
theorem exists_decoded_of_item {σ : Type} [Client σ] {graph : Graph} {scan : Scan}
    {it : ElementIteration} {s : σ} (hscan : graph.scan scan = .ok it)
    (hitem : .ok element ∈ (it.drain s).1) :
    ∃ row, graph.config.decodeElementRow row = .ok element := by
  unfold Graph.scan at hscan
  split at hscan
  · cases hscan
    rw [drain_of_done rfl] at hitem
    cases hitem
  · obtain ⟨plan, -, rfl⟩ := Outcome.map_eq_ok_iff.mp hscan
    cases hquery : Client.query plan.query s with
    | mk outcome s' =>
      cases outcome with
      | error fault =>
          rw [drain_of_query_error rfl hquery] at hitem
          cases List.mem_singleton.mp hitem
      | ok rows =>
          rw [drain_eq rfl hquery] at hitem
          obtain ⟨row, hrow⟩ := exists_of_mem_itemsOf hitem
          exact ⟨row, (Graph.accept_eq_some_iff.mp hrow).1⟩

end ElementIteration

namespace Element

/-- An element with another label and other properties. -/
def edited (label : String) (properties : Entries Value) : Element → Element
  | vertex v => vertex { v with label := label, properties := properties }
  | edge e => edge { e with label := label, properties := properties }

/-- An element with other properties and without data about them. -/
def bare (properties : Entries Value) : Element → Element
  | vertex v => vertex { v with properties := properties, metadata := [] }
  | edge e => edge { e with properties := properties }

/-- An element whose properties have narrow integers. -/
def narrowed : Element → Element
  | vertex v => vertex { v with properties := Value.narrowedEntries v.properties }
  | edge e => edge { e with properties := Value.narrowedEntries e.properties }

/-- What an edit, an update and a reading leave as it was. -/
theorem kept_bare (element : Element) (label revision : String)
    (properties narrow : Entries Value) :
    let read := ((element.edited label properties).withRevision revision).bare narrow
    read.kind = element.kind ∧ read.id = element.id ∧ read.label = label ∧
      read.revision = some revision ∧ read.ends = element.ends := by
  cases element <;> exact ⟨rfl, rfl, rfl, rfl, rfl⟩

theorem bare_eq_narrowed_iff {properties : Entries Value} {element : Element} :
    element.bare properties = element.narrowed ↔
      element.metadata = [] ∧ properties = Value.narrowedEntries element.properties := by
  cases element with
  | vertex v => simp [bare, narrowed, metadata, Element.properties, and_comm, eq_comm]
  | edge e => simp [bare, narrowed, metadata, Element.properties]

end Element

/-- Properties have the document of properties whose doubles are finite. Narrowed, these are the
same exactly if all doubles were finite. -/
theorem Value.exists_finite {config : GraphConfig} {properties : Entries Value}
    (hascending : Entries.Ascending properties) (hunreserved : Unreserved config properties) :
    ∃ finite, Classified config finite ∧ toJsonFields finite = toJsonFields properties ∧
      (narrowedEntries finite = narrowedEntries properties ↔ AllFiniteEntries properties) := by
  obtain ⟨finite, hfinite, hjson⟩ := exists_allFiniteEntries properties
  have hkeys : Entries.keys finite = Entries.keys properties := by
    rw [← keys_toJsonFields, hjson, keys_toJsonFields]
  refine ⟨finite, ⟨?_, ?_, hfinite⟩, hjson, fun heq => ?_, fun hall => ?_⟩
  · rw [Entries.Ascending, hkeys]
    exact hascending
  · rw [hkeys]
    exact hunreserved
  · refine allFiniteEntries_of_narrowed ?_
    rw [← heq]
    exact allFiniteEntries_narrowedEntries hfinite
  · have hread := ofJsonFields?_toJsonFields hfinite
    rw [hjson, ofJsonFields?_toJsonFields hall] at hread
    exact (Except.ok.inj hread).symm

namespace GraphConfig

variable {raw config : GraphConfig} {row : Json} {read : Element}

theorem exists_fields_of_decoded (h : config.decodeElementRow row = .ok read) :
    ∃ fields, row = .object fields := by
  cases row with
  | object fields => exact ⟨fields, rfl⟩
  | null | bool | int | double | string | array => cases h

/-- The identity of a decoded element can be stored. -/
theorem storable_of_decoded (hvalid : raw.validate = .ok config)
    (h : config.decodeElementRow row = .ok read) : Storable config read.id := by
  obtain ⟨fields, rfl⟩ := exists_fields_of_decoded h
  obtain ⟨⟨text, -, hparse⟩, -⟩ := of_decodeElementRow h
  exact ((parseDocumentId_eq_ok_iff hvalid).mp hparse).1

/-- The ends of a decoded element are read. -/
theorem reads_of_decoded (h : config.decodeElementRow row = .ok read) :
    ∀ source target, read.ends = some (source, target) →
      config.Reads source ∧ config.Reads target := by
  intro source target hends
  obtain ⟨fields, rfl⟩ := exists_fields_of_decoded h
  cases read with
  | vertex v => cases hends
  | edge e =>
      cases hends
      obtain ⟨⟨from', -, hfrom⟩, to', -, hto⟩ := ends_of_decodeElementRow h
      obtain ⟨-, -, hsource, -⟩ := keyedIn_of_parseDocumentId hfrom
      obtain ⟨-, -, htarget, -⟩ := keyedIn_of_parseDocumentId hto
      exact ⟨⟨from', _, hsource, hfrom⟩, to', _, htarget, hto⟩

end GraphConfig

namespace GraphWrite

variable {raw config : GraphConfig} {s s' : Store} {element updated : Element}

/-- What is read from the document of an updated element: the element of the answer, with the
properties of the document and without data about them. -/
theorem decoded_of_update (hvalid : raw.validate = .ok config)
    (hlabel : config.labelField ∉ reservedFields) (hid : Storable config element.id)
    (hread : ∀ source target, element.ends = some (source, target) →
      config.Reads source ∧ config.Reads target)
    (hascending : Entries.Ascending element.properties)
    (h : Graph.updateElement ⟨config⟩ element s = (.ok updated, s')) :
    ∃ key row properties revision, element.id.key = some key ∧
      s'.document? element.id.physicalCollection key = some row ∧
      updated = element.withRevision revision ∧
      config.decodeElementRow row = .ok (updated.bare properties) ∧
      (properties = Value.narrowedEntries element.properties ↔
        Value.AllFiniteEntries element.properties) := by
  obtain ⟨key, endpoints, assigned, hkey, hunreserved, hends, hassigned, hupdated, hwrites⟩ :=
    stored_of_updateElement h
  obtain ⟨finite, hclassified, hjson, hfinite⟩ := Value.exists_finite hascending hunreserved
  let draft : Draft := ⟨element.id, element.label, finite, endpoints⟩
  have hfields : Draft.fields config
      ⟨element.id, element.label, element.properties, endpoints⟩ = draft.fields config := by
    rw [Draft.fields, Draft.fields, hjson]
  rw [hfields] at hwrites
  have hdocument : element.id.documentId? = some assigned.id := by
    rw [hassigned, ElementId.documentId?, hkey]
    rfl
  have hown : (updated.bare (Value.narrowedEntries finite)).id = element.id := by
    rw [hupdated]
    cases element <;> rfl
  have hdecoded : config.decodeId (Store.stamped (draft.fields config) assigned) "_id" =
      .ok (updated.bare (Value.narrowedEntries finite)).id := by
    rw [hown]
    exact GraphConfig.decodeId_eq (Store.find?_id _ _)
      ((GraphConfig.parseDocumentId_eq_ok_iff hvalid).mpr ⟨hid, hdocument⟩)
  have hdescribes : GraphConfig.Describes config (Store.stamped (draft.fields config) assigned)
      (updated.bare (Value.narrowedEntries finite)) := by
    rw [hupdated] at hdecoded ⊢
    exact Draft.describes_stamped assigned hvalid hclassified hends hlabel hread hdecoded
      (by cases element <;> rfl) (by cases element <;> rfl) (by cases element <;> rfl)
      (by cases element <;> rfl) (by cases element <;> rfl)
  exact ⟨key, _, _, _, hkey, hwrites.stored, hupdated,
    GraphConfig.decodeElementRow_of_describes hdescribes, hfinite⟩

end GraphWrite

namespace Graph

variable {raw config : GraphConfig}

/-- An element that a scan yielded is written back with any label and properties. Then its
document is decoded to an element of its kind, with its identity, label, revision and ends. This
is the element that the update answered, with narrow integers, exactly if it has no data about
properties and all doubles are finite. A scan of its id yields it, and nothing else, for every kind
among whose collections its own is. -/
theorem reads_update_iff (hvalid : raw.validate = .ok config)
    (hlabel : config.labelField ∉ reservedFields) {σ : Type} [Client σ] {scan : Scan}
    {it : ElementIteration} {start : σ} {seen : Element}
    (hscan : Graph.scan ⟨config⟩ scan = .ok it) (hseen : .ok seen ∈ (it.drain start).1)
    (label : String) {properties : Entries Value} (hascending : Entries.Ascending properties)
    {s s' : Store} (hs : s.Reached) {updated : Element}
    (hupdated : Graph.updateElement ⟨config⟩ (seen.edited label properties) s =
      (.ok updated, s')) :
    ∃ key row read revision, updated = (seen.edited label properties).withRevision revision ∧
      seen.id.key = some key ∧ s'.document? seen.id.physicalCollection key = some row ∧
      config.decodeElementRow row = .ok read ∧ read.kind = seen.kind ∧ read.id = seen.id ∧
      read.label = label ∧ read.revision = some revision ∧ read.ends = seen.ends ∧
      (read = updated.narrowed ↔ seen.metadata = [] ∧ Value.AllFiniteEntries properties) ∧
      ∀ kind, seen.id.collection ∈ config.collections kind →
        ∃ text reading, config.encodeId seen.id = some text ∧
          Graph.elements ⟨config⟩ kind [text] = .ok reading ∧
          (reading.drain s').1 = [.ok read] := by
  obtain ⟨given, hgiven⟩ := ElementIteration.exists_decoded_of_item hscan hseen
  have hstorable : Storable config seen.id := GraphConfig.storable_of_decoded hvalid hgiven
  have hid : (seen.edited label properties).id = seen.id := by cases seen <;> rfl
  have hends : (seen.edited label properties).ends = seen.ends := by cases seen <;> rfl
  have hproperties : (seen.edited label properties).properties = properties := by
    cases seen <;> rfl
  have hreached : s'.Reached := hs.of_run (calls_updateElement ⟨config⟩ _) hupdated
  obtain ⟨key, row, narrow, revision, hkey, hrow, hanswer, hdecoded, hfinite⟩ :=
    GraphWrite.decoded_of_update hvalid hlabel (hid ▸ hstorable)
      (by rw [hends]; exact GraphConfig.reads_of_decoded hgiven)
      (by rw [hproperties]; exact hascending) hupdated
  rw [hid] at hkey hrow
  rw [hproperties] at hfinite
  have hmetadata : updated.metadata = seen.metadata := by
    rw [hanswer]
    cases seen <;> rfl
  have hwritten : updated.properties = properties := by
    rw [hanswer]
    cases seen <;> rfl
  obtain ⟨hkind, hsame, hgivenLabel, hrevision, hkept⟩ :=
    seen.kept_bare label revision properties narrow
  rw [← hanswer] at hkind hsame hgivenLabel hrevision hkept
  refine ⟨key, row, updated.bare narrow, revision, hanswer, hkey, hrow, hdecoded, hkind, hsame,
    hgivenLabel, hrevision, hkept, ?_, fun kind hlisted => ?_⟩
  · rw [Element.bare_eq_narrowed_iff, hmetadata, hwritten, hfinite]
  · obtain ⟨text, htext⟩ : ∃ text, config.encodeId seen.id = some text :=
      GraphConfig.encodeId_of_key hkey
    rw [ElementId.physicalCollection_of_graph hstorable.graph] at hrow
    obtain ⟨reading, hreading, hitems⟩ := exists_drained_of_id hvalid hreached.consistent.answers
      hstorable hlisted htext hkey hrow hdecoded
    exact ⟨text, reading, htext, hreading, hitems⟩

/-- The store after Alice was added. -/
def withAlice : Store :=
  (addedAlice.run ⟨GraphConfig.standard⟩ (Store.fresh GraphConfig.standard)).2

theorem reached_withAlice : withAlice.Reached :=
  (reached_fresh GraphConfig.validate_initial).of_calls (addedAlice.calls_run _)

/-- Alice, as a scan yields her. -/
def scannedAlice : Element :=
  .vertex ⟨⟨"tinkerpop", "vertex", some "alice"⟩, "person", some "3", [], []⟩

/-- Alice with another label, and an age in 64 bits. -/
def editedAlice : Element := scannedAlice.edited "woman" [("age", .int64 36)]

/-- Alice is scanned and written back with another label and an age, and read with both. -/
theorem reads_update_iff_alice :
    ∃ updated last reading read,
      Graph.updateElement ⟨GraphConfig.standard⟩ editedAlice withAlice = (.ok updated, last) ∧
      Graph.elements ⟨GraphConfig.standard⟩ .vertex ["alice"] = .ok reading ∧
      (reading.drain last).1 = [.ok read] ∧ read = updated.narrowed ∧ read.label = "woman" ∧
      read.properties = [("age", .int32 36)] := by
  have hscan : Graph.scan ⟨GraphConfig.standard⟩ (GraphConfig.standard.startScan .vertex [] []) =
      .ok (Graph.iteration ⟨GraphConfig.standard⟩ []
        ⟨"FOR x IN `tinkerpop_vertex` RETURN x", []⟩) := rfl
  have hseen : .ok scannedAlice ∈ ((Graph.iteration ⟨GraphConfig.standard⟩ []
      ⟨"FOR x IN `tinkerpop_vertex` RETURN x", []⟩).drain withAlice).1 :=
    List.mem_singleton.mpr rfl
  have hupdated : Graph.updateElement ⟨GraphConfig.standard⟩ editedAlice withAlice =
      (.ok (editedAlice.withRevision "4"),
        (Graph.updateElement ⟨GraphConfig.standard⟩ editedAlice withAlice).2) := rfl
  have hascending : Entries.Ascending [("age", Value.int64 36)] := List.pairwise_singleton _ _
  obtain ⟨key, row, read, revision, -, -, -, -, -, -, hlabel, -, -, hiff, hreading⟩ :=
    reads_update_iff GraphConfig.validate_initial (by decide) hscan hseen "woman" hascending
      reached_withAlice hupdated
  obtain ⟨text, reading, htext, helements, hitems⟩ := hreading .vertex List.mem_cons_self
  obtain rfl : "alice" = text := Option.some.inj htext
  have hread : read = (editedAlice.withRevision "4").narrowed := hiff.mpr ⟨rfl, trivial, trivial⟩
  refine ⟨_, _, reading, read, hupdated, helements, hitems, hread, hlabel, ?_⟩
  rw [hread]
  rfl

/-- A store with data about the name of Alice. -/
def annotated : Store :=
  (Store.insert "tinkerpop_vertex" (.object [("_key", .string "alice"),
    ("_label", .string "person"),
    ("_meta", .object [("name", .object [("since", .int 2019)])]), ("name", .string "Alice")])
    (Store.fresh GraphConfig.standard)).2

/-- Alice is scanned with data about her name and written back as she is. The answer has these
data, but she is read without them. -/
theorem not_reads_update_of_metadata :
    ∃ it seen updated last reading read,
      Graph.scan ⟨GraphConfig.standard⟩ (GraphConfig.standard.startScan .vertex [] []) = .ok it ∧
      (it.drain annotated).1 = [.ok seen] ∧
      Graph.updateElement ⟨GraphConfig.standard⟩ seen annotated = (.ok updated, last) ∧
      updated.metadata = [("name", [("since", .int32 2019)])] ∧
      Graph.elements ⟨GraphConfig.standard⟩ .vertex ["alice"] = .ok reading ∧
      (reading.drain last).1 = [.ok read] ∧ read.id = updated.id ∧ read.metadata = [] :=
  ⟨_, .vertex ⟨⟨"tinkerpop", "vertex", some "alice"⟩, "person", some "3",
      [("name", .string "Alice")], [("name", [("since", .int32 2019)])]⟩, _, _, _, _,
    rfl, rfl, rfl, rfl, rfl, rfl, rfl, rfl⟩

end Graph
end Pushdown
