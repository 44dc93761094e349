import Pushdown.Proofs.Graph.Reopening
import Pushdown.Proofs.Graph.Writes

/-!
# Fields of the document of an element

A document is written field by field: the key, the label, the ends of an edge and the properties,
and in the end what the store assigns. Properties have no reserved names, so none of them is in
the place of another field. The label is under the name that the configuration gives, which may
be that of another field, and then one of the two texts is lost, unless they are the same.

## Results

* `Draft.exists_labelField`: what is found where the label is written;
* `Draft.holds_iff`, `Draft.holds_stamped_iff`: when a document holds all that was written to it,
  before it is stored and after;
* `Graph.document_holds_iff`: the same of the document of an element that is inserted;
* `Graph.not_document_holds_of_key`: a label in the place of the key.
-/

namespace Pushdown

namespace GraphConfig

/-- A document holds the key, the label, the ends and the properties of an element, each in its
field. -/
structure Holds (config : GraphConfig) (id : ElementId) (label : String)
    (properties : Entries Value) (ends : Option (ElementId × ElementId))
    (fields : Entries Json) : Prop where
  key : Entries.find? "_key" fields = id.key.map Json.string
  label : Entries.find? config.labelField fields = some (.string label)
  ends : ∀ source target, ends = some (source, target) →
    Refers fields "_from" source ∧ Refers fields "_to" target
  properties : ∀ name value, Entries.find? name properties = some value →
    Entries.find? name fields = some value.toJson

/-- Of some other fields, none is the label field, or it holds the label as well. -/
def Spares (config : GraphConfig) (label : String) (others : List (String × Json)) : Prop :=
  ∀ json, (config.labelField, json) ∈ others → json = .string label

/-- The fields that are written for an element beside its label and properties. -/
def otherFields (id : ElementId) (endpoints : List (String × Json)) : List (String × Json) :=
  Graph.keyFields id ++ endpoints

/-- The fields that the store writes, the key apart. -/
def assignedFields (assigned : DocumentMeta) : List (String × Json) :=
  [("_rev", .string assigned.revision), ("_id", .string assigned.id)]

variable {config : GraphConfig} {label : String} {others : List (String × Json)}

/-- A label field that is not reserved is none of the other fields. -/
theorem spares_of_not_reserved (h : config.labelField ∉ reservedFields)
    (hothers : ∀ field ∈ others, field.1 ∈ reservedFields) : config.Spares label others :=
  fun _ hmem => absurd (hothers _ hmem) h

/-- Fields of a document that all hold what was written to them hold the label, where one of them
is the label field. -/
theorem spares_of_find? {fields : Entries Json}
    (hlabel : Entries.find? config.labelField fields = some (.string label))
    (hothers : ∀ field ∈ others, Entries.find? field.1 fields = some field.2) :
    config.Spares label others := by
  intro json hmem
  exact Option.some.inj ((hothers _ hmem).symm.trans hlabel)

end GraphConfig

/-- The ends of an element that have keys are written to its document. -/
theorem Graph.exists_endpointFields {ends : Option (ElementId × ElementId)}
    (h : ∀ source target, ends = some (source, target) →
      source.key ≠ none ∧ target.key ≠ none) :
    ∃ endpoints, Graph.endpointFields ends = .ok endpoints := by
  cases ends with
  | none => exact ⟨[], rfl⟩
  | some pair =>
      obtain ⟨⟨_, _, from'⟩, ⟨_, _, to'⟩⟩ := pair
      obtain ⟨hfrom, hto⟩ := h _ _ rfl
      obtain ⟨from', rfl⟩ := Option.ne_none_iff_exists'.mp hfrom
      obtain ⟨to', rfl⟩ := Option.ne_none_iff_exists'.mp hto
      exact ⟨_, rfl⟩

namespace Draft

variable {config : GraphConfig} {draft : Draft} {ends : Option (ElementId × ElementId)}
  {assigned : DocumentMeta}

/-- The document of a draft holds the fields of its ends. -/
theorem find?_of_mem_ends (h : Unreserved config draft.properties)
    (hends : Graph.endpointFields ends = .ok draft.ends) {field : String × Json}
    (hmem : field ∈ draft.ends) :
    Entries.find? field.1 (draft.fields config) = some field.2 := by
  rcases endpointFields_eq_ok hends with ⟨-, hnone⟩ | ⟨_, _, from', to', -, -, -, hsome⟩
  · rw [hnone] at hmem
    cases hmem
  · -- what the store assigns is in none of these fields
    have hstamped := find?_ends ⟨"", "", ""⟩ h hsome
    rw [Store.find?_stamped _ _ (by decide), Store.find?_stamped _ _ (by decide)] at hstamped
    rw [hsome, List.mem_cons, List.mem_singleton] at hmem
    rcases hmem with rfl | rfl
    · exact hstamped.1
    · exact hstamped.2

/-- The document of a draft refers to its ends. -/
theorem refers_ends (h : Unreserved config draft.properties)
    (hends : Graph.endpointFields ends = .ok draft.ends) {source target : ElementId}
    (hsome : ends = some (source, target)) :
    GraphConfig.Refers (draft.fields config) "_from" source ∧
      GraphConfig.Refers (draft.fields config) "_to" target := by
  have hfind : ∀ field ∈ draft.ends, Entries.find? field.1 (draft.fields config) = some field.2 :=
    fun _ hmem => find?_of_mem_ends h hends hmem
  rcases endpointFields_eq_ok hends with
    ⟨hnone, -⟩ | ⟨source', target', from', to', hboth, hfrom, hto, hfields⟩
  · rw [hnone] at hsome
    cases hsome
  · rw [hboth, Option.some.injEq, Prod.mk.injEq] at hsome
    obtain ⟨rfl, rfl⟩ := hsome
    rw [hfields] at hfind
    exact ⟨⟨from', hfrom, hfind ("_from", .string from') (by simp)⟩,
      to', hto, hfind ("_to", .string to') (by simp)⟩

/-- The document of a draft holds its properties. -/
theorem find?_property (hascending : Entries.Ascending draft.properties) {name : String}
    {value : Value} (hfound : Entries.find? name draft.properties = some value) :
    Entries.find? name (draft.fields config) = some value.toJson := by
  have hfields : draft.fields config = Entries.insertAll (Value.toJsonFields draft.properties)
      (Entries.ofList (draft.ownFields config)) := Entries.insertAll_append _ _ _
  have hjson : Entries.Ascending (Value.toJsonFields draft.properties) := by
    rw [Entries.Ascending, Value.keys_toJsonFields]
    exact hascending
  rw [hfields, Entries.find?_insertAll hjson, Value.find?_toJsonFields, hfound]
  rfl

/-- The label field holds the label, or an end that is written over it. -/
theorem exists_labelField (h : Unreserved config draft.properties)
    (hends : Graph.endpointFields ends = .ok draft.ends) :
    ∃ json, Entries.find? config.labelField (draft.fields config) = some json ∧
      (json = .string draft.label ∨ (config.labelField, json) ∈ draft.ends) := by
  by_cases hmem : config.labelField ∈ Entries.keys draft.ends
  · obtain ⟨field, hfield, hkey⟩ := List.mem_map.mp hmem
    rw [← hkey]
    exact ⟨field.2, find?_of_mem_ends h hends hfield, .inr hfield⟩
  · exact ⟨_, find?_labelField h hmem, .inl rfl⟩

/-- A document holds all that was written to it exactly if no other field is the label field, or
it holds the label as well. -/
theorem holds_iff (draft : Draft) (h : Unreserved config draft.properties)
    (hascending : Entries.Ascending draft.properties)
    (hends : Graph.endpointFields ends = .ok draft.ends) {key : String}
    (hkey : draft.id.key = some key) :
    config.Holds draft.id draft.label draft.properties ends (draft.fields config) ↔
      config.Spares draft.label (GraphConfig.otherFields draft.id draft.ends) := by
  have hown : Graph.keyFields draft.id = [("_key", .string key)] := by
    rw [Graph.keyFields, hkey]
  constructor
  · intro hholds
    refine GraphConfig.spares_of_find? hholds.label fun field hmem => ?_
    rw [GraphConfig.otherFields, hown, List.singleton_append, List.mem_cons] at hmem
    rcases hmem with rfl | hmem
    · rw [hholds.key, hkey]
      rfl
    · exact find?_of_mem_ends h hends hmem
  · intro hspares
    refine ⟨?_, ?_, fun source target => refers_ends h hends,
      fun name value => find?_property hascending⟩
    · rw [find?_key h hends]
      split
      · next hlabel =>
        have hsame : Json.string key = .string draft.label := by
          refine hspares _ ?_
          rw [hlabel, GraphConfig.otherFields, hown]
          exact List.mem_cons_self
        rw [hkey, ← hsame]
        rfl
      · rfl
    · obtain ⟨json, hfound, rfl | hend⟩ := exists_labelField h hends
      · exact hfound
      · rw [hfound, hspares json (List.mem_append_right _ hend)]

/-- A property has none of the reserved names. -/
theorem ne_of_find?_property (h : Unreserved config draft.properties) {name key : String}
    {value : Value} (hfound : Entries.find? name draft.properties = some value)
    (hkey : key ∈ reservedFields) : name ≠ key := by
  rintro rfl
  have hnot := h _ (Entries.mem_keys_of_find? hfound)
  rw [GraphConfig.isReserved_of_mem hkey] at hnot
  cases hnot

/-- What the store assigns is written over the label, or leaves it. -/
theorem find?_labelField_of_spares (hkey : draft.id.key = some assigned.key)
    (hholds : config.Holds draft.id draft.label draft.properties ends (draft.fields config))
    (hspares : config.Spares draft.label (GraphConfig.assignedFields assigned)) :
    Entries.find? config.labelField (Store.stamped (draft.fields config) assigned) =
      some (.string draft.label) := by
  by_cases hrev : config.labelField = "_rev"
  · rw [← hspares (.string assigned.revision) (by simp [GraphConfig.assignedFields, hrev]), hrev]
    exact Store.find?_revision _ _
  by_cases hid : config.labelField = "_id"
  · rw [← hspares (.string assigned.id) (by simp [GraphConfig.assignedFields, hid]), hid]
    exact Store.find?_id _ _
  by_cases hlabel : config.labelField = "_key"
  · -- the label is the key, and the key is written once more
    have hsame := hholds.label
    rw [hlabel, hholds.key, hkey] at hsame
    rw [hlabel, Store.find?_key]
    exact hsame
  · rw [Store.find?_stamped _ _ (by simp [hrev, hid, hlabel])]
    exact hholds.label

/-- A stored document holds all that was written to it exactly if the label field is none of the
others, nor of those that the store writes, or they hold the label as well. -/
theorem holds_stamped_iff (draft : Draft) (h : Unreserved config draft.properties)
    (hascending : Entries.Ascending draft.properties)
    (hends : Graph.endpointFields ends = .ok draft.ends)
    (hkey : draft.id.key = some assigned.key) :
    config.Holds draft.id draft.label draft.properties ends
        (Store.stamped (draft.fields config) assigned) ↔
      config.Spares draft.label (GraphConfig.assignedFields assigned) ∧
        config.Spares draft.label (GraphConfig.otherFields draft.id draft.ends) := by
  constructor
  · intro hkept
    refine ⟨GraphConfig.spares_of_find? hkept.label fun field hmem => ?_,
      GraphConfig.spares_of_find? hkept.label fun field hmem => ?_⟩
    · rw [GraphConfig.assignedFields, List.mem_cons, List.mem_singleton] at hmem
      rcases hmem with rfl | rfl
      · exact Store.find?_revision _ _
      · exact Store.find?_id _ _
    · rw [GraphConfig.otherFields, Graph.keyFields, hkey, List.singleton_append,
        List.mem_cons] at hmem
      rcases hmem with rfl | hmem
      · exact Store.find?_key _ _
      · have hfield := mem_keys_ends hends (List.mem_map_of_mem hmem)
        rw [Store.find?_stamped _ _ (by rcases hfield with h | h <;> simp [h])]
        exact find?_of_mem_ends h hends hmem
  · rintro ⟨hassigned, hothers⟩
    have hholds := (draft.holds_iff h hascending hends hkey).mpr hothers
    refine ⟨?_, find?_labelField_of_spares hkey hholds hassigned, ?_, ?_⟩
    · rw [Store.find?_key, hkey]
      rfl
    · intro source target hsome
      obtain ⟨⟨from', hfrom, hfromField⟩, to', hto, htoField⟩ := hholds.ends source target hsome
      refine ⟨⟨from', hfrom, ?_⟩, to', hto, ?_⟩
      · rwa [Store.find?_stamped _ _ (by decide)]
      · rwa [Store.find?_stamped _ _ (by decide)]
    · intro name value hfound
      have hne : ∀ key ∈ reservedFields, name ≠ key := fun _ hkey =>
        ne_of_find?_property h hfound hkey
      rw [Store.find?_stamped _ _ (by
        simp [hne "_rev" (by decide), hne "_id" (by decide), hne "_key" (by decide)])]
      exact hholds.properties name value hfound

end Draft

namespace Graph

/-- The document of an element with a key can be made. It holds the key, the label, the ends and
the properties, each in its field, exactly if the key and the ends spare the label. Then it is
inserted where its key is free. Whatever is inserted is stored under the key and holds the same
exactly if the store spares the label, too. -/
theorem document_holds_iff (config : GraphConfig) (id : ElementId) {key : String}
    (hkey : id.key = some key) (label : String) (properties : Entries Value)
    (hascending : Entries.Ascending properties)
    (hchecked : checkProperties config properties = .ok ())
    {ends : Option (ElementId × ElementId)}
    (hends : ∀ source target, ends = some (source, target) →
      source.key ≠ none ∧ target.key ≠ none) :
    ∃ endpoints fields, endpointFields ends = .ok endpoints ∧
      document config id label properties ends = .ok (.object fields) ∧
      (config.Holds id label properties ends fields ↔
        config.Spares label (GraphConfig.otherFields id endpoints)) ∧
      (config.Spares label (GraphConfig.otherFields id endpoints) → ∀ s : Store,
        s.document? id.physicalCollection key = none →
          ∃ s', Store.insert id.physicalCollection (.object fields) s =
            (.ok (s.assign id.physicalCollection key), s')) ∧
      ∀ s s' assigned,
        Store.insert id.physicalCollection (.object fields) s = (.ok assigned, s') →
          ((∃ stored, assigned.key = key ∧
              s'.document? id.physicalCollection key = some (.object stored) ∧
              config.Holds id label properties ends stored) ↔
            config.Spares label (GraphConfig.assignedFields assigned) ∧
              config.Spares label (GraphConfig.otherFields id endpoints)) := by
  obtain ⟨endpoints, hendpoints⟩ := exists_endpointFields hends
  have hunreserved := GraphWrite.unreserved_of_checkProperties hchecked
  let draft : Draft := ⟨id, label, properties, endpoints⟩
  have hiff : config.Holds id label properties ends (draft.fields config) ↔
      config.Spares label (GraphConfig.otherFields id endpoints) :=
    draft.holds_iff hunreserved hascending hendpoints hkey
  refine ⟨endpoints, draft.fields config, hendpoints, ?_, hiff, ?_, ?_⟩
  · rw [document_eq, hendpoints]
    rfl
  · intro hspares s hfree
    refine Store.exists_insert _ ?_ hfree
    rw [(hiff.mpr hspares).key, hkey]
    rfl
  · intro s s' assigned hinsert
    obtain ⟨-, hassigned, -, hwrites⟩ := Store.of_insert hinsert
    have hstored : assigned.key = key →
        (config.Holds id label properties ends
          (Store.stamped (draft.fields config) assigned) ↔
        config.Spares label (GraphConfig.assignedFields assigned) ∧
          config.Spares label (GraphConfig.otherFields id endpoints)) := fun heq =>
      draft.holds_stamped_iff hunreserved hascending hendpoints
        (hkey.trans (congrArg some heq.symm))
    constructor
    · rintro ⟨stored, rfl, hfound, hholds⟩
      rw [hwrites.stored, Option.some.injEq, Json.object.injEq] at hfound
      rw [← hfound] at hholds
      exact (hstored rfl).mp hholds
    · intro hspares
      have hown : assigned.key = key := by
        rw [hassigned, Store.keyFor, (hiff.mpr hspares.2).key, hkey]
        rfl
      refine ⟨_, hown, ?_, (hstored hown).mpr hspares⟩
      rw [← hown]
      exact hwrites.stored

/-- That Alice keeps Rex is written to a document that holds all of it, and stays so in the
store: the label field of the kennel is not reserved. -/
theorem document_holds_iff_keeps :
    ∃ fields s' stored,
      document GraphConfig.kennel ⟨"kennel", "keeps", some "first"⟩ "keeps"
        [("since", .int64 2019)]
        (some (⟨"kennel", "person", some "alice"⟩, GraphConfig.rexOfKennel)) =
        .ok (.object fields) ∧
      Store.insert "kennel_keeps" (.object fields) Store.empty =
        (.ok ⟨"kennel_keeps/first", "first", "1"⟩, s') ∧
      s'.document? "kennel_keeps" "first" = some (.object stored) ∧
      Entries.find? "_label" stored = some (.string "keeps") ∧
      Entries.find? "_to" stored = some (.string "kennel_dog/rex") ∧
      Entries.find? "since" stored = some (Value.int64 2019).toJson := by
  have hends : ∀ source target,
      some ((⟨"kennel", "person", some "alice"⟩ : ElementId), GraphConfig.rexOfKennel) =
        some (source, target) → source.key ≠ none ∧ target.key ≠ none := by
    intro source target h
    cases h
    exact ⟨nofun, nofun⟩
  obtain ⟨endpoints, fields, hendpoints, hdocument, -, hinsert, hholds⟩ :=
    document_holds_iff GraphConfig.kennel ⟨"kennel", "keeps", some "first"⟩ rfl "keeps"
      [("since", .int64 2019)] (List.pairwise_singleton _ _) rfl hends
  cases hendpoints
  have hothers : GraphConfig.kennel.Spares "keeps" (GraphConfig.otherFields
      ⟨"kennel", "keeps", some "first"⟩
      [("_from", .string "kennel_person/alice"), ("_to", .string "kennel_dog/rex")]) :=
    GraphConfig.spares_of_not_reserved (by decide) (by decide)
  obtain ⟨s', hinserted⟩ := hinsert hothers Store.empty rfl
  have hassigned : GraphConfig.kennel.Spares "keeps"
      (GraphConfig.assignedFields ⟨"kennel_keeps/first", "first", "1"⟩) :=
    GraphConfig.spares_of_not_reserved (by decide) (by decide)
  obtain ⟨stored, -, hstored, hkept⟩ := (hholds _ _ _ hinserted).mpr ⟨hassigned, hothers⟩
  obtain ⟨-, to', hto, htoField⟩ := hkept.ends _ _ rfl
  cases hto
  exact ⟨fields, s', stored, hdocument, hinserted, hstored, hkept.label, htoField,
    hkept.properties "since" _ rfl⟩

end Graph

/-- A configuration that keeps labels where documents have their keys. -/
def GraphConfig.labelledByKey : GraphConfig :=
  { GraphConfig.standard with labelField := "_key" }

/-- The configuration is accepted, and the document of Alice, a person, has no field with her
key: the label is written over it. She is stored as `person`. -/
theorem Graph.not_document_holds_of_key :
    ({ GraphConfig.initial with labelField := "_key" } : GraphConfig).validate =
        .ok GraphConfig.labelledByKey ∧
      checkProperties GraphConfig.labelledByKey [] = .ok () ∧
      ∃ fields s',
        document GraphConfig.labelledByKey ⟨"tinkerpop", "vertex", some "alice"⟩ "person" [] none =
          .ok (.object fields) ∧
        Entries.find? "_key" fields = some (.string "person") ∧
        ¬ GraphConfig.labelledByKey.Holds ⟨"tinkerpop", "vertex", some "alice"⟩ "person" [] none
          fields ∧
        Store.insert "tinkerpop_vertex" (.object fields) Store.empty =
          (.ok ⟨"tinkerpop_vertex/person", "person", "1"⟩, s') ∧
        s'.document? "tinkerpop_vertex" "alice" = none := by
  refine ⟨rfl, rfl, [("_key", .string "person")], _, rfl, rfl, ?_, rfl, rfl⟩
  intro hholds
  exact absurd (Json.string.inj (Option.some.inj hholds.key)) (by decide)

end Pushdown
