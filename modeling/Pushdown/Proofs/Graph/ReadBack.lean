import Pushdown.Proofs.Graph.Additions
import Pushdown.Proofs.Graph.Documents

/-!
# Reading added elements back

The document that is stored for an added element is decoded to that element. Its identity and
its ends are read from the ids of documents, its label from the label field, and its properties
are the fields that are not reserved, with integers in the narrowest width.

## Results

* `GraphConfig.eq_of_parseDocumentId`: a document id that is read belongs to one identity;
* `GraphConfig.decodeProperties_eq`: only fields that are not reserved are properties;
* `Draft.find?_key`, `Draft.find?_ends`, `Draft.find?_labelField_stamped`: the fields of a draft;
* `Draft.describes_stamped`: the stored document of a draft and the element it describes;
* `Graph.decoded_of_added`: what is read back from the document of an added element.
-/

namespace Pushdown

namespace Element

/-- The store's revision. -/
def revision : Element → Option String
  | vertex v => v.revision
  | edge e => e.revision

/-- The ends of an edge. -/
def ends : Element → Option (ElementId × ElementId)
  | vertex _ => none
  | edge e => some (e.source, e.target)

/-- Data about the properties of a vertex. -/
def metadata : Element → Entries (Entries Value)
  | vertex v => v.metadata
  | edge _ => []

end Element

theorem isName_toString (n : Nat) : IsName (toString n) := by
  have hdigit : ∀ c ∈ (toString n).toList, c.isDigit = true := by
    intro c hc
    rw [Nat.toString_eq_repr, Nat.toList_repr] at hc
    exact Nat.isDigit_of_mem_toDigits (by decide) (by decide) hc
  refine ⟨?_, fun h => ?_, fun h => ?_⟩
  · rw [Nat.toString_eq_repr]
    exact Nat.repr_ne_empty
  · exact absurd (hdigit _ h) (by decide)
  · exact absurd (hdigit _ h) (by decide)

namespace GraphConfig

variable {raw config : GraphConfig}

/-- A document id that is read belongs to the identity that is read, whatever identity it was
made from. -/
theorem eq_of_parseDocumentId (h : raw.validate = .ok config) {text : String}
    {id parsed : ElementId} (hparse : config.parseDocumentId text = .ok parsed)
    (hid : id.documentId? = some text) : parsed = id := by
  obtain ⟨⟨hgraph, hcollection, key, hkey, hkeyname⟩, hdocument⟩ :=
    (parseDocumentId_eq_ok_iff h).mp hparse
  obtain ⟨graph, collection, k⟩ := parsed
  obtain ⟨graph', collection', k'⟩ := id
  obtain rfl : graph = config.graph := hgraph
  obtain rfl : k = some key := hkey
  obtain ⟨key', hkey', htext'⟩ := Option.map_eq_some_iff.mp hid
  obtain rfl : k' = some key' := hkey'
  have hlist := congrArg String.toList (htext'.trans (Option.some.inj hdocument).symm)
  simp only [ElementId.physicalCollection, physicalName, toList_join, List.append_assoc,
    List.cons_append] at hlist
  -- the identity that was read holds each separator once, so the other one does
  have hrest : graphSeparator ∉ collection.toList ++ keySeparator :: key.toList := by
    rw [List.mem_append, List.mem_cons, not_or, not_or]
    exact ⟨hcollection.part.noGraphSeparator, by decide, hkeyname.part.noGraphSeparator⟩
  obtain ⟨hgraph, hlist⟩ :=
    Text.cut_unique (names_of_validate h).1.part.noGraphSeparator hrest hlist
  obtain ⟨hcollection, hkey⟩ :=
    Text.cut_unique hcollection.part.noKeySeparator hkeyname.part.noKeySeparator hlist
  rw [String.toList_inj.mp hgraph, String.toList_inj.mp hcollection, String.toList_inj.mp hkey]

theorem isReserved_of_mem {key : String} (h : key ∈ reservedFields) :
    config.isReserved key = true := by
  simp [isReserved, h]

/-- The store writes reserved fields only. -/
theorem kept_stamped (config : GraphConfig) (fields : Entries Json) (assigned : DocumentMeta) :
    Entries.kept (fun key => !config.isReserved key) (Store.stamped fields assigned) =
      Entries.kept (fun key => !config.isReserved key) fields := by
  have hreserved : ∀ {key : String}, key ∈ reservedFields → (!config.isReserved key) = false := by
    intro key hkey
    rw [isReserved_of_mem hkey]
    rfl
  rw [Store.stamped, Entries.kept_insert_of_false _ (hreserved (by decide)),
    Entries.kept_insert_of_false _ (hreserved (by decide)),
    Entries.kept_insert_of_false _ (hreserved (by decide))]

/-- Reserved fields are no properties. -/
theorem decodeProperties_eq (config : GraphConfig) : ∀ fields : Entries Json,
    config.decodeProperties fields =
      config.decodeProperties (Entries.kept (fun key => !config.isReserved key) fields)
  | [] => rfl
  | (key, json) :: fields => by
      rw [decodeProperties, decodeProperties_eq config fields]
      cases hkey : config.isReserved key with
      | true =>
          rw [if_pos rfl, Entries.kept_cons_of_false json fields (by rw [hkey]; rfl)]
      | false =>
          rw [Entries.kept_cons_of_true json fields (by rw [hkey]; rfl), decodeProperties, hkey]

/-- Properties are read back with narrow integers. -/
theorem decodeProperties_toJsonFields : ∀ {properties : Entries Value},
    (∀ key ∈ Entries.keys properties, config.isReserved key = false) →
    Value.AllFiniteEntries properties →
    config.decodeProperties (Value.toJsonFields properties) =
      .ok (Value.narrowedEntries properties)
  | [], _, _ => rfl
  | (key, value) :: properties, hkeys, hfinite => by
      have hkey : ¬ config.isReserved key = true := by
        rw [hkeys key List.mem_cons_self]
        exact Bool.false_ne_true
      rw [Value.toJsonFields, decodeProperties, if_neg hkey, Value.ofJson?_toJson hfinite.1,
        decodeProperties_toJsonFields (fun k hk => hkeys k (List.mem_cons_of_mem key hk)) hfinite.2]
      rfl

theorem decodeId_eq {fields : Entries Json} {field text : String} {id : ElementId}
    (hfield : Entries.find? field fields = some (.string text))
    (hparse : config.parseDocumentId text = .ok id) :
    config.decodeId fields field = .ok id := by
  rw [decodeId, hfield]
  dsimp only [Option.bind_some, Json.asString?]
  rw [hparse]

/-- The fields of a document that is decoded to an element. -/
structure Describes (config : GraphConfig) (fields : Entries Json) (element : Element) : Prop where
  key : Entries.contains "_key" fields = true
  id : config.decodeId fields "_id" = .ok element.id
  label : Entries.find? config.labelField fields = some (.string element.label)
  revision : ∃ text, element.revision = some text ∧
    Entries.find? "_rev" fields = some (.string text)
  properties : config.decodeProperties fields = .ok element.properties
  ends : match element with
    | .vertex v => Entries.find? "_from" fields = none ∧
        Entries.find? metadataField fields = none ∧ v.metadata = []
    | .edge e => config.decodeId fields "_from" = .ok e.source ∧
        config.decodeId fields "_to" = .ok e.target

theorem contains_of_find? {fields : Entries Json} {field : String} {json : Json}
    (h : Entries.find? field fields = some json) : Entries.contains field fields = true := by
  rw [Entries.contains, h]
  rfl

theorem contains_of_decodeId {fields : Entries Json} {field : String} {id : ElementId}
    (h : config.decodeId fields field = .ok id) : Entries.contains field fields = true := by
  unfold decodeId at h
  split at h
  · cases h
  · next text htext =>
    obtain ⟨json, hjson, -⟩ := Option.bind_eq_some_iff.mp htext
    exact contains_of_find? hjson

/-- A document is decoded to the element that its fields describe. -/
theorem decodeElementRow_of_describes {fields : Entries Json} {element : Element}
    (h : Describes config fields element) :
    config.decodeElementRow (.object fields) = .ok element := by
  obtain ⟨text, hrevision, hrev⟩ := h.revision
  have hdocument : config.isElementDocument fields = true := by
    simp [isElementDocument, h.key, contains_of_decodeId h.id, contains_of_find? hrev,
      contains_of_find? h.label]
  have hlabel : config.decodeLabel fields element.id = element.label := by
    rw [decodeLabel, h.label]
  have hstored : (Entries.find? "_rev" fields).bind Json.asString? = element.revision := by
    rw [hrev, hrevision]
    rfl
  rw [decodeElementRow, if_pos hdocument, decodeElement, h.id, h.properties]
  have hends := h.ends
  cases element with
  | vertex v =>
      obtain ⟨hfrom, hmeta, hempty⟩ := hends
      have hnot : Entries.contains "_from" fields = false := by
        rw [Entries.contains, hfrom]
        rfl
      have hmetadata : decodeMetadata fields = .ok v.metadata := by
        rw [decodeMetadata, hmeta, hempty]
      dsimp only [decoded, bind, Except.bind]
      rw [hnot, hmetadata, hlabel, hstored]
      rfl
  | edge e =>
      obtain ⟨hfrom, hto⟩ := hends
      dsimp only [decoded, bind, Except.bind]
      rw [contains_of_decodeId hfrom, contains_of_decodeId hto, hfrom, hto, hlabel, hstored]
      rfl

end GraphConfig

/-- The document id of an identity is one that is read. -/
def GraphConfig.Reads (config : GraphConfig) (id : ElementId) : Prop :=
  ∃ text parsed, id.documentId? = some text ∧ config.parseDocumentId text = .ok parsed

namespace Draft

variable {config : GraphConfig} {draft : Draft} (assigned : DocumentMeta)

/-- The fields of the ends hold the ids of their documents, also if one is the label field. -/
theorem find?_ends (h : Unreserved config draft.properties) {from' to' : String}
    (hends : draft.ends = [("_from", .string from'), ("_to", .string to')]) :
    Entries.find? "_from" (Store.stamped (draft.fields config) assigned) = some (.string from') ∧
      Entries.find? "_to" (Store.stamped (draft.fields config) assigned) =
        some (.string to') := by
  have hne : "_from" ≠ "_to" := by decide
  constructor
  · rw [Store.find?_stamped _ _ (by decide), find?_fields h
      (GraphConfig.isReserved_of_mem (by decide)), ofList_ownFields, hends]
    exact (Entries.find?_insert_of_ne _ _ hne).trans (Entries.find?_insert_self _ _ _)
  · rw [Store.find?_stamped _ _ (by decide), find?_fields h
      (GraphConfig.isReserved_of_mem (by decide)), ofList_ownFields, hends]
    exact Entries.find?_insert_self _ _ _

/-- A reserved field that neither the store nor the ends of an edge fill holds the label, or
nothing. -/
theorem find?_unfilled (h : Unreserved config draft.properties) {key : String}
    (hkey : key ∈ reservedFields) (hstamped : key ∉ ["_rev", "_id", "_key"])
    (hends : key ∉ Entries.keys draft.ends) :
    Entries.find? key (Store.stamped (draft.fields config) assigned) =
      if config.labelField = key then some (.string draft.label) else none := by
  rw [Store.find?_stamped _ _ hstamped]
  split
  · next hlabel =>
    subst hlabel
    exact find?_labelField h hends
  · next hlabel =>
    rw [find?_reserved h (GraphConfig.isReserved_of_mem hkey) (Ne.symm hlabel) hends,
      find?_keyFields, if_neg fun heq => hstamped (by simp [heq])]

section ends

variable {ends : Option (ElementId × ElementId)}

/-- The fields of ends. -/
theorem mem_keys_ends (hends : Graph.endpointFields ends = .ok draft.ends) {key : String}
    (hkey : key ∈ Entries.keys draft.ends) : key = "_from" ∨ key = "_to" := by
  rcases endpointFields_eq_ok hends with ⟨-, hnone⟩ | ⟨_, _, _, _, -, -, -, hsome⟩
  · rw [hnone] at hkey
    cases hkey
  · rw [hsome] at hkey
    simpa [Entries.keys] using hkey

theorem isReserved_of_mem_ends (hends : Graph.endpointFields ends = .ok draft.ends) :
    ∀ key ∈ Entries.keys draft.ends, config.isReserved key = true := by
  intro key hkey
  rcases mem_keys_ends hends hkey with rfl | rfl
  · exact GraphConfig.isReserved_of_mem (by decide)
  · exact GraphConfig.isReserved_of_mem (by decide)

/-- The field of the key holds the key, or the label that is written over it. -/
theorem find?_key (h : Unreserved config draft.properties)
    (hends : Graph.endpointFields ends = .ok draft.ends) :
    Entries.find? "_key" (draft.fields config) =
      if config.labelField = "_key" then some (.string draft.label)
      else draft.id.key.map Json.string := by
  have hfree : "_key" ∉ Entries.keys draft.ends := fun hmem => by
    rcases mem_keys_ends hends hmem with heq | heq
    · exact absurd heq (by decide)
    · exact absurd heq (by decide)
  split
  · next hlabel =>
    rw [← hlabel] at hfree ⊢
    exact find?_labelField h hfree
  · next hlabel =>
    rw [find?_reserved h (GraphConfig.isReserved_of_mem (by decide)) (Ne.symm hlabel) hfree,
      find?_keyFields, if_pos rfl]

/-- No end is stored in a label field that is not reserved, so it holds the label. -/
theorem find?_labelField_stamped (h : Unreserved config draft.properties)
    (hends : Graph.endpointFields ends = .ok draft.ends)
    (hlabel : config.labelField ∉ reservedFields) :
    Entries.find? config.labelField (Store.stamped (draft.fields config) assigned) =
      some (.string draft.label) := by
  simp only [reservedFields, List.mem_cons, List.not_mem_nil, or_false, not_or] at hlabel
  obtain ⟨hid, hkey, hrev, hfrom, hto, -, -⟩ := hlabel
  rw [Store.find?_stamped _ _ (by simp [hid, hkey, hrev])]
  exact find?_labelField h fun hend => (mem_keys_ends hends hend).elim hfrom hto

/-- The properties are the fields that are not reserved. -/
theorem decodeProperties_stamped (h : Classified config draft.properties)
    (hends : Graph.endpointFields ends = .ok draft.ends) :
    config.decodeProperties (Store.stamped (draft.fields config) assigned) =
      .ok (Value.narrowedEntries draft.properties) := by
  rw [GraphConfig.decodeProperties_eq, GraphConfig.kept_stamped,
    kept_fields h (isReserved_of_mem_ends hends)]
  exact GraphConfig.decodeProperties_toJsonFields h.unreserved h.finite

/-- The stored document of a draft describes its element, with narrow integers and without
metadata. -/
theorem describes_stamped {raw : GraphConfig} (hvalid : raw.validate = .ok config)
    (h : Classified config draft.properties)
    (hends : Graph.endpointFields ends = .ok draft.ends)
    (hfield : config.labelField ∉ reservedFields)
    (hread : ∀ source target, ends = some (source, target) →
      config.Reads source ∧ config.Reads target) {element : Element}
    (hid : config.decodeId (Store.stamped (draft.fields config) assigned) "_id" = .ok element.id)
    (hlabel : element.label = draft.label) (hrevision : element.revision = some assigned.revision)
    (hproperties : element.properties = Value.narrowedEntries draft.properties)
    (hown : element.ends = ends) (hmetadata : element.metadata = []) :
    GraphConfig.Describes config (Store.stamped (draft.fields config) assigned) element where
  key := GraphConfig.contains_of_find? (Store.find?_key _ _)
  id := hid
  label := by rw [hlabel, find?_labelField_stamped assigned h.unreserved hends hfield]
  revision := ⟨_, hrevision, Store.find?_revision _ _⟩
  properties := by rw [hproperties, decodeProperties_stamped assigned h hends]
  ends := by
    have hmissing : ∀ key ∈ reservedFields, key ∉ ["_rev", "_id", "_key"] →
        key ∉ Entries.keys draft.ends →
        Entries.find? key (Store.stamped (draft.fields config) assigned) = none := by
      intro key hkey hstamped hnot
      rw [find?_unfilled assigned h.unreserved hkey hstamped hnot,
        if_neg fun heq : config.labelField = key => hfield (heq ▸ hkey)]
    have hreads : ∀ {id : ElementId} {field text : String},
        Entries.find? field (Store.stamped (draft.fields config) assigned) =
          some (.string text) →
        id.documentId? = some text → config.Reads id →
        config.decodeId (Store.stamped (draft.fields config) assigned) field = .ok id := by
      rintro id field text hfield hdocument ⟨other, parsed, hother, hparse⟩
      obtain rfl : text = other := Option.some.inj (hdocument.symm.trans hother)
      obtain rfl := GraphConfig.eq_of_parseDocumentId hvalid hparse hdocument
      exact GraphConfig.decodeId_eq hfield hparse
    rcases endpointFields_eq_ok hends with
      ⟨rfl, hnone⟩ | ⟨source, target, from', to', rfl, hfrom, hto, hsome⟩
    · have hnot : ∀ key, key ∉ Entries.keys draft.ends := by
        rw [hnone]
        exact fun key => List.not_mem_nil
      cases element with
      | vertex v =>
          exact ⟨hmissing _ (by decide) (by decide) (hnot _),
            hmissing _ (by decide) (by decide) (hnot _), hmetadata⟩
      | edge e => cases hown
    · cases element with
      | vertex v => cases hown
      | edge e =>
          cases hown
          obtain ⟨hsource, htarget⟩ := hread _ _ rfl
          obtain ⟨hfromField, htoField⟩ := find?_ends assigned h.unreserved hsome
          exact ⟨hreads hfromField hfrom hsource, hreads htoField hto htarget⟩

end ends

end Draft

/-- A draft whose integers are narrow. -/
def Draft.narrowed (draft : Draft) : Draft :=
  { draft with properties := Value.narrowedEntries draft.properties }

namespace Addition

variable {raw config : GraphConfig} {a : Addition} {draft : Draft} {assigned : DocumentMeta}
  {s s' : Store}

/-- The key of a new document: its own, or a number that the store assigns. -/
theorem isName_keyFor {id : ElementId} {fields : Entries Json} (s : Store)
    (hfields : Entries.find? "_key" fields = id.key.map Json.string)
    (hid : ∀ key, id.key = some key → IsName key) : IsName (s.keyFor fields).1 := by
  unfold Store.keyFor
  rw [hfields]
  cases hkey : id.key with
  | none => exact isName_toString _
  | some key => exact hid key hkey

theorem classified_of_draft (h : a.draft ⟨config⟩ = .ok draft) :
    Classified config draft.properties := by
  have hnone : Classified config [] :=
    ⟨List.Pairwise.nil, fun _ hkey => absurd hkey List.not_mem_nil, trivial⟩
  exact classified_of_classifyProperties hnone (draft_eq_ok h).2.1

/-- The identity of an added element is read from the id that the store assigned. -/
theorem decodeId_stamped (hvalid : raw.validate = .ok config)
    (hadds : Adds ⟨config⟩ a draft assigned s s')
    (hlabel : config.labelField ∉ reservedFields)
    (hcollection : draft.id.collection ∈ config.collections a.kind) :
    config.decodeId (Store.stamped (draft.fields config) assigned) "_id" =
      .ok (draft.id.withKey assigned.key) := by
  obtain ⟨hcreated, -⟩ := newElement_eq_ok (draft_eq_ok hadds.drafted).1
  obtain ⟨hgraph, -, hkey⟩ := GraphConfig.parts_of_createId hcreated
  have hfield : Entries.find? "_key" (draft.fields config) = draft.id.key.map Json.string := by
    have hne : config.labelField ≠ "_key" := by
      intro heq
      rw [heq] at hlabel
      exact hlabel (by decide)
    rw [Draft.find?_key (classified_of_draft hadds.drafted).unreserved
      (draft_eq_ok hadds.drafted).2.2, if_neg hne]
  have hname : IsName assigned.key := by
    rw [hadds.key]
    exact isName_keyFor s hfield hkey
  refine GraphConfig.decodeId_eq (Store.find?_id _ _)
    ((GraphConfig.parseDocumentId_eq_ok_iff hvalid).mpr
      ⟨⟨hgraph, ?_, assigned.key, rfl, hname⟩, ?_⟩)
  · exact (GraphConfig.names_of_validate hvalid).2 a.kind _ hcollection
  · rw [hadds.id]
    rfl

/-- The stored document of an added element describes it, with narrow integers. -/
theorem describes_of_adds (hvalid : raw.validate = .ok config)
    (hadds : Adds ⟨config⟩ a draft assigned s s')
    (hlabel : config.labelField ∉ reservedFields)
    (hcollection : draft.id.collection ∈ config.collections a.kind)
    (hread : ∀ source target, a.ends = some (source, target) →
      config.Reads source ∧ config.Reads target) :
    GraphConfig.Describes config (Store.stamped (draft.fields config) assigned)
      (a.element draft.narrowed assigned) := by
  have hid : (a.element draft.narrowed assigned).id = draft.id.withKey assigned.key := by
    cases a <;> rfl
  have hdecoded := decodeId_stamped hvalid hadds hlabel hcollection
  rw [← hid] at hdecoded
  exact Draft.describes_stamped assigned hvalid (classified_of_draft hadds.drafted)
    (draft_eq_ok hadds.drafted).2.2 hlabel hread hdecoded (by cases a <;> rfl)
    (by cases a <;> rfl) (by cases a <;> rfl) (by cases a <;> rfl) (by cases a <;> rfl)

theorem decodes_of_adds (hvalid : raw.validate = .ok config)
    (hadds : Adds ⟨config⟩ a draft assigned s s')
    (hlabel : config.labelField ∉ reservedFields)
    (hcollection : draft.id.collection ∈ config.collections a.kind)
    (hread : ∀ source target, a.ends = some (source, target) →
      config.Reads source ∧ config.Reads target) :
    config.decodeElementRow (.object (Store.stamped (draft.fields config) assigned)) =
      .ok (a.element draft.narrowed assigned) :=
  GraphConfig.decodeElementRow_of_describes
    (describes_of_adds hvalid hadds hlabel hcollection hread)

end Addition

namespace Graph

variable {raw config : GraphConfig}

/-- An element that is added is read back from its document, with narrow integers and without
metadata. -/
theorem decoded_of_added (hvalid : raw.validate = .ok config)
    (hlabel : config.labelField ∉ reservedFields) (a : Addition)
    (hread : ∀ source target, a.ends = some (source, target) →
      config.Reads source ∧ config.Reads target)
    {s s' : Store} {element : Element} (hadded : a.run ⟨config⟩ s = (.ok element, s'))
    (hcollection : element.id.collection ∈ config.collections a.kind) :
    ∃ key document read, element.id.key = some key ∧
      s'.document? element.id.physicalCollection key = some document ∧
      config.decodeElementRow document = .ok read ∧
      element.kind = a.kind ∧ read.kind = element.kind ∧ read.id = element.id ∧
      read.label = element.label ∧ read.revision = element.revision ∧ read.ends = element.ends ∧
      read.metadata = [] ∧ read.properties = Value.narrowedEntries element.properties := by
  obtain ⟨draft, assigned, hadds, rfl⟩ := Addition.adds_of_run hadded
  have hid : (a.element draft assigned).id = draft.id.withKey assigned.key := by
    cases a <;> rfl
  rw [hid] at hcollection ⊢
  have hdecoded := Addition.decodes_of_adds hvalid hadds hlabel hcollection hread
  refine ⟨assigned.key, _, _, rfl, hadds.writes.stored, hdecoded, ?_⟩
  cases a with
  | vertex label id properties => exact ⟨rfl, rfl, rfl, rfl, rfl, rfl, rfl, rfl⟩
  | edge label id source target properties => exact ⟨rfl, rfl, rfl, rfl, rfl, rfl, rfl, rfl⟩

/-- Alice keeps Rex since a year that is given in 64 bits. -/
def aliceKeepsRex : Addition :=
  .edge (some "keeps") none ⟨"kennel", "person", some "alice"⟩ GraphConfig.rexOfKennel
    [("since", .long 2019)]

theorem decoded_of_added_keeps :
    ∃ key document read,
      (⟨"kennel", "keeps", some "1"⟩ : ElementId).key = some key ∧
      (aliceKeepsRex.run ⟨GraphConfig.kennel⟩ Store.empty).2.document? "kennel_keeps" key =
        some document ∧
      GraphConfig.kennel.decodeElementRow document = .ok read ∧
      read.properties = [("since", .int32 2019)] := by
  have hadded : aliceKeepsRex.run ⟨GraphConfig.kennel⟩ Store.empty =
      (.ok (.edge ⟨⟨"kennel", "keeps", some "1"⟩, "keeps", some "1",
        ⟨"kennel", "person", some "alice"⟩, GraphConfig.rexOfKennel,
        [("since", .int64 2019)]⟩), (aliceKeepsRex.run ⟨GraphConfig.kennel⟩ Store.empty).2) := rfl
  have hread : ∀ source target, aliceKeepsRex.ends = some (source, target) →
      GraphConfig.kennel.Reads source ∧ GraphConfig.kennel.Reads target := by
    intro source target hends
    cases hends
    exact ⟨⟨"kennel_person/alice", _, rfl, rfl⟩, "kennel_dog/rex", _, rfl, rfl⟩
  obtain ⟨key, document, read, hkey, hstored, hdecoded, -, -, -, -, -, -, -, hproperties⟩ :=
    decoded_of_added GraphConfig.validate_kennel (by decide) aliceKeepsRex hread hadded (by decide)
  exact ⟨key, document, read, hkey, hstored, hdecoded, hproperties.trans rfl⟩

end Graph
end Pushdown
