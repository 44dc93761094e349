import Pushdown.Proofs.Graph.Labels

/-!
# Documents of written elements

The document of an element refers to the element and to its ends by ids of documents, and holds
its label and properties. It is decoded if these ids are read and the label is in no field that
is to hold something else; otherwise it is no document of an element.

## Results

* `Graph.document_eq`: the document of an element is that of a draft;
* `GraphConfig.records_stamped`: what the stored document of a draft holds;
* `GraphConfig.exists_decoded`, `GraphConfig.exists_fault`: when the document of an element is
  decoded.
-/

namespace Pushdown

/-- The document of an element is that of a draft. -/
theorem Graph.document_eq (config : GraphConfig) (id : ElementId) (label : String)
    (properties : Entries Value) (ends : Option (ElementId × ElementId)) :
    Graph.document config id label properties ends =
      (Graph.endpointFields ends).map fun fields =>
        .object (Draft.fields config ⟨id, label, properties, fields⟩) := by
  unfold Graph.document
  cases Graph.endpointFields ends <;> rfl

/-- An element whose document is decoded: the document has the id of an identity of the graph,
its label is not taken for data about properties, and the ends of an edge are identities of the
graph. -/
def Element.Readable (config : GraphConfig) (element : Element) : Prop :=
  Storable config element.id ∧
    match element.ends with
    | none => config.labelField ≠ metadataField
    | some (source, target) => Storable config source ∧ Storable config target

/-- Alice is readable in the standard configuration, whatever her label and properties. -/
theorem Element.readable_alice {element : Element}
    (hid : element.id = ⟨"tinkerpop", "vertex", some "alice"⟩) (hends : element.ends = none) :
    element.Readable GraphConfig.standard := by
  refine ⟨?_, ?_⟩
  · rw [hid]
    exact ⟨rfl, ⟨by decide, by decide, by decide⟩, "alice", rfl, by decide, by decide, by decide⟩
  · rw [hends]
    decide

namespace GraphConfig

variable {raw config : GraphConfig} {fields : Entries Json} {element : Element}

/-- A field holds the id of the document of an identity. -/
def Refers (fields : Entries Json) (field : String) (id : ElementId) : Prop :=
  ∃ text, id.documentId? = some text ∧ Entries.find? field fields = some (.string text)

/-- Fields of the document of an element. -/
structure Records (config : GraphConfig) (fields : Entries Json) (element : Element) : Prop where
  marks : config.isElementDocument fields = true
  id : Refers fields "_id" element.id
  properties : ∃ properties, config.decodeProperties fields = .ok properties
  ends : match element.ends with
    | none => (Entries.contains "_from" fields && Entries.contains "_to" fields) = false ∧
        Entries.find? metadataField fields =
          if config.labelField = metadataField then some (.string element.label) else none
    | some (source, target) => Refers fields "_from" source ∧ Refers fields "_to" target

theorem Refers.contains {field : String} {id : ElementId} (h : Refers fields field id) :
    Entries.contains field fields = true := by
  obtain ⟨text, -, hfield⟩ := h
  exact contains_of_find? hfield

/-- A reference is read if it is to an identity that can be stored. -/
theorem Refers.decodeId_eq {field : String} {id : ElementId} (h : Refers fields field id)
    (hvalid : raw.validate = .ok config) (hid : Storable config id) :
    config.decodeId fields field = .ok id := by
  obtain ⟨text, htext, hfield⟩ := h
  exact GraphConfig.decodeId_eq hfield ((parseDocumentId_eq_ok_iff hvalid).mpr ⟨hid, htext⟩)

/-- A reference to another identity is not read. -/
theorem Refers.exists_fault {field : String} {id : ElementId} (h : Refers fields field id)
    (hvalid : raw.validate = .ok config) (hid : ¬ Storable config id) :
    ∃ fault, config.decodeId fields field = .error fault := by
  obtain ⟨text, htext, hfield⟩ := h
  cases hdecoded : config.decodeId fields field with
  | error fault => exact ⟨fault, rfl⟩
  | ok read =>
      obtain ⟨other, hother, hparse⟩ := decodeId_eq_ok (congrArg decoded hdecoded)
      rw [hfield, Option.some.injEq, Json.string.injEq] at hother
      subst hother
      obtain rfl := eq_of_parseDocumentId hvalid hparse htext
      exact absurd ((parseDocumentId_eq_ok_iff hvalid).mp hparse).1 hid

/-- Properties are decoded if their fields hold the documents of values. -/
theorem exists_decodeProperties : ∀ {fields : Entries Json},
    (∀ field ∈ fields, config.isReserved field.1 = false →
      ∃ value : Value, value.toJson = field.2) →
    ∃ properties, config.decodeProperties fields = .ok properties
  | [], _ => ⟨[], rfl⟩
  | (key, json) :: fields, h => by
      obtain ⟨rest, hrest⟩ := exists_decodeProperties fun field hfield =>
        h field (List.mem_cons_of_mem _ hfield)
      rw [decodeProperties, hrest]
      split
      · exact ⟨rest, rfl⟩
      · next hkey =>
        rw [Bool.not_eq_true] at hkey
        obtain ⟨value, hvalue⟩ := h (key, json) List.mem_cons_self hkey
        obtain ⟨read, hread⟩ := Value.exists_ofJson?_toJson value
        rw [hvalue] at hread
        rw [hread]
        exact ⟨_, rfl⟩

/-- The document of a readable element is decoded to an element with its identity. -/
theorem exists_decoded (hvalid : raw.validate = .ok config) (h : Records config fields element)
    (hreadable : element.Readable config) :
    ∃ read, config.decodeElementRow (.object fields) = .ok read ∧ read.id = element.id := by
  obtain ⟨hid, hrest⟩ := hreadable
  obtain ⟨properties, hproperties⟩ := h.properties
  have hends := h.ends
  rw [decodeElementRow, if_pos h.marks, decodeElement, h.id.decodeId_eq hvalid hid, hproperties]
  dsimp only [decoded, bind, Except.bind]
  cases hcase : element.ends with
  | none =>
      rw [hcase] at hends hrest
      obtain ⟨hnot, hmeta⟩ := hends
      rw [if_neg (by rw [hnot]; exact Bool.false_ne_true), decodeMetadata, hmeta, if_neg hrest]
      exact ⟨_, rfl, rfl⟩
  | some ends =>
      obtain ⟨source, target⟩ := ends
      rw [hcase] at hends hrest
      obtain ⟨hsource, htarget⟩ := hends
      rw [if_pos (by rw [hsource.contains, htarget.contains]; rfl),
        hsource.decodeId_eq hvalid hrest.1, htarget.decodeId_eq hvalid hrest.2]
      exact ⟨_, rfl, rfl⟩

/-- The document of an element that is not readable is no document of an element. -/
theorem exists_fault (hvalid : raw.validate = .ok config) (h : Records config fields element)
    (hnot : ¬ element.Readable config) :
    ∃ fault, config.decodeElementRow (.object fields) = .error (.decode fault) := by
  obtain ⟨properties, hproperties⟩ := h.properties
  have hends := h.ends
  rw [decodeElementRow, if_pos h.marks, decodeElement]
  by_cases hid : Storable config element.id
  · have hrest := fun hrest => hnot ⟨hid, hrest⟩
    rw [h.id.decodeId_eq hvalid hid, hproperties]
    dsimp only [decoded, bind, Except.bind]
    cases hcase : element.ends with
    | none =>
        rw [hcase] at hends hrest
        obtain ⟨hplain, hmeta⟩ := hends
        have hlabel : config.labelField = metadataField := Decidable.not_not.mp hrest
        rw [if_neg (by rw [hplain]; exact Bool.false_ne_true), decodeMetadata, hmeta,
          if_pos hlabel]
        exact ⟨_, rfl⟩
    | some ends =>
        obtain ⟨source, target⟩ := ends
        rw [hcase] at hends hrest
        obtain ⟨hsource, htarget⟩ := hends
        rw [if_pos (by rw [hsource.contains, htarget.contains]; rfl)]
        by_cases hfrom : Storable config source
        · obtain ⟨fault, hfault⟩ := htarget.exists_fault hvalid fun hto => hrest ⟨hfrom, hto⟩
          rw [hsource.decodeId_eq hvalid hfrom, hfault]
          exact ⟨_, rfl⟩
        · obtain ⟨fault, hfault⟩ := hsource.exists_fault hvalid hfrom
          rw [hfault]
          exact ⟨_, rfl⟩
  · obtain ⟨fault, hfault⟩ := h.id.exists_fault hvalid hid
    rw [hfault]
    exact ⟨_, rfl⟩

section stamped

variable {draft : Draft} {ends : Option (ElementId × ElementId)} {assigned : DocumentMeta}

theorem isElementDocument_stamped (config : GraphConfig) (draft : Draft)
    (assigned : DocumentMeta) :
    config.isElementDocument (Store.stamped (draft.fields config) assigned) = true := by
  have hlabel : config.labelField ∈ Entries.keys (draft.fields config) := by
    refine Entries.mem_keys_insertAll (.inl ?_)
    simp [Entries.keys]
  have hstamped : Entries.contains config.labelField
      (Store.stamped (draft.fields config) assigned) = true := by
    refine Entries.contains_of_mem_keys ?_
    simp [Store.stamped, Entries.mem_keys_insert, hlabel]
  simp [isElementDocument, hstamped, contains_of_find? (Store.find?_key _ _),
    contains_of_find? (Store.find?_id _ _), contains_of_find? (Store.find?_revision _ _)]

/-- Fields of a document that are not reserved hold values. -/
theorem exists_of_mem_stamped (hends : Graph.endpointFields ends = .ok draft.ends)
    {field : String × Json} (hmem : field ∈ Store.stamped (draft.fields config) assigned)
    (hfree : config.isReserved field.1 = false) : ∃ value : Value, value.toJson = field.2 := by
  have hne : ∀ {key : String} {json : Json}, config.isReserved key = true →
      field ≠ (key, json) := by
    rintro key json hkey rfl
    rw [hkey] at hfree
    cases hfree
  rcases Entries.eq_or_mem_of_mem_insert hmem with heq | hmem
  · exact absurd heq (hne (isReserved_of_mem (by decide)))
  rcases Entries.eq_or_mem_of_mem_insert hmem with heq | hmem
  · exact absurd heq (hne (isReserved_of_mem (by decide)))
  rcases Entries.eq_or_mem_of_mem_insert hmem with heq | hmem
  · exact absurd heq (hne (isReserved_of_mem (by decide)))
  rcases Entries.mem_or_mem_of_mem_insertAll hmem with hmem | hmem
  · rcases List.mem_append.mp hmem with hown | hmem
    · have hreserved : config.isReserved field.1 = true :=
        Draft.isReserved_of_mem_ownFields (Draft.isReserved_of_mem_ends hends)
          (List.mem_map_of_mem hown)
      rw [hreserved] at hfree
      cases hfree
    · exact Value.exists_of_mem_toJsonFields hmem
  · cases hmem

/-- The stored document of a draft is that of the element that was drafted. -/
theorem records_stamped (draft : Draft) (hkeys : Unreserved config draft.properties)
    (hends : Graph.endpointFields ends = .ok draft.ends)
    (hassigned : assigned.id = Store.documentId draft.id.physicalCollection assigned.key)
    (hid : element.id = draft.id.withKey assigned.key) (hlabel : element.label = draft.label)
    (helement : element.ends = ends) :
    Records config (Store.stamped (draft.fields config) assigned) element where
  marks := isElementDocument_stamped config draft assigned
  id := by
    refine ⟨assigned.id, ?_, Store.find?_id _ _⟩
    rw [hid, hassigned]
    rfl
  properties := exists_decodeProperties fun _ hmem => exists_of_mem_stamped hends hmem
  ends := by
    rw [helement, hlabel]
    rcases endpointFields_eq_ok hends with
      ⟨rfl, hnone⟩ | ⟨source, target, from', to', rfl, hsource, htarget, hsome⟩
    · have hfree : ∀ key, key ∉ Entries.keys draft.ends := by
        rw [hnone]
        exact fun key => List.not_mem_nil
      refine ⟨?_, Draft.find?_unfilled assigned hkeys (by decide) (by decide) (hfree _)⟩
      rw [Entries.contains, Entries.contains,
        Draft.find?_unfilled assigned hkeys (by decide) (by decide) (hfree _),
        Draft.find?_unfilled assigned hkeys (by decide) (by decide) (hfree _)]
      by_cases hfrom : config.labelField = "_from"
      · rw [hfrom]
        rfl
      · rw [if_neg hfrom]
        rfl
    · obtain ⟨hfrom, hto⟩ := Draft.find?_ends assigned hkeys hsome
      exact ⟨⟨from', hsource, hfrom⟩, to', htarget, hto⟩

end stamped

end GraphConfig
end Pushdown
