import Pushdown.Proofs.Entries.Order
import Pushdown.Proofs.Graph.Iteration
import Pushdown.Proofs.Identity.Creation
import Pushdown.Proofs.Store.Writing
import Pushdown.Proofs.Value.Narrowing

/-!
# Adding elements

An element is added in two steps: it is drafted from what was given, and the document of the
draft is inserted. A draft can fail without touching the store.

## Results

* `Addition.run_eq`: adding an element is drafting and inserting it;
* `Addition.adds_of_run`: what the store and the element are after an addition;
* `Addition.document?_of_run_error`: an addition that fails leaves what is stored;
* `Draft.kept_fields`: the properties of a draft are the fields of its document that are not
  reserved.
-/

namespace Pushdown

/-- An element to be added to a graph. -/
inductive Addition where
  | vertex (label id : Option String) (properties : List (String × RawValue))
  | edge (label id : Option String) (source target : ElementId)
      (properties : List (String × RawValue))

/-- An element before it is stored. -/
structure Draft where
  /-- The identity, without a key if the store is to assign one. -/
  id : ElementId
  label : String
  properties : Entries Value
  /-- The fields of the ends of an edge. -/
  ends : List (String × Json)

/-- The fields of the document of a draft. -/
def Draft.fields (config : GraphConfig) (draft : Draft) : Entries Json :=
  Entries.ofList (Graph.keyFields draft.id ++
    (config.labelField, .string draft.label) :: draft.ends ++ Value.toJsonFields draft.properties)

namespace GraphAction

variable {σ α β : Type}

/-- Results one after the other, as an action and as a result. -/
theorem result_bind (r : Result α) (f : α → Result β) :
    (result (r >>= f) : GraphAction σ β) = result r >>= fun a => result (f a) := by
  cases r <;> rfl

end GraphAction

namespace Addition

/-- The kind of the element. -/
def kind : Addition → ElementKind
  | vertex .. => .vertex
  | edge .. => .edge

/-- The label that was given. -/
def label : Addition → Option String
  | vertex label _ _ => label
  | edge label _ _ _ _ => label

/-- The id that was given. -/
def id : Addition → Option String
  | vertex _ id _ => id
  | edge _ id _ _ _ => id

/-- The properties that were given. -/
def properties : Addition → List (String × RawValue)
  | vertex _ _ properties => properties
  | edge _ _ _ _ properties => properties

/-- The ends of an edge. -/
def ends : Addition → Option (ElementId × ElementId)
  | vertex .. => none
  | edge _ _ source target _ => some (source, target)

/-- Add the element. -/
def run (graph : Graph) : Addition → GraphAction Store Element
  | vertex label id properties => do
      let v ← graph.addVertex label id properties
      pure (.vertex v)
  | edge label id source target properties => do
      let e ← graph.addEdge label id source target properties
      pure (.edge e)

/-- Check what was given. -/
def draft (graph : Graph) (a : Addition) : Result Draft := do
  let (id, label) ← graph.newElement a.kind a.label a.id
  let properties ← Graph.classifyProperties graph.config [] a.properties
  let ends ← Graph.endpointFields a.ends
  pure ⟨id, label, properties, ends⟩

/-- The element of a draft, once it is stored. -/
def element (a : Addition) (draft : Draft) (assigned : DocumentMeta) : Element :=
  let id := draft.id.withKey assigned.key
  match a with
  | vertex .. => .vertex ⟨id, draft.label, some assigned.revision, draft.properties, []⟩
  | edge _ _ source target _ =>
      .edge ⟨id, draft.label, some assigned.revision, source, target, draft.properties⟩

/-- Adding an element is drafting it and inserting the document of the draft. -/
theorem run_eq (graph : Graph) (a : Addition) :
    a.run graph = (do
      let draft ← result (a.draft graph)
      let assigned ← Graph.insertElement graph.config draft.id (.object (draft.fields graph.config))
      pure (a.element draft assigned)) := by
  cases a with
  | vertex label id properties =>
      simp only [run, draft, Graph.addVertex, Graph.document, GraphAction.result_bind, bind_assoc]
      rfl
  | edge label id source target properties =>
      simp only [run, draft, Graph.addEdge, Graph.document, GraphAction.result_bind, bind_assoc]
      rfl

theorem draft_eq_ok {graph : Graph} {a : Addition} {draft : Draft}
    (h : a.draft graph = .ok draft) :
    graph.newElement a.kind a.label a.id = .ok (draft.id, draft.label) ∧
      Graph.classifyProperties graph.config [] a.properties = .ok draft.properties ∧
      Graph.endpointFields a.ends = .ok draft.ends := by
  obtain ⟨⟨id, label⟩, hmade, h⟩ := Outcome.bind_eq_ok_iff.mp h
  obtain ⟨properties, hproperties, h⟩ := Outcome.bind_eq_ok_iff.mp h
  obtain ⟨ends, hends, h⟩ := Outcome.bind_eq_ok_iff.mp h
  cases h
  exact ⟨hmade, hproperties, hends⟩

/-- An element that was added: its draft, what the store assigned to it, and the document that
was written. -/
structure Adds (graph : Graph) (a : Addition) (draft : Draft) (assigned : DocumentMeta)
    (s s' : Store) : Prop where
  drafted : a.draft graph = .ok draft
  id : assigned.id = Store.documentId draft.id.physicalCollection assigned.key
  key : assigned.key = (s.keyFor (draft.fields graph.config)).1
  free : s.document? draft.id.physicalCollection assigned.key = none
  writes : Store.Writes draft.id.physicalCollection assigned.key
    (.object (Store.stamped (draft.fields graph.config) assigned)) s s'

/-- What a successful addition did. -/
theorem adds_of_run {graph : Graph} {a : Addition} {element : Element} {s s' : Store}
    (h : a.run graph s = (.ok element, s')) :
    ∃ draft assigned, Adds graph a draft assigned s s' ∧ element = a.element draft assigned := by
  rw [run_eq, Graph.bind_eq_ok_iff] at h
  obtain ⟨draft, mid, hresult, h⟩ := h
  obtain ⟨hdraft, rfl⟩ := Graph.result_eq_ok_iff.mp hresult
  obtain ⟨assigned, final, hinsert, h⟩ := Graph.bind_eq_ok_iff.mp h
  cases h
  unfold Graph.insertElement at hinsert
  split at hinsert
  · next given store hstored =>
    cases hinsert
    obtain ⟨hid, hkey, hfree, hwrites⟩ := Store.of_insert hstored
    exact ⟨draft, assigned, ⟨hdraft, hid, hkey, hfree, hwrites⟩, rfl⟩
  · split at hinsert
    · cases hinsert
    · cases hinsert

/-- A failed addition changes no document. -/
theorem document?_of_run_error {graph : Graph} {a : Addition} {e : GraphError} {s s' : Store}
    (h : a.run graph s = (.error e, s')) (c key : String) :
    s'.document? c key = s.document? c key := by
  rw [run_eq, GraphAction.bind_apply, result] at h
  cases hdraft : a.draft graph with
  | error fault =>
      rw [hdraft] at h
      cases h
      rfl
  | ok draft =>
      rw [hdraft] at h
      dsimp only at h
      rw [GraphAction.bind_apply] at h
      split at h
      · cases h
      · next fault final hinsert =>
        cases h
        unfold Graph.insertElement at hinsert
        split at hinsert
        · cases hinsert
        · next hfailed =>
          have hsame := Store.document?_of_insert_error hfailed c key
          split at hinsert
          · cases hinsert
            exact hsame
          · cases hinsert
            exact hsame

end Addition

/-- The identity and the label of a new element. -/
theorem newElement_eq_ok {graph : Graph} {kind : ElementKind} {label text : Option String}
    {id : ElementId} {given : String} (h : graph.newElement kind label text = .ok (id, given)) :
    graph.config.createId kind label text = .ok id ∧ given = label.getD (defaultLabel kind) := by
  obtain ⟨made, hmade, h⟩ := Outcome.bind_eq_ok_iff.mp h
  split at h
  · cases h
    exact ⟨hmade, rfl⟩
  · cases h

/-- No property has a reserved name. -/
def Unreserved (config : GraphConfig) (properties : Entries Value) : Prop :=
  ∀ key ∈ Entries.keys properties, config.isReserved key = false

/-- Properties that were classified. -/
structure Classified (config : GraphConfig) (properties : Entries Value) : Prop where
  ascending : Entries.Ascending properties
  unreserved : ∀ key ∈ Entries.keys properties, config.isReserved key = false
  finite : Value.AllFiniteEntries properties

theorem Classified.insert {config : GraphConfig} {properties : Entries Value} {key : String}
    {value : Value} (h : Classified config properties) (hkey : config.isReserved key = false)
    (hvalue : value.AllFinite) : Classified config (Entries.insert key value properties) where
  ascending := Entries.ascending_insert h.ascending
  unreserved := by
    intro other hother
    rcases Entries.mem_keys_insert.mp hother with rfl | hother
    · exact hkey
    · exact h.unreserved other hother
  finite := Value.allFiniteEntries_insert hvalue h.finite

/-- Property values are finite. -/
theorem Graph.allFinite_of_classified {raw : RawValue} {value : Value}
    (h : Graph.classified raw = .ok value) : value.AllFinite := by
  unfold Graph.classified at h
  split at h
  · next hof =>
    cases h
    exact Value.allFinite_of hof
  · cases h

theorem classified_of_classifyProperties {config : GraphConfig} :
    ∀ {raws : List (String × RawValue)} {before properties : Entries Value},
      Classified config before →
      Graph.classifyProperties config before raws = .ok properties → Classified config properties
  | [], _, _, hbefore, h => by
      cases h
      exact hbefore
  | (key, raw) :: raws, before, properties, hbefore, h => by
      rw [Graph.classifyProperties] at h
      split at h
      · cases h
      · next hkey =>
        split at h
        · cases h
        · next value hvalue =>
          rw [Bool.not_eq_true] at hkey
          exact classified_of_classifyProperties
            (hbefore.insert hkey (Graph.allFinite_of_classified hvalue)) h

/-- The ends of an edge are stored by the ids of their documents. -/
theorem endpointFields_eq_ok {ends : Option (ElementId × ElementId)}
    {fields : List (String × Json)} (h : Graph.endpointFields ends = .ok fields) :
    (ends = none ∧ fields = []) ∨
      ∃ source target from' to', ends = some (source, target) ∧
        source.documentId? = some from' ∧ target.documentId? = some to' ∧
        fields = [("_from", .string from'), ("_to", .string to')] := by
  have hid : ∀ {id : ElementId} {text : String}, Graph.endpointId id = .ok text →
      id.documentId? = some text := by
    intro id text hend
    unfold Graph.endpointId at hend
    split at hend
    · next hdocument =>
      cases hend
      exact hdocument
    · cases hend
  cases ends with
  | none =>
      cases h
      exact .inl ⟨rfl, rfl⟩
  | some pair =>
      obtain ⟨source, target⟩ := pair
      obtain ⟨from', hfrom, h⟩ := Outcome.bind_eq_ok_iff.mp h
      obtain ⟨to', hto, h⟩ := Outcome.bind_eq_ok_iff.mp h
      cases h
      exact .inr ⟨source, target, from', to', rfl, hid hfrom, hid hto, rfl⟩

namespace Draft

variable {config : GraphConfig} {draft : Draft}

/-- The fields of a document that are no properties. -/
def ownFields (config : GraphConfig) (draft : Draft) : List (String × Json) :=
  Graph.keyFields draft.id ++ (config.labelField, .string draft.label) :: draft.ends

/-- A reserved field is none of the properties. -/
theorem find?_fields (h : Unreserved config draft.properties) {key : String}
    (hkey : config.isReserved key = true) :
    Entries.find? key (draft.fields config) =
      Entries.find? key (Entries.ofList (draft.ownFields config)) := by
  have hnot : key ∉ Entries.keys (Value.toJsonFields draft.properties) := by
    rw [Value.keys_toJsonFields]
    intro hmem
    rw [h key hmem] at hkey
    cases hkey
  exact (congrArg _ (Entries.insertAll_append _ _ _)).trans
    (Entries.find?_insertAll_of_not_mem hnot)

theorem ofList_ownFields :
    Entries.ofList (draft.ownFields config) =
      Entries.insertAll draft.ends (Entries.insert config.labelField (.string draft.label)
        (Entries.ofList (Graph.keyFields draft.id))) :=
  Entries.insertAll_append _ _ _

/-- The label field holds the label, if no end is stored in it. -/
theorem find?_labelField (h : Unreserved config draft.properties)
    (hends : config.labelField ∉ Entries.keys draft.ends) :
    Entries.find? config.labelField (draft.fields config) = some (.string draft.label) := by
  have hreserved : config.isReserved config.labelField = true := by simp [GraphConfig.isReserved]
  rw [find?_fields h hreserved, ofList_ownFields, Entries.find?_insertAll_of_not_mem hends,
    Entries.find?_insert_self]

/-- A reserved field that is neither the label field nor an end can only be the key. -/
theorem find?_reserved (h : Unreserved config draft.properties) {key : String}
    (hreserved : config.isReserved key = true) (hlabel : key ≠ config.labelField)
    (hends : key ∉ Entries.keys draft.ends) :
    Entries.find? key (draft.fields config) =
      Entries.find? key (Entries.ofList (Graph.keyFields draft.id)) := by
  rw [find?_fields h hreserved, ofList_ownFields, Entries.find?_insertAll_of_not_mem hends,
    Entries.find?_insert_of_ne _ _ hlabel]

theorem find?_keyFields (id : ElementId) (key : String) :
    Entries.find? key (Entries.ofList (Graph.keyFields id)) =
      if key = "_key" then id.key.map Json.string else none := by
  unfold Graph.keyFields
  cases id.key with
  | none => simp [Entries.ofList, Entries.find?]
  | some text => simp [Entries.ofList, Entries.insert, Entries.find?, eq_comm]

/-- The fields of a document that are no properties have reserved names. -/
theorem isReserved_of_mem_ownFields
    (hends : ∀ key ∈ Entries.keys draft.ends, config.isReserved key = true) {key : String}
    (hkey : key ∈ Entries.keys (draft.ownFields config)) : config.isReserved key = true := by
  rw [ownFields, Entries.keys, List.map_append, List.mem_append, List.map_cons,
    List.mem_cons] at hkey
  rcases hkey with hkey | rfl | hkey
  · unfold Graph.keyFields at hkey
    split at hkey
    · rw [List.mem_singleton.mp hkey]
      simp [GraphConfig.isReserved, reservedFields]
    · cases hkey
  · simp [GraphConfig.isReserved]
  · exact hends key hkey

/-- Of the fields of a draft, those that are not reserved are the properties. -/
theorem kept_fields (h : Classified config draft.properties)
    (hends : ∀ key ∈ Entries.keys draft.ends, config.isReserved key = true) :
    Entries.kept (fun key => !config.isReserved key) (draft.fields config) =
      Value.toJsonFields draft.properties := by
  refine Entries.kept_ofList_append ?_ ?_ ?_
  · intro key hkey
    rw [isReserved_of_mem_ownFields hends hkey]
    rfl
  · intro key hkey
    rw [Value.keys_toJsonFields] at hkey
    rw [h.unreserved key hkey]
    rfl
  · rw [Entries.Ascending, Value.keys_toJsonFields]
    exact h.ascending

end Draft
end Pushdown
