import Pushdown.Identity
import Pushdown.Proofs.Outcome
import Pushdown.Proofs.Text.Splitting

/-!
# Identities and their texts

An identity of a graph has two texts: the id of its document and its id in traversals. Both
are read back to the identity, because neither collections nor keys contain a separator.

## Results

* `GraphConfig.keyedIn_of_parseDocumentId`: what the id of a document says;
* `ElementId.eq_of_documentId?`: document ids tell the identities of a graph apart;
* `GraphConfig.parseId_eq_ok_iff`: an id is read as the identity whose id it is.
-/

namespace Pushdown

/-- A part of a stored id: a text without separators. -/
structure IdPart (text : String) : Prop where
  noGraphSeparator : graphSeparator ∉ text.toList
  noKeySeparator : keySeparator ∉ text.toList

/-- An identity of a graph with a key. -/
structure KeyedIn (config : GraphConfig) (id : ElementId) (key : String) : Prop where
  graph : id.graph = config.graph
  hasKey : id.key = some key
  collection_part : IdPart id.collection
  key_part : IdPart key

theorem firstOf?_eq_none_iff {characters : List Char} {text : String} :
    firstOf? characters text = none ↔ ∀ c ∈ characters, c ∉ text.toList := by
  simp [firstOf?]

theorem idPart_iff_firstOf? {part : String} :
    IdPart part ↔ firstOf? [graphSeparator, keySeparator] part = none := by
  rw [firstOf?_eq_none_iff, List.forall_mem_cons, List.forall_mem_singleton]
  exact ⟨fun h => ⟨h.noGraphSeparator, h.noKeySeparator⟩, fun h => ⟨h.1, h.2⟩⟩

theorem validateIdPart_eq_ok {part : String} : validateIdPart part = .ok () ↔ IdPart part := by
  rw [idPart_iff_firstOf?]
  unfold validateIdPart
  split
  · next hc => simp [hc]
  · next hnone => simp [hnone]

theorem toList_join (left right : String) (separator : Char) :
    (left ++ separator.toString ++ right).toList = left.toList ++ separator :: right.toList := by
  simp [String.toList_append]

namespace ElementId

/-- Logical names that give one physical name are one name. -/
theorem physicalName_inj {graph a b : String} (h : physicalName graph a = physicalName graph b) :
    a = b := by
  have hlist := congrArg String.toList h
  rw [physicalName, physicalName, toList_join, toList_join, List.append_cancel_left_eq,
    List.cons.injEq] at hlist
  exact String.toList_inj.mp hlist.2

/-- Document ids tell the identities of a graph apart. -/
theorem eq_of_documentId? {config : GraphConfig} {a b : ElementId} {key key' text : String}
    (ha : KeyedIn config a key) (hb : KeyedIn config b key')
    (hdoc : a.documentId? = some text) (hdoc' : b.documentId? = some text) : a = b := by
  obtain ⟨graph, collection, k⟩ := a
  obtain ⟨graph', collection', k'⟩ := b
  obtain ⟨rfl, rfl, hpart, -⟩ := ha
  obtain ⟨hgraph, rfl, hpart', -⟩ := hb
  cases hgraph
  have hlist := congrArg String.toList (Option.some.inj (hdoc.trans hdoc'.symm))
  simp only [physicalCollection, physicalName, toList_join, List.append_assoc,
    List.cons_append, List.append_cancel_left_eq, List.cons.injEq, true_and] at hlist
  obtain ⟨hcollection, hkey⟩ :=
    Text.cut_inj hpart.noKeySeparator hpart'.noKeySeparator hlist
  obtain rfl : collection = collection' := String.toList_inj.mp hcollection
  rw [String.toList_inj.mp hkey]

end ElementId

namespace GraphType

theorem splitId_eq_ok_iff {id collection key : String} {label : Option String} :
    splitId id label = .ok (collection, key) ↔
      collection ≠ "" ∧ keySeparator ∉ collection.toList ∧
        id = collection ++ keySeparator.toString ++ key := by
  have hlist : id = collection ++ keySeparator.toString ++ key ↔
      id.toList = collection.toList ++ keySeparator :: key.toList := by
    rw [← toList_join, String.toList_inj]
  rw [hlist]
  unfold splitId
  split
  · next c before after hcut =>
    rw [Text.splitAt?_eq_some_iff] at hcut
    constructor
    · intro h
      cases h
      rw [String.toList_ofList, String.toList_ofList]
      exact ⟨fun h => by simpa using congrArg String.toList h, hcut⟩
    · rintro ⟨-, hnot, htext⟩
      rw [hcut.2] at htext
      obtain ⟨hbefore, hafter⟩ := Text.cut_inj hcut.1 hnot htext
      rw [hbefore, hafter, String.ofList_toList, String.ofList_toList]
  · next hcut =>
    constructor
    · intro h
      cases h
    · rintro ⟨hne, hnot, htext⟩
      cases hlist : collection.toList with
      | nil => exact (hne (String.toList_eq_nil_iff.mp hlist)).elim
      | cons c before =>
          rw [hlist] at hnot htext
          exact (hcut c before key.toList (Text.splitAt?_eq_some_iff.mpr ⟨hnot, htext⟩)).elim

/-- An id with a collection and a key is read as these two. -/
theorem validatePairId_eq_ok_iff {id collection key : String} :
    validatePairId id none = .ok (collection, key) ↔
      collection ≠ "" ∧ key ≠ "" ∧ IdPart collection ∧ IdPart key ∧
        id = collection ++ keySeparator.toString ++ key := by
  have hmem : ∀ c k : String, id = c ++ keySeparator.toString ++ k →
      (graphSeparator ∈ id.toList ↔ graphSeparator ∈ c.toList ∨ graphSeparator ∈ k.toList) := by
    rintro c k rfl
    rw [toList_join, List.mem_append, List.mem_cons]
    simp [graphSeparator, keySeparator]
  unfold validatePairId
  dsimp only
  constructor
  · intro h
    split at h
    · cases h
    · next hgraph =>
      obtain ⟨⟨c, k⟩, hsplit, h⟩ := Outcome.bind_eq_ok_iff.mp h
      dsimp only at h
      split at h
      · cases h
      · next hempty =>
        split at h
        · cases h
        · next hkey =>
          cases h
          obtain ⟨hne, hnot, hid⟩ := splitId_eq_ok_iff.mp hsplit
          rw [List.contains_iff_mem, hmem _ _ hid, not_or] at hgraph
          rw [List.contains_iff_mem] at hkey
          rw [String.isEmpty_iff] at hempty
          exact ⟨hne, hempty, ⟨hgraph.1, hnot⟩, ⟨hgraph.2, hkey⟩, hid⟩
  · rintro ⟨hne, hempty, hcollection, hkey, hid⟩
    have hgraph : ¬ id.toList.contains graphSeparator = true := by
      rw [List.contains_iff_mem, hmem _ _ hid, not_or]
      exact ⟨hcollection.noGraphSeparator, hkey.noGraphSeparator⟩
    have hsplit : splitId id none = .ok (collection, key) :=
      splitId_eq_ok_iff.mpr ⟨hne, hcollection.noKeySeparator, hid⟩
    rw [if_neg hgraph, hsplit]
    have hkeyless : ¬ key.isEmpty = true := by
      rw [String.isEmpty_iff]
      exact hempty
    have hnot : ¬ key.toList.contains keySeparator = true := by
      rw [List.contains_iff_mem]
      exact hkey.noKeySeparator
    simp only [bind, Except.bind, if_neg hkeyless, if_neg hnot]
    rfl

/-- An id that is a key is read as it is. -/
theorem validateKeyId_eq_ok_iff {id : String} :
    validateKeyId id = .ok () ↔ id ≠ "" ∧ IdPart id := by
  have hpart : IdPart id ↔ firstOf? [keySeparator, graphSeparator] id = none := by
    rw [idPart_iff_firstOf?, firstOf?_eq_none_iff, firstOf?_eq_none_iff]
    simp [and_comm]
  unfold validateKeyId
  rw [hpart]
  split
  · next hc => simp [hc]
  · next hnone =>
    split
    · next hempty => simp [String.isEmpty_iff.mp hempty]
    · next hempty =>
      rw [String.isEmpty_iff] at hempty
      simp [hempty, hnone]

/-- The collections that ids of a graph type can name. -/
def Names (type : GraphType) (default collection : String) : Prop :=
  match type with
  | simple => collection = default
  | complex => collection ≠ ""

/-- An id is decoded to the collection and the key that it was made of. -/
theorem decode_eq_ok_iff {type : GraphType} {text default collection key : String}
    (graph : String) :
    type.decode text none default = .ok (collection, key) ∧ IdPart collection ∧ IdPart key ↔
      IdPart collection ∧ IdPart key ∧ key ≠ "" ∧ type.Names default collection ∧
        type.encode ⟨graph, collection, some key⟩ = some text := by
  cases type with
  | simple =>
      simp only [decode, encode, Names]
      constructor
      · rintro ⟨h, hcollection, hkey⟩
        obtain ⟨⟨⟩, hvalid, h⟩ := Outcome.bind_eq_ok_iff.mp h
        cases h
        exact ⟨hcollection, hkey, (validateKeyId_eq_ok_iff.mp hvalid).1, rfl, rfl⟩
      · rintro ⟨hcollection, hkey, hne, rfl, htext⟩
        cases htext
        refine ⟨Outcome.bind_eq_ok_iff.mpr ⟨(), ?_, rfl⟩, hcollection, hkey⟩
        exact validateKeyId_eq_ok_iff.mpr ⟨hne, hkey⟩
  | complex =>
      simp only [decode, encode, Names, Option.map_some, Option.some.injEq]
      constructor
      · rintro ⟨h, hcollection, hkey⟩
        obtain ⟨⟨c, k⟩, hvalid, h⟩ := Outcome.bind_eq_ok_iff.mp h
        cases h
        obtain ⟨hne, hempty, -, -, htext⟩ := validatePairId_eq_ok_iff.mp hvalid
        exact ⟨hcollection, hkey, hempty, hne, htext.symm⟩
      · rintro ⟨hcollection, hkey, hempty, hne, htext⟩
        have hvalid : validatePairId text none = .ok (collection, key) :=
          validatePairId_eq_ok_iff.mpr ⟨hne, hempty, hcollection, hkey, htext.symm⟩
        exact ⟨Outcome.bind_eq_ok_iff.mpr ⟨_, hvalid, rfl⟩, hcollection, hkey⟩

end GraphType

namespace GraphConfig

variable {config : GraphConfig} {kind : ElementKind}

/-- What the id of a document says: an identity of the graph. Its separator stands between
the name of the collection in the store and the key. -/
theorem keyedIn_of_parseDocumentId {text : String} {id : ElementId}
    (h : config.parseDocumentId text = .ok id) :
    ∃ key, KeyedIn config id key ∧ id.documentId? = some text ∧
      keySeparator ∉ id.physicalCollection.toList := by
  unfold parseDocumentId at h
  split at h
  · cases h
  · next collection key hsplit =>
    split at h
    · cases h
    · next hcollection =>
      split at h
      · cases h
      · next hkey =>
        cases h
        refine ⟨key, ⟨rfl, rfl, idPart_iff_firstOf?.mpr hcollection,
          idPart_iff_firstOf?.mpr hkey⟩, ?_⟩
        obtain ⟨⟨physical, rest⟩, hcut, hsplit⟩ := Option.bind_eq_some_iff.mp hsplit
        obtain ⟨tail, hgraph, hsplit⟩ := Option.bind_eq_some_iff.mp hsplit
        obtain ⟨name, hname, hsplit⟩ := Option.bind_eq_some_iff.mp hsplit
        obtain ⟨hphysical, htext⟩ := Text.splitAt?_eq_some_iff.mp hcut
        rw [Text.dropStart?_eq_some_iff] at hgraph hname
        split at hsplit
        · cases hsplit
        · cases hsplit
          have hphys : (physicalName config.graph (String.ofList name)).toList = physical := by
            rw [physicalName, toList_join, String.toList_ofList, hgraph, hname]
            rfl
          refine ⟨congrArg some (String.toList_inj.mp ?_), hphys ▸ hphysical⟩
          rw [toList_join, ElementId.physicalCollection, hphys, String.toList_ofList, htext]

/-- An id is read as the identity whose id in traversals it is. -/
theorem parseId_eq_ok_iff {text : String} {id : ElementId} :
    config.parseId kind text = .ok id ↔
      ∃ key, KeyedIn config id key ∧ key ≠ "" ∧
        config.type.Names (config.defaultCollection kind) id.collection ∧
        config.encodeId id = some text := by
  unfold parseId createId encodeId
  dsimp only
  constructor
  · intro h
    obtain ⟨⟨collection, key⟩, hdecode, h⟩ := Outcome.bind_eq_ok_iff.mp h
    obtain ⟨⟨⟩, hcollection, h⟩ := Outcome.bind_eq_ok_iff.mp h
    obtain ⟨⟨⟩, hkey, h⟩ := Outcome.bind_eq_ok_iff.mp h
    cases h
    rw [validateIdPart_eq_ok] at hcollection hkey
    obtain ⟨-, -, hne, hnames, hencode⟩ :=
      (GraphType.decode_eq_ok_iff config.graph).mp ⟨hdecode, hcollection, hkey⟩
    exact ⟨key, ⟨rfl, rfl, hcollection, hkey⟩, hne, hnames, hencode⟩
  · rintro ⟨key, hkeyed, hne, hnames, hencode⟩
    obtain ⟨graph, collection, k⟩ := id
    obtain ⟨rfl, rfl, hcollection, hkey⟩ := hkeyed
    obtain ⟨hdecode, -, -⟩ :=
      (GraphType.decode_eq_ok_iff config.graph).mpr ⟨hcollection, hkey, hne, hnames, hencode⟩
    refine Outcome.bind_eq_ok_iff.mpr ⟨_, hdecode, ?_⟩
    refine Outcome.bind_eq_ok_iff.mpr ⟨(), validateIdPart_eq_ok.mpr hcollection, ?_⟩
    exact Outcome.bind_eq_ok_iff.mpr ⟨(), validateIdPart_eq_ok.mpr hkey, rfl⟩

/-- An identity with a key has an id in traversals. -/
theorem encodeId_of_key {id : ElementId} {key : String} (h : id.key = some key) :
    ∃ text, config.encodeId id = some text := by
  unfold encodeId GraphType.encode
  rw [h]
  cases config.type with
  | simple => exact ⟨_, rfl⟩
  | complex => exact ⟨_, rfl⟩

/-- Ids in traversals tell identities apart; those of a simple graph, within a collection. -/
theorem eq_of_encodeId {a b : ElementId} {key key' text : String} (ha : KeyedIn config a key)
    (hb : KeyedIn config b key')
    (hcollection : config.type = .simple → a.collection = b.collection)
    (hencode : config.encodeId a = some text) (hencode' : config.encodeId b = some text) :
    a = b := by
  obtain ⟨graph, collection, k⟩ := a
  obtain ⟨graph', collection', k'⟩ := b
  obtain ⟨rfl, rfl, hpart, -⟩ := ha
  obtain ⟨rfl, rfl, hpart', -⟩ := hb
  unfold encodeId at hencode hencode'
  cases htype : config.type with
  | simple =>
      rw [htype] at hencode hencode'
      obtain rfl : collection = collection' := hcollection htype
      cases hencode
      cases hencode'
      rfl
  | complex =>
      rw [htype] at hencode hencode'
      have hlist := congrArg String.toList (Option.some.inj (hencode.trans hencode'.symm))
      rw [toList_join, toList_join] at hlist
      obtain ⟨hname, hkey⟩ := Text.cut_inj hpart.noKeySeparator hpart'.noKeySeparator hlist
      obtain rfl : collection = collection' := String.toList_inj.mp hname
      rw [String.toList_inj.mp hkey]

end GraphConfig
end Pushdown
