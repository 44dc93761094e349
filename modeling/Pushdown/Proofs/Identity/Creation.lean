import Pushdown.Proofs.Identity.RoundTrip

/-!
# New identities

The identity of a new element is made of a label and an id, both of which may be missing. It
belongs to the graph and its parts hold no separator; a key that it has is a name. In a complex
graph a label that is given is the collection.

## Results

* `GraphConfig.parts_of_createId`: the parts of a new identity;
* `GraphConfig.collection_of_createId`: its collection in a complex graph.
-/

namespace Pushdown

namespace GraphType

/-- An id that is checked against a label has it as its collection. -/
theorem of_validatePairId {id collection key : String} {label : Option String}
    (h : validatePairId id label = .ok (collection, key)) :
    key ≠ "" ∧ ∀ given, label = some given → collection = given := by
  unfold validatePairId at h
  dsimp only at h
  split at h
  · cases h
  · obtain ⟨⟨c, k⟩, -, h⟩ := Outcome.bind_eq_ok_iff.mp h
    dsimp only at h
    split at h
    · next given =>
      split at h
      · cases h
      · next hgiven =>
        split at h
        · cases h
        · next hempty =>
          split at h
          · cases h
          · cases h
            rw [String.isEmpty_iff] at hempty
            rw [Decidable.not_not] at hgiven
            exact ⟨hempty, fun other hother => by rw [hgiven, Option.some.inj hother]⟩
    · split at h
      · cases h
      · next hempty =>
        split at h
        · cases h
        · cases h
          rw [String.isEmpty_iff] at hempty
          exact ⟨hempty, fun other hother => by cases hother⟩

/-- The key that an id is decoded to is not empty. In a complex graph the collection is the
label, if there is one. -/
theorem of_decode {type : GraphType} {text default collection key : String}
    {label : Option String} (h : type.decode text label default = .ok (collection, key)) :
    key ≠ "" ∧ (type = .complex → ∀ given, label = some given → collection = given) := by
  unfold decode at h
  cases type with
  | simple =>
      obtain ⟨⟨⟩, hvalid, h⟩ := Outcome.bind_eq_ok_iff.mp h
      cases h
      exact ⟨(validateKeyId_eq_ok_iff.mp hvalid).1, fun htype => by cases htype⟩
  | complex =>
      obtain ⟨⟨c, k⟩, hvalid, h⟩ := Outcome.bind_eq_ok_iff.mp h
      obtain ⟨inferred, hinferred, h⟩ := Outcome.bind_eq_ok_iff.mp h
      cases h
      obtain ⟨hkey, hlabel⟩ := of_validatePairId hvalid
      refine ⟨hkey, fun _ given hgiven => ?_⟩
      subst hgiven
      rw [inferCollection, if_pos (hlabel given rfl)] at hinferred
      cases hinferred
      exact hlabel given rfl

end GraphType

namespace GraphConfig

variable {raw config : GraphConfig} {kind : ElementKind} {label text : Option String}
  {id : ElementId}

/-- An identity is made of a decoded id or, without one, of a collection alone. -/
theorem createId_cases (h : config.createId kind label text = .ok id) :
    (∃ given collection key, text = some given ∧
      config.type.decode given label (config.defaultCollection kind) = .ok (collection, key) ∧
      IdPart collection ∧ IdPart key ∧ id = ⟨config.graph, collection, some key⟩) ∨
    (text = none ∧ ∃ collection,
      config.type.inferCollection none label (config.defaultCollection kind) = .ok collection ∧
      IdPart collection ∧ id = ⟨config.graph, collection, none⟩) := by
  -- a label is checked first, and what follows does not depend on whether there is one
  cases text with
  | some given =>
      have hmade : (do
          let cut ← config.type.decode given label (config.defaultCollection kind)
          validateIdPart cut.1
          validateIdPart cut.2
          pure ⟨config.graph, cut.1, some cut.2⟩) = (.ok id : Result ElementId) := by
        cases label with
        | some label =>
            obtain ⟨⟨⟩, -, hmade⟩ := Outcome.bind_eq_ok_iff.mp h
            exact hmade
        | none => exact h
      obtain ⟨⟨collection, key⟩, hdecode, hmade⟩ := Outcome.bind_eq_ok_iff.mp hmade
      obtain ⟨⟨⟩, hcollection, hmade⟩ := Outcome.bind_eq_ok_iff.mp hmade
      obtain ⟨⟨⟩, hkey, hmade⟩ := Outcome.bind_eq_ok_iff.mp hmade
      cases hmade
      exact .inl ⟨given, collection, key, rfl, hdecode, validateIdPart_eq_ok.mp hcollection,
        validateIdPart_eq_ok.mp hkey, rfl⟩
  | none =>
      have hmade : (do
          let collection ←
            config.type.inferCollection none label (config.defaultCollection kind)
          validateIdPart collection
          pure ⟨config.graph, collection, none⟩) = (.ok id : Result ElementId) := by
        cases label with
        | some label =>
            obtain ⟨⟨⟩, -, hmade⟩ := Outcome.bind_eq_ok_iff.mp h
            exact hmade
        | none => exact h
      obtain ⟨collection, hinferred, hmade⟩ := Outcome.bind_eq_ok_iff.mp hmade
      obtain ⟨⟨⟩, hcollection, hmade⟩ := Outcome.bind_eq_ok_iff.mp hmade
      cases hmade
      exact .inr ⟨rfl, collection, hinferred, validateIdPart_eq_ok.mp hcollection, rfl⟩

/-- A new identity is one of the graph, and its parts hold no separator. -/
theorem parts_of_createId (h : config.createId kind label text = .ok id) :
    id.graph = config.graph ∧ IdPart id.collection ∧ ∀ key, id.key = some key → IsName key := by
  rcases createId_cases h with
    ⟨given, collection, key, -, hdecode, hcollection, hkey, rfl⟩ |
      ⟨-, collection, -, hcollection, rfl⟩
  · refine ⟨rfl, hcollection, fun other hother => ?_⟩
    obtain rfl := Option.some.inj hother
    exact ⟨(GraphType.of_decode hdecode).1, hkey⟩
  · exact ⟨rfl, hcollection, fun other hother => (by cases hother)⟩

/-- In a complex graph, a label is the collection of a new identity. Without label and id, the
default is. -/
theorem collection_of_createId (htype : config.type = .complex)
    (h : config.createId kind label text = .ok id) :
    (∀ given, label = some given → id.collection = given) ∧
      (label = none → text = none → id.collection = defaultLabel kind) := by
  rcases createId_cases h with
    ⟨given, collection, key, rfl, hdecode, -, -, rfl⟩ | ⟨rfl, collection, hinferred, -, rfl⟩
  · refine ⟨(GraphType.of_decode hdecode).2 htype, fun _ hnone => ?_⟩
    cases hnone
  · rw [htype] at hinferred
    cases label with
    | some given =>
        cases hinferred
        refine ⟨fun other hother => Option.some.inj hother, fun hnone => ?_⟩
        cases hnone
    | none =>
        cases hinferred
        refine ⟨fun _ hnone => (by cases hnone), fun _ _ => ?_⟩
        rw [defaultCollection, htype]

end GraphConfig

end Pushdown
