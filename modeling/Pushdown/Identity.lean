import Pushdown.Config.Basic

/-!
# Identities of elements

An element is stored under `<graph>_<collection>/<key>`. A traversal sees the key alone
in a simple graph, and `<collection>/<key>` in a complex one, where the collection is
the label.

## Operations

* `GraphType.encode`, `GraphType.decode`: ids of traversals;
* `GraphConfig.createId`, `GraphConfig.parseId`, `GraphConfig.parseDocumentId`;
* `GraphConfig.storedId`: what an id field of a document holds;
* `Predicate.onIdText`: an id predicate that compares texts.
-/

namespace Pushdown

/-- The first of some characters that a text contains. -/
def firstOf? (characters : List Char) (text : String) : Option Char :=
  characters.find? fun c => text.toList.contains c

/-- Check a part of a stored id. -/
def validateIdPart (part : String) : Result Unit :=
  match firstOf? [graphSeparator, keySeparator] part with
  | some c => .error (.invalidId (.partCharacter part c))
  | none => .ok ()

/-- The text of an id given as a text or an integer. -/
def idText : Value → Result String
  | .string text => .ok text
  | .int32 i => .ok (toString i.toInt)
  | .int64 i => .ok (toString i.toInt)
  | value => .error (.invalidId (.notAnId value))

namespace Value

mutual

/-- Integers as their decimal text, also in lists. -/
def integersAsText : Value → Value
  | int32 i => string (toString i.toInt)
  | int64 i => string (toString i.toInt)
  | list items => list (integersAsTextItems items)
  | value => value

def integersAsTextItems : List Value → List Value
  | [] => []
  | item :: items => integersAsText item :: integersAsTextItems items

end

end Value

namespace Predicate

mutual

/-- An id predicate with integer operands as texts, so that it compares encoded ids. -/
def onIdText : Predicate → Predicate
  | compare op operand => compare op operand.integersAsText
  | all members => all (onIdTextMembers members)
  | any members => any (onIdTextMembers members)

def onIdTextMembers : List Predicate → List Predicate
  | [] => []
  | p :: ps => onIdText p :: onIdTextMembers ps

end

end Predicate

namespace GraphType

/-- The document field that ids of traversals are compared with. -/
def idField : GraphType → String
  | simple => "_key"
  | complex => "_id"

/-- The collection that follows from a collection, a label and a default. -/
def inferCollection (type : GraphType) (collection label : Option String) (default : String) :
    Result String :=
  match type, collection, label with
  | simple, _, _ => .ok default
  | complex, some collection, some label =>
      if collection = label then .ok collection else .error (.labelMismatch label collection)
  | complex, some collection, none => .ok collection
  | complex, none, some label => .ok label
  | complex, none, none => .ok default

/-- Check that a label can be stored. -/
def validateLabel (type : GraphType) (label : String) : Result Unit :=
  match type with
  | simple => .ok ()
  | complex => validateIdPart label

/-- Check an id that is a key. -/
def validateKeyId (id : String) : Result Unit :=
  match firstOf? [keySeparator, graphSeparator] id with
  | some c => .error (.invalidId (.character id c))
  | none => if id.isEmpty then .error (.invalidId .empty) else .ok ()

/-- The collection and key of an id with both. -/
def splitId (id : String) (label : Option String) : Result (String × String) :=
  match Text.splitAt? keySeparator id.toList with
  | some (c :: collection, key) => .ok (String.ofList (c :: collection), String.ofList key)
  | _ => .error (.invalidId (.noCollection id label))

/-- Check an id with a collection and a key, and split it. -/
def validatePairId (id : String) (label : Option String) : Result (String × String) := do
  if id.toList.contains graphSeparator then
    throw (.invalidId (.character id graphSeparator))
  let (collection, key) ← splitId id label
  match label with
  | some label => if collection ≠ label then throw (.labelMismatch label collection)
  | none => pure ()
  if key.isEmpty then throw (.invalidId (.noKey id label))
  if key.toList.contains keySeparator then throw (.invalidId (.keyCharacter key keySeparator))
  pure (collection, key)

/-- Check the form of an id. -/
def validateId (type : GraphType) (id : String) (label : Option String) : Result Unit :=
  match type with
  | simple => validateKeyId id
  | complex => (validatePairId id label).map fun _ => ()

/-- The id of an element in traversals, once it has a key. -/
def encode (type : GraphType) (id : ElementId) : Option String :=
  match type with
  | simple => id.key
  | complex => id.key.map fun key => id.collection ++ keySeparator.toString ++ key

/-- The collection and key of an id. -/
def decode (type : GraphType) (id : String) (label : Option String) (default : String) :
    Result (String × String) :=
  match type with
  | simple => do
      validateKeyId id
      pure (default, id)
  | complex => do
      let (collection, key) ← validatePairId id label
      let collection ← inferCollection complex (some collection) label default
      pure (collection, key)

end GraphType

namespace GraphConfig

/-- The identity of an element given by a label and an id, both of which may be missing.
Without an id the store will assign the key. -/
def createId (config : GraphConfig) (kind : ElementKind) (label id : Option String) :
    Result ElementId := do
  let default := config.defaultCollection kind
  match label with
  | some label => config.type.validateLabel label
  | none => pure ()
  match id with
  | some id => do
      let (collection, key) ← config.type.decode id label default
      validateIdPart collection
      validateIdPart key
      pure ⟨config.graph, collection, some key⟩
  | none => do
      let collection ← config.type.inferCollection none label default
      validateIdPart collection
      pure ⟨config.graph, collection, none⟩

/-- The identity of an id in traversals. -/
def parseId (config : GraphConfig) (kind : ElementKind) (id : String) : Result ElementId :=
  config.createId kind none (some id)

/-- The collection and key of a document id of the graph. -/
def splitDocumentId? (config : GraphConfig) (id : String) : Option (String × String) := do
  let (physical, key) ← Text.splitAt? keySeparator id.toList
  let rest ← Text.dropStart? config.graph.toList physical
  let collection ← Text.dropStart? [graphSeparator] rest
  if collection.isEmpty || key.isEmpty then none
  else pure (String.ofList collection, String.ofList key)

/-- The identity of a document id. -/
def parseDocumentId (config : GraphConfig) (id : String) : Except IdFault ElementId :=
  match config.splitDocumentId? id with
  | none => .error (.malformedDocument id)
  | some (collection, key) =>
      match firstOf? [graphSeparator, keySeparator] collection with
      | some c => .error (.partCharacter collection c)
      | none =>
          match firstOf? [graphSeparator, keySeparator] key with
          | some c => .error (.partCharacter key c)
          | none => .ok ⟨config.graph, collection, some key⟩

/-- The id of an element in traversals. -/
def encodeId (config : GraphConfig) (id : ElementId) : Option String := config.type.encode id

/-- What the id field of a document holds for an id of a traversal. -/
def storedId (config : GraphConfig) (kind : ElementKind) (id : String) : Result String := do
  let element ← config.parseId kind id
  let stored := match config.type with
    | .simple => element.key
    | .complex => element.documentId?
  match stored with
  | some text => pure text
  | none => throw (.invalidId (.keyless id))

end GraphConfig
end Pushdown
