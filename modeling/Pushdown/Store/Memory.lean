import Pushdown.Store.Client
import Pushdown.Text.Search

/-!
# A store in memory

Collections of documents by key. A query is recognized by parts of its text: a fetch by
ids, a neighborhood, or a scan of the collections it names; filters are not evaluated.
Any query text can be given a fixed answer.

## Operations

* `Store.query`, `Store.insert`, `Store.replace`, `Store.delete`, `Store.document?`;
* `Store.respond`, `Store.fail`: fixed answers.
-/

namespace Pushdown

/-- A store in memory. -/
structure Store where
  collections : Entries (Entries Json)
  /-- Fixed answers by query text. -/
  answers : Entries (Except StoreError (List Json))
  /-- The queries sent so far, last first. -/
  sent : List Query
  /-- The number of the last assigned key. -/
  lastKey : Nat
  /-- The number of the last revision. -/
  lastRevision : Nat

namespace Store

/-- The store without anything in it. -/
def empty : Store := ⟨[], [], [], 0, 0⟩

/-- The queries sent so far. -/
def queries (store : Store) : List Query := store.sent.reverse

/-- Answer a query text with rows. -/
def respond (text : String) (rows : List Json) (store : Store) : Store :=
  { store with answers := Entries.insert text (.ok rows) store.answers }

/-- Answer a query text with a failure. -/
def fail (text : String) (e : StoreError) (store : Store) : Store :=
  { store with answers := Entries.insert text (.error e) store.answers }

/-- Forget the queries sent so far. -/
def clearQueries (store : Store) : Store := { store with sent := [] }

/-- The documents of a collection. -/
def documents (store : Store) (collection : String) : Entries Json :=
  (Entries.find? collection store.collections).getD []

/-- The document stored under a key. -/
def document? (store : Store) (collection key : String) : Option Json :=
  Entries.find? key (store.documents collection)

/-- The number of documents of a collection. -/
def count (store : Store) (collection : String) : Nat := (store.documents collection).length

/-- A complaint about a query. -/
def badQuery (message : String) : StoreError := ⟨.syntaxError, message⟩

/-- The document of a document id. -/
def lookup? (store : Store) (id : String) : Option Json := do
  let (collection, key) ← Text.splitAt? keySeparator id.toList
  let documents ← Entries.find? (String.ofList collection) store.collections
  Entries.find? (String.ofList key) documents

/-- The texts bound to a variable; members that are no texts are passed over. -/
def boundTexts (bindings : Entries Json) (name : String) : Except StoreError (List String) :=
  match Entries.find? name bindings with
  | some (.array items) => .ok (items.filterMap Json.asString?)
  | _ => .error (badQuery ("bind variable @" ++ name ++ " must be an array"))

/-- The documents of the bound ids. -/
def fetch (store : Store) (bindings : Entries Json) : Except StoreError (List Json) :=
  (boundTexts bindings "ids").map fun ids => ids.filterMap store.lookup?

/-- The direction a neighborhood query names. -/
def directionOf? (text : String) : Option Direction :=
  [Direction.outgoing, .incoming, .both].find? fun direction =>
    Text.contains text (" " ++ direction.keyword ++ " ")

/-- Whether a neighborhood query returns edges. -/
def returnsEdges (text : String) : Bool :=
  "RETURN e".toList.reverse.isPrefixOf (text.toList.reverse.dropWhile Unicode.isBlank)

/-- The other end of an edge that is incident in a direction. -/
def otherEnd? (direction : Direction) (start : String) (edge : Json) : Option String :=
  let source := edge.stringField? "_from"
  let target := edge.stringField? "_to"
  if direction ≠ .incoming ∧ source = some start then target
  else if direction ≠ .outgoing ∧ target = some start then source
  else none

/-- The row of an edge of a neighborhood. -/
def neighborRow? (store : Store) (edges : Bool) (direction : Direction) (start : String)
    (edge : Json) : Option Json :=
  match otherEnd? direction start edge with
  | none => none
  | some other => if edges then some edge else store.lookup? other

/-- The elements one edge away. -/
def neighborhood (store : Store) (query : Query) : Except StoreError (List Json) :=
  match (Entries.find? "startId" query.bindings).bind Json.asString? with
  | none => .error (badQuery "missing bind variable @startId")
  | some start =>
      match boundTexts query.bindings "edgeCollections" with
      | .error e => .error e
      | .ok names =>
          match directionOf? query.text with
          | none => .error (badQuery "missing traversal direction")
          | some direction =>
              .ok (names.flatMap fun name =>
                (Entries.values (store.documents name)).filterMap
                  (store.neighborRow? (returnsEdges query.text) direction start))

/-- The text between a quote that follows `IN` and the next quote, from every place on.
The fuel bounds the number of names. -/
def scannedNames : Nat → List Char → List String
  | 0, _ => []
  | fuel + 1, text =>
      match Text.splitAtText? ['I', 'N', ' ', Filter.nameQuote] text with
      | none => []
      | some (_, rest) =>
          match Text.splitAt? Filter.nameQuote rest with
          | none => []
          | some (name, rest) => String.ofList name :: scannedNames fuel rest

/-- All documents of the collections a query names. -/
def scan (store : Store) (text : String) : Except StoreError (List Json) :=
  match scannedNames (text.length + 1) text.toList with
  | [] => .error (badQuery ("unsupported query: " ++ text))
  | names => .ok (names.flatMap fun name => Entries.values (store.documents name))

/-- The answer to a query. -/
def answer (store : Store) (query : Query) : Except StoreError (List Json) :=
  match Entries.find? query.text store.answers with
  | some fixed => fixed
  | none =>
      if Text.contains query.text "DOCUMENT(@ids)" then store.fetch query.bindings
      else if Text.contains query.text "@startId" then store.neighborhood query
      else store.scan query.text

/-- Send a query. -/
def query (query : Query) : StoreAction Store (List StoreRow) := fun store =>
  ((store.answer query).map fun rows => rows.map .ok, { store with sent := query :: store.sent })

/-- A document with what the store assigned to it. -/
def stamp (fields : Entries Json) (assigned : DocumentMeta) : Json :=
  .object
    (Entries.insert "_rev" (.string assigned.revision)
      (Entries.insert "_id" (.string assigned.id)
        (Entries.insert "_key" (.string assigned.key) fields)))

/-- The id of a document. -/
def documentId (collection key : String) : String :=
  collection ++ keySeparator.toString ++ key

/-- The fields of a document. -/
def fieldsOf (document : Json) : Except StoreError (Entries Json) :=
  match document with
  | .object fields => .ok fields
  | json => .error ⟨.other, "document must be an object, got " ++ json.compact⟩

/-- The key of a document, or the next key to assign. -/
def keyFor (store : Store) (fields : Entries Json) : String × Nat :=
  match (Entries.find? "_key" fields).bind Json.asString? with
  | some key => (key, store.lastKey)
  | none => (toString (store.lastKey + 1), store.lastKey + 1)

/-- What the store assigns to a document it writes next. -/
def assign (store : Store) (collection key : String) : DocumentMeta :=
  ⟨documentId collection key, key, toString (store.lastRevision + 1)⟩

/-- Insert a document. -/
def insert (collection : String) (document : Json) : StoreAction Store DocumentMeta :=
  fun store =>
    match fieldsOf document with
    | .error e => (.error e, store)
    | .ok fields =>
        let (key, lastKey) := store.keyFor fields
        let documents := store.documents collection
        let store := { store with
          lastKey := lastKey
          collections := Entries.insert collection documents store.collections }
        if Entries.contains key documents then
          (.error ⟨.uniqueConstraint, documentId collection key⟩, store)
        else
          let assigned := store.assign collection key
          (.ok assigned, { store with
            lastRevision := store.lastRevision + 1
            collections := Entries.insert collection
              (Entries.insert key (stamp fields assigned) documents) store.collections })

/-- Replace the document stored under a key. -/
def replace (collection key : String) (document : Json) : StoreAction Store DocumentMeta :=
  fun store =>
    match fieldsOf document with
    | .error e => (.error e, store)
    | .ok fields =>
        let documents := store.documents collection
        if Entries.contains key documents then
          let assigned := store.assign collection key
          (.ok assigned, { store with
            lastRevision := store.lastRevision + 1
            collections := Entries.insert collection
              (Entries.insert key (stamp fields assigned) documents) store.collections })
        else (.error ⟨.notFound, documentId collection key⟩, store)

/-- Delete the document stored under a key. -/
def delete (collection key : String) : StoreAction Store Unit := fun store =>
  let documents := store.documents collection
  if Entries.contains key documents then
    (.ok (), { store with
      collections := Entries.insert collection (Entries.erase key documents) store.collections })
  else (.error ⟨.notFound, documentId collection key⟩, store)

/-- Create a collection unless it exists. -/
def ensureCollection (collection : String) : StoreAction Store Unit := fun store =>
  (.ok (), { store with
    collections := Entries.insert collection (store.documents collection) store.collections })

instance : Client Store where
  query := query
  insert := insert
  replace := replace
  delete := delete
  get collection key store := (.ok (store.document? collection key), store)
  ensureCollection := ensureCollection

end Store
end Pushdown
