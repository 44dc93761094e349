import Pushdown.Store.Memory

/-!
# A store with scripted failures

A store in memory that fails when it is told to: a query text can yield given rows and
failures one by one, and the next call of an operation can fail.

## Operations

* `ScriptedStore.stream`: the rows and failures of a query text;
* `ScriptedStore.breakNext`: fail the next call of an operation.
-/

namespace Pushdown

/-- The operations of a store. -/
inductive StoreOperation where
  | query
  | insert
  | replace
  | delete
  | get
  | ensureCollection
deriving DecidableEq

/-- A store in memory with a script. -/
structure ScriptedStore where
  store : Store
  /-- Rows and failures by query text; such a query is not sent to the store. -/
  streams : Entries (List StoreRow)
  /-- Failures waiting for a call, at most one for each operation. -/
  broken : List (StoreOperation × StoreError)

namespace ScriptedStore

/-- The store without anything in it. -/
def empty : ScriptedStore := ⟨.empty, [], []⟩

/-- Yield rows and failures for a query text. -/
def stream (text : String) (rows : List StoreRow) (s : ScriptedStore) : ScriptedStore :=
  { s with streams := Entries.insert text rows s.streams }

/-- Fail the next call of an operation. -/
def breakNext (operation : StoreOperation) (e : StoreError) (s : ScriptedStore) :
    ScriptedStore :=
  { s with broken := (operation, e) :: s.broken.filter fun entry => entry.1 != operation }

/-- Act on the store in memory. -/
def onStore {α : Type} (action : StoreAction Store α) : StoreAction ScriptedStore α := fun s =>
  let (result, store) := action s.store
  (result, { s with store := store })

/-- Fail if a failure is waiting for the operation, else go on. -/
def guarded {α : Type} (operation : StoreOperation) (action : StoreAction ScriptedStore α) :
    StoreAction ScriptedStore α := fun s =>
  match s.broken.find? fun entry => entry.1 = operation with
  | some (_, e) =>
      (.error e, { s with broken := s.broken.filter fun entry => entry.1 != operation })
  | none => action s

/-- The scripted rows of a query, or the answer of the store. -/
def query (query : Query) : StoreAction ScriptedStore (List StoreRow) := fun s =>
  match Entries.find? query.text s.streams with
  | some rows => (.ok rows, s)
  | none => onStore (Store.query query) s

instance : Client ScriptedStore where
  query q := guarded .query (query q)
  insert collection document := guarded .insert (onStore (Store.insert collection document))
  replace collection key document :=
    guarded .replace (onStore (Store.replace collection key document))
  delete collection key := guarded .delete (onStore (Store.delete collection key))
  get collection key := guarded .get (onStore (Client.get collection key))
  ensureCollection collection :=
    guarded .ensureCollection (onStore (Store.ensureCollection collection))

end ScriptedStore
end Pushdown
