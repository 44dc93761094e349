import Pushdown.Plan.Query

/-!
# Clients of a document store

What a graph needs from a store: queries, and reading and writing documents. Collections
go by their physical names. Every operation gives its answer and the state it leaves.

## Operations

* `Client`: the operations of a store with states of a type.
-/

namespace Pushdown

/-- What the store assigned to a written document. -/
structure DocumentMeta where
  id : String
  key : String
  revision : String
deriving DecidableEq

/-- A row of an answer, or the failure that stands in its place. -/
abbrev StoreRow := Except StoreError Json

/-- An operation of a store with states `σ`. -/
abbrev StoreAction (σ α : Type) := σ → Except StoreError α × σ

/-- The operations of a store. -/
class Client (σ : Type) where
  /-- The rows of a query. -/
  query : Query → StoreAction σ (List StoreRow)
  /-- Insert a document, which gets a key if it has none. -/
  insert : String → Json → StoreAction σ DocumentMeta
  /-- Replace the document stored under a key. -/
  replace : String → String → Json → StoreAction σ DocumentMeta
  /-- Delete the document stored under a key. -/
  delete : String → String → StoreAction σ Unit
  /-- The document stored under a key, if there is one. -/
  get : String → String → StoreAction σ (Option Json)
  /-- Create a collection unless it exists. -/
  ensureCollection : String → StoreAction σ Unit

end Pushdown
