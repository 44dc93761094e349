import Pushdown.Config.Basic

/-!
# Graph variables

Every graph has a document of variables, stored under the name of the graph. It also
holds the version of the library that opened the graph last.

## Operations

* `GraphVariables.ofDocument`, `GraphVariables.toDocument`;
* `checkVariable`: whether a value can be kept under a key.
-/

namespace Pushdown

/-- The collection of the variables of all graphs. -/
def variablesCollection : String := "TINKERPOP-GRAPH-VARIABLES"

/-- The field of the version. -/
def versionField : String := "_version"

/-- The variables of a graph. -/
structure GraphVariables where
  /-- The document key, which is the name of the graph. -/
  key : String
  version : String
  values : Entries Value

namespace GraphVariables

/-- A text that must be in a field. -/
def textField (fields : Entries Json) (name : String) : Result String :=
  match (Entries.find? name fields).bind Json.asString? with
  | some text => .ok text
  | none => .error (.decode (.variablesField name))

/-- The values of the fields that are not reserved. -/
def readValues (config : GraphConfig) : Entries Json → Result (Entries Value)
  | [] => .ok []
  | (key, json) :: fields =>
      if config.isReserved key then readValues config fields
      else
        match Value.ofJson? json with
        | .error fault => .error (.unsupportedValue fault)
        | .ok value =>
            match readValues config fields with
            | .error e => .error e
            | .ok values => .ok ((key, value) :: values)

/-- The variables of a document. -/
def ofDocument (config : GraphConfig) : Json → Result GraphVariables
  | .object fields => do
      let key ← textField fields "_key"
      let version ← textField fields versionField
      let values ← readValues config fields
      pure ⟨key, version, values⟩
  | json => .error (.decode (.variablesNotAnObject json))

/-- The document of the variables. -/
def toDocument (vars : GraphVariables) : Json :=
  .object
    (vars.values.foldl
      (fun fields (key, value) => Entries.insert key value.toJson fields)
      [("_key", .string vars.key), (versionField, .string vars.version)])

/-- The names of the variables. -/
def keys (vars : GraphVariables) : List String := Entries.keys vars.values

/-- Set a variable. -/
def set (vars : GraphVariables) (key : String) (value : Value) : GraphVariables :=
  { vars with values := Entries.insert key value vars.values }

/-- Remove a variable. -/
def remove (vars : GraphVariables) (key : String) : GraphVariables :=
  { vars with values := Entries.erase key vars.values }

end GraphVariables

/-- The first member that no list variable may hold. -/
def firstUnstorable? (items : List Value) : Option Value :=
  items.find? fun item =>
    match item with
    | .null | .list _ | .map _ => true
    | _ => false

/-- Check that a value can be kept under a key. -/
def checkVariable (config : GraphConfig) (key : String) (value : Value) : Result Unit :=
  if key.isEmpty then .error (.invalidVariable .emptyKey)
  else if config.isReserved key then .error (.invalidVariable (.reservedKey key))
  else
    match value with
    | .null => .error (.invalidVariable (.nullValue key))
    | .list items =>
        match firstUnstorable? items with
        | some item => .error (.invalidVariable (.listMember key item.typeName))
        | none => .ok ()
    | .map _ => .error (.invalidVariable (.mapValue key))
    | _ => .ok ()

end Pushdown
