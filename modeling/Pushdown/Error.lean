import Pushdown.Element
import Pushdown.Predicate.Basic

/-!
# Errors

What can go wrong when a graph is configured, a traversal is planned, or a plan is run,
each by its cause, and the text of every cause.

## Operations

* `GraphError.message`: the text of an error;
* `GraphError.isValidation`: whether it is found before anything is run.
-/

namespace Pushdown

/-- What is wrong with an id. -/
inductive IdFault where
  | character (id : String) (c : Char)
  | partCharacter (part : String) (c : Char)
  | keyCharacter (key : String) (c : Char)
  | empty
  /-- The id does not start with a collection; the label is the expected one. -/
  | noCollection (id : String) (label : Option String)
  | noKey (id : String) (label : Option String)
  | malformedDocument (id : String)
  /-- A value that is neither a text nor an integer. -/
  | notAnId (value : Value)
  | keyless (id : String)
  | keylessElement (id : ElementId)
  | keylessEndpoint (id : ElementId)

namespace IdFault

/-- The label an id should start with, or a place for one. -/
def labelText (label : Option String) : String := label.getD "<label>"

/-- A complaint about a character. -/
def characterText (what text : String) (c : Char) : String :=
  what ++ " (" ++ text ++ ") contains invalid character '" ++ c.toString ++ "'"

/-- The text of a fault. -/
def message : IdFault → String
  | character id c => characterText "id" id c
  | partCharacter part c => characterText "id part" part c
  | keyCharacter key c => characterText "key" key c
  | empty => "id must not be empty"
  | noCollection id label =>
      "id (" ++ id ++ ") must start with label prefix " ++ labelText label ++ "/"
  | noKey id label => "id (" ++ id ++ ") must have format " ++ labelText label ++ "/<key>"
  | malformedDocument id => "malformed document id (" ++ id ++ ")"
  | notAnId value =>
      "id (" ++ value.render ++ ") must be a string or integer, got " ++ value.typeName
  | keyless id => "id (" ++ id ++ ") has no key"
  | keylessElement id => "element " ++ id.display ++ " has no key"
  | keylessEndpoint id => "edge endpoint " ++ id.display ++ " has no key"

end IdFault

/-- What is wrong with a predicate. -/
inductive PredicateFault where
  /-- The operand is no list; its type is named where it is known. -/
  | notAList (op : Operator) (typeName : Option String)
  | notAText (op : Operator) (typeName : Option String)
  | badPattern (op : Operator) (pattern : String)

namespace PredicateFault

/-- The type that was met instead. -/
def gotText : Option String → String
  | some typeName => ", got " ++ typeName
  | none => ""

/-- The text of a fault. -/
def message : PredicateFault → String
  | notAList op typeName => op.name ++ " expects a list operand" ++ gotText typeName
  | notAText op typeName => op.name ++ " expects a string operand" ++ gotText typeName
  | badPattern op pattern => op.name ++ " pattern " ++ Inspected.inspect pattern

end PredicateFault

/-- What is wrong with a configuration. -/
inductive ConfigFault where
  | blankDatabase
  | blankGraph
  | emptyLabelField
  | manyVertexCollections
  | manyEdgeCollections
  | emptyName (what : String)
  | nameCharacter (what name : String) (c : Char)
  | edgeDefinition (text : String)
deriving DecidableEq

/-- The text of a fault. -/
def ConfigFault.message : ConfigFault → String
  | blankDatabase => "database name must not be blank"
  | blankGraph => "graph name must not be blank"
  | emptyLabelField => "label field must not be empty"
  | manyVertexCollections => "simple graph must have at most one vertex collection"
  | manyEdgeCollections => "simple graph must have at most one edge collection"
  | emptyName what => what ++ " must not be empty"
  | nameCharacter what name c => IdFault.characterText what name c
  | edgeDefinition text => "invalid edge definition: " ++ text

/-- What is wrong with a graph variable. -/
inductive VariableFault where
  | emptyKey
  | reservedKey (key : String)
  | nullValue (key : String)
  | listMember (key typeName : String)
  | mapValue (key : String)
deriving DecidableEq

/-- The text of a fault. -/
def VariableFault.message : VariableFault → String
  | emptyKey => "key can not be empty"
  | reservedKey key => "key can not be a reserved key: " ++ key
  | nullValue key => "value of " ++ key ++ " can not be null"
  | listMember key typeName =>
      "list value of " ++ key ++ " may only hold non-null scalars, got " ++ typeName
  | mapValue key => "value of " ++ key ++ " has unsupported type map"

/-- What is wrong with a stored document. -/
inductive DecodeFault where
  | notAnElement (row : Json)
  | notAText (field : String)
  | badId (field : String) (fault : IdFault)
  | badProperty (name : String) (fault : ValueError)
  | metadataNotAnObject
  | metadataOf (property typeName : String)
  | variablesNotAnObject (document : Json)
  | variablesField (field : String)

/-- The text of a fault. -/
def DecodeFault.message : DecodeFault → String
  | notAnElement row => "expected a graph element, got " ++ row.compact
  | notAText field => "field " ++ field ++ " must be a string"
  | badId field fault => "field " ++ field ++ ": " ++ fault.message
  | badProperty name fault => "property " ++ name ++ ": " ++ fault.message
  | metadataNotAnObject => "field _meta must be an object"
  | metadataOf property typeName =>
      "metadata of " ++ property ++ " must be an object, got " ++ typeName
  | variablesNotAnObject document =>
      "variables document is not an object: " ++ document.compact
  | variablesField field => "variables document has no string field " ++ field

/-- Kinds of failures of a store. -/
inductive StoreErrorKind where
  | notFound
  | conflict
  | uniqueConstraint
  | syntaxError
  | connection
  | other
deriving DecidableEq

namespace StoreErrorKind

/-- The text of a kind. -/
def text : StoreErrorKind → String
  | notFound => "not found"
  | conflict => "conflict"
  | uniqueConstraint => "unique constraint violated"
  | syntaxError => "syntax error"
  | connection => "connection error"
  | other => "error"

/-- The name of a kind in documents. -/
def name : StoreErrorKind → String
  | notFound => "not_found"
  | conflict => "conflict"
  | uniqueConstraint => "unique_constraint"
  | syntaxError => "syntax"
  | connection => "connection"
  | other => "other"

/-- The kind of a name. -/
def ofName? (text : String) : Option StoreErrorKind :=
  [notFound, conflict, uniqueConstraint, syntaxError, connection, other].find? fun kind =>
    kind.name = text

end StoreErrorKind

/-- A failure reported by a store. -/
structure StoreError where
  kind : StoreErrorKind
  message : String
deriving DecidableEq

namespace StoreError

/-- The text of a failure. -/
def display (e : StoreError) : String := e.kind.text ++ ": " ++ e.message

/-- Whether something was missing. -/
def isNotFound (e : StoreError) : Bool := e.kind == .notFound

end StoreError

/-- An error of a graph. -/
inductive GraphError where
  | invalidId (fault : IdFault)
  | labelMismatch (label collection : String)
  | reservedField (key : String)
  | unsupportedOperator (name : String)
  | unsupportedAccessor (name : String)
  | invalidPredicate (fault : PredicateFault)
  | invalidConfig (fault : ConfigFault)
  | unknownCollection (name : String)
  | invalidVariable (fault : VariableFault)
  | incompatibleVersion (stored library : String)
  | invalidVersion (text : String)
  | unsupportedValue (fault : ValueError)
  | elementExists (id : String)
  | noCollections
  | decode (fault : DecodeFault)
  | execution (fault : StoreError)
  /-- A configuration text that is no configuration. -/
  | serialization

namespace GraphError

/-- The text of an error. -/
def message : GraphError → String
  | invalidId fault => fault.message
  | labelMismatch label collection =>
      "Mismatching label: [" ++ label ++ "] and collection: [" ++ collection ++ "]"
  | reservedField key => "property key '" ++ key ++ "' is reserved"
  | unsupportedOperator name => "unsupported predicate operator: " ++ name
  | unsupportedAccessor name => "unsupported predicate operator: accessor " ++ name
  | invalidPredicate fault => "invalid predicate: " ++ fault.message
  | invalidConfig fault => "invalid graph configuration: " ++ fault.message
  | unknownCollection name => "collection '" ++ name ++ "' is not part of the graph"
  | invalidVariable fault => "invalid graph variable: " ++ fault.message
  | incompatibleVersion stored library =>
      "Existing graph has more recent version [" ++ stored ++ "] than library version [" ++
        library ++ "]."
  | invalidVersion text => "Invalid version: " ++ text
  | unsupportedValue fault => fault.message
  | elementExists id => "Document with id already exists: " ++ id
  | noCollections => "cannot assemble a scan over zero collections"
  | decode fault => "decode error: " ++ fault.message
  | execution fault => "execution error (" ++ fault.kind.text ++ "): " ++ fault.message
  | serialization => "serialization error"

/-- Whether an error is found when a traversal is planned or an element checked. -/
def isValidation : GraphError → Bool
  | invalidId _ | labelMismatch _ _ | reservedField _ | unsupportedOperator _
  | unsupportedAccessor _ | invalidPredicate _ | invalidConfig _ | unknownCollection _
  | invalidVariable _ => true
  | _ => false

end GraphError

/-- A result that may be an error of a graph. -/
abbrev Result (α : Type) := Except GraphError α

end Pushdown
