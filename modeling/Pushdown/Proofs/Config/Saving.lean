import Pushdown.Config.Document
import Pushdown.Proofs.Config.Normalization
import Pushdown.Proofs.Json.Spelling
import Pushdown.Proofs.Serial.Lists

/-!
# Saving and loading configurations

The document of a configuration has one field for each setting, and its text may have them in any
order. Loading sets one after the other, so it restores every setting but, perhaps, the edge
definitions: those come back as what is read from their texts.

## Results

* `GraphConfig.setFields?_perm`: what the fields of a document restore, in any order;
* `GraphConfig.ofText_spelled`: what is loaded from a text of the document;
* `GraphConfig.saved_iff`: which validated configurations are loaded as they were saved;
* `GraphConfig.not_saved_of_comma`: one that is not.
-/

namespace Pushdown
namespace GraphConfig

variable {config raw : GraphConfig} {definitions : List EdgeDefinition}

/-- The fields of the document of a configuration. -/
def fields (config : GraphConfig) : List (String × Json) :=
  [("dbName", .string config.database),
    ("edgeDefinitions", Json.strings (config.edgeDefinitions.map EdgeDefinition.text)),
    ("edges", Json.strings config.edges),
    ("enableDataDefinition", .bool config.dataDefinition),
    ("graphName", .string config.graph),
    ("graphType", .string config.type.name),
    ("labelField", .string config.labelField),
    ("orphanCollections", Json.strings config.orphans),
    ("vertices", Json.strings config.vertices)]

theorem toJson_eq (config : GraphConfig) : config.toJson = .object config.fields := rfl

/-- A configuration of which some fields were restored. -/
def restored (config : GraphConfig) (given : List String) : GraphConfig where
  database := if "dbName" ∈ given then config.database else initial.database
  graph := if "graphName" ∈ given then config.graph else initial.graph
  type := if "graphType" ∈ given then config.type else initial.type
  labelField := if "labelField" ∈ given then config.labelField else initial.labelField
  vertices := if "vertices" ∈ given then config.vertices else initial.vertices
  edges := if "edges" ∈ given then config.edges else initial.edges
  edgeDefinitions :=
    if "edgeDefinitions" ∈ given then config.edgeDefinitions else initial.edgeDefinitions
  orphans := if "orphanCollections" ∈ given then config.orphans else initial.orphans
  dataDefinition :=
    if "enableDataDefinition" ∈ given then config.dataDefinition else initial.dataDefinition

theorem restored_nil (config : GraphConfig) : config.restored [] = initial := by
  simp [restored]

theorem restored_of_subset {given : List String} (h : ∀ name ∈ fieldNames, name ∈ given) :
    config.restored given = config := by
  simp only [fieldNames, List.forall_mem_cons] at h
  simp [restored, h]

theorem readNames?_strings (names : Names) : readNames? (Json.strings names) = some names := by
  rw [readNames?, Serial.textList?_strings, Option.map_some, Names.ofList_members]

theorem ofJson?_name (type : GraphType) : GraphType.ofJson? (.string type.name) = some type := by
  cases type <;> rfl

/-- What is read from the texts of some edge definitions. -/
def readTexts? (definitions : List EdgeDefinition) : Option (List EdgeDefinition) :=
  readDefinitions? (Json.strings (definitions.map EdgeDefinition.text))

/-- Edge definitions are read back exactly if each of them is told apart in its text. -/
theorem readTexts?_eq_some_iff :
    readTexts? definitions = some definitions ↔
      ∀ definition ∈ definitions, definition.Plain := by
  have hread : readTexts? definitions = Serial.readAll EdgeDefinition.ofJson?
      (definitions.map fun definition => .string definition.text) := by
    rw [readTexts?, Json.strings, List.map_map]
    rfl
  rw [hread, Serial.readAll_map_eq_some_iff]
  exact forall₂_congr fun _ _ => EdgeDefinition.read?_text_iff

/-- A field of a document restores its setting, whatever was restored before. -/
theorem setField?_restored (hread : readTexts? config.edgeDefinitions = some definitions)
    (given : List String)
    {field : String × Json} (h : field ∈ config.fields) :
    ({ config with edgeDefinitions := definitions }.restored given).setField? field.1 field.2 =
      some ({ config with edgeDefinitions := definitions }.restored (field.1 :: given)) := by
  rw [readTexts?] at hread
  simp only [fields, List.mem_cons, List.not_mem_nil, or_false] at h
  rcases h with rfl | rfl | rfl | rfl | rfl | rfl | rfl | rfl | rfl
  · simp [setField?, restored, Json.asString?]
  · simp [setField?, restored, hread]
  · simp [setField?, restored, readNames?_strings]
  · simp [setField?, restored, readBool?]
  · simp [setField?, restored, Json.asString?]
  · simp [setField?, restored, ofJson?_name]
  · simp [setField?, restored, Json.asString?]
  · simp [setField?, restored, readNames?_strings]
  · simp [setField?, restored, readNames?_strings]

theorem fieldNames_of_mem {field : String × Json} (h : field ∈ config.fields) :
    fieldNames.contains field.1 = true := by
  simp only [fields, List.mem_cons, List.not_mem_nil, or_false] at h
  rcases h with rfl | rfl | rfl | rfl | rfl | rfl | rfl | rfl | rfl <;> rfl

-- By induction on the fields that are left, with the names of those that were restored.
theorem setFields?_restored (hread : readTexts? config.edgeDefinitions = some definitions) :
    ∀ {written : List (String × Json)} {given : List String},
      (∀ field ∈ written, field ∈ config.fields) → (written.map Prod.fst ++ given).Nodup →
      setFields? ({ config with edgeDefinitions := definitions }.restored given) given written =
        some ({ config with edgeDefinitions := definitions }.restored
          ((written.map Prod.fst).reverse ++ given))
  | [], _, _, _ => rfl
  | field :: written, given, hfields, hnodup => by
      obtain ⟨name, json⟩ := field
      have hfield := hfields (name, json) List.mem_cons_self
      have hnew : given.contains name = false := by
        rw [List.map_cons, List.cons_append, List.nodup_cons, List.mem_append, not_or] at hnodup
        simpa using hnodup.1.2
      have hrest : (written.map Prod.fst ++ name :: given).Nodup := by
        rw [List.perm_middle.nodup_iff]
        exact hnodup
      rw [setFields?, hnew, setField?_restored hread given hfield, fieldNames_of_mem hfield]
      dsimp only
      rw [if_neg Bool.false_ne_true, if_pos rfl,
        setFields?_restored hread
          (fun other hother => hfields other (List.mem_cons_of_mem _ hother)) hrest,
        List.map_cons, List.reverse_cons, List.append_assoc]
      rfl

/-- A field that cannot be set spoils the document. -/
theorem setFields?_eq_none : ∀ {written : List (String × Json)} {config : GraphConfig}
    {given : List String},
    (∃ field ∈ written, ∀ config : GraphConfig, config.setField? field.1 field.2 = none) →
      setFields? config given written = none
  | [], _, _, ⟨_, hmem, _⟩ => absurd hmem List.not_mem_nil
  | (name, json) :: written, config, given, ⟨field, hmem, hnone⟩ => by
      rw [setFields?]
      split
      · rfl
      · rcases List.mem_cons.mp hmem with rfl | hmem
        · rw [hnone]
        · split
          · exact setFields?_eq_none ⟨field, hmem, hnone⟩
          · rfl

/-- The fields of a document restore all settings in any order. The edge definitions come back as
what is read from their texts. -/
theorem setFields?_perm {written : List (String × Json)} (hperm : written.Perm config.fields) :
    setFields? initial [] written =
      (readTexts? config.edgeDefinitions).map fun definitions =>
        { config with edgeDefinitions := definitions } := by
  have hnames : (written.map Prod.fst).Perm (config.fields.map Prod.fst) := hperm.map Prod.fst
  have hkeys : config.fields.map Prod.fst =
      ["dbName", "edgeDefinitions", "edges", "enableDataDefinition", "graphName", "graphType",
        "labelField", "orphanCollections", "vertices"] := rfl
  rw [hkeys] at hnames
  cases hread : readTexts? config.edgeDefinitions with
  | some definitions =>
      have hnodup : (written.map Prod.fst ++ []).Nodup := by
        rw [List.append_nil, hnames.nodup_iff]
        decide
      have hall : ∀ name ∈ fieldNames, name ∈ (written.map Prod.fst).reverse ++ [] := by
        intro name hname
        rw [List.append_nil, List.mem_reverse, hnames.mem_iff]
        revert name
        decide
      have hset := setFields?_restored hread (fun field hfield => hperm.mem_iff.mp hfield)
        hnodup
      rw [restored_nil, restored_of_subset hall] at hset
      exact hset
  | none =>
      refine setFields?_eq_none ⟨("edgeDefinitions",
        Json.strings (config.edgeDefinitions.map EdgeDefinition.text)), ?_, fun other => ?_⟩
      · rw [hperm.mem_iff]
        simp [fields]
      · rw [readTexts?] at hread
        simp [setField?, hread]

/-- What is loaded from a text of the document. -/
theorem ofText_spelled {written : List (String × Json)} (hperm : written.Perm config.fields)
    {text : List Char}
    (hspells : Json.Spells Json.exactly (.object written) text) :
    ofText (String.ofList text) =
      match readTexts? config.edgeDefinitions with
      | some definitions => .ok { config with edgeDefinitions := definitions }
      | none => .error .serialization := by
  rw [ofText, Json.readAsWritten?, Json.readWith?_of_spells hspells, Option.bind_some, ofJson?,
    setFields?_perm hperm]
  cases readTexts? config.edgeDefinitions <;> rfl

theorem writable_perm {written : List (String × Json)} (hperm : written.Perm config.fields) :
    Json.Writable (.object written) := by
  rw [Json.Writable, Json.writableFields_iff]
  intro field hfield
  rw [hperm.mem_iff] at hfield
  simp only [fields, List.mem_cons, List.not_mem_nil, or_false] at hfield
  rcases hfield with rfl | rfl | rfl | rfl | rfl | rfl | rfl | rfl | rfl
  · trivial
  · exact Json.writable_strings _
  · exact Json.writable_strings _
  · trivial
  · trivial
  · trivial
  · trivial
  · exact Json.writable_strings _
  · exact Json.writable_strings _

theorem spells_perm {written : List (String × Json)} (hperm : written.Perm config.fields) :
    Json.Spells Json.exactly (.object written) (Json.object written).compact.toList ∧
      Json.Spells Json.exactly (.object written) (Json.object written).pretty.toList := by
  have hwritable := writable_perm hperm
  have hcompact := Json.spells_compact Json.rereads_exactly hwritable
  have hpretty := Json.spells_prettyAt Json.rereads_exactly 0 hwritable
  rw [Json.mapDoubles_id] at hcompact hpretty
  exact ⟨hcompact, hpretty⟩

/-- A configuration is loaded as it was saved exactly if its edge definitions are told apart in
their texts. -/
theorem ofText_eq_ok_iff {written : List (String × Json)} (hperm : written.Perm config.fields)
    {text : List Char}
    (hspells : Json.Spells Json.exactly (.object written) text) :
    ofText (String.ofList text) = .ok config ↔
      ∀ definition ∈ config.edgeDefinitions, definition.Plain := by
  rw [ofText_spelled hperm hspells, ← readTexts?_eq_some_iff]
  cases readTexts? config.edgeDefinitions with
  | none => simp
  | some definitions =>
      obtain ⟨database, graph, type, labelField, vertices, edges, own, orphans, enabled⟩ := config
      simp

/-- Of a configuration that was built and validated, the document is written with its fields in any
order, in one line or indented. The text is loaded as the configuration exactly if no name of its
edge definitions is taken for something else in their texts. Validating the configuration again
changes nothing. -/
theorem saved_iff (settings : List Setting) (hvalid : (built settings).validate = .ok config) :
    config.validate = .ok config ∧
      ∃ fields, config.toJson = .object fields ∧
        ∀ written : List (String × Json), written.Perm fields →
          (ofText (Json.object written).compact = .ok config ↔
            ∀ definition ∈ config.edgeDefinitions, definition.Plain) ∧
          (ofText (Json.object written).pretty = .ok config ↔
            ∀ definition ∈ config.edgeDefinitions, definition.Plain) := by
  refine ⟨validate_of_validate hvalid, config.fields, toJson_eq config, fun written hperm => ?_⟩
  obtain ⟨hspelled, hspelledPretty⟩ := spells_perm hperm
  have hcompact := ofText_eq_ok_iff hperm hspelled
  have hpretty := ofText_eq_ok_iff hperm hspelledPretty
  rw [String.ofList_toList] at hcompact hpretty
  exact ⟨hcompact, hpretty⟩

/-- The settings of a complex graph of persons and dogs. -/
def kennelSettings : List Setting :=
  [.graph "kennel", .graphType .complex, .definition "keeps" ["person"] ["dog"]]

theorem saved_iff_kennel :
    (built kennelSettings).validate = .ok kennel ∧ kennel.validate = .ok kennel ∧
      ofText kennel.toJson.compact = .ok kennel := by
  have hvalid : (built kennelSettings).validate = .ok kennel := rfl
  obtain ⟨hagain, fields, hfields, hsaved⟩ := saved_iff kennelSettings hvalid
  refine ⟨hvalid, hagain, ?_⟩
  rw [hfields]
  exact (hsaved fields (List.Perm.refl _)).1.mpr (by decide)

/-- A graph of one vertex collection, with a comma in its name. -/
def commaGraph : GraphConfig :=
  { initial with
    vertices := .single "a,b", edges := .single "edge"
    edgeDefinitions := [⟨"edge", .single "a,b", .single "a,b"⟩] }

/-- What its document says: the name is split in the text of the edge definition. -/
def splitGraph : GraphConfig :=
  { commaGraph with edgeDefinitions := [⟨"edge", .ofList ["a", "b"], .ofList ["a", "b"]⟩] }

theorem not_saved_of_comma :
    (built [.vertices "a,b"]).validate = .ok commaGraph ∧
      ofText commaGraph.toJson.compact = .ok splitGraph ∧ splitGraph ≠ commaGraph ∧
      splitGraph.validate = .error (.invalidConfig .manyVertexCollections) := by
  have hvalid : (built [.vertices "a,b"]).validate = .ok commaGraph := rfl
  have hperm : commaGraph.fields.Perm commaGraph.fields := List.Perm.refl _
  have hloaded := ofText_spelled hperm (spells_perm hperm).1
  rw [String.ofList_toList] at hloaded
  have hread : readTexts? commaGraph.edgeDefinitions = some splitGraph.edgeDefinitions := by
    decide
  rw [hread] at hloaded
  exact ⟨hvalid, hloaded, by decide, rfl⟩

end GraphConfig
end Pushdown
