import Pushdown.Config.Document
import Pushdown.Report.Format
import Pushdown.Report.Table

/-!
# Reports on configurations

The settings of a configuration, its collections with their names in the store, and its
edge definitions.

## Operations

* `GraphConfig.report`: the text of a report.
-/

namespace Pushdown
namespace GraphConfig

/-- The table of the settings. -/
def settingTable (config : GraphConfig) : Table :=
  ⟨["Setting", "Value"],
    [["db_name", config.database], ["graph_name", config.graph],
      ["graph_type", config.type.title], ["label_field", config.labelField],
      ["enable_data_definition", Json.boolText config.dataDefinition]]⟩

/-- The rows of the collections of a kind. -/
def collectionRows (config : GraphConfig) (kind : ElementKind) : List (List String) :=
  (config.collections kind).members.map fun name =>
    [kind.name, name, config.physicalCollection name]

/-- The table of the collections. -/
def collectionTable (config : GraphConfig) : Table :=
  ⟨["Kind", "Collection", "Physical"],
    config.collectionRows .vertex ++ config.collectionRows .edge⟩

/-- The table of the edge definitions. -/
def definitionTable (config : GraphConfig) : Table :=
  ⟨["Edge", "From", "To"],
    config.edgeDefinitions.map fun definition =>
      [definition.collection, ", ".intercalate definition.sources,
        ", ".intercalate definition.targets]⟩

/-- The paragraphs of a report. -/
def reportParagraphs (config : GraphConfig) : List String :=
  [config.settingTable.render, config.collectionTable.render] ++
    if config.edgeDefinitions.isEmpty then [] else [config.definitionTable.render]

/-- The names in the store of the collections of a kind. -/
def physicalCollections (config : GraphConfig) (kind : ElementKind) : List String :=
  (config.collections kind).members.map config.physicalCollection

/-- The document of a report. -/
def reportJson (config : GraphConfig) : Json :=
  .object [("config", config.toJson),
    ("physical_collections",
      .object [("edges", Json.strings (config.physicalCollections .edge)),
        ("vertices", Json.strings (config.physicalCollections .vertex))])]

/-- The text of a report in a form. -/
def report (config : GraphConfig) : ReportFormat → String
  | .table => "\n\n".intercalate config.reportParagraphs
  | .json => config.reportJson.pretty

end GraphConfig
end Pushdown
