import Pushdown.Graph.Basic
import Pushdown.Language.Compile
import Pushdown.Plan.Absorption
import Pushdown.Report.Format
import Pushdown.Report.Table
import Pushdown.Serial.Step
import Pushdown.Serial.Store

/-!
# Explanations

What becomes of a written traversal: its steps with filters pushed down, the query of
its leading scan, and how exact every pushed filter is.

## Operations

* `Graph.explain`: the explanation of a traversal;
* `explain`: the same for a configuration, over an empty store;
* `Explanation.text`, `Explanation.toJson`: its forms.
-/

namespace Pushdown

/-- How the leading scan of a traversal is executed. -/
structure ScanExplanation where
  kind : ElementKind
  ids : List String
  collections : List String
  /-- None if no collection is left, and so nothing is sent. -/
  query : Option Query
  support : Support
  predicates : List PlannedPredicate

/-- What becomes of a traversal. -/
structure Explanation where
  /-- The steps with filters pushed down. -/
  steps : List Step
  /-- The scan at their start, if there is one. -/
  scan : Option ScanExplanation

/-- Why there is no explanation. -/
inductive ExplainError where
  | language (source : String) (fault : Language.LanguageError)
  | graph (fault : GraphError)

/-- The text of a failure; a fault of the source is shown in it. -/
def ExplainError.message : ExplainError → String
  | language source fault => fault.diagnostic.format source
  | graph fault => fault.message

/-- The explanation of a scan. -/
def GraphConfig.explainScan (config : GraphConfig) (scan : Scan) : Result ScanExplanation :=
  if scan.collections.isEmpty then .ok ⟨scan.kind, scan.ids, [], none, .none, []⟩
  else
    (config.planScan scan).map fun plan =>
      ⟨scan.kind, scan.ids, scan.collections, some plan.query, plan.support, plan.predicates⟩

/-- The explanation of steps with filters pushed down. -/
def GraphConfig.explainSteps (config : GraphConfig) : List Step → Result Explanation
  | .scan scan :: steps =>
      (config.explainScan scan).map fun explained => ⟨.scan scan :: steps, some explained⟩
  | steps => .ok ⟨steps, none⟩

/-- The explanation of a written traversal. -/
def Graph.explain (graph : Graph) (source : String) : Except ExplainError Explanation :=
  match Language.parseAndCompile source with
  | .error fault => .error (.language source fault)
  | .ok steps =>
      match graph.config.pushDown steps >>= graph.config.explainSteps with
      | .error fault => .error (.graph fault)
      | .ok explanation => .ok explanation

/-- The explanation of a written traversal for a configuration, whose graph is opened on a
given store. -/
def explain {σ : Type} [Client σ] (store : σ) (config : GraphConfig) (source : String) :
    Except ExplainError Explanation :=
  match Graph.opened config store with
  | (.error fault, _) => .error (.graph fault)
  | (.ok graph, _) => graph.explain source

namespace ScanExplanation

/-- The table of the pushed filters. -/
def predicateTable (scan : ScanExplanation) : Table :=
  ⟨["Predicate", "Pushed filter", "Support"],
    scan.predicates.map fun planned =>
      [planned.container.display, planned.filter.display, planned.support.name]⟩

/-- The paragraphs about a scan that sends a query. -/
def queryParagraphs (scan : ScanExplanation) (query : Query) : List String :=
  ["Query (" ++ scan.kind.name ++ ")\n" ++ query.text] ++
    (if query.bindings.isEmpty then []
      else ["Bind variables\n" ++ (Json.object query.bindings).pretty]) ++
    (if scan.predicates.isEmpty then []
      else ["Predicates\n" ++ scan.predicateTable.render]) ++
    ["Overall support: " ++ scan.support.name]

/-- The paragraphs about a scan. -/
def paragraphs (scan : ScanExplanation) : List String :=
  match scan.query with
  | none => ["No eligible collections; nothing is queried"]
  | some query => scan.queryParagraphs query

/-- A pushed filter as a document. -/
def predicateJson (planned : PlannedPredicate) : Json :=
  .object [("filter", Serial.ofOptionalText (planned.filter.render Filter.shownVariable)),
    ("predicate", planned.container.toJson), ("support", planned.support.toJson)]

/-- The document of a scan. -/
def toJson (scan : ScanExplanation) : Json :=
  .object [("collections", Json.strings scan.collections), ("ids", Json.strings scan.ids),
    ("kind", scan.kind.toJson), ("predicates", .array (scan.predicates.map predicateJson)),
    ("query", (scan.query.map Query.toJson).getD .null), ("support", scan.support.toJson)]

end ScanExplanation

namespace Explanation

/-- The table of the steps. -/
def stepTable (explanation : Explanation) : Table :=
  ⟨["#", "Step"],
    explanation.steps.zipIdx.map fun (step, i) => [toString i, step.display]⟩

/-- The paragraphs of an explanation. -/
def paragraphs (explanation : Explanation) : List String :=
  ("Steps\n" ++ explanation.stepTable.render) ::
    match explanation.scan with
    | none => ["No leading selection; nothing is pushed down"]
    | some scan => scan.paragraphs

/-- The document of an explanation. -/
def toJson (explanation : Explanation) : Json :=
  .object [("rendered_steps", Json.strings (explanation.steps.map Step.display)),
    ("scan", (explanation.scan.map ScanExplanation.toJson).getD .null),
    ("steps", .array (explanation.steps.map Step.toJson))]

/-- The text of an explanation in a form. -/
def text (explanation : Explanation) : ReportFormat → String
  | .table => "\n\n".intercalate explanation.paragraphs
  | .json => explanation.toJson.pretty

end Explanation
end Pushdown
