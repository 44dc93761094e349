import Pushdown.Config.Basic
import Pushdown.Proofs.Outcome

/-!
# Validated configurations

Validation fills in what a configuration leaves out. A simple graph ends up with one
collection of vertices and one of edges.

## Results

* `GraphConfig.validate_initial`: what validation makes of the configuration with nothing set;
* `GraphConfig.of_validate`: what validation comes to, the names that were checked among it;
* `GraphConfig.settings_of_validate`: the settings it keeps;
* `GraphConfig.collections_eq_single`: the collections of a simple graph.
-/

namespace Pushdown
namespace GraphConfig

/-- The configuration of a simple graph that nothing was set in. -/
def standard : GraphConfig where
  database := "_system"
  graph := "tinkerpop"
  type := .simple
  labelField := "_label"
  vertices := .single "vertex"
  edges := .single "edge"
  edgeDefinitions := [⟨"edge", .single "vertex", .single "vertex"⟩]
  orphans := .empty
  dataDefinition := false

theorem validate_initial : initial.validate = .ok standard := rfl

/-- The configuration of a complex graph of persons and dogs. -/
def kennel : GraphConfig where
  database := "_system"
  graph := "kennel"
  type := .complex
  labelField := "_label"
  vertices := .ofList ["dog", "person"]
  edges := .single "keeps"
  edgeDefinitions := [⟨"keeps", .single "person", .single "dog"⟩]
  orphans := .empty
  dataDefinition := false

theorem validate_kennel : kennel.validate = .ok kennel := rfl

/-- A set of at most one name, once its default is filled in, is one name. -/
theorem exists_eq_single {names : Names} (default : String) (h : names.members.length ≤ 1) :
    ∃ name, (if names.isEmpty then .single default else names) = Names.single name := by
  rcases names with ⟨_ | ⟨name, _ | ⟨other, rest⟩⟩, _⟩
  · exact ⟨default, rfl⟩
  · exact ⟨name, rfl⟩
  · exact absurd h (by simp)

theorem vertices_withDefaults (config : GraphConfig) :
    config.withDefaults.vertices =
      if config.vertices.isEmpty then .single defaultVertexCollection else config.vertices := by
  unfold withDefaults
  dsimp only
  split <;> rfl

theorem edges_withDefaults (config : GraphConfig) :
    config.withDefaults.edges =
      if config.edges.isEmpty then .single defaultEdgeCollection else config.edges := by
  unfold withDefaults
  dsimp only
  split <;> rfl

/-- What completion of a simple configuration comes to. -/
theorem of_completeSimple {config completed : GraphConfig}
    (h : config.completeSimple = .ok completed) :
    config.vertices.members.length ≤ 1 ∧ config.edges.members.length ≤ 1 ∧
      completed = config.withDefaults := by
  unfold completeSimple at h
  split at h
  · cases h
  · next hvertices =>
    split at h
    · cases h
    · next hedges =>
      cases h
      exact ⟨Nat.not_lt.mp hvertices, Nat.not_lt.mp hedges, rfl⟩

/-- The edge collections of some definitions, besides others. -/
def definedEdges (definitions : List EdgeDefinition) (edges : Names) : Names :=
  definitions.foldl (fun edges definition => Names.insert definition.collection edges) edges

/-- The vertex collections of some definitions, besides others. -/
def definedVertices (definitions : List EdgeDefinition) (vertices : Names) : Names :=
  definitions.foldl
    (fun vertices definition =>
      Names.union (Names.union vertices definition.sources) definition.targets) vertices

-- By induction on the definitions, with the collections that were named before them.
theorem foldl_withNamed : ∀ (definitions : List EdgeDefinition) (config : GraphConfig),
    definitions.foldl
        (fun (config : GraphConfig) definition =>
          { config with
            edges := Names.insert definition.collection config.edges
            vertices := Names.union (Names.union config.vertices definition.sources)
              definition.targets })
        config =
      { config with
        edges := definedEdges definitions config.edges
        vertices := definedVertices definitions config.vertices }
  | [], _ => rfl
  | definition :: definitions, config => by
      rw [List.foldl_cons, foldl_withNamed definitions]
      rfl

/-- Only the collections change when those that are named are added. -/
theorem withNamedCollections_eq (config : GraphConfig) :
    config.withNamedCollections =
      { config with
        edges := definedEdges config.edgeDefinitions config.edges
        vertices := Names.union (definedVertices config.edgeDefinitions config.vertices)
          config.orphans } := by
  rw [withNamedCollections, foldl_withNamed]

/-- Validation ends with the names of the graph and of its collections. -/
theorem checks_eq_ok_iff {config checked : GraphConfig} :
    (do
      checkName "graph name" config.graph
      checkNames "collection name" (config.vertices.members ++ config.edges.members)
      pure config : Result GraphConfig) = .ok checked ↔
    checked = config ∧ checkName "graph name" config.graph = .ok () ∧
      checkNames "collection name" (config.vertices.members ++ config.edges.members) = .ok () := by
  constructor
  · intro h
    obtain ⟨⟨⟩, hgraph, h⟩ := Outcome.bind_eq_ok_iff.mp h
    obtain ⟨⟨⟩, hnames, h⟩ := Outcome.bind_eq_ok_iff.mp h
    cases h
    exact ⟨rfl, hgraph, hnames⟩
  · rintro ⟨rfl, hgraph, hnames⟩
    rw [hgraph, hnames]
    rfl

/-- What validation of a configuration comes to. -/
theorem of_validate {raw config : GraphConfig} (h : raw.validate = .ok config) :
    raw.checkSettings = .ok () ∧
      (raw.type = .simple ∧ raw.withNamedCollections.completeSimple = .ok config ∨
        raw.type = .complex ∧ config = raw.withNamedCollections) ∧
      checkName "graph name" config.graph = .ok () ∧
      checkNames "collection name" (config.vertices.members ++ config.edges.members) = .ok () := by
  have htype : raw.withNamedCollections.type = raw.type := by rw [withNamedCollections_eq]
  obtain ⟨⟨⟩, hsettings, h⟩ := Outcome.bind_eq_ok_iff.mp h
  dsimp only at h
  rw [htype] at h
  split at h
  · next hsimple =>
    obtain ⟨completed, hcompleted, h⟩ := Outcome.bind_eq_ok_iff.mp h
    obtain ⟨rfl, hchecks⟩ := checks_eq_ok_iff.mp h
    exact ⟨hsettings, .inl ⟨hsimple, hcompleted⟩, hchecks⟩
  · next hcomplex =>
    obtain ⟨rfl, hchecks⟩ := checks_eq_ok_iff.mp h
    exact ⟨hsettings, .inr ⟨hcomplex, rfl⟩, hchecks⟩

/-- The settings that validation does not touch. -/
structure SameSettings (config other : GraphConfig) : Prop where
  database : config.database = other.database
  graph : config.graph = other.graph
  type : config.type = other.type
  labelField : config.labelField = other.labelField
  orphans : config.orphans = other.orphans
  dataDefinition : config.dataDefinition = other.dataDefinition

theorem sameSettings_withNamedCollections (config : GraphConfig) :
    SameSettings config.withNamedCollections config := by
  rw [withNamedCollections_eq]
  constructor <;> rfl

theorem sameSettings_withDefaults (config : GraphConfig) :
    SameSettings config.withDefaults config := by
  unfold withDefaults
  dsimp only
  split <;> constructor <;> rfl

theorem SameSettings.trans {first second third : GraphConfig} (h : SameSettings first second)
    (hrest : SameSettings second third) : SameSettings first third where
  database := h.database.trans hrest.database
  graph := h.graph.trans hrest.graph
  type := h.type.trans hrest.type
  labelField := h.labelField.trans hrest.labelField
  orphans := h.orphans.trans hrest.orphans
  dataDefinition := h.dataDefinition.trans hrest.dataDefinition

/-- Validation keeps what holds one text. -/
theorem settings_of_validate {raw config : GraphConfig} (h : raw.validate = .ok config) :
    SameSettings config raw := by
  obtain ⟨-, ⟨-, hcompleted⟩ | ⟨-, rfl⟩, -⟩ := of_validate h
  · obtain ⟨-, -, rfl⟩ := of_completeSimple hcompleted
    exact (sameSettings_withDefaults _).trans (sameSettings_withNamedCollections raw)
  · exact sameSettings_withNamedCollections raw

/-- A simple graph has one collection of each kind. -/
theorem collections_of_validate {raw config : GraphConfig} (h : raw.validate = .ok config)
    (htype : config.type = .simple) (kind : ElementKind) :
    ∃ name, config.collections kind = .single name := by
  rw [(settings_of_validate h).type] at htype
  obtain ⟨-, ⟨-, hcompleted⟩ | ⟨hcomplex, -⟩, -⟩ := of_validate h
  · obtain ⟨hvertices, hedges, rfl⟩ := of_completeSimple hcompleted
    cases kind with
    | vertex =>
        rw [collections, vertices_withDefaults]
        exact exists_eq_single _ hvertices
    | edge =>
        rw [collections, edges_withDefaults]
        exact exists_eq_single _ hedges
  · rw [htype] at hcomplex
    cases hcomplex

/-- A simple graph has its default collection of each kind, and no other. -/
theorem collections_eq_single {raw config : GraphConfig} (h : raw.validate = .ok config)
    (htype : config.type = .simple) (kind : ElementKind) :
    config.collections kind = .single (config.defaultCollection kind) := by
  obtain ⟨name, hname⟩ := collections_of_validate h htype kind
  rw [defaultCollection, htype, hname]
  rfl

end GraphConfig
end Pushdown
