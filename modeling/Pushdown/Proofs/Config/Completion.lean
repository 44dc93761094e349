import Pushdown.Proofs.Config.Normalization
import Pushdown.Proofs.Identity.RoundTrip

/-!
# What validation adds

Validation keeps all that a configuration says. It adds the collections that edge definitions and
orphans name and, to a simple graph, the collections and the edge definition that are still missing.
The outcome is complete: validating it again adds nothing.

## Results

* `GraphConfig.mem_collections_iff_of_validate`: the collections of a validated configuration;
* `GraphConfig.edgeDefinitions_of_validate`: its edge definitions;
* `GraphConfig.completed_of_validate`: all of this, and that validating again changes nothing.
-/

namespace Pushdown
namespace GraphConfig

variable {raw config : GraphConfig}

/-- The collections of a kind that a configuration names: in its list, in an edge definition, or
among its orphans. -/
def Named (config : GraphConfig) : ElementKind → String → Prop
  | .vertex, name => name ∈ config.vertices ∨
      (∃ definition ∈ config.edgeDefinitions,
        name ∈ definition.sources ∨ name ∈ definition.targets) ∨
      name ∈ config.orphans
  | .edge, name => name ∈ config.edges ∨
      ∃ definition ∈ config.edgeDefinitions, name = definition.collection

/-- The edge definition of a simple graph that has none. -/
def defaultDefinition (config : GraphConfig) : EdgeDefinition :=
  ⟨config.defaultCollection .edge, .single (config.defaultCollection .vertex),
    .single (config.defaultCollection .vertex)⟩

/-! ## Collections -/

theorem mem_collections_withNamedCollections (config : GraphConfig) (kind : ElementKind)
    (name : String) :
    name ∈ config.withNamedCollections.collections kind ↔ config.Named kind name := by
  rw [withNamedCollections_eq]
  cases kind with
  | vertex =>
      rw [collections, Named, Names.mem_union, mem_definedVertices]
      rw [Names.mem_members, or_comm, or_assoc, or_left_comm]
  | edge =>
      rw [collections, Named, mem_definedEdges, or_comm]

theorem collections_withDefaults (config : GraphConfig) (kind : ElementKind) :
    config.withDefaults.collections kind =
      if (config.collections kind).isEmpty then .single (defaultLabel kind)
      else config.collections kind := by
  cases kind with
  | vertex => exact vertices_withDefaults config
  | edge => exact edges_withDefaults config

/-- Validation adds the collections that are named, and the default one of a simple graph that has
none. -/
theorem mem_collections_iff_of_validate (h : raw.validate = .ok config) (kind : ElementKind)
    (name : String) :
    name ∈ config.collections kind ↔
      raw.Named kind name ∨
        (raw.type = .simple ∧ (∀ other, ¬ raw.Named kind other) ∧ name = defaultLabel kind) := by
  simp only [← mem_collections_withNamedCollections]
  obtain ⟨-, ⟨htype, hcompleted⟩ | ⟨htype, rfl⟩, -⟩ := of_validate h
  · obtain ⟨-, -, rfl⟩ := of_completeSimple hcompleted
    rw [collections_withDefaults, mem_filled_iff]
    simp only [htype, true_and]
  · simp [htype]

/-! ## Edge definitions -/

/-- Edge definitions are kept, and a simple graph that has none gets one. -/
theorem edgeDefinitions_of_validate (h : raw.validate = .ok config) :
    config.edgeDefinitions =
      if raw.type = .simple ∧ raw.edgeDefinitions = [] then [config.defaultDefinition]
      else raw.edgeDefinitions := by
  have hkept : raw.withNamedCollections.edgeDefinitions = raw.edgeDefinitions := by
    rw [withNamedCollections_eq]
  obtain ⟨-, ⟨htype, hcompleted⟩ | ⟨htype, rfl⟩, -⟩ := of_validate h
  · have hsimple : raw.withNamedCollections.type = .simple := by
      rw [(sameSettings_withNamedCollections raw).type, htype]
    have hdefaults : raw.withNamedCollections.withDefaults.type = .simple := by
      rw [(sameSettings_withDefaults _).type, hsimple]
    obtain ⟨-, -, rfl⟩ := of_completeSimple hcompleted
    rw [withDefaults_edgeDefinitions hsimple, hkept,
      defaultDefinition, defaultCollection, defaultCollection, hdefaults]
    simp only [htype, true_and, List.isEmpty_iff]
    rfl
  · rw [hkept, if_neg]
    rintro ⟨hsimple, -⟩
    rw [htype] at hsimple
    cases hsimple

/-! ## Completion -/

/-- A configuration completes another: it keeps what that one says, adds what follows from it, and
has nothing left to add. -/
structure Completes (config raw : GraphConfig) : Prop where
  settled : config.validate = .ok config
  settings : SameSettings config raw
  /-- Every collection that is named, and a default one only where a simple graph names none. -/
  collections : ∀ kind name, name ∈ config.collections kind ↔
    raw.Named kind name ∨
      (raw.type = .simple ∧ (∀ other, ¬ raw.Named kind other) ∧ name = defaultLabel kind)
  /-- The edge definitions that were given, and a default one only where a simple graph has none. -/
  definitions : config.edgeDefinitions =
    if raw.type = .simple ∧ raw.edgeDefinitions = [] then [config.defaultDefinition]
    else raw.edgeDefinitions
  /-- The collections of the edge definitions and the orphans are there. -/
  covers : config.Covers
  graph : IsName config.graph
  names : ∀ kind, ∀ name ∈ config.collections kind, IsName name
  single : config.type = .simple → ∀ kind,
    config.collections kind = .single (config.defaultCollection kind)

/-- Validation completes a configuration. -/
theorem completed_of_validate (h : raw.validate = .ok config) : config.Completes raw where
  settled := validate_of_validate h
  settings := settings_of_validate h
  collections := mem_collections_iff_of_validate h
  definitions := edgeDefinitions_of_validate h
  covers := covers_of_validate h
  graph := (names_of_validate h).1
  names := (names_of_validate h).2
  single := collections_eq_single h

/-- A simple graph of which only an orphan is given. -/
def persons : GraphConfig := { initial with orphans := .single "person" }

/-- The graph of persons with all that follows. -/
def completedPersons : GraphConfig :=
  { persons with
    vertices := .single "person", edges := .single "edge"
    edgeDefinitions := [⟨"edge", .single "person", .single "person"⟩] }

theorem completed_of_validate_persons :
    persons.validate = .ok completedPersons ∧ completedPersons.Completes persons := by
  have hvalid : persons.validate = .ok completedPersons := rfl
  exact ⟨hvalid, completed_of_validate hvalid⟩

end GraphConfig
end Pushdown
