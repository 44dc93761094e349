import Pushdown.Proofs.Config.Definitions
import Pushdown.Proofs.Config.Validation

/-!
# Validated configurations are normal

A configuration is built by settings, one after the other. Validation adds the collections that its
edge definitions and orphans name. Once they are there, validation changes nothing any more.

## Results

* `GraphConfig.covers_of_validate`: named collections are there;
* `GraphConfig.validate_of_validate`: validating once is enough.
-/

namespace Pushdown
namespace GraphConfig

/-- A setting of a configuration. -/
inductive Setting where
  | database (name : String)
  | graph (name : String)
  | graphType (given : GraphType)
  | labelField (name : String)
  | vertices (name : String)
  | edges (name : String)
  | definition (collection : String) (sources targets : List String)
  | orphans (names : List String)
  | dataDefinition (enabled : Bool)

/-- Change one setting. -/
def Setting.apply (config : GraphConfig) : Setting → GraphConfig
  | database name => { config with database := name }
  | graph name => { config with graph := name }
  | graphType given => { config with type := given }
  | labelField name => { config with labelField := name }
  | vertices name => config.addVertices name
  | edges name => config.addEdges name
  | definition collection sources targets =>
      config.addDefinition ⟨collection, Names.ofList sources, Names.ofList targets⟩
  | orphans names => config.addOrphans names
  | dataDefinition enabled => { config with dataDefinition := enabled }

/-- The configuration of some settings. -/
def built (settings : List Setting) : GraphConfig := settings.foldl Setting.apply initial

/-- The collections that edge definitions and orphans name are there. -/
structure Covers (config : GraphConfig) : Prop where
  edges : ∀ definition ∈ config.edgeDefinitions, definition.collection ∈ config.edges
  sources : ∀ definition ∈ config.edgeDefinitions, ∀ name ∈ definition.sources,
    name ∈ config.vertices
  targets : ∀ definition ∈ config.edgeDefinitions, ∀ name ∈ definition.targets,
    name ∈ config.vertices
  orphans : ∀ name ∈ config.orphans, name ∈ config.vertices

variable {config raw : GraphConfig} {definitions : List EdgeDefinition} {names : Names}

section named

theorem mem_definedEdges {name : String} : ∀ {definitions : List EdgeDefinition} {edges : Names},
    name ∈ definedEdges definitions edges ↔
      (∃ definition ∈ definitions, name = definition.collection) ∨ name ∈ edges
  | [], edges => by simp [definedEdges]
  | definition :: definitions, edges => by
      have ih : name ∈ definedEdges definitions (Names.insert definition.collection edges) ↔
          (∃ definition ∈ definitions, name = definition.collection) ∨
            name ∈ Names.insert definition.collection edges := mem_definedEdges
      rw [Names.mem_insert] at ih
      rw [List.exists_mem_cons_iff, or_assoc, or_left_comm]
      exact ih

theorem mem_definedVertices {name : String} :
    ∀ {definitions : List EdgeDefinition} {vertices : Names},
      name ∈ definedVertices definitions vertices ↔
        (∃ definition ∈ definitions, name ∈ definition.sources ∨ name ∈ definition.targets) ∨
          name ∈ vertices
  | [], vertices => by simp [definedVertices]
  | definition :: definitions, vertices => by
      have ih : name ∈ definedVertices definitions
            (Names.union (Names.union vertices definition.sources) definition.targets) ↔
          (∃ definition ∈ definitions, name ∈ definition.sources ∨ name ∈ definition.targets) ∨
            name ∈ Names.union (Names.union vertices definition.sources) definition.targets :=
        mem_definedVertices
      rw [Names.mem_union, Names.mem_union] at ih
      rw [List.exists_mem_cons_iff]
      refine ih.trans ?_
      simp only [Names.mem_members, or_comm, or_assoc]

/-- Edge collections that are there are not added again. -/
theorem definedEdges_eq_self {edges : Names} :
    ∀ {definitions : List EdgeDefinition},
      (∀ definition ∈ definitions, definition.collection ∈ edges) →
        definedEdges definitions edges = edges
  | [], _ => rfl
  | definition :: definitions, hmem => by
      rw [definedEdges, List.foldl_cons,
        Names.insert_eq_self (hmem definition List.mem_cons_self)]
      exact definedEdges_eq_self fun d hd => hmem d (List.mem_cons_of_mem definition hd)

/-- Vertex collections that are there are not added again. -/
theorem definedVertices_eq_self {vertices : Names} :
    ∀ {definitions : List EdgeDefinition},
      (∀ definition ∈ definitions, ∀ name ∈ definition.sources, name ∈ vertices) →
      (∀ definition ∈ definitions, ∀ name ∈ definition.targets, name ∈ vertices) →
        definedVertices definitions vertices = vertices
  | [], _, _ => rfl
  | definition :: definitions, hsources, htargets => by
      rw [definedVertices, List.foldl_cons,
        Names.union_eq_self (hsources definition List.mem_cons_self),
        Names.union_eq_self (htargets definition List.mem_cons_self)]
      exact definedVertices_eq_self
        (fun d hd => hsources d (List.mem_cons_of_mem definition hd))
        fun d hd => htargets d (List.mem_cons_of_mem definition hd)

theorem covers_withNamedCollections (config : GraphConfig) :
    config.withNamedCollections.Covers := by
  rw [withNamedCollections_eq]
  refine ⟨fun d hd => ?_, fun d hd name hname => ?_, fun d hd name hname => ?_,
    fun name hname => ?_⟩
  · exact mem_definedEdges.mpr (.inl ⟨d, hd, rfl⟩)
  · exact Names.mem_union.mpr (.inr (mem_definedVertices.mpr (.inl ⟨d, hd, .inl hname⟩)))
  · exact Names.mem_union.mpr (.inr (mem_definedVertices.mpr (.inl ⟨d, hd, .inr hname⟩)))
  · exact Names.mem_union.mpr (.inl hname)

/-- Collections that are there are not added again. -/
theorem withNamedCollections_eq_self (h : config.Covers) :
    config.withNamedCollections = config := by
  rw [withNamedCollections_eq, definedEdges_eq_self h.edges,
    definedVertices_eq_self h.sources h.targets, Names.union_eq_self h.orphans]

end named

section defaults

/-- A simple configuration whose collections are there once each is left as it is. -/
theorem withDefaults_eq_self (hvertices : config.vertices ≠ .empty) (hedges : config.edges ≠ .empty)
    (hdefinitions : config.edgeDefinitions ≠ []) : config.withDefaults = config := by
  simp [withDefaults, hvertices, hedges, hdefinitions]

/-- The members of a set whose default is filled in. -/
theorem mem_filled_iff {name default : String} :
    name ∈ (if names.isEmpty then .single default else names : Names) ↔
      name ∈ names ∨ (∀ other, other ∉ names) ∧ name = default := by
  split
  · next hempty =>
    rw [Names.isEmpty_iff] at hempty
    simp [hempty]
  · next hsome =>
    rw [Names.isEmpty_iff, Names.eq_empty_iff] at hsome
    exact (or_iff_left fun hnone => hsome hnone.1).symm

/-- The first of a set whose default is filled in is in it. -/
theorem head_mem_filled (names : Names) (default : String) :
    (if names.isEmpty then .single default else names : Names).members.head?.getD default ∈
      (if names.isEmpty then .single default else names : Names) := by
  obtain ⟨_ | ⟨name, rest⟩, _⟩ := names
  · exact List.mem_singleton_self default
  · exact List.mem_cons_self

theorem withDefaults_edgeDefinitions (htype : config.type = .simple) :
    config.withDefaults.edgeDefinitions =
      if config.edgeDefinitions.isEmpty then
        [⟨config.withDefaults.edges.members.head?.getD defaultEdgeCollection,
          .single (config.withDefaults.vertices.members.head?.getD defaultVertexCollection),
          .single (config.withDefaults.vertices.members.head?.getD defaultVertexCollection)⟩]
      else config.edgeDefinitions := by
  rw [edges_withDefaults, vertices_withDefaults]
  unfold withDefaults
  dsimp only
  split
  · next hempty =>
    rw [addDefinition]
    dsimp only
    rw [List.isEmpty_iff.mp hempty, List.nil_append, defaultCollection, defaultCollection, htype]
    rfl
  · rfl

/-- The default edge definition names collections that are there. -/
theorem Covers.withDefaults (h : config.Covers) (htype : config.type = .simple) :
    config.withDefaults.Covers := by
  have hvertices : ∀ name ∈ config.vertices, name ∈ config.withDefaults.vertices := by
    intro name hname
    rw [vertices_withDefaults]
    exact mem_filled_iff.mpr (.inl hname)
  have hedges : ∀ name ∈ config.edges, name ∈ config.withDefaults.edges := by
    intro name hname
    rw [edges_withDefaults]
    exact mem_filled_iff.mpr (.inl hname)
  have hvertex : config.withDefaults.vertices.members.head?.getD defaultVertexCollection ∈
      config.withDefaults.vertices := by
    rw [vertices_withDefaults]
    exact head_mem_filled _ _
  have hedge : config.withDefaults.edges.members.head?.getD defaultEdgeCollection ∈
      config.withDefaults.edges := by
    rw [edges_withDefaults]
    exact head_mem_filled _ _
  have horphans : ∀ name ∈ config.withDefaults.orphans, name ∈ config.withDefaults.vertices := by
    rw [(sameSettings_withDefaults config).orphans]
    exact fun name hname => hvertices name (h.orphans name hname)
  have hdefinitions := withDefaults_edgeDefinitions htype
  split at hdefinitions
  · refine ⟨?_, ?_, ?_, horphans⟩
    all_goals
      intro definition hdefinition
      rw [hdefinitions] at hdefinition
      rw [List.mem_singleton.mp hdefinition]
    · exact hedge
    all_goals
      intro name hname
      rw [List.mem_singleton.mp hname]
      exact hvertex
  · refine ⟨?_, ?_, ?_, horphans⟩
    all_goals
      intro definition hdefinition
      rw [hdefinitions] at hdefinition
    · exact hedges _ (h.edges definition hdefinition)
    · exact fun name hname => hvertices name (h.sources definition hdefinition name hname)
    · exact fun name hname => hvertices name (h.targets definition hdefinition name hname)

end defaults

/-- A validated configuration has the collections that its edge definitions and orphans name. -/
theorem covers_of_validate (h : raw.validate = .ok config) : config.Covers := by
  obtain ⟨-, ⟨htype, hcompleted⟩ | ⟨-, rfl⟩, -⟩ := of_validate h
  · obtain ⟨-, -, rfl⟩ := of_completeSimple hcompleted
    refine (covers_withNamedCollections raw).withDefaults ?_
    rw [(sameSettings_withNamedCollections raw).type, htype]
  · exact covers_withNamedCollections raw

/-- A validated simple configuration has an edge definition. -/
theorem edgeDefinitions_ne_nil (h : raw.validate = .ok config) (htype : config.type = .simple) :
    config.edgeDefinitions ≠ [] := by
  obtain ⟨-, ⟨hsimple, hcompleted⟩ | ⟨hcomplex, rfl⟩, -⟩ := of_validate h
  · have hnamed : raw.withNamedCollections.type = .simple := by
      rw [(sameSettings_withNamedCollections raw).type, hsimple]
    obtain ⟨-, -, rfl⟩ := of_completeSimple hcompleted
    rw [withDefaults_edgeDefinitions hnamed]
    split
    · exact List.cons_ne_nil _ _
    · next hne => exact fun hnil => hne (List.isEmpty_iff.mpr hnil)
  · rw [(sameSettings_withNamedCollections raw).type, hcomplex] at htype
    cases htype

/-- Validating once is enough. -/
theorem validate_of_validate (h : raw.validate = .ok config) : config.validate = .ok config := by
  obtain ⟨hsettings, -, hgraph, hnames⟩ := of_validate h
  have hsame := settings_of_validate h
  have hnamed : config.withNamedCollections = config :=
    withNamedCollections_eq_self (covers_of_validate h)
  have hchecked : config.checkSettings = .ok () := by
    rw [checkSettings, hsame.database, hsame.graph, hsame.labelField]
    exact hsettings
  have hchecks := checks_eq_ok_iff.mpr ⟨rfl, hgraph, hnames⟩
  rw [validate, hchecked]
  cases htype : config.type with
  | simple =>
      obtain ⟨vertex, hvertices⟩ : ∃ name, config.vertices = .single name :=
        collections_of_validate h htype .vertex
      obtain ⟨edge, hedges⟩ : ∃ name, config.edges = .single name :=
        collections_of_validate h htype .edge
      have hcompleted : config.completeSimple = .ok config := by
        rw [completeSimple, hvertices, hedges, if_neg (by simp), if_neg (by simp),
          withDefaults_eq_self (by simp [hvertices]) (by simp [hedges])
            (edgeDefinitions_ne_nil h htype)]
      simp only [hnamed, htype, hcompleted]
      exact hchecks
  | complex =>
      simp only [hnamed, htype]
      exact hchecks

end GraphConfig
end Pushdown
