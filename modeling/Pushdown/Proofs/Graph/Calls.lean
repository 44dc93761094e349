import Pushdown.Proofs.Graph.Additions
import Pushdown.Proofs.Store.Calls

/-!
# Operations of a graph as calls of the store

A graph is opened, and its elements are added, replaced and removed, by calls of the store alone.
So the store stays one that calls lead to.

## Results

* `GraphAction.Calls`: an operation that is made of calls;
* `Store.Reached.of_calls`: the store after such an operation;
* `Graph.calls_opened`, `Addition.calls_run`: opening a graph and adding elements;
* `Graph.calls_updateVertex`, `Graph.calls_updateEdge`, `Graph.calls_remove`: the other writes.
-/

namespace Pushdown

/-- An operation is made of calls of the store. -/
def GraphAction.Calls {α : Type} (action : GraphAction Store α) : Prop :=
  ∀ s, ∃ calls, (action s).2 = (Run.all StoreCall.run calls s).2

/-- An operation that is made of calls leads from stores that calls lead to, to such stores. -/
theorem Store.Reached.of_calls {α : Type} {action : GraphAction Store α} {s : Store}
    (h : s.Reached) (haction : action.Calls) : (action s).2.Reached := by
  obtain ⟨before, rfl⟩ := h
  obtain ⟨calls, hcalls⟩ := haction (Run.all StoreCall.run before Store.empty).2
  exact ⟨before ++ calls, by rw [Run.state_append, hcalls]⟩

theorem Store.Reached.of_run {α : Type} {action : GraphAction Store α} {outcome : Result α}
    {s s' : Store} (h : s.Reached) (haction : action.Calls) (hrun : action s = (outcome, s')) :
    s'.Reached := by
  have hafter := h.of_calls haction
  rw [hrun] at hafter
  exact hafter

namespace GraphAction.Calls

variable {α β : Type}

theorem pure (a : α) : GraphAction.Calls (Pure.pure a) := fun _ => ⟨[], rfl⟩

theorem result (r : Result α) : GraphAction.Calls (Pushdown.result r) := fun _ => ⟨[], rfl⟩

theorem bind {action : GraphAction Store α} {f : α → GraphAction Store β} (h : action.Calls)
    (hf : ∀ a, (f a).Calls) : GraphAction.Calls (action >>= f) := by
  intro s
  obtain ⟨calls, hcalls⟩ := h s
  rw [GraphAction.bind_apply]
  split
  · next a mid heq =>
    rw [heq] at hcalls
    obtain ⟨rest, hrest⟩ := hf a mid
    exact ⟨calls ++ rest, by rw [Run.state_append, ← hcalls, hrest]⟩
  · next e mid heq =>
    rw [heq] at hcalls
    exact ⟨calls, hcalls⟩

/-- One call. -/
theorem of_call {action : GraphAction Store α} (call : StoreCall)
    (h : ∀ s, (action s).2 = (call.run s).2) : action.Calls := fun s => ⟨[call], h s⟩

/-- An operation of the store. -/
theorem onStore {action : StoreAction Store α} (call : StoreCall)
    (h : ∀ s, (action s).2 = (call.run s).2) : GraphAction.Calls (Pushdown.onStore action) := by
  refine of_call call fun s => ?_
  rw [← h, Pushdown.onStore]
  split
  · next heq => rw [heq]
  · next heq => rw [heq]

end GraphAction.Calls

namespace Graph

open GraphAction

variable {graph : Graph}

theorem calls_loadVariables (config : GraphConfig) :
    (loadVariables config : GraphAction Store _).Calls := by
  refine .bind (.onStore (.get variablesCollection config.graph) fun _ => rfl) fun found => ?_
  cases found with
  | none => exact .pure _
  | some document => exact .bind (.result _) fun _ => .pure _

theorem calls_storeVariables (vars : GraphVariables) :
    (storeVariables vars : GraphAction Store _).Calls :=
  .bind (.onStore (.replace variablesCollection vars.key vars.toDocument) fun _ => rfl)
    fun _ => .pure _

theorem calls_opened (raw : GraphConfig) : (Graph.opened raw : GraphAction Store _).Calls := by
  refine .bind (.result _) fun config => .bind (.bind ?_ fun _ => ?_) fun _ => .pure _
  · exact .onStore (.ensureCollection variablesCollection) fun _ => rfl
  · refine .bind (calls_loadVariables config) fun found => ?_
    have hrest : ∀ vars : GraphVariables, GraphAction.Calls (do
        result (checkVersion vars.version)
        storeVariables { vars with version := libraryVersion }) := fun vars =>
      .bind (.result _) fun _ => calls_storeVariables _
    cases found with
    | some vars => exact .bind (.pure _) hrest
    | none =>
        refine .bind (.bind ?_ fun _ => .pure _) hrest
        exact .onStore (.insert variablesCollection
          (GraphVariables.toDocument ⟨config.graph, libraryVersion, []⟩)) fun _ => rfl

theorem calls_insertElement (config : GraphConfig) (id : ElementId) (document : Json) :
    (insertElement config id document : GraphAction Store _).Calls := by
  refine .of_call (.insert id.physicalCollection document) fun s => ?_
  have hclient : (Client.insert id.physicalCollection document s).2 =
      ((StoreCall.insert id.physicalCollection document).run s).2 := rfl
  rw [← hclient, insertElement]
  split
  · next heq => rw [heq]
  · next heq =>
    rw [heq]
    split <;> rfl

theorem calls_replaceElement (id : ElementId) (document : Json) :
    (replaceElement id document : GraphAction Store _).Calls :=
  .bind (.result _) fun key =>
    .onStore (.replace id.physicalCollection key document) fun _ => rfl

theorem calls_addVertex (graph : Graph) (label id : Option String)
    (properties : List (String × RawValue)) :
    (graph.addVertex label id properties : GraphAction Store _).Calls :=
  .bind (.result _) fun _ => .bind (.result _) fun _ => .bind (.result _) fun _ =>
    .bind (calls_insertElement _ _ _) fun _ => .pure _

theorem calls_addEdge (graph : Graph) (label id : Option String) (source target : ElementId)
    (properties : List (String × RawValue)) :
    (graph.addEdge label id source target properties : GraphAction Store _).Calls :=
  .bind (.result _) fun _ => .bind (.result _) fun _ => .bind (.result _) fun _ =>
    .bind (calls_insertElement _ _ _) fun _ => .pure _

theorem calls_updateVertex (graph : Graph) (vertex : Vertex) :
    (graph.updateVertex vertex : GraphAction Store _).Calls :=
  .bind (.result _) fun _ => .bind (.result _) fun _ =>
    .bind (calls_replaceElement _ _) fun _ => .pure _

theorem calls_updateEdge (graph : Graph) (edge : Edge) :
    (graph.updateEdge edge : GraphAction Store _).Calls :=
  .bind (.result _) fun _ => .bind (.result _) fun _ =>
    .bind (calls_replaceElement _ _) fun _ => .pure _

theorem calls_remove (id : ElementId) : (remove id : GraphAction Store _).Calls := by
  refine .bind (.result _) fun key => .of_call (.delete id.physicalCollection key) fun s => ?_
  have hclient : (Client.delete id.physicalCollection key s).2 =
      ((StoreCall.delete id.physicalCollection key).run s).2 := rfl
  rw [← hclient]
  split
  · next heq => rw [heq]
  · next heq =>
    rw [heq]
    split <;> rfl

end Graph

/-- An addition is made of calls of the store. -/
theorem Addition.calls_run (graph : Graph) (a : Addition) : (a.run graph).Calls := by
  cases a with
  | vertex label id properties => exact .bind (Graph.calls_addVertex _ _ _ _) fun _ => .pure _
  | edge label id source target properties =>
      exact .bind (Graph.calls_addEdge _ _ _ _ _ _) fun _ => .pure _

end Pushdown
