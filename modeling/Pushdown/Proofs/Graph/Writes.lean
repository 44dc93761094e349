import Pushdown.Proofs.Graph.Calls
import Pushdown.Proofs.Graph.Records

/-!
# Writing elements

Elements are added, written back and removed. A write that succeeds stores the document of its
element at the place of the element, or leaves nothing there, and changes no other document. So
after any writes, every place of an element holds the document of the element that was written
there last.

## Results

* `GraphWrite.effect_run`: what one write does to the documents;
* `GraphWrite.calls_run`: a write is made of calls of the store;
* `GraphWrite.keeps_of_writes`: the documents after any writes.
-/

namespace Pushdown

/-- A write to a graph. -/
inductive GraphWrite where
  | add (addition : Addition)
  | update (element : Element)
  | remove (target : ElementId)

/-- The answer to a write: the element that was written, if it was not removed. -/
abbrev WriteAnswer := Result (Option Element)

/-- An element with another revision. -/
def Element.withRevision (revision : String) : Element → Element
  | .vertex v => .vertex { v with revision := some revision }
  | .edge e => .edge { e with revision := some revision }

namespace Graph

/-- A graph that was opened over an empty store. -/
theorem reached_fresh {raw config : GraphConfig} (hvalid : raw.validate = .ok config) :
    (Store.fresh config).Reached := by
  have hempty : Store.empty.Reached := ⟨[], rfl⟩
  exact hempty.of_run (Graph.calls_opened raw) (opened_empty hvalid)

/-- Write back an element. -/
def updateElement (graph : Graph) : Element → GraphAction Store Element
  | .vertex v => do
      let v ← graph.updateVertex v
      pure (.vertex v)
  | .edge e => do
      let e ← graph.updateEdge e
      pure (.edge e)

theorem calls_updateElement (graph : Graph) (element : Element) :
    (graph.updateElement element).Calls := by
  cases element with
  | vertex v => exact .bind (calls_updateVertex _ _) fun _ => .pure _
  | edge e => exact .bind (calls_updateEdge _ _) fun _ => .pure _

/-- Vertices and edges are written back in the same steps. -/
theorem updateElement_eq (graph : Graph) (element : Element) :
    graph.updateElement element = (do
      result (checkProperties graph.config element.properties)
      let document ← result (document graph.config element.id element.label element.properties
        element.ends)
      let assigned ← replaceElement element.id document
      pure (element.withRevision assigned.revision)) := by
  cases element with
  | vertex v =>
      simp only [updateElement, updateVertex, bind_assoc, pure_bind]
      rfl
  | edge e =>
      simp only [updateElement, updateEdge, bind_assoc, pure_bind]
      rfl

end Graph

namespace GraphWrite

variable {config : GraphConfig} {s s' : Store}

/-- Make a write. -/
def run (graph : Graph) : GraphWrite → GraphAction Store (Option Element)
  | add addition => do
      let element ← addition.run graph
      pure (some element)
  | update element => do
      let element ← graph.updateElement element
      pure (some element)
  | remove target => do
      Graph.remove target
      pure none

/-- What a write did to the documents: that of an element was written, or none is left in the
place of the element, or none changed. -/
inductive Effect (config : GraphConfig) (s s' : Store) : GraphWrite → WriteAnswer → Prop
  | wrote {write : GraphWrite} {element : Element} {fields : Entries Json} {key : String}
      (hasKey : element.id.key = some key) (records : config.Records fields element)
      (writes : Store.Writes element.id.physicalCollection key (.object fields) s s') :
      Effect config s s' write (.ok (some element))
  | removed {target : ElementId} {key : String} (hasKey : target.key = some key)
      (drops : Store.Drops target.physicalCollection key s s') :
      Effect config s s' (.remove target) (.ok none)
  | failed {write : GraphWrite} {e : GraphError}
      (same : ∀ c k, s'.document? c k = s.document? c k) :
      Effect config s s' write (.error e)

theorem ends_element (a : Addition) (draft : Draft) (assigned : DocumentMeta) :
    (a.element draft assigned).ends = a.ends := by
  cases a <;> rfl

theorem label_element (a : Addition) (draft : Draft) (assigned : DocumentMeta) :
    (a.element draft assigned).label = draft.label := by
  cases a <;> rfl

/-- The document of an added element. -/
theorem records_of_adds {a : Addition} {draft : Draft} {assigned : DocumentMeta}
    (h : Addition.Adds ⟨config⟩ a draft assigned s s') :
    config.Records (Store.stamped (draft.fields config) assigned) (a.element draft assigned) :=
  GraphConfig.records_stamped draft (Addition.classified_of_draft h.drafted).unreserved
    (Addition.draft_eq_ok h.drafted).2.2 h.id (Addition.id_element a draft assigned)
    (label_element a draft assigned) (ends_element a draft assigned)

theorem effect_add (s : Store) (a : Addition) :
    Effect config s ((add a).run ⟨config⟩ s).2 (add a) ((add a).run ⟨config⟩ s).1 := by
  rw [run, GraphAction.bind_apply]
  split
  · next element s' hrun =>
    obtain ⟨draft, assigned, hadds, rfl⟩ := Addition.adds_of_run hrun
    have hkey : (a.element draft assigned).id.key = some assigned.key := by
      rw [Addition.id_element]
      rfl
    refine .wrote hkey (records_of_adds hadds) ?_
    rw [Addition.id_element]
    exact hadds.writes
  · next e s' hrun => exact .failed (Addition.document?_of_run_error hrun)

theorem unreserved_of_checkProperties {properties : Entries Value}
    (h : Graph.checkProperties config properties = .ok ()) : Unreserved config properties := by
  unfold Graph.checkProperties at h
  split at h
  · cases h
  · next hnone =>
    intro key hkey
    exact Bool.not_eq_true _ ▸ List.find?_eq_none.mp hnone key hkey

/-- Writing back an element stores the document of its draft with what the store assigned, and
gives the element another revision. -/
theorem stored_of_updateElement {element updated : Element}
    (h : Graph.updateElement ⟨config⟩ element s = (.ok updated, s')) :
    ∃ key endpoints assigned, element.id.key = some key ∧
      Unreserved config element.properties ∧ Graph.endpointFields element.ends = .ok endpoints ∧
      assigned = s.assign element.id.physicalCollection key ∧
      updated = element.withRevision assigned.revision ∧
      Store.Writes element.id.physicalCollection key
        (.object (Store.stamped
          (Draft.fields config ⟨element.id, element.label, element.properties, endpoints⟩)
          assigned)) s s' := by
  rw [Graph.updateElement_eq] at h
  obtain ⟨u, mid, hfirst, h⟩ := Graph.bind_eq_ok_iff.mp h
  obtain ⟨hchecked, rfl⟩ := Graph.result_eq_ok_iff.mp hfirst
  obtain ⟨document, mid, hsecond, h⟩ := Graph.bind_eq_ok_iff.mp h
  obtain ⟨hdocument, rfl⟩ := Graph.result_eq_ok_iff.mp hsecond
  obtain ⟨assigned, last, hthird, h⟩ := Graph.bind_eq_ok_iff.mp h
  cases h
  obtain ⟨key, mid, hkeyed, hreplaced⟩ := Graph.bind_eq_ok_iff.mp hthird
  obtain ⟨hkey, rfl⟩ := Graph.result_eq_ok_iff.mp hkeyed
  rw [Graph.document_eq] at hdocument
  obtain ⟨endpoints, hends, rfl⟩ := Outcome.map_eq_ok_iff.mp hdocument
  have hstored := GraphAction.onStore_eq_ok_iff.mp hreplaced
  obtain ⟨hassigned, -, given, hgiven, hwrites⟩ := Store.of_replace hstored
  cases hgiven
  have hfound : element.id.key = some key := by
    unfold Graph.keyOf at hkey
    split at hkey
    · next found hfound =>
      cases hkey
      exact hfound
    · cases hkey
  exact ⟨key, endpoints, assigned, hfound, unreserved_of_checkProperties hchecked, hends,
    hassigned, rfl, hwrites⟩

theorem id_withRevision (revision : String) (element : Element) :
    (element.withRevision revision).id = element.id := by
  cases element <;> rfl

/-- What writing back an element did. -/
theorem of_updateElement {element updated : Element}
    (h : Graph.updateElement ⟨config⟩ element s = (.ok updated, s')) :
    updated.id = element.id ∧ ∃ key fields, element.id.key = some key ∧
      config.Records fields updated ∧
      Store.Writes element.id.physicalCollection key (.object fields) s s' := by
  obtain ⟨key, endpoints, assigned, hkey, hunreserved, hends, rfl, rfl, hwrites⟩ :=
    stored_of_updateElement h
  have hid : element.id.withKey key = element.id := by rw [ElementId.withKey, ← hkey]
  have hsame := id_withRevision (s.assign element.id.physicalCollection key).revision element
  exact ⟨hsame, key, _, hkey,
    GraphConfig.records_stamped ⟨element.id, element.label, element.properties, endpoints⟩
      hunreserved hends rfl (hsame.trans hid.symm) (by cases element <;> rfl)
      (by cases element <;> rfl), hwrites⟩

/-- A failed attempt to write an element back leaves the store as it was. -/
theorem of_updateElement_error {element : Element} {e : GraphError}
    (h : Graph.updateElement ⟨config⟩ element s = (.error e, s')) : s' = s := by
  rw [Graph.updateElement_eq] at h
  rcases Graph.of_bind_eq_error h with hfailed | ⟨u, mid, hchecked, hwrite⟩
  · exact Graph.eq_of_result hfailed
  obtain rfl := Graph.eq_of_result hchecked
  rcases Graph.of_bind_eq_error hwrite with hfailed | ⟨document, mid, hdocument, hreplace⟩
  · exact Graph.eq_of_result hfailed
  obtain rfl := Graph.eq_of_result hdocument
  rcases Graph.of_bind_eq_error hreplace with hfailed | ⟨assigned, last, -, hpure⟩
  · rcases Graph.of_bind_eq_error hfailed with hkeyless | ⟨key, mid, hkey, hstore⟩
    · exact Graph.eq_of_result hkeyless
    · obtain rfl := Graph.eq_of_result hkey
      obtain ⟨fault, hfault⟩ := GraphAction.of_onStore_error hstore
      exact Store.of_replace_error hfault
  · cases hpure

theorem effect_update (s : Store) (element : Element) :
    Effect config s ((update element).run ⟨config⟩ s).2 (update element)
      ((update element).run ⟨config⟩ s).1 := by
  rw [run, GraphAction.bind_apply]
  split
  · next updated s' hrun =>
    obtain ⟨hid, key, fields, hkey, hrecords, hwrites⟩ := of_updateElement hrun
    rw [← hid] at hkey hwrites
    exact .wrote hkey hrecords hwrites
  · next e s' hrun =>
    obtain rfl := of_updateElement_error hrun
    exact .failed fun _ _ => rfl

theorem effect_remove (hs : s.Ordered) (target : ElementId) :
    Effect config s ((remove target).run ⟨config⟩ s).2 (remove target)
      ((remove target).run ⟨config⟩ s).1 := by
  rw [run, GraphAction.bind_apply, Graph.remove, GraphAction.bind_apply, result]
  cases hkey : target.key with
  | none =>
      rw [Graph.keyOf, hkey]
      exact .failed fun _ _ => rfl
  | some key =>
      rw [Graph.keyOf, hkey]
      dsimp only
      cases hdelete : Client.delete target.physicalCollection key s with
      | mk outcome s' =>
        cases outcome with
        | ok u =>
            dsimp only
            exact .removed hkey (Store.of_delete (hs.ascending _) hdelete)
        | error e =>
            -- there was nothing to delete, which is no error
            obtain ⟨rfl, hkind, hnone⟩ := Store.of_delete_error hdelete
            dsimp only
            rw [if_pos hkind]
            exact .removed hkey ⟨hnone, fun _ _ _ => rfl⟩

/-- What a write did to the documents. -/
theorem effect_run (hs : s.Ordered) (write : GraphWrite) :
    Effect config s (write.run ⟨config⟩ s).2 write (write.run ⟨config⟩ s).1 := by
  cases write with
  | add addition => exact effect_add s addition
  | update element => exact effect_update s element
  | remove target => exact effect_remove hs target

/-- A write is made of calls of the store. -/
theorem calls_run (graph : Graph) (write : GraphWrite) : (write.run graph).Calls := by
  cases write with
  | add addition => exact .bind (addition.calls_run graph) fun _ => .pure _
  | update element => exact .bind (graph.calls_updateElement element) fun _ => .pure _
  | remove target => exact .bind (Graph.calls_remove _) fun _ => .pure _

end GraphWrite

/-- The document of an identity is under a key of a collection of the store. -/
def ElementId.At (collection key : String) (id : ElementId) : Prop :=
  id.physicalCollection = collection ∧ id.key = some key

instance (collection key : String) (id : ElementId) : Decidable (id.At collection key) :=
  inferInstanceAs (Decidable (_ ∧ _))

namespace GraphWrite

variable {config : GraphConfig} {s s' : Store} {collection key : String}

/-- The element in a place after one more write. -/
def after (collection key : String) (found : Option Element) :
    GraphWrite × WriteAnswer → Option Element
  | (_, .ok (some element)) => if element.id.At collection key then some element else found
  | (remove target, .ok none) => if target.At collection key then none else found
  | _ => found

/-- The element that some writes left in a place. -/
def lastWritten (log : List (GraphWrite × WriteAnswer)) (collection key : String) :
    Option Element :=
  log.foldl (after collection key) none

theorem of_after {found : Option Element} {entry : GraphWrite × WriteAnswer} {element : Element}
    (h : after collection key found entry = some element) :
    found = some element ∨ ∃ write, entry = (write, .ok (some element)) := by
  unfold after at h
  split at h
  · next write written =>
    split at h
    · cases h
      exact .inr ⟨write, rfl⟩
    · exact .inl h
  · split at h
    · cases h
    · exact .inl h
  · exact .inl h

theorem of_foldl_after {element : Element} :
    ∀ {log : List (GraphWrite × WriteAnswer)} {found : Option Element},
      log.foldl (after collection key) found = some element →
        found = some element ∨ ∃ write, (write, .ok (some element)) ∈ log
  | [], _, h => .inl h
  | entry :: log, found, h => by
      rw [List.foldl_cons] at h
      rcases of_foldl_after h with hfirst | ⟨write, hwrite⟩
      · rcases of_after hfirst with hfound | ⟨write, rfl⟩
        · exact .inl hfound
        · exact .inr ⟨write, List.mem_cons_self⟩
      · exact .inr ⟨write, List.mem_cons_of_mem entry hwrite⟩

/-- What some writes left in a place was the answer to one of them. -/
theorem mem_of_lastWritten {log : List (GraphWrite × WriteAnswer)} {element : Element}
    (h : lastWritten log collection key = some element) :
    ∃ write, (write, .ok (some element)) ∈ log :=
  (of_foldl_after h).resolve_left nofun

/-- A place holds the document of an element, or nothing. -/
def Keeps (config : GraphConfig) (s : Store) (collection key : String) :
    Option Element → Prop
  | some element => ∃ fields, s.document? collection key = some (.object fields) ∧
      config.Records fields element
  | none => s.document? collection key = none

theorem Keeps.of_same {found : Option Element} (h : Keeps config s collection key found)
    (hsame : s'.document? collection key = s.document? collection key) :
    Keeps config s' collection key found := by
  cases found with
  | none => exact hsame.trans h
  | some element =>
      obtain ⟨fields, hfound, hrecords⟩ := h
      exact ⟨fields, hsame.trans hfound, hrecords⟩

/-- A place that a write does not address stays as it was. -/
theorem ne_of_not_at {id : ElementId} {k : String} (hkey : id.key = some k)
    (hnot : ¬ id.At collection key) : collection ≠ id.physicalCollection ∨ key ≠ k := by
  rw [← Decidable.not_and_iff_not_or_not]
  rintro ⟨rfl, rfl⟩
  exact hnot ⟨rfl, hkey⟩

/-- What one write leaves in a place. -/
theorem Effect.keeps {write : GraphWrite} {answer : WriteAnswer} {found : Option Element}
    (h : Effect config s s' write answer) (hkeeps : Keeps config s collection key found) :
    Keeps config s' collection key (after collection key found (write, answer)) := by
  cases h with
  | @wrote write element fields k hasKey records writes =>
      rw [after]
      split
      · next hat =>
        obtain ⟨rfl, hkey⟩ := hat
        obtain rfl : k = key := Option.some.inj (hasKey.symm.trans hkey)
        exact ⟨fields, writes.stored, records⟩
      · next hnot => exact hkeeps.of_same (writes.others _ _ (ne_of_not_at hasKey hnot))
  | @removed target k hasKey drops =>
      rw [after]
      split
      · next hat =>
        obtain ⟨rfl, hkey⟩ := hat
        obtain rfl : k = key := Option.some.inj (hasKey.symm.trans hkey)
        exact drops.dropped
      · next hnot => exact hkeeps.of_same (drops.others _ _ (ne_of_not_at hasKey hnot))
  | failed same =>
      cases write <;> exact hkeeps.of_same (same _ _)

theorem reached_of_writes {start : Store} (hstart : start.Reached) (writes : List GraphWrite) :
    (Run.all (run ⟨config⟩) writes start).2.Reached :=
  Run.invariant (P := fun _ (s : Store) => s.Reached) hstart
    (fun _ write _ hs => hs.of_calls (calls_run ⟨config⟩ write)) writes

/-- After any writes, every place that was empty holds what was written there last. -/
theorem keeps_of_writes {start : Store} (hstart : start.Reached) (writes : List GraphWrite)
    (hempty : start.document? collection key = none) :
    Keeps config (Run.all (run ⟨config⟩) writes start).2 collection key
      (lastWritten (Run.all (run ⟨config⟩) writes start).1 collection key) := by
  refine (Run.invariant (P := fun log (s : Store) => s.Reached ∧
    Keeps config s collection key (lastWritten log collection key)) ⟨hstart, hempty⟩ ?_ writes).2
  rintro log write s ⟨hs, hkeeps⟩
  refine ⟨hs.of_calls (calls_run ⟨config⟩ write), ?_⟩
  rw [lastWritten, List.foldl_append]
  exact (effect_run hs.consistent.ordered write).keeps hkeeps

end GraphWrite
end Pushdown
