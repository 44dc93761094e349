import Pushdown.Proofs.Graph.Scanning
import Pushdown.Proofs.Graph.Writes

/-!
# Scans after writes

A scan of all elements of a kind ends with the first document that is not decoded. Every
document of the collections that it reads is that of an element, which was written there last, and
only the element says whether it is decoded: an edge with an end in another graph is stored, and
no scan gets past it.

## Results

* `Graph.keeps_of_read`: the documents that a scan reads are of the elements written last;
* `Graph.fault_iff`: when a scan of all elements meets a document that is not decoded;
* `Graph.fault_of_foreign_end`: a scan that meets one.
-/

namespace Pushdown
namespace Graph

variable {raw config : GraphConfig} {kind : ElementKind} {s : Store}

/-- What is read after some writes is what was written last. -/
theorem keeps_of_read (hvalid : raw.validate = .ok config) (writes : List GraphWrite)
    {name : String} (hname : name ∈ config.readCollections kind) (key : String) :
    GraphWrite.Keeps config
      (Run.all (GraphWrite.run ⟨config⟩) writes (Store.fresh config)).2 name key
      (GraphWrite.lastWritten
        (Run.all (GraphWrite.run ⟨config⟩) writes (Store.fresh config)).1 name key) := by
  refine GraphWrite.keeps_of_writes (reached_fresh hvalid) writes
    (Store.document?_fresh_of_ne ?_ key)
  rintro rfl
  exact config.variablesCollection_not_mem_readCollections kind hname

/-- Only the document of an element that is not readable is not decoded. -/
theorem of_decodeElementRow_error (hvalid : raw.validate = .ok config) {fields : Entries Json}
    {element : Element} {e : GraphError} (h : config.Records fields element)
    (herror : config.decodeElementRow (.object fields) = .error e) :
    ¬ element.Readable config ∧ ∃ fault, e = .decode fault := by
  have hnot : ¬ element.Readable config := by
    intro hreadable
    obtain ⟨read, hread, -⟩ := GraphConfig.exists_decoded hvalid h hreadable
    rw [hread] at herror
    cases herror
  obtain ⟨fault, hfault⟩ := GraphConfig.exists_fault hvalid h hnot
  rw [hfault] at herror
  cases herror
  exact ⟨hnot, fault, rfl⟩

section kept

variable {found : String → String → Option Element}

/-- An error of a scan is at the document of an element that is not readable. -/
theorem of_error_mem_items (hvalid : raw.validate = .ok config) (hs : s.Ordered)
    (hkeeps : ∀ name ∈ config.readCollections kind, ∀ key,
      GraphWrite.Keeps config s name key (found name key)) {e : GraphError}
    (herror : .error e ∈ config.readItems (config.readDocuments kind s)) :
    (∃ fault, e = .decode fault) ∧ ∃ name ∈ config.readCollections kind, ∃ key element,
      found name key = some element ∧ ¬ element.Readable config := by
  obtain ⟨row, hrow, herror⟩ := GraphConfig.exists_of_mem_readItems herror
  obtain ⟨name, hname, key, hdocument⟩ := (GraphConfig.mem_readDocuments_iff hs).mp hrow
  have hkept := hkeeps name hname key
  cases hfound : found name key with
  | none =>
      rw [hfound, GraphWrite.Keeps, hdocument] at hkept
      cases hkept
  | some element =>
      rw [hfound] at hkept
      obtain ⟨fields, hfields, hrecords⟩ := hkept
      obtain rfl : row = .object fields := Option.some.inj (hdocument.symm.trans hfields)
      obtain ⟨hnot, hfault⟩ := of_decodeElementRow_error hvalid hrecords herror
      exact ⟨hfault, name, hname, key, element, hfound, hnot⟩

/-- An element that is not readable is an error of a scan. -/
theorem exists_error_mem_items (hvalid : raw.validate = .ok config) (hs : s.Ordered)
    (hkeeps : ∀ name ∈ config.readCollections kind, ∀ key,
      GraphWrite.Keeps config s name key (found name key)) {name key : String}
    (hname : name ∈ config.readCollections kind) {element : Element}
    (hfound : found name key = some element) (hnot : ¬ element.Readable config) :
    ∃ fault, .error (.decode fault) ∈ config.readItems (config.readDocuments kind s) := by
  have hkept := hkeeps name hname key
  rw [hfound] at hkept
  obtain ⟨fields, hfields, hrecords⟩ := hkept
  obtain ⟨fault, hfault⟩ := GraphConfig.exists_fault hvalid hrecords hnot
  have hrow := (GraphConfig.mem_readDocuments_iff hs).mpr ⟨name, hname, key, hfields⟩
  obtain ⟨first, hfirst⟩ := GraphConfig.exists_error_mem_readItems hrow hfault
  -- the first error may be at another document, but is of the same sort
  obtain ⟨⟨other, rfl⟩, -⟩ := of_error_mem_items hvalid hs hkeeps hfirst
  exact ⟨other, hfirst⟩

end kept

/-- After any writes to a graph that was opened over an empty store, a scan of all elements of a
kind meets a document that is not decoded if one of the elements that were written last in the
collections that it reads is not readable, and only then. A legible scan reads the collections
of the kind and meets no other error. -/
theorem fault_iff (hvalid : raw.validate = .ok config) (writes : List GraphWrite)
    (kind : ElementKind) :
    ∃ start log last it,
      Graph.opened raw Store.empty = (.ok ⟨config⟩, start) ∧
      Run.all (GraphWrite.run ⟨config⟩) writes start = (log, last) ∧
      Graph.elements ⟨config⟩ kind [] = .ok it ∧
      ((∃ fault, .error (.decode fault) ∈ (it.drain last).1) ↔
        ∃ name ∈ config.readCollections kind, ∃ key element,
          GraphWrite.lastWritten log name key = some element ∧ ¬ element.Readable config) ∧
      (GraphConfig.Legible config .empty (config.collections kind) →
        config.readCollections kind =
          (config.collections kind).members.map config.physicalCollection ∧
        ∀ e, .error e ∈ (it.drain last).1 → ∃ fault, e = .decode fault) := by
  have hreached : (Run.all (GraphWrite.run ⟨config⟩) writes (Store.fresh config)).2.Reached :=
    GraphWrite.reached_of_writes (reached_fresh hvalid) writes
  have hkeeps : ∀ name ∈ config.readCollections kind, ∀ key, _ :=
    fun name hname key => keeps_of_read hvalid writes hname key
  cases hrun : Run.all (GraphWrite.run ⟨config⟩) writes (Store.fresh config) with
  | mk log last =>
    rw [hrun] at hkeeps hreached
    have hordered := hreached.consistent.ordered
    obtain ⟨it, hit, hitems⟩ := exists_drained config kind hreached.consistent.answers
    refine ⟨_, log, last, it, opened_empty hvalid, hrun, hit, ?_, ?_⟩
    · rcases hitems with hitems | ⟨-, hnone, fault, hitems⟩
      · rw [hitems]
        constructor
        · rintro ⟨fault, hfault⟩
          exact (of_error_mem_items hvalid hordered hkeeps hfault).2
        · rintro ⟨name, hname, key, element, hfound, hnot⟩
          exact exists_error_mem_items hvalid hordered hkeeps hname hfound hnot
      · rw [hitems, hnone]
        constructor
        · rintro ⟨other, hother⟩
          cases List.mem_singleton.mp hother
        · rintro ⟨name, hname, -⟩
          cases hname
    · intro hlegible
      refine ⟨GraphConfig.readCollections_of_legible hlegible, fun e herror => ?_⟩
      rw [drained_of_legible hreached.consistent.answers hlegible hit] at herror
      exact (of_error_mem_items hvalid hordered hkeeps herror).1

/-- Alice is added and written back with another label. -/
def relabelledAlice : List GraphWrite :=
  [.add (.vertex (some "person") (some "alice") []),
    .update (.vertex ⟨⟨"tinkerpop", "vertex", some "alice"⟩, "human", none, [], []⟩)]

theorem fault_iff_alice :
    ∃ log last it, Run.all (GraphWrite.run ⟨GraphConfig.standard⟩) relabelledAlice
        (Store.fresh GraphConfig.standard) = (log, last) ∧
      Graph.elements ⟨GraphConfig.standard⟩ .vertex [] = .ok it ∧
      ¬ ∃ fault, .error (.decode fault) ∈ (it.drain last).1 := by
  obtain ⟨start, log, last, it, hopened, hrun, hit, hfault, -⟩ :=
    fault_iff GraphConfig.validate_initial relabelledAlice .vertex
  rw [opened_empty GraphConfig.validate_initial] at hopened
  cases hopened
  refine ⟨log, last, it, hrun, hit, hfault.not.mpr ?_⟩
  rintro ⟨name, -, key, element, hfound, hnot⟩
  obtain rfl : _ = log := congrArg Prod.fst hrun
  obtain ⟨write, hwrite⟩ := GraphWrite.mem_of_lastWritten hfound
  rcases List.mem_cons.mp hwrite with h | h
  · cases h
    exact hnot (Element.readable_alice rfl rfl)
  · cases List.mem_singleton.mp h
    exact hnot (Element.readable_alice rfl rfl)

/-- An edge from a vertex of another graph. -/
def foreignEdge : Addition :=
  .edge none none ⟨"other", "vertex", some "a"⟩ ⟨"tinkerpop", "vertex", some "b"⟩ []

/-- The edge is stored under an assigned key, and the scan of the edges ends at it. -/
theorem fault_of_foreign_end :
    ∃ last it,
      Graph.opened GraphConfig.initial Store.empty =
        (.ok ⟨GraphConfig.standard⟩, Store.fresh GraphConfig.standard) ∧
      Run.all (GraphWrite.run ⟨GraphConfig.standard⟩) [.add foreignEdge]
          (Store.fresh GraphConfig.standard) =
        ([(.add foreignEdge, .ok (some (.edge ⟨⟨"tinkerpop", "edge", some "1"⟩, "edge", some "3",
          ⟨"other", "vertex", some "a"⟩, ⟨"tinkerpop", "vertex", some "b"⟩, []⟩)))], last) ∧
      Graph.elements ⟨GraphConfig.standard⟩ .edge [] = .ok it ∧
      (it.drain last).1 =
        [.error (.decode (.badId "_from" (.malformedDocument "other_vertex/a")))] :=
  ⟨_, _, opened_empty GraphConfig.validate_initial, rfl, rfl, rfl⟩

end Graph
end Pushdown
