import Pushdown.Proofs.Graph.Labels
import Pushdown.Proofs.Store.Calls

/-!
# Graph variables as a map

Setting and removing variables reads the document of the variables, changes what was read and
writes it back. The fields that are not reserved are the entries of a map, and the reserved ones
stay as they are, so the calls that succeed are insertions and removals of entries.

## Results

* `GraphVariables.ofDocument_of_holds`: what is read from a document of variables;
* `Graph.remembering_of_opened`: a graph that was opened has a document of variables;
* `VariableCall.effect_run`: what a call does to the variables;
* `Graph.variables_of_calls`: the variables after any calls.
-/

namespace Pushdown

variable {raw config : GraphConfig} {fields : Entries Json} {values : Entries Value}

/-- Fields that hold values, besides the name of the graph and the version of the library. -/
structure GraphVariables.Holds (config : GraphConfig) (fields : Entries Json)
    (values : Entries Value) : Prop where
  key : Entries.find? "_key" fields = some (.string config.graph)
  version : Entries.find? versionField fields = some (.string libraryVersion)
  kept : Entries.kept (fun key => !config.isReserved key) fields = Value.toJsonFields values
  classified : Classified config values
  narrowed : Value.narrowedEntries values = values

namespace GraphVariables

theorem textField_eq {name text : String} (h : Entries.find? name fields = some (.string text)) :
    textField fields name = .ok text := by
  rw [textField, h]
  rfl

/-- Reserved fields hold no values. -/
theorem readValues_eq (config : GraphConfig) : ∀ fields : Entries Json,
    readValues config fields =
      readValues config (Entries.kept (fun key => !config.isReserved key) fields)
  | [] => rfl
  | (key, json) :: fields => by
      rw [readValues, readValues_eq config fields]
      cases hkey : config.isReserved key with
      | true =>
          rw [if_pos rfl, Entries.kept_cons_of_false json fields (by rw [hkey]; rfl)]
      | false =>
          rw [Entries.kept_cons_of_true json fields (by rw [hkey]; rfl), readValues, hkey]

theorem readValues_toJsonFields : ∀ {values : Entries Value},
    (∀ key ∈ Entries.keys values, config.isReserved key = false) →
    Value.AllFiniteEntries values →
    readValues config (Value.toJsonFields values) = .ok (Value.narrowedEntries values)
  | [], _, _ => rfl
  | (key, value) :: values, hkeys, hfinite => by
      have hkey : ¬ config.isReserved key = true := by
        rw [hkeys key List.mem_cons_self]
        exact Bool.false_ne_true
      rw [Value.toJsonFields, readValues, if_neg hkey, Value.ofJson?_toJson hfinite.1]
      dsimp only
      rw [readValues_toJsonFields (fun k hk => hkeys k (List.mem_cons_of_mem key hk)) hfinite.2]
      rfl

/-- The values that fields hold are read from them. -/
theorem ofDocument_of_holds (h : Holds config fields values) :
    ofDocument config (.object fields) = .ok ⟨config.graph, libraryVersion, values⟩ := by
  have hvalues : readValues config fields = .ok values := by
    rw [readValues_eq, h.kept,
      readValues_toJsonFields h.classified.unreserved h.classified.finite, h.narrowed]
  rw [ofDocument, textField_eq h.key, textField_eq h.version, hvalues]
  rfl

/-- The fields of the document of variables. -/
def written (vars : GraphVariables) : Entries Json :=
  Entries.insertAll (Value.toJsonFields vars.values)
    [("_key", .string vars.key), (versionField, .string vars.version)]

theorem foldl_insert : ∀ (values : Entries Value) (fields : Entries Json),
    values.foldl (fun fields (key, value) => Entries.insert key value.toJson fields) fields =
      Entries.insertAll (Value.toJsonFields values) fields
  | [], _ => rfl
  | (key, value) :: values, fields => foldl_insert values (Entries.insert key value.toJson fields)

theorem toDocument_eq (vars : GraphVariables) : vars.toDocument = .object vars.written := by
  rw [toDocument, foldl_insert]
  rfl

theorem isReserved_key : config.isReserved "_key" = true :=
  GraphConfig.isReserved_of_mem (by decide)

theorem isReserved_version : config.isReserved versionField = true :=
  GraphConfig.isReserved_of_mem (by decide)

section written

variable {vars : GraphVariables} (assigned : DocumentMeta)

/-- A reserved field of the document is not overwritten by a value. -/
theorem find?_written (h : ∀ key ∈ Entries.keys vars.values, config.isReserved key = false)
    {key : String} (hkey : config.isReserved key = true) :
    Entries.find? key vars.written =
      Entries.find? key [("_key", .string vars.key), (versionField, .string vars.version)] := by
  refine Entries.find?_insertAll_of_not_mem ?_
  rw [Value.keys_toJsonFields]
  intro hmem
  rw [h key hmem] at hkey
  cases hkey

theorem ascending_base {key version : String} :
    Entries.Ascending [("_key", Json.string key), (versionField, .string version)] := by
  simp only [Entries.Ascending, Entries.keys, List.map_cons, List.map_nil]
  decide

/-- The fields that are not reserved are those of the values. -/
theorem kept_written (h : Classified config vars.values) :
    Entries.kept (fun key => !config.isReserved key) vars.written =
      Value.toJsonFields vars.values := by
  have hkeys : ∀ key ∈ Entries.keys (Value.toJsonFields vars.values),
      (!config.isReserved key) = true := by
    intro key hkey
    rw [Value.keys_toJsonFields] at hkey
    rw [h.unreserved key hkey]
    rfl
  have hbase : Entries.kept (fun key => !config.isReserved key)
      [("_key", Json.string vars.key), (versionField, .string vars.version)] = [] := by
    rw [Entries.kept_cons_of_false _ _ (by rw [isReserved_key]; rfl),
      Entries.kept_cons_of_false _ _ (by rw [isReserved_version]; rfl)]
    rfl
  have hascending : Entries.Ascending (Value.toJsonFields vars.values) := by
    rw [Entries.Ascending, Value.keys_toJsonFields]
    exact h.ascending
  rw [written, Entries.kept_insertAll_of_true ascending_base hkeys, hbase]
  exact Entries.ofList_eq_self hascending

end written

section holds

variable {assigned : DocumentMeta}

/-- The name and the version are in the fields that the store was given, whatever the values. -/
theorem find?_stamped_written (vars : GraphVariables)
    (h : ∀ key ∈ Entries.keys vars.values, config.isReserved key = false)
    (hassigned : assigned.key = vars.key) :
    Entries.find? "_key" (Store.stamped vars.written assigned) = some (.string vars.key) ∧
      Entries.find? versionField (Store.stamped vars.written assigned) =
        some (.string vars.version) := by
  constructor
  · rw [Store.find?_key, hassigned]
  · rw [Store.find?_stamped _ _ (by decide), find?_written h isReserved_version]
    rfl

/-- Classified values are read back with narrow integers. -/
theorem holds_written (h : Classified config values) (hassigned : assigned.key = config.graph) :
    Holds config (Store.stamped (written ⟨config.graph, libraryVersion, values⟩) assigned)
      (Value.narrowedEntries values) := by
  obtain ⟨hkey, hversion⟩ := find?_stamped_written
    ⟨config.graph, libraryVersion, values⟩ h.unreserved hassigned
  refine ⟨hkey, hversion, ?_, ⟨?_, ?_, Value.allFiniteEntries_narrowedEntries h.finite⟩,
    Value.narrowedEntries_narrowedEntries values⟩
  · rw [GraphConfig.kept_stamped, kept_written h, Value.toJsonFields_narrowedEntries]
  · rw [Entries.Ascending, Value.keys_narrowedEntries]
    exact h.ascending
  · rw [Value.keys_narrowedEntries]
    exact h.unreserved

/-- Whatever values are written, some are read back. -/
theorem exists_holds_written
    (h : ∀ key ∈ Entries.keys values, config.isReserved key = false)
    (hassigned : assigned.key = config.graph) :
    ∃ read, Holds config
      (Store.stamped (written ⟨config.graph, libraryVersion, values⟩) assigned) read := by
  obtain ⟨hkey, hversion⟩ := find?_stamped_written
    ⟨config.graph, libraryVersion, values⟩ h hassigned
  have hascending : Entries.Ascending (written ⟨config.graph, libraryVersion, values⟩) :=
    Entries.ascending_insertAll _ ascending_base
  have hvalues : ∀ field ∈ Entries.kept (fun key => !config.isReserved key)
      (written ⟨config.graph, libraryVersion, values⟩),
      ∃ value : Value, value.toJson = field.2 := by
    intro field hfield
    rcases Entries.mem_or_mem_of_mem_insertAll (List.mem_filter.mp hfield).1 with hmem | hmem
    · exact Value.exists_of_mem_toJsonFields hmem
    · rcases List.mem_cons.mp hmem with rfl | hmem
      · exact ⟨.string _, rfl⟩
      · rw [List.mem_singleton.mp hmem]
        exact ⟨.string _, rfl⟩
  obtain ⟨read, hjson, hfinite, hnarrowed⟩ := Value.exists_entries hvalues
  have hkeys : Entries.keys read = Entries.keys (Entries.kept (fun key => !config.isReserved key)
      (written ⟨config.graph, libraryVersion, values⟩)) := by
    rw [← hjson, Value.keys_toJsonFields]
  refine ⟨read, hkey, hversion, ?_, ⟨?_, ?_, hfinite⟩, hnarrowed⟩
  · rw [GraphConfig.kept_stamped, hjson]
  · rw [Entries.Ascending, hkeys]
    exact hascending.kept
  · intro key hmem
    rw [hkeys] at hmem
    obtain ⟨field, hfield, rfl⟩ := List.mem_map.mp hmem
    have hfree := (List.mem_filter.mp hfield).2
    rwa [Bool.not_eq_true'] at hfree

end holds

/-- The values that are read from fields are under names that are not reserved. -/
theorem unreserved_of_readValues : ∀ {fields : Entries Json} {values : Entries Value},
    readValues config fields = .ok values →
    ∀ key ∈ Entries.keys values, config.isReserved key = false
  | [], _, h => by
      cases h
      nofun
  | (key, json) :: fields, values, h => by
      rw [readValues] at h
      split at h
      · exact unreserved_of_readValues h
      · next hkey =>
        split at h
        · cases h
        · split at h
          · cases h
          · next rest hrest =>
            cases h
            intro other hother
            rcases List.mem_cons.mp hother with rfl | hother
            · rwa [Bool.not_eq_true] at hkey
            · exact unreserved_of_readValues hrest other hother

end GraphVariables
/-- A store holds the variables of a graph. -/
def Store.Remembers (config : GraphConfig) (values : Entries Value) (s : Store) : Prop :=
  ∃ fields, s.document? variablesCollection config.graph = some (.object fields) ∧
    GraphVariables.Holds config fields values

/-- The variables of a graph were changed, and no other document. -/
structure Store.Remembering (config : GraphConfig) (values : Entries Value) (s s' : Store) :
    Prop where
  remembers : s'.Remembers config values
  others : ∀ c k, c ≠ variablesCollection ∨ k ≠ config.graph →
    s'.document? c k = s.document? c k

namespace Graph

variable {s s' : Store}

/-- Loading the variables reads their document. -/
theorem loadVariables_apply (config : GraphConfig) (s : Store) :
    (loadVariables config : GraphAction Store _) s =
      (match s.document? variablesCollection config.graph with
        | some document => (GraphVariables.ofDocument config document).map some
        | none => .ok none, s) := by
  rw [loadVariables, GraphAction.bind_apply]
  have hget : onStore (Client.get variablesCollection config.graph) s =
      (.ok (s.document? variablesCollection config.graph), s) := rfl
  rw [hget]
  dsimp only
  cases s.document? variablesCollection config.graph with
  | none => rfl
  | some document =>
      dsimp only
      rw [GraphAction.bind_apply, result]
      cases GraphVariables.ofDocument config document <;> rfl

/-- The stored variables of a graph are those of their document. -/
theorem storedVariables_apply (graph : Graph) (s : Store) :
    graph.storedVariables s =
      (match s.document? variablesCollection graph.config.graph with
        | some document => GraphVariables.ofDocument graph.config document
        | none => .error (noVariables graph.config), s) := by
  rw [storedVariables, GraphAction.bind_apply, loadVariables_apply]
  cases s.document? variablesCollection graph.config.graph with
  | none => rfl
  | some document =>
      dsimp only
      cases GraphVariables.ofDocument graph.config document <;> rfl

/-- The variables that a store holds are read. -/
theorem storedVariables_of_remembers (h : s.Remembers config values) :
    storedVariables ⟨config⟩ s = (.ok ⟨config.graph, libraryVersion, values⟩, s) := by
  obtain ⟨fields, hfound, hholds⟩ := h
  rw [storedVariables_apply, hfound]
  dsimp only
  rw [GraphVariables.ofDocument_of_holds hholds]

/-- Variables are written where their document is. -/
theorem storeVariables_eq (vars : GraphVariables) (hkey : vars.key = config.graph)
    (h : (s.document? variablesCollection config.graph).isSome = true) :
    ∃ s', storeVariables vars s = (.ok (), s') ∧
      Store.Writes variablesCollection config.graph
        (.object (Store.stamped vars.written (s.assign variablesCollection config.graph)))
        s s' := by
  obtain ⟨s', hreplace⟩ := Store.exists_replace h vars.written
  have hwrites := (Store.of_replace hreplace).2.2
  obtain ⟨fields, hfields, hwrites⟩ := hwrites
  cases hfields
  refine ⟨s', ?_, hwrites⟩
  have hclient : Client.replace variablesCollection vars.key vars.toDocument s =
      (.ok (s.assign variablesCollection config.graph), s') := by
    rw [hkey, GraphVariables.toDocument_eq]
    exact hreplace
  rw [storeVariables, GraphAction.bind_apply, GraphAction.onStore_eq_ok_iff.mpr hclient]
  rfl

/-- Written values are remembered with narrow integers. -/
theorem storeVariables_of_classified
    (hs : (s.document? variablesCollection config.graph).isSome = true)
    (h : Classified config values) :
    ∃ s', storeVariables ⟨config.graph, libraryVersion, values⟩ s = (.ok (), s') ∧
      Store.Remembering config (Value.narrowedEntries values) s s' := by
  obtain ⟨s', hstored, hwrites⟩ := storeVariables_eq
    ⟨config.graph, libraryVersion, values⟩ rfl hs
  exact ⟨s', hstored, ⟨_, hwrites.stored, GraphVariables.holds_written h rfl⟩, hwrites.others⟩

theorem isReserved_of_checkVariable {key : String} {value : Value}
    (h : checkVariable config key value = .ok ()) : config.isReserved key = false := by
  unfold checkVariable at h
  split at h
  · cases h
  · split at h
    · cases h
    · next hkey => rwa [Bool.not_eq_true] at hkey

/-- What is remembered is remembered as one map. -/
theorem eq_of_remembers {other : Entries Value} (h : s.Remembers config values)
    (hother : s.Remembers config other) : values = other := by
  have heq := (storedVariables_of_remembers h).symm.trans (storedVariables_of_remembers hother)
  cases heq
  rfl

/-- The variables of a graph that has none yet. -/
theorem remembering_of_createVariables {vars : GraphVariables}
    (h : createVariables config s = (.ok vars, s')) :
    vars = ⟨config.graph, libraryVersion, []⟩ ∧ Store.Remembering config [] s s' := by
  obtain ⟨assigned, mid, hinsert, h⟩ := Graph.bind_eq_ok_iff.mp h
  cases h
  have hstored : Store.insert variablesCollection
      (.object (GraphVariables.written ⟨config.graph, libraryVersion, []⟩)) s =
        (.ok assigned, s') := by
    rw [← GraphVariables.toDocument_eq]
    exact GraphAction.onStore_eq_ok_iff.mp hinsert
  obtain ⟨-, hkey, -, hwrites⟩ := Store.of_insert hstored
  have hassigned : assigned.key = config.graph := hkey
  rw [hassigned] at hwrites
  have hempty : Classified config [] := ⟨List.Pairwise.nil, nofun, trivial⟩
  exact ⟨rfl, ⟨_, hwrites.stored, GraphVariables.holds_written hempty hassigned⟩, hwrites.others⟩

/-- The name and the values that are read from a document. -/
theorem of_ofDocument {document : Json} {vars : GraphVariables}
    (h : GraphVariables.ofDocument config document = .ok vars) :
    ∃ fields, document = .object fields ∧
      GraphVariables.textField fields "_key" = .ok vars.key ∧
      GraphVariables.readValues config fields = .ok vars.values := by
  unfold GraphVariables.ofDocument at h
  split at h
  · next fields =>
    obtain ⟨key, hkey, h⟩ := Outcome.bind_eq_ok_iff.mp h
    obtain ⟨version, -, h⟩ := Outcome.bind_eq_ok_iff.mp h
    obtain ⟨values, hvalues, h⟩ := Outcome.bind_eq_ok_iff.mp h
    cases h
    exact ⟨fields, rfl, hkey, hvalues⟩
  · cases h

/-- A graph whose variables were found writes them back with the version of the library. -/
theorem remembering_of_found {document : Json} {vars : GraphVariables} (hs : s.Consistent)
    (hfound : s.document? variablesCollection config.graph = some document)
    (hread : GraphVariables.ofDocument config document = .ok vars)
    (hstored : storeVariables { vars with version := libraryVersion } s = (.ok (), s')) :
    ∃ initial, Store.Remembering config initial s s' ∧
      ∀ values, s.Remembers config values → initial = values := by
  obtain ⟨fields, rfl, hkey, hvalues⟩ := of_ofDocument hread
  obtain ⟨key, version, values⟩ := vars
  -- the document is stamped with the name of the graph
  obtain rfl : key = config.graph := by
    obtain ⟨number, ⟨given, hgiven⟩, -⟩ := hs.stamped hfound
    cases hgiven
    rw [GraphVariables.textField_eq (Store.find?_key _ _)] at hkey
    cases hkey
    rfl
  have hthere : (s.document? variablesCollection config.graph).isSome = true := by
    rw [hfound]
    rfl
  obtain ⟨last, hlast, hwrites⟩ := storeVariables_eq
    ⟨config.graph, libraryVersion, values⟩ rfl hthere
  obtain rfl : last = s' := by
    rw [hlast] at hstored
    cases hstored
    rfl
  have hassigned : (s.assign variablesCollection config.graph).key = config.graph := rfl
  obtain ⟨initial, hinitial⟩ := GraphVariables.exists_holds_written
    (GraphVariables.unreserved_of_readValues hvalues) hassigned
  refine ⟨initial, ⟨⟨_, hwrites.stored, hinitial⟩, hwrites.others⟩, ?_⟩
  rintro remembered ⟨other, hother, hholds⟩
  rw [hfound] at hother
  cases hother
  rw [GraphVariables.ofDocument_of_holds hholds] at hread
  cases hread
  have hagain := GraphVariables.holds_written hholds.classified hassigned
  rw [hholds.narrowed] at hagain
  exact eq_of_remembers ⟨_, hwrites.stored, hinitial⟩ ⟨_, hwrites.stored, hagain⟩

/-- What becomes of the variables when a graph is opened: those that are there are kept, and if
there are none, the graph has an empty map. -/
theorem remembering_of_initVariables {u : Unit} (hs : s.Consistent)
    (h : initVariables config s = (.ok u, s')) :
    ∃ initial, Store.Remembering config initial s s' ∧
      (s.document? variablesCollection config.graph = none → initial = []) ∧
      ∀ values, s.Remembers config values → initial = values := by
  obtain ⟨v, ensured, hensured, h⟩ := Graph.bind_eq_ok_iff.mp h
  have hsame : ∀ c k, ensured.document? c k = s.document? c k := by
    cases hensured
    exact Store.document?_of_same rfl
  have hconsistent : ensured.Consistent := by
    have hrun := hs.run (.ensureCollection variablesCollection)
    cases hensured
    exact hrun
  obtain ⟨found, loaded, hloaded, h⟩ := Graph.bind_eq_ok_iff.mp h
  rw [loadVariables_apply, hsame] at hloaded
  cases hfound : s.document? variablesCollection config.graph with
  | some document =>
      rw [hfound] at hloaded
      obtain ⟨hmapped, rfl⟩ := Prod.mk.inj hloaded
      dsimp only at hmapped
      obtain ⟨vars, hread, rfl⟩ := Outcome.map_eq_ok_iff.mp hmapped
      obtain ⟨same, mid, hpure, h⟩ := Graph.bind_eq_ok_iff.mp h
      cases hpure
      obtain ⟨w, checked, hchecked, h⟩ := Graph.bind_eq_ok_iff.mp h
      obtain ⟨-, rfl⟩ := result_eq_ok_iff.mp hchecked
      obtain ⟨initial, hremembering, hinitial⟩ :=
        remembering_of_found hconsistent ((hsame _ _).trans hfound) hread h
      refine ⟨initial, ⟨hremembering.remembers, fun c k hne => ?_⟩, nofun, ?_⟩
      · rw [hremembering.others c k hne, hsame]
      · rintro values ⟨fields, hstored, hholds⟩
        exact hinitial values ⟨fields, (hsame _ _).trans hstored, hholds⟩
  | none =>
      rw [hfound] at hloaded
      cases hloaded
      obtain ⟨vars, created, hcreated, h⟩ := Graph.bind_eq_ok_iff.mp h
      obtain ⟨rfl, hremembering⟩ := remembering_of_createVariables hcreated
      obtain ⟨w, checked, hchecked, h⟩ := Graph.bind_eq_ok_iff.mp h
      obtain ⟨-, rfl⟩ := result_eq_ok_iff.mp hchecked
      obtain ⟨fields, hstored, hholds⟩ := hremembering.remembers
      have hthere : (created.document? variablesCollection config.graph).isSome = true := by
        rw [hstored]
        rfl
      obtain ⟨last, hlast, hagain⟩ := storeVariables_of_classified hthere hholds.classified
      rw [hlast] at h
      cases h
      refine ⟨[], ⟨hagain.remembers, fun c k hne => ?_⟩, fun _ => rfl, ?_⟩
      · rw [hagain.others c k hne, hremembering.others c k hne, hsame]
      · rintro values ⟨fields, hother, -⟩
        rw [hfound] at hother
        cases hother

/-- What becomes of the variables when a graph is opened. -/
theorem remembering_of_opened {graph : Graph} (hs : s.Consistent)
    (h : Graph.opened raw s = (.ok graph, s')) :
    ∃ initial, Store.Remembering graph.config initial s s' ∧
      (s.document? variablesCollection graph.config.graph = none → initial = []) ∧
      ∀ values, s.Remembers graph.config values → initial = values := by
  obtain ⟨config, mid, hvalidate, h⟩ := Graph.bind_eq_ok_iff.mp h
  obtain ⟨-, rfl⟩ := result_eq_ok_iff.mp hvalidate
  obtain ⟨u, last, hinit, h⟩ := Graph.bind_eq_ok_iff.mp h
  cases h
  exact remembering_of_initVariables hs hinit

end Graph

/-- A call that changes the variables of a graph. -/
inductive VariableCall where
  | set (key : String) (raw : RawValue)
  | remove (key : String)

namespace VariableCall

variable {s : Store}

/-- Make a call. -/
def run (graph : Graph) (call : VariableCall) (s : Store) : Result GraphVariables × Store :=
  match call with
  | set key raw => graph.setVariable key raw s
  | remove key => graph.removeVariable key s

/-- What a call does to a map of variables, if it succeeds: the value is set, with integers in 32
bits wherever they fit, or the entry is dropped. -/
def apply (values : Entries Value) : VariableCall × Result GraphVariables → Entries Value
  | (set key raw, .ok _) =>
      match Graph.classified raw with
      | .ok value => Entries.insert key value.narrowed values
      | .error _ => values
  | (remove key, .ok _) => Entries.erase key values
  | (_, .error _) => values

/-- The calls that succeed: what is set can be kept under its key. -/
def Accepted (config : GraphConfig) : VariableCall → Prop
  | set key raw => ∃ value, Graph.classified raw = .ok value ∧
      checkVariable config key value = .ok ()
  | remove _ => True

/-- What a call does to a store that remembers the variables. -/
structure Effect (config : GraphConfig) (values : Entries Value) (call : VariableCall)
    (answer : Result GraphVariables) (s s' : Store) : Prop where
  remembering : Store.Remembering config (apply values (call, answer)) s s'
  accepted : (∃ vars, answer = .ok vars) ↔ call.Accepted config
  unchanged : ∀ e, answer = .error e → s' = s

theorem effect_of_error {call : VariableCall} (h : s.Remembers config values) (e : GraphError)
    (hnot : ¬ call.Accepted config) : Effect config values call (.error e) s s where
  remembering := ⟨by cases call <;> exact h, fun _ _ _ => rfl⟩
  accepted := ⟨nofun, fun h => absurd h hnot⟩
  unchanged _ _ := rfl

theorem effect_set (h : s.Remembers config values) (key : String) (raw : RawValue) :
    Effect config values (set key raw) ((set key raw).run ⟨config⟩ s).1 s
      ((set key raw).run ⟨config⟩ s).2 := by
  rw [run, Graph.setVariable, GraphAction.bind_apply, result]
  cases hclassified : Graph.classified raw with
  | error e =>
      refine effect_of_error h e ?_
      rintro ⟨value, hvalue, -⟩
      rw [hclassified] at hvalue
      cases hvalue
  | ok value =>
      dsimp only
      rw [GraphAction.bind_apply, result]
      cases hcheck : checkVariable config key value with
      | error e =>
          refine effect_of_error h e ?_
          rintro ⟨other, hother, hcheckOther⟩
          rw [hclassified] at hother
          cases hother
          rw [hcheck] at hcheckOther
          cases hcheckOther
      | ok u =>
          dsimp only
          rw [GraphAction.bind_apply, Graph.storedVariables_of_remembers h]
          obtain ⟨fields, hfound, hholds⟩ := h
          have hthere : (s.document? variablesCollection config.graph).isSome = true := by
            rw [hfound]
            rfl
          obtain ⟨s', hstored, hremembering⟩ := Graph.storeVariables_of_classified hthere
            (hholds.classified.insert (Graph.isReserved_of_checkVariable hcheck)
              (Graph.allFinite_of_classified hclassified))
          rw [Value.narrowedEntries_insert, hholds.narrowed] at hremembering
          dsimp only [GraphVariables.set]
          rw [GraphAction.bind_apply, hstored]
          show Effect config values _ (.ok ⟨_, _, Entries.insert key value values⟩) s s'
          refine ⟨?_, ⟨fun _ => ⟨value, hclassified, hcheck⟩, fun _ => ⟨_, rfl⟩⟩,
            fun e he => by cases he⟩
          rw [apply, hclassified]
          exact hremembering

theorem effect_remove (h : s.Remembers config values) (key : String) :
    Effect config values (remove key) ((remove key).run ⟨config⟩ s).1 s
      ((remove key).run ⟨config⟩ s).2 := by
  rw [run, Graph.removeVariable, GraphAction.bind_apply, Graph.storedVariables_of_remembers h]
  dsimp only
  have haccepted : (remove key).Accepted config := trivial
  split
  · next hcontains =>
    obtain ⟨fields, hfound, hholds⟩ := h
    have hclassified : Classified config (Entries.erase key values) :=
      ⟨Entries.ascending_erase hholds.classified.ascending,
        fun k hk => hholds.classified.unreserved k
          ((Entries.keys_erase_sublist key values).subset hk),
        Value.allFiniteEntries_erase hholds.classified.finite⟩
    have hthere : (s.document? variablesCollection config.graph).isSome = true := by
      rw [hfound]
      rfl
    obtain ⟨s', hstored, hremembering⟩ := Graph.storeVariables_of_classified hthere hclassified
    rw [Value.narrowedEntries_erase, hholds.narrowed] at hremembering
    dsimp only [GraphVariables.remove]
    rw [GraphAction.bind_apply, hstored]
    exact ⟨hremembering, ⟨fun _ => haccepted, fun _ => ⟨_, rfl⟩⟩, fun e he => by cases he⟩
  · next hcontains =>
    rw [Entries.contains, Option.not_isSome_iff_eq_none] at hcontains
    show Effect config values _ (.ok ⟨_, _, values⟩) s s
    refine ⟨⟨?_, fun _ _ _ => rfl⟩, ⟨fun _ => haccepted, fun _ => ⟨_, rfl⟩⟩,
      fun e he => by cases he⟩
    rw [apply, Entries.erase_eq_self hcontains]
    exact h

/-- What a call does to the variables. -/
theorem effect_run (h : s.Remembers config values) (call : VariableCall) :
    Effect config values call (call.run ⟨config⟩ s).1 s (call.run ⟨config⟩ s).2 := by
  cases call with
  | set key raw => exact effect_set h key raw
  | remove key => exact effect_remove h key

/-- What several calls do to the variables. -/
theorem remembering_of_calls {start : Store} (h : start.Remembers config values)
    (calls : List VariableCall) :
    Store.Remembering config ((Run.all (run ⟨config⟩) calls start).1.foldl apply values) start
      (Run.all (run ⟨config⟩) calls start).2 := by
  refine Run.invariant
    (P := fun log s => Store.Remembering config (log.foldl apply values) start s)
    ⟨h, fun _ _ _ => rfl⟩ ?_ calls
  intro log call s hs
  obtain ⟨hremembering, -, -⟩ := effect_run hs.remembers call
  rw [List.foldl_append]
  exact ⟨hremembering.remembers,
    fun c k hne => (hremembering.others c k hne).trans (hs.others c k hne)⟩

end VariableCall

namespace Graph

variable {s start : Store}

/-- After any calls on a graph that was opened over a store in memory, its variables have its name,
the version of the library, and the entries of the map that the successful calls made, in their
order, of the one that was there when the graph was opened. One more call succeeds exactly if what
it sets can be kept, and changes nothing if it fails. The variables of graphs with other names
stay as they were before the graph was opened. -/
theorem variables_of_calls (hs : s.Reached) (hopened : opened raw s = (.ok ⟨config⟩, start))
    (calls : List VariableCall) (call : VariableCall) :
    ∃ initial log mid answer last,
      (s.document? variablesCollection config.graph = none → initial = []) ∧
      (∀ values, s.Remembers config values → initial = values) ∧
      storedVariables ⟨config⟩ start = (.ok ⟨config.graph, libraryVersion, initial⟩, start) ∧
      Run.all (VariableCall.run ⟨config⟩) calls start = (log, mid) ∧
      storedVariables ⟨config⟩ mid =
        (.ok ⟨config.graph, libraryVersion, log.foldl VariableCall.apply initial⟩, mid) ∧
      Entries.Ascending (log.foldl VariableCall.apply initial) ∧
      call.run ⟨config⟩ mid = (answer, last) ∧
      ((∃ vars, answer = .ok vars) ↔ call.Accepted config) ∧
      (∀ e, answer = .error e → last = mid) ∧
      ∀ other : GraphConfig, other.graph ≠ config.graph →
        (storedVariables ⟨other⟩ last).1 = (storedVariables ⟨other⟩ s).1 := by
  obtain ⟨initial, hstart, hnone, hsome⟩ := remembering_of_opened hs.consistent hopened
  have hmid := VariableCall.remembering_of_calls hstart.remembers calls
  generalize hrun : Run.all (VariableCall.run ⟨config⟩) calls start = run at hmid
  obtain ⟨log, mid⟩ := run
  have heffect := VariableCall.effect_run hmid.remembers call
  generalize hcall : call.run ⟨config⟩ mid = outcome at heffect
  obtain ⟨answer, last⟩ := outcome
  obtain ⟨hlast, haccepted, hunchanged⟩ := heffect
  obtain ⟨fields, -, hholds⟩ := hmid.remembers
  refine ⟨initial, log, mid, answer, last, hnone, hsome,
    storedVariables_of_remembers hstart.remembers, rfl,
    storedVariables_of_remembers hmid.remembers, hholds.classified.ascending, hcall, haccepted,
    hunchanged, ?_⟩
  intro other hother
  have hsame : last.document? variablesCollection other.graph =
      s.document? variablesCollection other.graph := by
    rw [hlast.others _ _ (.inr hother), hmid.others _ _ (.inr hother),
      hstart.others _ _ (.inr hother)]
  rw [storedVariables_apply, storedVariables_apply, hsame]

/-- A long integer is set that fits in 32 bits, a null is refused, and another name is set and
removed. -/
def sinceCalls : List VariableCall :=
  [.set "since" (.long 2024), .set "until" .null, .set "owner" (.string "alice"), .remove "owner"]

theorem variables_of_calls_since :
    ∃ mid, (Run.all (VariableCall.run ⟨GraphConfig.kennel⟩) sinceCalls
        (Store.fresh GraphConfig.kennel)).2 = mid ∧
      storedVariables ⟨GraphConfig.kennel⟩ mid =
        (.ok ⟨"kennel", libraryVersion, [("since", .int32 2024)]⟩, mid) := by
  have hreached : Store.empty.Reached := ⟨[], rfl⟩
  obtain ⟨initial, log, mid, answer, last, hinitial, -, -, hrun, hstored, -⟩ :=
    variables_of_calls hreached (opened_empty GraphConfig.validate_kennel) sinceCalls
      (.remove "since")
  obtain rfl : initial = [] := hinitial rfl
  have hlog : log.foldl VariableCall.apply [] = [("since", .int32 2024)] := by
    have heq : log = (Run.all (VariableCall.run ⟨GraphConfig.kennel⟩) sinceCalls
        (Store.fresh GraphConfig.kennel)).1 := by rw [hrun]
    rw [heq]
    rfl
  rw [hlog] at hstored
  exact ⟨mid, by rw [hrun], hstored⟩

end Graph
end Pushdown
