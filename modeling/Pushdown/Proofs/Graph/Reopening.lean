import Pushdown.Proofs.Graph.Variables

/-!
# Opening a graph again

A graph is opened under one name by several configurations. Opening it reads the document of its
variables and writes it back, so a field that is not read as a variable is dropped: the label field
of the configuration that opens the graph, where one of another configuration has set a variable
under that name.

## Results

* `GraphVariables.ofDocument_recorded`: what any configuration reads from the document of variables;
* `Graph.records_of_opened`: what opening a graph makes of the document;
* `Visit.known_of_visits`: the document after any visits;
* `Graph.keeps_variables_iff`: when a graph keeps its variables as it is opened;
* `Graph.not_keeps_of_label`: one that does not.
-/

namespace Pushdown

variable {raw config : GraphConfig} {values : Entries Value} {name : String}

/-- A configuration that reads everything: its label field is reserved anyway. -/
def GraphConfig.plain (name : String) : GraphConfig :=
  { GraphConfig.standard with graph := name, labelField := "_key" }

theorem GraphConfig.isReserved_plain (name key : String) :
    (plain name).isReserved key = reservedFields.contains key := by
  cases hkey : reservedFields.contains key with
  | true => exact isReserved_of_mem (by simpa using hkey)
  | false =>
      have hne : (key == (plain name).labelField) = false := by
        rw [beq_eq_false_iff_ne]
        rintro rfl
        have hlabel : reservedFields.contains (plain name).labelField = true := by
          rw [show (plain name).labelField = "_key" from rfl]
          decide
        rw [hlabel] at hkey
        cases hkey
      rw [isReserved, hne, hkey]
      rfl

namespace Value

theorem kept_toJsonFields (keep : String → Bool) : ∀ values : Entries Value,
    Entries.kept keep (toJsonFields values) = toJsonFields (Entries.kept keep values)
  | [] => rfl
  | (key, value) :: values => by
      have ih := kept_toJsonFields keep values
      cases hkey : keep key with
      | true =>
          rw [toJsonFields, Entries.kept_cons_of_true _ _ hkey,
            Entries.kept_cons_of_true _ _ hkey, toJsonFields, ih]
      | false =>
          rw [toJsonFields, Entries.kept_cons_of_false _ _ hkey,
            Entries.kept_cons_of_false _ _ hkey, ih]

theorem find?_toJsonFields (key : String) : ∀ values : Entries Value,
    Entries.find? key (toJsonFields values) = (Entries.find? key values).map toJson
  | [] => rfl
  | (k, value) :: values => by
      rw [toJsonFields, Entries.find?, Entries.find?, find?_toJsonFields key values]
      split <;> rfl

theorem find?_narrowedEntries (key : String) : ∀ values : Entries Value,
    Entries.find? key (narrowedEntries values) = (Entries.find? key values).map narrowed
  | [] => rfl
  | (k, value) :: values => by
      rw [narrowedEntries, Entries.find?, Entries.find?, find?_narrowedEntries key values]
      split <;> rfl

theorem allFiniteEntries_kept (keep : String → Bool) : ∀ {values : Entries Value},
    AllFiniteEntries values → AllFiniteEntries (Entries.kept keep values)
  | [], h => h
  | (key, value) :: values, h => by
      have ih := allFiniteEntries_kept keep h.2
      cases hkey : keep key with
      | true =>
          rw [Entries.kept_cons_of_true _ _ hkey]
          exact ⟨h.1, ih⟩
      | false =>
          rw [Entries.kept_cons_of_false _ _ hkey]
          exact ih

end Value

/-- The values that a configuration reads as variables. -/
def GraphConfig.readable (config : GraphConfig) (values : Entries Value) : Entries Value :=
  Entries.kept (fun key => !config.isReserved key) values

section readable

/-- What is read is classified for the configuration that reads it. -/
theorem Classified.readable (config : GraphConfig) (h : Classified (.plain name) values) :
    Classified config (config.readable values) where
  ascending := h.ascending.kept
  unreserved := by
    intro key hkey
    obtain ⟨entry, hentry, rfl⟩ := List.mem_map.mp hkey
    have hkeep := (List.mem_filter.mp hentry).2
    rwa [Bool.not_eq_true'] at hkeep
  finite := Value.allFiniteEntries_kept _ h.finite

/-- What one configuration may set, another may read. -/
theorem Classified.plain (name : String) (h : Classified config values) :
    Classified (.plain name) values where
  ascending := h.ascending
  unreserved := by
    intro key hkey
    rw [GraphConfig.isReserved_plain]
    have hfree := h.unreserved key hkey
    rw [GraphConfig.isReserved, Bool.or_eq_false_iff] at hfree
    exact hfree.2
  finite := h.finite

theorem Classified.narrowed (h : Classified config values) :
    Classified config (Value.narrowedEntries values) where
  ascending := by
    rw [Entries.Ascending, Value.keys_narrowedEntries]
    exact h.ascending
  unreserved := by
    rw [Value.keys_narrowedEntries]
    exact h.unreserved
  finite := Value.allFiniteEntries_narrowedEntries h.finite

theorem Classified.erase (key : String) (h : Classified config values) :
    Classified config (Entries.erase key values) where
  ascending := Entries.ascending_erase h.ascending
  unreserved other hother :=
    h.unreserved other ((Entries.keys_erase_sublist key values).subset hother)
  finite := Value.allFiniteEntries_erase h.finite

theorem find?_readable (config : GraphConfig) (values : Entries Value) (key : String) :
    Entries.find? key (config.readable values) =
      if config.isReserved key then none else Entries.find? key values := by
  rw [GraphConfig.readable, Entries.find?_kept]
  cases config.isReserved key <;> rfl

end readable

namespace GraphVariables

/-- Writing values with narrow integers writes the same document. -/
theorem written_narrowedEntries (key version : String) (values : Entries Value) :
    written ⟨key, version, Value.narrowedEntries values⟩ = written ⟨key, version, values⟩ := by
  rw [written, written, Value.toJsonFields_narrowedEntries]

/-- The document of the variables of a graph, as the store keeps it. -/
def recorded (name : String) (values : Entries Value) (revision : String) : Entries Json :=
  Store.stamped (written ⟨name, libraryVersion, values⟩)
    ⟨Store.documentId variablesCollection name, name, revision⟩

variable {revision : String}

/-- The fields that a configuration does not reserve are those of the values it reads. -/
theorem kept_recorded (config : GraphConfig) (h : Classified (.plain name) values) :
    Entries.kept (fun key => !config.isReserved key) (recorded name values revision) =
      Value.toJsonFields (config.readable values) := by
  have hbase : Entries.kept (fun key => !config.isReserved key)
      [("_key", Json.string name), (versionField, .string libraryVersion)] = [] := by
    rw [Entries.kept_cons_of_false _ _ (by rw [isReserved_key]; rfl),
      Entries.kept_cons_of_false _ _ (by rw [isReserved_version]; rfl)]
    rfl
  have hascending : Entries.Ascending (Value.toJsonFields (config.readable values)) := by
    rw [Entries.Ascending, Value.keys_toJsonFields]
    exact (h.readable config).ascending
  rw [recorded, GraphConfig.kept_stamped, written, Entries.kept_insertAll ascending_base, hbase,
    Value.kept_toJsonFields]
  exact Entries.ofList_eq_self hascending

/-- A field of the document of variables, other than those that the store and the library own, is
that of a value. -/
theorem find?_recorded (h : Classified (.plain name) values) {key : String}
    (hkey : key ∉ ["_rev", "_id", "_key", versionField]) :
    Entries.find? key (recorded name values revision) =
      (Entries.find? key values).map Value.toJson := by
  simp only [List.mem_cons, List.not_mem_nil, or_false, not_or] at hkey
  obtain ⟨hrevision, hid, hown, hversion⟩ := hkey
  have hascending : Entries.Ascending (Value.toJsonFields values) := by
    rw [Entries.Ascending, Value.keys_toJsonFields]
    exact h.ascending
  have hbase : Entries.find? key
      [("_key", Json.string name), (versionField, .string libraryVersion)] = none := by
    rw [Entries.find?, if_neg (Ne.symm hown), Entries.find?, if_neg (Ne.symm hversion)]
    rfl
  rw [recorded, Store.find?_stamped _ _ (by simp [hrevision, hid, hown]), written,
    Entries.find?_insertAll hascending, hbase, Option.or_none, Value.find?_toJsonFields]

/-- Other fields do not depend on the values. -/
theorem find?_recorded_of_owned {other : Entries Value} {revision' : String}
    (h : Classified (.plain name) values) (hother : Classified (.plain name) other) {key : String}
    (hkey : key ∈ ["_id", "_key", versionField]) :
    Entries.find? key (recorded name values revision) =
      Entries.find? key (recorded name other revision') := by
  simp only [List.mem_cons, List.not_mem_nil, or_false] at hkey
  rcases hkey with rfl | rfl | rfl
  · rw [recorded, recorded, Store.find?_id, Store.find?_id]
  · rw [recorded, recorded, Store.find?_key, Store.find?_key]
  · rw [recorded, recorded, Store.find?_stamped _ _ (by decide),
      Store.find?_stamped _ _ (by decide), find?_written h.unreserved isReserved_version,
      find?_written hother.unreserved isReserved_version]

/-- What a configuration reads from the document of variables. -/
theorem ofDocument_recorded (hname : config.graph = name) (h : Classified (.plain name) values) :
    ofDocument config (.object (recorded name values revision)) =
      .ok ⟨config.graph, libraryVersion, Value.narrowedEntries (config.readable values)⟩ := by
  have hassigned : (⟨Store.documentId variablesCollection name, name, revision⟩ :
      DocumentMeta).key = name := rfl
  obtain ⟨hkey, hversion⟩ := find?_stamped_written
    ⟨name, libraryVersion, values⟩ h.unreserved hassigned
  have hread := h.readable config
  have hvalues : readValues config (recorded name values revision) =
      .ok (Value.narrowedEntries (config.readable values)) := by
    rw [readValues_eq, kept_recorded config h,
      readValues_toJsonFields hread.unreserved hread.finite]
  rw [ofDocument, recorded, textField_eq hkey, textField_eq hversion, ← recorded, hvalues, hname]
  rfl

end GraphVariables

/-- A store has a document of the variables of a graph. -/
def Store.Recorded (name : String) (values : Entries Value) (s : Store) : Prop :=
  Classified (.plain name) values ∧ ∃ revision,
    s.document? variablesCollection name =
      some (.object (GraphVariables.recorded name values revision))

/-- The variables of a graph were recorded, and no other document changed. -/
structure Store.Records (name : String) (values : Entries Value) (s s' : Store) : Prop where
  recorded : s'.Recorded name values
  others : ∀ c k, c ≠ variablesCollection ∨ k ≠ name → s'.document? c k = s.document? c k

namespace Store

variable {s s' : Store}

/-- A field of the document of the variables of a graph. -/
def variableField? (s : Store) (name key : String) : Option Json :=
  (s.document? variablesCollection name).bind (Json.field? key)

/-- A variable that some configuration of a graph reads. -/
def Reads (s : Store) (name key : String) (value : Value) : Prop :=
  ∃ (config : GraphConfig) (vars : GraphVariables), config.graph = name ∧
    (Graph.storedVariables ⟨config⟩ s).1 = .ok vars ∧ Entries.find? key vars.values = some value

/-- What is read where variables are recorded. -/
theorem Recorded.reads_iff (h : s.Recorded name values) {key : String} {value : Value} :
    s.Reads name key value ↔ ∃ given, Entries.find? key values = some given ∧
      given.narrowed = value := by
  obtain ⟨hclassified, revision, hfound⟩ := h
  have hread : ∀ config : GraphConfig, config.graph = name →
      (Graph.storedVariables ⟨config⟩ s).1 =
        .ok ⟨config.graph, libraryVersion, Value.narrowedEntries (config.readable values)⟩ := by
    rintro config rfl
    rw [Graph.storedVariables_apply, hfound]
    exact GraphVariables.ofDocument_recorded rfl hclassified
  constructor
  · rintro ⟨config, vars, hname, hvars, hvalue⟩
    rw [hread config hname] at hvars
    cases hvars
    rw [Value.find?_narrowedEntries, find?_readable] at hvalue
    split at hvalue
    · cases hvalue
    · exact Option.map_eq_some_iff.mp hvalue
  · rintro ⟨given, hgiven, rfl⟩
    refine ⟨.plain name, _, rfl, hread _ rfl, ?_⟩
    have hfree := hclassified.unreserved key (Entries.mem_keys_of_find? hgiven)
    rw [Value.find?_narrowedEntries, find?_readable, hfree, hgiven]
    rfl

theorem not_reads_of_none (h : s.document? variablesCollection name = none) {key : String}
    {value : Value} : ¬ s.Reads name key value := by
  rintro ⟨config, vars, rfl, hvars, -⟩
  rw [Graph.storedVariables_apply, h] at hvars
  cases hvars

theorem Recorded.variableField?_eq (h : s.Recorded name values) {key : String}
    (hkey : key ∉ ["_rev", "_id", "_key", versionField]) :
    s.variableField? name key = (Entries.find? key values).map Value.toJson := by
  obtain ⟨hclassified, revision, hfound⟩ := h
  rw [variableField?, hfound]
  exact GraphVariables.find?_recorded hclassified hkey

/-- Writing values records them. -/
theorem records_of_writes {revision : String} (h : Classified (.plain name) values)
    (hwrites : Writes variablesCollection name
      (.object (GraphVariables.recorded name values revision)) s s') :
    Records name values s s' where
  recorded := ⟨h, revision, hwrites.stored⟩
  others := hwrites.others

end Store

namespace Graph

variable {s s' : Store}

/-- Writing values back where variables are recorded. -/
theorem records_of_storeVariables {before : Entries Value} (hs : s.Recorded config.graph before)
    (h : Classified config values) :
    ∃ s', storeVariables ⟨config.graph, libraryVersion, values⟩ s = (.ok (), s') ∧
      Store.Records config.graph values s s' := by
  obtain ⟨-, revision, hfound⟩ := hs
  obtain ⟨s', hstored, hwrites⟩ := storeVariables_eq ⟨config.graph, libraryVersion, values⟩ rfl
    (by rw [hfound]; rfl : (s.document? variablesCollection config.graph).isSome = true)
  exact ⟨s', hstored, Store.records_of_writes (h.plain config.graph) hwrites⟩

theorem opened_eq (hvalid : raw.validate = .ok config) (s : Store) :
    (opened raw : GraphAction Store _) s =
      ((initVariables config : GraphAction Store _) >>= fun _ => pure ⟨config⟩) s := by
  rw [opened, hvalid]
  rfl

section initVariables

variable {vars : GraphVariables} {ensured created last : Store}

theorem initVariables_apply {config : GraphConfig} {loaded : Option GraphVariables}
    (hensured : (Store.ensureCollection variablesCollection s).2 = ensured)
    (hload : (loadVariables config : GraphAction Store _) ensured = (.ok loaded, ensured)) :
    initVariables config s =
      ((match loaded with
          | some vars => pure vars
          | none => createVariables config) >>= fun vars =>
        result (checkVersion vars.version) >>= fun _ =>
          storeVariables { vars with version := libraryVersion }) ensured := by
  rw [initVariables, GraphAction.bind_apply]
  have hensure : (onStore (Client.ensureCollection variablesCollection) : GraphAction Store _) s =
      (.ok (), ensured) := by
    rw [← hensured]
    rfl
  rw [hensure]
  dsimp only
  rw [GraphAction.bind_apply, hload]
  cases loaded <;> rfl

/-- A graph whose variables have the version of the library writes them back. -/
theorem initVariables_of_vars (hversion : vars.version = libraryVersion)
    (hstored : storeVariables vars created = (.ok (), last)) :
    (result (checkVersion vars.version) >>= fun _ =>
      storeVariables { vars with version := libraryVersion } : GraphAction Store Unit) created =
        (.ok (), last) := by
  obtain ⟨key, version, values⟩ := vars
  obtain rfl : version = libraryVersion := hversion
  rw [GraphAction.bind_apply, result, checkVersion_libraryVersion]
  exact hstored

end initVariables

/-- Opening a graph with recorded variables records what its configuration reads. -/
theorem records_of_opened (hvalid : raw.validate = .ok config)
    (hs : s.Recorded config.graph values) :
    ∃ s', opened raw s = (.ok ⟨config⟩, s') ∧
      Store.Records config.graph (config.readable values) s s' := by
  generalize hensured : (Store.ensureCollection variablesCollection s).2 = ensured
  have hsame : ∀ c k, ensured.document? c k = s.document? c k := by
    rw [← hensured]
    exact Store.document?_of_same rfl
  obtain ⟨hclassified, revision, hfound⟩ := hs
  rw [← hsame] at hfound
  have hread := hclassified.readable config
  have hload : (loadVariables config : GraphAction Store _) ensured =
      (.ok (some ⟨config.graph, libraryVersion,
        Value.narrowedEntries (config.readable values)⟩), ensured) := by
    rw [loadVariables_apply, hfound]
    dsimp only
    rw [GraphVariables.ofDocument_recorded rfl hclassified]
    rfl
  obtain ⟨last, hstored, hwrites⟩ := storeVariables_eq
    ⟨config.graph, libraryVersion, Value.narrowedEntries (config.readable values)⟩ rfl
    (by rw [hfound]; rfl : (ensured.document? variablesCollection config.graph).isSome = true)
  rw [GraphVariables.written_narrowedEntries] at hwrites
  have hrecords : Store.Records config.graph (config.readable values) ensured last :=
    Store.records_of_writes (hread.plain config.graph) hwrites
  refine ⟨last, ?_, hrecords.recorded, fun c k hne => (hrecords.others c k hne).trans (hsame c k)⟩
  rw [opened_eq hvalid s, GraphAction.bind_apply, initVariables_apply hensured hload]
  dsimp only
  rw [GraphAction.bind_apply, GraphAction.pure_apply]
  dsimp only
  rw [initVariables_of_vars rfl hstored]
  rfl

/-- Opening a graph without variables records an empty map. -/
theorem records_of_opened_none (hvalid : raw.validate = .ok config)
    (hs : s.document? variablesCollection config.graph = none) :
    ∃ s', opened raw s = (.ok ⟨config⟩, s') ∧ Store.Records config.graph [] s s' := by
  generalize hensured : (Store.ensureCollection variablesCollection s).2 = ensured
  have hsame : ∀ c k, ensured.document? c k = s.document? c k := by
    rw [← hensured]
    exact Store.document?_of_same rfl
  have hempty : Classified config [] := ⟨List.Pairwise.nil, nofun, trivial⟩
  have hfree := (hsame _ _).trans hs
  have hload : (loadVariables config : GraphAction Store _) ensured = (.ok none, ensured) := by
    rw [loadVariables_apply, hfree]
  obtain ⟨created, hinsert⟩ := Store.exists_insert
    (GraphVariables.written ⟨config.graph, libraryVersion, []⟩) rfl hfree
  obtain ⟨-, -, -, hwrites⟩ := Store.of_insert hinsert
  have hcreated : (createVariables config : GraphAction Store _) ensured =
      (.ok ⟨config.graph, libraryVersion, []⟩, created) := by
    have hclient : Client.insert variablesCollection
        (GraphVariables.toDocument ⟨config.graph, libraryVersion, []⟩) ensured =
          (.ok (ensured.assign variablesCollection config.graph), created) := hinsert
    rw [createVariables, GraphAction.bind_apply, GraphAction.onStore_eq_ok_iff.mpr hclient]
    rfl
  have hfirst : Store.Records config.graph [] ensured created :=
    Store.records_of_writes (hempty.plain config.graph) hwrites
  obtain ⟨last, hstored, hrecords⟩ := records_of_storeVariables hfirst.recorded hempty
  refine ⟨last, ?_, hrecords.recorded, fun c k hne => ?_⟩
  · rw [opened_eq hvalid s, GraphAction.bind_apply, initVariables_apply hensured hload]
    dsimp only
    rw [GraphAction.bind_apply, hcreated]
    dsimp only
    rw [initVariables_of_vars rfl hstored]
    rfl
  · rw [hrecords.others c k hne, hfirst.others c k hne, hsame]

end Graph

namespace VariableCall

variable {s : Store}

/-- What a call reads where variables are recorded. -/
theorem storedVariables_of_recorded (hs : s.Recorded config.graph values) :
    (Graph.storedVariables ⟨config⟩ : GraphAction Store _) s =
      (.ok ⟨config.graph, libraryVersion, Value.narrowedEntries (config.readable values)⟩, s) := by
  obtain ⟨hclassified, revision, hfound⟩ := hs
  rw [Graph.storedVariables_apply, hfound]
  dsimp only
  rw [GraphVariables.ofDocument_recorded rfl hclassified]

/-- A call without variables leaves the store as it was. -/
theorem run_of_none (hs : s.document? variablesCollection config.graph = none)
    (call : VariableCall) : (call.run ⟨config⟩ s).2 = s := by
  have hstored : (Graph.storedVariables ⟨config⟩ : GraphAction Store _) s =
      (.error (Graph.noVariables config), s) := by
    rw [Graph.storedVariables_apply, hs]
  cases call with
  | set key given =>
      rw [run, Graph.setVariable, GraphAction.bind_apply, result]
      cases Graph.classified given with
      | error e => rfl
      | ok value =>
          dsimp only
          rw [GraphAction.bind_apply, result]
          cases checkVariable config key value with
          | error e => rfl
          | ok u =>
              dsimp only
              rw [GraphAction.bind_apply, hstored]
  | remove key => rw [run, Graph.removeVariable, GraphAction.bind_apply, hstored]

/-- A call on recorded variables records what it makes of those it reads, or changes nothing. -/
theorem recorded_run (hs : s.Recorded config.graph values) (call : VariableCall) :
    ∃ after, Store.Records config.graph after s (call.run ⟨config⟩ s).2 := by
  have hunchanged : Store.Records config.graph values s s := ⟨hs, fun _ _ _ => rfl⟩
  have hread := (hs.1.readable config).narrowed
  cases call with
  | set key given =>
      rw [run, Graph.setVariable, GraphAction.bind_apply, result]
      cases hgiven : Graph.classified given with
      | error e => exact ⟨values, hunchanged⟩
      | ok value =>
          dsimp only
          rw [GraphAction.bind_apply, result]
          cases hcheck : checkVariable config key value with
          | error e => exact ⟨values, hunchanged⟩
          | ok u =>
              have hset := hread.insert (Graph.isReserved_of_checkVariable hcheck)
                (Graph.allFinite_of_classified hgiven)
              obtain ⟨s', hstored, hrecords⟩ := Graph.records_of_storeVariables hs hset
              dsimp only
              rw [GraphAction.bind_apply, storedVariables_of_recorded hs]
              dsimp only [GraphVariables.set]
              rw [GraphAction.bind_apply, hstored]
              exact ⟨_, hrecords⟩
  | remove key =>
      rw [run, Graph.removeVariable, GraphAction.bind_apply, storedVariables_of_recorded hs]
      dsimp only
      split
      · obtain ⟨s', hstored, hrecords⟩ := Graph.records_of_storeVariables hs (hread.erase key)
        dsimp only [GraphVariables.remove]
        rw [GraphAction.bind_apply, hstored]
        exact ⟨_, hrecords⟩
      · exact ⟨values, hunchanged⟩

end VariableCall

/-- Opening a graph, or changing the variables of one that was opened. -/
inductive Visit where
  | opens (raw : GraphConfig)
  | calls (config : GraphConfig) (call : VariableCall)

namespace Visit

/-- The name of the graph. -/
def graph : Visit → String
  | opens raw => raw.graph
  | calls config _ => config.graph

/-- Make a visit. -/
def run (visit : Visit) (s : Store) : Result Unit × Store :=
  match visit with
  | opens raw =>
      let (answer, last) := Graph.opened raw s
      (answer.map fun _ => (), last)
  | calls config call =>
      let (answer, last) := call.run ⟨config⟩ s
      (answer.map fun _ => (), last)

/-- A store without a document of the variables of a graph, or with one that the library wrote. -/
def Known (name : String) (s : Store) : Prop :=
  s.document? variablesCollection name = none ∨ ∃ values, s.Recorded name values

/-- What the library knows of the variables of a graph, it knows after a visit. -/
theorem known_run {s : Store} (hs : Known name s) (visit : Visit) (hname : visit.graph = name) :
    Known name (visit.run s).2 := by
  subst hname
  cases visit with
  | opens raw =>
      cases hvalid : raw.validate with
      | error e =>
          rw [run, Graph.opened, hvalid]
          exact hs
      | ok config =>
          have hgraph : config.graph = raw.graph :=
            (GraphConfig.settings_of_validate hvalid).graph
          rw [graph, ← hgraph] at hs ⊢
          rcases hs with hnone | ⟨values, hrecorded⟩
          · obtain ⟨last, hopened, hrecords⟩ := Graph.records_of_opened_none hvalid hnone
            rw [run, hopened]
            exact .inr ⟨_, hrecords.recorded⟩
          · obtain ⟨last, hopened, hrecords⟩ := Graph.records_of_opened hvalid hrecorded
            rw [run, hopened]
            exact .inr ⟨_, hrecords.recorded⟩
  | calls config call =>
      rcases hs with hnone | ⟨values, hrecorded⟩
      · refine .inl ?_
        rw [run, VariableCall.run_of_none hnone]
        exact hnone
      · obtain ⟨after, hrecords⟩ := VariableCall.recorded_run hrecorded call
        exact .inr ⟨after, hrecords.recorded⟩

/-- What the library knows of the variables of a graph after any visits. -/
theorem known_of_visits : ∀ {visits : List Visit} {s : Store}, Known name s →
    (∀ visit ∈ visits, visit.graph = name) → Known name (Run.all run visits s).2
  | [], _, hs, _ => hs
  | visit :: visits, s, hs, hname => by
      have hmid := known_run hs visit (hname visit List.mem_cons_self)
      have hrest : ∀ other ∈ visits, other.graph = name :=
        fun other hother => hname other (List.mem_cons_of_mem visit hother)
      have hlast : Known name (Run.all run visits (visit.run s).2).2 :=
        known_of_visits hmid hrest
      exact hlast

end Visit

namespace Graph

variable {s s' : Store}

/-- The fields of the document of variables after a graph was opened again: the label field of its
configuration is gone if it is no reserved one, and the others are as they were. -/
theorem variableField?_of_records {name : String} (hs : s.Recorded name values)
    (h : Store.Records name (config.readable values) s s') {key : String} (hkey : key ≠ "_rev") :
    s'.variableField? name key =
      if key = config.labelField ∧ key ∉ reservedFields then none
      else s.variableField? name key := by
  by_cases howned : key ∈ ["_id", "_key", versionField]
  · have hreserved : key ∈ reservedFields := by
      revert howned
      simp only [List.mem_cons, List.not_mem_nil, or_false]
      rintro (rfl | rfl | rfl) <;> decide
    rw [if_neg fun hlabel => hlabel.2 hreserved]
    obtain ⟨hclassified, revision, hfound⟩ := hs
    obtain ⟨hafter, revision', hfound'⟩ := h.recorded
    rw [Store.variableField?, Store.variableField?, hfound, hfound']
    exact GraphVariables.find?_recorded_of_owned hafter hclassified howned
  · have hfield : key ∉ ["_rev", "_id", "_key", versionField] := by
      rw [List.mem_cons, not_or]
      exact ⟨hkey, howned⟩
    rw [h.recorded.variableField?_eq hfield, hs.variableField?_eq hfield, find?_readable]
    by_cases hreserved : key ∈ reservedFields
    · have hnone : Entries.find? key values = none := by
        refine Entries.find?_eq_none fun hmem => ?_
        have hfree := hs.1.unreserved key hmem
        rw [GraphConfig.isReserved_of_mem hreserved] at hfree
        cases hfree
      rw [hnone]
      simp
    · have hreads : config.isReserved key = true ↔
          key = config.labelField ∧ key ∉ reservedFields := by
        simp [GraphConfig.isReserved, hreserved]
      rw [if_congr hreads rfl rfl]
      split <;> rfl

/-- A graph that is opened again keeps the variables that were read unless one of them is under the
label field of the configuration that opens it. -/
theorem keeps_variables_of_records (hs : s.Recorded config.graph values)
    (h : Store.Records config.graph (config.readable values) s s') :
    (∀ key value, s.Reads config.graph key value →
        s.variableField? config.graph key = some value.toJson ∧
          s'.variableField? config.graph key = some value.toJson) ↔
      ∀ value, ¬ s.Reads config.graph config.labelField value := by
  have hreads : ∀ key value, s.Reads config.graph key value → key ∉ reservedFields ∧
      s.variableField? config.graph key = some value.toJson := by
    intro key value hvalue
    obtain ⟨given, hgiven, rfl⟩ := hs.reads_iff.mp hvalue
    have hfree : key ∉ reservedFields := by
      intro hmem
      have hfree := hs.1.unreserved key (Entries.mem_keys_of_find? hgiven)
      rw [GraphConfig.isReserved_of_mem hmem] at hfree
      cases hfree
    refine ⟨hfree, ?_⟩
    have hfield : key ∉ ["_rev", "_id", "_key", versionField] := by
      intro hmem
      refine hfree ?_
      revert hmem
      simp only [List.mem_cons, List.not_mem_nil, or_false]
      rintro (rfl | rfl | rfl | rfl) <;> decide
    rw [hs.variableField?_eq hfield, hgiven, Option.map_some, Value.toJson_narrowed]
  constructor
  · intro hkeeps value hvalue
    obtain ⟨hfree, -⟩ := hreads _ _ hvalue
    have hkey : config.labelField ≠ "_rev" := by
      intro heq
      rw [heq] at hfree
      exact hfree (by decide)
    have hlost := variableField?_of_records hs h hkey
    rw [if_pos ⟨rfl, hfree⟩, (hkeeps _ _ hvalue).2] at hlost
    cases hlost
  · intro hlabel key value hvalue
    obtain ⟨hfree, hfield⟩ := hreads key value hvalue
    refine ⟨hfield, ?_⟩
    have hkey : key ≠ "_rev" := by
      rintro rfl
      exact hfree (by decide)
    have hne : key ≠ config.labelField := by
      rintro rfl
      exact hlabel value hvalue
    rw [variableField?_of_records hs h hkey, if_neg fun heq => hne heq.1, hfield]

/-- After any visits of graphs with one name over an empty store, a graph of that name is opened.
It keeps all variables that were read if and only if none of them is under the label field of the
configuration that opens it. No other field of their document changes but the revision, and no
other document. -/
theorem keeps_variables_iff (visits : List Visit)
    (hname : ∀ visit ∈ visits, visit.graph = raw.graph) (hvalid : raw.validate = .ok config) :
    ∃ before after, (Run.all Visit.run visits Store.empty).2 = before ∧
      opened raw before = (.ok ⟨config⟩, after) ∧
      ((∀ key value, before.Reads config.graph key value →
          before.variableField? config.graph key = some value.toJson ∧
            after.variableField? config.graph key = some value.toJson) ↔
        ∀ value, ¬ before.Reads config.graph config.labelField value) ∧
      (before.document? variablesCollection config.graph ≠ none → ∀ key, key ≠ "_rev" →
        after.variableField? config.graph key =
          if key = config.labelField ∧ key ∉ reservedFields then none
          else before.variableField? config.graph key) ∧
      ∀ c k, c ≠ variablesCollection ∨ k ≠ config.graph →
        after.document? c k = before.document? c k := by
  rw [← (GraphConfig.settings_of_validate hvalid).graph] at hname
  have hknown := Visit.known_of_visits (s := Store.empty) (.inl rfl) hname
  generalize (Run.all Visit.run visits Store.empty).2 = before at hknown
  rcases hknown with hnone | ⟨values, hrecorded⟩
  · obtain ⟨after, hopened, hrecords⟩ := records_of_opened_none hvalid hnone
    refine ⟨before, after, rfl, hopened, ⟨fun _ _ => Store.not_reads_of_none hnone, ?_⟩,
      fun hsome => absurd hnone hsome, hrecords.others⟩
    exact fun _ key value hvalue => absurd hvalue (Store.not_reads_of_none hnone)
  · obtain ⟨after, hopened, hrecords⟩ := records_of_opened hvalid hrecorded
    exact ⟨before, after, rfl, hopened, keeps_variables_of_records hrecorded hrecords,
      fun _ key hkey => variableField?_of_records hrecorded hrecords hkey, hrecords.others⟩

/-- A graph is opened, and a variable is set under a name that is no label field yet. -/
def kindVisits : List Visit :=
  [.opens GraphConfig.initial, .calls GraphConfig.standard (.set "kind" (.int 1))]

/-- The configuration of the graph with that name as its label field. -/
def kindLabelled : GraphConfig := { GraphConfig.standard with labelField := "kind" }

/-- The store after these visits. -/
def withKind : Store := (Run.all Visit.run kindVisits Store.empty).2

theorem recorded_withKind : withKind.Recorded "tinkerpop" [("kind", .int32 1)] := by
  refine ⟨⟨List.pairwise_singleton _ _, ?_, trivial, trivial⟩, toString 3, rfl⟩
  intro key hkey
  rw [List.mem_singleton.mp hkey]
  rfl

theorem keeps_variables_iff_kind :
    ∃ after, opened GraphConfig.initial withKind = (.ok ⟨GraphConfig.standard⟩, after) ∧
      withKind.variableField? "tinkerpop" "kind" = some (.int 1) ∧
      after.variableField? "tinkerpop" "kind" = some (.int 1) := by
  have hname : ∀ visit ∈ kindVisits, visit.graph = GraphConfig.initial.graph := by
    intro visit hvisit
    rcases List.mem_cons.mp hvisit with rfl | hvisit
    · rfl
    · rw [List.mem_singleton.mp hvisit]
      rfl
  obtain ⟨before, after, rfl, hopened, hkeeps, -, -⟩ :=
    keeps_variables_iff kindVisits hname GraphConfig.validate_initial
  have hlabel : ∀ value, ¬ withKind.Reads "tinkerpop" "_label" value := by
    rintro value hreads
    obtain ⟨given, hgiven, -⟩ := recorded_withKind.reads_iff.mp hreads
    cases hgiven
  exact ⟨after, hopened, hkeeps.mpr hlabel "kind" (.int32 1)
    (recorded_withKind.reads_iff.mpr ⟨.int32 1, rfl, rfl⟩)⟩

/-- The variable is lost as the graph is opened with that label field. -/
theorem not_keeps_of_label :
    ∃ after, opened kindLabelled withKind = (.ok ⟨kindLabelled⟩, after) ∧
      withKind.Reads "tinkerpop" "kind" (.int32 1) ∧
      withKind.variableField? "tinkerpop" "kind" = some (.int 1) ∧
      after.variableField? "tinkerpop" "kind" = none := by
  refine ⟨_, rfl, recorded_withKind.reads_iff.mpr ⟨.int32 1, rfl, rfl⟩, rfl, rfl⟩

end Graph
end Pushdown
