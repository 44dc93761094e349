import Pushdown.Proofs.Entries.Names
import Pushdown.Proofs.Predicate.Narrowing
import Pushdown.Proofs.Serial.Lists
import Pushdown.Serial.Text

/-!
# Documents of traversals

The document of a traversal is an array of steps. Steps and predicates name their shape in a field,
values do not: the first shape that fits wins. Reading a document back gives the same traversal,
except that integers have 32 bits wherever they fit, and that changes the outcome of no test.

## Results

* `Predicate.ofJson?_toJson`, `HasContainer.ofJson?_toJson`, `Step.ofJson?_toJson`: what is read
  from the document of a predicate, a container and a step;
* `Traversal.ofJson?_toJson`: what is read from the document of a traversal;
* `Traversal.test_predicates_narrowed`: the outcomes of its tests.
-/

namespace Pushdown

namespace Serial

theorem value?_toJson {value : Value} (h : value.AllFinite) :
    value? value.toJson = some value.narrowed := by
  rw [value?, Value.ofJson?_toJson h]
  rfl

end Serial

theorem ElementKind.ofJson?_toJson (kind : ElementKind) : ofJson? kind.toJson = some kind := by
  cases kind <;> rfl

theorem HasKey.ofJson?_toJson (key : HasKey) : ofJson? key.toJson = some key := by
  cases key <;> rfl

namespace Predicate

mutual

/-- A predicate is read back with narrow operands. -/
theorem ofJson?_toJson : ∀ {p : Predicate}, (∀ value ∈ p.operands, value.AllFinite) →
    ofJson? p.toJson = some p.narrowed
  | compare op operand, h => by
      have hvalue : Serial.valueField? "value"
          [("op", .string op), ("type", .string "compare"), ("value", operand.toJson)] =
            some operand.narrowed :=
        Serial.value?_toJson (h operand List.mem_cons_self)
      have hread : readCompare?
          [("op", .string op), ("type", .string "compare"), ("value", operand.toJson)] =
            some (compare op operand.narrowed) := by
        rw [readCompare?, hvalue]
        rfl
      exact hread
  | all members, h => by
      have hread : membersField? [("predicates", .array (toJsonMembers members)),
          ("type", .string "and")] = some (mapOperandsMembers Value.narrowed members) :=
        ofJsonItems?_toJsonMembers h
      have htype : Serial.text? "type" [("predicates", .array (toJsonMembers members)),
          ("type", .string "and")] = some "and" := rfl
      rw [toJson, ofJson?, htype]
      dsimp only
      rw [if_neg (by decide), hread]
      rfl
  | any members, h => by
      have hread : membersField? [("predicates", .array (toJsonMembers members)),
          ("type", .string "or")] = some (mapOperandsMembers Value.narrowed members) :=
        ofJsonItems?_toJsonMembers h
      have htype : Serial.text? "type" [("predicates", .array (toJsonMembers members)),
          ("type", .string "or")] = some "or" := rfl
      rw [toJson, ofJson?, htype]
      dsimp only
      rw [if_neg (by decide), hread]
      rfl

theorem ofJsonItems?_toJsonMembers : ∀ {ps : List Predicate},
    (∀ value ∈ operandsMembers ps, value.AllFinite) →
    ofJsonItems? (toJsonMembers ps) = some (mapOperandsMembers Value.narrowed ps)
  | [], _ => rfl
  | p :: ps, h => by
      rw [operandsMembers, List.forall_mem_append] at h
      rw [toJsonMembers, ofJsonItems?, ofJson?_toJson h.1, ofJsonItems?_toJsonMembers h.2]
      rfl

end

end Predicate

namespace HasContainer

/-- A container whose predicate has other operands. -/
def mapOperands (f : Value → Value) (container : HasContainer) : HasContainer :=
  ⟨container.key, container.predicate.mapOperands f⟩

theorem mapOperands_eq_self {f : Value → Value} {container : HasContainer}
    (h : ∀ value ∈ container.predicate.operands, f value = value) :
    container.mapOperands f = container := by
  rw [mapOperands, Predicate.mapOperands_eq_self h]

/-- A container is read back with narrow operands. -/
theorem ofJson?_toJson {container : HasContainer}
    (h : ∀ value ∈ container.predicate.operands, value.AllFinite) :
    ofJson? container.toJson = some (container.mapOperands Value.narrowed) := by
  have hkey : (Serial.field? "key" [("key", container.key.toJson),
      ("predicate", container.predicate.toJson)]).bind HasKey.ofJson? = some container.key :=
    HasKey.ofJson?_toJson container.key
  have hpredicate : (Serial.field? "predicate" [("key", container.key.toJson),
      ("predicate", container.predicate.toJson)]).bind Predicate.ofJson? =
        some container.predicate.narrowed := Predicate.ofJson?_toJson h
  rw [toJson, ofJson?, Json.asObject?, Option.bind_eq_bind, Option.bind_some, hkey,
    Option.bind_eq_bind, Option.bind_some, hpredicate]
  rfl

theorem readField?_eq {key : String} {fields : Entries Json} {containers : List HasContainer}
    (hfield : Entries.find? key fields = some (.array (containers.map toJson)))
    (h : ∀ container ∈ containers, ∀ value ∈ container.predicate.operands, value.AllFinite) :
    readField? key fields = some (containers.map (mapOperands Value.narrowed)) := by
  rw [readField?, Serial.field?, hfield]
  exact Serial.readAll_map fun container hcontainer => ofJson?_toJson (h container hcontainer)

end HasContainer

namespace Step

/-- The containers of a step. -/
def containers : Step → List HasContainer
  | has containers _ => containers
  | scan s => s.containers
  | _ => []

/-- The values of a step: the operands in its containers, or its arguments. -/
def values : Step → List Value
  | has containers _ => containers.flatMap fun container => container.predicate.operands
  | other _ arguments _ => arguments
  | scan s => s.containers.flatMap fun container => container.predicate.operands
  | _ => []

/-- A step with other values. -/
def mapValues (f : Value → Value) : Step → Step
  | select kind ids labels => select kind ids labels
  | has containers labels => has (containers.map (HasContainer.mapOperands f)) labels
  | barrier => barrier
  | other name arguments labels => other name (arguments.map f) labels
  | scan s => scan { s with containers := s.containers.map (HasContainer.mapOperands f) }

section fields

variable {fields : Entries Json} {kind : ElementKind} {ids labels collections : List String}
  {containers : List HasContainer} {arguments : List Value} {name : String}

theorem readKind?_eq (h : Entries.find? "kind" fields = some kind.toJson) :
    readKind? fields = some kind := by
  rw [readKind?, Serial.field?, h]
  exact ElementKind.ofJson?_toJson kind

theorem texts?_eq {key : String} {texts : List String}
    (h : Entries.find? key fields = some (Json.strings texts)) :
    Serial.texts? key fields = some texts := by
  rw [Serial.texts?, Serial.field?, h]
  exact Serial.textList?_strings texts

theorem ofJson?_select (hstep : Serial.text? "step" fields = some "select")
    (hkind : readKind? fields = some kind) (hids : Serial.texts? "ids" fields = some ids)
    (hlabels : Serial.texts? "labels" fields = some labels) :
    ofJson? (.object fields) = some (select kind ids labels) := by
  simp [ofJson?, Json.asObject?, hstep, hkind, hids, hlabels]

theorem ofJson?_has (hstep : Serial.text? "step" fields = some "has")
    (hcontainers : HasContainer.readField? "containers" fields = some containers)
    (hlabels : Serial.texts? "labels" fields = some labels) :
    ofJson? (.object fields) = some (has containers labels) := by
  simp [ofJson?, Json.asObject?, hstep, hcontainers, hlabels]

theorem ofJson?_other {items : List Json} (hstep : Serial.text? "step" fields = some "other")
    (hname : Serial.text? "name" fields = some name)
    (hitems : Entries.find? "args" fields = some (.array items))
    (harguments : Serial.readAll Serial.value? items = some arguments)
    (hlabels : Serial.texts? "labels" fields = some labels) :
    ofJson? (.object fields) = some (other name arguments labels) := by
  simp [ofJson?, Json.asObject?, Json.asArray?, Serial.field?, hstep, hname, hitems, harguments,
    hlabels]

theorem ofJson?_scan (hstep : Serial.text? "step" fields = some "scan")
    (hkind : readKind? fields = some kind) (hids : Serial.texts? "ids" fields = some ids)
    (hcontainers : HasContainer.readField? "containers" fields = some containers)
    (hcollections : Serial.texts? "collections" fields = some collections)
    (hlabels : Serial.texts? "labels" fields = some labels) :
    ofJson? (.object fields) =
      some (scan ⟨kind, ids, containers, Names.ofList collections, labels⟩) := by
  simp [ofJson?, Json.asObject?, hstep, hkind, hids, hcontainers, hcollections, hlabels]

end fields

/-- A step is read back with narrow values. -/
theorem ofJson?_toJson {step : Step} (h : ∀ value ∈ step.values, value.AllFinite) :
    ofJson? step.toJson = some (step.mapValues Value.narrowed) := by
  cases step with
  | select kind ids labels =>
      exact ofJson?_select rfl (readKind?_eq rfl) (texts?_eq rfl) (texts?_eq rfl)
  | has containers labels =>
      rw [values, List.forall_mem_flatMap] at h
      exact ofJson?_has rfl (HasContainer.readField?_eq rfl h) (texts?_eq rfl)
  | barrier => rfl
  | other name arguments labels =>
      have hread : Serial.readAll Serial.value? (arguments.map Value.toJson) =
          some (arguments.map Value.narrowed) :=
        Serial.readAll_map fun value hvalue => Serial.value?_toJson (h value hvalue)
      exact ofJson?_other rfl rfl rfl hread (texts?_eq rfl)
  | scan s =>
      rw [values, List.forall_mem_flatMap] at h
      have hread : ofJson? (toJson (scan s)) =
          some (scan ⟨s.kind, s.ids, s.containers.map (HasContainer.mapOperands Value.narrowed),
            Names.ofList s.collections, s.labels⟩) :=
        ofJson?_scan rfl (readKind?_eq rfl) (texts?_eq rfl)
          (HasContainer.readField?_eq rfl h) (texts?_eq rfl) (texts?_eq rfl)
      rw [Names.ofList_members] at hread
      exact hread

theorem containers_mapValues (f : Value → Value) (step : Step) :
    (step.mapValues f).containers = step.containers.map (HasContainer.mapOperands f) := by
  cases step <;> rfl

theorem values_mapValues (f : Value → Value) (step : Step) :
    (step.mapValues f).values = step.values.map f := by
  have hcontainers : ∀ containers : List HasContainer,
      ((containers.map (HasContainer.mapOperands f)).flatMap fun container =>
        container.predicate.operands) =
      (containers.flatMap fun container => container.predicate.operands).map f := fun _ => by
    rw [List.flatMap_map, List.map_flatMap]
    simp only [HasContainer.mapOperands, Predicate.operands_mapOperands]
  cases step with
  | has containers labels => exact hcontainers containers
  | scan s => exact hcontainers s.containers
  | select kind ids labels => rfl
  | barrier => rfl
  | other name arguments labels => rfl

/-- A step stays the same if each of its values does. -/
theorem mapValues_eq_self {f : Value → Value} {step : Step}
    (h : ∀ value ∈ step.values, f value = value) : step.mapValues f = step := by
  have hcontainers : ∀ {containers : List HasContainer},
      (∀ container ∈ containers, ∀ value ∈ container.predicate.operands, f value = value) →
      containers.map (HasContainer.mapOperands f) = containers := fun hall =>
    (List.map_congr_left fun container hmem =>
      HasContainer.mapOperands_eq_self (hall container hmem)).trans (List.map_id' _)
  cases step with
  | has containers labels =>
      rw [values, List.forall_mem_flatMap] at h
      rw [mapValues, hcontainers h]
  | other name arguments labels =>
      have harguments : arguments.map f = arguments :=
        (List.map_congr_left h).trans (List.map_id' arguments)
      rw [mapValues, harguments]
  | scan s =>
      rw [values, List.forall_mem_flatMap] at h
      rw [mapValues, hcontainers h]
  | select kind ids labels => rfl
  | barrier => rfl

end Step

namespace Traversal

/-- The values of a traversal, in their order. -/
def values (steps : Traversal) : List Value := steps.flatMap Step.values

/-- A traversal with other values. -/
def mapValues (f : Value → Value) (steps : Traversal) : Traversal := steps.map (Step.mapValues f)

/-- A traversal with narrow values. -/
def narrowed (steps : Traversal) : Traversal := steps.mapValues Value.narrowed

/-- The predicates of the containers of a traversal, in their order. -/
def predicates (steps : Traversal) : List Predicate :=
  steps.flatMap fun step => step.containers.map HasContainer.predicate

theorem values_mapValues (f : Value → Value) (steps : Traversal) :
    (steps.mapValues f).values = steps.values.map f := by
  rw [values, values, mapValues, List.flatMap_map, List.map_flatMap]
  simp only [Step.values_mapValues]

theorem mapValues_eq_self {f : Value → Value} {steps : Traversal}
    (h : ∀ value ∈ steps.values, f value = value) : steps.mapValues f = steps := by
  rw [values, List.forall_mem_flatMap] at h
  exact (List.map_congr_left fun step hstep =>
    Step.mapValues_eq_self (h step hstep)).trans (List.map_id' steps)

theorem predicates_mapValues (f : Value → Value) : ∀ steps : Traversal,
    (steps.mapValues f).predicates = steps.predicates.map (Predicate.mapOperands f)
  | [] => rfl
  | step :: steps => by
      have hcons : ∀ (first : Step) (rest : Traversal), predicates (first :: rest) =
          first.containers.map HasContainer.predicate ++ rest.predicates := fun _ _ => rfl
      rw [mapValues, List.map_cons, ← mapValues, hcons, hcons, predicates_mapValues f steps,
        List.map_append, Step.containers_mapValues, List.map_map, List.map_map]
      rfl

variable {steps : Traversal}

/-- A traversal with finite doubles is read back from its document as it is, except that integers
have 32 bits wherever they fit. -/
theorem ofJson?_toJson (hfinite : ∀ value ∈ steps.values, value.AllFinite) :
    ofJson? steps.toJson = some steps.narrowed := by
  rw [values, List.forall_mem_flatMap] at hfinite
  exact Serial.readAll_map fun step hstep => Step.ofJson?_toJson (hfinite step hstep)

/-- Narrow integers leave the outcomes of tests, on every value and on a missing one. -/
theorem test_predicates_narrowed (steps : Traversal) :
    steps.narrowed.predicates.map Predicate.test = steps.predicates.map Predicate.test := by
  rw [narrowed, predicates_mapValues, List.map_map]
  exact List.map_congr_left fun p _ => funext fun value => p.test_narrowed value

end Traversal
end Pushdown
