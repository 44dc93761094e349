import Pushdown.Proofs.Json.Rereading
import Pushdown.Proofs.Traversal.Documents
import Pushdown.Proofs.Value.Doubles

/-!
# Texts of traversals

The text of a traversal is its document with the fields of steps and predicates in the order of
their declaration. What is read from it are the same steps, with each double as it is read step by
step and with narrow integers. A text that is nested too deep is refused.

## Results

* `Step.ordered_written`: the document that is written, with its fields in key order;
* `Step.written_mapValues`: the document that is written for a step with other doubles;
* `Traversal.ofText?_eq`: what is read from the text of a traversal;
* `Traversal.text_read_back`: when it is the traversal that was written.
-/

namespace Pushdown

namespace Json

variable {again : Double → Double}

theorem orderedItems_eq (items : List Json) : orderedItems items = items.map ordered := by
  induction items with
  | nil => rfl
  | cons item items ih => exact congrArg (item.ordered :: ·) ih

theorem ordered_string (value : String) : (string value).ordered = string value := rfl

theorem ordered_object (fields : List (String × Json)) :
    (object fields).ordered = object (Entries.ofList (orderedFields fields)) := rfl

theorem ordered_array_map {α : Type} {write document : α → Json} {members : List α}
    (h : ∀ a ∈ members, (write a).ordered = document a) :
    (array (members.map write)).ordered = array (members.map document) := by
  rw [ordered, orderedItems_eq, List.map_map]
  exact congrArg array (List.map_congr_left h)

theorem mapDoubles_string (value : String) : (string value).mapDoubles again = string value := rfl

theorem mapDoubles_object (fields : List (String × Json)) :
    (object fields).mapDoubles again = object (mapDoublesFields again fields) := rfl

theorem mapDoubles_array_map {α : Type} {write document : α → Json} {members : List α}
    (h : ∀ a ∈ members, (write a).mapDoubles again = document a) :
    (array (members.map write)).mapDoubles again = array (members.map document) := by
  rw [mapDoubles, mapDoublesItems_eq, List.map_map]
  exact congrArg array (List.map_congr_left h)

theorem writable_array_map {α : Type} {write : α → Json} {members : List α}
    (h : ∀ a ∈ members, (write a).Writable) : (array (members.map write)).Writable := by
  rw [Writable, writableItems_iff, List.forall_mem_map]
  exact h

theorem ordered_strings (texts : List String) : (strings texts).ordered = strings texts :=
  ordered_array_map fun _ _ => rfl

theorem mapDoubles_strings (texts : List String) :
    (strings texts).mapDoubles again = strings texts :=
  mapDoubles_array_map fun _ _ => rfl

end Json

/-! ## Kinds and keys -/

section names

variable {again : Double → Double}

theorem ElementKind.ordered_toJson (kind : ElementKind) : kind.toJson.ordered = kind.toJson := by
  cases kind <;> rfl

theorem ElementKind.mapDoubles_toJson (kind : ElementKind) :
    kind.toJson.mapDoubles again = kind.toJson := by
  cases kind <;> rfl

theorem ElementKind.writable_toJson (kind : ElementKind) : kind.toJson.Writable := by
  cases kind <;> trivial

theorem HasKey.ordered_toJson (key : HasKey) : key.toJson.ordered = key.toJson := by
  cases key <;>
    simp (disch := decide) [toJson, Json.ordered, Json.orderedFields, Entries.ofList]

theorem HasKey.mapDoubles_toJson (key : HasKey) : key.toJson.mapDoubles again = key.toJson := by
  cases key <;> rfl

theorem HasKey.writable_toJson (key : HasKey) : key.toJson.Writable := by
  cases key <;> simp [toJson, Json.Writable, Json.WritableFields]

end names

/-! ## Predicates -/

namespace Predicate

mutual

/-- What is written for a predicate is its document, with the fields in another order. -/
theorem ordered_written : ∀ {p : Predicate}, (∀ value ∈ p.operands, value.InOrder) →
    p.written.ordered = p.toJson
  | compare op operand, h => by
      have hoperand := Value.ordered_toJson (h operand List.mem_cons_self)
      simp (disch := decide) [written, toJson, Json.ordered, Json.orderedFields, Entries.ofList,
        hoperand]
  | all members, h => by
      have hmembers := orderedItems_writtenMembers h
      simp (disch := decide) [written, toJson, Json.ordered, Json.orderedFields, Entries.ofList,
        hmembers]
  | any members, h => by
      have hmembers := orderedItems_writtenMembers h
      simp (disch := decide) [written, toJson, Json.ordered, Json.orderedFields, Entries.ofList,
        hmembers]

theorem orderedItems_writtenMembers : ∀ {ps : List Predicate},
    (∀ value ∈ operandsMembers ps, value.InOrder) →
    Json.orderedItems (writtenMembers ps) = toJsonMembers ps
  | [], _ => rfl
  | p :: ps, h => by
      rw [operandsMembers, List.forall_mem_append] at h
      rw [writtenMembers, Json.orderedItems, toJsonMembers, ordered_written h.1,
        orderedItems_writtenMembers h.2]

end

variable {again : Double → Double} {f : Value → Value}

mutual

/-- What is written for a predicate with other operands, whose documents have other doubles. -/
theorem written_mapOperands : ∀ {p : Predicate},
    (∀ value ∈ p.operands, (f value).toJson = value.toJson.mapDoubles again) →
    (p.mapOperands f).written = p.written.mapDoubles again
  | compare op operand, h => by
      rw [mapOperands, written, h operand List.mem_cons_self]
      rfl
  | all members, h => by
      rw [mapOperands, written, writtenMembers_mapOperandsMembers h]
      rfl
  | any members, h => by
      rw [mapOperands, written, writtenMembers_mapOperandsMembers h]
      rfl

theorem writtenMembers_mapOperandsMembers : ∀ {ps : List Predicate},
    (∀ value ∈ operandsMembers ps, (f value).toJson = value.toJson.mapDoubles again) →
    writtenMembers (mapOperandsMembers f ps) = Json.mapDoublesItems again (writtenMembers ps)
  | [], _ => rfl
  | p :: ps, h => by
      rw [operandsMembers, List.forall_mem_append] at h
      rw [mapOperandsMembers, writtenMembers, writtenMembers, Json.mapDoublesItems,
        written_mapOperands h.1, writtenMembers_mapOperandsMembers h.2]

end

mutual

theorem writable_written : ∀ p : Predicate, p.written.Writable
  | compare _ operand => ⟨trivial, trivial, Value.writable_toJson operand, trivial⟩
  | all members | any members => ⟨trivial, writableItems_writtenMembers members, trivial⟩

theorem writableItems_writtenMembers : ∀ ps : List Predicate,
    Json.WritableItems (writtenMembers ps)
  | [] => trivial
  | p :: ps => ⟨writable_written p, writableItems_writtenMembers ps⟩

end

end Predicate

/-! ## Containers and steps -/

namespace HasContainer

variable {again : Double → Double} {f : Value → Value} {container : HasContainer}

theorem ordered_written (h : ∀ value ∈ container.predicate.operands, value.InOrder) :
    container.written.ordered = container.toJson := by
  have hpredicate := Predicate.ordered_written h
  simp (disch := decide) [written, toJson, Json.ordered, Json.orderedFields, Entries.ofList,
    HasKey.ordered_toJson, hpredicate]

theorem written_mapOperands (h : ∀ value ∈ container.predicate.operands,
    (f value).toJson = value.toJson.mapDoubles again) :
    (container.mapOperands f).written = container.written.mapDoubles again := by
  rw [mapOperands, written, Predicate.written_mapOperands h, written]
  simp [Json.mapDoubles, Json.mapDoublesFields, HasKey.mapDoubles_toJson]

theorem writable_written (container : HasContainer) : container.written.Writable :=
  ⟨HasKey.writable_toJson _, Predicate.writable_written _, trivial⟩

end HasContainer

namespace Step

variable {again : Double → Double} {f : Value → Value} {step : Step}

/-- What is written for a step is its document, with the fields in another order. -/
theorem ordered_written (h : ∀ value ∈ step.values, value.InOrder) :
    step.written.ordered = step.toJson := by
  have hcontainers : ∀ {containers : List HasContainer},
      (∀ container ∈ containers, ∀ value ∈ container.predicate.operands, value.InOrder) →
      (Json.array (containers.map HasContainer.written)).ordered =
        .array (containers.map HasContainer.toJson) := fun hall =>
    Json.ordered_array_map fun container hmem => HasContainer.ordered_written (hall container hmem)
  cases step with
  | select kind ids labels =>
      simp (disch := decide) [written, toJson, Json.ordered_object, Json.orderedFields,
        Entries.ofList, Json.ordered_string, ElementKind.ordered_toJson, Json.ordered_strings]
  | has containers labels =>
      rw [values, List.forall_mem_flatMap] at h
      simp (disch := decide) [written, toJson, Json.ordered_object, Json.orderedFields,
        Entries.ofList, Json.ordered_string, Json.ordered_strings, hcontainers h]
  | barrier => rfl
  | other name arguments labels =>
      have harguments : (Json.array (arguments.map Value.toJson)).ordered =
          .array (arguments.map Value.toJson) :=
        Json.ordered_array_map fun value hvalue => Value.ordered_toJson (h value hvalue)
      simp (disch := decide) [written, toJson, Json.ordered_object, Json.orderedFields,
        Entries.ofList, Json.ordered_string, Json.ordered_strings, harguments]
  | scan s =>
      rw [values, List.forall_mem_flatMap] at h
      simp (disch := decide) [written, toJson, Json.ordered_object, Json.orderedFields,
        Entries.ofList, Json.ordered_string, ElementKind.ordered_toJson, Json.ordered_strings,
        hcontainers h]

/-- What is written for a step with other values, whose documents have other doubles. -/
theorem written_mapValues
    (h : ∀ value ∈ step.values, (f value).toJson = value.toJson.mapDoubles again) :
    (step.mapValues f).written = step.written.mapDoubles again := by
  have hcontainers : ∀ {containers : List HasContainer},
      (∀ container ∈ containers, ∀ value ∈ container.predicate.operands,
        (f value).toJson = value.toJson.mapDoubles again) →
      (Json.array ((containers.map (HasContainer.mapOperands f)).map HasContainer.written)) =
        (Json.array (containers.map HasContainer.written)).mapDoubles again := fun hall => by
    rw [List.map_map]
    exact (Json.mapDoubles_array_map fun container hmem =>
      (HasContainer.written_mapOperands (hall container hmem)).symm).symm
  cases step with
  | select kind ids labels =>
      simp [mapValues, written, Json.mapDoubles_object, Json.mapDoublesFields,
        Json.mapDoubles_string, ElementKind.mapDoubles_toJson, Json.mapDoubles_strings]
  | has containers labels =>
      rw [values, List.forall_mem_flatMap] at h
      rw [mapValues, written, hcontainers h]
      simp [written, Json.mapDoubles_object, Json.mapDoublesFields, Json.mapDoubles_string,
        Json.mapDoubles_strings]
  | barrier => rfl
  | other name arguments labels =>
      have harguments : Json.array ((arguments.map f).map Value.toJson) =
          (Json.array (arguments.map Value.toJson)).mapDoubles again := by
        rw [List.map_map]
        exact (Json.mapDoubles_array_map fun value hvalue => (h value hvalue).symm).symm
      rw [mapValues, written, harguments]
      simp [written, Json.mapDoubles_object, Json.mapDoublesFields, Json.mapDoubles_string,
        Json.mapDoubles_strings]
  | scan s =>
      rw [values, List.forall_mem_flatMap] at h
      rw [mapValues, written, hcontainers h]
      simp [written, Json.mapDoubles_object, Json.mapDoublesFields, Json.mapDoubles_string,
        ElementKind.mapDoubles_toJson, Json.mapDoubles_strings]

/-- Every number in what is written for a step can be written. -/
theorem writable_written (step : Step) : step.written.Writable := by
  have hcontainers : ∀ containers : List HasContainer,
      (Json.array (containers.map HasContainer.written)).Writable := fun _ =>
    Json.writable_array_map fun container _ => container.writable_written
  cases step with
  | select kind ids labels =>
      exact ⟨trivial, kind.writable_toJson, Json.writable_strings ids,
        Json.writable_strings labels, trivial⟩
  | has containers labels =>
      exact ⟨trivial, hcontainers containers, Json.writable_strings labels, trivial⟩
  | barrier => exact ⟨trivial, trivial⟩
  | other name arguments labels =>
      exact ⟨trivial, trivial, Json.writable_array_map fun value _ => value.writable_toJson,
        Json.writable_strings labels, trivial⟩
  | scan s =>
      exact ⟨trivial, s.kind.writable_toJson, Json.writable_strings s.ids,
        hcontainers s.containers, Json.writable_strings s.collections,
        Json.writable_strings s.labels, trivial⟩

end Step

/-! ## Traversals -/

/-- A value as it is read where it was written. -/
def Value.reread (value : Value) : Value := value.mapDoubles Double.reread

namespace Traversal

variable {steps : Traversal}

/-- The doubles of a traversal, in their order. -/
def doubles (steps : Traversal) : List Double := steps.values.flatMap Value.doubles

/-- A traversal with its values as they are read. -/
def reread (steps : Traversal) : Traversal := steps.mapValues Value.reread

theorem ordered_written (h : ∀ value ∈ steps.values, value.InOrder) :
    steps.written.ordered = steps.toJson := by
  rw [values, List.forall_mem_flatMap] at h
  exact Json.ordered_array_map fun step hstep => Step.ordered_written (h step hstep)

theorem writable_written (steps : Traversal) : steps.written.Writable :=
  Json.writable_array_map fun step _ => step.writable_written

theorem doubles_mapValues (f : Value → Value) (steps : Traversal) :
    (steps.mapValues f).doubles = steps.values.flatMap fun value => (f value).doubles := by
  rw [doubles, values_mapValues, List.flatMap_map]

theorem doubles_narrowed (steps : Traversal) : steps.narrowed.doubles = steps.doubles := by
  rw [narrowed, doubles_mapValues, doubles]
  simp only [Value.doubles_narrowed]

theorem doubles_reread (steps : Traversal) :
    steps.reread.doubles = steps.doubles.map Double.reread := by
  rw [reread, doubles_mapValues, doubles, List.map_flatMap]
  simp only [Value.reread, Value.doubles_mapDoubles]

theorem allFinite_reread (h : ∀ value ∈ steps.values, value.AllFinite) :
    ∀ value ∈ steps.reread.values, value.AllFinite := by
  rw [reread, values_mapValues, List.forall_mem_map]
  exact fun value hvalue =>
    Value.allFinite_mapDoubles (fun _ => Double.isFinite_reread) (h value hvalue)

theorem inOrder_reread (h : ∀ value ∈ steps.values, value.InOrder) :
    ∀ value ∈ steps.reread.values, value.InOrder := by
  rw [reread, values_mapValues, List.forall_mem_map]
  exact fun value hvalue => Value.inOrder_mapDoubles (h value hvalue)

/-- What is written, with its doubles as they are read, is the document of the traversal with its
doubles as they are read. -/
theorem ordered_mapDoubles_written (hfinite : ∀ value ∈ steps.values, value.AllFinite)
    (horder : ∀ value ∈ steps.values, value.InOrder) :
    (steps.written.mapDoubles Double.reread).ordered = steps.reread.toJson := by
  have hdoubles : steps.reread.written = steps.written.mapDoubles Double.reread := by
    rw [written, reread, mapValues, List.map_map]
    rw [values, List.forall_mem_flatMap] at hfinite
    exact (Json.mapDoubles_array_map fun step hstep => (Step.written_mapValues fun value hvalue =>
      Value.toJson_mapDoubles (fun _ => Double.isFinite_reread)
        (hfinite step hstep value hvalue)).symm).symm
  rw [← hdoubles, ordered_written (inOrder_reread horder)]

/-- What is read from the text of a traversal. -/
theorem ofText?_eq (hfinite : ∀ value ∈ steps.values, value.AllFinite)
    (horder : ∀ value ∈ steps.values, value.InOrder) :
    ofText? steps.text =
      if steps.written.depth ≤ Json.depthLimit then some steps.reread.narrowed else none := by
  rw [ofText?, text, Json.read?_compact steps.writable_written]
  split
  · rw [Option.bind_some, ordered_mapDoubles_written hfinite horder]
    exact ofJson?_toJson (allFinite_reread hfinite)
  · rfl

/-- Doubles that are read as other ones make another traversal. -/
theorem narrowed_reread_eq_iff (steps : Traversal) :
    steps.reread.narrowed = steps.narrowed ↔ ∀ x ∈ steps.doubles, x.reread = x := by
  constructor
  · intro h
    have hdoubles := congrArg doubles h
    rw [doubles_narrowed, doubles_narrowed, doubles_reread] at hdoubles
    exact List.map_eq_map_iff.mp (hdoubles.trans (List.map_id _).symm)
  · intro h
    rw [doubles, List.forall_mem_flatMap] at h
    have hsame : steps.reread = steps := mapValues_eq_self fun value hvalue =>
      (Value.mapDoubles_eq_self_iff value).mpr (h value hvalue)
    rw [hsame]

/-- A traversal with finite doubles is read from its text if the text is not nested too deep: the
same steps with each double as it is read step by step, and with integers of 32 bits wherever they
fit. So it is read as it was written, up to the width of integers, exactly if each of its doubles
comes back, as those with short decimals do. Tests have the same outcomes, on every value and on a
missing one, whatever the width of integers. -/
theorem text_read_back (hfinite : ∀ value ∈ steps.values, value.AllFinite)
    (horder : ∀ value ∈ steps.values, value.InOrder) :
    (ofText? steps.text =
      if steps.written.depth ≤ Json.depthLimit then some steps.reread.narrowed else none) ∧
    (ofText? steps.text = some steps.narrowed ↔
      steps.written.depth ≤ Json.depthLimit ∧ ∀ x ∈ steps.doubles, x.reread = x) ∧
    (∀ x ∈ steps.doubles, x.Short → x.reread = x) ∧
    steps.reread.narrowed.predicates.map Predicate.test =
      steps.reread.predicates.map Predicate.test ∧
    steps.narrowed.predicates.map Predicate.test = steps.predicates.map Predicate.test := by
  have hread := ofText?_eq hfinite horder
  refine ⟨hread, ?_, fun x hx hshort => ?_, test_predicates_narrowed _, test_predicates_narrowed _⟩
  · rw [hread]
    split
    · next hdepth =>
      rw [Option.some.injEq, narrowed_reread_eq_iff]
      exact (and_iff_right hdepth).symm
    · next hdepth => exact iff_of_false nofun fun h => hdepth h.1
  · rw [doubles, List.mem_flatMap] at hx
    obtain ⟨value, hvalue, hx⟩ := hx
    exact hshort.reread_eq ((Value.allFinite_iff value).mp (hfinite value hvalue) x hx)

/-- A scan of adults, a filter on whole and broken ages, and a step with a null and an empty map. -/
def ageTraversal : Traversal :=
  [.scan ⟨.vertex, [], [⟨.property "age", .of .gte (.int64 18)⟩],
      .ofList ["dog", "person"], ["a"]⟩,
    .has [⟨.property "age", .any
      [.of .within (.list [.int64 5000000000, .double (Binary.ofInt 30)]), .all []]⟩] [],
    .other "inject" [.null, .map [], .int64 7] []]

theorem text_read_back_ages :
    ofText? ageTraversal.text =
        some [.scan ⟨.vertex, [], [⟨.property "age", .of .gte (.int32 18)⟩],
            .ofList ["dog", "person"], ["a"]⟩,
          .has [⟨.property "age",
            .any [.of .within (.list [.int64 5000000000, .double (Binary.ofInt 30)]), .all []]⟩] [],
          .other "inject" [.null, .map [], .int32 7] []] ∧
      ageTraversal.narrowed.predicates.map Predicate.test =
        ageTraversal.predicates.map Predicate.test := by
  have hfinite : ∀ value ∈ ageTraversal.values, value.AllFinite := by
    simp [ageTraversal, values, Step.values, Predicate.of, Predicate.operands,
      Predicate.operandsMembers, Value.AllFinite, Value.AllFiniteItems, Value.AllFiniteEntries]
    decide
  have horder : ∀ value ∈ ageTraversal.values, value.InOrder := by
    simp [ageTraversal, values, Step.values, Predicate.of, Predicate.operands,
      Predicate.operandsMembers, Value.InOrder, Value.InOrderItems, Value.InOrderEntries,
      Entries.Ascending, Entries.keys]
  obtain ⟨-, hback, hshort, -, htests⟩ := text_read_back hfinite horder
  refine ⟨hback.mpr ⟨by decide, fun x hx => hshort x hx ?_⟩, htests⟩
  obtain rfl : x = Binary.ofInt 30 := List.mem_singleton.mp hx
  exact ⟨by decide +kernel, by decide +kernel⟩

/-- The double nearest to 94.52706955539223. -/
def weight : Double := Binary.ofDecimal false 9452706955539223 (-14)

/-- A filter on a weight. -/
def weightTraversal : Traversal := [.has [⟨.property "weight", .of .eq (.double weight)⟩] []]

/-- A step with lists that are nested deeper than texts are read. -/
def deepTraversal : Traversal :=
  [.other "inject" [Nat.repeat (fun value => .list [value]) 125 .null] []]

theorem weight_reread : weight.reread = Binary.ofDecimal false 9452706955539225 (-14) := by
  have hwritten : weight.written = ⟨9452706955539223, -14⟩ := by decide +kernel
  rw [Double.reread, hwritten, Double.ofParts, Double.scaled, if_neg (by decide),
    if_pos (by decide)]
  decide +kernel

theorem not_text_read_back :
    (weight.isFinite = true ∧
      ofText? weightTraversal.text =
        some [.has [⟨.property "weight", .of .eq (.double weight.reread)⟩] []] ∧
      weight.reread.equals weight = false ∧
      (Predicate.of .eq (.double weight)).test (some (.double weight)) = .ok true ∧
      (Predicate.of .eq (.double weight.reread)).test (some (.double weight)) = .ok false) ∧
    ofText? deepTraversal.text = none := by
  have hweight : weight.isFinite = true := by decide +kernel
  have hfinite : ∀ value ∈ weightTraversal.values, value.AllFinite := by
    simp [weightTraversal, values, Step.values, Predicate.of, Predicate.operands, Value.AllFinite,
      hweight]
  have horder : ∀ value ∈ weightTraversal.values, value.InOrder := by
    simp [weightTraversal, values, Step.values, Predicate.of, Predicate.operands, Value.InOrder]
  have htest : ∀ x y : Double, (Predicate.of .eq (.double x)).test (some (.double y)) =
      .ok (Binary.compare? y x == some .eq) := fun x y => by
    rw [Predicate.of, Predicate.test, Predicate.testCompare]
    rfl
  have hself : (Binary.compare? weight weight == some .eq) = true := by decide +kernel
  have hother : (Binary.compare? weight weight.reread == some .eq) = false := by
    rw [weight_reread]
    decide +kernel
  refine ⟨⟨hweight, ?_, ?_, ?_, ?_⟩, ?_⟩
  · rw [ofText?_eq hfinite horder, if_pos (by decide)]
    rfl
  · rw [weight_reread]
    decide +kernel
  · rw [htest, hself]
  · rw [htest, hother]
  · rw [ofText?, text, Json.read?_compact (writable_written _), if_neg (by decide +kernel)]
    rfl

end Traversal
end Pushdown
