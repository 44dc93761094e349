import Pushdown.Proofs.Graph.Documents
import Pushdown.Proofs.Identity.RoundTrip
import Pushdown.Proofs.Predicate.Members
import Pushdown.Proofs.Predicate.StoredIds

/-!
# Id predicates on both encodings

Planning compares what the id fields of documents hold, testing compares the ids of traversals.
What a field holds for an element is its id in traversals behind a text that only depends on the
graph. Texts behind one text are equal, and ordered, as they are alone, so an id predicate and its
planned form come to the same result on every element, with the same failure if there is one.

## Results

* `GraphConfig.idFieldText?_eq`, `GraphConfig.storedId_eq`: texts of id fields and of operands;
* `Operator.test_storedOperand`: the test of one comparison;
* `StoredDocument.Placed.find?_idField`: what the id field of a document holds;
* `Predicate.test_planned`: the test of an id predicate.
-/

namespace Pushdown

namespace Text

theorem append_lt_append_iff (start a b : List Char) : start ++ a < start ++ b ↔ a < b := by
  induction start with
  | nil => rfl
  | cons c start ih =>
      rw [List.cons_append, List.cons_append, List.cons_lt_cons_iff, ih]
      simp

theorem append_inj_iff (start a b : String) : start ++ a = start ++ b ↔ a = b := by
  rw [← String.toList_inj, String.toList_append, String.toList_append,
    List.append_cancel_left_eq, String.toList_inj]

/-- Texts behind one text are ordered as they are alone. -/
theorem compare_append (start a b : String) : compare (start ++ a) (start ++ b) = compare a b := by
  have hlt : start ++ a < start ++ b ↔ a < b := by
    rw [String.lt_iff, String.lt_iff, String.toList_append, String.toList_append,
      append_lt_append_iff]
  show compareOfLessAndEq _ _ = compareOfLessAndEq _ _
  simp only [compareOfLessAndEq, hlt, append_inj_iff]

end Text

namespace GraphConfig

variable {config : GraphConfig} {kind : ElementKind}

/-- What stands before the id of an element in its id field. -/
def idFieldStart (config : GraphConfig) : String :=
  match config.type with
  | .simple => ""
  | .complex => config.graph ++ graphSeparator.toString

/-- What the id field of the document of an element holds: its key or, in a complex graph, the id
of the document. -/
def idFieldText? (config : GraphConfig) (id : ElementId) : Option String :=
  match config.type with
  | .simple => id.key
  | .complex => id.documentId?

/-- In its id field, an element has its id in traversals behind a text of the graph. -/
theorem idFieldText?_eq {id : ElementId} {text : String} (hgraph : id.graph = config.graph)
    (hencode : config.encodeId id = some text) :
    config.idFieldText? id = some (config.idFieldStart ++ text) := by
  unfold encodeId GraphType.encode at hencode
  unfold idFieldText? idFieldStart
  cases htype : config.type with
  | simple =>
      rw [htype] at hencode
      rw [String.empty_append]
      exact hencode
  | complex =>
      rw [htype] at hencode
      obtain ⟨key, hkey, rfl⟩ := Option.map_eq_some_iff.mp hencode
      rw [ElementId.documentId?, ElementId.physicalCollection, physicalName, hkey, hgraph,
        Option.map_some]
      simp only [String.append_assoc]

/-- An id that is stored is stored behind the same text. -/
theorem storedId_eq {text stored : String} (h : config.storedId kind text = .ok stored) :
    stored = config.idFieldStart ++ text := by
  obtain ⟨id, hparse, -⟩ := Outcome.bind_eq_ok_iff.mp h
  obtain ⟨key, hkeyed, -, -, hencode⟩ := parseId_eq_ok_iff.mp hparse
  obtain ⟨found, hfound, hfield⟩ := storedId_of_parseId hparse ⟨key, hkeyed.hasKey⟩
  cases h.symm.trans hfound
  have htext : config.idFieldText? id = some stored := by
    unfold idFieldText?
    cases htype : config.type with
    | simple =>
        rw [htype] at hfield
        exact hfield
    | complex =>
        rw [htype] at hfield
        exact hfield
  rw [idFieldText?_eq hkeyed.graph hencode] at htext
  exact (Option.some.inj htext).symm

end GraphConfig

/-- The document of an element holds its id in the id field. -/
theorem StoredDocument.Placed.find?_idField {config : GraphConfig} {d : StoredDocument}
    {element : Element} (h : d.Placed config)
    (hdecode : config.decodeElementRow d.json = .ok element) :
    (Entries.find? config.type.idField d.fields).bind Json.asString? =
      config.idFieldText? element.id := by
  obtain ⟨key, hkeyed, hdocument, hcollection⟩ := h.keyed hdecode
  unfold GraphConfig.idFieldText?
  cases config.type with
  | simple =>
      have hid : element.id.physicalCollection ++ keySeparator.toString ++ key = d.id := by
        rw [ElementId.documentId?, hkeyed.hasKey] at hdocument
        exact Option.some.inj hdocument
      have hkey : key = d.key := by
        rw [StoredDocument.id, hcollection, ElementId.physicalCollection_of_graph hkeyed.graph,
          Text.append_inj_iff] at hid
        exact hid
      rw [GraphType.idField, h.key, hkeyed.hasKey, hkey]
      rfl
  | complex =>
      rw [GraphType.idField, h.id, hdocument]
      rfl

section operands

variable {config : GraphConfig} {kind : ElementKind}

/-- The two forms of a single id are texts, one behind the text of the graph. -/
theorem texts_of_storedIdValue {value stored : Value}
    (h : storedIdValue config kind value = .ok stored) :
    ∃ text, value.integersAsText = .string text ∧
      stored = .string (config.idFieldStart ++ text) := by
  obtain ⟨text, htext, h⟩ := Outcome.bind_eq_ok_iff.mp h
  obtain ⟨found, hfound, h⟩ := Outcome.bind_eq_ok_iff.mp h
  cases h
  rw [GraphConfig.storedId_eq hfound]
  refine ⟨text, ?_, rfl⟩
  cases value with
  | string | int32 | int64 =>
      cases htext
      rfl
  | null | bool | double | list | map => cases htext

/-- The two forms of several ids. -/
theorem texts_of_storedIdValues : ∀ {values stored : List Value},
    storedIdValues config kind values = .ok stored →
      ∃ texts : List String, Value.integersAsTextItems values = texts.map .string ∧
        stored = texts.map fun text => .string (config.idFieldStart ++ text)
  | [], _, h => by
      cases h
      exact ⟨[], rfl, rfl⟩
  | value :: values, _, h => by
      rw [storedIdValues] at h
      split at h
      · cases h
      · next first hfirst =>
        split at h
        · cases h
        · next rest hrest =>
          cases h
          obtain ⟨text, htext, rfl⟩ := texts_of_storedIdValue hfirst
          obtain ⟨texts, htexts, rfl⟩ := texts_of_storedIdValues hrest
          refine ⟨text :: texts, ?_, rfl⟩
          rw [Value.integersAsTextItems, htext, htexts, List.map_cons]

end operands

namespace Operator

variable {config : GraphConfig} {kind : ElementKind}

theorem equals_append (start a b : String) :
    (Value.string (start ++ a)).equals (.string (start ++ b)) =
      (Value.string a).equals (.string b) := by
  simp only [Value.equals, Bool.beq_eq_decide_eq, Text.append_inj_iff]

theorem ordered_append (accept : Ordering → Bool) (start a b : String) :
    ordered accept (.string (start ++ a)) (.string (start ++ b)) =
      ordered accept (.string a) (.string b) := by
  simp only [ordered, Value.compare?, Text.compare_append]

theorem isMember_append (start text : String) (texts : List String) :
    isMember (.string (start ++ text)) (texts.map fun other => .string (start ++ other)) =
      isMember (.string text) (texts.map .string) := by
  induction texts with
  | nil => rfl
  | cons other texts ih =>
      rw [isMember, isMember] at ih ⊢
      rw [List.map_cons, List.map_cons, List.any_cons, List.any_cons, ih, equals_append]

/-- A comparison with the stored form of an operand comes to what the comparison of ids in
traversals comes to. -/
theorem test_storedOperand {op : String} {known : Operator} {operand stored : Value}
    (hop : ofName? op = some known)
    (hstored : Predicate.storedOperand config kind op operand = .ok (some stored))
    (text : String) :
    known.test (.string (config.idFieldStart ++ text)) stored =
      known.test (.string text) operand.integersAsText := by
  unfold Predicate.storedOperand at hstored
  rw [hop] at hstored
  cases known with
  | eq | neq =>
      obtain ⟨single, hsingle, heq⟩ := Outcome.map_eq_ok_iff.mp hstored
      obtain ⟨other, hother, rfl⟩ := texts_of_storedIdValue hsingle
      cases heq
      rw [hother, test, test, equals_append]
  | lt | lte | gt | gte =>
      obtain ⟨single, hsingle, heq⟩ := Outcome.map_eq_ok_iff.mp hstored
      obtain ⟨other, hother, rfl⟩ := texts_of_storedIdValue hsingle
      cases heq
      rw [hother, test, test, ordered_append]
  | within | without =>
      cases operand with
      | list items =>
          obtain ⟨values, hvalues, heq⟩ := Outcome.map_eq_ok_iff.mp hstored
          obtain ⟨texts, htexts, rfl⟩ := texts_of_storedIdValues hvalues
          cases heq
          rw [Value.integersAsText, htexts, test, test, listOperand, listOperand, Except.map,
            Except.map, isMember_append]
      | null | bool | int32 | int64 | double | string | map =>
          -- a membership in a single id fails on both sides, and alike
          obtain ⟨single, hsingle, heq⟩ := Outcome.map_eq_ok_iff.mp hstored
          obtain ⟨other, hother, rfl⟩ := texts_of_storedIdValue hsingle
          cases heq
          rw [hother]
          rfl
  | containing | notContaining | startingWith | notStartingWith | endingWith | notEndingWith
  | regex | notRegex => cases hstored

end Operator

namespace Predicate

variable {config : GraphConfig} {kind : ElementKind}

/-- The stored forms of some members start with that of the first. -/
theorem onStoredIdsMembers_cons_eq_ok {p : Predicate} {ps qs : List Predicate}
    (h : onStoredIdsMembers config kind (p :: ps) = .ok (some qs)) :
    ∃ q rest, onStoredIds config kind p = .ok (some q) ∧
      onStoredIdsMembers config kind ps = .ok (some rest) ∧ qs = q :: rest := by
  rw [onStoredIdsMembers] at h
  split at h
  · cases h
  · cases h
  · next q hq =>
    split at h
    · cases h
    · cases h
    · next rest hrest =>
      cases h
      exact ⟨q, rest, hq, hrest, rfl⟩

section members

variable {value held : Option Value}

/-- Members that come to the same results come to the same conjunction. -/
theorem testAll_planned : ∀ {ps qs : List Predicate},
    (∀ p ∈ ps, ∀ q, onStoredIds config kind p = .ok (some q) →
      q.test held = p.onIdText.test value) →
    onStoredIdsMembers config kind ps = .ok (some qs) →
      testAll qs held = testAll (onIdTextMembers ps) value
  | [], _, _, h => by
      cases h
      rfl
  | p :: ps, _, hmembers, h => by
      obtain ⟨q, rest, hq, hrest, rfl⟩ := onStoredIdsMembers_cons_eq_ok h
      rw [List.forall_mem_cons] at hmembers
      rw [onIdTextMembers, testAll, testAll, hmembers.1 q hq, testAll_planned hmembers.2 hrest]

/-- Members that come to the same results come to the same disjunction. -/
theorem testAny_planned : ∀ {ps qs : List Predicate},
    (∀ p ∈ ps, ∀ q, onStoredIds config kind p = .ok (some q) →
      q.test held = p.onIdText.test value) →
    onStoredIdsMembers config kind ps = .ok (some qs) →
      testAny qs held = testAny (onIdTextMembers ps) value
  | [], _, _, h => by
      cases h
      rfl
  | p :: ps, _, hmembers, h => by
      obtain ⟨q, rest, hq, hrest, rfl⟩ := onStoredIdsMembers_cons_eq_ok h
      rw [List.forall_mem_cons] at hmembers
      rw [onIdTextMembers, testAny, testAny, hmembers.1 q hq, testAny_planned hmembers.2 hrest]

end members

/-- The planned form of an id predicate comes to the same result behind the text of the graph. -/
theorem test_onStoredIds {p q : Predicate} (h : p.onStoredIds config kind = .ok (some q))
    (text : String) :
    q.test (some (.string (config.idFieldStart ++ text))) =
      p.onIdText.test (some (.string text)) := by
  induction p using memberInduction generalizing q with
  | compare op operand =>
      rw [onStoredIds] at h
      obtain ⟨stored, hstored, rfl⟩ := Outcome.map_map_eq_some_iff.mp h
      rw [onIdText, test, test, testCompare, testCompare]
      cases hop : Operator.ofName? op with
      | none => rfl
      | some known => exact Operator.test_storedOperand hop hstored text
  | all members ih =>
      rw [onStoredIds] at h
      obtain ⟨qs, hqs, rfl⟩ := Outcome.map_map_eq_some_iff.mp h
      rw [onIdText, test, test]
      exact testAll_planned (fun p hp q hq => ih p hp hq) hqs
  | any members ih =>
      rw [onStoredIds] at h
      obtain ⟨qs, hqs, rfl⟩ := Outcome.map_map_eq_some_iff.mp h
      rw [onIdText, test, test]
      exact testAny_planned (fun p hp q hq => ih p hp hq) hqs

/-- An id predicate and its planned form come to the same result, or fail alike, on every element
that an id is read as: the one on its id in traversals, the other on what the id field of its
document holds. -/
theorem test_planned {p q : Predicate} (hplanned : p.onStoredIds config kind = .ok (some q))
    {text : String} {id : ElementId} (hid : config.parseId kind text = .ok id) :
    ∃ encoded held, config.encodeId id = some encoded ∧ config.idFieldText? id = some held ∧
      q.test (some (.string held)) = p.onIdText.test (some (.string encoded)) ∧
      ∀ (d : StoredDocument) (element : Element), d.Placed config →
        config.decodeElementRow d.json = .ok element → element.id = id →
          Entries.find? config.type.idField d.fields = some (.string held) := by
  obtain ⟨key, hkeyed, -, -, hencode⟩ := GraphConfig.parseId_eq_ok_iff.mp hid
  have hheld := GraphConfig.idFieldText?_eq hkeyed.graph hencode
  refine ⟨text, _, hencode, hheld, test_onStoredIds hplanned text, ?_⟩
  rintro d element hplaced hdecode rfl
  have hfield := hplaced.find?_idField hdecode
  rw [hheld] at hfield
  obtain ⟨json, hjson, hstring⟩ := Option.bind_eq_some_iff.mp hfield
  rw [hjson, Json.eq_string_of_asString? hstring]

/-- A predicate on ids of the kennel. -/
def afterTom : Predicate :=
  .all [.of .gt (.string "cat/tom"),
    .any [.of .eq (.string "dog/max"), .of .without (.list [.string "dog/ada"])]]

theorem test_planned_rex :
    ∃ q : Predicate, afterTom.onStoredIds GraphConfig.kennel .vertex = .ok (some q) ∧
      q.test (some (.string "kennel_dog/rex")) = .ok true := by
  have hid : GraphConfig.kennel.parseId .vertex "dog/rex" = .ok GraphConfig.rexOfKennel := rfl
  have hplanned : afterTom.onStoredIds GraphConfig.kennel .vertex = .ok (some (.all
      [.of .gt (.string "kennel_cat/tom"), .any [.of .eq (.string "kennel_dog/max"),
        .of .without (.list [.string "kennel_dog/ada"])]])) := rfl
  obtain ⟨encoded, held, hencoded, hheld, htest, -⟩ := test_planned hplanned hid
  cases hencoded
  cases hheld
  exact ⟨_, hplanned, htest⟩

end Predicate
end Pushdown
