import Pushdown.Proofs.Predicate.Narrowing
import Pushdown.Proofs.Value.Equality

/-!
# Values and their documents

A value whose doubles are finite is read back from its document with integers of 32 bits
wherever they fit, and what is read back is equal to it. In the other direction, a document is
that of its value exactly if each of its numbers is an integer of 64 bits, sign included, or a
finite double. An integer beyond that becomes a double, and stays one.

## Results

* `Value.narrowed_equals`: what is read back is equal to the value;
* `Value.exists_ofJson?_of_inRange`, `Value.inRange_of_toJson`: the documents that are given
  back by their values;
* `Value.converts_back`: both directions.
-/

namespace Pushdown

namespace Json

mutual

/-- Every number is an integer of 64 bits, sign included, or a finite double. -/
def InRange : Json → Prop
  | int value => Fits64 value
  | double value => value.isFinite = true
  | array items => InRangeItems items
  | object fields => InRangeFields fields
  | _ => True

/-- Every number of some items is an integer of 64 bits or a finite double. -/
def InRangeItems : List Json → Prop
  | [] => True
  | item :: items => InRange item ∧ InRangeItems items

/-- Every number of some fields is an integer of 64 bits or a finite double. -/
def InRangeFields : List (String × Json) → Prop
  | [] => True
  | (_, item) :: fields => InRange item ∧ InRangeFields fields

end

end Json

namespace Value

/-- The document of an integer's value is the integer, if it has 64 bits. -/
theorem toJson_ofInt_iff (i : Int) : (ofInt i).toJson = .int i ↔ Fits64 i := by
  rw [ofInt]
  split
  · next hfits =>
    have htoInt : (Int32.ofInt i).toInt = i :=
      Int32.toInt_ofInt_of_le (by have := hfits.1; omega) (by have := hfits.2; omega)
    rw [toJson, htoInt]
    exact iff_of_true rfl hfits.fits64
  · split
    · next hfits =>
      have htoInt : (Int64.ofInt i).toInt = i :=
        Int64.toInt_ofInt_of_le (by have := hfits.1; omega) (by have := hfits.2; omega)
      rw [toJson, htoInt]
      exact iff_of_true rfl hfits
    · next hfits =>
      refine iff_of_false ?_ hfits
      rw [toJson, Json.ofDouble]
      split <;> exact Json.noConfusion

theorem ofJson?_array {items : List Json} {value : Value} (h : ofJson? (.array items) = .ok value) :
    ∃ values, ofJsonItems? items = .ok values ∧ value = list values := by
  rw [ofJson?] at h
  split at h
  · next values hvalues => exact ⟨values, hvalues, (Except.ok.inj h).symm⟩
  · cases h

theorem ofJson?_object {fields : List (String × Json)} {value : Value}
    (h : ofJson? (.object fields) = .ok value) :
    ∃ entries, ofJsonFields? fields = .ok entries ∧ value = map entries := by
  rw [ofJson?] at h
  split at h
  · next entries hentries => exact ⟨entries, hentries, (Except.ok.inj h).symm⟩
  · cases h

theorem ofJsonItems?_cons {item : Json} {items : List Json} {values : List Value}
    (h : ofJsonItems? (item :: items) = .ok values) :
    ∃ first rest, ofJson? item = .ok first ∧ ofJsonItems? items = .ok rest ∧
      values = first :: rest := by
  rw [ofJsonItems?] at h
  split at h
  · cases h
  · next first hfirst =>
    split at h
    · next rest hrest => exact ⟨first, rest, hfirst, hrest, (Except.ok.inj h).symm⟩
    · cases h

theorem ofJsonFields?_cons {key : String} {item : Json} {fields : List (String × Json)}
    {entries : List (String × Value)} (h : ofJsonFields? ((key, item) :: fields) = .ok entries) :
    ∃ first rest, ofJson? item = .ok first ∧ ofJsonFields? fields = .ok rest ∧
      entries = (key, first) :: rest := by
  rw [ofJsonFields?] at h
  split at h
  · cases h
  · next first hfirst =>
    split at h
    · next rest hrest => exact ⟨first, rest, hfirst, hrest, (Except.ok.inj h).symm⟩
    · cases h

mutual

/-- A document in range has a value, whose document it is. -/
theorem exists_ofJson?_of_inRange : ∀ {json : Json}, json.InRange →
    ∃ value, ofJson? json = .ok value ∧ value.toJson = json
  | .null, _ | .bool _, _ | .string _, _ => ⟨_, rfl, rfl⟩
  | .int i, h => ⟨ofInt i, rfl, (toJson_ofInt_iff i).mpr h⟩
  | .double d, h => by
      have hfinite : d.isFinite = true := h
      refine ⟨double d, ?_, ?_⟩
      · rw [ofJson?, if_pos hfinite]
      · rw [toJson, Json.ofDouble, if_pos hfinite]
  | .array items, h => by
      obtain ⟨values, hvalues, hjson⟩ := exists_ofJsonItems?_of_inRange h
      exact ⟨list values, by rw [ofJson?, hvalues], by rw [toJson, hjson]⟩
  | .object fields, h => by
      obtain ⟨entries, hentries, hjson⟩ := exists_ofJsonFields?_of_inRange h
      exact ⟨map entries, by rw [ofJson?, hentries], by rw [toJson, hjson]⟩

theorem exists_ofJsonItems?_of_inRange : ∀ {items : List Json}, Json.InRangeItems items →
    ∃ values, ofJsonItems? items = .ok values ∧ toJsonItems values = items
  | [], _ => ⟨[], rfl, rfl⟩
  | item :: items, h => by
      obtain ⟨first, hfirst, hfirstJson⟩ := exists_ofJson?_of_inRange h.1
      obtain ⟨rest, hrest, hrestJson⟩ := exists_ofJsonItems?_of_inRange h.2
      exact ⟨first :: rest, by rw [ofJsonItems?, hfirst, hrest],
        by rw [toJsonItems, hfirstJson, hrestJson]⟩

theorem exists_ofJsonFields?_of_inRange : ∀ {fields : List (String × Json)},
    Json.InRangeFields fields →
    ∃ entries, ofJsonFields? fields = .ok entries ∧ toJsonFields entries = fields
  | [], _ => ⟨[], rfl, rfl⟩
  | (key, item) :: fields, h => by
      obtain ⟨first, hfirst, hfirstJson⟩ := exists_ofJson?_of_inRange h.1
      obtain ⟨rest, hrest, hrestJson⟩ := exists_ofJsonFields?_of_inRange h.2
      exact ⟨(key, first) :: rest, by rw [ofJsonFields?, hfirst, hrest],
        by rw [toJsonFields, hfirstJson, hrestJson]⟩

end

mutual

/-- A document that is given back by its value is in range. -/
theorem inRange_of_toJson : ∀ {json : Json} {value : Value}, ofJson? json = .ok value →
    value.toJson = json → json.InRange
  | .null, _, _, _ | .bool _, _, _, _ | .string _, _, _, _ => trivial
  | .int i, _, h, hjson => by
      cases h
      exact (toJson_ofInt_iff i).mp hjson
  | .double d, _, h, _ => by
      rw [ofJson?] at h
      split at h
      · next hfinite => exact hfinite
      · cases h
  | .array items, _, h, hjson => by
      obtain ⟨values, hvalues, rfl⟩ := ofJson?_array h
      exact inRangeItems_of_toJsonItems hvalues (Json.array.inj hjson)
  | .object fields, _, h, hjson => by
      obtain ⟨entries, hentries, rfl⟩ := ofJson?_object h
      exact inRangeFields_of_toJsonFields hentries (Json.object.inj hjson)

theorem inRangeItems_of_toJsonItems : ∀ {items : List Json} {values : List Value},
    ofJsonItems? items = .ok values → toJsonItems values = items → Json.InRangeItems items
  | [], _, _, _ => trivial
  | item :: items, _, h, hjson => by
      obtain ⟨first, rest, hfirst, hrest, rfl⟩ := ofJsonItems?_cons h
      obtain ⟨hfirstJson, hrestJson⟩ := List.cons.inj hjson
      exact ⟨inRange_of_toJson hfirst hfirstJson, inRangeItems_of_toJsonItems hrest hrestJson⟩

theorem inRangeFields_of_toJsonFields : ∀ {fields : List (String × Json)}
    {entries : List (String × Value)},
    ofJsonFields? fields = .ok entries → toJsonFields entries = fields →
    Json.InRangeFields fields
  | [], _, _, _ => trivial
  | (key, item) :: fields, _, h, hjson => by
      obtain ⟨first, rest, hfirst, hrest, rfl⟩ := ofJsonFields?_cons h
      obtain ⟨hfirstJson, hrestJson⟩ := List.cons.inj hjson
      exact ⟨inRange_of_toJson hfirst (Prod.mk.inj hfirstJson).2,
        inRangeFields_of_toJsonFields hrest hrestJson⟩

end

/-- What is read back from the document of a value is equal to the value. -/
theorem narrowed_equals {value : Value} (h : value.AllFinite) :
    value.narrowed.equals value = true := by
  rw [equals_comm, equals_narrowed]
  exact equals_self h

/-- A value without other doubles than finite ones is read back from its document, with integers
of 32 bits wherever they fit and equal to itself. A document is that of its value if and only if
its numbers are integers of 64 bits and finite doubles. -/
theorem converts_back (value : Value) (json : Json) :
    (value.AllFinite →
      ofJson? value.toJson = .ok value.narrowed ∧ value.narrowed.equals value = true) ∧
    (json.InRange ↔ ∃ read, ofJson? json = .ok read ∧ read.toJson = json) := by
  refine ⟨fun h => ⟨ofJson?_toJson h, narrowed_equals h⟩, exists_ofJson?_of_inRange, ?_⟩
  rintro ⟨read, hread, hjson⟩
  exact inRange_of_toJson hread hjson

theorem converts_back_nested :
    let value := list [int64 7, map [("far", int64 2147483648), ("whole", double (Binary.ofInt 7))]]
    let read := list [int32 7, map [("far", int64 2147483648), ("whole", double (Binary.ofInt 7))]]
    value.AllFinite ∧ ofJson? value.toJson = .ok read ∧ read.equals value = true ∧
      value.toJson.InRange := by
  have hfinite : (Binary.ofInt 7 : Double).isFinite = true := by decide +kernel
  have hvalue : (list [int64 7, map [("far", int64 2147483648),
      ("whole", double (Binary.ofInt 7))]]).AllFinite :=
    ⟨trivial, ⟨trivial, hfinite, trivial⟩, trivial⟩
  obtain ⟨hback, hrange⟩ := converts_back _ (toJson _)
  obtain ⟨hread, hequals⟩ := hback hvalue
  exact ⟨hvalue, hread, hequals, hrange.mpr ⟨_, hread, toJson_narrowed _⟩⟩

end Value
end Pushdown
