import Pushdown.Value.Raw

/-!
# Reading values back

A classified value holds no double that is not finite, so its document is read back. Only the
width of an integer is not kept: one that fits in 32 bits is read in 32 bits.

## Results

* `Value.allFinite_of`: the doubles of classified values are finite;
* `Value.ofJson?_toJson`: what is read back from the document of a value;
* `Value.toJson_narrowed`, `Value.narrowed_narrowed`: a value that is read back has the same
  document, and is read back as it is;
* `Value.exists_readable`: every document of a value is that of one that is read back as it is.
-/

namespace Pushdown
namespace Value

mutual

/-- Every double of a value is finite. -/
def AllFinite : Value → Prop
  | double value => value.isFinite = true
  | list items => AllFiniteItems items
  | map entries => AllFiniteEntries entries
  | _ => True

/-- Every double of some items is finite. -/
def AllFiniteItems : List Value → Prop
  | [] => True
  | item :: items => AllFinite item ∧ AllFiniteItems items

/-- Every double of some entries is finite. -/
def AllFiniteEntries : List (String × Value) → Prop
  | [] => True
  | (_, value) :: entries => AllFinite value ∧ AllFiniteEntries entries

end

mutual

/-- A value whose integers have 32 bits wherever they fit. -/
def narrowed : Value → Value
  | int64 value => if Fits32 value.toInt then int32 (Int32.ofInt value.toInt) else int64 value
  | list items => list (narrowedItems items)
  | map entries => map (narrowedEntries entries)
  | value => value

/-- Items with narrow integers. -/
def narrowedItems : List Value → List Value
  | [] => []
  | item :: items => narrowed item :: narrowedItems items

/-- Entries with narrow integers. -/
def narrowedEntries : List (String × Value) → List (String × Value)
  | [] => []
  | (key, value) :: entries => (key, narrowed value) :: narrowedEntries entries

end

theorem allFiniteEntries_insert {key : String} {value : Value} (hvalue : value.AllFinite) :
    ∀ {entries : Entries Value}, AllFiniteEntries entries →
      AllFiniteEntries (Entries.insert key value entries)
  | [], h => ⟨hvalue, h⟩
  | (k, v) :: rest, h => by
      obtain ⟨hv, hrest⟩ := h
      unfold Entries.insert
      split
      · exact ⟨hvalue, hv, hrest⟩
      · split
        · exact ⟨hvalue, hrest⟩
        · exact ⟨hv, allFiniteEntries_insert hvalue hrest⟩

mutual

/-- A host value with a double that is not finite has no property value. -/
theorem allFinite_of : ∀ {raw : RawValue} {value : Value}, of? raw = .ok value → value.AllFinite
  | .null, _, h | .bool _, _, h | .int _, _, h | .long _, _, h | .string _, _, h => by
      cases h
      trivial
  | .double d, _, h => by
      rw [of?] at h
      split at h
      · next hfinite =>
        cases h
        exact hfinite
      · cases h
  | .list items, _, h => by
      rw [of?] at h
      split at h
      · next values hvalues =>
        cases h
        exact allFinite_ofItems hvalues
      · cases h
  | .map entries, _, h => by
      rw [of?] at h
      split at h
      · next values hvalues =>
        cases h
        exact allFinite_ofEntries (show AllFiniteEntries [] from trivial) hvalues
      · cases h
  | .byte _, _, h | .short _, _, h | .float _, _, h | .bigInteger _, _, h | .bigDecimal _, _, h
  | .date _, _, h | .uuid _, _, h => by cases h

theorem allFinite_ofItems : ∀ {items : List RawValue} {values : List Value},
    ofItems? items = .ok values → AllFiniteItems values
  | [], _, h => by
      cases h
      trivial
  | item :: items, _, h => by
      rw [ofItems?] at h
      split at h
      · cases h
      · next value hvalue =>
        split at h
        · next values hvalues =>
          cases h
          exact ⟨allFinite_of hvalue, allFinite_ofItems hvalues⟩
        · cases h

theorem allFinite_ofEntries : ∀ {entries : List (RawValue × RawValue)}
    {before values : Entries Value}, AllFiniteEntries before →
    ofEntries? entries before = .ok values → AllFiniteEntries values
  | [], _, _, hbefore, h => by
      cases h
      exact hbefore
  | (.string key, item) :: entries, _, _, hbefore, h => by
      rw [ofEntries?] at h
      split at h
      · cases h
      · next value hvalue =>
        exact allFinite_ofEntries (allFiniteEntries_insert (allFinite_of hvalue) hbefore) h
  | (.null, _) :: _, _, _, _, h | (.bool _, _) :: _, _, _, _, h | (.byte _, _) :: _, _, _, _, h
  | (.short _, _) :: _, _, _, _, h | (.int _, _) :: _, _, _, _, h
  | (.long _, _) :: _, _, _, _, h | (.float _, _) :: _, _, _, _, h
  | (.double _, _) :: _, _, _, _, h | (.bigInteger _, _) :: _, _, _, _, h
  | (.bigDecimal _, _) :: _, _, _, _, h | (.date _, _) :: _, _, _, _, h
  | (.uuid _, _) :: _, _, _, _, h | (.list _, _) :: _, _, _, _, h
  | (.map _, _) :: _, _, _, _, h => by cases h

end

theorem ofInt_int32 (value : Int32) : ofInt value.toInt = int32 value := by
  rw [ofInt, if_pos (fits32_toInt value), Int32.ofInt_toInt]

theorem ofInt_int64 (value : Int64) : ofInt value.toInt = (int64 value).narrowed := by
  rw [ofInt, narrowed]
  split
  · rfl
  · rw [if_pos (fits64_toInt value), Int64.ofInt_toInt]

mutual

/-- A value is read back from its document with narrow integers. -/
theorem ofJson?_toJson : ∀ {value : Value}, value.AllFinite →
    ofJson? value.toJson = .ok value.narrowed
  | null, _ | bool _, _ | string _, _ => rfl
  | int32 value, _ => congrArg Except.ok (ofInt_int32 value)
  | int64 value, _ => congrArg Except.ok (ofInt_int64 value)
  | double value, h => by
      have hfinite : value.isFinite = true := h
      rw [toJson, Json.ofDouble, if_pos hfinite, ofJson?, if_pos hfinite]
      rfl
  | list items, h => by
      rw [toJson, ofJson?, ofJsonItems?_toJsonItems h]
      rfl
  | map entries, h => by
      rw [toJson, ofJson?, ofJsonFields?_toJsonFields h]
      rfl

theorem ofJsonItems?_toJsonItems : ∀ {items : List Value}, AllFiniteItems items →
    ofJsonItems? (toJsonItems items) = .ok (narrowedItems items)
  | [], _ => rfl
  | item :: items, h => by
      rw [toJsonItems, ofJsonItems?, ofJson?_toJson h.1, ofJsonItems?_toJsonItems h.2]
      rfl

theorem ofJsonFields?_toJsonFields : ∀ {entries : List (String × Value)},
    AllFiniteEntries entries →
    ofJsonFields? (toJsonFields entries) = .ok (narrowedEntries entries)
  | [], _ => rfl
  | (key, value) :: entries, h => by
      rw [toJsonFields, ofJsonFields?, ofJson?_toJson h.1, ofJsonFields?_toJsonFields h.2]
      rfl

end

theorem toJson_narrowed_int64 (value : Int64) :
    (int64 value).narrowed.toJson = .int value.toInt := by
  rw [narrowed]
  split
  · next hfits =>
    obtain ⟨hlower, hupper⟩ := hfits
    rw [toJson, Int32.toInt_ofInt_of_le (by omega) (by omega)]
  · rfl

theorem narrowed_narrowed_int64 (value : Int64) :
    (int64 value).narrowed.narrowed = (int64 value).narrowed := by
  by_cases hfits : Fits32 value.toInt
  · have hnarrow : (int64 value).narrowed = int32 (Int32.ofInt value.toInt) := by
      rw [narrowed, if_pos hfits]
    rw [hnarrow]
    rfl
  · have hself : (int64 value).narrowed = int64 value := by rw [narrowed, if_neg hfits]
    rw [hself, hself]

theorem allFinite_narrowed_int64 (value : Int64) : (int64 value).narrowed.AllFinite := by
  rw [narrowed]
  split <;> trivial

mutual

/-- A narrowed value has the same document. -/
theorem toJson_narrowed : ∀ value : Value, value.narrowed.toJson = value.toJson
  | null | bool _ | string _ | int32 _ | double _ => rfl
  | int64 value => toJson_narrowed_int64 value
  | list items => by
      rw [narrowed, toJson, toJson, toJsonItems_narrowedItems]
  | map entries => by
      rw [narrowed, toJson, toJson, toJsonFields_narrowedEntries]

theorem toJsonItems_narrowedItems : ∀ items : List Value,
    toJsonItems (narrowedItems items) = toJsonItems items
  | [] => rfl
  | item :: items => by
      rw [narrowedItems, toJsonItems, toJsonItems, toJson_narrowed, toJsonItems_narrowedItems]

theorem toJsonFields_narrowedEntries : ∀ entries : List (String × Value),
    toJsonFields (narrowedEntries entries) = toJsonFields entries
  | [] => rfl
  | (key, value) :: entries => by
      rw [narrowedEntries, toJsonFields, toJsonFields, toJson_narrowed,
        toJsonFields_narrowedEntries]

end

mutual

/-- Narrowing once is enough. -/
theorem narrowed_narrowed : ∀ value : Value, value.narrowed.narrowed = value.narrowed
  | null | bool _ | string _ | int32 _ | double _ => rfl
  | int64 value => narrowed_narrowed_int64 value
  | list items => by rw [narrowed, narrowed, narrowedItems_narrowedItems]
  | map entries => by rw [narrowed, narrowed, narrowedEntries_narrowedEntries]

theorem narrowedItems_narrowedItems : ∀ items : List Value,
    narrowedItems (narrowedItems items) = narrowedItems items
  | [] => rfl
  | item :: items => by
      rw [narrowedItems, narrowedItems, narrowed_narrowed, narrowedItems_narrowedItems]

theorem narrowedEntries_narrowedEntries : ∀ entries : List (String × Value),
    narrowedEntries (narrowedEntries entries) = narrowedEntries entries
  | [] => rfl
  | (key, value) :: entries => by
      rw [narrowedEntries, narrowedEntries, narrowed_narrowed, narrowedEntries_narrowedEntries]

end

mutual

theorem allFinite_narrowed : ∀ {value : Value}, value.AllFinite → value.narrowed.AllFinite
  | null, h | bool _, h | string _, h | int32 _, h | double _, h => h
  | int64 value, _ => allFinite_narrowed_int64 value
  | list _, h => allFiniteItems_narrowedItems h
  | map _, h => allFiniteEntries_narrowedEntries h

theorem allFiniteItems_narrowedItems : ∀ {items : List Value},
    AllFiniteItems items → AllFiniteItems (narrowedItems items)
  | [], _ => trivial
  | _ :: _, h => ⟨allFinite_narrowed h.1, allFiniteItems_narrowedItems h.2⟩

theorem allFiniteEntries_narrowedEntries : ∀ {entries : List (String × Value)},
    AllFiniteEntries entries → AllFiniteEntries (narrowedEntries entries)
  | [], _ => trivial
  | (_, _) :: _, h => ⟨allFinite_narrowed h.1, allFiniteEntries_narrowedEntries h.2⟩

end

mutual

/-- Narrowing makes no double finite. -/
theorem allFinite_of_narrowed : ∀ {value : Value}, value.narrowed.AllFinite → value.AllFinite
  | null, h | bool _, h | string _, h | int32 _, h | double _, h => h
  | int64 _, _ => trivial
  | list _, h => allFiniteItems_of_narrowed h
  | map _, h => allFiniteEntries_of_narrowed h

theorem allFiniteItems_of_narrowed : ∀ {items : List Value},
    AllFiniteItems (narrowedItems items) → AllFiniteItems items
  | [], _ => trivial
  | _ :: _, h => ⟨allFinite_of_narrowed h.1, allFiniteItems_of_narrowed h.2⟩

theorem allFiniteEntries_of_narrowed : ∀ {entries : List (String × Value)},
    AllFiniteEntries (narrowedEntries entries) → AllFiniteEntries entries
  | [], _ => trivial
  | (_, _) :: _, h => ⟨allFinite_of_narrowed h.1, allFiniteEntries_of_narrowed h.2⟩

end

mutual

/-- A document of a value is also that of a value whose doubles are finite. -/
theorem exists_allFinite : ∀ value : Value, ∃ finite : Value,
    finite.AllFinite ∧ finite.toJson = value.toJson
  | null => ⟨null, trivial, rfl⟩
  | bool value => ⟨bool value, trivial, rfl⟩
  | string value => ⟨string value, trivial, rfl⟩
  | int32 value => ⟨int32 value, trivial, rfl⟩
  | int64 value => ⟨int64 value, trivial, rfl⟩
  | double value => by
      cases hfinite : value.isFinite with
      | true => exact ⟨double value, hfinite, rfl⟩
      | false => exact ⟨null, trivial, by simp [toJson, Json.ofDouble, hfinite]⟩
  | list items => by
      obtain ⟨finite, hfinite, hjson⟩ := exists_allFiniteItems items
      exact ⟨list finite, hfinite, by rw [toJson, toJson, hjson]⟩
  | map entries => by
      obtain ⟨finite, hfinite, hjson⟩ := exists_allFiniteEntries entries
      exact ⟨map finite, hfinite, by rw [toJson, toJson, hjson]⟩

theorem exists_allFiniteItems : ∀ items : List Value, ∃ finite : List Value,
    AllFiniteItems finite ∧ toJsonItems finite = toJsonItems items
  | [] => ⟨[], trivial, rfl⟩
  | item :: items => by
      obtain ⟨first, hfirst, hjson⟩ := exists_allFinite item
      obtain ⟨rest, hrest, hjsonRest⟩ := exists_allFiniteItems items
      exact ⟨first :: rest, ⟨hfirst, hrest⟩, by rw [toJsonItems, toJsonItems, hjson, hjsonRest]⟩

theorem exists_allFiniteEntries : ∀ entries : List (String × Value),
    ∃ finite : List (String × Value),
      AllFiniteEntries finite ∧ toJsonFields finite = toJsonFields entries
  | [] => ⟨[], trivial, rfl⟩
  | (key, value) :: entries => by
      obtain ⟨first, hfirst, hjson⟩ := exists_allFinite value
      obtain ⟨rest, hrest, hjsonRest⟩ := exists_allFiniteEntries entries
      exact ⟨(key, first) :: rest, ⟨hfirst, hrest⟩,
        by rw [toJsonFields, toJsonFields, hjson, hjsonRest]⟩

end

/-- A document of a value is also that of a value that is read back as it is. -/
theorem exists_readable (value : Value) : ∃ readable : Value,
    readable.AllFinite ∧ readable.narrowed = readable ∧ readable.toJson = value.toJson := by
  obtain ⟨finite, hfinite, hjson⟩ := exists_allFinite value
  exact ⟨finite.narrowed, allFinite_narrowed hfinite, narrowed_narrowed finite,
    (toJson_narrowed finite).trans hjson⟩

/-- Every document of a value is read. -/
theorem exists_ofJson?_toJson (value : Value) : ∃ read, ofJson? value.toJson = .ok read := by
  obtain ⟨finite, hfinite, hjson⟩ := exists_allFinite value
  rw [← hjson]
  exact ⟨_, ofJson?_toJson hfinite⟩

/-- Documents of values are those of values that are read back as they are. -/
theorem exists_entries : ∀ {fields : Entries Json},
    (∀ field ∈ fields, ∃ value : Value, value.toJson = field.2) →
    ∃ entries, toJsonFields entries = fields ∧ AllFiniteEntries entries ∧
      narrowedEntries entries = entries
  | [], _ => ⟨[], rfl, trivial, rfl⟩
  | (key, json) :: fields, h => by
      obtain ⟨given, hgiven⟩ := h (key, json) List.mem_cons_self
      obtain ⟨value, hfinite, hnarrowed, hjson⟩ := exists_readable given
      obtain ⟨entries, hfields, hrest, hrestNarrowed⟩ :=
        exists_entries fun field hfield => h field (List.mem_cons_of_mem _ hfield)
      refine ⟨(key, value) :: entries, ?_, ⟨hfinite, hrest⟩, ?_⟩
      · rw [toJsonFields, hjson, hgiven, hfields]
      · rw [narrowedEntries, hnarrowed, hrestNarrowed]

theorem exists_of_mem_toJsonFields : ∀ {entries : Entries Value} {field : String × Json},
    field ∈ toJsonFields entries → ∃ value : Value, value.toJson = field.2
  | (_, value) :: _, _, h => by
      rcases List.mem_cons.mp h with rfl | h
      · exact ⟨value, rfl⟩
      · exact exists_of_mem_toJsonFields h

section entries

variable {key : String}

theorem keys_narrowedEntries : ∀ entries : Entries Value,
    Entries.keys (narrowedEntries entries) = Entries.keys entries
  | [] => rfl
  | (key, _) :: entries => congrArg (key :: ·) (keys_narrowedEntries entries)

theorem narrowedEntries_insert (value : Value) : ∀ entries : Entries Value,
    narrowedEntries (Entries.insert key value entries) =
      Entries.insert key value.narrowed (narrowedEntries entries)
  | [] => rfl
  | (k, v) :: rest => by
      rw [narrowedEntries, Entries.insert, Entries.insert]
      split
      · rfl
      · split
        · rfl
        · rw [narrowedEntries, narrowedEntries_insert value rest]

theorem narrowedEntries_erase : ∀ entries : Entries Value,
    narrowedEntries (Entries.erase key entries) = Entries.erase key (narrowedEntries entries)
  | [] => rfl
  | (k, v) :: rest => by
      rw [narrowedEntries, Entries.erase, Entries.erase]
      split
      · rfl
      · rw [narrowedEntries, narrowedEntries_erase rest]

theorem allFiniteEntries_erase : ∀ {entries : Entries Value}, AllFiniteEntries entries →
    AllFiniteEntries (Entries.erase key entries)
  | [], h => h
  | (k, v) :: rest, h => by
      rw [Entries.erase]
      split
      · exact h.2
      · exact ⟨h.1, allFiniteEntries_erase h.2⟩

end entries

theorem keys_toJsonFields : ∀ entries : Entries Value,
    Entries.keys (toJsonFields entries) = Entries.keys entries
  | [] => rfl
  | (key, _) :: entries => congrArg (key :: ·) (keys_toJsonFields entries)

end Value
end Pushdown
