import Pushdown.Proofs.Value.Literals

/-!
# Values with other doubles

A value keeps its shape, its keys and all that is no number if its doubles become other ones. The
document of such a value is that of the value with the other doubles, as long as none of them
ceases to be finite.

## Results

* `Value.mapDoubles_eq_self_iff`: when a value stays the same;
* `Value.toJson_mapDoubles`: the document of a value with other doubles;
* `Value.writable_toJson`: every document of a value can be written.
-/

namespace Pushdown
namespace Value

mutual

/-- The doubles of a value, in their order. -/
def doubles : Value → List Double
  | double x => [x]
  | list items => doublesItems items
  | map entries => doublesEntries entries
  | _ => []

/-- The doubles of some items. -/
def doublesItems : List Value → List Double
  | [] => []
  | item :: items => doubles item ++ doublesItems items

/-- The doubles of some entries. -/
def doublesEntries : List (String × Value) → List Double
  | [] => []
  | (_, value) :: entries => doubles value ++ doublesEntries entries

end

mutual

/-- A value with other doubles. -/
def mapDoubles (again : Double → Double) : Value → Value
  | double x => double (again x)
  | list items => list (mapDoublesItems again items)
  | map entries => map (mapDoublesEntries again entries)
  | value => value

/-- Items with other doubles. -/
def mapDoublesItems (again : Double → Double) : List Value → List Value
  | [] => []
  | item :: items => mapDoubles again item :: mapDoublesItems again items

/-- Entries with other doubles. -/
def mapDoublesEntries (again : Double → Double) : List (String × Value) → List (String × Value)
  | [] => []
  | (key, value) :: entries => (key, mapDoubles again value) :: mapDoublesEntries again entries

end

variable {again : Double → Double}

mutual

/-- A value is the same with other doubles exactly if they are the same. -/
theorem mapDoubles_eq_self_iff : ∀ value : Value,
    value.mapDoubles again = value ↔ ∀ x ∈ value.doubles, again x = x
  | null | bool _ | int32 _ | int64 _ | string _ => by simp [mapDoubles, doubles]
  | double x => by simp [mapDoubles, doubles]
  | list items => by
      rw [mapDoubles, list.injEq]
      exact mapDoublesItems_eq_self_iff items
  | map entries => by
      rw [mapDoubles, map.injEq]
      exact mapDoublesEntries_eq_self_iff entries

theorem mapDoublesItems_eq_self_iff : ∀ items : List Value,
    mapDoublesItems again items = items ↔ ∀ x ∈ doublesItems items, again x = x
  | [] => by simp [mapDoublesItems, doublesItems]
  | item :: items => by
      rw [mapDoublesItems, doublesItems, List.cons.injEq, List.forall_mem_append,
        mapDoubles_eq_self_iff item, mapDoublesItems_eq_self_iff items]

theorem mapDoublesEntries_eq_self_iff : ∀ entries : List (String × Value),
    mapDoublesEntries again entries = entries ↔ ∀ x ∈ doublesEntries entries, again x = x
  | [] => by simp [mapDoublesEntries, doublesEntries]
  | (key, value) :: entries => by
      rw [mapDoublesEntries, doublesEntries, List.cons.injEq, Prod.mk.injEq,
        List.forall_mem_append, mapDoubles_eq_self_iff value,
        mapDoublesEntries_eq_self_iff entries]
      simp

end

mutual

theorem allFinite_iff : ∀ value : Value,
    value.AllFinite ↔ ∀ x ∈ value.doubles, x.isFinite = true
  | null | bool _ | int32 _ | int64 _ | string _ => by simp [AllFinite, doubles]
  | double x => by simp [AllFinite, doubles]
  | list items => allFiniteItems_iff items
  | map entries => allFiniteEntries_iff entries

theorem allFiniteItems_iff : ∀ items : List Value,
    AllFiniteItems items ↔ ∀ x ∈ doublesItems items, x.isFinite = true
  | [] => by simp [AllFiniteItems, doublesItems]
  | item :: items => by
      rw [AllFiniteItems, doublesItems, List.forall_mem_append, allFinite_iff item,
        allFiniteItems_iff items]

theorem allFiniteEntries_iff : ∀ entries : List (String × Value),
    AllFiniteEntries entries ↔ ∀ x ∈ doublesEntries entries, x.isFinite = true
  | [] => by simp [AllFiniteEntries, doublesEntries]
  | (_, value) :: entries => by
      rw [AllFiniteEntries, doublesEntries, List.forall_mem_append, allFinite_iff value,
        allFiniteEntries_iff entries]

end

mutual

theorem doubles_mapDoubles : ∀ value : Value,
    (value.mapDoubles again).doubles = value.doubles.map again
  | null | bool _ | int32 _ | int64 _ | string _ | double _ => rfl
  | list items => doublesItems_mapDoublesItems items
  | map entries => doublesEntries_mapDoublesEntries entries

theorem doublesItems_mapDoublesItems : ∀ items : List Value,
    doublesItems (mapDoublesItems again items) = (doublesItems items).map again
  | [] => rfl
  | item :: items => by
      rw [mapDoublesItems, doublesItems, doublesItems, List.map_append, doubles_mapDoubles item,
        doublesItems_mapDoublesItems items]

theorem doublesEntries_mapDoublesEntries : ∀ entries : List (String × Value),
    doublesEntries (mapDoublesEntries again entries) = (doublesEntries entries).map again
  | [] => rfl
  | (_, value) :: entries => by
      rw [mapDoublesEntries, doublesEntries, doublesEntries, List.map_append,
        doubles_mapDoubles value, doublesEntries_mapDoublesEntries entries]

end

mutual

/-- Narrow integers leave the doubles of a value. -/
theorem doubles_narrowed : ∀ value : Value, value.narrowed.doubles = value.doubles
  | null | bool _ | int32 _ | string _ | double _ => rfl
  | int64 value => by
      rw [narrowed]
      split <;> rfl
  | list items => doublesItems_narrowedItems items
  | map entries => doublesEntries_narrowedEntries entries

theorem doublesItems_narrowedItems : ∀ items : List Value,
    doublesItems (narrowedItems items) = doublesItems items
  | [] => rfl
  | item :: items => by
      rw [narrowedItems, doublesItems, doublesItems, doubles_narrowed item,
        doublesItems_narrowedItems items]

theorem doublesEntries_narrowedEntries : ∀ entries : List (String × Value),
    doublesEntries (narrowedEntries entries) = doublesEntries entries
  | [] => rfl
  | (_, value) :: entries => by
      rw [narrowedEntries, doublesEntries, doublesEntries, doubles_narrowed value,
        doublesEntries_narrowedEntries entries]

end

/-- Doubles that stay finite leave a value with finite ones. -/
theorem allFinite_mapDoubles (hagain : ∀ x : Double, x.isFinite = true → (again x).isFinite = true)
    {value : Value} (h : value.AllFinite) : (value.mapDoubles again).AllFinite := by
  rw [allFinite_iff] at h ⊢
  rw [doubles_mapDoubles, List.forall_mem_map]
  exact fun x hx => hagain x (h x hx)

theorem keys_mapDoublesEntries : ∀ entries : List (String × Value),
    Entries.keys (mapDoublesEntries again entries) = Entries.keys entries
  | [] => rfl
  | (key, _) :: entries => congrArg (key :: ·) (keys_mapDoublesEntries entries)

mutual

/-- Other doubles leave the entries of maps in their order. -/
theorem inOrder_mapDoubles : ∀ {value : Value}, value.InOrder → (value.mapDoubles again).InOrder
  | null, _ | bool _, _ | int32 _, _ | int64 _, _ | string _, _ | double _, _ => trivial
  | list _, h => inOrderItems_mapDoublesItems h
  | map entries, h => by
      refine ⟨?_, inOrderEntries_mapDoublesEntries h.2⟩
      rw [Entries.Ascending, keys_mapDoublesEntries]
      exact h.1

theorem inOrderItems_mapDoublesItems : ∀ {items : List Value}, InOrderItems items →
    InOrderItems (mapDoublesItems again items)
  | [], _ => trivial
  | _ :: _, h => ⟨inOrder_mapDoubles h.1, inOrderItems_mapDoublesItems h.2⟩

theorem inOrderEntries_mapDoublesEntries : ∀ {entries : List (String × Value)},
    InOrderEntries entries → InOrderEntries (mapDoublesEntries again entries)
  | [], _ => trivial
  | (_, _) :: _, h => ⟨inOrder_mapDoubles h.1, inOrderEntries_mapDoublesEntries h.2⟩

end

mutual

/-- The document of a value with other doubles, none of which ceases to be finite. -/
theorem toJson_mapDoubles
    (hagain : ∀ x : Double, x.isFinite = true → (again x).isFinite = true) :
    ∀ {value : Value}, value.AllFinite →
      (value.mapDoubles again).toJson = value.toJson.mapDoubles again
  | null, _ | bool _, _ | int32 _, _ | int64 _, _ | string _, _ => rfl
  | double x, h => by
      have hfinite : x.isFinite = true := h
      rw [mapDoubles, toJson, toJson, Json.ofDouble, Json.ofDouble, if_pos hfinite,
        if_pos (hagain x hfinite), Json.mapDoubles]
  | list items, h => by
      rw [mapDoubles, toJson, toJson, Json.mapDoubles, toJsonItems_mapDoublesItems hagain h]
  | map entries, h => by
      rw [mapDoubles, toJson, toJson, Json.mapDoubles, toJsonFields_mapDoublesEntries hagain h]

theorem toJsonItems_mapDoublesItems
    (hagain : ∀ x : Double, x.isFinite = true → (again x).isFinite = true) :
    ∀ {items : List Value}, AllFiniteItems items →
      toJsonItems (mapDoublesItems again items) = Json.mapDoublesItems again (toJsonItems items)
  | [], _ => rfl
  | _ :: _, h => by
      rw [mapDoublesItems, toJsonItems, toJsonItems, Json.mapDoublesItems,
        toJson_mapDoubles hagain h.1, toJsonItems_mapDoublesItems hagain h.2]

theorem toJsonFields_mapDoublesEntries
    (hagain : ∀ x : Double, x.isFinite = true → (again x).isFinite = true) :
    ∀ {entries : List (String × Value)}, AllFiniteEntries entries →
      toJsonFields (mapDoublesEntries again entries) =
        Json.mapDoublesFields again (toJsonFields entries)
  | [], _ => rfl
  | (_, _) :: _, h => by
      rw [mapDoublesEntries, toJsonFields, toJsonFields, Json.mapDoublesFields,
        toJson_mapDoubles hagain h.1, toJsonFields_mapDoublesEntries hagain h.2]

end

mutual

/-- Every number in the document of a value can be written. -/
theorem writable_toJson : ∀ value : Value, value.toJson.Writable
  | null | bool _ | string _ => trivial
  | int32 value => (fits32_toInt value).fits64.fitsDocument
  | int64 value => (fits64_toInt value).fitsDocument
  | double x => by
      rw [toJson, Json.ofDouble]
      split
      · next hfinite => exact hfinite
      · trivial
  | list items => writableItems_toJsonItems items
  | map entries => writableFields_toJsonFields entries

theorem writableItems_toJsonItems : ∀ items : List Value, Json.WritableItems (toJsonItems items)
  | [] => trivial
  | item :: items => ⟨writable_toJson item, writableItems_toJsonItems items⟩

theorem writableFields_toJsonFields : ∀ entries : List (String × Value),
    Json.WritableFields (toJsonFields entries)
  | [] => trivial
  | (_, value) :: entries => ⟨writable_toJson value, writableFields_toJsonFields entries⟩

end

end Value
end Pushdown
