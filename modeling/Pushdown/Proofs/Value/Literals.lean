import Pushdown.Proofs.Entries.Order
import Pushdown.Proofs.Json.Spelling
import Pushdown.Proofs.Value.Documents

/-!
# Literals as documents

The literal of a value is a text of its document: lists, maps, texts and numbers are written as
documents write them, and a double that is not finite is written as null. So a literal that is
read as a document and classified again gives a value equal to the one that was written exactly
if that one holds no other doubles than finite ones.

## Results

* `Value.spells_render`: the literal of a value is a text of its document;
* `Value.denoted?_render`: a literal denotes the document of its value;
* `Value.denotes_itself_iff`: the values that are equal to what their literals denote.
-/

namespace Pushdown
namespace Value

open Json (Spells SpellsItems SpellsFields exactly)

mutual

/-- The entries of every map are in key order. -/
def InOrder : Value → Prop
  | list items => InOrderItems items
  | map entries => Entries.Ascending entries ∧ InOrderEntries entries
  | _ => True

/-- The entries of every map in some items are in key order. -/
def InOrderItems : List Value → Prop
  | [] => True
  | item :: items => InOrder item ∧ InOrderItems items

/-- The entries of every map in some entries are in key order. -/
def InOrderEntries : List (String × Value) → Prop
  | [] => True
  | (_, value) :: entries => InOrder value ∧ InOrderEntries entries

end

/-! ## Reading literals -/

mutual

/-- The literal of a value is a text of its document, with blanks behind commas and colons. -/
theorem spells_render : ∀ value : Value, Spells exactly value.toJson value.render.toList
  | null => .null
  | bool value => .bool value
  | string value => .string value
  | int32 value => Json.spells_int Json.rereads_exactly (fits32_toInt value).fits64.fitsDocument
  | int64 value => Json.spells_int Json.rereads_exactly (fits64_toInt value).fitsDocument
  | double value => by
      by_cases hfinite : value.isFinite = true
      · rw [toJson, Json.ofDouble, if_pos hfinite]
        exact Json.spells_double Json.rereads_exactly hfinite
      · have hrender : (double value).render = "null" := by
          rw [render, Json.doubleText, if_neg hfinite]
        rw [toJson, Json.ofDouble, if_neg hfinite, hrender]
        exact .null
  | list [] => .noItems Json.blanks_nil
  | list (item :: items) => by
      have hitems := Spells.items (spellsItems_render (List.cons_ne_nil item items) Json.blanks_nil)
      simpa [render, toJson] using hitems
  | map [] => .noFields Json.blanks_nil
  | map (entry :: entries) => by
      have hfields := Spells.fields
        (spellsFields_render (List.cons_ne_nil entry entries) Json.blanks_nil)
      simpa [render, toJson] using hfields

theorem spellsItems_render : ∀ {items : List Value}, items ≠ [] → ∀ {before : List Char},
    Json.Blanks before → SpellsItems exactly (toJsonItems items)
      (before ++ ((", ".intercalate (renderItems items)).toList ++ [']']))
  | [item], _, _, hbefore => by
      have hlast := SpellsItems.last hbefore (spells_render item) Json.blanks_nil
      simpa [renderItems, toJsonItems] using hlast
  | item :: next :: items, _, _, hbefore => by
      have hcons := SpellsItems.cons hbefore (spells_render item) Json.blanks_nil
        (spellsItems_render (List.cons_ne_nil next items) Json.blanks_space)
      simpa [renderItems, toJsonItems] using hcons

theorem spellsFields_render : ∀ {entries : List (String × Value)}, entries ≠ [] →
    ∀ {before : List Char}, Json.Blanks before → SpellsFields exactly (toJsonFields entries)
      (before ++ ((", ".intercalate (renderEntries entries)).toList ++ ['\x7d']))
  | [(key, value)], _, _, hbefore => by
      have hlast : SpellsFields exactly [(key, value.toJson)] _ :=
        .last hbefore Json.blanks_nil Json.blanks_space (spells_render value) Json.blanks_nil
      simpa [renderEntries, toJsonFields] using hlast
  | (key, value) :: next :: entries, _, _, hbefore => by
      have hcons : SpellsFields exactly ((key, value.toJson) :: toJsonFields (next :: entries)) _ :=
        .cons hbefore Json.blanks_nil Json.blanks_space (spells_render value) Json.blanks_nil
          (spellsFields_render (List.cons_ne_nil next entries) Json.blanks_space)
      simpa [renderEntries, toJsonFields] using hcons

end

/-- The literal of a value is read as its document. -/
theorem readAsWritten?_render (value : Value) :
    Json.readAsWritten? value.render = some value.toJson := by
  have hread := Json.readWith?_of_spells (spells_render value)
  rwa [String.ofList_toList] at hread

mutual

/-- The fields of a document of a value are in order as its entries are. -/
theorem ordered_toJson : ∀ {value : Value}, value.InOrder → value.toJson.ordered = value.toJson
  | null, _ | bool _, _ | string _, _ | int32 _, _ | int64 _, _ => rfl
  | double value, _ => by
      rw [toJson, Json.ofDouble]
      split <;> rfl
  | list items, h => by
      rw [toJson, Json.ordered, orderedItems_toJsonItems h]
  | map entries, h => by
      have hascending : Entries.Ascending (toJsonFields entries) := by
        rw [Entries.Ascending, keys_toJsonFields]
        exact h.1
      rw [toJson, Json.ordered, orderedFields_toJsonFields h.2, Entries.ofList_eq_self hascending]

theorem orderedItems_toJsonItems : ∀ {items : List Value}, InOrderItems items →
    Json.orderedItems (toJsonItems items) = toJsonItems items
  | [], _ => rfl
  | item :: items, h => by
      rw [toJsonItems, Json.orderedItems, ordered_toJson h.1, orderedItems_toJsonItems h.2]

theorem orderedFields_toJsonFields : ∀ {entries : List (String × Value)}, InOrderEntries entries →
    Json.orderedFields (toJsonFields entries) = toJsonFields entries
  | [], _ => rfl
  | (key, value) :: entries, h => by
      rw [toJsonFields, Json.orderedFields, ordered_toJson h.1, orderedFields_toJsonFields h.2]

end

/-- A literal denotes the document of its value. -/
theorem denoted?_render {value : Value} (h : value.InOrder) :
    Json.denoted? value.render = some value.toJson := by
  rw [Json.denoted?, readAsWritten?_render, Option.map_some, ordered_toJson h]

/-! ## What literals denote -/

mutual

/-- A double that is not finite becomes null, which equals no number. -/
theorem allFinite_of_equals : ∀ {value read : Value}, ofJson? value.toJson = .ok read →
    read.equals value = true → value.AllFinite
  | null, _, _, _ | bool _, _, _, _ | string _, _, _, _ | int32 _, _, _, _
  | int64 _, _, _, _ => trivial
  | double value, read, h, hequals => by
      by_cases hfinite : value.isFinite = true
      · exact hfinite
      · rw [toJson, Json.ofDouble, if_neg hfinite] at h
        cases h
        cases hequals
  | list items, read, h, hequals => by
      obtain ⟨values, hvalues, rfl⟩ := ofJson?_array h
      exact allFiniteItems_of_equalItems hvalues hequals
  | map entries, read, h, hequals => by
      obtain ⟨values, hvalues, rfl⟩ := ofJson?_object h
      exact allFiniteEntries_of_equalEntries hvalues hequals

theorem allFiniteItems_of_equalItems : ∀ {items read : List Value},
    ofJsonItems? (toJsonItems items) = .ok read → equalItems read items = true →
    AllFiniteItems items
  | [], _, _, _ => trivial
  | item :: items, _, h, hequals => by
      obtain ⟨first, rest, hfirst, hrest, rfl⟩ := ofJsonItems?_cons h
      rw [equalItems, Bool.and_eq_true] at hequals
      exact ⟨allFinite_of_equals hfirst hequals.1, allFiniteItems_of_equalItems hrest hequals.2⟩

theorem allFiniteEntries_of_equalEntries : ∀ {entries read : List (String × Value)},
    ofJsonFields? (toJsonFields entries) = .ok read → equalEntries read entries = true →
    AllFiniteEntries entries
  | [], _, _, _ => trivial
  | (key, value) :: entries, _, h, hequals => by
      obtain ⟨first, rest, hfirst, hrest, rfl⟩ := ofJsonFields?_cons h
      rw [equalEntries, Bool.and_eq_true, Bool.and_eq_true] at hequals
      exact ⟨allFinite_of_equals hfirst hequals.1.2,
        allFiniteEntries_of_equalEntries hrest hequals.2⟩

end

/-- A value is equal to what its literal denotes if and only if it holds no other doubles than
finite ones. -/
theorem denotes_itself_iff {value : Value} (h : value.InOrder) :
    (∃ json read, Json.denoted? value.render = some json ∧ ofJson? json = .ok read ∧
      read.equals value = true) ↔ value.AllFinite := by
  rw [denoted?_render h]
  constructor
  · rintro ⟨json, read, hjson, hread, hequals⟩
    cases hjson
    exact allFinite_of_equals hread hequals
  · intro hfinite
    exact ⟨_, _, rfl, ofJson?_toJson hfinite, narrowed_equals hfinite⟩

theorem denotes_itself_nested :
    let value := list [map [("at", double (Binary.ofRatio true 1 10))], int64 7, string "b"]
    value.InOrder ∧ value.support = .full ∧
      ∃ json read, Json.denoted? value.render = some json ∧ ofJson? json = .ok read ∧
        read.equals value = true := by
  have hfinite : (Binary.ofRatio true 1 10 : Double).isFinite = true := by decide +kernel
  have horder : (list [map [("at", double (Binary.ofRatio true 1 10))], int64 7,
      string "b"]).InOrder :=
    ⟨⟨List.pairwise_singleton _ _, trivial, trivial⟩, trivial, trivial, trivial⟩
  refine ⟨horder, rfl, (denotes_itself_iff horder).mpr ?_⟩
  exact ⟨⟨hfinite, trivial⟩, trivial, trivial, trivial⟩

/-- An infinite double is exact, and its literal denotes null. -/
theorem not_denotes_itself_of_infinity :
    (double (Binary.infinity false)).support = .full ∧
      (Binary.infinity false : Double).isNaN = false ∧
      (double (Binary.infinity false)).render = "null" ∧
      ¬∃ json read, Json.denoted? (double (Binary.infinity false)).render = some json ∧
        ofJson? json = .ok read ∧ read.equals (double (Binary.infinity false)) = true := by
  have hrender : (double (Binary.infinity false)).render = "null" := by decide +kernel
  refine ⟨rfl, by decide +kernel, hrender, ?_⟩
  rintro ⟨json, read, hjson, hread, hequals⟩
  have hnull : Json.denoted? "null" = some .null := rfl
  rw [hrender, hnull] at hjson
  cases hjson
  cases hread
  cases hequals

end Value
end Pushdown
