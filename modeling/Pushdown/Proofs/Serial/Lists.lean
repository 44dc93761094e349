import Pushdown.Serial.Fields

/-!
# Lists in documents

A list is read member by member, so it is read back if all of its members are.

## Results

* `Serial.readAll_map`, `Serial.readAll_map_eq_some_iff`: what is read from written members;
* `Serial.textList?_strings`: texts are read back.
-/

namespace Pushdown
namespace Serial

/-- Reading a list is reading its members. -/
theorem readAll_map {α β γ : Type} {read : β → Option γ} {write : α → β} {result : α → γ} :
    ∀ {items : List α}, (∀ a ∈ items, read (write a) = some (result a)) →
      readAll read (items.map write) = some (items.map result)
  | [], _ => rfl
  | a :: items, h => by
      rw [List.map_cons, readAll, h a List.mem_cons_self,
        readAll_map fun b hb => h b (List.mem_cons_of_mem a hb)]
      rfl

/-- Texts are read back. -/
theorem textList?_strings (texts : List String) : textList? (Json.strings texts) = some texts := by
  have hread : readAll Json.asString? (texts.map Json.string) = some (texts.map id) :=
    readAll_map fun _ _ => rfl
  rw [List.map_id] at hread
  exact hread

/-- A written list is read back exactly if each of its members is. -/
theorem readAll_map_eq_some_iff {α β : Type} {read : β → Option α} {write : α → β} :
    ∀ {items : List α}, readAll read (items.map write) = some items ↔
      ∀ a ∈ items, read (write a) = some a
  | [] => by simp [readAll]
  | a :: items => by
      rw [List.map_cons, readAll, List.forall_mem_cons, ← readAll_map_eq_some_iff]
      cases read (write a) with
      | none => simp
      | some b =>
          cases readAll read (items.map write) with
          | none => simp
          | some bs => simp

end Serial
end Pushdown
