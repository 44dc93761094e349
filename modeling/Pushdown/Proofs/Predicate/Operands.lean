import Pushdown.Predicate.Basic

/-!
# The operands of a predicate

A predicate with other operands has the same operators and connectives.

## Results

* `Predicate.operands_mapOperands`: the operands of a predicate with other ones;
* `Predicate.mapOperands_eq_self`: a predicate whose operands stay the same.
-/

namespace Pushdown
namespace Predicate

mutual

/-- The operands of a predicate, in their order. -/
def operands : Predicate → List Value
  | compare _ operand => [operand]
  | all members => operandsMembers members
  | any members => operandsMembers members

/-- The operands of some members. -/
def operandsMembers : List Predicate → List Value
  | [] => []
  | p :: ps => operands p ++ operandsMembers ps

end

mutual

/-- A predicate with other operands. -/
def mapOperands (f : Value → Value) : Predicate → Predicate
  | compare op operand => compare op (f operand)
  | all members => all (mapOperandsMembers f members)
  | any members => any (mapOperandsMembers f members)

/-- Members with other operands. -/
def mapOperandsMembers (f : Value → Value) : List Predicate → List Predicate
  | [] => []
  | p :: ps => mapOperands f p :: mapOperandsMembers f ps

end

variable {f : Value → Value}

mutual

theorem operands_mapOperands : ∀ p : Predicate, (p.mapOperands f).operands = p.operands.map f
  | compare _ _ => rfl
  | all members | any members => operandsMembers_mapOperandsMembers members

theorem operandsMembers_mapOperandsMembers : ∀ ps : List Predicate,
    operandsMembers (mapOperandsMembers f ps) = (operandsMembers ps).map f
  | [] => rfl
  | p :: ps => by
      rw [mapOperandsMembers, operandsMembers, operandsMembers, List.map_append,
        operands_mapOperands p, operandsMembers_mapOperandsMembers ps]

end

mutual

/-- A predicate stays the same if each of its operands does. -/
theorem mapOperands_eq_self : ∀ {p : Predicate}, (∀ value ∈ p.operands, f value = value) →
    p.mapOperands f = p
  | compare op operand, h => congrArg (compare op) (h operand List.mem_cons_self)
  | all _, h => congrArg all (mapOperandsMembers_eq_self h)
  | any _, h => congrArg any (mapOperandsMembers_eq_self h)

theorem mapOperandsMembers_eq_self : ∀ {ps : List Predicate},
    (∀ value ∈ operandsMembers ps, f value = value) → mapOperandsMembers f ps = ps
  | [], _ => rfl
  | _ :: _, h => by
      rw [operandsMembers, List.forall_mem_append] at h
      rw [mapOperandsMembers, mapOperands_eq_self h.1, mapOperandsMembers_eq_self h.2]

end

end Predicate
end Pushdown
