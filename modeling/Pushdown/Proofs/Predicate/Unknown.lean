import Pushdown.Proofs.Predicate.StoredIds

/-!
# Operators without a meaning

A predicate may name an operator that has no meaning, anywhere in its tree. Mapping it to a
filter reads every comparison and so meets the name. Rewriting an id predicate to stored ids
reads the comparisons from left to right, and stops at the first that has no stored form: text
operators have none, and neither have names without a meaning.

## Results

* `Predicate.mem_comparisons_iff`: the comparisons of a predicate, from left to right;
* `Predicate.filter_of_usesUnknown`: such a predicate has no filter;
* `Predicate.onStoredIds_eq_none_iff`: when rewriting an id predicate stops;
* `Predicate.onStoredIds_of_usesUnknown`: such an id predicate is not rewritten.
-/

namespace Pushdown
namespace Predicate

/-- Some comparison of the predicate is by a name that has no meaning. -/
def UsesUnknown (p : Predicate) : Prop :=
  ∃ op operand, Compares op operand p ∧ Operator.ofName? op = none

mutual

/-- The comparisons of a predicate, from left to right. -/
def comparisons : Predicate → List (String × Value)
  | compare op operand => [(op, operand)]
  | all members => memberComparisons members
  | any members => memberComparisons members

/-- The comparisons of several predicates. -/
def memberComparisons : List Predicate → List (String × Value)
  | [] => []
  | p :: ps => comparisons p ++ memberComparisons ps

end

theorem mem_memberComparisons_iff {c : String × Value} {ps : List Predicate} :
    c ∈ memberComparisons ps ↔ ∃ p ∈ ps, c ∈ p.comparisons := by
  induction ps with
  | nil => simp [memberComparisons]
  | cons p ps ih =>
      rw [memberComparisons, List.mem_append, ih]
      simp

theorem mem_comparisons_iff {op : String} {operand : Value} {p : Predicate} :
    (op, operand) ∈ p.comparisons ↔ Compares op operand p := by
  induction p using memberInduction with
  | compare name value =>
      rw [comparisons, List.mem_singleton]
      constructor
      · intro h
        cases h
        exact .leaf
      · intro h
        cases h
        rfl
  | all members ih =>
      rw [comparisons, mem_memberComparisons_iff]
      constructor
      · rintro ⟨p, hp, h⟩
        exact .all hp ((ih p hp).mp h)
      · rintro (_ | ⟨hp, h⟩)
        exact ⟨_, hp, (ih _ hp).mpr h⟩
  | any members ih =>
      rw [comparisons, mem_memberComparisons_iff]
      constructor
      · rintro ⟨p, hp, h⟩
        exact .any hp ((ih p hp).mp h)
      · rintro (_ | _ | ⟨hp, h⟩)
        exact ⟨_, hp, (ih _ hp).mpr h⟩

/-- Every comparison of a predicate with a filter has a meaning. -/
theorem known_of_filter {op : String} {operand : Value} {p : Predicate} {field : String}
    {f : Filter} (h : p.filter field = .ok f) (hc : Compares op operand p) :
    ∃ known, Operator.ofName? op = some known := by
  induction hc generalizing f with
  | leaf =>
      rw [filter] at h
      obtain ⟨known, hop, -⟩ := filterCompare_eq_ok h
      exact ⟨known, hop⟩
  | all hp _ ih =>
      obtain ⟨fs, hfs, -⟩ := filter_all_eq_ok h
      obtain ⟨g, -, hg⟩ := filter_of_mem hfs hp
      exact ih hg
  | any hp _ ih =>
      obtain ⟨fs, hfs, -⟩ := filter_any_eq_ok h
      obtain ⟨g, -, hg⟩ := filter_of_mem hfs hp
      exact ih hg

/-- A predicate that names an operator without a meaning has no filter. -/
theorem filter_of_usesUnknown {p : Predicate} (h : p.UsesUnknown) (field : String) :
    ∃ e, p.filter field = .error e := by
  obtain ⟨op, operand, hc, hop⟩ := h
  cases hf : p.filter field with
  | error e => exact ⟨e, rfl⟩
  | ok f =>
      obtain ⟨known, hknown⟩ := known_of_filter hf hc
      rw [hop] at hknown
      cases hknown

variable (config : GraphConfig) (kind : ElementKind)

/-- Read the operands of comparisons as stored ids. The answer says whether all of them have
such a form; the first that has none ends this. -/
def readStored : List (String × Value) → Result Bool
  | [] => .ok true
  | (op, operand) :: rest =>
      match storedOperand config kind op operand with
      | .error e => .error e
      | .ok none => .ok false
      | .ok (some _) => readStored rest

variable {config kind}

theorem readStored_append (cs ds : List (String × Value)) :
    readStored config kind (cs ++ ds) =
      match readStored config kind cs with
      | .ok true => readStored config kind ds
      | r => r := by
  induction cs with
  | nil => rfl
  | cons c cs ih =>
      obtain ⟨op, operand⟩ := c
      rw [List.cons_append, readStored, readStored]
      cases storedOperand config kind op operand with
      | error e => rfl
      | ok stored =>
          cases stored with
          | none => rfl
          | some value => exact ih

mutual

/-- Rewriting an id predicate reads its comparisons. -/
theorem isSome_onStoredIds : ∀ p : Predicate,
    (onStoredIds config kind p).map Option.isSome = readStored config kind p.comparisons
  | compare op operand => by
      rw [onStoredIds, comparisons, readStored, readStored]
      cases storedOperand config kind op operand with
      | error e => rfl
      | ok stored => cases stored <;> rfl
  | all members => by
      rw [onStoredIds, comparisons, ← isSome_onStoredIdsMembers members]
      cases onStoredIdsMembers config kind members with
      | error e => rfl
      | ok stored => cases stored <;> rfl
  | any members => by
      rw [onStoredIds, comparisons, ← isSome_onStoredIdsMembers members]
      cases onStoredIdsMembers config kind members with
      | error e => rfl
      | ok stored => cases stored <;> rfl

theorem isSome_onStoredIdsMembers : ∀ ps : List Predicate,
    (onStoredIdsMembers config kind ps).map Option.isSome =
      readStored config kind (memberComparisons ps)
  | [] => rfl
  | p :: ps => by
      rw [onStoredIdsMembers, memberComparisons, readStored_append, ← isSome_onStoredIds p,
        ← isSome_onStoredIdsMembers ps]
      cases onStoredIds config kind p with
      | error e => rfl
      | ok stored =>
          cases stored with
          | none => rfl
          | some q =>
              cases onStoredIdsMembers config kind ps with
              | error e => rfl
              | ok rest => cases rest <;> rfl

end

/-- Reading gets to the end when every comparison has a stored form. -/
theorem stored_of_readStored {cs : List (String × Value)}
    (h : readStored config kind cs = .ok true) {op : String} {operand : Value}
    (hc : (op, operand) ∈ cs) :
    ∃ stored, storedOperand config kind op operand = .ok (some stored) := by
  induction cs with
  | nil => cases hc
  | cons first cs ih =>
      rw [readStored] at h
      split at h
      · cases h
      · cases h
      · next stored hstored =>
        rcases List.mem_cons.mp hc with rfl | hc
        · exact ⟨stored, hstored⟩
        · exact ih h hc

/-- Reading ends at the first comparison without a stored form, if it gets there. -/
theorem readStored_eq_false_iff {cs : List (String × Value)} :
    readStored config kind cs = .ok false ↔
      ∃ before op operand after, cs = before ++ (op, operand) :: after ∧
        (∀ c ∈ before, ∃ stored, storedOperand config kind c.1 c.2 = .ok (some stored)) ∧
        storedOperand config kind op operand = .ok none := by
  induction cs with
  | nil => simp [readStored]
  | cons c cs ih =>
      obtain ⟨op, operand⟩ := c
      rw [readStored]
      constructor
      · intro h
        split at h
        · cases h
        · next hnone => exact ⟨[], op, operand, cs, rfl, by simp, hnone⟩
        · next stored hstored =>
          obtain ⟨before, op', operand', after, rfl, hbefore, hnone⟩ := ih.mp h
          refine ⟨(op, operand) :: before, op', operand', after, rfl, ?_, hnone⟩
          rw [List.forall_mem_cons]
          exact ⟨⟨stored, hstored⟩, hbefore⟩
      · rintro ⟨before, op', operand', after, heq, hbefore, hnone⟩
        cases before with
        | nil =>
            cases heq
            rw [hnone]
        | cons first before =>
            rw [List.cons_append, List.cons.injEq] at heq
            obtain ⟨rfl, rfl⟩ := heq
            rw [List.forall_mem_cons] at hbefore
            obtain ⟨⟨stored, hstored⟩, hbefore⟩ := hbefore
            rw [hstored]
            exact ih.mpr ⟨before, op', operand', after, rfl, hbefore, hnone⟩

/-- Rewriting an id predicate gives up at a comparison without a stored form: the operands of
those before it are ids. -/
def GivesUp (config : GraphConfig) (kind : ElementKind) (p : Predicate) : Prop :=
  ∃ before op operand after, p.comparisons = before ++ (op, operand) :: after ∧
    (∀ c ∈ before, ∃ stored, storedOperand config kind c.1 c.2 = .ok (some stored)) ∧
    storedOperand config kind op operand = .ok none

theorem onStoredIds_eq_none_iff {p : Predicate} :
    onStoredIds config kind p = .ok none ↔ p.GivesUp config kind := by
  rw [GivesUp, ← readStored_eq_false_iff, ← isSome_onStoredIds]
  cases onStoredIds config kind p with
  | error e => simp [Except.map]
  | ok stored => cases stored <;> simp [Except.map]

/-- An operator without a meaning has no stored form. -/
theorem storedOperand_of_unknown {op : String} (h : Operator.ofName? op = none)
    (operand : Value) : storedOperand config kind op operand = .ok none := by
  unfold storedOperand
  rw [h]

/-- An id predicate that names an operator without a meaning is not rewritten. -/
theorem onStoredIds_of_usesUnknown {p : Predicate} (h : p.UsesUnknown) (q : Predicate) :
    onStoredIds config kind p ≠ .ok (some q) := by
  intro hq
  obtain ⟨op, operand, hc, hop⟩ := h
  have hread : readStored config kind p.comparisons = .ok true := by
    rw [← isSome_onStoredIds, hq]
    rfl
  obtain ⟨stored, hstored⟩ := stored_of_readStored hread (mem_comparisons_iff.mpr hc)
  rw [storedOperand_of_unknown hop] at hstored
  cases hstored

end Predicate
end Pushdown
