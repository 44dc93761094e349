/-!
# Exactness of pushed fragments

How faithfully a fragment of query text reproduces a predicate: not at all, as a
superset that has to be re-checked, or exactly. The classes are ordered, and joining
two of them keeps the worse.

## Results

* `Support.join_assoc`: the order of joining several does not matter.
-/

namespace Pushdown

/-- Exactness of a fragment, worst first. -/
inductive Support where
  /-- There is no safe fragment. -/
  | none
  /-- The fragment keeps every match and perhaps more. -/
  | part
  /-- The fragment keeps the matches and nothing else. -/
  | full
deriving DecidableEq

namespace Support

/-- Position from worst to best. -/
def rank : Support → Nat
  | none => 0
  | part => 1
  | full => 2

instance : LE Support := ⟨fun a b => a.rank ≤ b.rank⟩

instance (a b : Support) : Decidable (a ≤ b) := inferInstanceAs (Decidable (a.rank ≤ b.rank))

/-- The worse of two classes. -/
def join (a b : Support) : Support := if a ≤ b then a else b

/-- The worst of a list of classes; exact when there is none. -/
def joinAll (supports : List Support) : Support := supports.foldl join full

/-- Whether a fragment of this class may be rendered. -/
def isPushable (support : Support) : Bool := support != none

/-- Whether the fragment is exact. -/
def isFull (support : Support) : Bool := support == full

/-- The name of a class. -/
def name : Support → String
  | none => "NONE"
  | part => "PARTIAL"
  | full => "FULL"

/-- The class of a name. -/
def ofName? (text : String) : Option Support :=
  [none, part, full].find? fun support => support.name = text

theorem join_assoc (a b c : Support) : join (join a b) c = join a (join b c) := by
  cases a <;> cases b <;> cases c <;> decide

end Support
end Pushdown
