/-!
# Key-ordered entries

A finite map from text to values is kept as the list of its entries in ascending
key order. Values and documents hold such maps of themselves, so the order is not part
of their type; every operation here keeps it. A finite set of names is the ascending
list of its members. Keys compare by code point, which is also the order of their UTF-8
bytes.

## Operations

* `Entries.find?`, `Entries.insert`, `Entries.erase`, `Entries.ofList`;
* `Names`: sets of names, with `Names.insert`, `Names.union` and `Names.ofList`.

## Results

* `Entries.find?_insert_self`, `Entries.find?_insert_of_ne`: what is found after an
  insertion;
* `Entries.ascending_ofList`, `Entries.ascending_insert`, `Entries.ascending_erase`: keys
  ascend whatever is done;
* `Names.mem_insert`, `Names.mem_union`, `Names.mem_ofList`: the members of a set.
-/

namespace Pushdown

universe u

/-- A finite map from text to values: entries in ascending key order. -/
abbrev Entries (α : Type u) := List (String × α)

namespace Entries

variable {α : Type u}

/-- The value stored under a key. -/
def find? (key : String) : Entries α → Option α
  | [] => none
  | (k, v) :: rest => if k = key then some v else find? key rest

/-- Whether a key is present. -/
def contains (key : String) (entries : Entries α) : Bool :=
  (find? key entries).isSome

/-- Store a value under a key, replacing the one that was there. -/
def insert (key : String) (value : α) : Entries α → Entries α
  | [] => [(key, value)]
  | (k, v) :: rest =>
      if key < k then (key, value) :: (k, v) :: rest
      else if k = key then (key, value) :: rest
      else (k, v) :: insert key value rest

/-- Drop the entry of a key. -/
def erase (key : String) : Entries α → Entries α
  | [] => []
  | (k, v) :: rest => if k = key then rest else (k, v) :: erase key rest

/-- Entries of a list of pairs; of two pairs with one key the later wins. -/
def ofList (pairs : List (String × α)) : Entries α :=
  pairs.foldl (fun entries pair => insert pair.1 pair.2 entries) []

/-- The keys, ascending. -/
def keys (entries : Entries α) : List String :=
  entries.map Prod.fst

/-- The values, in key order. -/
def values (entries : Entries α) : List α :=
  entries.map Prod.snd

/-- Keys ascend strictly: the form every operation here keeps. -/
def Ascending (entries : Entries α) : Prop :=
  (keys entries).Pairwise (· < ·)

theorem find?_insert_self (key : String) (value : α) (entries : Entries α) :
    find? key (insert key value entries) = some value := by
  induction entries with
  | nil => simp [insert, find?]
  | cons entry rest ih =>
    obtain ⟨k, v⟩ := entry
    unfold insert
    split
    · simp [find?]
    · split
      · simp [find?]
      · next h => simp [find?, h, ih]

theorem find?_insert_of_ne {key other : String} (value : α) (entries : Entries α)
    (h : other ≠ key) : find? other (insert key value entries) = find? other entries := by
  induction entries with
  | nil => simp [insert, find?, h.symm]
  | cons entry rest ih =>
    obtain ⟨k, v⟩ := entry
    unfold insert
    split
    · simp [find?, h.symm]
    · split
      · next hk => simp [find?, hk, h.symm]
      · simp [find?, ih]

theorem mem_keys_insert {x key : String} {value : α} {entries : Entries α} :
    x ∈ keys (insert key value entries) ↔ x = key ∨ x ∈ keys entries := by
  induction entries with
  | nil => simp [insert, keys]
  | cons entry rest ih =>
    obtain ⟨k, v⟩ := entry
    unfold insert
    split
    · simp [keys]
    · split
      · next hk => simp [keys, hk]
      · simp only [keys, List.map_cons, List.mem_cons] at ih ⊢
        rw [ih, or_left_comm]

/-- An entry of an insertion was inserted, or was there before. -/
theorem eq_or_mem_of_mem_insert {key : String} {value : α} {entry : String × α}
    {entries : Entries α} (h : entry ∈ insert key value entries) :
    entry = (key, value) ∨ entry ∈ entries := by
  induction entries with
  | nil => exact .inl (List.mem_singleton.1 h)
  | cons first rest ih =>
    obtain ⟨k, v⟩ := first
    unfold insert at h
    split at h
    · exact List.mem_cons.1 h
    · split at h
      · exact (List.mem_cons.1 h).imp_right (List.mem_cons_of_mem _)
      · rcases List.mem_cons.1 h with rfl | h
        · exact .inr List.mem_cons_self
        · exact (ih h).imp_right (List.mem_cons_of_mem _)

/-- Storing a value keeps the order of the keys. -/
theorem ascending_insert {key : String} {value : α} {entries : Entries α}
    (h : Ascending entries) : Ascending (insert key value entries) := by
  induction entries with
  | nil => simp [Ascending, insert, keys]
  | cons entry rest ih =>
    obtain ⟨k, v⟩ := entry
    have hk : ∀ x ∈ keys rest, k < x := (List.pairwise_cons.1 h).1
    have hrest : Ascending rest := (List.pairwise_cons.1 h).2
    unfold insert
    split
    · next hlt =>
      refine List.pairwise_cons.2 ⟨fun x hx => ?_, h⟩
      rcases List.mem_cons.1 hx with rfl | hx
      · exact hlt
      · exact String.lt_trans hlt (hk x hx)
    · next hge =>
      split
      · next he => subst he; exact h
      · next hne =>
        refine List.pairwise_cons.2 ⟨fun x hx => ?_, ih hrest⟩
        rcases mem_keys_insert.1 hx with rfl | hx
        · apply Classical.byContradiction
          intro hn
          exact hne (String.le_antisymm (String.not_lt.1 hge) (String.not_lt.1 hn))
        · exact hk x hx

/-- Dropping an entry keeps the order of the keys. -/
theorem ascending_erase {key : String} {entries : Entries α} (h : Ascending entries) :
    Ascending (erase key entries) := by
  have sub : (erase key entries).Sublist entries := by
    induction entries with
    | nil => exact List.Sublist.refl _
    | cons entry rest ih =>
      obtain ⟨k, v⟩ := entry
      unfold erase
      split
      · exact List.sublist_cons_self _ _
      · exact (ih (List.pairwise_cons.1 h).2).cons_cons _
  exact h.sublist (sub.map Prod.fst)

/-- The entries of any list of pairs are in key order. -/
theorem ascending_ofList (pairs : List (String × α)) : Ascending (ofList pairs) := by
  have go : ∀ (entries : Entries α), Ascending entries →
      Ascending (pairs.foldl (fun entries pair => insert pair.1 pair.2 entries) entries) := by
    induction pairs with
    | nil => exact fun _ h => h
    | cons pair rest ih => exact fun entries h => ih _ (ascending_insert h)
  exact go [] List.Pairwise.nil

end Entries

/-- A finite set of names: its members in ascending order. -/
@[ext]
structure Names where
  members : List String
  ascending : members.Pairwise (· < ·)
deriving DecidableEq

namespace Names

instance : Coe Names (List String) := ⟨members⟩

instance : Membership String Names := ⟨fun set name => name ∈ set.members⟩

instance (name : String) (set : Names) : Decidable (name ∈ set) :=
  inferInstanceAs (Decidable (name ∈ set.members))

/-- The set without members. -/
def empty : Names := ⟨[], List.Pairwise.nil⟩

/-- The set of one name. -/
def single (name : String) : Names := ⟨[name], List.pairwise_singleton _ _⟩

/-- Whether a name is a member. -/
def contains (name : String) (set : Names) : Bool := set.members.contains name

/-- Whether there are no members. -/
def isEmpty (set : Names) : Bool := set.members.isEmpty

@[simp] theorem mem_members {name : String} {set : Names} : name ∈ set.members ↔ name ∈ set :=
  Iff.rfl

@[simp] theorem members_empty : empty.members = [] := rfl

@[simp] theorem members_single (name : String) : (single name).members = [name] := rfl

@[simp] theorem not_mem_empty (name : String) : name ∉ empty := List.not_mem_nil

@[simp] theorem mem_single {name other : String} : name ∈ single other ↔ name = other :=
  List.mem_singleton

@[simp] theorem single_ne_empty (name : String) : single name ≠ empty := fun h =>
  List.cons_ne_nil name [] (congrArg members h)

@[simp] theorem members_eq_nil_iff {set : Names} : set.members = [] ↔ set = empty :=
  (Names.ext_iff (x := set) (y := empty)).symm

theorem members_ne_nil {set : Names} (h : set ≠ empty) : set.members ≠ [] :=
  fun hnil => h (members_eq_nil_iff.mp hnil)

@[simp] theorem contains_iff {name : String} {set : Names} :
    set.contains name = true ↔ name ∈ set :=
  List.contains_iff_mem

theorem eq_empty_iff {set : Names} : set = empty ↔ ∀ name, name ∉ set := by
  rw [← members_eq_nil_iff, List.eq_nil_iff_forall_not_mem]
  exact Iff.rfl

theorem ne_empty_of_mem {name : String} {set : Names} (h : name ∈ set) : set ≠ empty :=
  fun hempty => eq_empty_iff.mp hempty name h

@[simp] theorem isEmpty_iff {set : Names} : set.isEmpty = true ↔ set = empty := by
  rw [isEmpty, List.isEmpty_iff, members_eq_nil_iff]

/-- No member is listed twice. -/
theorem nodup (set : Names) : set.members.Nodup := by
  refine set.ascending.imp ?_
  rintro a b hlt rfl
  exact String.lt_irrefl _ hlt

/-- Put one name among names in ascending order. -/
def insertMember (name : String) : List String → List String
  | [] => [name]
  | n :: rest =>
      if name < n then name :: n :: rest
      else if n = name then n :: rest
      else n :: insertMember name rest

/-- Entries that hold nothing under some names. -/
def marked (names : List String) : Entries Unit := names.map fun name => (name, ())

theorem keys_marked : ∀ names : List String, Entries.keys (marked names) = names
  | [] => rfl
  | n :: rest => congrArg (n :: ·) (keys_marked rest)

/-- Putting a name among others is storing nothing under it. -/
theorem marked_insertMember (name : String) : ∀ names : List String,
    marked (insertMember name names) = Entries.insert name () (marked names)
  | [] => rfl
  | n :: rest => by
      have ih := marked_insertMember name rest
      have hcons : marked (n :: rest) = (n, ()) :: marked rest := rfl
      rw [insertMember, hcons, Entries.insert, ← ih]
      split
      · rfl
      · split
        · next hn =>
          rw [hn]
          rfl
        · rfl

theorem ascending_insertMember {names : List String} (name : String)
    (h : names.Pairwise (· < ·)) : (insertMember name names).Pairwise (· < ·) := by
  have hmarked : Entries.Ascending (marked names) := by
    rw [Entries.Ascending, keys_marked]
    exact h
  have hinsert : Entries.Ascending (Entries.insert name () (marked names)) :=
    Entries.ascending_insert hmarked
  rw [← marked_insertMember, Entries.Ascending, keys_marked] at hinsert
  exact hinsert

/-- Add one name. -/
def insert (name : String) (set : Names) : Names :=
  ⟨insertMember name set.members, ascending_insertMember name set.ascending⟩

/-- Add every name of a list to a set. -/
def union (set : Names) (names : List String) : Names :=
  names.foldl (fun set name => insert name set) set

/-- The set of the names of a list. -/
def ofList (names : List String) : Names := union empty names

theorem mem_insert {x name : String} {set : Names} :
    x ∈ insert name set ↔ x = name ∨ x ∈ set := by
  have hmem : x ∈ Entries.keys (marked (insertMember name set.members)) ↔
      x = name ∨ x ∈ Entries.keys (marked set.members) := by
    rw [marked_insertMember]
    exact Entries.mem_keys_insert
  rw [keys_marked, keys_marked] at hmem
  exact hmem

theorem mem_union {x : String} : ∀ {names : List String} {set : Names},
    x ∈ union set names ↔ x ∈ names ∨ x ∈ set
  | [], _ => by simp [union]
  | name :: names, set => by
      have ih : x ∈ union (insert name set) names ↔ x ∈ names ∨ x ∈ insert name set := mem_union
      rw [mem_insert] at ih
      rw [List.mem_cons, or_comm (a := x = name), or_assoc]
      exact ih

theorem mem_ofList {x : String} {names : List String} : x ∈ ofList names ↔ x ∈ names := by
  rw [ofList, mem_union]
  exact or_iff_left List.not_mem_nil

end Names

end Pushdown
