import Pushdown.Proofs.Entries.Order

/-!
# Sets of names

The members of a set are the keys of entries that hold nothing. So adding names is storing entries,
adding what is there already changes nothing, and names in ascending order are the members of their
set.

## Results

* `Names.insert_eq_self`, `Names.union_eq_self`: names that are there already;
* `Names.members_ofList`, `Names.ofList_members`: a set is the set of its members.
-/

namespace Pushdown
namespace Names

variable {name : String} {set : Names} {names : List String}

theorem marked_union : ∀ (names : List String) (set : Names),
    marked (union set names).members = Entries.insertAll (marked names) (marked set.members)
  | [], _ => rfl
  | name :: names, set => by
      have ih := marked_union names (insert name set)
      rw [insert, marked_insertMember] at ih
      exact ih

/-- Names in ascending order are the members of their set. -/
theorem members_ofList (h : names.Pairwise (· < ·)) : (ofList names).members = names := by
  have hmarked : marked (ofList names).members = marked names := by
    rw [ofList, marked_union]
    exact Entries.ofList_eq_self (by rwa [Entries.Ascending, keys_marked])
  rw [← keys_marked (ofList names).members, hmarked, keys_marked]

/-- A set is the set of its members. -/
theorem ofList_members (set : Names) : ofList set.members = set :=
  Names.ext (members_ofList set.ascending)

/-- The members that are kept. -/
def filter (keep : String → Bool) (set : Names) : Names :=
  ⟨set.members.filter keep, set.ascending.filter keep⟩

theorem ofList_filter (keep : String → Bool) (set : Names) :
    ofList (set.members.filter keep) = set.filter keep :=
  (set.filter keep).ofList_members

theorem filter_true (set : Names) : set.filter (fun _ => true) = set :=
  Names.ext (List.filter_eq_self.mpr fun _ _ => rfl)

theorem filter_filter (first second : String → Bool) (set : Names) :
    (set.filter first).filter second = set.filter fun name => first name && second name := by
  refine Names.ext ?_
  simp only [filter, List.filter_filter, Bool.and_comm]

theorem insertMember_eq_self : ∀ {names : List String}, names.Pairwise (· < ·) → name ∈ names →
    insertMember name names = names
  | n :: rest, h, hmem => by
      obtain ⟨hfirst, hrest⟩ := List.pairwise_cons.mp h
      rw [insertMember]
      rcases List.mem_cons.mp hmem with rfl | hmem
      · rw [if_neg (String.lt_irrefl _), if_pos rfl]
      · have hlt := hfirst name hmem
        have hne : n ≠ name := by
          rintro rfl
          exact String.lt_irrefl _ hlt
        rw [if_neg (String.lt_asymm hlt), if_neg hne, insertMember_eq_self hrest hmem]

/-- Adding a member changes nothing. -/
theorem insert_eq_self (h : name ∈ set) : insert name set = set :=
  Names.ext (insertMember_eq_self set.ascending h)

/-- Adding members changes nothing. -/
theorem union_eq_self : ∀ {names : List String}, (∀ name ∈ names, name ∈ set) →
    union set names = set
  | [], _ => rfl
  | name :: names, hmem => by
      have hinsert := insert_eq_self (hmem name List.mem_cons_self)
      have ih : union (insert name set) names = union set names := by rw [hinsert]
      exact ih.trans (union_eq_self fun n hn => hmem n (List.mem_cons_of_mem name hn))

end Names
end Pushdown
