import Pushdown.Entries

/-!
# Entries in key order

Storing pairs one after the other keeps apart what is stored under different keys. Entries in
key order are what storing them one by one gives, and leaving some keys out does not disturb
the others.

## Results

* `Entries.find?_eq_some_iff`, `Entries.mem_values_iff`: entries, found and listed;
* `Entries.find?_erase_self`, `Entries.find?_erase_of_ne`: what is found after an entry is dropped;
* `Entries.find?_insertAll_of_not_mem`: a key that is not stored;
* `Entries.find?_kept`, `Entries.kept_insertAll`: entries that are kept, and pairs among them;
* `Entries.ofList_eq_self`: entries in key order;
* `Entries.kept_ofList_append`: entries whose keys are left out are as if not stored.
-/

namespace Pushdown
namespace Entries

universe u

variable {α : Type u}

/-- A key that is found is one of the keys. -/
theorem mem_keys_of_find? {key : String} {value : α} :
    ∀ {entries : Entries α}, find? key entries = some value → key ∈ keys entries
  | (k, v) :: rest, h => by
      rw [find?] at h
      split at h
      · next hk =>
        rw [← hk]
        exact List.mem_cons_self
      · exact List.mem_cons_of_mem k (mem_keys_of_find? h)

theorem find?_eq_none {key : String} {entries : Entries α} (h : key ∉ keys entries) :
    find? key entries = none := by
  cases hfound : find? key entries with
  | none => rfl
  | some value => exact absurd (mem_keys_of_find? hfound) h

theorem contains_of_mem_keys {key : String} :
    ∀ {entries : Entries α}, key ∈ keys entries → contains key entries = true
  | (k, v) :: rest, h => by
      rw [contains, find?]
      split
      · rfl
      · next hk =>
        exact contains_of_mem_keys ((List.mem_cons.mp h).resolve_left fun heq => hk heq.symm)

/-- Behind the first of some entries in key order, its key is not found again. -/
theorem Ascending.find?_tail {key : String} {value : α} {rest : Entries α}
    (h : Ascending ((key, value) :: rest)) : find? key rest = none :=
  find?_eq_none fun hmem => String.lt_irrefl key ((List.pairwise_cons.mp h).1 key hmem)

/-- Entries in key order are found under their keys. -/
theorem find?_eq_some_iff {key : String} {value : α} :
    ∀ {entries : Entries α}, Ascending entries →
      (find? key entries = some value ↔ (key, value) ∈ entries)
  | [], _ => by simp [find?]
  | (k, v) :: rest, h => by
      have ih : find? key rest = some value ↔ (key, value) ∈ rest :=
        find?_eq_some_iff (List.pairwise_cons.mp h).2
      rw [find?, List.mem_cons, Prod.mk.injEq, ← ih]
      split
      · next hk =>
        subst hk
        simp [h.find?_tail, eq_comm]
      · next hk => simp [Ne.symm hk]

theorem mem_values_iff {value : α} {entries : Entries α} (h : Ascending entries) :
    value ∈ values entries ↔ ∃ key, find? key entries = some value := by
  simp [values, find?_eq_some_iff h]

/-- A dropped key is not found. -/
theorem find?_erase_self (key : String) :
    ∀ {entries : Entries α}, Ascending entries → find? key (erase key entries) = none
  | [], _ => rfl
  | (k, v) :: rest, h => by
      rw [erase]
      split
      · next hk =>
        subst hk
        exact h.find?_tail
      · next hk =>
        rw [find?, if_neg hk]
        exact find?_erase_self key (List.pairwise_cons.mp h).2

theorem keys_erase_sublist (key : String) :
    ∀ entries : Entries α, (keys (erase key entries)).Sublist (keys entries)
  | [] => List.Sublist.refl _
  | (k, v) :: rest => by
      rw [erase]
      split
      · exact List.sublist_cons_self _ _
      · exact (keys_erase_sublist key rest).cons_cons k

/-- Dropping a key that is not there drops nothing. -/
theorem erase_eq_self {key : String} :
    ∀ {entries : Entries α}, find? key entries = none → erase key entries = entries
  | [], _ => rfl
  | (k, v) :: rest, h => by
      rw [find?] at h
      split at h
      · cases h
      · next hk => rw [erase, if_neg hk, erase_eq_self h]

/-- Other keys are found as before. -/
theorem find?_erase_of_ne {key other : String} (hne : other ≠ key) :
    ∀ entries : Entries α, find? other (erase key entries) = find? other entries
  | [] => rfl
  | (k, v) :: rest => by
      rw [erase]
      split
      · next hk => rw [find?, if_neg fun h => hne (h.symm.trans hk)]
      · rw [find?, find?, find?_erase_of_ne hne rest]

/-- Store several pairs one after the other. -/
def insertAll (pairs : List (String × α)) (entries : Entries α) : Entries α :=
  pairs.foldl (fun entries pair => insert pair.1 pair.2 entries) entries

theorem ofList_eq_insertAll (pairs : List (String × α)) : ofList pairs = insertAll pairs [] := rfl

theorem insertAll_append (first rest : List (String × α)) (entries : Entries α) :
    insertAll (first ++ rest) entries = insertAll rest (insertAll first entries) :=
  List.foldl_append

/-- What is found under a key that is not stored. -/
theorem find?_insertAll_of_not_mem {key : String} :
    ∀ {pairs : List (String × α)} {entries : Entries α}, key ∉ keys pairs →
      find? key (insertAll pairs entries) = find? key entries
  | [], _, _ => rfl
  | pair :: pairs, entries, h => by
      rw [keys, List.map_cons, List.mem_cons, not_or] at h
      have ih : find? key (insertAll pairs (insert pair.1 pair.2 entries)) =
          find? key (insert pair.1 pair.2 entries) := find?_insertAll_of_not_mem h.2
      rw [find?_insert_of_ne _ _ h.1] at ih
      exact ih

theorem ascending_insertAll : ∀ (pairs : List (String × α)) {entries : Entries α},
    Ascending entries → Ascending (insertAll pairs entries)
  | [], _, h => h
  | _ :: pairs, _, h => ascending_insertAll pairs (ascending_insert h)

/-- Keys stay when others are stored, and those that are stored are there. -/
theorem mem_keys_insertAll {key : String} :
    ∀ {pairs : List (String × α)} {entries : Entries α},
      key ∈ keys pairs ∨ key ∈ keys entries → key ∈ keys (insertAll pairs entries)
  | [], _, h => h.resolve_left List.not_mem_nil
  | pair :: pairs, entries, h => by
      have hrest : key ∈ keys pairs ∨ key ∈ keys (insert pair.1 pair.2 entries) := by
        rw [mem_keys_insert]
        rw [keys, List.map_cons, List.mem_cons] at h
        rcases h with (h | h) | h
        · exact .inr (.inl h)
        · exact .inl h
        · exact .inr (.inr h)
      have hstored := mem_keys_insertAll hrest
      exact hstored

/-- An entry is one of the pairs that were stored, or was there before. -/
theorem mem_or_mem_of_mem_insertAll {entry : String × α} :
    ∀ {pairs : List (String × α)} {entries : Entries α}, entry ∈ insertAll pairs entries →
      entry ∈ pairs ∨ entry ∈ entries
  | [], _, h => .inr h
  | pair :: pairs, entries, h => by
      have hrest : entry ∈ insertAll pairs (insert pair.1 pair.2 entries) := h
      rcases mem_or_mem_of_mem_insertAll hrest with hmem | hmem
      · exact .inl (List.mem_cons_of_mem pair hmem)
      · rcases eq_or_mem_of_mem_insert hmem with rfl | hmem
        · exact .inl List.mem_cons_self
        · exact .inr hmem

/-- Under a key that is not stored, an entry is added. -/
theorem length_insert_of_find?_eq_none {key : String} {value : α} {entries : Entries α}
    (h : find? key entries = none) : (insert key value entries).length = entries.length + 1 := by
  induction entries with
  | nil => rfl
  | cons entry rest ih =>
      obtain ⟨k, v⟩ := entry
      rw [find?] at h
      split at h
      · cases h
      · next hne =>
        rw [insert, if_neg hne]
        split
        · rfl
        · rw [List.length_cons, ih h, List.length_cons]

@[simp] theorem insert_nil (key : String) (value : α) : insert key value [] = [(key, value)] := rfl

@[simp] theorem insert_cons_of_lt {key k : String} (h : key < k) (value v : α) (rest : Entries α) :
    insert key value ((k, v) :: rest) = (key, value) :: (k, v) :: rest := by
  rw [insert, if_pos h]

@[simp] theorem insert_cons_of_gt {key k : String} (h : k < key) (value v : α) (rest : Entries α) :
    insert key value ((k, v) :: rest) = (k, v) :: insert key value rest := by
  have hne : k ≠ key := by
    rintro rfl
    exact String.lt_irrefl k h
  rw [insert, if_neg (String.lt_asymm h), if_neg hne]

/-- A key found behind all others is stored at the end. -/
theorem insert_eq_append {key : String} {value : α} :
    ∀ {entries : Entries α}, (∀ other ∈ keys entries, other < key) →
      insert key value entries = entries ++ [(key, value)]
  | [], _ => rfl
  | (k, v) :: rest, h => by
      rw [insert_cons_of_gt (h k List.mem_cons_self),
        insert_eq_append fun other hother => h other (List.mem_cons_of_mem k hother)]
      rfl

/-- A key found before all others is stored at the start. -/
theorem insert_eq_cons {key : String} {value : α} {entries : Entries α}
    (h : ∀ other ∈ keys entries, key < other) :
    insert key value entries = (key, value) :: entries := by
  cases entries with
  | nil => rfl
  | cons entry rest => rw [insert, if_pos (h entry.1 List.mem_cons_self)]

-- By induction on the pairs, with what is stored already: all of its keys come before theirs.
theorem insertAll_eq_append :
    ∀ {pairs : List (String × α)} {entries : Entries α}, Ascending (entries ++ pairs) →
      insertAll pairs entries = entries ++ pairs
  | [], entries, _ => (List.append_nil entries).symm
  | (key, value) :: pairs, entries, h => by
      have hbefore : ∀ other ∈ keys entries, other < key := by
        rw [Ascending, keys, List.map_append, List.pairwise_append] at h
        exact fun other hother => h.2.2 other hother key List.mem_cons_self
      have happend : entries ++ (key, value) :: pairs = (entries ++ [(key, value)]) ++ pairs := by
        simp
      rw [happend] at h ⊢
      rw [← insertAll_eq_append h, ← insert_eq_append hbefore]
      rfl

/-- Entries in key order are what storing them gives. -/
theorem ofList_eq_self {entries : Entries α} (h : Ascending entries) : ofList entries = entries :=
  insertAll_eq_append h

variable {keep : String → Bool}

/-- The entries whose keys are kept. -/
def kept (keep : String → Bool) (entries : Entries α) : Entries α :=
  entries.filter fun entry => keep entry.1

/-- Entries that are kept stay in key order. -/
theorem Ascending.kept {entries : Entries α} (h : Ascending entries) :
    Ascending (kept keep entries) :=
  h.sublist (List.filter_sublist.map Prod.fst)

theorem kept_cons_of_true {key : String} (value : α) (rest : Entries α) (h : keep key = true) :
    kept keep ((key, value) :: rest) = (key, value) :: kept keep rest := by
  rw [kept, List.filter_cons_of_pos (by exact h)]
  rfl

theorem kept_cons_of_false {key : String} (value : α) (rest : Entries α) (h : keep key = false) :
    kept keep ((key, value) :: rest) = kept keep rest := by
  rw [kept, List.filter_cons_of_neg (by simp [h])]
  rfl

/-- Storing under a key that is not kept leaves the kept entries alone. -/
theorem kept_insert_of_false {key : String} (value : α) (hkey : keep key = false) :
    ∀ entries : Entries α, kept keep (insert key value entries) = kept keep entries
  | [] => kept_cons_of_false value [] hkey
  | (k, v) :: rest => by
      have ih := kept_insert_of_false value hkey rest
      rw [insert]
      split
      · rw [kept_cons_of_false value _ hkey]
      · split
        · next hk =>
          subst hk
          rw [kept_cons_of_false value _ hkey, kept_cons_of_false v _ hkey]
        · cases hk : keep k with
          | true => rw [kept_cons_of_true v _ hk, kept_cons_of_true v _ hk, ih]
          | false => rw [kept_cons_of_false v _ hk, kept_cons_of_false v _ hk, ih]

theorem kept_insertAll_of_false :
    ∀ {pairs : List (String × α)} {entries : Entries α}, (∀ key ∈ keys pairs, keep key = false) →
      kept keep (insertAll pairs entries) = kept keep entries
  | [], _, _ => rfl
  | (key, value) :: pairs, entries, h => by
      have ih : kept keep (insertAll pairs (insert key value entries)) =
          kept keep (insert key value entries) :=
        kept_insertAll_of_false fun k hk => h k (List.mem_cons_of_mem key hk)
      rw [kept_insert_of_false value (h key List.mem_cons_self)] at ih
      exact ih

/-- Storing under a kept key stores among the kept entries. -/
theorem kept_insert_of_true {key : String} (value : α) (hkey : keep key = true) :
    ∀ {entries : Entries α}, Ascending entries →
      kept keep (insert key value entries) = insert key value (kept keep entries)
  | [], _ => kept_cons_of_true value [] hkey
  | (k, v) :: rest, h => by
      obtain ⟨hfirst, hrest⟩ := List.pairwise_cons.mp h
      have ih := kept_insert_of_true value hkey hrest
      rw [insert]
      split
      · next hlt =>
        have hbehind : ∀ other ∈ keys (kept keep ((k, v) :: rest)), key < other := by
          intro other hother
          obtain ⟨entry, hentry, rfl⟩ := List.mem_map.mp hother
          rcases List.mem_cons.mp (List.mem_filter.mp hentry).1 with heq | hmem
          · rw [heq]
            exact hlt
          · exact String.lt_trans hlt (hfirst entry.1 (List.mem_map_of_mem hmem))
        rw [insert_eq_cons hbehind, kept_cons_of_true value _ hkey]
      · next hlt =>
        split
        · next hk =>
          subst hk
          rw [kept_cons_of_true value _ hkey, kept_cons_of_true v _ hkey, insert, if_neg hlt,
            if_pos rfl]
        · next hne =>
          cases hk : keep k with
          | true =>
              rw [kept_cons_of_true v _ hk, kept_cons_of_true v _ hk, insert, if_neg hlt,
                if_neg hne, ih]
          | false => rw [kept_cons_of_false v _ hk, kept_cons_of_false v _ hk, ih]

theorem kept_insertAll_of_true :
    ∀ {pairs : List (String × α)} {entries : Entries α}, Ascending entries →
      (∀ key ∈ keys pairs, keep key = true) →
      kept keep (insertAll pairs entries) = insertAll pairs (kept keep entries)
  | [], _, _, _ => rfl
  | (key, value) :: pairs, entries, hentries, h => by
      have ih : kept keep (insertAll pairs (insert key value entries)) =
          insertAll pairs (kept keep (insert key value entries)) :=
        kept_insertAll_of_true (ascending_insert hentries)
          fun k hk => h k (List.mem_cons_of_mem key hk)
      rw [kept_insert_of_true value (h key List.mem_cons_self) hentries] at ih
      exact ih

/-- Of the pairs that are stored, those with kept keys are stored among the kept entries. -/
theorem kept_insertAll :
    ∀ {pairs : List (String × α)} {entries : Entries α}, Ascending entries →
      kept keep (insertAll pairs entries) = insertAll (kept keep pairs) (kept keep entries)
  | [], _, _ => rfl
  | (key, value) :: pairs, entries, h => by
      have ih : kept keep (insertAll pairs (insert key value entries)) =
          insertAll (kept keep pairs) (kept keep (insert key value entries)) :=
        kept_insertAll (ascending_insert h)
      cases hkey : keep key with
      | true =>
          rw [kept_insert_of_true value hkey h] at ih
          rw [kept_cons_of_true value pairs hkey]
          exact ih
      | false =>
          rw [kept_insert_of_false value hkey] at ih
          rw [kept_cons_of_false value pairs hkey]
          exact ih

/-- An entry is found among the kept ones if its key is kept. -/
theorem find?_kept (key : String) : ∀ entries : Entries α,
    find? key (kept keep entries) = if keep key then find? key entries else none
  | [] => by simp [kept, find?]
  | (k, v) :: rest => by
      have ih := find?_kept key rest
      cases hk : keep k with
      | true =>
          rw [kept_cons_of_true v rest hk, find?, find?, ih]
          split
          · next heq => rw [← heq, hk, if_pos rfl]
          · rfl
      | false =>
          rw [kept_cons_of_false v rest hk, ih, find?]
          split
          · next hkey =>
            have hne : k ≠ key := by
              rintro rfl
              rw [hk] at hkey
              cases hkey
            rw [if_neg hne]
          · rfl

/-- An entry that is found was stored, or was there before. -/
theorem find?_insertAll {key : String} :
    ∀ {pairs : Entries α} {entries : Entries α}, Ascending pairs →
      find? key (insertAll pairs entries) = (find? key pairs).or (find? key entries)
  | [], _, _ => rfl
  | (k, v) :: pairs, entries, h => by
      have ih : find? key (insertAll pairs (insert k v entries)) =
          (find? key pairs).or (find? key (insert k v entries)) :=
        find?_insertAll (List.pairwise_cons.mp h).2
      rw [find?]
      split
      · next hk =>
        subst hk
        rw [h.find?_tail, find?_insert_self] at ih
        exact ih
      · next hk =>
        rw [find?_insert_of_ne _ _ (Ne.symm hk)] at ih
        exact ih

/-- Of entries stored behind pairs that are not kept, all are kept. -/
theorem kept_ofList_append {first : List (String × α)} {rest : Entries α}
    (hfirst : ∀ key ∈ keys first, keep key = false) (hrest : ∀ key ∈ keys rest, keep key = true)
    (hascending : Ascending rest) : kept keep (ofList (first ++ rest)) = rest := by
  have hempty : kept keep (ofList first) = kept keep [] := kept_insertAll_of_false hfirst
  calc kept keep (ofList (first ++ rest))
      = kept keep (insertAll rest (ofList first)) := by
        rw [ofList_eq_insertAll, insertAll_append]
        rfl
    _ = insertAll rest (kept keep (ofList first)) :=
        kept_insertAll_of_true (ascending_ofList first) hrest
    _ = ofList rest := by
        rw [hempty]
        rfl
    _ = rest := ofList_eq_self hascending

end Entries
end Pushdown
