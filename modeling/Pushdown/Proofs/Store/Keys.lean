import Pushdown.Proofs.Store.Calls

/-!
# Keys of inserted documents

A document may bring its key with it. To one that brings none the store assigns the next number,
which counts the insertions that asked for a key, whatever came of them. The counter
knows nothing of the keys that were brought. So the next number is free unless a
document brought it, and is still there; then the insertion fails.

## Results

* `StoreCall.lastKey_run`: the counter counts the insertions that ask for a key;
* `StoreCall.isSome_document?_run_iff`: which documents are there after a call;
* `Store.KeyedBy.isSome_document?_next_iff`: when the next number is taken;
* `Store.insertsFresh_iff`: when a document without a key is inserted.
-/

namespace Pushdown

namespace Store

variable {fields : Entries Json}

/-- The key that a document brings with it. -/
def ownKey? (fields : Entries Json) : Option String :=
  (Entries.find? "_key" fields).bind Json.asString?

theorem keyFor_of_ownKey? {key : String} (s : Store) (h : ownKey? fields = some key) :
    s.keyFor fields = (key, s.lastKey) := by
  rw [ownKey?] at h
  rw [keyFor, h]

theorem keyFor_of_ownKey?_eq_none (s : Store) (h : ownKey? fields = none) :
    s.keyFor fields = (toString (s.lastKey + 1), s.lastKey + 1) := by
  rw [ownKey?] at h
  rw [keyFor, h]

end Store

namespace StoreCall

open Store

variable {s : Store} {c k : String}

/-- Whether a call asks for a key: it inserts an object that brings none. -/
def asksKey : StoreCall → Bool
  | insert _ (.object fields) => (ownKey? fields).isNone
  | _ => false

/-- The key that is assigned after some calls. -/
def nextKey (calls : List StoreCall) : String := toString (calls.countP asksKey + 1)

/-- A document was inserted under a key that it brought. -/
def Brings (c k : String) (entry : StoreCall × StoreAnswer) : Prop :=
  ∃ fields assigned, entry = (.insert c (.object fields), .ok (some assigned)) ∧
    ownKey? fields = some k

/-- A document was inserted under a key that it brought, and has not been deleted since. -/
def Chosen (c k : String) (log : List (StoreCall × StoreAnswer)) : Prop :=
  ∃ before entry after, log = before ++ entry :: after ∧ Brings c k entry ∧
    ∀ later ∈ after, later.1 ≠ .delete c k

theorem chosen_append_iff {log : List (StoreCall × StoreAnswer)} {entry : StoreCall × StoreAnswer} :
    Chosen c k (log ++ [entry]) ↔ Brings c k entry ∨ Chosen c k log ∧ entry.1 ≠ .delete c k := by
  constructor
  · rintro ⟨before, first, after, hlog, hbrings, hkept⟩
    -- the new entry is the insertion itself, or one of those behind it
    rcases List.eq_nil_or_concat after with rfl | ⟨rest, last, rfl⟩
    · obtain ⟨-, hlast⟩ := List.append_inj' hlog rfl
      cases hlast
      exact .inl hbrings
    · rw [List.concat_eq_append, ← List.cons_append, ← List.append_assoc] at hlog
      obtain ⟨rfl, hlast⟩ := List.append_inj' hlog rfl
      cases hlast
      refine .inr ⟨⟨before, first, rest, rfl, hbrings, ?_⟩, hkept entry (by simp)⟩
      exact fun later hlater => hkept later (by simp [hlater])
  · rintro (hbrings | ⟨⟨before, first, after, rfl, hbrings, hkept⟩, hlast⟩)
    · exact ⟨log, entry, [], rfl, hbrings, nofun⟩
    · refine ⟨before, first, after ++ [entry], by simp, hbrings, ?_⟩
      intro later hlater
      rcases List.mem_append.mp hlater with hlater | hlater
      · exact hkept later hlater
      · cases List.mem_singleton.mp hlater
        exact hlast

theorem keyFor_snd (s : Store) (fields : Entries Json) :
    (s.keyFor fields).2 = s.lastKey + if (ownKey? fields).isNone then 1 else 0 := by
  cases h : ownKey? fields with
  | none => rw [keyFor_of_ownKey?_eq_none s h]; rfl
  | some key => rw [keyFor_of_ownKey? s h]; rfl

/-- The counter counts the insertions that ask for a key. -/
theorem lastKey_run (call : StoreCall) (s : Store) :
    (call.run s).2.lastKey = s.lastKey + if call.asksKey then 1 else 0 := by
  cases call with
  | insert collection document =>
      cases document with
      | object fields =>
          have hkey := keyFor_snd s fields
          unfold run Store.insert fieldsOf
          dsimp only
          split
          · exact hkey
          · exact hkey
      | null | bool | int | double | string | array => rfl
  | replace collection key document =>
      unfold run Store.replace
      dsimp only
      split
      · rfl
      · split <;> rfl
  | delete collection key =>
      unfold run Store.delete
      dsimp only
      split <;> rfl
  | ensureCollection | get | query => rfl

/-- A call inserted a document under a key. -/
def Inserts (c k : String) (call : StoreCall) (answer : StoreAnswer) : Prop :=
  ∃ fields assigned, call = .insert c (.object fields) ∧ answer = .ok (some assigned) ∧
    assigned.key = k

theorem isSome_document?_insert_iff (collection : String) (document : Json) :
    (((insert collection document).run s).2.document? c k).isSome = true ↔
      (s.document? c k).isSome = true ∨
        Inserts c k (insert collection document) ((insert collection document).run s).1 := by
  rw [run]
  cases hrun : Store.insert collection document s with
  | mk outcome s' =>
    cases outcome with
    | error e =>
        have hsame := document?_of_insert_error hrun c k
        simp [hsame, Inserts, Except.map]
    | ok assigned =>
        obtain ⟨fields, rfl, -⟩ := exists_fields_of_insert hrun
        obtain ⟨-, -, -, hwrites⟩ := of_insert hrun
        by_cases hplace : c = collection ∧ k = assigned.key
        · obtain ⟨rfl, rfl⟩ := hplace
          have hinserts : Inserts c assigned.key (insert c (.object fields))
              (.ok (some assigned)) := ⟨fields, assigned, rfl, rfl, rfl⟩
          simp [hwrites.stored, hinserts, Except.map]
        · have hsame := hwrites.others c k (Decidable.not_and_iff_not_or_not.mp hplace)
          have hother : ¬ Inserts c k (insert collection (.object fields))
              (.ok (some assigned)) := by
            rintro ⟨_, _, hcall, hanswer, hkey⟩
            cases hcall
            cases hanswer
            exact hplace ⟨rfl, hkey.symm⟩
          simp [hsame, hother, Except.map]

theorem isSome_document?_replace_iff (collection key : String) (document : Json) :
    (((replace collection key document).run s).2.document? c k).isSome = true ↔
      (s.document? c k).isSome = true := by
  rw [run]
  cases hrun : Store.replace collection key document s with
  | mk outcome s' =>
    cases outcome with
    | error e =>
        obtain rfl := of_replace_error hrun
        exact Iff.rfl
    | ok assigned =>
        obtain ⟨-, htaken, fields, -, hwrites⟩ := of_replace hrun
        by_cases hplace : c = collection ∧ k = key
        · obtain ⟨rfl, rfl⟩ := hplace
          simp [hwrites.stored, htaken]
        · have hsame := hwrites.others c k (Decidable.not_and_iff_not_or_not.mp hplace)
          simp [hsame]

theorem isSome_document?_delete_iff (hs : s.Ordered) (collection key : String) :
    (((delete collection key).run s).2.document? c k).isSome = true ↔
      (s.document? c k).isSome = true ∧ delete collection key ≠ delete c k := by
  rw [run]
  cases hrun : Store.delete collection key s with
  | mk outcome s' =>
    by_cases hplace : c = collection ∧ k = key
    · obtain ⟨rfl, rfl⟩ := hplace
      have hgone : s'.document? c k = none := by
        cases outcome with
        | error e =>
            obtain ⟨rfl, -, hnone⟩ := of_delete_error hrun
            exact hnone
        | ok u => exact (of_delete (hs.ascending c) hrun).dropped
      simp [hgone]
    · have hsame : s'.document? c k = s.document? c k := by
        cases outcome with
        | error e =>
            obtain ⟨rfl, -, -⟩ := of_delete_error hrun
            rfl
        | ok u =>
            exact (of_delete (hs.ascending collection) hrun).others c k
              (Decidable.not_and_iff_not_or_not.mp hplace)
      have hother : delete collection key ≠ delete c k := by
        rintro ⟨⟩
        exact hplace ⟨rfl, rfl⟩
      simp [hsame, hother]

/-- A document is there after a call if it was there before and the call is not its deletion, or
if the call inserted it. -/
theorem isSome_document?_run_iff (hs : s.Ordered) (call : StoreCall) :
    ((call.run s).2.document? c k).isSome = true ↔
      (s.document? c k).isSome = true ∧ call ≠ .delete c k ∨
        Inserts c k call (call.run s).1 := by
  cases call with
  | insert collection document => simp [isSome_document?_insert_iff]
  | replace collection key document => simp [isSome_document?_replace_iff, Inserts]
  | delete collection key => simp [isSome_document?_delete_iff hs, Inserts]
  | ensureCollection collection =>
      have hsame := document?_of_place?_ne hs (.ensureCollection collection) c k (by simp [place?])
      simp [hsame, Inserts]
  | get collection key => simp [run, Client.get, Inserts]
  | query q =>
      have hsame := document?_of_place?_ne hs (.query q) c k (by simp [place?])
      simp [hsame, Inserts]

/-- What a call that inserted an object did. -/
theorem insert_eq_of_answer {fields : Entries Json} {assigned : DocumentMeta}
    (h : ((insert c (.object fields)).run s).1 = .ok (some assigned)) :
    ∃ s', Store.insert c (.object fields) s = (.ok assigned, s') := by
  rw [run] at h
  cases hrun : Store.insert c (.object fields) s with
  | mk outcome s' =>
    rw [hrun] at h
    cases outcome with
    | error e => cases h
    | ok found =>
        cases h
        exact ⟨s', rfl⟩

/-- A document that brought its key is inserted under it. -/
theorem inserts_of_brings {call : StoreCall} (h : Brings c k (call, (call.run s).1)) :
    Inserts c k call (call.run s).1 := by
  obtain ⟨fields, assigned, hentry, hown⟩ := h
  obtain ⟨rfl, hanswer⟩ := Prod.mk.inj hentry
  obtain ⟨s', hinsert⟩ := insert_eq_of_answer hanswer
  obtain ⟨-, hkey, -⟩ := of_insert hinsert
  rw [keyFor_of_ownKey? s hown] at hkey
  exact ⟨fields, assigned, rfl, hanswer, hkey⟩

/-- A document that brought its key was given to a call. -/
theorem Chosen.exists_insert {log : List (StoreCall × StoreAnswer)} (h : Chosen c k log) :
    ∃ fields, insert c (.object fields) ∈ log.map Prod.fst ∧ ownKey? fields = some k := by
  obtain ⟨before, entry, after, rfl, ⟨fields, assigned, rfl, hown⟩, -⟩ := h
  exact ⟨fields, by simp, hown⟩

/-- The key of an inserted document was brought, or is the number that the counter shows then. -/
theorem brings_or_eq_of_inserts {call : StoreCall} (h : Inserts c k call (call.run s).1) :
    Brings c k (call, (call.run s).1) ∨ k = toString (call.run s).2.lastKey := by
  obtain ⟨fields, assigned, rfl, hanswer, rfl⟩ := h
  obtain ⟨s', hinsert⟩ := insert_eq_of_answer hanswer
  obtain ⟨-, hkey, -⟩ := of_insert hinsert
  rw [hanswer]
  cases hown : ownKey? fields with
  | some key =>
      rw [keyFor_of_ownKey? s hown] at hkey
      exact .inl ⟨fields, assigned, rfl, hkey ▸ hown⟩
  | none =>
      rw [keyFor_of_ownKey?_eq_none s hown] at hkey
      rw [lastKey_run, asksKey, hown]
      exact .inr hkey

end StoreCall

namespace Store

open StoreCall

variable {collection c k : String} {fields : Entries Json} {s s' : Store}
  {log : List (StoreCall × StoreAnswer)}

/-- Keys after some calls: the documents whose keys were brought are there, and the keys of all
others are numbers that have been assigned. -/
structure KeyedBy (log : List (StoreCall × StoreAnswer)) (s : Store) : Prop where
  ordered : s.Ordered
  lastKey : s.lastKey = (log.map Prod.fst).countP asksKey
  kept : ∀ {c k}, Chosen c k log → (s.document? c k).isSome = true
  origin : ∀ {c k}, (s.document? c k).isSome = true →
    Chosen c k log ∨ ∃ n ≤ s.lastKey, k = toString n

theorem keyedBy_empty : KeyedBy [] Store.empty where
  ordered := consistent_empty.ordered
  lastKey := rfl
  kept := by
    rintro c k ⟨before, entry, after, hlog, -⟩
    simp at hlog
  origin := nofun

/-- What a call keeps of the keys. -/
theorem KeyedBy.run (h : KeyedBy log s) (call : StoreCall) :
    KeyedBy (log ++ [(call, (call.run s).1)]) (call.run s).2 where
  ordered := (call.keeps_run s).ordered h.ordered
  lastKey := by
    rw [lastKey_run, h.lastKey, List.map_append, List.countP_append, List.map_singleton,
      List.countP_singleton]
  kept := by
    intro c k hchosen
    rw [isSome_document?_run_iff h.ordered]
    rcases chosen_append_iff.mp hchosen with hbrings | ⟨hchosen, hkept⟩
    · exact .inr (inserts_of_brings hbrings)
    · exact .inl ⟨h.kept hchosen, hkept⟩
  origin := by
    intro c k hfound
    rw [chosen_append_iff]
    rcases (isSome_document?_run_iff h.ordered call).mp hfound with ⟨hfound, hkept⟩ | hinserts
    · rcases h.origin hfound with hchosen | ⟨n, hn, rfl⟩
      · exact .inl (.inr ⟨hchosen, hkept⟩)
      · refine .inr ⟨n, ?_, rfl⟩
        rw [lastKey_run]
        omega
    · rcases brings_or_eq_of_inserts hinserts with hbrings | rfl
      · exact .inl (.inl hbrings)
      · exact .inr ⟨_, Nat.le_refl _, rfl⟩

theorem keyedBy_of_calls (calls : List StoreCall) :
    KeyedBy (Run.all StoreCall.run calls Store.empty).1
      (Run.all StoreCall.run calls Store.empty).2 :=
  Run.invariant keyedBy_empty (fun _ call _ h => h.run call) calls

/-- The next number is taken if and only if a document brought it. -/
theorem KeyedBy.isSome_document?_next_iff (h : KeyedBy log s) :
    (s.document? c (toString (s.lastKey + 1))).isSome = true ↔
      Chosen c (toString (s.lastKey + 1)) log := by
  constructor
  · intro hfound
    rcases h.origin hfound with hchosen | ⟨n, hn, hnumber⟩
    · exact hchosen
    · -- numbers that are shown alike are the same
      have hsame := congrArg revisionNumber hnumber
      rw [revisionNumber_toString, revisionNumber_toString] at hsame
      omega
  · exact h.kept

/-- A document is inserted under a key that was free, and it is the only one that is added. -/
def InsertsFresh (collection : String) (fields : Entries Json) (s : Store) : Prop :=
  ∃ assigned s', insert collection (.object fields) s = (.ok assigned, s') ∧
    s.document? collection assigned.key = none ∧
    Writes collection assigned.key (.object (stamped fields assigned)) s s' ∧
    s'.count collection = s.count collection + 1 ∧
    ∀ other, other ≠ collection → s'.count other = s.count other

/-- A document is refused as one whose key is taken, and no document changes. -/
def Refuses (collection key : String) (fields : Entries Json) (s : Store) : Prop :=
  ∃ s', insert collection (.object fields) s =
      (.error ⟨.uniqueConstraint, documentId collection key⟩, s') ∧
    ∀ c k, s'.document? c k = s.document? c k

/-- An insertion that succeeds adds one document, under a key that was free. -/
theorem insertsFresh_of_free (hfree : s.document? collection (s.keyFor fields).1 = none) :
    InsertsFresh collection fields s := by
  obtain ⟨s', hinsert⟩ := exists_insert_of_free fields hfree
  obtain ⟨-, -, hnone, hwrites⟩ := of_insert hinsert
  obtain ⟨hdocuments, hothers⟩ := documents_of_insert hinsert
  refine ⟨_, s', hinsert, hnone, hwrites, ?_, ?_⟩
  · rw [count, count, hdocuments, Entries.length_insert_of_find?_eq_none hnone]
  · intro other hother
    rw [count, count, hothers other hother]

theorem refuses_of_taken (htaken : (s.document? collection (s.keyFor fields).1).isSome = true) :
    Refuses collection (s.keyFor fields).1 fields s := by
  obtain ⟨s', hinsert⟩ := exists_insert_error_of_taken fields htaken
  exact ⟨s', hinsert, document?_of_insert_error hinsert⟩

theorem Refuses.not_insertsFresh {key : String} (h : Refuses collection key fields s) :
    ¬ InsertsFresh collection fields s := by
  rintro ⟨assigned, t, hok, -⟩
  obtain ⟨u, herror, -⟩ := h
  rw [hok] at herror
  cases herror

/-- After any calls of an empty store, a document that brings no key is inserted under a key that
was free, as the only one that is added, if and only if no document brought the next number as its
key into the collection and has not been deleted since. If one did, the insertion fails because the
key is taken, and changes no document. -/
theorem insertsFresh_iff (calls : List StoreCall) (collection : String) (fields : Entries Json)
    (h : ownKey? fields = none) :
    ∃ log s, Run.all StoreCall.run calls Store.empty = (log, s) ∧
      (InsertsFresh collection fields s ↔ ¬ Chosen collection (nextKey calls) log) ∧
      (Chosen collection (nextKey calls) log →
        Refuses collection (nextKey calls) fields s) := by
  have hkeyed := keyedBy_of_calls calls
  have hcalls := Run.calls_all StoreCall.run calls Store.empty
  generalize hrun : Run.all StoreCall.run calls Store.empty = run at hkeyed hcalls
  obtain ⟨log, s⟩ := run
  have hnext : nextKey calls = toString (s.lastKey + 1) := by
    rw [nextKey, hkeyed.lastKey, hcalls]
  have hkeyFor : (s.keyFor fields).1 = nextKey calls := by
    rw [keyFor_of_ownKey?_eq_none s h, hnext]
  have htaken : (s.document? collection (nextKey calls)).isSome = true ↔
      Chosen collection (nextKey calls) log := by
    rw [hnext]
    exact hkeyed.isSome_document?_next_iff
  have hrefuses : Chosen collection (nextKey calls) log →
      Refuses collection (nextKey calls) fields s := by
    rw [← htaken, ← hkeyFor]
    exact refuses_of_taken
  refine ⟨log, s, rfl, ⟨fun hfresh hchosen => ?_, fun hunchosen => ?_⟩, hrefuses⟩
  · exact (hrefuses hchosen).not_insertsFresh hfresh
  · rw [← htaken, ← hkeyFor, Bool.not_eq_true, Option.isSome_eq_false_iff,
      Option.isNone_iff_eq_none] at hunchosen
    exact insertsFresh_of_free hunchosen

/-- Rex is inserted with a key of his own, and a dog without one. -/
def kennelCalls : List StoreCall :=
  [.insert "dog" (.object [("_key", .string "rex")]), .insert "dog" (.object [])]

theorem insertsFresh_iff_kennel :
    ownKey? [("name", .string "max")] = none ∧
      InsertsFresh "dog" [("name", .string "max")]
        (Run.all StoreCall.run kennelCalls Store.empty).2 := by
  have hown : ownKey? [("name", .string "max")] = none := rfl
  obtain ⟨log, s, hrun, hfresh, -⟩ := insertsFresh_iff kennelCalls "dog" _ hown
  refine ⟨hown, ?_⟩
  rw [hrun, hfresh]
  intro hchosen
  have hcalls := Run.calls_all StoreCall.run kennelCalls Store.empty
  rw [hrun] at hcalls
  obtain ⟨fields, hmem, hbrings⟩ := hchosen.exists_insert
  rw [hcalls] at hmem
  cases hmem with
  | head => exact absurd hbrings (by decide)
  | tail _ hmem =>
      cases List.mem_singleton.mp hmem
      cases hbrings

/-- The number one is brought as a key. -/
def numberedCalls : List StoreCall := [.insert "dog" (.object [("_key", .string "1")])]

/-- Then no document without a key can be inserted: the first key that is assigned is taken. -/
theorem not_insertsFresh_of_number :
    ownKey? [] = none ∧
      ¬ InsertsFresh "dog" [] (Run.all StoreCall.run numberedCalls Store.empty).2 ∧
      ∃ s', insert "dog" (.object []) (Run.all StoreCall.run numberedCalls Store.empty).2 =
        (.error ⟨.uniqueConstraint, "dog/1"⟩, s') := by
  refine ⟨rfl, ?_, _, rfl⟩
  rintro ⟨assigned, s', hinsert, -⟩
  cases hinsert

end Store
end Pushdown
