import Pushdown.Proofs.Runs
import Pushdown.Proofs.Store.Answers
import Pushdown.Proofs.Store.Writing

/-!
# Runs of store calls

A call writes the document of one place, or drops it, or changes no document. So whatever is
called, the store keeps its documents under the keys and ids they are stamped with, and numbers
its revisions upwards.

## Results

* `StoreCall.change_run`: what one call changes;
* `Store.Consistent.run`: what every call keeps of the documents of a store;
* `Store.consistent_of_calls`: the documents and revisions after any calls, and what one more call
  does.
-/

namespace Pushdown

/-- A call of a store. -/
inductive StoreCall where
  | insert (collection : String) (document : Json)
  | replace (collection key : String) (document : Json)
  | delete (collection key : String)
  | ensureCollection (collection : String)
  | get (collection key : String)
  | query (query : Query)

/-- The answer to a call: what was assigned to the document, if one was written. -/
abbrev StoreAnswer := Except StoreError (Option DocumentMeta)

namespace StoreCall

/-- Make a call. -/
def run (call : StoreCall) (s : Store) : StoreAnswer × Store :=
  match call with
  | insert collection document =>
      Prod.map (Except.map some) id (Store.insert collection document s)
  | replace collection key document =>
      Prod.map (Except.map some) id (Store.replace collection key document s)
  | delete collection key =>
      Prod.map (Except.map fun _ => none) id (Store.delete collection key s)
  | ensureCollection collection =>
      Prod.map (Except.map fun _ => none) id (Store.ensureCollection collection s)
  | get collection key => Prod.map (Except.map fun _ => none) id (Client.get collection key s)
  | query q => Prod.map (Except.map fun _ => none) id (Store.query q s)

/-- The place of the document that a call addressed with success. -/
def place? : StoreCall → StoreAnswer → Option (String × String)
  | insert collection _, .ok (some assigned) => some (collection, assigned.key)
  | replace collection key _, .ok _ => some (collection, key)
  | delete collection key, .ok _ => some (collection, key)
  | _, _ => none

/-- What an answer tells of a written document. -/
def assigned? : StoreAnswer → Option DocumentMeta
  | .ok assigned => assigned
  | .error _ => none

/-- The revisions that some calls assigned. -/
def revisions (log : List (StoreCall × StoreAnswer)) : List String :=
  log.filterMap fun entry => (assigned? entry.2).map DocumentMeta.revision

end StoreCall

/-- The number that a text of digits shows. -/
def revisionNumber (revision : String) : Nat := Nat.ofDigitChars 10 revision.toList 0

theorem revisionNumber_toString (n : Nat) : revisionNumber (toString n) = n := by
  rw [revisionNumber, Nat.toString_eq_repr, Nat.toList_repr, Nat.ofDigitChars_ten_toDigits]

namespace Store

variable {collection : String} {documents : Entries Json} {s s' : Store}

theorem Ordered.ascending (h : s.Ordered) (collection : String) :
    Entries.Ascending (s.documents collection) := by
  unfold Store.documents
  cases hfound : Entries.find? collection s.collections with
  | none => exact List.Pairwise.nil
  | some documents =>
      exact h.documents _ ((Entries.find?_eq_some_iff h.collections).mp hfound)

/-- Storing documents in the order of their keys keeps the order. -/
theorem Ordered.insert (h : s.Ordered) (hdocuments : Entries.Ascending documents)
    (hs : s'.collections = Entries.insert collection documents s.collections) : s'.Ordered where
  collections := by
    rw [hs]
    exact Entries.ascending_insert h.collections
  documents := by
    intro entry hentry
    rw [hs] at hentry
    rcases Entries.eq_or_mem_of_mem_insert hentry with rfl | hentry
    · exact hdocuments
    · exact h.documents entry hentry

end Store

namespace StoreCall

variable {s s' : Store}

/-- The number of written documents. -/
def written (answer : StoreAnswer) : Nat := if (assigned? answer).isSome then 1 else 0

/-- What a call keeps besides the documents. -/
structure Keeps (s s' : Store) (answer : StoreAnswer) : Prop where
  answers : s'.answers = s.answers
  lastRevision : s'.lastRevision = s.lastRevision + written answer
  lastKey : s'.lastKey ≤ s.lastKey + 1
  ordered : s.Ordered → s'.Ordered

theorem keeps_refl (s : Store) {answer : StoreAnswer} (h : written answer = 0) :
    Keeps s s answer :=
  ⟨rfl, by rw [h]; rfl, Nat.le_succ _, id⟩

theorem keyFor_le (s : Store) (fields : Entries Json) : (s.keyFor fields).2 ≤ s.lastKey + 1 := by
  unfold Store.keyFor
  split
  · exact Nat.le_succ _
  · exact Nat.le_refl _

theorem keeps_run (call : StoreCall) (s : Store) : Keeps s (call.run s).2 (call.run s).1 := by
  cases call with
  | insert collection document =>
      unfold run Store.insert
      dsimp only
      split
      · exact keeps_refl s rfl
      · next fields _ =>
        split
        · exact ⟨rfl, rfl, keyFor_le s fields, fun h => h.insert (h.ascending collection) rfl⟩
        · refine ⟨rfl, rfl, keyFor_le s fields, fun h => ?_⟩
          have hmid : Store.Ordered { s with
              collections := Entries.insert collection (s.documents collection) s.collections } :=
            h.insert (h.ascending collection) rfl
          exact hmid.insert (Entries.ascending_insert (h.ascending collection)) rfl
  | replace collection key document =>
      unfold run Store.replace
      dsimp only
      split
      · exact keeps_refl s rfl
      · split
        · exact ⟨rfl, rfl, Nat.le_succ _, fun h =>
            h.insert (Entries.ascending_insert (h.ascending collection)) rfl⟩
        · exact keeps_refl s rfl
  | delete collection key =>
      unfold run Store.delete
      dsimp only
      split
      · exact ⟨rfl, rfl, Nat.le_succ _, fun h =>
          h.insert (Entries.ascending_erase (h.ascending collection)) rfl⟩
      · exact keeps_refl s rfl
  | ensureCollection collection =>
      exact ⟨rfl, rfl, Nat.le_succ _, fun h => h.insert (h.ascending collection) rfl⟩
  | get collection key => exact keeps_refl s rfl
  | query q =>
      refine ⟨rfl, ?_, Nat.le_succ _, fun h => ⟨h.collections, h.documents⟩⟩
      unfold run Store.query
      dsimp only
      cases s.answer q <;> rfl

/-- What a call changes: the document of a place is written, or it is dropped, or no document
changes. -/
inductive Change (s s' : Store) : Option (String × String) → StoreAnswer → Prop
  | wrote {collection key : String} (fields : Entries Json)
      (writes : Store.Writes collection key
        (.object (Store.stamped fields (s.assign collection key))) s s') :
      Change s s' (some (collection, key)) (.ok (some (s.assign collection key)))
  | dropped {collection key : String} (drops : Store.Drops collection key s s') :
      Change s s' (some (collection, key)) (.ok none)
  | kept {answer : StoreAnswer} (same : ∀ c k, s'.document? c k = s.document? c k)
      (unassigned : assigned? answer = none) : Change s s' none answer

theorem change_run (hs : s.Ordered) (call : StoreCall) :
    Change s (call.run s).2 (call.place? (call.run s).1) (call.run s).1 := by
  cases call with
  | insert collection document =>
      rw [run]
      cases hrun : Store.insert collection document s with
      | mk outcome s' =>
        cases outcome with
        | error e => exact .kept (Store.document?_of_insert_error hrun) rfl
        | ok assigned =>
            obtain ⟨fields, rfl, rfl⟩ := Store.exists_fields_of_insert hrun
            obtain ⟨-, -, -, hwrites⟩ := Store.of_insert hrun
            exact .wrote fields hwrites
  | replace collection key document =>
      rw [run]
      cases hrun : Store.replace collection key document s with
      | mk outcome s' =>
        cases outcome with
        | error e =>
            obtain rfl := Store.of_replace_error hrun
            exact .kept (fun _ _ => rfl) rfl
        | ok assigned =>
            obtain ⟨rfl, -, fields, rfl, hwrites⟩ := Store.of_replace hrun
            exact .wrote fields hwrites
  | delete collection key =>
      rw [run]
      cases hrun : Store.delete collection key s with
      | mk outcome s' =>
        cases outcome with
        | error e =>
            obtain ⟨rfl, -, -⟩ := Store.of_delete_error hrun
            exact .kept (fun _ _ => rfl) rfl
        | ok u => exact .dropped (Store.of_delete (hs.ascending collection) hrun)
  | ensureCollection collection => exact .kept (Store.document?_of_same rfl) rfl
  | get collection key => exact .kept (fun _ _ => rfl) rfl
  | query q =>
      refine .kept (fun _ _ => rfl) ?_
      unfold run Store.query
      dsimp only
      cases s.answer q <;> rfl

/-- A call changes no document but the one it addresses. -/
theorem document?_of_place?_ne (hs : s.Ordered) (call : StoreCall) (c k : String)
    (hplace : call.place? (call.run s).1 ≠ some (c, k)) :
    (call.run s).2.document? c k = s.document? c k := by
  have hchange := call.change_run hs
  generalize call.place? (call.run s).1 = place at hchange hplace
  generalize (call.run s).1 = answer at hchange
  have hne : ∀ {collection key : String}, some (collection, key) ≠ some (c, k) →
      c ≠ collection ∨ k ≠ key := by
    intro collection key h
    rw [← Decidable.not_and_iff_not_or_not]
    rintro ⟨rfl, rfl⟩
    exact h rfl
  cases hchange with
  | wrote fields writes => exact writes.others c k (hne hplace)
  | dropped drops => exact drops.others c k (hne hplace)
  | kept same unassigned => exact same c k

/-- A failed call changes no document. -/
theorem document?_of_error (hs : s.Ordered) (call : StoreCall) {e : StoreError}
    (he : (call.run s).1 = .error e) (c k : String) :
    (call.run s).2.document? c k = s.document? c k := by
  refine document?_of_place?_ne hs call c k ?_
  rw [he]
  cases call <;> nofun

/-- What was assigned to a document is stamped on it. -/
theorem written_of_assigned (hs : s.Ordered) (call : StoreCall) {assigned : DocumentMeta}
    (h : (call.run s).1 = .ok (some assigned)) :
    ∃ c k document, call.place? (call.run s).1 = some (c, k) ∧
      (call.run s).2.document? c k = some document ∧ assigned = s.assign c k ∧
      document.stringField? "_rev" = some assigned.revision := by
  have hchange := call.change_run hs
  generalize call.place? (call.run s).1 = place at hchange ⊢
  rw [h] at hchange
  cases hchange with
  | @wrote c k fields writes =>
      refine ⟨c, k, _, rfl, writes.stored, rfl, ?_⟩
      rw [Json.stringField?, Json.field?, Store.find?_revision]
      rfl
  | kept same unassigned => cases unassigned

end StoreCall

namespace Store

variable {c k c' k' : String} {document document' : Json} {number number' : Nat} {s s' : Store}

/-- A document carries its key, its id and a numbered revision. -/
def StampedAs (c k : String) (number : Nat) (document : Json) : Prop :=
  ∃ fields, document = .object (stamped fields ⟨documentId c k, k, toString number⟩)

theorem StampedAs.revision (h : StampedAs c k number document) :
    document.stringField? "_rev" = some (toString number) := by
  obtain ⟨fields, rfl⟩ := h
  rw [Json.stringField?, Json.field?, find?_revision]
  rfl

theorem StampedAs.number_eq (h : StampedAs c k number document)
    (h' : StampedAs c' k' number' document')
    (hrevision : document.stringField? "_rev" = document'.stringField? "_rev") :
    number = number' := by
  rw [h.revision, h'.revision, Option.some.injEq] at hrevision
  rw [← revisionNumber_toString number, hrevision, revisionNumber_toString]

/-- A store without fixed answers, whose documents are stamped with their places and with
revisions of different numbers, none of them beyond the last one. -/
structure Consistent (s : Store) : Prop where
  ordered : s.Ordered
  answers : s.answers = []
  stamped : ∀ {c k document}, s.document? c k = some document →
    ∃ number, StampedAs c k number document ∧ number ≤ s.lastRevision
  distinct : ∀ {c k c' k' document document' number}, s.document? c k = some document →
    s.document? c' k' = some document' → StampedAs c k number document →
    StampedAs c' k' number document' → c = c' ∧ k = k'

theorem consistent_empty : Store.empty.Consistent where
  ordered := ⟨List.Pairwise.nil, nofun⟩
  answers := rfl
  stamped := nofun
  distinct := nofun

/-- A written document has the one revision that was not there before. -/
theorem Writes.consistent {fields : Entries Json} (h : s.Consistent) (hordered : s'.Ordered)
    (hanswers : s'.answers = s.answers) (hnumber : s'.lastRevision = s.lastRevision + 1)
    (hwrites : Writes c k (.object (Store.stamped fields (s.assign c k))) s s') :
    s'.Consistent := by
  have hnew : StampedAs c k (s.lastRevision + 1)
    (.object (Store.stamped fields (s.assign c k))) := ⟨fields, rfl⟩
  have hcases : ∀ {x y found}, s'.document? x y = some found →
      (x = c ∧ y = k ∧ found = .object (Store.stamped fields (s.assign c k))) ∨
        s.document? x y = some found := by
    intro x y found hfound
    by_cases hplace : x = c ∧ y = k
    · obtain ⟨rfl, rfl⟩ := hplace
      rw [hwrites.stored, Option.some.injEq] at hfound
      exact .inl ⟨rfl, rfl, hfound.symm⟩
    · rw [Decidable.not_and_iff_not_or_not] at hplace
      exact .inr ((hwrites.others x y hplace).symm.trans hfound)
  -- no document that was there has the number of the new one
  have hold : ∀ {x y found}, s.document? x y = some found →
      ¬ StampedAs x y (s.lastRevision + 1) found := by
    intro x y found hfound hlast
    obtain ⟨number, hstamped, hle⟩ := h.stamped hfound
    have := hstamped.number_eq hlast rfl
    omega
  refine ⟨hordered, hanswers.trans h.answers, ?_, ?_⟩
  · intro x y found hfound
    rcases hcases hfound with ⟨rfl, rfl, rfl⟩ | hfound
    · exact ⟨_, hnew, Nat.le_of_eq hnumber.symm⟩
    · obtain ⟨number, hstamped, hle⟩ := h.stamped hfound
      exact ⟨number, hstamped, by omega⟩
  · intro x y x' y' found found' number hfound hfound' hstamped hstamped'
    rcases hcases hfound with ⟨rfl, rfl, rfl⟩ | hfound
    · obtain rfl := hnew.number_eq hstamped rfl
      rcases hcases hfound' with ⟨rfl, rfl, rfl⟩ | hfound'
      · exact ⟨rfl, rfl⟩
      · exact absurd hstamped' (hold hfound')
    · rcases hcases hfound' with ⟨rfl, rfl, rfl⟩ | hfound'
      · obtain rfl := hnew.number_eq hstamped' rfl
        exact absurd hstamped (hold hfound)
      · exact h.distinct hfound hfound' hstamped hstamped'

/-- Documents that are left are as they were. -/
theorem Consistent.of_left (h : s.Consistent) (hordered : s'.Ordered)
    (hanswers : s'.answers = s.answers) (hnumber : s'.lastRevision = s.lastRevision)
    (hleft : ∀ {c k document}, s'.document? c k = some document →
      s.document? c k = some document) : s'.Consistent where
  ordered := hordered
  answers := hanswers.trans h.answers
  stamped hfound := by
    rw [hnumber]
    exact h.stamped (hleft hfound)
  distinct hfound hfound' := h.distinct (hleft hfound) (hleft hfound')

/-- What a call keeps. -/
theorem Consistent.run (h : s.Consistent) (call : StoreCall) : (call.run s).2.Consistent := by
  obtain ⟨hanswers, hnumber, -, hordered⟩ := call.keeps_run s
  have hchange := call.change_run h.ordered
  generalize call.place? (call.run s).1 = place at hchange
  generalize (call.run s).1 = answer at hchange hnumber
  cases hchange with
  | wrote fields writes => exact writes.consistent h (hordered h.ordered) hanswers hnumber
  | dropped drops =>
      refine h.of_left (hordered h.ordered) hanswers hnumber fun {x y found} hfound => ?_
      rw [← drops.others x y ?_]
      · exact hfound
      · rw [← Decidable.not_and_iff_not_or_not]
        rintro ⟨rfl, rfl⟩
        rw [drops.dropped] at hfound
        cases hfound
  | kept same unassigned =>
      rw [StoreCall.written, unassigned] at hnumber
      refine h.of_left (hordered h.ordered) hanswers hnumber fun {x y found} hfound => ?_
      rw [← same x y]
      exact hfound

/-- A store that some calls led to. -/
def Reached (s : Store) : Prop :=
  ∃ calls, (Run.all StoreCall.run calls Store.empty).2 = s

theorem Reached.consistent (h : s.Reached) : s.Consistent := by
  obtain ⟨calls, rfl⟩ := h
  exact Run.invariant (P := fun _ (s : Store) => s.Consistent) consistent_empty
    (fun _ call _ h => h.run call) calls

/-- The assigned revisions show ascending numbers, and no counter is beyond the number of
calls. -/
structure Numbered (log : List (StoreCall × StoreAnswer)) (s : Store) (numbers : List Nat) :
    Prop where
  revisions : StoreCall.revisions log = numbers.map toString
  ascending : numbers.Pairwise (· < ·)
  le_last : ∀ number ∈ numbers, number ≤ s.lastRevision
  lastRevision_le : s.lastRevision ≤ log.length
  lastKey_le : s.lastKey ≤ log.length

/-- The number that a call assigns, if it writes a document. -/
def numbersOf (s : Store) (answer : StoreAnswer) : List Nat :=
  (StoreCall.assigned? answer).toList.map fun _ => s.lastRevision + 1

theorem revisions_run (hs : s.Ordered) (call : StoreCall) :
    StoreCall.revisions [(call, (call.run s).1)] =
      (numbersOf s (call.run s).1).map toString := by
  have hchange := call.change_run hs
  generalize call.place? (call.run s).1 = place at hchange
  generalize (call.run s).1 = answer at hchange ⊢
  cases hchange with
  | wrote fields writes => rfl
  | dropped drops => rfl
  | kept same unassigned => simp [StoreCall.revisions, numbersOf, unassigned]

/-- A call assigns the next number, or none. -/
theorem Numbered.run {log : List (StoreCall × StoreAnswer)} {numbers : List Nat}
    (h : Numbered log s numbers) (hs : s.Ordered) (call : StoreCall) :
    Numbered (log ++ [(call, (call.run s).1)]) (call.run s).2
      (numbers ++ numbersOf s (call.run s).1) := by
  obtain ⟨-, hlast, hkey, -⟩ := call.keeps_run s
  have hrevisions := revisions_run hs call
  generalize (call.run s).1 = answer at hlast hrevisions ⊢
  have hlastBefore := h.lastRevision_le
  have hkeyBefore := h.lastKey_le
  refine ⟨?_, ?_, ?_, ?_, ?_⟩
  · rw [StoreCall.revisions, List.filterMap_append, List.map_append, ← hrevisions,
      ← h.revisions]
    rfl
  · refine List.pairwise_append.mpr ⟨h.ascending, ?_, ?_⟩
    · unfold numbersOf
      cases StoreCall.assigned? answer <;> simp
    · intro earlier hearlier number hnumber
      obtain ⟨assigned, -, rfl⟩ := List.mem_map.mp hnumber
      exact Nat.lt_succ_of_le (h.le_last earlier hearlier)
  · intro number hnumber
    rcases List.mem_append.mp hnumber with hnumber | hnumber
    · have := h.le_last number hnumber
      omega
    · obtain ⟨assigned, hassigned, rfl⟩ := List.mem_map.mp hnumber
      rw [hlast, StoreCall.written, Option.mem_toList.mp hassigned]
      exact Nat.le_refl _
  · have hwritten : StoreCall.written answer ≤ 1 := by
      unfold StoreCall.written
      split <;> decide
    rw [List.length_append, List.length_singleton]
    omega
  · rw [List.length_append, List.length_singleton]
    omega

theorem numbered_of_calls (calls : List StoreCall) :
    ∃ numbers, Numbered (Run.all StoreCall.run calls Store.empty).1
      (Run.all StoreCall.run calls Store.empty).2 numbers := by
  refine (Run.invariant (P := fun log (s : Store) => s.Ordered ∧ ∃ numbers, Numbered log s numbers)
    ⟨consistent_empty.ordered, [], rfl, List.Pairwise.nil, nofun, Nat.le_refl 0,
      Nat.le_refl 0⟩ ?_ calls).2
  rintro log call s ⟨hs, numbers, h⟩
  exact ⟨(call.keeps_run s).ordered hs, _, h.run hs call⟩

/-- A fetch by the id of a stored document returns it. -/
theorem Consistent.returns_of_id (h : s.Consistent) (hc : keySeparator ∉ c.toList)
    (hfound : s.document? c k = some document) {query : Query}
    (hmark : Text.contains query.text fetchMark = true)
    (hids : Entries.find? "ids" query.bindings = some (Json.strings [documentId c k])) :
    s.Returns query [document] := by
  have hunanswered := unanswered_of_answers h.answers query
  rw [returns_iff, answer_of_fetchMark hunanswered hmark, fetch, boundTexts_strings hids]
  have hlookup : [documentId c k].filterMap s.lookup? = [document] := by
    rw [List.filterMap_cons, lookup?_documentId s hc, hfound]
    rfl
  exact congrArg Except.ok hlookup

/-- After any calls of an empty store, every document is an object with its key, its id and the
text of a number as its revision, no two documents have one revision, and a fetch by the id of a
document returns it. The revisions that were assigned show ascending numbers. One more call that
fails changes no document; one that succeeds changes none but the document it addresses, and a
document that it writes gets a revision with a number beyond all before. No counter is beyond the
number of calls. -/
theorem consistent_of_calls (calls : List StoreCall) (call : StoreCall) :
    ∃ log s answer s', ∃ numbers : List Nat,
      Run.all StoreCall.run calls Store.empty = (log, s) ∧ call.run s = (answer, s') ∧
      (∀ c k document, s.document? c k = some document → ∃ fields, ∃ number : Nat,
        document = .object fields ∧
        Entries.find? "_key" fields = some (.string k) ∧
        Entries.find? "_id" fields = some (.string (documentId c k)) ∧
        Entries.find? "_rev" fields = some (.string (toString number)) ∧
        (keySeparator ∉ c.toList → ∀ query, Text.contains query.text fetchMark = true →
          Entries.find? "ids" query.bindings = some (Json.strings [documentId c k]) →
          s.Returns query [document])) ∧
      (∀ c k c' k' document document', s.document? c k = some document →
        s.document? c' k' = some document' →
        document.stringField? "_rev" = document'.stringField? "_rev" → c = c' ∧ k = k') ∧
      StoreCall.revisions log = numbers.map toString ∧ numbers.Pairwise (· < ·) ∧
      (∀ e, answer = .error e → ∀ c k, s'.document? c k = s.document? c k) ∧
      (∀ c k, call.place? answer ≠ some (c, k) → s'.document? c k = s.document? c k) ∧
      (∀ assigned, answer = .ok (some assigned) → ∃ c k document, ∃ number : Nat,
        call.place? answer = some (c, k) ∧ s'.document? c k = some document ∧
        assigned = ⟨documentId c k, k, toString number⟩ ∧
        document.stringField? "_rev" = some assigned.revision ∧
        ∀ earlier ∈ numbers, earlier < number) ∧
      s.lastKey ≤ calls.length ∧ s.lastRevision ≤ calls.length := by
  obtain ⟨numbers, hnumbered⟩ := numbered_of_calls calls
  have hlength := Run.length_all StoreCall.run calls Store.empty
  have hs : (Run.all StoreCall.run calls Store.empty).2.Consistent :=
    Reached.consistent ⟨calls, rfl⟩
  generalize hrun : Run.all StoreCall.run calls Store.empty = run at hnumbered hlength hs
  obtain ⟨log, s⟩ := run
  have hchange := call.change_run hs.ordered
  refine ⟨log, s, _, _, numbers, rfl, rfl, ?_, ?_, hnumbered.revisions, hnumbered.ascending, ?_,
    ?_, ?_, ?_, ?_⟩
  · intro c k document hfound
    obtain ⟨number, ⟨fields, rfl⟩, -⟩ := hs.stamped hfound
    exact ⟨_, number, rfl, find?_key _ _, find?_id _ _, find?_revision _ _,
      fun hc query hmark hids => hs.returns_of_id hc hfound hmark hids⟩
  · intro c k c' k' document document' hfound hfound' hrevision
    obtain ⟨number, hstamped, -⟩ := hs.stamped hfound
    obtain ⟨number', hstamped', -⟩ := hs.stamped hfound'
    obtain rfl := hstamped.number_eq hstamped' hrevision
    exact hs.distinct hfound hfound' hstamped hstamped'
  · intro e he
    exact call.document?_of_error hs.ordered he
  · exact call.document?_of_place?_ne hs.ordered
  · intro assigned hassigned
    obtain ⟨c, k, document, hplace, hfound, rfl, hrevision⟩ :=
      call.written_of_assigned hs.ordered hassigned
    exact ⟨c, k, document, s.lastRevision + 1, hplace, hfound, rfl, hrevision,
      fun earlier hearlier => Nat.lt_succ_of_le (hnumbered.le_last earlier hearlier)⟩
  · rw [← hlength]
    exact hnumbered.lastKey_le
  · rw [← hlength]
    exact hnumbered.lastRevision_le

/-- Rex is inserted with fields that the store overwrites, and then replaced. -/
def rexCalls : List StoreCall :=
  [.insert "dog" (.object [("_id", .null), ("_key", .string "rex"), ("_rev", .int 7)]),
    .replace "dog" "rex" (.object [("_key", .string "max"), ("age", .int 3)])]

theorem consistent_of_calls_rex :
    ∃ s fields, (Run.all StoreCall.run rexCalls Store.empty).2 = s ∧
      s.document? "dog" "rex" = some (.object fields) ∧
      Entries.find? "_key" fields = some (.string "rex") ∧
      Entries.find? "_id" fields = some (.string "dog/rex") ∧
      s.Returns ⟨"RETURN DOCUMENT(@ids)", [("ids", Json.strings ["dog/rex"])]⟩
        [.object fields] := by
  obtain ⟨log, s, answer, s', numbers, hrun, -, hstored, -⟩ :=
    consistent_of_calls rexCalls (.delete "dog" "max")
  have hs : s = (Run.all StoreCall.run rexCalls Store.empty).2 := by rw [hrun]
  have hfound : s.document? "dog" "rex" =
      some (.object [("_id", .string "dog/rex"), ("_key", .string "rex"),
        ("_rev", .string "2"), ("age", .int 3)]) := by
    rw [hs]
    rfl
  obtain ⟨fields, number, hfields, hkey, hid, -, hreturns⟩ := hstored _ _ _ hfound
  rw [hfields] at hfound hreturns
  exact ⟨s, fields, hs.symm, hfound, hkey, hid, hreturns (by decide) _ (by decide) rfl⟩

end Store
end Pushdown
