import Pushdown.Proofs.Entries.Order
import Pushdown.Store.Memory

/-!
# Writing into the store

An insertion stores the document with what the store assigned to it, under a key that was
free, and a replacement stores it under a key that was taken. Neither changes another document,
nor does a deletion. A call that fails changes no document.

## Results

* `Store.of_insert`, `Store.of_replace`: what is assigned to a document, and the documents after
  it is written;
* `Store.document?_of_insert_error`, `Store.of_replace_error`: the documents after a failed call;
* `Store.of_delete`, `Store.of_delete_error`: the documents after a deletion.
-/

namespace Pushdown
namespace Store

variable {collection : String} {documents : Entries Json} {s s' : Store}

/-- The documents of the collections of a store. -/
theorem documents_insert (collections : Entries (Entries Json))
    (h : s.collections = Entries.insert collection documents collections) (other : String) :
    s.documents other =
      if other = collection then documents else (Entries.find? other collections).getD [] := by
  unfold Store.documents
  rw [h]
  split
  · next hother =>
    rw [hother, Entries.find?_insert_self]
    rfl
  · next hother => rw [Entries.find?_insert_of_ne _ _ hother]

/-- Writing the documents of a collection back changes none. -/
theorem document?_of_same
    (h : s'.collections = Entries.insert collection (s.documents collection) s.collections)
    (c key : String) : s'.document? c key = s.document? c key := by
  unfold document?
  rw [documents_insert _ h]
  split
  · next hc => rw [hc]
  · rfl

/-- The fields of a document with what the store assigned to it. -/
def stamped (fields : Entries Json) (assigned : DocumentMeta) : Entries Json :=
  Entries.insert "_rev" (.string assigned.revision)
    (Entries.insert "_id" (.string assigned.id)
      (Entries.insert "_key" (.string assigned.key) fields))

section stamped

variable (fields : Entries Json) (assigned : DocumentMeta)

theorem find?_revision :
    Entries.find? "_rev" (stamped fields assigned) = some (.string assigned.revision) :=
  Entries.find?_insert_self _ _ _

theorem find?_id : Entries.find? "_id" (stamped fields assigned) = some (.string assigned.id) := by
  rw [stamped, Entries.find?_insert_of_ne _ _ (by decide), Entries.find?_insert_self]

theorem find?_key :
    Entries.find? "_key" (stamped fields assigned) = some (.string assigned.key) := by
  rw [stamped, Entries.find?_insert_of_ne _ _ (by decide),
    Entries.find?_insert_of_ne _ _ (by decide), Entries.find?_insert_self]

/-- Other fields are as they were. -/
theorem find?_stamped {key : String} (h : key ∉ ["_rev", "_id", "_key"]) :
    Entries.find? key (stamped fields assigned) = Entries.find? key fields := by
  simp only [List.mem_cons, List.not_mem_nil, or_false, not_or] at h
  rw [stamped, Entries.find?_insert_of_ne _ _ h.1, Entries.find?_insert_of_ne _ _ h.2.1,
    Entries.find?_insert_of_ne _ _ h.2.2]

end stamped

/-- A document was written, and no other one changed. -/
structure Writes (collection key : String) (document : Json) (s s' : Store) : Prop where
  stored : s'.document? collection key = some document
  others : ∀ c k, c ≠ collection ∨ k ≠ key → s'.document? c k = s.document? c k

/-- A document that is stored under its key is written. -/
theorem Writes.of_collections {key : String} {document : Json}
    {collections : Entries (Entries Json)}
    (hothers : ∀ c, c ≠ collection →
      Entries.find? c collections = Entries.find? c s.collections)
    (h : s'.collections =
      Entries.insert collection (Entries.insert key document (s.documents collection))
        collections) : Writes collection key document s s' := by
  have hdocuments := documents_insert _ h
  refine ⟨?_, ?_⟩
  · rw [document?, hdocuments, if_pos rfl]
    exact Entries.find?_insert_self _ _ _
  · intro c k hne
    rw [document?, document?, hdocuments]
    split
    · next hc =>
      rw [Entries.find?_insert_of_ne _ _ (hne.resolve_left fun hother => hother hc), hc]
    · next hc =>
      rw [hothers c hc]
      rfl

/-- A document was deleted, and no other one changed. -/
structure Drops (collection key : String) (s s' : Store) : Prop where
  dropped : s'.document? collection key = none
  others : ∀ c k, c ≠ collection ∨ k ≠ key → s'.document? c k = s.document? c k

/-- What an insertion assigns, and what it makes of the collections. -/
theorem collections_of_insert {fields : Entries Json} {assigned : DocumentMeta}
    (h : insert collection (.object fields) s = (.ok assigned, s')) :
    assigned = s.assign collection (s.keyFor fields).1 ∧
      s.document? collection assigned.key = none ∧
      s'.collections = Entries.insert collection
        (Entries.insert assigned.key (.object (stamped fields assigned)) (s.documents collection))
        (Entries.insert collection (s.documents collection) s.collections) := by
  unfold insert fieldsOf at h
  dsimp only at h
  split at h
  · cases h
  · next hfree =>
    obtain ⟨hassigned, hs⟩ := Prod.mk.inj h
    replace hassigned : s.assign collection (s.keyFor fields).1 = assigned :=
      Except.ok.inj hassigned
    rw [Entries.contains, Option.not_isSome_iff_eq_none] at hfree
    refine ⟨hassigned.symm, ?_, ?_⟩
    · rw [← hassigned]
      exact hfree
    · rw [← hs, ← hassigned]
      rfl

/-- What an insertion assigns, and the documents after it. -/
theorem of_insert {fields : Entries Json} {assigned : DocumentMeta}
    (h : insert collection (.object fields) s = (.ok assigned, s')) :
    assigned.id = documentId collection assigned.key ∧
      assigned.key = (s.keyFor fields).1 ∧
      s.document? collection assigned.key = none ∧
      Writes collection assigned.key (.object (stamped fields assigned)) s s' := by
  obtain ⟨hassigned, hfree, hcollections⟩ := collections_of_insert h
  have hothers : ∀ c, c ≠ collection → Entries.find? c (Entries.insert collection
      (s.documents collection) s.collections) = Entries.find? c s.collections :=
    fun c hc => Entries.find?_insert_of_ne _ _ hc
  exact ⟨by rw [hassigned, assign], by rw [hassigned, assign], hfree,
    .of_collections hothers hcollections⟩

/-- An insertion adds one entry to its collection and none to another. -/
theorem documents_of_insert {fields : Entries Json} {assigned : DocumentMeta}
    (h : insert collection (.object fields) s = (.ok assigned, s')) :
    s'.documents collection =
        Entries.insert assigned.key (.object (stamped fields assigned)) (s.documents collection) ∧
      ∀ c, c ≠ collection → s'.documents c = s.documents c := by
  obtain ⟨-, -, hcollections⟩ := collections_of_insert h
  have hdocuments := documents_insert _ hcollections
  refine ⟨by rw [hdocuments, if_pos rfl], fun c hc => ?_⟩
  rw [hdocuments, if_neg hc, Entries.find?_insert_of_ne _ _ hc, documents]

theorem eq_object_of_fieldsOf {document : Json} {fields : Entries Json}
    (h : fieldsOf document = .ok fields) : document = .object fields := by
  unfold fieldsOf at h
  split at h
  · cases h
    rfl
  · cases h

/-- Only objects are inserted. -/
theorem exists_fields_of_insert {document : Json} {assigned : DocumentMeta}
    (h : insert collection document s = (.ok assigned, s')) :
    ∃ fields, document = .object fields ∧ assigned = s.assign collection (s.keyFor fields).1 := by
  unfold insert at h
  split at h
  · cases h
  · next fields hfields =>
    dsimp only at h
    split at h
    · cases h
    · cases h
      exact ⟨fields, eq_object_of_fieldsOf hfields, rfl⟩

/-- A document can be inserted if the key it brings, or the one assigned to it, is free. -/
theorem exists_insert_of_free (fields : Entries Json)
    (hfree : s.document? collection (s.keyFor fields).1 = none) :
    ∃ s', insert collection (.object fields) s =
      (.ok (s.assign collection (s.keyFor fields).1), s') := by
  have hcontains : Entries.contains (s.keyFor fields).1 (s.documents collection) = false := by
    rw [Entries.contains, ← document?, hfree]
    rfl
  unfold insert fieldsOf
  dsimp only
  rw [hcontains]
  exact ⟨_, rfl⟩

theorem exists_insert {collection key : String} (fields : Entries Json)
    (hkey : Entries.find? "_key" fields = some (.string key))
    (hfree : s.document? collection key = none) :
    ∃ s', insert collection (.object fields) s = (.ok (s.assign collection key), s') := by
  have hkeyFor : (s.keyFor fields).1 = key := by
    rw [keyFor, hkey]
    rfl
  rw [← hkeyFor] at hfree ⊢
  exact exists_insert_of_free fields hfree

/-- A document is refused if its key is taken. -/
theorem exists_insert_error_of_taken (fields : Entries Json)
    (htaken : (s.document? collection (s.keyFor fields).1).isSome = true) :
    ∃ s', insert collection (.object fields) s =
      (.error ⟨.uniqueConstraint, documentId collection (s.keyFor fields).1⟩, s') := by
  have hcontains : Entries.contains (s.keyFor fields).1 (s.documents collection) = true := htaken
  unfold insert fieldsOf
  dsimp only
  rw [hcontains]
  exact ⟨_, rfl⟩

/-- A failed insertion changes no document. -/
theorem document?_of_insert_error {document : Json} {e : StoreError}
    (h : insert collection document s = (.error e, s')) (c key : String) :
    s'.document? c key = s.document? c key := by
  unfold insert at h
  split at h
  · cases h
    rfl
  · dsimp only at h
    split at h
    · cases h
      exact document?_of_same rfl c key
    · cases h

/-- What a replacement assigns, and the documents after it. -/
theorem of_replace {key : String} {document : Json} {assigned : DocumentMeta}
    (h : replace collection key document s = (.ok assigned, s')) :
    assigned = s.assign collection key ∧ (s.document? collection key).isSome = true ∧
      ∃ fields, document = .object fields ∧
        Writes collection key (.object (stamped fields assigned)) s s' := by
  unfold replace at h
  split at h
  · cases h
  · next fields hfields =>
    dsimp only at h
    split at h
    · next htaken =>
      obtain ⟨hassigned, hs⟩ := Prod.mk.inj h
      replace hassigned : s.assign collection key = assigned := Except.ok.inj hassigned
      refine ⟨hassigned.symm, htaken, fields, eq_object_of_fieldsOf hfields,
        .of_collections (fun c _ => rfl) ?_⟩
      rw [← hs, ← hassigned]
      rfl
    · cases h

/-- A document that is there can be replaced. -/
theorem exists_replace {key : String} (h : (s.document? collection key).isSome = true)
    (fields : Entries Json) :
    ∃ s', replace collection key (.object fields) s = (.ok (s.assign collection key), s') := by
  have htaken : Entries.contains key (s.documents collection) = true := h
  unfold replace fieldsOf
  dsimp only
  rw [if_pos htaken]
  exact ⟨_, rfl⟩

/-- A failed replacement leaves the store as it was. -/
theorem of_replace_error {key : String} {document : Json} {e : StoreError}
    (h : replace collection key document s = (.error e, s')) : s' = s := by
  unfold replace at h
  split at h
  · cases h
    rfl
  · dsimp only at h
    split at h
    · cases h
    · cases h
      rfl

/-- The documents after a deletion, if keys are stored in their order. -/
theorem of_delete {key : String} {u : Unit}
    (hascending : Entries.Ascending (s.documents collection))
    (h : delete collection key s = (.ok u, s')) : Drops collection key s s' := by
  unfold delete at h
  dsimp only at h
  split at h
  · obtain ⟨-, hs⟩ := Prod.mk.inj h
    have hcollections : s'.collections = Entries.insert collection
        (Entries.erase key (s.documents collection)) s.collections := by rw [← hs]
    have hdocuments := documents_insert s.collections hcollections
    refine ⟨?_, ?_⟩
    · rw [document?, hdocuments, if_pos rfl]
      exact Entries.find?_erase_self key hascending
    · intro c k hne
      rw [document?, document?, hdocuments]
      split
      · next hc =>
        rw [Entries.find?_erase_of_ne (hne.resolve_left fun hother => hother hc), hc]
      · rfl
  · cases h

/-- A failed deletion leaves the store as it was, and there was nothing to delete. -/
theorem of_delete_error {key : String} {e : StoreError}
    (h : delete collection key s = (.error e, s')) :
    s' = s ∧ e.kind = .notFound ∧ s.document? collection key = none := by
  unfold delete at h
  dsimp only at h
  split at h
  · cases h
  · next hfree =>
    cases h
    rw [Entries.contains, Option.not_isSome_iff_eq_none] at hfree
    exact ⟨rfl, rfl, hfree⟩

end Store
end Pushdown
