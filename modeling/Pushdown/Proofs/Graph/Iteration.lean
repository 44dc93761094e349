import Pushdown.Graph.Run
import Pushdown.Proofs.Outcome

/-!
# What iterations give

An iteration over elements passes over the rows of an answer one by one. All that it will
give is known once the query is answered: the elements of the rows that pass the re-check, up
to the first error. Pulling takes the first of these items, and keeps the others.

## Results

* `ElementIteration.next_eq`: one pull;
* `ElementIteration.take_eq`, `ElementIteration.drain_eq`: several pulls, and all of them;
* `Graph.mem_collected_iff`, `Graph.mem_passing_iff`: the elements that are found;
* `Graph.filtered_eq_ok_iff`: a scan with further containers, step by step.
-/

namespace Pushdown

namespace ElementIteration

/-- The items of the rows of an answer, up to the first error. -/
def itemsOf (accept : Json → Result (Option Element)) : List StoreRow → List (Result Element)
  | [] => []
  | .error e :: _ => [.error (.execution e)]
  | .ok row :: rows =>
      match accept row with
      | .error e => [.error e]
      | .ok (some element) => .ok element :: itemsOf accept rows
      | .ok none => itemsOf accept rows

/-- Whether the query of an iteration was answered. -/
def Answered : IterationState → Prop
  | .pending _ => False
  | _ => True

/-- The items that are still to come once the query was answered. -/
def itemsLeft (it : ElementIteration) : IterationState → List (Result Element)
  | .running rows => itemsOf it.accept rows
  | _ => []

theorem length_itemsOf_le (accept : Json → Result (Option Element)) :
    ∀ rows : List StoreRow, (itemsOf accept rows).length ≤ rows.length
  | [] => Nat.le_refl 0
  | .error e :: rows => by simp [itemsOf]
  | .ok row :: rows => by
      have := length_itemsOf_le accept rows
      rw [itemsOf, List.length_cons]
      split
      · simp
      · rw [List.length_cons]
        omega
      · omega

theorem length_itemsLeft_le (it : ElementIteration) (state : IterationState) :
    (it.itemsLeft state).length ≤ remaining { it with state := state } := by
  cases state with
  | running rows => exact length_itemsOf_le it.accept rows
  | pending query => exact Nat.le_refl 0
  | done => exact Nat.le_refl 0

/-- Advancing gives the first item of the rows and keeps the others. -/
theorem advance_eq (it : ElementIteration) :
    ∀ rows : List StoreRow, ∃ state, Answered state ∧
      it.advance rows = ((itemsOf it.accept rows).head?, state) ∧
      it.itemsLeft state = (itemsOf it.accept rows).tail
  | [] => ⟨.running [], trivial, rfl, rfl⟩
  | .error e :: _ => ⟨.done, trivial, rfl, rfl⟩
  | .ok row :: rows => by
      rw [advance, itemsOf]
      cases it.accept row with
      | error e => exact ⟨.done, trivial, rfl, rfl⟩
      | ok found =>
          cases found with
          | some element => exact ⟨.running rows, trivial, rfl, rfl⟩
          | none => exact advance_eq it rows

variable {σ : Type} [Client σ]

/-- A pull after the answer gives the first item and keeps the others. -/
theorem next_eq (it : ElementIteration) (s : σ) (h : Answered it.state) :
    ∃ state, Answered state ∧
      it.next s = (((it.itemsLeft it.state).head?, { it with state := state }), s) ∧
      it.itemsLeft state = (it.itemsLeft it.state).tail := by
  obtain ⟨config, residual, state⟩ := it
  cases state with
  | pending query => cases h
  | done => exact ⟨.done, trivial, rfl, rfl⟩
  | running rows =>
      obtain ⟨state, hanswered, hadvance, hleft⟩ :=
        advance_eq ⟨config, residual, .running rows⟩ rows
      refine ⟨state, hanswered, ?_, hleft⟩
      simp only [next, after, hadvance]
      rfl

/-- Pulls after the answer give the first items. -/
theorem take_eq :
    ∀ (count : Nat) (it : ElementIteration) (s : σ), Answered it.state →
      ∃ ended, take count it s = (((it.itemsLeft it.state).take count, ended), s)
  | 0, _, _, _ => ⟨false, rfl⟩
  | count + 1, it, s, h => by
      obtain ⟨state, hanswered, hnext, hleft⟩ := next_eq it s h
      rw [take, hnext]
      cases hitems : it.itemsLeft it.state with
      | nil => exact ⟨true, rfl⟩
      | cons item items =>
          rw [hitems, List.tail_cons] at hleft
          obtain ⟨ended, htake⟩ := take_eq count { it with state := state } s hanswered
          refine ⟨ended, ?_⟩
          simp only [List.head?_cons, htake, List.take_succ_cons]
          rw [← hleft]
          rfl

/-- Pulling all items gives those of the rows of the answer. -/
theorem drain_eq {it : ElementIteration} {query : Query} {s s' : σ} {rows : List StoreRow}
    (hstate : it.state = .pending query) (hquery : Client.query query s = (.ok rows, s')) :
    it.drain s = (itemsOf it.accept rows, s') := by
  obtain ⟨state, hanswered, hadvance, hleft⟩ := advance_eq it rows
  have hnext : it.next s =
      (((itemsOf it.accept rows).head?, { it with state := state }), s') := by
    simp only [next, hstate, hquery, after, hadvance]
  rw [drain, hnext]
  cases hitems : itemsOf it.accept rows with
  | nil => rfl
  | cons item items =>
      rw [hitems, List.tail_cons] at hleft
      -- there are no more items than rows, so that the pulls reach the end
      have hlength := length_itemsLeft_le it state
      rw [hleft] at hlength
      obtain ⟨ended, htake⟩ := take_eq (remaining { it with state := state } + 1)
        { it with state := state } s' hanswered
      simp only [List.head?_cons, htake]
      have hall : items.take (remaining { it with state := state } + 1) = items :=
        List.take_of_length_le (by omega)
      rw [show itemsLeft { it with state := state } state = items from hleft, hall]

end ElementIteration

theorem GraphAction.pure_apply {σ α : Type} (a : α) (s : σ) :
    (pure a : GraphAction σ α) s = (.ok a, s) := rfl

/-- An action goes on with what the one before it gave. -/
theorem GraphAction.bind_apply {σ α β : Type} (action : GraphAction σ α)
    (f : α → GraphAction σ β) (s : σ) :
    (action >>= f) s =
      match action s with
      | (.ok a, mid) => f a mid
      | (.error e, mid) => (.error e, mid) := by
  show ExceptT.bindCont f (action s).1 (action s).2 = _
  split
  · next h => rw [h]; rfl
  · next h => rw [h]; rfl

/-- An operation of the store succeeds as an action of a graph when it does. -/
theorem GraphAction.onStore_eq_ok_iff {σ α : Type} {action : StoreAction σ α} {a : α} {s s' : σ} :
    onStore action s = (.ok a, s') ↔ action s = (.ok a, s') := by
  unfold onStore
  constructor
  · intro h
    split at h
    · next heq =>
      cases h
      exact heq
    · cases h
  · intro h
    rw [h]

/-- When it fails, it does so in the execution. -/
theorem GraphAction.of_onStore_error {σ α : Type} {action : StoreAction σ α} {e : GraphError}
    {s s' : σ} (h : onStore action s = (.error e, s')) :
    ∃ fault, action s = (.error fault, s') := by
  unfold onStore at h
  split at h
  · cases h
  · next fault last heq =>
    cases h
    exact ⟨fault, heq⟩

namespace Graph

open ElementIteration

variable {accept : Json → Result (Option Element)}

theorem exists_accepted_cons {element : Element} {row : Json} {rows : List StoreRow} :
    (∃ json, .ok json ∈ (.ok row :: rows : List StoreRow) ∧ accept json = .ok (some element)) ↔
      accept row = .ok (some element) ∨
        ∃ json, .ok json ∈ rows ∧ accept json = .ok (some element) := by
  simp [or_and_right, exists_or]

/-- Without an error, every item is an element of a row that is accepted. -/
theorem mem_collected_iff {element : Element} :
    ∀ {rows : List StoreRow} {elements : List Element},
      collected (itemsOf accept rows) = .ok elements →
        (element ∈ elements ↔ ∃ row, .ok row ∈ rows ∧ accept row = .ok (some element))
  | [], elements, h => by
      cases h
      simp
  | .error e :: rows, elements, h => by cases h
  | .ok row :: rows, elements, h => by
      rw [itemsOf] at h
      rw [exists_accepted_cons]
      cases hrow : accept row with
      | error e =>
          rw [hrow] at h
          cases h
      | ok found =>
          rw [hrow] at h
          cases found with
          | none =>
              rw [mem_collected_iff h]
              simp
          | some first =>
              dsimp only at h
              rw [collected] at h
              split at h
              · next rest hrest =>
                cases h
                rw [List.mem_cons, mem_collected_iff hrest, eq_comm]
                simp
              · cases h

/-- Rows that are all decided make up a list of elements. -/
theorem collected_total :
    ∀ {rows : List Json}, (∀ row ∈ rows, ∃ found, accept row = .ok found) →
      ∃ elements, collected (itemsOf accept (rows.map .ok)) = .ok elements
  | [], _ => ⟨[], rfl⟩
  | row :: rows, h => by
      obtain ⟨found, hfound⟩ := h row List.mem_cons_self
      obtain ⟨elements, helements⟩ :=
        collected_total fun json hjson => h json (List.mem_cons_of_mem row hjson)
      rw [List.map_cons, itemsOf, hfound]
      cases found with
      | none => exact ⟨elements, helements⟩
      | some first =>
          refine ⟨first :: elements, ?_⟩
          simp only [collected, helements]

variable {config : GraphConfig}

/-- Whether an element passes a container. -/
def Passes (config : GraphConfig) (container : HasContainer) (element : Element) : Prop :=
  config.testContainer container element = .ok true

theorem testContainers_eq_true_iff {element : Element} :
    ∀ {containers : List HasContainer},
      config.testContainers element containers = .ok true ↔
        ∀ c ∈ containers, Passes config c element
  | [] => by simp [GraphConfig.testContainers]
  | container :: containers => by
      rw [GraphConfig.testContainers, List.forall_mem_cons, Passes,
        ← testContainers_eq_true_iff]
      cases config.testContainer container element with
      | error e => simp
      | ok keep => cases keep <;> simp

/-- A row is accepted as its element when that passes the re-check. -/
theorem accept_eq_some_iff {it : ElementIteration} {row : Json} {element : Element} :
    it.accept row = .ok (some element) ↔
      it.config.decodeElementRow row = .ok element ∧
        ∀ c ∈ it.residual, Passes it.config c element := by
  rw [← testContainers_eq_true_iff]
  unfold ElementIteration.accept
  constructor
  · intro h
    obtain ⟨decoded, hdecoded, h⟩ := Outcome.bind_eq_ok_iff.mp h
    obtain ⟨keep, hkeep, h⟩ := Outcome.bind_eq_ok_iff.mp h
    cases keep with
    | true =>
        cases h
        exact ⟨hdecoded, hkeep⟩
    | false => cases h
  · rintro ⟨hdecoded, hkeep⟩
    exact Outcome.bind_eq_ok_iff.mpr ⟨element, hdecoded,
      Outcome.bind_eq_ok_iff.mpr ⟨true, hkeep, rfl⟩⟩

/-- A list that is kept in part, item by item. -/
theorem mem_keep_iff {α : Type} {P : α → Prop} {x first : α} {rest kept : List α} {keep : Bool}
    (hrest : x ∈ kept ↔ x ∈ rest ∧ P x) (hfirst : keep = true ↔ P first) :
    x ∈ (if keep = true then first :: kept else kept) ↔ x ∈ first :: rest ∧ P x := by
  cases keep with
  | true =>
      rw [if_pos rfl, List.mem_cons, List.mem_cons, hrest, or_and_right]
      refine or_congr_left ⟨?_, And.left⟩
      rintro rfl
      exact ⟨rfl, hfirst.mp rfl⟩
  | false =>
      rw [if_neg Bool.false_ne_true, hrest, List.mem_cons, or_and_right]
      refine (or_iff_right ?_).symm
      rintro ⟨rfl, hpass⟩
      exact Bool.false_ne_true (hfirst.mpr hpass)

/-- Without an error, the elements that are left are those that pass every container. -/
theorem mem_passing_iff {containers : List HasContainer} (element : Element) :
    ∀ {elements found : List Element}, passing config containers elements = .ok found →
      (element ∈ found ↔ element ∈ elements ∧ ∀ c ∈ containers, Passes config c element)
  | [], found, h => by
      cases h
      simp
  | first :: elements, found, h => by
      rw [passing] at h
      split at h
      · cases h
      · next keep hkeep =>
        split at h
        · cases h
        · next rest hrest =>
          cases h
          have hfirst : keep = true ↔ ∀ c ∈ containers, Passes config c first := by
            rw [← testContainers_eq_true_iff, hkeep, Except.ok.injEq]
          exact mem_keep_iff (P := fun e => ∀ c ∈ containers, Passes config c e)
            (mem_passing_iff element hrest) hfirst

theorem passing_nil : ∀ elements : List Element, passing config [] elements = .ok elements
  | [] => rfl
  | element :: elements => by
      rw [passing, passing_nil elements]
      rfl

variable {σ : Type}

theorem bind_eq_ok_iff {α β : Type} {action : GraphAction σ α} {f : α → GraphAction σ β} {b : β}
    {s s' : σ} :
    (action >>= f) s = (.ok b, s') ↔
      ∃ a mid, action s = (.ok a, mid) ∧ f a mid = (.ok b, s') := by
  rw [GraphAction.bind_apply]
  obtain ⟨answer, mid⟩ := action s
  cases answer with
  | error e =>
      constructor
      · intro h
        cases h
      · rintro ⟨a, last, h, -⟩
        cases h
  | ok a =>
      constructor
      · intro h
        exact ⟨a, mid, rfl, h⟩
      · rintro ⟨a', last, h, hf⟩
        cases h
        exact hf

theorem result_eq_ok_iff {α : Type} {r : Result α} {a : α} {s s' : σ} :
    result r s = (.ok a, s') ↔ r = .ok a ∧ s = s' := by
  unfold result
  constructor
  · intro h
    cases h
    exact ⟨rfl, rfl⟩
  · rintro ⟨rfl, rfl⟩
    rfl

/-- A sequence fails in one of its actions. -/
theorem of_bind_eq_error {α β : Type} {action : GraphAction σ α} {f : α → GraphAction σ β}
    {e : GraphError} {s s' : σ} (h : (action >>= f) s = (.error e, s')) :
    action s = (.error e, s') ∨ ∃ a mid, action s = (.ok a, mid) ∧ f a mid = (.error e, s') := by
  rw [GraphAction.bind_apply] at h
  split at h
  · next a mid heq => exact .inr ⟨a, mid, heq, h⟩
  · next fault mid heq =>
    cases h
    exact .inl heq

theorem eq_of_result {α : Type} {r : Result α} {outcome : Result α} {s s' : σ}
    (h : result r s = (outcome, s')) : s' = s := by
  cases h
  rfl

/-- A run that is seen to succeed gives a value. -/
theorem exists_of_toBool {α : Type} (run : Except GraphError α × σ)
    (h : run.1.toBool = true) : ∃ a s, run = (.ok a, s) := by
  obtain ⟨answer, s⟩ := run
  cases answer with
  | error e => cases h
  | ok a => exact ⟨a, s, rfl⟩

variable [Client σ]

/-- A scan with further containers is decoded, re-checked, and tested against these. -/
theorem filtered_eq_ok_iff {graph : Graph} {scan : Scan} {containers : List HasContainer}
    {found : List Element} {s s' : σ} :
    graph.filtered scan containers s = (.ok found, s') ↔
      ∃ it elements, graph.scan scan = .ok it ∧ collected (it.drain s).1 = .ok elements ∧
        passing graph.config containers elements = .ok found ∧ (it.drain s).2 = s' := by
  unfold filtered
  simp only [bind_eq_ok_iff, result_eq_ok_iff]
  constructor
  · rintro ⟨it, mid, ⟨hscan, rfl⟩, items, after, hdrain, elements, last, ⟨hcollected, rfl⟩,
      hpassing, rfl⟩
    cases hdrain
    exact ⟨it, elements, hscan, hcollected, hpassing, rfl⟩
  · rintro ⟨it, elements, hscan, hcollected, hpassing, rfl⟩
    exact ⟨it, s, ⟨hscan, rfl⟩, _, _, rfl, elements, _, ⟨hcollected, rfl⟩, hpassing, rfl⟩

end Graph
end Pushdown
