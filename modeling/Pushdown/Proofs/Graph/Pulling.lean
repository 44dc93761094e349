import Pushdown.Proofs.Graph.Iteration
import Pushdown.Proofs.Runs
import Pushdown.Store.Memory

/-!
# Pulling items one by one

An iteration is pulled at any times, and between two calls others may use the store as they
like. What it gives is settled by the answer to its query: the items of the rows, cut behind the
first error. The call with a number gives the item with that number, and beyond the last item
there is none for ever. The query of an iteration over elements is sent by its first call and by no
other; that of an iteration over rows is sent before it is made.

## Results

* `ElementIteration.itemsOf_eq`: the items of an answer, without the recursion that finds them;
* `ElementIteration.pulled_of_answered`: the calls after the answer;
* `Graph.query_eq`, `RowIteration.pulled`: an iteration over rows and its calls;
* `Iteration.pulls_give_items`: all calls, with what they send.
-/

namespace Pushdown

namespace Iteration

variable {α : Type}

/-- Items up to the first error, with it. -/
def cutBehindError (items : List (Result α)) : List (Result α) :=
  items.takeWhile Except.isOk ++ (items.dropWhile Except.isOk).take 1

/-- What the answer to a query gives, where every row is turned into an item or passed over. -/
def answerItems (ofRow : StoreRow → Option (Result α)) :
    Except StoreError (List StoreRow) → List (Result α)
  | .error e => [.error (.execution e)]
  | .ok rows => cutBehindError (rows.filterMap ofRow)

/-- The item of a row of elements; none if the element fails the re-check. -/
def elementOf (config : GraphConfig) (residual : List HasContainer) :
    StoreRow → Option (Result Element)
  | .error e => some (.error (.execution e))
  | .ok json =>
      match config.decodeElementRow json with
      | .error e => some (.error e)
      | .ok element =>
          match config.testContainers element residual with
          | .error e => some (.error e)
          | .ok true => some (.ok element)
          | .ok false => none

/-- The item of a row of any form. -/
def rowOf (config : GraphConfig) : StoreRow → Option (Result Row)
  | .error e => some (.error (.execution e))
  | .ok json => some (config.decodeRow json)

/-- The answers of some calls: the first gives the first item, and so on. -/
def inTurn (items : List (Result α)) (count : Nat) : List (Option (Result α)) :=
  (List.range count).map fun k => items[k]?

@[simp] theorem cutBehindError_nil : cutBehindError ([] : List (Result α)) = [] := rfl

@[simp] theorem cutBehindError_error (e : GraphError) (items : List (Result α)) :
    cutBehindError (.error e :: items) = [.error e] := rfl

@[simp] theorem cutBehindError_ok (a : α) (items : List (Result α)) :
    cutBehindError (.ok a :: items) = .ok a :: cutBehindError items := rfl

theorem inTurn_succ (items : List (Result α)) (count : Nat) :
    inTurn items (count + 1) = items.head? :: inTurn items.tail count := by
  simp [inTurn, List.range_succ_eq_map, Function.comp_def, List.head?_eq_getElem?]

end Iteration

open Iteration

/-- A store that is watched: with the queries that an iteration sends to it. -/
structure Watched (σ : Type) where
  store : σ
  sent : List Query

namespace Watched

variable {σ α : Type}

/-- Act on the store that is watched. -/
def onStore (action : StoreAction σ α) : StoreAction (Watched σ) α := fun w =>
  let (answer, s) := action w.store
  (answer, ⟨s, w.sent⟩)

/-- Others use the store; what they send is not noted. -/
def use (other : σ → σ) (w : Watched σ) : Watched σ := ⟨other w.store, w.sent⟩

instance [Client σ] : Client (Watched σ) where
  query q w := onStore (Client.query q) ⟨w.store, w.sent ++ [q]⟩
  insert collection document := onStore (Client.insert collection document)
  replace collection key document := onStore (Client.replace collection key document)
  delete collection key := onStore (Client.delete collection key)
  get collection key := onStore (Client.get collection key)
  ensureCollection collection := onStore (Client.ensureCollection collection)

theorem query_eq [Client σ] (q : Query) (w : Watched σ) :
    Client.query q w =
      ((Client.query q w.store).1, ⟨(Client.query q w.store).2, w.sent ++ [q]⟩) := rfl

end Watched

namespace ElementIteration

/-- The items of the rows of an answer are those of the rows one by one. -/
theorem itemsOf_eq (it : ElementIteration) :
    ∀ rows : List StoreRow,
      itemsOf it.accept rows = answerItems (elementOf it.config it.residual) (.ok rows)
  | [] => rfl
  | .error e :: rows => rfl
  | .ok row :: rows => by
      have ih := itemsOf_eq it rows
      rw [answerItems] at ih
      rw [itemsOf, accept, answerItems, List.filterMap_cons, elementOf]
      cases it.config.decodeElementRow row with
      | error e => rfl
      | ok element =>
          dsimp only [bind, Except.bind]
          cases it.config.testContainers element it.residual with
          | error e => rfl
          | ok keep =>
              cases keep with
              | true => exact congrArg (.ok element :: ·) ih
              | false => exact ih

variable {σ : Type} [Client σ]

/-- A call, after others have used the store. -/
def pull (other : σ → σ) : ElementIteration × Watched σ →
    Option (Result Element) × (ElementIteration × Watched σ)
  | (it, w) =>
      let ((answer, it), w) := it.next (w.use other)
      (answer, (it, w))

-- By induction on the calls: each takes the first of the items that are left.
/-- The calls after the answer give what is left, and send nothing. -/
theorem pulled_of_answered :
    ∀ (others : List (σ → σ)) (it : ElementIteration) (w : Watched σ), Answered it.state →
      (Run.all pull others (it, w)).1.map Prod.snd =
          inTurn (it.itemsLeft it.state) others.length ∧
        (Run.all pull others (it, w)).2.2.sent = w.sent
  | [], _, _, _ => ⟨rfl, rfl⟩
  | other :: others, it, w, h => by
      obtain ⟨state, hanswered, hnext, hleft⟩ := next_eq it (w.use other) h
      obtain ⟨hanswers, hsent⟩ :=
        pulled_of_answered others { it with state := state } (w.use other) hanswered
      rw [Run.all, pull, hnext]
      refine ⟨?_, hsent⟩
      rw [List.map_cons, hanswers, List.length_cons, inTurn_succ, ← hleft]
      rfl

/-- The first call sends the query, and gives the first item of the answer. -/
theorem pull_pending (config : GraphConfig) (residual : List HasContainer) {query : Query}
    {other : σ → σ} {s mid : σ} {answer : Except StoreError (List StoreRow)}
    (hquery : Client.query query (other s) = (answer, mid)) (sent : List Query) :
    ∃ state, Answered state ∧
      pull other (⟨config, residual, .pending query⟩, ⟨s, sent⟩) =
        ((answerItems (elementOf config residual) answer).head?,
          (⟨config, residual, state⟩, ⟨mid, sent ++ [query]⟩)) ∧
      itemsLeft ⟨config, residual, state⟩ state =
        (answerItems (elementOf config residual) answer).tail := by
  have hwatched : Client.query query (Watched.use other ⟨s, sent⟩) =
      (answer, (⟨mid, sent ++ [query]⟩ : Watched σ)) := by
    rw [Watched.query_eq, Watched.use, hquery]
  cases answer with
  | error e =>
      refine ⟨.done, trivial, ?_, rfl⟩
      simp only [pull, next, hwatched]
      rfl
  | ok rows =>
      obtain ⟨state, hanswered, hadvance, hleft⟩ :=
        advance_eq ⟨config, residual, .pending query⟩ rows
      rw [itemsOf_eq] at hadvance hleft
      refine ⟨state, hanswered, ?_, hleft⟩
      simp only [pull, next, hwatched, after, hadvance]

end ElementIteration

namespace RowIteration

/-- A call gives the first item and keeps the others. -/
theorem next_eq (it : RowIteration) :
    ∃ rows,
      it.next = ((answerItems (rowOf it.config) (.ok it.rows)).head?, { it with rows := rows }) ∧
        answerItems (rowOf it.config) (.ok rows) =
          (answerItems (rowOf it.config) (.ok it.rows)).tail := by
  obtain ⟨config, rows⟩ := it
  match rows with
  | [] => exact ⟨[], rfl, rfl⟩
  | .error e :: rows => exact ⟨[], rfl, rfl⟩
  | .ok json :: rows =>
      simp only [next, answerItems, List.filterMap_cons, rowOf]
      cases config.decodeRow json with
      | error e => exact ⟨[], rfl, rfl⟩
      | ok row => exact ⟨rows, rfl, rfl⟩

variable {σ : Type}

/-- A call, after others have used the store. -/
def pull (other : σ → σ) : RowIteration × Watched σ →
    Option (Result Row) × (RowIteration × Watched σ)
  | (it, w) =>
      let (answer, it) := it.next
      (answer, (it, w.use other))

/-- The calls of an iteration over rows give the items of its rows, and send nothing. -/
theorem pulled :
    ∀ (others : List (σ → σ)) (it : RowIteration) (w : Watched σ),
      (Run.all pull others (it, w)).1.map Prod.snd =
          inTurn (answerItems (rowOf it.config) (.ok it.rows)) others.length ∧
        (Run.all pull others (it, w)).2.2.sent = w.sent
  | [], _, _ => ⟨rfl, rfl⟩
  | other :: others, it, w => by
      obtain ⟨rows, hnext, hleft⟩ := next_eq it
      obtain ⟨hanswers, hsent⟩ := pulled others { it with rows := rows } (w.use other)
      rw [Run.all, pull, hnext]
      refine ⟨?_, hsent⟩
      rw [List.map_cons, hanswers, List.length_cons, inTurn_succ, ← hleft]

end RowIteration

/-- A query of any text is sent at once. -/
theorem Graph.query_eq {σ : Type} [Client σ] (graph : Graph) (query : Query) (s : σ)
    (sent : List Query) :
    graph.query query (⟨s, sent⟩ : Watched σ) =
      ((match (Client.query query s).1 with
        | .ok rows => .ok ⟨graph.config, rows⟩
        | .error e => .error (.execution e)),
        ⟨(Client.query query s).2, sent ++ [query]⟩) := by
  rw [Graph.query, GraphAction.bind_apply, onStore, Watched.query_eq]
  cases (Client.query query s).1 with
  | error e => rfl
  | ok rows => rfl

namespace Iteration

variable {σ : Type} [Client σ]

/-- However often an iteration over elements is called, and whatever others do to the store
before each call: before the first call no query is sent, and the calls together send that of the
iteration once. They give, in the order of the rows, the elements that pass the re-check, up to
the first error of the query, of a row, of its decoding or of the re-check, then that error, and
nothing from then on. An iteration over rows is made with the answer to its query, which is sent
there, once; if the query fails, there is none. Its calls send nothing, and give the rows in the
same way, without a re-check. -/
theorem pulls_give_items (graph : Graph) (query : Query) (s : σ) (others : List (σ → σ)) :
    (∀ residual : List HasContainer,
      let run := Run.all ElementIteration.pull others (graph.iteration residual query, ⟨s, []⟩)
      run.2.2.sent = (others.take 1).map (fun _ => query) ∧
      ∀ first ∈ others.head?,
        run.1.map Prod.snd =
          inTurn (answerItems (elementOf graph.config residual) (Client.query query (first s)).1)
            others.length) ∧
    let made := graph.query query (⟨s, []⟩ : Watched σ)
    made.2.sent = [query] ∧
    match (Client.query query s).1 with
    | .error e => made.1 = .error (.execution e)
    | .ok rows => ∃ it, made.1 = .ok it ∧
        let run := Run.all RowIteration.pull others (it, made.2)
        run.2.2.sent = [query] ∧
        run.1.map Prod.snd =
          inTurn (answerItems (rowOf graph.config) (.ok rows)) others.length := by
  refine ⟨fun residual => ?_, ?_⟩
  · cases others with
    | nil => exact ⟨rfl, fun _ h => absurd h (Option.not_mem_none _)⟩
    | cons first others =>
        obtain ⟨state, hanswered, hpull, hleft⟩ :=
          ElementIteration.pull_pending graph.config residual
            (Prod.eta (Client.query query (first s))).symm []
        obtain ⟨hanswers, hsent⟩ :=
          ElementIteration.pulled_of_answered others ⟨graph.config, residual, state⟩
            ⟨(Client.query query (first s)).2, [query]⟩ hanswered
        dsimp only
        rw [Run.all, Graph.iteration, hpull]
        refine ⟨hsent, ?_⟩
        rintro _ ⟨⟩
        rw [List.length_cons, inTurn_succ, ← hleft]
        exact congrArg (_ :: ·) hanswers
  · dsimp only
    rw [Graph.query_eq]
    cases (Client.query query s).1 with
    | error e => exact ⟨rfl, rfl⟩
    | ok rows =>
        obtain ⟨hanswers, hsent⟩ :=
          RowIteration.pulled others ⟨graph.config, rows⟩ ⟨(Client.query query s).2, [query]⟩
        exact ⟨rfl, _, rfl, hsent, hanswers⟩

/-- An iteration over rows has sent no query before it is called. -/
def UnsentWhenMade (graph : Graph) (query : Query) (s : σ) : Prop :=
  ∀ it w, graph.query query (⟨s, []⟩ : Watched σ) = (.ok it, w) → w.sent = []

/-- The query of an iteration over rows is sent although no call was made. -/
theorem not_unsentWhenMade :
    ¬ UnsentWhenMade ⟨GraphConfig.initial⟩ ⟨"RETURN 1", []⟩
      (Store.empty.respond "RETURN 1" []) := by
  intro h
  cases h ⟨GraphConfig.initial, []⟩ _ rfl

end Iteration
end Pushdown
