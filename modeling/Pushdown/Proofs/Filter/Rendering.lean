import Pushdown.Proofs.Filter.Pieces

/-!
# The pieces of a filter

The text of a filter is written from pieces: its fields are quoted names, its texts quoted
literals, and the rest is fixed text.

## Results

* `Value.render_eq_pieces`, `Filter.render_eq_pieces`: the texts of values and filters;
* `Filter.clause_pieces`: the pieces of a filter form a clause.
-/

namespace Pushdown

namespace Value

mutual

/-- The pieces of a query literal. -/
def pieces : Value → List Piece
  | string value => [.literal value]
  | list items => .plain "[" :: Piece.joined ", " (itemPieces items) ++ [.plain "]"]
  | map entries => .plain "\x7b" :: Piece.joined ", " (entryPieces entries) ++ [.plain "\x7d"]
  | value => [.plain value.render]

/-- The pieces of the items of a list. -/
def itemPieces : List Value → List (List Piece)
  | [] => []
  | item :: items => pieces item :: itemPieces items

/-- The pieces of the entries of a map. -/
def entryPieces : List (String × Value) → List (List Piece)
  | [] => []
  | (key, value) :: entries => (.literal key :: .plain ": " :: pieces value) :: entryPieces entries

end

mutual

/-- The text of a value is written from its pieces. -/
theorem render_eq_pieces : ∀ value : Value, value.render.toList = Piece.write value.pieces
  | null | bool _ | int32 _ | int64 _ | double _ => by
      simp [pieces, Piece.write, Piece.text]
  | string value => by
      simp [pieces, Piece.write, Piece.text, render]
  | list items => by
      rw [render, pieces, Piece.write_append, Piece.write_plain_cons, Piece.write_joined,
        ← renderItems_eq_pieces items]
      simp [Piece.write, Piece.text]
  | map entries => by
      rw [render, pieces, Piece.write_append, Piece.write_plain_cons, Piece.write_joined,
        ← renderEntries_eq_pieces entries]
      simp [Piece.write, Piece.text]

theorem renderItems_eq_pieces : ∀ items : List Value,
    (renderItems items).map String.toList = (itemPieces items).map Piece.write
  | [] => rfl
  | item :: items => by
      rw [renderItems, itemPieces, List.map_cons, List.map_cons, render_eq_pieces item,
        renderItems_eq_pieces items]

theorem renderEntries_eq_pieces : ∀ entries : List (String × Value),
    (renderEntries entries).map String.toList = (entryPieces entries).map Piece.write
  | [] => rfl
  | (key, value) :: entries => by
      have hentry : (Quoted.quote key ++ ": " ++ render value).toList =
          Piece.write (.literal key :: .plain ": " :: pieces value) := by
        simp [render_eq_pieces value, Piece.write, Piece.text]
      rw [renderEntries, entryPieces, List.map_cons, List.map_cons, hentry,
        renderEntries_eq_pieces entries]

end

end Value

namespace Filter

/-- A field of the row variable. -/
def fieldPieces (var field : String) : List Piece := [.name var, .plain ".", .name field]

/-- The test of a field by a function of the store. -/
def callPieces (function var field argument : String) : List Piece :=
  .plain (function ++ "(") :: fieldPieces var field ++ [.plain ", ", .literal argument, .plain ")"]

/-- Pieces joined in parentheses; those of one filter stay as they are. -/
def joinedPieces (separator : String) : List (List Piece) → Option (List Piece)
  | [] => none
  | [pieces] => some pieces
  | parts => some (.plain "(" :: Piece.joined separator parts ++ [.plain ")"])

mutual

/-- The pieces of a filter over a row variable; none when it cannot be pushed. -/
def pieces (var : String) : Filter → Option (List Piece)
  | empty => none
  | equals field value => some (fieldPieces var field ++ .plain " == " :: value.pieces)
  | lessThan field value => some (fieldPieces var field ++ .plain " < " :: value.pieces)
  | greaterThan field value => some (fieldPieces var field ++ .plain " > " :: value.pieces)
  | within field values =>
      some (fieldPieces var field ++ .plain " IN [" ::
        Piece.joined ", " (Value.itemPieces values) ++ [.plain "]"])
  | contains field text => some (callPieces "CONTAINS" var field text)
  | startsWith field text => some (callPieces "STARTS_WITH" var field text)
  | endsWith field text => some (callPieces "REGEX_TEST" var field (suffixPattern text))
  | regex field pattern => some (callPieces "REGEX_TEST" var field pattern)
  | not inner =>
      if inner.support.isFull then
        match pieces var inner with
        | some ps => some (.plain "NOT(" :: ps ++ [.plain ")"])
        | none => none
      else none
  | and members =>
      if (Support.conjunction (supports members)).isPushable then
        joinedPieces " AND " (allPieces var members)
      else none
  | or members =>
      if (Support.disjunction (supports members)).isPushable then
        joinedPieces " OR " (allPieces var members)
      else none

/-- The pieces of the filters that can be pushed. -/
def allPieces (var : String) : List Filter → List (List Piece)
  | [] => []
  | f :: fs =>
      match pieces var f with
      | some ps => ps :: allPieces var fs
      | none => allPieces var fs

end

theorem fieldRef_eq_pieces (var field : String) :
    (fieldRef var field).toList = Piece.write (fieldPieces var field) := by
  simp [fieldRef, fieldPieces, Piece.write, Piece.text]

theorem call_eq_pieces (function var field argument : String) :
    (call function var field argument).toList =
      Piece.write (callPieces function var field argument) := by
  rw [call, callPieces, Piece.write_append, Piece.write_plain_cons, ← fieldRef_eq_pieces]
  simp [Piece.write, Piece.text]

theorem compared_eq_pieces (var field operator : String) (value : Value) :
    (fieldRef var field ++ operator ++ value.render).toList =
      Piece.write (fieldPieces var field ++ .plain operator :: value.pieces) := by
  rw [Piece.write_append, Piece.write_plain_cons, ← fieldRef_eq_pieces, ← Value.render_eq_pieces]
  simp

theorem joinRendered_eq_pieces (separator : String) {texts : List String}
    {parts : List (List Piece)} (h : texts.map String.toList = parts.map Piece.write) :
    (joinRendered separator texts).map String.toList =
      (joinedPieces separator parts).map Piece.write := by
  unfold joinRendered joinedPieces
  rcases texts with _ | ⟨first, _ | ⟨second, texts⟩⟩ <;>
    rcases parts with _ | ⟨part, _ | ⟨other, parts⟩⟩ <;> simp only [List.map_cons, List.map_nil,
      List.cons.injEq, reduceCtorEq, and_false] at h
  · rfl
  · simp [h]
  · have hjoined : (separator.intercalate (first :: second :: texts)).toList =
        Piece.write (Piece.joined separator (part :: other :: parts)) := by
      rw [String.toList_intercalate, Piece.write_joined]
      simp [h]
    dsimp only [Option.map_some]
    rw [Piece.write_append, Piece.write_plain_cons, ← hjoined]
    simp [Piece.write, Piece.text]

/-- There is a text where there are pieces. -/
theorem rendered_cases {rendered : Option String} {written : Option (List Piece)}
    (h : rendered.map String.toList = written.map Piece.write) :
    rendered = none ∧ written = none ∨
      ∃ text ps, rendered = some text ∧ written = some ps ∧ text.toList = Piece.write ps := by
  cases rendered with
  | none =>
      cases written with
      | none => exact .inl ⟨rfl, rfl⟩
      | some ps => cases h
  | some text =>
      cases written with
      | none => cases h
      | some ps => exact .inr ⟨text, ps, rfl, rfl, Option.some.inj h⟩

mutual

/-- The text of a filter is written from its pieces. -/
theorem render_eq_pieces (var : String) : ∀ f : Filter,
    (f.render var).map String.toList = (f.pieces var).map Piece.write
  | empty => rfl
  | equals field value | lessThan field value | greaterThan field value =>
      congrArg some (compared_eq_pieces var field _ value)
  | within field values => by
      have hitems : (", ".intercalate (Value.renderItems values)).toList =
          Piece.write (Piece.joined ", " (Value.itemPieces values)) := by
        rw [String.toList_intercalate, Piece.write_joined, Value.renderItems_eq_pieces]
      rw [render, pieces, Option.map_some, Option.map_some, Piece.write_append,
        Piece.write_append, Piece.write_plain_cons, ← fieldRef_eq_pieces, ← hitems]
      simp [Piece.write, Piece.text]
  | contains field text | startsWith field text | endsWith field text | regex field text =>
      congrArg some (call_eq_pieces _ var field _)
  | not inner => by
      rw [render, pieces]
      split
      · rcases rendered_cases (render_eq_pieces var inner) with
          ⟨hrender, hpieces⟩ | ⟨text, ps, hrender, hpieces, htext⟩
        · rw [hrender, hpieces]
          rfl
        · rw [hrender, hpieces]
          dsimp only [Option.map_some]
          rw [Piece.write_append, Piece.write_plain_cons, ← htext]
          simp [Piece.write, Piece.text]
      · rfl
  | and members | or members => by
      rw [render, pieces]
      split
      · exact joinRendered_eq_pieces _ (renderAll_eq_pieces var members)
      · rfl

theorem renderAll_eq_pieces : ∀ (var : String) (fs : List Filter),
    (renderAll var fs).map String.toList = (allPieces var fs).map Piece.write
  | _, [] => rfl
  | var, f :: fs => by
      rw [renderAll, allPieces]
      rcases rendered_cases (render_eq_pieces var f) with
        ⟨hrender, hpieces⟩ | ⟨text, ps, hrender, hpieces, htext⟩
      · rw [hrender, hpieces]
        exact renderAll_eq_pieces var fs
      · rw [hrender, hpieces]
        dsimp only
        rw [List.map_cons, List.map_cons, htext, renderAll_eq_pieces var fs]

end

/-- The pieces of a filter as a clause of a query. -/
def clausePieces (f : Filter) (var : String) : List Piece :=
  match f.pieces var with
  | some ps => .plain " FILTER " :: ps
  | none => []

theorem clause_eq_pieces (f : Filter) (var : String) :
    (f.clause var).toList = Piece.write (f.clausePieces var) := by
  unfold clause clausePieces
  rcases rendered_cases (render_eq_pieces var f) with
    ⟨hrender, hpieces⟩ | ⟨text, ps, hrender, hpieces, htext⟩
  · rw [hrender, hpieces]
    rfl
  · rw [hrender, hpieces]
    dsimp only
    rw [Piece.write_plain_cons, ← htext, String.toList_append]

/-- How the pieces of a filter are put together. -/
inductive Clause (var : String) : List Piece → Prop
  | compared {operator : String} (known : operator ∈ [" == ", " < ", " > "]) (field : String)
      (value : Value) : Clause var (fieldPieces var field ++ .plain operator :: value.pieces)
  | listed (field : String) (values : List Value) :
      Clause var (fieldPieces var field ++ .plain " IN [" ::
        Piece.joined ", " (Value.itemPieces values) ++ [.plain "]"])
  | called {function : String} (known : function ∈ ["CONTAINS", "STARTS_WITH", "REGEX_TEST"])
      (field argument : String) : Clause var (callPieces function var field argument)
  | negated {ps : List Piece} (inner : Clause var ps) :
      Clause var (.plain "NOT(" :: ps ++ [.plain ")"])
  | grouped {separator : String} {parts : List (List Piece)}
      (known : separator ∈ [" AND ", " OR "]) (members : ∀ part ∈ parts, Clause var part) :
      Clause var (.plain "(" :: Piece.joined separator parts ++ [.plain ")"])

theorem clause_joinedPieces {var separator : String} {parts : List (List Piece)} {ps : List Piece}
    (hknown : separator ∈ [" AND ", " OR "]) (hparts : ∀ part ∈ parts, Clause var part)
    (h : joinedPieces separator parts = some ps) : Clause var ps := by
  unfold joinedPieces at h
  split at h
  · cases h
  · cases h
    exact hparts _ List.mem_cons_self
  · cases h
    exact .grouped hknown hparts

mutual

/-- The pieces of a filter form a clause. -/
theorem clause_pieces {var : String} : ∀ {f : Filter} {ps : List Piece},
    f.pieces var = some ps → Clause var ps
  | empty, _, h => by cases h
  | equals field value, _, h | lessThan field value, _, h | greaterThan field value, _, h => by
      cases h
      exact .compared (by simp) field value
  | within field values, _, h => by
      cases h
      exact .listed field values
  | contains field text, _, h | startsWith field text, _, h | endsWith field text, _, h
  | regex field text, _, h => by
      cases h
      exact .called (by simp) field _
  | not inner, _, h => by
      rw [pieces] at h
      split at h
      · split at h
        · next ps hps =>
          cases h
          exact .negated (clause_pieces hps)
        · cases h
      · cases h
  | and members, _, h | or members, _, h => by
      rw [pieces] at h
      split at h
      · exact clause_joinedPieces (by simp) (clause_allPieces members) h
      · cases h

theorem clause_allPieces {var : String} : ∀ fs : List Filter,
    ∀ part ∈ allPieces var fs, Clause var part
  | [], _, h => by cases h
  | f :: fs, part, h => by
      rw [allPieces] at h
      split at h
      · next ps hps =>
        rcases List.mem_cons.mp h with rfl | h
        · exact clause_pieces hps
        · exact clause_allPieces fs part h
      · exact clause_allPieces fs part h

end

end Filter
end Pushdown
