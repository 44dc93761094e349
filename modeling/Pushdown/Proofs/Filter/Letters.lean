import Pushdown.Proofs.Filter.Rendering

/-!
# The letters of fixed text

What a query says beside its names and literals is made of a few letters: the words and signs
of filters, truth values and numbers.

## Results

* `isScalar_int`, `isScalar_double`: the texts of numbers;
* `Value.isPiece_of_mem_pieces`: values are written from literals and fixed text;
* `Filter.Clause.spelled`: the fixed text of filters.
-/

namespace Pushdown

/-- The letters of the fixed text of queries without bindings. -/
def fixedLetters : List Char :=
  " ()[]\x7b\x7d,.:<>=_ACDEFGHILNORSTUWXdvx0123456789+-aefilnrstu".toList

/-- A text of these letters only. -/
def IsFixed (text : List Char) : Prop := ∀ c ∈ text, c ∈ fixedLetters

instance (text : List Char) : Decidable (IsFixed text) :=
  Text.decidableForallMem (· ∈ fixedLetters) text

/-- The letters of truth values, of numbers and of what stands for no value. -/
def scalarLetters : List Char := ".0123456789+-Naefilnrstu".toList

/-- A text of these letters only. -/
def IsScalar (text : List Char) : Prop := ∀ c ∈ text, c ∈ scalarLetters

instance (text : List Char) : Decidable (IsScalar text) :=
  Text.decidableForallMem (· ∈ scalarLetters) text

theorem IsScalar.fixed {text : List Char} (h : IsScalar text) : IsFixed text :=
  fun c hc => (by decide : ∀ c ∈ scalarLetters, c ∈ fixedLetters) c (h c hc)

theorem isScalar_append_iff {first rest : List Char} :
    IsScalar (first ++ rest) ↔ IsScalar first ∧ IsScalar rest := List.forall_mem_append

theorem isScalar_cons_iff {c : Char} {text : List Char} :
    IsScalar (c :: text) ↔ c ∈ scalarLetters ∧ IsScalar text := List.forall_mem_cons

theorem isScalar_nil : IsScalar [] := fun _ h => by cases h

theorem mem_scalarLetters_of_isDigit {c : Char} (h : c.isDigit = true) : c ∈ scalarLetters :=
  Text.forall_isDigit (p := (· ∈ scalarLetters)) (by decide) h

theorem isScalar_toDigits (n : Nat) : IsScalar (Nat.toDigits 10 n) := fun _ h =>
  mem_scalarLetters_of_isDigit (Nat.isDigit_of_mem_toDigits (by decide) (by decide) h)

theorem isScalar_int (i : Int) : IsScalar (toString i).toList := by
  rw [Int.toString_eq_repr, Int.repr_eq_if]
  split
  · rw [Nat.toList_repr]
    exact isScalar_toDigits _
  · rw [String.toList_append, isScalar_append_iff, Nat.toList_repr]
    exact ⟨by decide, isScalar_toDigits _⟩

theorem isScalar_positional (layout : Layout) (d : Decimal) :
    IsScalar (layout.positionalText d) := by
  have hdigits : IsScalar d.digits := isScalar_toDigits _
  have hzeros : ∀ n, IsScalar (List.replicate n '0') := by
    intro n c hc
    rw [List.eq_of_mem_replicate hc]
    decide
  rw [Layout.positionalText]
  split
  · rw [isScalar_append_iff, isScalar_append_iff]
    refine ⟨⟨hdigits, hzeros _⟩, ?_⟩
    split <;> decide
  · split
    · rw [isScalar_append_iff, isScalar_cons_iff]
      exact ⟨fun c hc => hdigits c (List.mem_of_mem_take hc), by decide,
        fun c hc => hdigits c (List.mem_of_mem_drop hc)⟩
    · rw [isScalar_cons_iff, isScalar_cons_iff, isScalar_append_iff]
      exact ⟨by decide, by decide, hzeros _, hdigits⟩

theorem isScalar_scientific (layout : Layout) (d : Decimal) :
    IsScalar (layout.scientificText d) := by
  have hdigits : IsScalar d.digits := isScalar_toDigits _
  rw [Layout.scientificText, isScalar_append_iff, isScalar_append_iff, isScalar_cons_iff]
  refine ⟨⟨?_, by decide, ?_⟩, isScalar_toDigits _⟩
  · -- the digits, with a point behind the first
    split
    · exact isScalar_nil
    · next first hone =>
      exact hone ▸ hdigits
    · next first rest hone hmany =>
      rw [hmany, isScalar_cons_iff] at hdigits
      rw [isScalar_cons_iff, isScalar_cons_iff]
      exact ⟨hdigits.1, by decide, hdigits.2⟩
  · split
    · decide
    · split <;> decide

theorem isScalar_double (value : Double) : IsScalar (Json.doubleText value).toList := by
  have hbody : IsScalar (if value.isInfinite then ['i', 'n', 'f'] else
      let d := value.shortest Layout.literal.tie
      if d.coefficient = 0 || Layout.literal.positional d.leadExponent then
        Layout.literal.positionalText d
      else Layout.literal.scientificText d) := by
    split
    · decide
    · dsimp only
      split
      · exact isScalar_positional _ _
      · exact isScalar_scientific _ _
  rw [Json.doubleText]
  split
  · rw [Layout.render]
    split
    · decide
    · rw [String.toList_ofList]
      dsimp only at hbody ⊢
      split
      · rw [isScalar_cons_iff]
        exact ⟨by decide, hbody⟩
      · exact hbody
  · decide

theorem Piece.spelled_fixed {text : String} (h : IsFixed text.toList) :
    Spelled fixedLetters [plain text] := by
  rw [spelled_plain_cons_iff]
  exact ⟨h, spelled_nil⟩

namespace Value

/-- A piece of a value is a literal, or fixed text of these letters. -/
inductive IsPiece : Piece → Prop
  | plain {text : String} (fixed : IsFixed text.toList) : IsPiece (.plain text)
  | literal (text : String) : IsPiece (.literal text)

theorem isPiece_scalar {text : String} (h : IsFixed text.toList) :
    ∀ piece ∈ [Piece.plain text], IsPiece piece := by
  rw [List.forall_mem_singleton]
  exact .plain h

theorem isPiece_joined {parts : List (List Piece)}
    (hparts : ∀ part ∈ parts, ∀ piece ∈ part, IsPiece piece) :
    ∀ piece ∈ Piece.joined ", " parts, IsPiece piece := by
  intro piece hpiece
  rcases Piece.mem_joined hpiece with rfl | ⟨part, hpart, hpiece⟩
  · exact .plain (by decide)
  · exact hparts part hpart piece hpiece

mutual

-- What the letters are, and that values have no names, follows from this one induction.
theorem isPiece_of_mem_pieces : ∀ value : Value, ∀ piece ∈ value.pieces, IsPiece piece
  | null => isPiece_scalar (by decide)
  | bool value => isPiece_scalar (by cases value <;> decide)
  | int32 value => isPiece_scalar (isScalar_int _).fixed
  | int64 value => isPiece_scalar (isScalar_int _).fixed
  | double value => isPiece_scalar (isScalar_double _).fixed
  | string value => by
      rw [pieces, List.forall_mem_singleton]
      exact .literal value
  | list items => by
      rw [pieces, List.cons_append, List.forall_mem_cons, List.forall_mem_append]
      exact ⟨.plain (by decide), isPiece_joined (isPiece_of_mem_itemPieces items),
        isPiece_scalar (by decide)⟩
  | map entries => by
      rw [pieces, List.cons_append, List.forall_mem_cons, List.forall_mem_append]
      exact ⟨.plain (by decide), isPiece_joined (isPiece_of_mem_entryPieces entries),
        isPiece_scalar (by decide)⟩

theorem isPiece_of_mem_itemPieces : ∀ items : List Value,
    ∀ part ∈ itemPieces items, ∀ piece ∈ part, IsPiece piece
  | [], _, h => by cases h
  | item :: items, part, h => by
      rcases List.mem_cons.mp h with rfl | h
      · exact isPiece_of_mem_pieces item
      · exact isPiece_of_mem_itemPieces items part h

theorem isPiece_of_mem_entryPieces : ∀ entries : List (String × Value),
    ∀ part ∈ entryPieces entries, ∀ piece ∈ part, IsPiece piece
  | [], _, h => by cases h
  | (key, value) :: entries, part, h => by
      rcases List.mem_cons.mp h with rfl | h
      · rw [List.forall_mem_cons, List.forall_mem_cons]
        exact ⟨.literal key, .plain (by decide), isPiece_of_mem_pieces value⟩
      · exact isPiece_of_mem_entryPieces entries part h

end

theorem IsPiece.spelled {pieces : List Piece} (h : ∀ piece ∈ pieces, IsPiece piece) :
    Piece.Spelled fixedLetters pieces := by
  intro text hmem
  cases h _ hmem with
  | plain fixed => exact fixed

/-- The fixed text of a value. -/
theorem spelled_pieces (value : Value) : Piece.Spelled fixedLetters value.pieces :=
  IsPiece.spelled (isPiece_of_mem_pieces value)

end Value

namespace Filter

theorem spelled_fieldPieces (var field : String) :
    Piece.Spelled fixedLetters (fieldPieces var field) := by
  rw [fieldPieces, Piece.spelled_name_cons_iff, Piece.spelled_plain_cons_iff,
    Piece.spelled_name_cons_iff]
  exact ⟨by decide, Piece.spelled_nil⟩

/-- The fixed text of a clause. -/
theorem Clause.spelled {var : String} {ps : List Piece} (h : Clause var ps) :
    Piece.Spelled fixedLetters ps := by
  induction h with
  | @compared operator known field value =>
      rw [Piece.spelled_append_iff, Piece.spelled_plain_cons_iff]
      refine ⟨spelled_fieldPieces var field, ?_, Value.spelled_pieces value⟩
      exact (by decide : ∀ op ∈ [" == ", " < ", " > "], IsFixed op.toList) operator known
  | listed field values =>
      have hitems : Piece.Spelled fixedLetters (Piece.joined ", " (Value.itemPieces values)) :=
        Value.IsPiece.spelled (Value.isPiece_joined (Value.isPiece_of_mem_itemPieces values))
      rw [Piece.spelled_append_iff, Piece.spelled_append_iff, Piece.spelled_plain_cons_iff]
      exact ⟨⟨spelled_fieldPieces var field, by decide, hitems⟩, Piece.spelled_fixed (by decide)⟩
  | @called function known field argument =>
      rw [callPieces, Piece.spelled_append_iff, Piece.spelled_plain_cons_iff,
        Piece.spelled_plain_cons_iff, Piece.spelled_literal_cons_iff]
      refine ⟨⟨?_, spelled_fieldPieces var field⟩, by decide, Piece.spelled_fixed (by decide)⟩
      exact (by decide : ∀ name ∈ ["CONTAINS", "STARTS_WITH", "REGEX_TEST"],
        IsFixed (name ++ "(").toList) function known
  | negated _ ih =>
      rw [Piece.spelled_append_iff, Piece.spelled_plain_cons_iff]
      exact ⟨⟨by decide, ih⟩, Piece.spelled_fixed (by decide)⟩
  | @grouped separator parts known _ ih =>
      have hseparator : IsFixed separator.toList :=
        (by decide : ∀ sep ∈ [" AND ", " OR "], IsFixed sep.toList) separator known
      rw [Piece.spelled_append_iff, Piece.spelled_plain_cons_iff]
      exact ⟨⟨by decide, Piece.spelled_joined hseparator ih⟩, Piece.spelled_fixed (by decide)⟩

theorem spelled_clausePieces (f : Filter) (var : String) :
    Piece.Spelled fixedLetters (f.clausePieces var) := by
  unfold clausePieces
  split
  · next ps hps =>
    rw [Piece.spelled_plain_cons_iff]
    exact ⟨by decide, (clause_pieces hps).spelled⟩
  · exact Piece.spelled_nil

end Filter
end Pushdown
