import Pushdown.Proofs.Filter.Quoting

/-!
# Pieces of query text

A query text is written from pieces: fixed text, quoted names and quoted literals. What is
searched in it is found where a name or a literal holds it, if the fixed text does not.

## Results

* `Piece.write_joined`: pieces with a separator are written as their texts with it between;
* `Piece.infix_write_iff`: occurrences of a text that quoting leaves alone.
-/

namespace Pushdown

/-- A piece of a query text. -/
inductive Piece where
  | plain (text : String)
  | name (text : String)
  | literal (text : String)

namespace Piece

/-- The text of a piece. -/
def text : Piece → String
  | plain text => text
  | name text => Filter.quoteName text
  | literal text => Quoted.quote text

/-- The text that a piece quotes. -/
def quoted? : Piece → Option String
  | plain _ => none
  | name text => some text
  | literal text => some text

/-- The characters of several pieces. -/
def write (pieces : List Piece) : List Char := pieces.flatMap fun piece => piece.text.toList

/-- The texts that are quoted in several pieces. -/
def quotedTexts (pieces : List Piece) : List String := pieces.filterMap quoted?

/-- Several lists of pieces with fixed text between them. -/
def joined (separator : String) (parts : List (List Piece)) : List Piece :=
  [plain separator].intercalate parts

theorem write_plain_cons (text : String) (pieces : List Piece) :
    write (plain text :: pieces) = text.toList ++ write pieces := rfl

theorem write_name_cons (text : String) (pieces : List Piece) :
    write (name text :: pieces) = Filter.nameQuote ::
      (Filter.escapeName text.toList ++ Filter.nameQuote :: write pieces) := by
  simp [write, Piece.text, Filter.quoteName]

theorem write_literal_cons (text : String) (pieces : List Piece) :
    write (literal text :: pieces) =
      '"' :: (Quoted.encode text.toList ++ '"' :: write pieces) := by
  simp [write, Piece.text, Quoted.quote]

theorem write_append (first rest : List Piece) :
    write (first ++ rest) = write first ++ write rest := List.flatMap_append

theorem write_joined (separator : String) :
    ∀ parts : List (List Piece),
      write (joined separator parts) = separator.toList.intercalate (parts.map write)
  | [] => rfl
  | [part] => by simp [joined]
  | first :: second :: parts => by
      have ih := write_joined separator (second :: parts)
      rw [joined] at ih ⊢
      rw [List.intercalate_cons_cons, write_append, write_append, ih]
      simp only [List.map_cons, List.intercalate_cons_cons]
      simp [write, Piece.text]

theorem mem_joined {separator : String} {piece : Piece} :
    ∀ {parts : List (List Piece)}, piece ∈ joined separator parts →
      piece = plain separator ∨ ∃ part ∈ parts, piece ∈ part
  | [], h => by cases h
  | [part], h => .inr ⟨part, List.mem_cons_self, by simpa [joined] using h⟩
  | first :: second :: parts, h => by
      rw [joined, List.intercalate_cons_cons, List.mem_append, List.mem_append] at h
      rcases h with (h | h) | h
      · exact .inr ⟨first, List.mem_cons_self, h⟩
      · exact .inl (List.mem_singleton.mp h)
      · rcases mem_joined h with h | ⟨part, hpart, h⟩
        · exact .inl h
        · exact .inr ⟨part, List.mem_cons_of_mem first hpart, h⟩

@[simp] theorem quotedTexts_nil : quotedTexts [] = [] := rfl

@[simp] theorem quotedTexts_plain_cons (text : String) (pieces : List Piece) :
    quotedTexts (plain text :: pieces) = quotedTexts pieces := rfl

@[simp] theorem quotedTexts_name_cons (text : String) (pieces : List Piece) :
    quotedTexts (name text :: pieces) = text :: quotedTexts pieces := rfl

@[simp] theorem quotedTexts_literal_cons (text : String) (pieces : List Piece) :
    quotedTexts (literal text :: pieces) = text :: quotedTexts pieces := rfl

@[simp] theorem quotedTexts_append (first rest : List Piece) :
    quotedTexts (first ++ rest) = quotedTexts first ++ quotedTexts rest := List.filterMap_append

/-- Joining quotes nothing. -/
theorem mem_quotedTexts_joined {separator text : String} :
    ∀ {parts : List (List Piece)}, text ∈ quotedTexts (joined separator parts) ↔
      ∃ part ∈ parts, text ∈ quotedTexts part
  | [] => by simp [joined]
  | [part] => by simp [joined]
  | first :: second :: parts => by
      have ih : text ∈ quotedTexts (joined separator (second :: parts)) ↔
        ∃ part ∈ second :: parts, text ∈ quotedTexts part := mem_quotedTexts_joined
      rw [joined] at ih ⊢
      rw [List.intercalate_cons_cons, quotedTexts_append, quotedTexts_append,
        List.mem_append, List.mem_append, ih]
      simp

/-- A text that quoting leaves alone. -/
structure Bare (needle : List Char) : Prop where
  unquoted : Filter.nameQuote ∉ needle
  kept : ∀ c ∈ needle, Quoted.escape? c = none
  head : ∀ first ∈ needle.head?, first ∉ Quoted.escapeLetters

variable {needle : List Char}

theorem Bare.noSlash (h : Bare needle) : '\\' ∉ needle := fun hmem => by
  cases h.kept _ hmem

theorem Bare.noDoubleQuote (h : Bare needle) : '"' ∉ needle := fun hmem => by
  cases h.kept _ hmem

/-- The fixed text of pieces is without a character. -/
def Without (d : Char) (pieces : List Piece) : Prop :=
  ∀ text, plain text ∈ pieces → d ∉ text.toList

theorem Without.tail {d : Char} {piece : Piece} {pieces : List Piece}
    (h : Without d (piece :: pieces)) : Without d pieces :=
  fun text hmem => h text (List.mem_cons_of_mem piece hmem)

/-- The letters that the fixed text of pieces is made of. -/
def Spelled (letters : List Char) (pieces : List Piece) : Prop :=
  ∀ text, plain text ∈ pieces → ∀ c ∈ text.toList, c ∈ letters

section Spelled

variable {letters : List Char} {pieces : List Piece}

theorem Spelled.without {d : Char} (h : Spelled letters pieces) (hd : d ∉ letters) :
    Without d pieces := fun text hmem hd' => hd (h text hmem d hd')

theorem spelled_nil : Spelled letters [] := fun _ h => by cases h

theorem spelled_plain_cons_iff {text : String} :
    Spelled letters (plain text :: pieces) ↔
      (∀ c ∈ text.toList, c ∈ letters) ∧ Spelled letters pieces := by
  simp [Spelled]

theorem spelled_name_cons_iff {text : String} :
    Spelled letters (name text :: pieces) ↔ Spelled letters pieces := by
  simp [Spelled]

theorem spelled_literal_cons_iff {text : String} :
    Spelled letters (literal text :: pieces) ↔ Spelled letters pieces := by
  simp [Spelled]

theorem spelled_append_iff {first rest : List Piece} :
    Spelled letters (first ++ rest) ↔ Spelled letters first ∧ Spelled letters rest := by
  simp only [Spelled, List.mem_append, or_imp, forall_and]

theorem spelled_joined {separator : String} {parts : List (List Piece)}
    (hseparator : ∀ c ∈ separator.toList, c ∈ letters)
    (hparts : ∀ part ∈ parts, Spelled letters part) : Spelled letters (joined separator parts) := by
  intro text htext
  rcases mem_joined htext with h | ⟨part, hpart, h⟩
  · cases h
    exact hseparator
  · exact hparts part hpart text h

end Spelled

-- By induction on the pieces, with the fixed text since the last name or literal before them.
/-- A text that quoting leaves alone is found where it is quoted, if one of its characters is
not in the fixed text. -/
theorem infix_append_write_iff (hbare : Bare needle) {d : Char} (hd : d ∈ needle) :
    ∀ {pieces : List Piece} {run : List Char}, Without d pieces → d ∉ run →
      (needle <:+: run ++ write pieces ↔ ∃ text ∈ quotedTexts pieces, needle <:+: text.toList)
  | [], run, _, hrun => by
      have hnot : ¬ needle <:+: run := fun h => hrun (h.subset hd)
      simp [write, quotedTexts, hnot]
  | plain text :: pieces, run, hpieces, hrun => by
      have hrun' : d ∉ run ++ text.toList := by
        rw [List.mem_append, not_or]
        exact ⟨hrun, hpieces text List.mem_cons_self⟩
      rw [write_plain_cons, ← List.append_assoc,
        infix_append_write_iff hbare hd hpieces.tail hrun']
      rfl
  | name text :: pieces, run, hpieces, hrun => by
      have hnot : ¬ needle <:+: run := fun h => hrun (h.subset hd)
      have ih := infix_append_write_iff hbare hd hpieces.tail (List.not_mem_nil (a := d))
      rw [List.nil_append] at ih
      rw [write_name_cons, Text.infix_fence hbare.unquoted, Text.infix_fence hbare.unquoted,
        Filter.infix_escapeName_iff hbare.unquoted hbare.noSlash, ih]
      simp [hnot, quotedTexts, quoted?]
  | literal text :: pieces, run, hpieces, hrun => by
      have hnot : ¬ needle <:+: run := fun h => hrun (h.subset hd)
      have ih := infix_append_write_iff hbare hd hpieces.tail (List.not_mem_nil (a := d))
      rw [List.nil_append] at ih
      rw [write_literal_cons, Text.infix_fence hbare.noDoubleQuote,
        Text.infix_fence hbare.noDoubleQuote,
        Quoted.infix_encode_iff hbare.kept hbare.noSlash hbare.head, ih]
      simp [hnot, quotedTexts, quoted?]

theorem infix_write_iff (hbare : Bare needle) {d : Char} (hd : d ∈ needle) {pieces : List Piece}
    (hpieces : Without d pieces) :
    needle <:+: write pieces ↔ ∃ text ∈ quotedTexts pieces, needle <:+: text.toList :=
  infix_append_write_iff hbare hd hpieces List.not_mem_nil

end Piece
end Pushdown
