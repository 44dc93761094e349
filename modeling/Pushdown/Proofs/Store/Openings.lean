import Pushdown.Proofs.Filter.Letters
import Pushdown.Proofs.Store.Reading

/-!
# Where a clause opens names

A name is opened where `IN` stands before a quote. The fixed text of a filter never does that:
a clause opens a name where the name of a field ends as an opening starts, so that its closing
quote completes one, and where a literal holds an opening.

## Results

* `Piece.opening_infix_append_write_iff`: openings in pieces;
* `Filter.Clause.leads`: the fixed text of a clause does not start an opening;
* `Filter.opens_clause_iff`: openings in a clause.
-/

namespace Pushdown

open Store

/-- A name opens another where it ends, if it ends as an opening starts. -/
theorem Filter.opening_infix_escapeName_iff {text after : List Char} :
    opening <:+: escapeName text ++ nameQuote :: after ↔
      lead <:+ text ∨ opening <:+: after := by
  have hopening : opening = lead ++ [nameQuote] := rfl
  by_cases hquote : nameQuote ∈ text
  · -- a bar stands before the first quote in the name
    obtain ⟨first, rest, htext, hfirst⟩ := List.eq_append_cons_of_mem hquote
    have hescaped : escapeName text ++ nameQuote :: after =
        (escapeName first ++ ['\\']) ++ nameQuote :: (escapeName rest ++ nameQuote :: after) := by
      rw [htext, escapeName_append, escapeName, if_pos (.inr rfl)]
      simp
    have hbefore : nameQuote ∉ escapeName first ++ ['\\'] := by
      rw [List.mem_append, quote_mem_escapeName, not_or]
      exact ⟨hfirst, by decide⟩
    have hbar : ¬ lead <:+ escapeName first ++ ['\\'] := by
      rintro ⟨start, hstart⟩
      have hlast := congrArg List.getLast? hstart
      rw [List.getLast?_append, List.getLast?_concat] at hlast
      cases hlast
    have hshort : rest.length < text.length := by
      simp only [htext, List.length_append, List.length_cons]
      omega
    have ih : opening <:+: escapeName rest ++ nameQuote :: after ↔
        lead <:+ rest ∨ opening <:+: after := opening_infix_escapeName_iff
    rw [hescaped, hopening, Text.infix_closed_iff quote_not_mem_lead hbefore, or_iff_right hbar,
      ← hopening, ih, htext, Text.suffix_fence quote_not_mem_lead]
  · have hbefore : nameQuote ∉ escapeName text := by
      rw [quote_mem_escapeName]
      exact hquote
    rw [hopening, Text.infix_closed_iff quote_not_mem_lead hbefore,
      suffix_escapeName_iff quote_not_mem_lead (by decide)]
termination_by text.length

namespace Piece

/-- Names do not stand behind what an opening starts with. The characters are those of the fixed
text before the pieces. -/
def Led : List Char → List Piece → Prop
  | _, [] => True
  | run, plain text :: pieces => Led (run ++ text.toList) pieces
  | run, name _ :: pieces => ¬ lead <:+ run ∧ Led [] pieces
  | _, literal _ :: pieces => Led [] pieces

/-- A piece opens a name. -/
def Opens : Piece → Prop
  | plain _ => False
  | name text => lead <:+ text.toList
  | literal text => opening <:+: text.toList

-- By induction on the pieces. The characters before them are the fixed text since the last name
-- or literal: a name completes an opening only if that text starts one.
/-- Openings in pieces are those of the names and literals. -/
theorem opening_infix_append_write_iff :
    ∀ {pieces : List Piece} {run : List Char}, Led run pieces → Without Filter.nameQuote pieces →
      Filter.nameQuote ∉ run → (opening <:+: run ++ write pieces ↔ ∃ piece ∈ pieces, piece.Opens)
  | [], run, _, _, hrun => by
      have hnot : ¬ opening <:+: run := no_opening_of_no_quote hrun
      simp [write, hnot]
  | plain text :: pieces, run, hled, hquotes, hrun => by
      have hrun' : Filter.nameQuote ∉ run ++ text.toList := by
        rw [List.mem_append, not_or]
        exact ⟨hrun, hquotes text List.mem_cons_self⟩
      have hpieces : Led (run ++ text.toList) pieces := hled
      rw [write_plain_cons, ← List.append_assoc,
        opening_infix_append_write_iff hpieces hquotes.tail hrun']
      simp [Opens]
  | name text :: pieces, run, hled, hquotes, hrun => by
      have ih := opening_infix_append_write_iff hled.2 hquotes.tail List.not_mem_nil
      have hopening : opening = lead ++ [Filter.nameQuote] := rfl
      rw [write_name_cons, hopening, Text.infix_closed_iff quote_not_mem_lead hrun,
        or_iff_right hled.1, ← hopening, Filter.opening_infix_escapeName_iff,
        ← List.nil_append (write pieces), ih]
      simp [Opens]
  | literal text :: pieces, run, hled, hquotes, hrun => by
      have hnot : ¬ opening <:+: run := no_opening_of_no_quote hrun
      have hpieces : Led [] pieces := hled
      have ih := opening_infix_append_write_iff hpieces hquotes.tail List.not_mem_nil
      rw [write_literal_cons, Text.infix_fence (by decide), or_iff_right hnot,
        Text.infix_fence (by decide),
        Quoted.infix_encode_iff (by decide) (by decide) (by decide),
        ← List.nil_append (write pieces), ih]
      simp [Opens]

/-- Pieces without names. -/
def Nameless (pieces : List Piece) : Prop := ∀ text, name text ∉ pieces

theorem led_append_of_nameless {rest : List Piece} (hrest : ∀ run, Led run rest) :
    ∀ {pieces : List Piece}, Nameless pieces → ∀ run, Led run (pieces ++ rest)
  | [], _, run => hrest run
  | piece :: pieces, h, run => by
      have hpieces : Nameless pieces := fun text hmem => h text (List.mem_cons_of_mem piece hmem)
      cases piece with
      | plain text => exact led_append_of_nameless hrest hpieces _
      | name text => exact absurd List.mem_cons_self (h text)
      | literal text => exact led_append_of_nameless hrest hpieces _

/-- The pieces do not start an opening, where none was started before them. -/
def Leads (pieces : List Piece) : Prop :=
  ∀ run rest, ¬ lead <:+ run → (∀ run', Led run' rest) → Led run (pieces ++ rest)

/-- Fixed text that is long enough, or does not end in a blank, does not start an opening. -/
theorem not_lead_suffix_append (run : List Char) {text : List Char}
    (h : lead.length ≤ text.length ∧ ¬ lead <:+ text ∨ ∃ c ∈ text.getLast?, c ≠ ' ') :
    ¬ lead <:+ run ++ text := by
  intro hends
  rcases h with ⟨hlength, hnot⟩ | ⟨c, hc, hne⟩
  · exact hnot (List.suffix_of_suffix_length_le hends (List.suffix_append run text) hlength)
  · obtain ⟨start, hstart⟩ := hends
    have hlast := congrArg List.getLast? hstart
    rw [List.getLast?_append, List.getLast?_append, hc] at hlast
    cases hlast
    exact hne rfl

theorem leads_joined {separator : String} {parts : List (List Piece)}
    (hseparator : ∀ run, ¬ lead <:+ run ++ separator.toList)
    (hparts : ∀ part ∈ parts, Leads part) : Leads (joined separator parts) := by
  intro run rest hrun hrest
  induction parts generalizing run with
  | nil => exact hrest run
  | cons first parts ih =>
    rw [List.forall_mem_cons] at hparts
    cases parts with
    | nil =>
        have hjoined : joined separator [first] = first := by simp [joined]
        rw [hjoined]
        exact hparts.1 run rest hrun hrest
    | cons second parts =>
        have hjoined : joined separator (first :: second :: parts) ++ rest =
            first ++ (plain separator :: (joined separator (second :: parts) ++ rest)) := by
          rw [joined, List.intercalate_cons_cons]
          simp [joined]
        rw [hjoined]
        exact hparts.1 run _ hrun fun run' => ih hparts.2 _ (hseparator run')

end Piece

namespace Value

open Piece

theorem IsPiece.nameless {pieces : List Piece} (h : ∀ piece ∈ pieces, IsPiece piece) :
    Nameless pieces := fun _ hmem => by cases h _ hmem

/-- Values have no names. -/
theorem nameless_pieces (value : Value) : Nameless value.pieces :=
  IsPiece.nameless (isPiece_of_mem_pieces value)

end Value

namespace Filter

open Piece

theorem led_fieldPieces (var field : String) {rest : List Piece} {run : List Char}
    (hrun : ¬ lead <:+ run) (hrest : Led [] rest) : Led run (fieldPieces var field ++ rest) :=
  ⟨hrun, by decide, hrest⟩

/-- The fixed text of a clause does not start an opening. -/
theorem Clause.leads {var : String} {ps : List Piece} (h : Clause var ps) : Leads ps := by
  induction h with
  | compared known field value =>
      intro run rest hrun hrest
      rw [List.append_assoc]
      refine led_fieldPieces var field hrun ?_
      exact led_append_of_nameless hrest (Value.nameless_pieces value) _
  | listed field values =>
      intro run rest hrun hrest
      have hitems : Nameless (joined ", " (Value.itemPieces values)) :=
        Value.IsPiece.nameless (Value.isPiece_joined (Value.isPiece_of_mem_itemPieces values))
      have hclosed : ∀ run', Led run' (plain "]" :: rest) := fun _ => hrest _
      rw [List.append_assoc, List.append_assoc]
      refine led_fieldPieces var field hrun ?_
      show Led " IN [".toList (joined ", " (Value.itemPieces values) ++ (plain "]" :: rest))
      exact led_append_of_nameless hclosed hitems _
  | @called function known field argument =>
      intro run rest hrun hrest
      have hopened : ¬ lead <:+ run ++ (function ++ "(").toList := by
        refine not_lead_suffix_append run (.inr ⟨'(', ?_, by decide⟩)
        simp
      rw [callPieces, List.append_assoc]
      exact led_fieldPieces var field hopened (hrest _)
  | negated _ ih =>
      intro run rest hrun hrest
      rw [List.append_assoc]
      exact ih _ _ (not_lead_suffix_append run (.inl (by decide))) fun _ => hrest _
  | @grouped separator parts known _ ih =>
      intro run rest hrun hrest
      have hseparator : ∀ run, ¬ lead <:+ run ++ separator.toList := fun run => by
        refine not_lead_suffix_append run (.inl ?_)
        exact (by decide : ∀ sep ∈ [" AND ", " OR "],
          lead.length ≤ sep.toList.length ∧ ¬ lead <:+ sep.toList) separator known
      rw [List.append_assoc]
      refine leads_joined hseparator ih _ _ ?_ fun _ => hrest _
      exact not_lead_suffix_append run (.inr ⟨'(', rfl, by decide⟩)

/-- A clause opens a name where its names and literals do. -/
theorem opens_clause_iff (f : Filter) (var : String) :
    opening <:+: (f.clause var).toList ↔ ∃ piece ∈ f.clausePieces var, piece.Opens := by
  have hquotes : Without nameQuote (f.clausePieces var) :=
    (spelled_clausePieces f var).without (by decide)
  have hled : Led [] (f.clausePieces var) := by
    unfold clausePieces
    split
    · next ps hps =>
      have hleads := (clause_pieces hps).leads (" FILTER ".toList) [] (by decide) fun _ => trivial
      rw [List.append_nil] at hleads
      exact hleads
    · trivial
  rw [clause_eq_pieces, ← List.nil_append (write _)]
  exact opening_infix_append_write_iff hled hquotes List.not_mem_nil

end Filter
end Pushdown
