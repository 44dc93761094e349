import Mathlib.Data.List.Basic
import Pushdown.Proofs.Language.Offsets

/-!
# Offsets and positions

A line and a column are found again in the source: behind the line feeds above the line, and behind
the characters in front of the column. So boundaries and positions correspond to each other, in the
same order. Any other offset has the position of the nearest boundary below it.

## Results

* `behindFeeds?_eq_some_iff`, `behindColumns?_eq_some_iff`: what is skipped to get to a position;
* `offsetAt?_eq_some_iff`: a position leads to the one boundary that has it;
* `position_lt_of_lt`: positions follow each other as their offsets do;
* `exists_isFloor`: any offset has the position of a boundary;
* `positions_locate`: all of it, for every source.
-/

namespace Pushdown
namespace Language

/-! ## Seeking a position -/

/-- What stands behind some line feeds of a text. -/
def behindFeeds? : Nat → List Char → Option (List Char)
  | 0, text => some text
  | _ + 1, [] => none
  | feeds + 1, c :: text =>
      if c = '\n' then behindFeeds? feeds text else behindFeeds? (feeds + 1) text

/-- What stands behind some characters of a text, none of them a line feed. -/
def behindColumns? : Nat → List Char → Option (List Char)
  | 0, text => some text
  | _ + 1, [] => none
  | columns + 1, c :: text => if c = '\n' then none else behindColumns? columns text

/-- The offset that a line and a column lead to, both from one. -/
def offsetAt? (source : String) : Nat × Nat → Option Nat
  | (line + 1, column + 1) => do
      let rest ← behindFeeds? line source.toList
      let rest ← behindColumns? column rest
      pure (source.utf8ByteSize - byteLength rest)
  | _ => none

variable {source : String} {text rest before head part after : List Char}

/-- Line feeds are skipped up to the start of a line. -/
theorem behindFeeds?_eq_some_iff : ∀ {feeds : Nat} {text : List Char},
    behindFeeds? feeds text = some rest ↔
      ∃ head, text = head ++ rest ∧ EndsLine head ∧ head.count '\n' = feeds
  | 0, text => by
      rw [behindFeeds?, Option.some.injEq]
      constructor
      · rintro rfl
        exact ⟨[], rfl, endsLine_nil, rfl⟩
      · rintro ⟨head, rfl, hhead, hcount⟩
        rw [hhead.eq_nil hcount]
        rfl
  | feeds + 1, [] => by
      refine ⟨nofun, ?_⟩
      rintro ⟨head, hnil, -, hcount⟩
      rw [(List.append_eq_nil_iff.mp hnil.symm).1] at hcount
      cases hcount
  | feeds + 1, c :: text => by
      -- the part that is skipped starts with the first character
      have hfirst : (∃ head, c :: text = head ++ rest ∧ EndsLine head ∧
          head.count '\n' = feeds + 1) ↔
            ∃ head, text = head ++ rest ∧ EndsLine (c :: head) ∧
              (c :: head).count '\n' = feeds + 1 := by
        constructor
        · rintro ⟨head, htext, hhead, hcount⟩
          cases head with
          | nil => cases hcount
          | cons d head =>
              rw [List.cons_append, List.cons.injEq] at htext
              obtain ⟨rfl, htext⟩ := htext
              exact ⟨head, htext, hhead, hcount⟩
        · rintro ⟨head, rfl, hhead, hcount⟩
          exact ⟨c :: head, rfl, hhead, hcount⟩
      rw [hfirst, behindFeeds?]
      simp only [endsLine_cons_iff]
      by_cases hc : c = '\n'
      · subst hc
        rw [if_pos rfl, behindFeeds?_eq_some_iff]
        simp
      · rw [if_neg hc, behindFeeds?_eq_some_iff]
        simp only [List.count_cons_of_ne hc]
        constructor
        · rintro ⟨head, htext, hhead, hcount⟩
          refine ⟨head, htext, ⟨hhead, ?_⟩, hcount⟩
          rintro rfl
          cases hcount
        · rintro ⟨head, htext, ⟨hhead, -⟩, hcount⟩
          exact ⟨head, htext, hhead, hcount⟩

/-- Characters are skipped within a line. -/
theorem behindColumns?_eq_some_iff : ∀ {columns : Nat} {text : List Char},
    behindColumns? columns text = some rest ↔
      ∃ part, text = part ++ rest ∧ '\n' ∉ part ∧ part.length = columns
  | 0, text => by
      rw [behindColumns?, Option.some.injEq]
      constructor
      · rintro rfl
        exact ⟨[], rfl, List.not_mem_nil, rfl⟩
      · rintro ⟨part, rfl, -, hlength⟩
        rw [List.eq_nil_of_length_eq_zero hlength]
        rfl
  | columns + 1, [] => by
      refine ⟨nofun, ?_⟩
      rintro ⟨part, hnil, -, hlength⟩
      rw [(List.append_eq_nil_iff.mp hnil.symm).1] at hlength
      cases hlength
  | columns + 1, c :: text => by
      have ih : behindColumns? columns text = some rest ↔
          ∃ part, text = part ++ rest ∧ '\n' ∉ part ∧ part.length = columns :=
        behindColumns?_eq_some_iff
      rw [behindColumns?]
      constructor
      · intro h
        split at h
        · cases h
        · next hc =>
          obtain ⟨part, rfl, hpart, rfl⟩ := ih.mp h
          refine ⟨c :: part, rfl, ?_, rfl⟩
          rw [List.mem_cons, not_or]
          exact ⟨Ne.symm hc, hpart⟩
      · rintro ⟨part, htext, hpart, hlength⟩
        cases part with
        | nil => cases hlength
        | cons d part =>
            rw [List.cons_append, List.cons.injEq] at htext
            obtain ⟨rfl, htext⟩ := htext
            rw [List.mem_cons, not_or] at hpart
            rw [if_neg (Ne.symm hpart.1)]
            exact ih.mpr ⟨part, htext, hpart.2, Nat.succ.inj hlength⟩

/-! ## Boundaries of lines -/

/-- A source is cut at a boundary: the lines above it, and the parts of the text before and behind
it. -/
structure Cut (source : String) (head part after : List Char) : Prop where
  text : source.toList = head ++ (part ++ after)
  head : EndsLine head
  part : '\n' ∉ part

namespace Cut

theorem isBoundary (h : Cut source head part after) :
    IsBoundary source (byteLength (head ++ part)) :=
  isBoundary_iff.mpr ⟨head ++ part, after, by rw [h.text, List.append_assoc], rfl⟩

theorem position_eq (h : Cut source head part after) :
    position source (byteLength (head ++ part)) = (head.count '\n' + 1, part.length + 1) :=
  position_of_line h.text h.head h.part

end Cut

/-- Before any place of a text there are some lines and a part of one. -/
theorem exists_line : ∀ text : List Char,
    ∃ head part, text = head ++ part ∧ EndsLine head ∧ '\n' ∉ part
  | [] => ⟨[], [], rfl, endsLine_nil, List.not_mem_nil⟩
  | c :: text => by
      obtain ⟨head, part, rfl, hhead, hpart⟩ := exists_line text
      by_cases hc : head = [] ∧ c ≠ '\n'
      · obtain ⟨rfl, hc⟩ := hc
        refine ⟨[], c :: part, rfl, endsLine_nil, ?_⟩
        rw [List.mem_cons, not_or]
        exact ⟨Ne.symm hc, hpart⟩
      · refine ⟨c :: head, part, rfl, endsLine_cons_iff.mpr ⟨hhead, fun hnil => ?_⟩, hpart⟩
        by_contra hne
        exact hc ⟨hnil, hne⟩

theorem exists_cut {offset : Nat} (h : IsBoundary source offset) :
    ∃ head part after, Cut source head part after ∧ offset = byteLength (head ++ part) := by
  obtain ⟨before, after, htext, rfl⟩ := isBoundary_iff.mp h
  obtain ⟨head, part, rfl, hhead, hpart⟩ := exists_line before
  exact ⟨head, part, after, ⟨by rw [htext, List.append_assoc], hhead, hpart⟩, rfl⟩

/-- A position leads to the cut that has as many line feeds and characters. -/
theorem offsetAt?_eq_some_iff_cut {place : Nat × Nat} {offset : Nat} :
    offsetAt? source place = some offset ↔
      ∃ head part after, Cut source head part after ∧
        place = (head.count '\n' + 1, part.length + 1) ∧ offset = byteLength (head ++ part) := by
  have hsize : ∀ {head part after : List Char}, source.toList = head ++ (part ++ after) →
      source.utf8ByteSize - byteLength after = byteLength (head ++ part) := by
    intro head part after htext
    rw [← byteLength_toList, htext, ← List.append_assoc, byteLength_append, Nat.add_sub_cancel]
  constructor
  · intro h
    obtain ⟨line, column⟩ := place
    cases line with
    | zero => cases h
    | succ line =>
      cases column with
      | zero => cases h
      | succ column =>
        obtain ⟨behind, hfeeds, h⟩ := Option.bind_eq_some_iff.mp h
        obtain ⟨after, hcolumns, h⟩ := Option.bind_eq_some_iff.mp h
        cases h
        obtain ⟨head, htext, hhead, rfl⟩ := behindFeeds?_eq_some_iff.mp hfeeds
        obtain ⟨part, rfl, hpart, rfl⟩ := behindColumns?_eq_some_iff.mp hcolumns
        exact ⟨head, part, after, ⟨htext, hhead, hpart⟩, rfl, hsize htext⟩
  · rintro ⟨head, part, after, ⟨htext, hhead, hpart⟩, rfl, rfl⟩
    have hfeeds : behindFeeds? (head.count '\n') source.toList = some (part ++ after) :=
      behindFeeds?_eq_some_iff.mpr ⟨head, htext, hhead, rfl⟩
    have hcolumns : behindColumns? part.length (part ++ after) = some after :=
      behindColumns?_eq_some_iff.mpr ⟨part, rfl, hpart, rfl⟩
    simp [offsetAt?, hfeeds, hcolumns, hsize htext]

/-- A position leads to the one boundary that has it. -/
theorem offsetAt?_eq_some_iff {place : Nat × Nat} {offset : Nat} :
    offsetAt? source place = some offset ↔
      IsBoundary source offset ∧ position source offset = place := by
  rw [offsetAt?_eq_some_iff_cut]
  constructor
  · rintro ⟨head, part, after, hcut, rfl, rfl⟩
    exact ⟨hcut.isBoundary, hcut.position_eq⟩
  · rintro ⟨hboundary, rfl⟩
    obtain ⟨head, part, after, hcut, rfl⟩ := exists_cut hboundary
    exact ⟨head, part, after, hcut, hcut.position_eq, rfl⟩

/-! ## The order of positions -/

/-- Of two beginnings of a text, the one of fewer bytes is a beginning of the other. -/
theorem prefix_of_byteLength_le {first second : List Char} (hfirst : first <+: text)
    (hsecond : second <+: text) (h : byteLength first ≤ byteLength second) :
    first <+: second := by
  rcases List.prefix_or_prefix_of_prefix hfirst hsecond with hle | ⟨more, rfl⟩
  · exact hle
  · have hmore : more = [] := by
      by_contra hne
      have hpos := byteLength_pos hne
      rw [byteLength_append] at h
      omega
    exact ⟨[], by simp [hmore]⟩

/-- A later boundary is in a later line, or further on in the same one. -/
theorem position_lt_of_lt {a b : Nat} (ha : IsBoundary source a) (hb : IsBoundary source b)
    (h : a < b) : Prod.Lex (· < ·) (· < ·) (position source a) (position source b) := by
  obtain ⟨head, part, after, hcut, rfl⟩ := exists_cut ha
  obtain ⟨before, behind, htext, rfl⟩ := isBoundary_iff.mp hb
  have hsource : source.toList = (head ++ part) ++ after := by rw [hcut.text, List.append_assoc]
  obtain ⟨more, rfl⟩ := prefix_of_byteLength_le (hsource ▸ List.prefix_append _ after)
    (htext ▸ List.prefix_append before behind) (Nat.le_of_lt h)
  -- what lies between is a part of the line, or reaches over line feeds
  obtain ⟨lines, rest, rfl, hlines, hrest⟩ := exists_line more
  rw [hcut.position_eq, Prod.lex_def]
  cases lines with
  | nil =>
      have hlater : Cut source head (part ++ rest) behind :=
        ⟨by rw [htext]; simp, hcut.head, by simp [hcut.part, hrest]⟩
      have hlength : 0 < rest.length := by
        rw [List.length_pos_iff]
        rintro rfl
        simp at h
      rw [List.nil_append, List.append_assoc, hlater.position_eq, List.length_append]
      exact .inr ⟨rfl, by dsimp only; omega⟩
  | cons c lines =>
      have hlater : Cut source ((head ++ part) ++ c :: lines) rest behind :=
        ⟨by rw [htext]; simp, hlines.append (List.cons_ne_nil _ _) _, hrest⟩
      have hfeeds : 0 < (c :: lines).count '\n' := by
        rw [Nat.pos_iff_ne_zero]
        exact fun hzero => absurd (hlines.eq_nil hzero) (List.cons_ne_nil _ _)
      rw [← List.append_assoc, hlater.position_eq, List.count_append, List.count_append]
      exact .inl (by dsimp only; omega)

/-- Boundaries and their positions are in the same order. -/
theorem lt_iff_position_lt {a b : Nat} (ha : IsBoundary source a) (hb : IsBoundary source b) :
    a < b ↔ Prod.Lex (· < ·) (· < ·) (position source a) (position source b) := by
  refine ⟨position_lt_of_lt ha hb, fun h => ?_⟩
  rcases Nat.lt_trichotomy a b with hlt | rfl | hgt
  · exact hlt
  · rw [Prod.lex_def] at h
    omega
  · have hback := position_lt_of_lt hb ha hgt
    rw [Prod.lex_def] at h hback
    omega

/-! ## Offsets inside a character and behind the end -/

/-- The last boundary up to an offset. -/
structure IsFloor (source : String) (offset floor : Nat) : Prop where
  boundary : IsBoundary source floor
  le : floor ≤ offset
  greatest : ∀ b, IsBoundary source b → b ≤ offset → b ≤ floor

/-- A walk stops in front of the character that its last bytes do not fill. -/
theorem exists_walked : ∀ (text : List Char) (bytes : Nat),
    ∃ before after, text = before ++ after ∧ byteLength before ≤ bytes ∧
      (∀ c ∈ after.head?, bytes < byteLength before + c.utf8Size) ∧
      ∀ line column, walk text bytes line column = walk text (byteLength before) line column
  | [], bytes => ⟨[], [], rfl, Nat.zero_le _, nofun, fun _ _ => rfl⟩
  | c :: text, bytes => by
      by_cases hc : bytes < c.utf8Size
      · refine ⟨[], c :: text, rfl, Nat.zero_le _, ?_, fun line column => ?_⟩
        · rintro d ⟨⟩
          rwa [byteLength, Nat.zero_add]
        · rw [walk, if_pos hc, byteLength, walk_zero]
      · obtain ⟨left, rfl⟩ := Nat.exists_eq_add_of_le (Nat.le_of_not_lt hc)
        obtain ⟨before, after, rfl, hle, hstop, hwalk⟩ := exists_walked text left
        refine ⟨c :: before, after, rfl, Nat.add_le_add_left hle _, fun d hd => ?_,
          fun line column => ?_⟩
        · have hd := hstop d hd
          rw [byteLength]
          omega
        · rw [byteLength, walk_cons, walk_cons, hwalk, hwalk]

/-- Any offset has the position of the last boundary up to it. -/
theorem exists_isFloor (source : String) (offset : Nat) :
    ∃ floor, IsFloor source offset floor ∧ position source offset = position source floor := by
  obtain ⟨before, after, htext, hle, hstop, hwalk⟩ := exists_walked source.toList offset
  refine ⟨byteLength before, ⟨?_, hle, fun b hb hbelow => ?_⟩, hwalk 1 1⟩
  · exact isBoundary_iff.mpr ⟨before, after, htext, rfl⟩
  · by_contra hlt
    obtain ⟨longer, behind, hlonger, rfl⟩ := isBoundary_iff.mp hb
    obtain ⟨more, rfl⟩ := prefix_of_byteLength_le (htext ▸ List.prefix_append before after)
      (hlonger ▸ List.prefix_append longer behind) (Nat.le_of_not_le hlt)
    cases more with
    | nil => simp at hlt
    | cons c more =>
        -- the walk had the bytes for one character more
        rw [htext, List.append_assoc, List.append_cancel_left_eq] at hlonger
        have hc := hstop c (by rw [hlonger]; rfl)
        rw [byteLength_append, byteLength] at hbelow
        omega

theorem IsFloor.eq_of_utf8ByteSize_le {offset floor : Nat} (h : IsFloor source offset floor)
    (hend : source.utf8ByteSize ≤ offset) : floor = source.utf8ByteSize :=
  Nat.le_antisymm h.boundary.le
    (h.greatest _ (standsIn_at_utf8ByteSize source).stop hend)

/-- The line and the column of a boundary lead to it and to no other offset, and boundaries and
positions are in the same order. Any other offset has the position of the last boundary up to it,
which is the end of the source for an offset behind it. -/
theorem positions_locate (source : String) :
    (∀ place offset, offsetAt? source place = some offset ↔
      IsBoundary source offset ∧ position source offset = place) ∧
    (∀ a b, IsBoundary source a → IsBoundary source b →
      (a < b ↔ Prod.Lex (· < ·) (· < ·) (position source a) (position source b))) ∧
    (∀ offset, ∃ floor, IsFloor source offset floor ∧
      position source offset = position source floor ∧
      (source.utf8ByteSize ≤ offset → floor = source.utf8ByteSize)) := by
  refine ⟨fun place offset => offsetAt?_eq_some_iff, fun a b => lt_iff_position_lt,
    fun offset => ?_⟩
  obtain ⟨floor, hfloor, hposition⟩ := exists_isFloor source offset
  exact ⟨floor, hfloor, hposition, hfloor.eq_of_utf8ByteSize_le⟩

theorem positions_locate_accent :
    IsBoundary "é\nV" 2 ∧ IsBoundary "é\nV" 4 ∧ offsetAt? "é\nV" (2, 2) = some 4 ∧
      Prod.Lex (· < ·) (· < ·) (position "é\nV" 2) (position "é\nV" 4) ∧
      position "é\nV" 9 = (2, 2) := by
  obtain ⟨hplace, horder, hfloor⟩ := positions_locate "é\nV"
  have hfeed : IsBoundary "é\nV" 2 := isBoundary_iff.mpr ⟨['é'], ['\n', 'V'], by decide, rfl⟩
  have hend : IsBoundary "é\nV" 4 :=
    isBoundary_iff.mpr ⟨['é', '\n', 'V'], [], by decide, rfl⟩
  have hlast : position "é\nV" 4 = (2, 2) := by decide
  obtain ⟨floor, -, hposition, hfloor⟩ := hfloor 9
  have hfloor : floor = 4 := hfloor (by decide)
  exact ⟨hfeed, hend, (hplace _ _).mpr ⟨hend, hlast⟩, (horder 2 4 hfeed hend).mp (by decide),
    by rw [hposition, hfloor, hlast]⟩

end Language
end Pushdown
