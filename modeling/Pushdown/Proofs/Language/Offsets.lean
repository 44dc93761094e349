import Pushdown.Language.Span

/-!
# Offsets

An offset of a source counts the bytes before it. Between two characters, and at both ends, it is a
boundary. The line and the column of a boundary are found from the line breaks before it and the
characters behind the last of them.

## Results

* `byteLength_toList`, `isBoundary_iff`: bytes and boundaries, by the characters before them;
* `position_of_line`: the line and the column of a boundary.
-/

namespace Pushdown
namespace Language

/-! ## Bytes -/

theorem byteLength_append (first second : List Char) :
    byteLength (first ++ second) = byteLength first + byteLength second := by
  induction first with
  | nil => exact (Nat.zero_add _).symm
  | cons c first ih => rw [List.cons_append, byteLength, byteLength, ih, Nat.add_assoc]

theorem byteLength_pos {text : List Char} (h : text ≠ []) : 0 < byteLength text := by
  obtain ⟨c, rest, rfl⟩ := List.exists_cons_of_ne_nil h
  exact Nat.add_pos_left c.utf8Size_pos _

theorem utf8ByteSize_ofList (text : List Char) :
    (String.ofList text).utf8ByteSize = byteLength text := by
  induction text with
  | nil => rfl
  | cons c rest ih =>
      rw [String.ofList_cons, String.utf8ByteSize_append, String.utf8ByteSize_singleton, ih,
        byteLength]

/-- The bytes of the characters of a source are its bytes. -/
theorem byteLength_toList (source : String) : byteLength source.toList = source.utf8ByteSize := by
  rw [← utf8ByteSize_ofList, String.ofList_toList]

/-- Every character takes a byte at least. -/
theorem length_le_byteLength (text : List Char) : text.length ≤ byteLength text := by
  induction text with
  | nil => exact Nat.le_refl 0
  | cons c rest ih =>
      have hc := c.utf8Size_pos
      rw [List.length_cons, byteLength]
      omega

/-- Text with a byte for each character has no character of more. -/
theorem byteLength_eq_length_iff {text : List Char} :
    byteLength text = text.length ↔ ∀ c ∈ text, c.utf8Size = 1 := by
  induction text with
  | nil => simp [byteLength]
  | cons c rest ih =>
      have hc := c.utf8Size_pos
      have hrest := length_le_byteLength rest
      rw [List.forall_mem_cons, ← ih, byteLength, List.length_cons]
      omega

/-! ## Boundaries -/

/-- An offset of a source is a boundary: it stands inside no character. -/
def IsBoundary (source : String) (offset : Nat) : Prop := String.Pos.Raw.IsValid source ⟨offset⟩

theorem isBoundary_iff {source : String} {offset : Nat} :
    IsBoundary source offset ↔
      ∃ before after, source.toList = before ++ after ∧ offset = byteLength before := by
  rw [IsBoundary, String.Pos.Raw.isValid_iff_exists_append]
  constructor
  · rintro ⟨first, second, rfl, hoffset⟩
    refine ⟨first.toList, second.toList, String.toList_append, ?_⟩
    rw [byteLength_toList]
    exact congrArg String.Pos.Raw.byteIdx hoffset
  · rintro ⟨before, after, htext, rfl⟩
    refine ⟨String.ofList before, String.ofList after, ?_, ?_⟩
    · rw [← String.ofList_append, ← htext, String.ofList_toList]
    · rw [String.rawEndPos, utf8ByteSize_ofList]

theorem IsBoundary.le {source : String} {offset : Nat} (h : IsBoundary source offset) :
    offset ≤ source.utf8ByteSize := by
  obtain ⟨before, after, htext, rfl⟩ := isBoundary_iff.mp h
  rw [← byteLength_toList, htext, byteLength_append]
  exact Nat.le_add_right _ _

/-- A span stands in a source: it starts and ends at boundaries, and not before it starts. -/
structure Span.StandsIn (span : Span) (source : String) : Prop where
  ordered : span.start ≤ span.stop
  inside : span.stop ≤ source.utf8ByteSize
  start : IsBoundary source span.start
  stop : IsBoundary source span.stop

/-- The end of a source stands in it. -/
theorem standsIn_at_utf8ByteSize (source : String) :
    (Span.at_ source.utf8ByteSize).StandsIn source := by
  have hend : IsBoundary source source.utf8ByteSize :=
    isBoundary_iff.mpr ⟨source.toList, [], by simp, (byteLength_toList source).symm⟩
  exact ⟨Nat.le_refl _, Nat.le_refl _, hend, hend⟩

/-! ## Lines and columns -/

/-- A text that is empty or ends with a line break, so that a line starts behind it. -/
def EndsLine (text : List Char) : Prop := ∀ c ∈ text.getLast?, c = '\n'

section lines

variable {text head : List Char}

theorem endsLine_nil : EndsLine [] := nofun

theorem endsLine_cons_iff {c : Char} :
    EndsLine (c :: text) ↔ EndsLine text ∧ (text = [] → c = '\n') := by
  cases text with
  | nil =>
      constructor
      · exact fun h => ⟨endsLine_nil, fun _ => h c rfl⟩
      · rintro ⟨-, hc⟩ d ⟨⟩
        exact hc rfl
  | cons d text =>
      rw [EndsLine, List.getLast?_cons_cons]
      exact ⟨fun h => ⟨h, nofun⟩, fun h => h.1⟩

theorem EndsLine.tail {c : Char} (h : EndsLine (c :: text)) : EndsLine text :=
  (endsLine_cons_iff.mp h).1

/-- A text that ends a line has a line feed, unless it is empty. -/
theorem EndsLine.eq_nil (h : EndsLine text) (hcount : text.count '\n' = 0) : text = [] := by
  cases hlast : text.getLast? with
  | none => exact List.getLast?_eq_none_iff.mp hlast
  | some c =>
      obtain rfl := h c hlast
      exact absurd (List.mem_of_getLast? hlast) (List.count_eq_zero.mp hcount)

theorem EndsLine.append (h : EndsLine head) (hne : head ≠ []) (before : List Char) :
    EndsLine (before ++ head) := by
  intro c hc
  have hlast := List.getLast?_eq_some_getLast hne
  rw [List.getLast?_append, hlast, Option.some_or, ← hlast] at hc
  exact h c hc

end lines

theorem walk_zero (text : List Char) (line column : Nat) :
    walk text 0 line column = (line, column) := by
  cases text with
  | nil => rfl
  | cons c rest => rw [walk, if_pos c.utf8Size_pos]

theorem walk_cons (c : Char) (rest : List Char) (bytes line column : Nat) :
    walk (c :: rest) (c.utf8Size + bytes) line column =
      if c = '\n' then walk rest bytes (line + 1) 1 else walk rest bytes line (column + 1) := by
  rw [walk, if_neg (by omega), Nat.add_sub_cancel_left]

/-- Over some lines to the start of the next one. -/
theorem walk_lines {head : List Char} (h : EndsLine head) (after : List Char)
    (bytes line column : Nat) (hstart : head = [] → column = 1) :
    walk (head ++ after) (byteLength head + bytes) line column =
      walk after bytes (line + head.count '\n') 1 := by
  induction head generalizing line column with
  | nil => rw [hstart rfl, List.nil_append, byteLength, Nat.zero_add, List.count_nil, Nat.add_zero]
  | cons c head ih =>
      rw [List.cons_append, byteLength, Nat.add_assoc, walk_cons, List.count_cons]
      by_cases hc : c = '\n'
      · rw [if_pos hc, ih h.tail _ _ fun _ => rfl, if_pos (by rw [hc]; rfl), Nat.add_right_comm,
          Nat.add_assoc]
      · have hne : head ≠ [] := by
          rintro rfl
          exact hc (h c rfl)
        rw [if_neg hc, ih h.tail _ _ fun hnil => absurd hnil hne, if_neg (by simpa using hc),
          Nat.add_zero]

/-- Over some characters of one line. -/
theorem walk_part {part : List Char} (h : '\n' ∉ part) (after : List Char)
    (bytes line column : Nat) :
    walk (part ++ after) (byteLength part + bytes) line column =
      walk after bytes line (column + part.length) := by
  induction part generalizing column with
  | nil => rw [List.nil_append, byteLength, Nat.zero_add, List.length_nil, Nat.add_zero]
  | cons c part ih =>
      rw [List.mem_cons, not_or] at h
      rw [List.cons_append, byteLength, Nat.add_assoc, walk_cons, if_neg (Ne.symm h.1), ih h.2,
        List.length_cons, Nat.add_right_comm, Nat.add_assoc]

/-- The line of a boundary counts the line breaks before it, and the column the characters between
the last of them and the boundary. -/
theorem position_of_line {source : String} {head part after : List Char}
    (hsource : source.toList = head ++ (part ++ after)) (hhead : EndsLine head)
    (hpart : '\n' ∉ part) :
    position source (byteLength (head ++ part)) = (head.count '\n' + 1, part.length + 1) := by
  rw [position, hsource, byteLength_append, walk_lines hhead _ _ _ _ fun _ => rfl,
    ← Nat.add_zero (byteLength part), walk_part hpart, walk_zero, Nat.add_comm 1, Nat.add_comm 1]

end Language
end Pushdown
