import Mathlib.Data.List.Basic
import Pushdown.Language.Diagnostic
import Pushdown.Proofs.Language.Coverage

/-!
# Marked lines

A message shows the line that its span stands in, with a mark below it. The mark should start below
the first character of the span and go on below the others. It is placed for line numbers of up to
three digits, and it goes on once for each byte, up to the end of the line. So it is right in the
first 999 lines, for spans without wide characters and for spans that end their line.

## Results

* `getElem?_lines`: the lines of a source, by the line breaks before them;
* `Diagnostic.shows_iff_marks`: the picture that a message holds;
* `marks_picture_iff`: when its mark is right;
* `Diagnostic.marked_iff`: when a message marks its span.
-/

namespace Pushdown
namespace Language

/-! ## Lines -/

/-- Some characters of a line of a source, with the lines above and below. -/
structure PartOfLine (source : String) (head before marked after tail : List Char) : Prop where
  text : source.toList = head ++ (before ++ marked ++ after ++ tail)
  head : EndsLine head
  line : '\n' ∉ before ++ marked ++ after
  tail : ∀ c ∈ tail.head?, c = '\n'
  nonempty : marked ≠ []

/-- The lines of a source end with a line feed and no carriage return before it. -/
def BareFeeds (source : String) : Prop := ¬ ['\r', '\n'] <:+: source.toList

theorem bareFeeds_of_not_mem {source : String} (h : '\r' ∉ source.toList) : BareFeeds source :=
  fun hfeed => h (hfeed.subset List.mem_cons_self)

theorem linesFrom_part {part : List Char} (h : '\n' ∉ part) (current rest : List Char) :
    linesFrom current (part ++ rest) = linesFrom (current ++ part) rest := by
  induction part generalizing current with
  | nil => rw [List.nil_append, List.append_nil]
  | cons c part ih =>
      rw [List.mem_cons, not_or] at h
      rw [List.cons_append, linesFrom, if_neg (Ne.symm h.1), ih h.2, List.append_assoc,
        List.singleton_append]

/-- There are as many lines above a line as line breaks. -/
theorem linesFrom_head {head : List Char} (h : EndsLine head) (current rest : List Char)
    (hstart : head = [] → current = []) :
    ∃ above, above.length = head.count '\n' ∧
      linesFrom current (head ++ rest) = above ++ linesFrom [] rest := by
  induction head generalizing current with
  | nil =>
      rw [hstart rfl]
      exact ⟨[], rfl, rfl⟩
  | cons c head ih =>
      rw [List.cons_append, linesFrom]
      by_cases hc : c = '\n'
      · obtain ⟨above, hcount, habove⟩ := ih h.tail [] fun _ => rfl
        refine ⟨dropReturn current :: above, ?_, ?_⟩
        · rw [hc, List.count_cons_self, List.length_cons, hcount]
        · rw [if_pos hc, habove, List.cons_append]
      · have hne : head ≠ [] := by
          rintro rfl
          exact hc (h c rfl)
        obtain ⟨above, hcount, habove⟩ := ih h.tail (current ++ [c]) fun hnil => absurd hnil hne
        refine ⟨above, ?_, ?_⟩
        · rw [List.count_cons_of_ne hc, hcount]
        · rw [if_neg hc, habove]

theorem linesFrom_line {line tail : List Char} (hline : '\n' ∉ line) (hne : line ≠ [])
    (htail : ∀ c ∈ tail.head?, c = '\n') (hreturn : tail ≠ [] → line.getLast? ≠ some '\r') :
    ∃ below, linesFrom [] (line ++ tail) = line :: below := by
  rw [linesFrom_part hline, List.nil_append]
  cases tail with
  | nil =>
      refine ⟨[], ?_⟩
      rw [linesFrom, if_neg (by simpa using hne)]
  | cons c tail =>
      refine ⟨linesFrom [] tail, ?_⟩
      rw [linesFrom, if_pos (htail c rfl), dropReturn, if_neg (hreturn (List.cons_ne_nil _ _))]

namespace PartOfLine

variable {source : String} {head before marked after tail : List Char}

/-- Where lines end with a bare line feed, a line is found by the line breaks above it. -/
theorem getElem?_lines (h : PartOfLine source head before marked after tail)
    (hbare : BareFeeds source) :
    (lines source)[head.count '\n']? = some (before ++ marked ++ after) := by
  have hne : before ++ marked ++ after ≠ [] := by simp [h.nonempty]
  have hreturn : tail ≠ [] → (before ++ marked ++ after).getLast? ≠ some '\r' := by
    intro htail hlast
    obtain ⟨c, rest, rfl⟩ := List.exists_cons_of_ne_nil htail
    obtain ⟨line, hline⟩ := List.getLast?_eq_some_iff.mp hlast
    obtain rfl := h.tail c rfl
    refine hbare ⟨head ++ line, rest, ?_⟩
    rw [h.text, hline]
    simp
  obtain ⟨above, hcount, habove⟩ := linesFrom_head h.head []
    (before ++ marked ++ after ++ tail) fun _ => rfl
  obtain ⟨below, hbelow⟩ := linesFrom_line h.line hne h.tail hreturn
  rw [lines, h.text, habove, hbelow, ← hcount, List.getElem?_append_right (Nat.le_refl _),
    Nat.sub_self]
  rfl

theorem position_eq (h : PartOfLine source head before marked after tail) :
    position source (byteLength (head ++ before)) =
      (head.count '\n' + 1, before.length + 1) := by
  have hsource : source.toList = head ++ (before ++ (marked ++ after ++ tail)) := by
    rw [h.text]
    simp
  exact position_of_line hsource h.head fun hmem => h.line (by simp [hmem])

end PartOfLine

/-! ## Pictures -/

/-- A line with a mark below it. -/
structure Picture where
  /-- What stands before the line. -/
  margin : List Char
  line : List Char
  /-- What stands before the mark. -/
  indent : List Char
  /-- What goes on with the mark. -/
  trail : List Char

namespace Picture

/-- The text of a picture. -/
def text (p : Picture) : List Char :=
  p.margin ++ p.line ++ '\n' :: (p.indent ++ '^' :: (p.trail ++ ['\n']))

/-- The parts of a picture are read off its text. -/
structure Clean (p : Picture) : Prop where
  line : '\n' ∉ p.margin ++ p.line
  mark : '^' ∉ p.indent

/-- A picture marks some characters of its line that stand behind others: the mark starts in the
column of the first of them, and goes on once for each further one. -/
structure Marks (p : Picture) (before marked : List Char) : Prop where
  column : p.indent.length = p.margin.length + before.length
  trail : p.trail = List.replicate (marked.length - 1) '~'

theorem eq_of_text_eq {p q : Picture} (hp : p.Clean) (hq : q.Clean) (hline : p.line = q.line)
    (h : p.text = q.text) : p = q := by
  obtain ⟨hshown, hbelow⟩ := Text.cut_inj hp.line hq.line h
  obtain ⟨hindent, htrail⟩ := Text.cut_inj hp.mark hq.mark hbelow
  rw [hline] at hshown
  obtain ⟨margin, line, indent, trail⟩ := p
  obtain ⟨margin', line', indent', trail'⟩ := q
  obtain rfl : margin = margin' := List.append_cancel_right hshown
  obtain rfl : trail = trail' := List.append_cancel_right htrail
  obtain rfl : indent = indent' := hindent
  obtain rfl : line = line' := hline
  rfl

end Picture

section picture

variable {number : Nat} {before marked after : List Char}

/-- The line of some characters, behind its number, with the mark that a message gives them. -/
def picture (number : Nat) (before marked after : List Char) : Picture where
  margin := lineNumber number ++ ['|', ' ']
  line := before ++ marked ++ after
  indent := ' ' :: ' ' :: ' ' :: '|' :: List.replicate (before.length + 1) ' '
  trail := List.replicate (min (byteLength marked - 1) (marked.length + after.length - 1)) '~'

theorem length_lineNumber (n : Nat) :
    (lineNumber n).length = max 3 (Nat.toDigits 10 n).length := by
  rw [lineNumber, List.length_append, List.length_replicate]
  omega

/-- A line number is made of blanks and digits. -/
theorem isDigit_of_mem_lineNumber {n : Nat} {c : Char} (h : c ∈ lineNumber n) :
    c = ' ' ∨ c.isDigit = true := by
  rcases List.mem_append.mp h with hblank | hdigit
  · exact .inl (List.eq_of_mem_replicate hblank)
  · exact .inr (Nat.isDigit_of_mem_toDigits (by decide) (by decide) hdigit)

theorem clean_picture (number : Nat) (hline : '\n' ∉ before ++ marked ++ after) :
    (picture number before marked after).Clean where
  line := by
    intro hmem
    rcases List.mem_append.mp hmem with hmargin | hmem
    · rcases List.mem_append.mp hmargin with hnumber | hbar
      · rcases isDigit_of_mem_lineNumber hnumber with h | h <;> revert h <;> decide
      · revert hbar
        decide
    · exact hline hmem
  mark := by simp [picture]

/-- The mark is in the right column where three columns hold the line number. -/
theorem column_picture_iff (number : Nat) (before marked after : List Char) :
    (picture number before marked after).indent.length =
        (picture number before marked after).margin.length + before.length ↔ number < 1000 := by
  have hdigits : (Nat.toDigits 10 number).length ≤ 3 ↔ number < 1000 :=
    Nat.length_toDigits_le_iff (by decide) (by decide)
  rw [← hdigits]
  simp only [picture, List.length_append, List.length_cons, List.length_replicate,
    List.length_nil, length_lineNumber]
  omega

/-- The mark goes on over the bytes of its characters, up to the end of the line. -/
theorem trail_picture_iff (number : Nat) (before after : List Char) (hne : marked ≠ []) :
    (picture number before marked after).trail = List.replicate (marked.length - 1) '~' ↔
      (∀ c ∈ marked, c.utf8Size = 1) ∨ after = [] := by
  have hpos := List.length_pos_iff.mpr hne
  have hbytes := length_le_byteLength marked
  simp only [← byteLength_eq_length_iff, ← List.length_eq_zero_iff, picture, List.replicate_inj,
    or_true, and_true]
  omega

theorem marks_picture_iff (hne : marked ≠ []) :
    (picture number before marked after).Marks before marked ↔
      number < 1000 ∧ ((∀ c ∈ marked, c.utf8Size = 1) ∨ after = []) := by
  rw [← column_picture_iff number before marked after,
    ← trail_picture_iff number before after hne]
  exact ⟨fun h => ⟨h.column, h.trail⟩, fun h => ⟨h.1, h.2⟩⟩

end picture

namespace PartOfLine

variable {source : String} {head before marked after tail : List Char}

theorem marker_eq (head before marked after : List Char) (number : Nat) :
    marker (before.length + 1) (spanOf (head ++ before) marked) (before ++ marked ++ after) =
      List.replicate (before.length + 1) ' ' ++
        '^' :: (picture number before marked after).trail := by
  have hbytes : (spanOf (head ++ before) marked).length = byteLength marked := by
    rw [Span.length, spanOf, byteLength_append (head ++ before), Nat.add_sub_cancel_left]
  have hroom : (before ++ marked ++ after).length - (before.length + 1) =
      marked.length + after.length - 1 := by
    simp only [List.length_append]
    omega
  rw [marker, hbytes, hroom, picture]

/-- The snippet of a span in a line is its place and the picture. -/
theorem snippet_eq (h : PartOfLine source head before marked after tail)
    (hbare : BareFeeds source) :
    snippet source (spanOf (head ++ before) marked) =
      "  --> line " ++ toString (head.count '\n' + 1) ++ ":" ++ toString (before.length + 1) ++
        "\n" ++ "   |\n" ++
        String.ofList (picture (head.count '\n' + 1) before marked after).text := by
  have hposition : position source (spanOf (head ++ before) marked).start =
      (head.count '\n' + 1, before.length + 1) := h.position_eq
  have hmarker := marker_eq head before marked after (head.count '\n' + 1)
  rw [snippet, hposition]
  simp only [Nat.add_sub_cancel, h.getElem?_lines hbare, hmarker]
  rw [← String.toList_inj]
  simp [Picture.text, picture, String.toList_append]

end PartOfLine

/-! ## Messages -/

namespace Diagnostic

variable {d : Diagnostic} {source : String} {head before marked after tail : List Char}

/-- What a message says above the line of its span. -/
def opening (d : Diagnostic) (line column : Nat) : String :=
  d.heading ++ ": " ++ d.message ++ "\n" ++ "  --> line " ++ toString line ++ ":" ++
    toString column ++ "\n" ++ "   |\n"

/-- What a message says below the mark. -/
def closing (d : Diagnostic) : String :=
  d.hint.elim "" fun hint => "   = hint: " ++ hint ++ "\n"

/-- A message shows some characters of a line: it prints the line, and below it a mark of these
characters. -/
def Shows (d : Diagnostic) (source : String) (number : Nat) (before marked after : List Char) :
    Prop :=
  ∃ p : Picture, p.Clean ∧ p.line = before ++ marked ++ after ∧ p.Marks before marked ∧
    d.format source = d.opening number (before.length + 1) ++ String.ofList p.text ++ d.closing

theorem format_eq_closing (d : Diagnostic) (source : String) :
    d.format source =
      d.heading ++ ": " ++ d.message ++ "\n" ++ snippet source d.span ++ d.closing := by
  rw [format, closing]
  cases d.hint <;> rfl

/-- A message prints the line of its span, and the mark of the picture. -/
theorem format_eq (hpart : PartOfLine source head before marked after tail)
    (hbare : BareFeeds source) (hspan : d.span = spanOf (head ++ before) marked) :
    d.format source =
      d.opening (head.count '\n' + 1) (before.length + 1) ++
        String.ofList (picture (head.count '\n' + 1) before marked after).text ++ d.closing := by
  have hsnippet := hpart.snippet_eq hbare
  rw [← hspan] at hsnippet
  rw [format_eq_closing, hsnippet, opening]
  simp only [String.append_assoc]

/-- A message shows the characters of its span exactly if the picture marks them. -/
theorem shows_iff_marks (hpart : PartOfLine source head before marked after tail)
    (hbare : BareFeeds source) (hspan : d.span = spanOf (head ++ before) marked) :
    d.Shows source (head.count '\n' + 1) before marked after ↔
      (picture (head.count '\n' + 1) before marked after).Marks before marked := by
  have hformat := format_eq hpart hbare hspan
  have hclean := clean_picture (head.count '\n' + 1) hpart.line
  constructor
  · rintro ⟨p, hp, hline, hmarks, htext⟩
    rw [hformat, String.append_left_inj, String.append_right_inj, String.ofList_inj] at htext
    obtain rfl : p = picture (head.count '\n' + 1) before marked after :=
      Picture.eq_of_text_eq hp hclean hline htext.symm
    exact hmarks
  · exact fun hmarks => ⟨_, hclean, rfl, hmarks, hformat⟩

/-- A message prints the line of its span with the right mark exactly if the number of the line has
at most three digits and the span, unless it ends its line, has no character of several bytes. -/
theorem marked_iff (hpart : PartOfLine source head before marked after tail)
    (hbare : BareFeeds source) (hspan : d.span = spanOf (head ++ before) marked) :
    d.Shows source (head.count '\n' + 1) before marked after ↔
      head.count '\n' + 1 < 1000 ∧ ((∀ c ∈ marked, c.utf8Size = 1) ∨ after = []) := by
  rw [shows_iff_marks hpart hbare hspan, marks_picture_iff hpart.nonempty]

/-- The message about an argument without a comma before it, in the second line of a source whose
lines have wide characters. -/
def missingComma : Diagnostic :=
  ⟨none, "expected ',' or ')', found integer 30", ⟨22, 24⟩, some "separate arguments with ','"⟩

theorem marked_iff_missingComma :
    PartOfLine "g.V('é')\n.has('âge' 30)" "g.V('é')\n".toList ".has('âge' ".toList "30".toList
        [')'] [] ∧
      missingComma.Shows "g.V('é')\n.has('âge' 30)" 2 ".has('âge' ".toList "30".toList [')'] := by
  have hpart : PartOfLine "g.V('é')\n.has('âge' 30)" "g.V('é')\n".toList ".has('âge' ".toList
      "30".toList [')'] [] :=
    ⟨by decide, by unfold EndsLine; decide, by decide, by decide, by decide⟩
  have hbare : BareFeeds "g.V('é')\n.has('âge' 30)" := bareFeeds_of_not_mem (by decide)
  have hspan : missingComma.span =
      spanOf ("g.V('é')\n".toList ++ ".has('âge' ".toList) "30".toList := by decide
  exact ⟨hpart, (marked_iff hpart hbare hspan).mpr (by decide)⟩

/-- The message about a character of two bytes that is no token. -/
def wideCharacter : Diagnostic := ⟨none, "unexpected input 'é'", ⟨0, 2⟩, none⟩

/-- The mark of a wide character goes on below the next one. -/
theorem not_marked_of_wide :
    PartOfLine "é." [] [] ['é'] ['.'] [] ∧ BareFeeds "é." ∧
      wideCharacter.span = spanOf [] ['é'] ∧
      ¬ wideCharacter.Shows "é." 1 [] ['é'] ['.'] := by
  have hpart : PartOfLine "é." [] [] ['é'] ['.'] [] :=
    ⟨by decide, by unfold EndsLine; decide, by decide, by decide, by decide⟩
  have hbare : BareFeeds "é." := bareFeeds_of_not_mem (by decide)
  have hspan : wideCharacter.span = spanOf [] ['é'] := by decide
  refine ⟨hpart, hbare, hspan, fun hshows => ?_⟩
  have hmarks := (shows_iff_marks hpart hbare hspan).mp hshows
  exact absurd ((marks_picture_iff hpart.nonempty).mp hmarks) (by decide)

end Diagnostic

end Language
end Pushdown
