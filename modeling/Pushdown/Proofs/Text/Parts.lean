import Pushdown.Proofs.Text.Occurrence

/-!
# Parts of texts

Trimming a text leaves one whose ends are not blank, and such a text is left as it is. The parts
between the occurrences of a character are without it, and joining them by it gives the text again.

## Results

* `Text.trim_trim`, `Text.trim_of_ends`: texts that are trimmed;
* `Text.splitOn_intercalate`, `Text.not_mem_of_mem_splitOn`: texts that are joined and cut.
-/

namespace Pushdown
namespace Text

variable {text part : List Char} {c : Char}

theorem dropWhile_eq_self {p : Char → Bool} (h : ∀ d ∈ text.head?, p d = false) :
    text.dropWhile p = text := by
  cases text with
  | nil => rfl
  | cons d rest =>
      have hd : ¬ p d = true := by
        rw [h d rfl]
        exact Bool.false_ne_true
      exact List.dropWhile_cons_of_neg hd

theorem head?_dropWhile {p : Char → Bool} : ∀ {d : Char}, d ∈ (text.dropWhile p).head? →
    p d = false := by
  have hnot := List.head?_dropWhile_not p text
  intro d hd
  rw [Option.mem_def.mp hd] at hnot
  exact hnot

/-- A text whose ends are not blank is trimmed. -/
theorem trim_of_ends (hhead : ∀ d ∈ text.head?, Unicode.isBlank d = false)
    (hlast : ∀ d ∈ text.getLast?, Unicode.isBlank d = false) : trim text = text := by
  have hreverse : ∀ d ∈ text.reverse.head?, Unicode.isBlank d = false := by
    rw [List.head?_reverse]
    exact hlast
  rw [trim, dropWhile_eq_self hhead, dropWhile_eq_self hreverse, List.reverse_reverse]

theorem trim_starts (text : List Char) : trim text <+: text.dropWhile Unicode.isBlank := by
  rw [trim, ← List.reverse_suffix, List.reverse_reverse]
  exact List.dropWhile_suffix _

/-- Trimming takes a part of the text. -/
theorem trim_infix (text : List Char) : trim text <:+: text :=
  (trim_starts text).isInfix.trans (List.dropWhile_suffix _).isInfix

theorem getLast?_trim {d : Char} (hd : d ∈ (trim text).getLast?) : Unicode.isBlank d = false := by
  rw [trim, List.getLast?_reverse] at hd
  exact head?_dropWhile hd

theorem head?_trim {d : Char} (hd : d ∈ (trim text).head?) : Unicode.isBlank d = false := by
  obtain ⟨rest, hrest⟩ := trim_starts text
  have hhead : d ∈ (text.dropWhile Unicode.isBlank).head? := by
    rw [← hrest, List.head?_append, Option.mem_def.mp hd]
    rfl
  exact head?_dropWhile hhead

/-- Trimming once is enough. -/
theorem trim_trim (text : List Char) : trim (trim text) = trim text :=
  trim_of_ends (fun _ => head?_trim) fun _ => getLast?_trim

theorem splitOn_eq (c : Char) : ∀ text : List Char, splitOn c text = List.splitOn c text
  | [] => rfl
  | d :: rest => by
      have ih := splitOn_eq c rest
      rw [List.splitOn] at ih ⊢
      rw [splitOn, ih, List.splitOnP_cons_eq_if_modifyHead]
      cases hparts : List.splitOnP (· == c) rest with
      | nil => exact absurd hparts (List.splitOnP_ne_nil _ _)
      | cons part parts => simp

/-- Parts that are joined are cut again. -/
theorem splitOn_intercalate {parts : List (List Char)} (hne : parts ≠ [])
    (h : ∀ part ∈ parts, c ∉ part) : splitOn c ([c].intercalate parts) = parts := by
  rw [splitOn_eq]
  exact List.splitOn_intercalate c h hne

/-- The parts are without the character. -/
theorem not_mem_of_mem_splitOn (h : part ∈ splitOn c text) : c ∉ part := by
  induction text generalizing part with
  | nil =>
      rw [List.mem_singleton.mp h]
      exact List.not_mem_nil
  | cons d rest ih =>
      rw [splitOn] at h
      split at h
      · next hnil =>
        rw [splitOn_eq] at hnil
        exact absurd hnil (List.splitOnP_ne_nil _ _)
      · next first parts hparts =>
        rw [hparts] at ih
        split at h
        · rcases List.mem_cons.mp h with rfl | h
          · exact List.not_mem_nil
          · exact ih h
        · next hd =>
          rcases List.mem_cons.mp h with rfl | h
          · rw [List.mem_cons, not_or]
            exact ⟨fun heq => hd heq.symm, ih List.mem_cons_self⟩
          · exact ih (List.mem_cons_of_mem first h)

/-- A part stands in what the parts are joined to. -/
theorem infix_intercalate : ∀ {parts : List (List Char)}, part ∈ parts →
    part <:+: [c].intercalate parts
  | [only], h => by
      have hjoined : [c].intercalate [only] = part := by
        rw [List.intercalate_singleton, List.mem_singleton.mp h]
      exact hjoined.symm ▸ List.infix_refl part
  | first :: second :: parts, h => by
      rw [List.intercalate_cons_cons]
      rcases List.mem_cons.mp h with rfl | h
      · exact ⟨[], [c] ++ [c].intercalate (second :: parts), by simp⟩
      · exact (infix_intercalate h).trans (List.suffix_append _ _).isInfix

/-- The parts stand in the text. -/
theorem infix_of_mem_splitOn (h : part ∈ splitOn c text) : part <:+: text := by
  rw [splitOn_eq] at h
  have hinfix : part <:+: [c].intercalate (List.splitOn c text) := infix_intercalate h
  rwa [List.intercalate_splitOn] at hinfix

/-- A text without the character that parts are joined by stands in one of them. -/
theorem infix_intercalate_iff {needle : List Char} (hc : c ∉ needle) (hne : needle ≠ []) :
    ∀ {parts : List (List Char)},
      needle <:+: [c].intercalate parts ↔ ∃ part ∈ parts, needle <:+: part
  | [] => by simp [List.intercalate, hne]
  | [only] => by simp [List.intercalate_singleton]
  | first :: second :: parts => by
      have ih : needle <:+: [c].intercalate (second :: parts) ↔
          ∃ part ∈ second :: parts, needle <:+: part := infix_intercalate_iff hc hne
      rw [List.intercalate_cons_cons, List.append_assoc, List.singleton_append, infix_fence hc, ih]
      simp

end Text
end Pushdown
