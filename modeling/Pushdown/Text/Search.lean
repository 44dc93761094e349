import Pushdown.Unicode.Property

/-!
# Searching text

Prefixes, suffixes and occurrences of one text in another, cutting a text at a
separator, and trimming blanks.

## Results

* `occursIn_iff`: a text occurs in another when it stands between two parts of it.
-/

namespace Pushdown
namespace Text

/-- Whether a text occurs in another. -/
def occursIn (needle : List Char) : List Char → Bool
  | [] => needle.isEmpty
  | c :: rest => needle.isPrefixOf (c :: rest) || occursIn needle rest

theorem occursIn_iff {needle text : List Char} :
    occursIn needle text = true ↔ ∃ before after, text = before ++ needle ++ after := by
  induction text with
  | nil =>
    constructor
    · intro h
      exact ⟨[], [], by simpa [occursIn] using h⟩
    · rintro ⟨before, after, h⟩
      have : needle = [] := by
        have := congrArg List.length h
        simp only [List.length_nil, List.length_append] at this
        exact List.length_eq_zero_iff.1 (by omega)
      simp [occursIn, this]
  | cons c rest ih =>
    rw [occursIn, Bool.or_eq_true, ih, List.isPrefixOf_iff_prefix]
    constructor
    · rintro (⟨after, h⟩ | ⟨before, after, h⟩)
      · exact ⟨[], after, by simpa using h.symm⟩
      · exact ⟨c :: before, after, by simp [h]⟩
    · rintro ⟨before, after, h⟩
      cases before with
      | nil => exact Or.inl ⟨after, by simpa using h.symm⟩
      | cons b before =>
        simp only [List.cons_append, List.cons.injEq] at h
        exact Or.inr ⟨before, after, by simpa using h.2⟩

/-- Whether a text contains another. -/
def contains (text needle : String) : Bool := occursIn needle.toList text.toList

/-- Whether a text starts with another. -/
def startsWith (text needle : String) : Bool := needle.toList.isPrefixOf text.toList

/-- Whether a text ends with another. -/
def endsWith (text needle : String) : Bool := needle.toList.isSuffixOf text.toList

/-- The parts before and after the first occurrence of a character. -/
def splitAt? (c : Char) : List Char → Option (List Char × List Char)
  | [] => none
  | d :: rest =>
      if d = c then some ([], rest)
      else (splitAt? c rest).map fun (before, after) => (d :: before, after)

/-- The rest of a text after a given beginning. -/
def dropStart? : List Char → List Char → Option (List Char)
  | [], text => some text
  | _ :: _, [] => none
  | c :: start, d :: text => if c = d then dropStart? start text else none

/-- The parts before and after the first occurrence of a text. -/
def splitAtText? (separator : List Char) : List Char → Option (List Char × List Char)
  | [] => if separator.isEmpty then some ([], []) else none
  | c :: rest =>
      match dropStart? separator (c :: rest) with
      | some after => some ([], after)
      | none =>
          (splitAtText? separator rest).map fun (before, after) => (c :: before, after)

/-- The parts of a text between the occurrences of a character. -/
def splitOn (c : Char) : List Char → List (List Char)
  | [] => [[]]
  | d :: rest =>
      match splitOn c rest with
      | [] => [[d]]
      | part :: parts => if d = c then [] :: part :: parts else (d :: part) :: parts

/-- A text without the blanks at its ends. -/
def trim (text : List Char) : List Char :=
  ((text.dropWhile Unicode.isBlank).reverse.dropWhile Unicode.isBlank).reverse

/-- A text without its last character, which must be the given one. -/
def dropLast? (c : Char) (text : List Char) : Option (List Char) :=
  if text.getLast? = some c then some text.dropLast else none

end Text
end Pushdown
