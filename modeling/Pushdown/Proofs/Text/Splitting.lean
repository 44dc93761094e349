import Pushdown.Text.Search

/-!
# Cutting texts

A text is cut in two at the first place where a separator stands, and in no other way: what
stands before a separator is the part without one.

## Results

* `Text.splitAt?_eq_some_iff`, `Text.dropStart?_eq_some_iff`: what cutting a text gives;
* `Text.cut_inj`, `Text.cut_unique`: a text is cut in one way;
* `Text.span_append`, `Text.exists_span`: the first characters of a text that satisfy a test.
-/

namespace Pushdown
namespace Text

-- What a text says of its characters is decided along the text: these come before the
-- library's search over all characters.
instance decidableForallMem (p : Char → Prop) [DecidablePred p] (text : List Char) :
    Decidable (∀ c ∈ text, p c) := List.decidableBAll p text

instance decidableForallMemOption (p : Char → Prop) [DecidablePred p] (found : Option Char) :
    Decidable (∀ c ∈ found, p c) := Option.decidableForallMem found

instance decidableExistsMemOption (p : Char → Prop) [DecidablePred p] (found : Option Char) :
    Decidable (∃ c ∈ found, p c) := Option.decidableExistsMem found

/-- The part before the first separator has none. -/
theorem splitAt?_eq_some_iff {c : Char} :
    ∀ {text before after : List Char},
      splitAt? c text = some (before, after) ↔ c ∉ before ∧ text = before ++ c :: after
  | [], before, after => by simp [splitAt?]
  | d :: text, before, after => by
      rw [splitAt?]
      by_cases hd : d = c
      · subst hd
        rw [if_pos rfl]
        cases before with
        | nil => simp
        | cons b before =>
            simp only [Option.some.injEq, Prod.mk.injEq, List.cons_append, List.cons.injEq]
            constructor
            · rintro ⟨h, -⟩
              cases h
            · rintro ⟨hnot, hb, -⟩
              exact (hnot (hb ▸ List.mem_cons_self)).elim
      · rw [if_neg hd, Option.map_eq_some_iff]
        constructor
        · rintro ⟨⟨before', after'⟩, hcut, heq⟩
          obtain ⟨rfl, rfl⟩ := Prod.mk.inj heq
          obtain ⟨hnot, rfl⟩ := splitAt?_eq_some_iff.mp hcut
          refine ⟨?_, rfl⟩
          rw [List.mem_cons, not_or]
          exact ⟨fun h => hd h.symm, hnot⟩
        · rintro ⟨hnot, htext⟩
          cases before with
          | nil =>
              rw [List.nil_append, List.cons.injEq] at htext
              exact (hd htext.1).elim
          | cons b before =>
              rw [List.cons_append, List.cons.injEq] at htext
              obtain ⟨rfl, htext⟩ := htext
              rw [List.mem_cons, not_or] at hnot
              exact ⟨(before, after), splitAt?_eq_some_iff.mpr ⟨hnot.2, htext⟩, rfl⟩

/-- A text is cut at its first separator in one way. -/
theorem cut_inj {c : Char} {before before' after after' : List Char} (h : c ∉ before)
    (h' : c ∉ before') (heq : before ++ c :: after = before' ++ c :: after') :
    before = before' ∧ after = after' := by
  have hcut : splitAt? c (before ++ c :: after) = some (before, after) :=
    splitAt?_eq_some_iff.mpr ⟨h, rfl⟩
  have hcut' : splitAt? c (before ++ c :: after) = some (before', after') :=
    splitAt?_eq_some_iff.mpr ⟨h', heq⟩
  rw [hcut, Option.some.injEq, Prod.mk.injEq] at hcut'
  exact hcut'

/-- Around a separator that stands nowhere else, a text is cut in one way. -/
theorem cut_unique {c : Char} {before before' after after' : List Char} (h : c ∉ before')
    (h' : c ∉ after') (heq : before ++ c :: after = before' ++ c :: after') :
    before = before' ∧ after = after' := by
  have hcount := congrArg (List.count c) heq
  simp only [List.count_append, List.count_cons_self, List.count_eq_zero.mpr h,
    List.count_eq_zero.mpr h'] at hcount
  exact cut_inj (List.count_eq_zero.mp (by omega)) h heq

theorem dropStart?_eq_some_iff :
    ∀ {start text rest : List Char}, dropStart? start text = some rest ↔ text = start ++ rest
  | [], text, rest => by simp [dropStart?]
  | c :: start, [], rest => by simp [dropStart?]
  | c :: start, d :: text, rest => by
      rw [dropStart?, List.cons_append, List.cons.injEq]
      by_cases hc : c = d
      · rw [if_pos hc, dropStart?_eq_some_iff, hc]
        simp
      · rw [if_neg hc]
        constructor
        · intro h
          cases h
        · rintro ⟨hd, -⟩
          exact (hc hd.symm).elim

/-- The first characters of a text, as long as they satisfy a test. -/
theorem span_append {p : Char → Bool} {text rest : List Char} (hall : ∀ c ∈ text, p c = true)
    (hrest : ∀ c ∈ rest.head?, p c = false) :
    (text ++ rest).takeWhile p = text ∧ (text ++ rest).dropWhile p = rest := by
  have hnone : rest.takeWhile p = [] ∧ rest.dropWhile p = rest := by
    cases rest with
    | nil => exact ⟨rfl, rfl⟩
    | cons c rest =>
      have hc : ¬ p c = true := by
        rw [hrest c rfl]
        exact Bool.false_ne_true
      exact ⟨List.takeWhile_cons_of_neg hc, List.dropWhile_cons_of_neg hc⟩
  rw [List.takeWhile_append_of_pos hall, List.dropWhile_append_of_pos hall, hnone.1, hnone.2]
  exact ⟨List.append_nil text, rfl⟩

/-- A text is the first characters of it that satisfy a test, and what stands behind them. -/
theorem exists_span (p : Char → Bool) (text : List Char) :
    ∃ part rest, text = part ++ rest ∧ (∀ c ∈ part, p c = true) ∧
      ∀ c ∈ rest.head?, p c = false := by
  refine ⟨text.takeWhile p, text.dropWhile p, List.takeWhile_append_dropWhile.symm,
    List.all_eq_true.mp List.all_takeWhile, fun c hc => ?_⟩
  have hnot := List.head?_dropWhile_not p text
  rwa [Option.mem_def.mp hc] at hnot

/-- What holds of the ten digits holds of every digit. -/
theorem forall_isDigit {p : Char → Prop} (h : ∀ n < 58, 48 ≤ n → p (Char.ofNat n)) {c : Char}
    (hc : c.isDigit = true) : p c := by
  rw [Char.isDigit, Bool.and_eq_true, decide_eq_true_eq, decide_eq_true_eq] at hc
  have hlow : 48 ≤ c.toNat := hc.1
  have hhigh : c.toNat ≤ 57 := hc.2
  rw [← Char.ofNat_toNat c]
  exact h c.toNat (by omega) hlow

end Text
end Pushdown
