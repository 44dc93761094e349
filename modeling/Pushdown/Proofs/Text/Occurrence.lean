import Mathlib.Data.List.Basic
import Pushdown.Proofs.Text.Splitting

/-!
# Occurrences

Where a text can occur in another. A text does not reach over a character that it is without,
one that ends in a character can end at its places only, and one that escaping leaves alone
occurs in an escaped text where it occurred before.

## Results

* `Text.infix_fence`: an occurrence stays on one side of a character that it is without;
* `Text.suffix_fence`: so does the end of a text;
* `Text.infix_closed_iff`: an occurrence that ends in a character;
* `Text.infix_flatMap_iff`, `Text.suffix_flatMap_iff`: occurrences in escaped text;
* `Text.splitAtText?_eq_some_iff`: cutting a text at the first occurrence.
-/

namespace Pushdown
namespace Text

variable {needle text before after : List Char} {d : Char}

theorem contains_iff {text needle : String} :
    contains text needle = true ↔ needle.toList <:+: text.toList := by
  rw [contains, occursIn_iff, List.IsInfix]
  simp only [eq_comm]

/-- A text stays on one side of a character that it is without. -/
theorem infix_fence (h : d ∉ needle) :
    needle <:+: before ++ d :: after ↔ needle <:+: before ∨ needle <:+: after := by
  constructor
  · intro hoccurs
    rcases List.infix_append_iff.mp hoccurs with
      hbefore | hafter | ⟨left, right, rfl, hleft, hright⟩
    · exact .inl hbefore
    · rcases List.infix_cons_iff.mp hafter with hstarts | hafter
      · rcases List.prefix_cons_iff.mp hstarts with rfl | ⟨rest, rfl, -⟩
        · exact .inl List.nil_infix
        · exact absurd List.mem_cons_self h
      · exact .inr hafter
    · rcases List.prefix_cons_iff.mp hright with rfl | ⟨rest, rfl, -⟩
      · rw [List.append_nil]
        exact .inl hleft.isInfix
      · exact absurd (List.mem_append_right left List.mem_cons_self) h
  · rintro (hbefore | hafter)
    · exact hbefore.trans (List.prefix_append before _).isInfix
    · exact hafter.trans (List.suffix_append_of_suffix (List.suffix_cons d after)).isInfix

/-- A text ends behind a character that it is without. -/
theorem suffix_fence (h : d ∉ needle) :
    needle <:+ before ++ d :: after ↔ needle <:+ after := by
  constructor
  · intro hends
    rcases List.suffix_or_suffix_of_suffix hends (List.suffix_append before (d :: after)) with
      hends | hends
    · rcases List.suffix_cons_iff.mp hends with rfl | hends
      · exact absurd List.mem_cons_self h
      · exact hends
    · exact absurd (hends.subset List.mem_cons_self) h
  · intro hends
    exact List.suffix_append_of_suffix (hends.trans (List.suffix_cons d after))

/-- A text that ends in a character ends at one of its places. -/
theorem infix_closed_iff (h : d ∉ needle) (hbefore : d ∉ before) :
    needle ++ [d] <:+: before ++ d :: after ↔
      needle <:+ before ∨ needle ++ [d] <:+: after := by
  constructor
  · rintro ⟨left, right, heq⟩
    rw [List.append_assoc, List.append_assoc, List.singleton_append] at heq
    by_cases hleft : d ∈ left
    · -- the occurrence starts behind the first place of the character
      obtain ⟨first, rest, rfl, hfirst⟩ := List.eq_append_cons_of_mem hleft
      rw [List.append_assoc, List.cons_append] at heq
      obtain ⟨-, hrest⟩ := cut_inj hfirst hbefore heq
      exact .inr ⟨rest, right, by simpa using hrest⟩
    · have hnot : d ∉ left ++ needle := by simp [hleft, h]
      rw [← List.append_assoc] at heq
      exact .inl ⟨left, (cut_inj hnot hbefore heq).1⟩
  · rintro (⟨left, rfl⟩ | hafter)
    · exact ⟨left, after, by simp⟩
    · exact hafter.trans (List.suffix_append_of_suffix (List.suffix_cons d after)).isInfix

/-- A text that ends in a character does not reach into what is without it. -/
theorem infix_append_of_not_mem (h : d ∈ needle.getLast?) (hafter : d ∉ after) :
    needle <:+: before ++ after ↔ needle <:+: before := by
  constructor
  · intro hoccurs
    have hmem : d ∈ needle := List.mem_of_getLast? h
    rcases List.infix_append_iff.mp hoccurs with hbefore | hin | ⟨left, right, rfl, hleft, hright⟩
    · exact hbefore
    · exact absurd (hin.subset hmem) hafter
    · cases hlast : right.getLast? with
      | none =>
          rw [List.getLast?_eq_none_iff] at hlast
          rw [hlast, List.append_nil]
          exact hleft.isInfix
      | some c =>
          rw [List.getLast?_append, hlast] at h
          cases h
          exact absurd (hright.subset (List.mem_of_getLast? hlast)) hafter
  · intro hbefore
    exact hbefore.trans (List.prefix_append before after).isInfix

/-- A text does not start in what its first character is not in. -/
theorem infix_append_of_head_not_mem {x : Char} (h : x ∉ before) :
    x :: needle <:+: before ++ after ↔ x :: needle <:+: after := by
  induction before with
  | nil => rfl
  | cons y before ih =>
    rw [List.mem_cons, not_or] at h
    rw [List.cons_append, List.infix_cons_iff, List.cons_prefix_cons, ih h.2]
    constructor
    · rintro (⟨hxy, -⟩ | hafter)
      · exact absurd hxy h.1
      · exact hafter
    · exact .inr

section Escaping

/-- Escapes start with a character that a text is without, and go on with others than its
first; other characters are left alone. -/
structure Spares (escape : Char → List Char) (needle : List Char) : Prop where
  kept : ∀ c ∈ needle, escape c = [c]
  barred : ∀ c, escape c = [c] ∨ ∃ bar rest, escape c = bar :: rest ∧ bar ∉ needle ∧
    ∀ first ∈ needle.head?, first ∉ rest

variable {escape : Char → List Char}

theorem prefix_flatMap_iff (kept : ∀ c ∈ needle, escape c = [c])
    (barred : ∀ c, escape c = [c] ∨ ∃ bar rest, escape c = bar :: rest ∧ bar ∉ needle) :
    needle <+: text.flatMap escape ↔ needle <+: text := by
  induction needle generalizing text with
  | nil => simp
  | cons x needle ih =>
    cases text with
    | nil => simp
    | cons c text =>
      have hkept : ∀ c ∈ needle, escape c = [c] := fun c hc => kept c (List.mem_cons_of_mem x hc)
      have hbarred : ∀ c, escape c = [c] ∨ ∃ bar rest, escape c = bar :: rest ∧ bar ∉ needle := by
        intro c
        rcases barred c with hc | ⟨bar, rest, hc, hbar⟩
        · exact .inl hc
        · exact .inr ⟨bar, rest, hc, fun h => hbar (List.mem_cons_of_mem x h)⟩
      rw [List.flatMap_cons, List.cons_prefix_cons]
      rcases barred c with hc | ⟨bar, rest, hc, hbar⟩
      · rw [hc, List.singleton_append, List.cons_prefix_cons, ih hkept hbarred]
      · -- an escape, at which the text does not start, whatever it stands for
        rw [hc, List.cons_append, List.cons_prefix_cons]
        have hx : x ≠ bar := fun h => hbar (h ▸ List.mem_cons_self)
        constructor
        · rintro ⟨h, -⟩
          exact absurd h hx
        · rintro ⟨rfl, -⟩
          rw [kept x List.mem_cons_self, List.cons.injEq] at hc
          exact absurd hc.1 hx

theorem infix_flatMap_iff (h : Spares escape needle) :
    needle <:+: text.flatMap escape ↔ needle <:+: text := by
  cases needle with
  | nil => simp
  | cons x needle =>
    induction text with
    | nil => simp
    | cons c text ih =>
      have hstarts : x :: needle <+: (c :: text).flatMap escape ↔ x :: needle <+: c :: text := by
        refine prefix_flatMap_iff h.kept fun c => ?_
        rcases h.barred c with hc | ⟨bar, rest, hc, hbar, -⟩
        · exact .inl hc
        · exact .inr ⟨bar, rest, hc, hbar⟩
      rw [List.flatMap_cons] at hstarts
      rw [List.flatMap_cons, @List.infix_cons_iff _ _ c text, ← hstarts, ← ih]
      rcases h.barred c with hc | ⟨bar, rest, hc, hbar, hrest⟩
      · rw [hc, List.singleton_append, List.infix_cons_iff]
      · rw [hc, List.cons_append, List.infix_cons_iff,
          infix_append_of_head_not_mem (hrest x rfl)]

/-- The end of an escaped text. -/
theorem suffix_flatMap_iff (kept : ∀ c ∈ needle, escape c = [c])
    (barred : ∀ c, escape c = [c] ∨ ∃ rest bar, escape c = rest ++ [bar] ∧ bar ∉ needle) :
    needle <:+ text.flatMap escape ↔ needle <:+ text := by
  rw [← List.reverse_prefix, List.reverse_flatMap, prefix_flatMap_iff, List.reverse_prefix]
  · intro c hc
    rw [Function.comp_apply, kept c (List.mem_reverse.mp hc)]
    rfl
  · intro c
    rcases barred c with hc | ⟨rest, bar, hc, hbar⟩
    · rw [Function.comp_apply, hc]
      exact .inl rfl
    · refine .inr ⟨bar, rest.reverse, ?_, by simpa using hbar⟩
      rw [Function.comp_apply, hc]
      simp

end Escaping

/-- A text that cannot be cut at another is without it. -/
theorem splitAtText?_eq_none_iff (hne : needle ≠ []) :
    splitAtText? needle text = none ↔ ¬ needle <:+: text := by
  induction text with
  | nil => simp [splitAtText?, hne]
  | cons c text ih =>
    rw [splitAtText?, List.infix_cons_iff, not_or, ← ih]
    cases hstart : dropStart? needle (c :: text) with
    | some rest =>
        rw [dropStart?_eq_some_iff] at hstart
        simp [hstart]
    | none =>
        have hnot : ¬ needle <+: c :: text := by
          rintro ⟨rest, hrest⟩
          have hsome := dropStart?_eq_some_iff.mpr hrest.symm
          rw [hstart] at hsome
          cases hsome
        simp [hnot]

/-- A text is cut at the first occurrence of another: where the other is complete for the first
time. -/
theorem splitAtText?_eq_some_iff (hne : needle ≠ []) :
    splitAtText? needle text = some (before, after) ↔
      text = before ++ needle ++ after ∧ ¬ needle <:+: (before ++ needle).dropLast := by
  induction text generalizing before with
  | nil => simp [splitAtText?, hne]
  | cons c text ih =>
    rw [splitAtText?]
    cases hstart : dropStart? needle (c :: text) with
    | some rest =>
        rw [dropStart?_eq_some_iff] at hstart
        rw [hstart]
        dsimp only
        constructor
        · intro h
          cases h
          refine ⟨rfl, fun hoccurs => ?_⟩
          have hlen := hoccurs.length_le
          have hpos : 0 < needle.length := List.length_pos_iff.mpr hne
          rw [List.nil_append, List.length_dropLast] at hlen
          omega
        · rintro ⟨heq, hfirst⟩
          cases before with
          | nil =>
              rw [List.nil_append, List.append_cancel_left_eq] at heq
              rw [heq]
          | cons b before =>
              -- then the text would start with an occurrence that is complete before
              refine absurd ?_ hfirst
              have hlong : (b :: before ++ needle).dropLast <+: needle ++ rest :=
                heq ▸ (List.dropLast_prefix _).trans (List.prefix_append _ after)
              refine List.IsPrefix.isInfix
                (List.prefix_of_prefix_length_le (List.prefix_append needle rest) hlong ?_)
              simp
    | none =>
        have hnot : ¬ needle <+: c :: text := by
          rintro ⟨rest, hrest⟩
          have hsome := dropStart?_eq_some_iff.mpr hrest.symm
          rw [hstart] at hsome
          cases hsome
        have hcons : ∀ before' : List Char, text = before' ++ needle ++ after →
            (needle <:+: (c :: before' ++ needle).dropLast ↔
              needle <:+: (before' ++ needle).dropLast) := by
          rintro before' rfl
          rw [List.cons_append, List.dropLast_cons_of_ne_nil (by simp [hne]), List.infix_cons_iff]
          refine or_iff_right fun hstarts => hnot (hstarts.trans ?_)
          rw [List.cons_prefix_cons]
          exact ⟨rfl, (List.dropLast_prefix _).trans (List.prefix_append _ after)⟩
        dsimp only
        rw [Option.map_eq_some_iff]
        constructor
        · rintro ⟨⟨before', after'⟩, hcut, heq⟩
          obtain ⟨rfl, rfl⟩ := Prod.mk.inj heq
          obtain ⟨htext, hfirst⟩ := ih.mp hcut
          exact ⟨by simp [htext], fun hoccurs => hfirst ((hcons before' htext).mp hoccurs)⟩
        · rintro ⟨heq, hfirst⟩
          cases before with
          | nil => exact absurd ⟨after, heq.symm⟩ hnot
          | cons b before =>
              rw [List.cons_append, List.cons_append, List.cons.injEq] at heq
              obtain ⟨rfl, htext⟩ := heq
              refine ⟨(before, after), ih.mpr ⟨htext, fun hoccurs => hfirst ?_⟩, rfl⟩
              exact (hcons before htext).mpr hoccurs

end Text
end Pushdown
