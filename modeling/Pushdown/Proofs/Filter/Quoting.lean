import Pushdown.Filter.Basic
import Pushdown.Proofs.Text.Occurrence

/-!
# Quoted names and literals

Names stand between backticks and literals between double quotes, and what could end them is
escaped. So a text that escaping leaves alone occurs in a name or a literal as it does between
its quotes.

## Results

* `Filter.escapeName_eq_self_iff`: names without escapes;
* `Filter.spares_nameEscape`, `Quoted.spares_literalEscape`: texts that escaping leaves alone;
* `Filter.infix_escapeName_iff`, `Quoted.infix_encode_iff`: where they occur.
-/

namespace Pushdown

variable {needle text : List Char}

namespace Filter

/-- A name that nothing in is escaped. -/
def PlainName (name : String) : Prop := nameQuote ∉ name.toList ∧ '\\' ∉ name.toList

/-- How a character of a name is written. -/
def nameEscape (c : Char) : List Char :=
  if c = '\\' ∨ c = nameQuote then ['\\', c] else [c]

theorem escapeName_eq_flatMap : ∀ text : List Char, escapeName text = text.flatMap nameEscape
  | [] => rfl
  | c :: text => by
      rw [escapeName, List.flatMap_cons, nameEscape, ← escapeName_eq_flatMap text]
      split
      · rfl
      · rfl

theorem escapeName_append (first rest : List Char) :
    escapeName (first ++ rest) = escapeName first ++ escapeName rest := by
  simp only [escapeName_eq_flatMap, List.flatMap_append]

theorem quote_mem_escapeName : nameQuote ∈ escapeName text ↔ nameQuote ∈ text := by
  induction text with
  | nil => rfl
  | cons c text ih =>
    rw [escapeName]
    split
    · rw [List.mem_cons, List.mem_cons, List.mem_cons, ih]
      exact or_iff_right (by decide)
    · rw [List.mem_cons, List.mem_cons, ih]

theorem length_le_escapeName : text.length ≤ (escapeName text).length := by
  induction text with
  | nil => exact Nat.le_refl _
  | cons c text ih =>
    rw [escapeName]
    split
    · simp only [List.length_cons]
      omega
    · simp only [List.length_cons]
      omega

/-- A name is written as it is when nothing in it is escaped. -/
theorem escapeName_eq_self_iff : escapeName text = text ↔ nameQuote ∉ text ∧ '\\' ∉ text := by
  induction text with
  | nil => simp [escapeName]
  | cons c text ih =>
    rw [escapeName]
    split
    · next hc =>
      constructor
      · intro h
        have hlength := congrArg List.length h
        simp only [List.length_cons] at hlength
        have hle : text.length ≤ (escapeName text).length := length_le_escapeName
        omega
      · rintro ⟨hquote, hslash⟩
        rcases hc with rfl | rfl
        · exact absurd List.mem_cons_self hslash
        · exact absurd List.mem_cons_self hquote
    · next hc =>
      rw [List.cons.injEq, ih]
      rw [not_or] at hc
      simp [Ne.symm hc.1, Ne.symm hc.2]

/-- Texts without quotes and escapes, which do not start with what is escaped. -/
theorem spares_nameEscape (hquote : nameQuote ∉ needle) (hslash : '\\' ∉ needle) :
    Text.Spares nameEscape needle where
  kept := by
    intro c hc
    rw [nameEscape, if_neg]
    rintro (rfl | rfl)
    · exact hslash hc
    · exact hquote hc
  barred := by
    intro c
    unfold nameEscape
    split
    · next hc =>
      refine .inr ⟨'\\', [c], rfl, hslash, ?_⟩
      intro first hfirst h
      have hmem : first ∈ needle := List.mem_of_mem_head? hfirst
      rw [List.mem_singleton.mp h] at hmem
      rcases hc with rfl | rfl
      · exact hslash hmem
      · exact hquote hmem
    · exact .inl rfl

/-- Where a text without quotes and escapes occurs in a name. -/
theorem infix_escapeName_iff (hquote : nameQuote ∉ needle) (hslash : '\\' ∉ needle) :
    needle <:+: escapeName text ↔ needle <:+: text := by
  rw [escapeName_eq_flatMap]
  exact Text.infix_flatMap_iff (spares_nameEscape hquote hslash)

/-- The end of a name. -/
theorem suffix_escapeName_iff (hquote : nameQuote ∉ needle) (hslash : '\\' ∉ needle) :
    needle <:+ escapeName text ↔ needle <:+ text := by
  rw [escapeName_eq_flatMap]
  refine Text.suffix_flatMap_iff (spares_nameEscape hquote hslash).kept fun c => ?_
  unfold nameEscape
  split
  · next hc =>
    refine .inr ⟨['\\'], c, rfl, ?_⟩
    rcases hc with rfl | rfl
    · exact hslash
    · exact hquote
  · exact .inl rfl

end Filter

namespace Quoted

/-- The characters that stand behind the bar of an escape. -/
def escapeLetters : List Char := "\"\\btnfru0123456789abcdef".toList

/-- How a character of a literal is written. -/
def literalEscape (c : Char) : List Char := (escape? c).getD [c]

theorem encode_eq_flatMap : ∀ text : List Char, encode text = text.flatMap literalEscape
  | [] => rfl
  | c :: text => by
      rw [encode, List.flatMap_cons, literalEscape, ← encode_eq_flatMap text]
      cases escape? c <;> rfl

theorem hexDigit_mem_escapeLetters : ∀ n < 16, hexDigit n ∈ escapeLetters := by
  decide

/-- An escape is a bar and letters. -/
theorem escape?_eq_some {c : Char} {escaped : List Char} (h : escape? c = some escaped) :
    ∃ letters, escaped = '\\' :: letters ∧ ∀ letter ∈ letters, letter ∈ escapeLetters := by
  unfold escape? at h
  split at h
  all_goals try (cases h; exact ⟨_, rfl, by decide⟩)
  next =>
    split at h
    · next hcontrol =>
      cases h
      refine ⟨_, rfl, ?_⟩
      have hhigh : hexDigit (c.toNat / 16) ∈ escapeLetters :=
        hexDigit_mem_escapeLetters _ (by omega)
      have hlow : hexDigit (c.toNat % 16) ∈ escapeLetters :=
        hexDigit_mem_escapeLetters _ (by omega)
      have hletters : 'u' ∈ escapeLetters ∧ '0' ∈ escapeLetters := by decide
      simp [hhigh, hlow, hletters]
    · cases h

/-- Texts that escaping leaves alone, which do not start with a letter of an escape. -/
theorem spares_literalEscape (hkept : ∀ c ∈ needle, escape? c = none) (hslash : '\\' ∉ needle)
    (hhead : ∀ first ∈ needle.head?, first ∉ escapeLetters) :
    Text.Spares literalEscape needle where
  kept := by
    intro c hc
    rw [literalEscape, hkept c hc]
    rfl
  barred := by
    intro c
    unfold literalEscape
    cases hescape : escape? c with
    | none => exact .inl rfl
    | some escaped =>
        obtain ⟨letters, rfl, hletters⟩ := escape?_eq_some hescape
        refine .inr ⟨'\\', letters, rfl, hslash, ?_⟩
        intro first hfirst h
        exact hhead first hfirst (hletters first h)

/-- Where a text that escaping leaves alone occurs in a literal. -/
theorem infix_encode_iff (hkept : ∀ c ∈ needle, escape? c = none) (hslash : '\\' ∉ needle)
    (hhead : ∀ first ∈ needle.head?, first ∉ escapeLetters) :
    needle <:+: encode text ↔ needle <:+: text := by
  rw [encode_eq_flatMap]
  exact Text.infix_flatMap_iff (spares_literalEscape hkept hslash hhead)

end Quoted
end Pushdown
