import Mathlib.Data.List.TakeWhile
import Pushdown.Proofs.Language.Lexing

/-!
# Patterns of tokens

A token is a text that a pattern matches: one of three constants, a mark, a name, a string, an
integer or a decimal number. Several patterns may match at one place. The longest match is the
token there, and a constant is no name. An integer that does not fit in 64 bits is matched, but is
no token.

## Results

* `Pattern.opening_of_matches`: what the first character says about the pattern;
* `Lexeme.correct_readString`, `Lexeme.correct_readNumber?`: what is read at a quote, and at a sign
  or a digit;
* `Lexeme.correct_readFrom`: the token that is read is the longest match, and where none is read,
  there is none.
-/

namespace Pushdown
namespace Language

/-! ## The patterns -/

/-- The patterns of tokens. -/
inductive Pattern where
  | constant
  | mark
  | name
  | string (quote : Quote)
  | integer
  | decimal

/-- The words that are constants. -/
def constants : List (Token × List Char) :=
  [(.trueWord, "true".toList), (.falseWord, "false".toList), (.nullWord, "null".toList)]

/-- The characters that are tokens by themselves. -/
def marks : List (Token × Char) :=
  [(.dot, '.'), (.comma, ','), (.colon, ':'), (.leftParen, '('), (.rightParen, ')'),
    (.leftBrace, '\x7b'), (.rightBrace, '\x7d'), (.leftBracket, '['), (.rightBracket, ']')]

/-- The inside of a string: characters other than its quote and a backslash, and a backslash with
any character but a line break behind it. -/
inductive StringItems (quote : Char) : List Char → Prop
  | nil : StringItems quote []
  | plain {c : Char} {rest : List Char} : c ≠ quote → c ≠ '\\' → StringItems quote rest →
      StringItems quote (c :: rest)
  | escaped {c : Char} {rest : List Char} : c ≠ '\n' → StringItems quote rest →
      StringItems quote ('\\' :: c :: rest)

/-- The integer token of some digits; none beyond 64 bits. -/
def integer? (negative : Bool) (digits : List Char) : Option Token :=
  let n : Int := if negative then -(readNat digits : Int) else readNat digits
  if Fits64 n then some (.int (Int64.ofInt n)) else none

/-- A pattern matches a text, which stands for a token or, if it is an integer beyond 64 bits, for
none. -/
def Pattern.Matches : Pattern → List Char → Option Token → Prop
  | constant, text, result => ∃ t, (t, text) ∈ constants ∧ result = some t
  | mark, text, result => ∃ t c, (t, c) ∈ marks ∧ text = [c] ∧ result = some t
  | name, text, result =>
      ∃ c rest, text = c :: rest ∧ isWordStart c = true ∧ (∀ d ∈ rest, isWordPart d = true) ∧
        result = some (.ident (String.ofList text))
  | string quote, text, result =>
      ∃ items, text = quote.char :: (items ++ [quote.char]) ∧ StringItems quote.char items ∧
        result = some (.string quote (String.ofList (unescape items)))
  | integer, text, result =>
      ∃ negative digits, text = sign negative ++ digits ∧ digits ≠ [] ∧
        (∀ d ∈ digits, d.isDigit = true) ∧ result = integer? negative digits
  | decimal, text, result => ∃ value, IsDecimal text value ∧ result = some (.float value)

/-- The start of a text is the longest that a pattern matches, and stands for a token or for none:
no pattern matches more of the text, and if the start is a constant, it stands for it. -/
structure IsLongest (taken text : List Char) (result : Option Token) : Prop where
  starts : taken <+: text
  matched : ∃ p : Pattern, p.Matches taken result
  longest : ∀ (p : Pattern) (other : List Char) (r : Option Token), other <+: text →
    p.Matches other r → other.length ≤ taken.length
  constant : ∀ t, (t, taken) ∈ constants → result = some t

/-- At the start of a text is no token: no pattern matches, or the longest match is an integer
beyond 64 bits. -/
def Unreadable (text : List Char) : Prop :=
  (∀ (p : Pattern) (other : List Char) (r : Option Token), other <+: text → ¬ p.Matches other r) ∨
    ∃ taken, IsLongest taken text none

/-- A lexeme is what the patterns say of a text: its longest match, or characters at its start if
there is no token. -/
def Lexeme.Correct (text : List Char) : Lexeme → Prop
  | token t taken => IsLongest taken text (some t)
  | invalid taken => Unreadable text ∧ taken ≠ [] ∧ taken <+: text

/-! ## First characters -/

/-- What the first character of a token can be. -/
inductive Opening where
  | word
  | quote (quote : Quote)
  | number
  | mark
  | other
deriving DecidableEq

/-- What a character opens. -/
def Opening.of (c : Char) : Opening :=
  if isWordStart c then word
  else if c = '"' then quote .double
  else if c = '\'' then quote .single
  else if c = '-' ∨ c.isDigit = true then number
  else if (Token.punctuation? c).isSome then mark
  else other

/-- What the matches of a pattern open with. -/
def Pattern.opening : Pattern → Opening
  | constant | name => .word
  | mark => .mark
  | string quote => .quote quote
  | integer | decimal => .number

theorem Opening.of_isDigit {c : Char} (h : c.isDigit = true) : of c = number :=
  Text.forall_isDigit (p := fun c => of c = number) (by decide) h

theorem Opening.of_sign_append {negative : Bool} {digits after tail : List Char} {c : Char}
    (hne : digits ≠ []) (hdigits : ∀ d ∈ digits, d.isDigit = true)
    (h : c :: tail = sign negative ++ (digits ++ after)) : of c = number := by
  cases negative with
  | true =>
      obtain ⟨rfl, -⟩ := List.cons.inj h
      rfl
  | false =>
      cases digits with
      | nil => exact absurd rfl hne
      | cons d digits =>
          obtain ⟨rfl, -⟩ := List.cons.inj h
          exact of_isDigit (hdigits c List.mem_cons_self)

/-- The first character of a match is one that the pattern opens with. -/
theorem Pattern.opening_of_matches {p : Pattern} {c : Char} {tail : List Char} {r : Option Token}
    (h : p.Matches (c :: tail) r) : p.opening = .of c := by
  cases p with
  | constant =>
      obtain ⟨t, ht, -⟩ := h
      have hwords : ∀ entry ∈ constants, ∀ d ∈ entry.2.head?, .word = Opening.of d := by decide
      exact hwords _ ht c rfl
  | mark =>
      obtain ⟨t, d, ht, htext, -⟩ := h
      obtain ⟨rfl, -⟩ := List.cons.inj htext
      have hmarks : ∀ entry ∈ marks, .mark = Opening.of entry.2 := by decide
      exact hmarks _ ht
  | name =>
      obtain ⟨d, rest, htext, hd, -⟩ := h
      obtain ⟨rfl, -⟩ := List.cons.inj htext
      exact (if_pos hd).symm
  | string quote =>
      obtain ⟨items, htext, -⟩ := h
      obtain ⟨rfl, -⟩ := List.cons.inj htext
      cases quote <;> rfl
  | integer =>
      obtain ⟨negative, digits, htext, hne, hdigits, -⟩ := h
      rw [← List.append_nil digits] at htext
      exact (Opening.of_sign_append hne hdigits htext).symm
  | decimal =>
      obtain ⟨value, ⟨negative, whole, fraction, htext, hwhole, -, hdigits, -⟩, -⟩ := h
      rw [List.forall_mem_append] at hdigits
      exact (Opening.of_sign_append hwhole hdigits.1 htext).symm

theorem Pattern.not_matches_nil {p : Pattern} {r : Option Token} : ¬ p.Matches [] r := by
  cases p with
  | constant =>
      rintro ⟨t, ht, -⟩
      have hwords : ∀ entry ∈ constants, entry.2 ≠ [] := by decide
      exact hwords _ ht rfl
  | mark => rintro ⟨t, c, -, htext, -⟩; cases htext
  | name => rintro ⟨c, rest, htext, -⟩; cases htext
  | string quote => rintro ⟨items, htext, -⟩; cases htext
  | integer =>
      rintro ⟨negative, digits, htext, hne, -⟩
      exact hne (List.append_eq_nil_iff.mp htext.symm).2
  | decimal =>
      rintro ⟨value, ⟨negative, whole, fraction, htext, hwhole, -⟩, -⟩
      exact hwhole (List.append_eq_nil_iff.mp (List.append_eq_nil_iff.mp htext.symm).2).1

theorem IsLongest.ne_nil {taken text : List Char} {r : Option Token} (h : IsLongest taken text r) :
    taken ≠ [] := by
  rintro rfl
  obtain ⟨p, hp⟩ := h.matched
  exact Pattern.not_matches_nil hp

/-- A match at the start of a text starts with its first character. -/
theorem Pattern.exists_tail {p : Pattern} {c : Char} {rest other : List Char} {r : Option Token}
    (hother : other <+: c :: rest) (h : p.Matches other r) :
    ∃ tail, other = c :: tail ∧ tail <+: rest ∧ p.opening = .of c := by
  cases other with
  | nil => exact absurd h not_matches_nil
  | cons d tail =>
      obtain ⟨rfl, htail⟩ := List.cons_prefix_cons.mp hother
      exact ⟨tail, rfl, htail, opening_of_matches h⟩

/-- Where no word starts, what is matched is no constant. -/
theorem IsLongest.of_not_word {c : Char} {rest taken : List Char} {result : Option Token}
    (hc : Opening.of c ≠ .word) (htaken : taken <+: c :: rest)
    (hmatched : ∃ p : Pattern, p.Matches taken result)
    (hlongest : ∀ (p : Pattern) (other : List Char) (r : Option Token), other <+: c :: rest →
      p.Matches other r → other.length ≤ taken.length) : IsLongest taken (c :: rest) result := by
  refine ⟨htaken, hmatched, hlongest, fun t ht => ?_⟩
  have h : Pattern.constant.Matches taken (some t) := ⟨t, ht, rfl⟩
  obtain ⟨-, -, -, hopening⟩ := Pattern.exists_tail htaken h
  exact absurd hopening.symm hc

namespace Lexeme

variable {c : Char} {rest : List Char}

/-! ## Words and marks -/

/-- Characters of a kind at the start of a text are among all that are there. -/
theorem length_le_takeWhile {test : Char → Bool} {part text : List Char} (h : part <+: text)
    (hpart : ∀ d ∈ part, test d = true) : part.length ≤ (text.takeWhile test).length := by
  obtain ⟨after, rfl⟩ := h
  rw [List.takeWhile_append_of_pos hpart, List.length_append]
  exact Nat.le_add_right _ _

/-- A constant is a word, and its token is that of the word. -/
theorem of_mem_constants {t : Token} {word : List Char} (h : (t, word) ∈ constants) :
    (∀ d ∈ word, isWordPart d = true) ∧ Token.ofWord word = t := by
  have hall : ∀ entry ∈ constants,
      (∀ d ∈ entry.2, isWordPart d = true) ∧ Token.ofWord entry.2 = entry.1 := by decide
  exact hall _ h

theorem ofWord_eq_ident {word : List Char} (h : ∀ t, (t, word) ∉ constants) :
    Token.ofWord word = .ident (String.ofList word) := by
  have hne : ∀ entry ∈ constants, String.ofList word ≠ String.ofList entry.2 := by
    rintro ⟨t, text⟩ ht heq
    obtain rfl : word = text := by
      rw [← String.toList_ofList (l := word), heq, String.toList_ofList]
    exact h t ht
  simp only [constants, List.forall_mem_cons, String.ofList_toList] at hne
  simp [Token.ofWord, hne]

theorem matches_ofWord (hc : isWordStart c = true) (hrest : ∀ d ∈ rest, isWordPart d = true) :
    ∃ p : Pattern, p.Matches (c :: rest) (some (Token.ofWord (c :: rest))) := by
  by_cases h : ∃ t, (t, c :: rest) ∈ constants
  · obtain ⟨t, ht⟩ := h
    exact ⟨.constant, t, ht, congrArg some (of_mem_constants ht).2⟩
  · refine ⟨.name, c, rest, rfl, hc, hrest, ?_⟩
    rw [ofWord_eq_ident (not_exists.mp h)]

theorem isLongest_word (hc : isWordStart c = true) :
    IsLongest (c :: rest.takeWhile isWordPart) (c :: rest)
      (some (Token.ofWord (c :: rest.takeWhile isWordPart))) := by
  have hopening : Opening.of c = .word := if_pos hc
  refine ⟨List.cons_prefix_cons.mpr ⟨rfl, List.takeWhile_prefix _⟩,
    matches_ofWord hc fun d hd => List.mem_takeWhile_imp hd, ?_, fun t ht => ?_⟩
  · intro p other r hother h
    obtain ⟨tail, rfl, htail, hp⟩ := Pattern.exists_tail hother h
    have hparts : ∀ d ∈ tail, isWordPart d = true := by
      rw [hopening] at hp
      cases p with
      | constant =>
          obtain ⟨t, ht, -⟩ := h
          exact (List.forall_mem_cons.mp (of_mem_constants ht).1).2
      | name =>
          obtain ⟨d, others, htext, -, hothers, -⟩ := h
          obtain ⟨-, rfl⟩ := List.cons.inj htext
          exact hothers
      | _ => cases hp
    rw [List.length_cons, List.length_cons]
    exact Nat.succ_le_succ (length_le_takeWhile htail hparts)
  · rw [(of_mem_constants ht).2]

theorem mem_marks_iff {t : Token} : (t, c) ∈ marks ↔ Token.punctuation? c = some t := by
  constructor
  · intro h
    have hall : ∀ entry ∈ marks, Token.punctuation? entry.2 = some entry.1 := by decide
    exact hall _ h
  · intro h
    unfold Token.punctuation? at h
    split at h <;> cases h <;> decide

/-- A mark is a token by itself. -/
theorem isLongest_mark {t : Token} (hc : Opening.of c = .mark)
    (h : Token.punctuation? c = some t) : IsLongest [c] (c :: rest) (some t) := by
  refine .of_not_word (hc.trans_ne (by decide)) ⟨rest, rfl⟩
    ⟨.mark, t, c, mem_marks_iff.mpr h, rfl, rfl⟩ fun p other r hother h => ?_
  obtain ⟨tail, rfl, -, hp⟩ := Pattern.exists_tail hother h
  rw [hc] at hp
  cases p with
  | mark =>
      obtain ⟨t, d, -, htext, -⟩ := h
      rw [htext]
      exact Nat.le_refl 1
  | _ => cases hp

/-! ## Strings -/

theorem stringItems_prefix (quote : Char) (text : List Char) :
    stringItems quote text <+: text ∧ StringItems quote (stringItems quote text) := by
  fun_induction stringItems quote text with
  | case1 => exact ⟨List.nil_prefix, .nil⟩
  | case2 => exact ⟨List.nil_prefix, .nil⟩
  | case3 c rest hc ih =>
      exact ⟨List.cons_prefix_cons.mpr ⟨rfl, List.cons_prefix_cons.mpr ⟨rfl, ih.1⟩⟩,
        .escaped hc ih.2⟩
  | case4 => exact ⟨List.nil_prefix, .nil⟩
  | case5 c rest _ hc ih =>
      rw [not_or] at hc
      exact ⟨List.cons_prefix_cons.mpr ⟨rfl, ih.1⟩, .plain hc.1 hc.2 ih.2⟩

/-- The items before a quote are all that are there. -/
theorem stringItems_eq {quote : Quote} {items after : List Char}
    (h : StringItems quote.char items) :
    stringItems quote.char (items ++ quote.char :: after) = items := by
  induction h with
  | nil => cases quote <;> simp [stringItems, Quote.char]
  | plain hquote hslash _ ih =>
      rw [List.cons_append, stringItems, if_neg (not_or.mpr ⟨hquote, hslash⟩), ih]
      rintro c rest rfl
      exact absurd rfl hslash
  | escaped hline _ ih => rw [List.cons_append, List.cons_append, stringItems, if_neg hline, ih]

/-- What is matched at a quote is a string up to the first quote behind its items. -/
theorem of_matches_quote {quote : Quote} {p : Pattern} {other : List Char} {r : Option Token}
    (hother : other <+: quote.char :: rest) (h : p.Matches other r) :
    other = quote.char :: (stringItems quote.char rest ++ [quote.char]) ∧
      (rest.drop (stringItems quote.char rest).length).head? = some quote.char := by
  have hopening : Opening.of quote.char = .quote quote := by cases quote <;> rfl
  obtain ⟨tail, rfl, ⟨after, htail⟩, hp⟩ := Pattern.exists_tail hother h
  rw [hopening] at hp
  cases p with
  | string =>
      cases hp
      obtain ⟨items, htext, hitems, -⟩ := h
      obtain ⟨-, rfl⟩ := List.cons.inj htext
      rw [List.append_assoc, List.singleton_append] at htail
      rw [← htail, stringItems_eq hitems, List.drop_left]
      exact ⟨rfl, rfl⟩
  | _ => cases hp

/-- A string is the longest match at its quote. -/
theorem correct_readString (quote : Quote) (rest : List Char) :
    Correct (quote.char :: rest) (readString quote rest) := by
  obtain ⟨⟨after, hafter⟩, hitems⟩ := stringItems_prefix quote.char rest
  have hdrop : rest.drop (stringItems quote.char rest).length = after :=
    (congrArg (List.drop _) hafter.symm).trans List.drop_left
  unfold readString
  dsimp only
  split
  · next hhead =>
    have htaken : quote.char :: (stringItems quote.char rest ++ [quote.char]) <+:
        quote.char :: rest := by
      rw [hdrop] at hhead
      obtain ⟨last, hlast⟩ := List.head?_eq_some_iff.mp hhead
      refine ⟨last, ?_⟩
      rw [List.cons_append, List.append_assoc, List.singleton_append, ← hlast, hafter]
    have hword : Opening.of quote.char ≠ .word := by cases quote <;> decide
    exact IsLongest.of_not_word hword htaken ⟨.string quote, _, rfl, hitems, rfl⟩
      fun p other r hother h => Nat.le_of_eq (congrArg List.length (of_matches_quote hother h).1)
  · next hhead =>
    exact ⟨.inl fun p other r hother h => hhead (of_matches_quote hother h).2,
      List.cons_ne_nil _ _, List.cons_prefix_cons.mpr ⟨rfl, ⟨after, hafter⟩⟩⟩

/-! ## Numbers -/

/-- What stands at the start of a text behind a sign, with the lexeme that is read there. -/
inductive NumberAt (negative : Bool) : List Char → Option Lexeme → Prop
  | none {body : List Char} : (∀ d ∈ body.head?, d.isDigit = false) → NumberAt negative body none
  | integer {digits after : List Char} : digits ≠ [] → (∀ d ∈ digits, d.isDigit = true) →
      (∀ d ∈ after.head?, d.isDigit = false) →
      (∀ d last, after = '.' :: d :: last → d.isDigit = false) →
      NumberAt negative (digits ++ after)
        (some (ofDigits negative digits (sign negative ++ digits)))
  | decimal {whole fraction after : List Char} : whole ≠ [] → fraction ≠ [] →
      (∀ d ∈ whole, d.isDigit = true) → (∀ d ∈ fraction, d.isDigit = true) →
      (∀ d ∈ after.head?, d.isDigit = false) →
      NumberAt negative (whole ++ '.' :: (fraction ++ after))
        (some (.token (.float (Binary.ofDecimal negative (readNat (whole ++ fraction))
          (-fraction.length))) (sign negative ++ (whole ++ '.' :: fraction))))

theorem ofDigits_eq (negative : Bool) (digits taken : List Char) :
    ofDigits negative digits taken =
      (integer? negative digits).elim (.invalid taken) (.token · taken) := by
  unfold ofDigits integer?
  dsimp only
  generalize (if negative then -(readNat digits : Int) else readNat digits) = n
  split <;> rfl

theorem readNumber?_point {negative : Bool} {whole after : List Char} (hne : whole ≠ [])
    (hwhole : ∀ d ∈ whole, d.isDigit = true) (hafter : ∀ d ∈ after.head?, d.isDigit = false) :
    readNumber? negative (whole ++ '.' :: after) =
      some (ofDigits negative whole (sign negative ++ whole)) := by
  have hpoint : ∀ d ∈ ('.' :: after).head?, d.isDigit = false := by
    rintro _ ⟨⟩
    decide
  have hnone : after.takeWhile Char.isDigit = [] :=
    (Text.span_append (List.forall_mem_nil _) hafter).1
  obtain ⟨htake, hdrop⟩ := Text.span_append hwhole hpoint
  rw [readNumber?, spanDigits, htake, hdrop]
  simp [hne, hnone, sign]

theorem numberAt (negative : Bool) (body : List Char) :
    NumberAt negative body (readNumber? negative body) := by
  obtain ⟨whole, after, rfl, hwhole, hafter⟩ := Text.exists_span Char.isDigit body
  by_cases hne : whole = []
  · subst hne
    have hdigits : after.takeWhile Char.isDigit = [] :=
      (Text.span_append (List.forall_mem_nil _) hafter).1
    have hnone : readNumber? negative after = none := by
      rw [readNumber?, spanDigits, hdigits]
      rfl
    rw [List.nil_append, hnone]
    exact .none hafter
  · by_cases hpoint : after.head? = some '.'
    · obtain ⟨rest, rfl⟩ := List.head?_eq_some_iff.mp hpoint
      obtain ⟨fraction, last, rfl, hfraction, hlast⟩ := Text.exists_span Char.isDigit rest
      by_cases hfractionNe : fraction = []
      · subst hfractionNe
        rw [List.nil_append, readNumber?_point hne hwhole hlast]
        refine .integer hne hwhole hafter fun d tail htail => ?_
        obtain ⟨-, rfl⟩ := List.cons.inj htail
        exact hlast d rfl
      · rw [readNumber?_fraction hne hfractionNe hwhole hfraction hlast]
        exact .decimal hne hfractionNe hwhole hfraction hlast
    · have hafter' : ∀ d ∈ after.head?, d.isDigit = false ∧ d ≠ '.' := fun d hd =>
        ⟨hafter d hd, by rintro rfl; exact hpoint hd⟩
      rw [readNumber?_whole hne hwhole hafter']
      refine .integer hne hwhole hafter fun d tail htail => ?_
      rw [htail] at hpoint
      exact absurd rfl hpoint

/-- Two signed texts where one starts the other: the signs agree where digits stand behind. -/
theorem sign_prefix {first second : Bool} {part body : List Char} (hne : part ≠ [])
    (hpart : ∀ d ∈ part.head?, d.isDigit = true)
    (hbody : second = false → ∀ d ∈ body.head?, d ≠ '-')
    (h : sign first ++ part <+: sign second ++ body) : first = second ∧ part <+: body := by
  cases first with
  | true =>
      cases second with
      | true => exact ⟨rfl, (List.cons_prefix_cons.mp h).2⟩
      | false =>
          cases body with
          | nil => exact absurd (List.prefix_nil.mp h) (List.cons_ne_nil _ _)
          | cons c body =>
              obtain ⟨rfl, -⟩ := List.cons_prefix_cons.mp h
              exact absurd rfl (hbody rfl '-' rfl)
  | false =>
      cases second with
      | false => exact ⟨rfl, h⟩
      | true =>
          cases part with
          | nil => exact absurd rfl hne
          | cons d part =>
              obtain ⟨rfl, -⟩ := List.cons_prefix_cons.mp h
              exact absurd (hpart '-' rfl) (by decide)

/-- Digits before something else are the digits at the start of a text. -/
theorem digits_inj {digits digits' after after' : List Char}
    (hdigits : ∀ d ∈ digits, d.isDigit = true) (hdigits' : ∀ d ∈ digits', d.isDigit = true)
    (hafter : ∀ d ∈ after.head?, d.isDigit = false)
    (hafter' : ∀ d ∈ after'.head?, d.isDigit = false) (h : digits ++ after = digits' ++ after') :
    digits = digits' ∧ after = after' := by
  obtain ⟨htake, hdrop⟩ := Text.span_append hdigits hafter
  obtain ⟨htake', hdrop'⟩ := Text.span_append hdigits' hafter'
  rw [h] at htake hdrop
  exact ⟨htake.symm.trans htake', hdrop.symm.trans hdrop'⟩

/-- The digits, with or without a point and digits behind it, of a number. -/
inductive NumberPart : List Char → Prop
  | integer {digits : List Char} : digits ≠ [] → (∀ d ∈ digits, d.isDigit = true) →
      NumberPart digits
  | decimal {whole fraction : List Char} {first : Char} : whole ≠ [] →
      (∀ d ∈ whole, d.isDigit = true) → first.isDigit = true →
      (∀ d ∈ fraction, d.isDigit = true) → NumberPart (whole ++ '.' :: first :: fraction)

theorem NumberPart.head {part : List Char} (h : NumberPart part) :
    ∃ d tail, part = d :: tail ∧ d.isDigit = true := by
  cases h with
  | @integer digits hne hdigits =>
      obtain ⟨d, tail, rfl⟩ := List.exists_cons_of_ne_nil hne
      exact ⟨d, tail, rfl, hdigits d List.mem_cons_self⟩
  | @decimal whole fraction first hne hwhole _ _ =>
      obtain ⟨d, tail, rfl⟩ := List.exists_cons_of_ne_nil hne
      exact ⟨d, _, rfl, hwhole d List.mem_cons_self⟩

section number

variable {negative : Bool} {body : List Char}

/-- What is matched at a sign or a digit is a number behind the same sign. -/
theorem of_matches_number (htext : c :: rest = sign negative ++ body)
    (hc : Opening.of c = .number) (hbody : negative = false → ∀ d ∈ body.head?, d ≠ '-')
    {p : Pattern} {other : List Char} {r : Option Token} (hother : other <+: c :: rest)
    (h : p.Matches other r) :
    ∃ part, other = sign negative ++ part ∧ part <+: body ∧ NumberPart part := by
  have hsigned : ∀ {first : Bool} {part : List Char}, NumberPart part →
      sign first ++ part <+: sign negative ++ body → first = negative ∧ part <+: body := by
    intro first part hpart hwithin
    obtain ⟨d, tail, rfl, hd⟩ := hpart.head
    refine sign_prefix (List.cons_ne_nil d tail) ?_ hbody hwithin
    rintro _ ⟨⟩
    exact hd
  obtain ⟨-, -, -, hp⟩ := Pattern.exists_tail hother h
  rw [hc] at hp
  rw [htext] at hother
  cases p with
  | integer =>
      obtain ⟨first, digits, rfl, hne, hdigits, -⟩ := h
      have hpart := NumberPart.integer hne hdigits
      obtain ⟨rfl, hwithin⟩ := hsigned hpart hother
      exact ⟨digits, rfl, hwithin, hpart⟩
  | decimal =>
      obtain ⟨value, ⟨first, whole, fraction, rfl, hwhole, hfraction, hdigits, -⟩, -⟩ := h
      rw [List.forall_mem_append] at hdigits
      obtain ⟨d, fraction, rfl⟩ := List.exists_cons_of_ne_nil hfraction
      obtain ⟨hd, hfractions⟩ := List.forall_mem_cons.mp hdigits.2
      have hpart := NumberPart.decimal hwhole hdigits.1 hd hfractions
      obtain ⟨rfl, hwithin⟩ := hsigned hpart hother
      exact ⟨_, rfl, hwithin, hpart⟩
  | _ => cases hp

/-- The longest number at the start of a text. -/
theorem length_le_of_numberPart {digits after part : List Char}
    (hdigits : ∀ d ∈ digits, d.isDigit = true) (hafter : ∀ d ∈ after.head?, d.isDigit = false)
    (hwithin : part <+: digits ++ after) (hpart : NumberPart part) :
    part.length ≤ digits.length ∨
      ∃ first fraction, part = digits ++ '.' :: first :: fraction ∧
        '.' :: first :: fraction <+: after ∧ ∀ d ∈ first :: fraction, d.isDigit = true := by
  cases hpart with
  | integer _ hall =>
      have hle := length_le_takeWhile hwithin hall
      rw [(Text.span_append hdigits hafter).1] at hle
      exact .inl hle
  | @decimal whole fraction first _ hwhole hfirst hfraction =>
      obtain ⟨last, hlast⟩ := hwithin
      rw [List.append_assoc] at hlast
      have hpoint : ∀ d ∈ ('.' :: first :: fraction ++ last).head?, d.isDigit = false := by
        rintro _ ⟨⟩
        decide
      obtain ⟨rfl, hrest⟩ := digits_inj hwhole hdigits hpoint hafter hlast
      exact .inr ⟨first, fraction, rfl, ⟨last, hrest⟩,
        List.forall_mem_cons.mpr ⟨hfirst, hfraction⟩⟩

/-- A number is the longest match where it is no start of a longer one. -/
theorem isLongest_number (htext : c :: rest = sign negative ++ body)
    (hc : Opening.of c = .number) (hbody : negative = false → ∀ d ∈ body.head?, d ≠ '-')
    {part : List Char} {result : Option Token} (hpart : part <+: body)
    (hmatched : ∃ p : Pattern, p.Matches (sign negative ++ part) result)
    (hlongest : ∀ other, other <+: body → NumberPart other → other.length ≤ part.length) :
    IsLongest (sign negative ++ part) (c :: rest) result := by
  have htaken : sign negative ++ part <+: c :: rest := by
    rw [htext]
    exact (List.prefix_append_right_inj _).mpr hpart
  refine .of_not_word (hc.trans_ne (by decide)) htaken hmatched fun p other r hother h => ?_
  obtain ⟨number, rfl, hnumber, hform⟩ := of_matches_number htext hc hbody hother h
  rw [List.length_append, List.length_append]
  exact Nat.add_le_add_left (hlongest number hnumber hform) _

/-- Digits are the longest match where no digits stand behind a point after them. -/
theorem isLongest_integer {digits after : List Char}
    (htext : c :: rest = sign negative ++ (digits ++ after)) (hc : Opening.of c = .number)
    (hbody : negative = false → ∀ d ∈ (digits ++ after).head?, d ≠ '-') (hne : digits ≠ [])
    (hdigits : ∀ d ∈ digits, d.isDigit = true) (hafter : ∀ d ∈ after.head?, d.isDigit = false)
    (hpoint : ∀ d last, after = '.' :: d :: last → d.isDigit = false) :
    IsLongest (sign negative ++ digits) (c :: rest) (integer? negative digits) := by
  refine isLongest_number htext hc hbody (List.prefix_append _ _)
    ⟨.integer, negative, digits, rfl, hne, hdigits, rfl⟩ fun other hother hpart => ?_
  obtain hle | ⟨first, fraction, -, ⟨last, hlast⟩, hfraction⟩ :=
    length_le_of_numberPart hdigits hafter hother hpart
  · exact hle
  · have hfirst := hpoint first (fraction ++ last) hlast.symm
    rw [hfraction first List.mem_cons_self] at hfirst
    cases hfirst

/-- Digits, a point and digits are the longest match where no digit follows. -/
theorem isLongest_decimal {whole fraction after : List Char}
    (htext : c :: rest = sign negative ++ (whole ++ '.' :: (fraction ++ after)))
    (hc : Opening.of c = .number)
    (hbody : negative = false → ∀ d ∈ (whole ++ '.' :: (fraction ++ after)).head?, d ≠ '-')
    (hne : whole ≠ []) (hfractionNe : fraction ≠ []) (hwhole : ∀ d ∈ whole, d.isDigit = true)
    (hfraction : ∀ d ∈ fraction, d.isDigit = true)
    (hafter : ∀ d ∈ after.head?, d.isDigit = false) :
    IsLongest (sign negative ++ (whole ++ '.' :: fraction)) (c :: rest)
      (some (.float (Binary.ofDecimal negative (readNat (whole ++ fraction))
        (-fraction.length)))) := by
  have hpoint : ∀ d ∈ ('.' :: (fraction ++ after)).head?, d.isDigit = false := by
    rintro _ ⟨⟩
    decide
  have hdecimal : IsDecimal (sign negative ++ (whole ++ '.' :: fraction))
      (Binary.ofDecimal negative (readNat (whole ++ fraction)) (-fraction.length)) :=
    ⟨negative, whole, fraction, rfl, hne, hfractionNe,
      List.forall_mem_append.mpr ⟨hwhole, hfraction⟩, rfl⟩
  refine isLongest_number htext hc hbody ⟨after, by simp⟩ ⟨.decimal, _, hdecimal, rfl⟩
    fun other hother hpart => ?_
  obtain hle | ⟨first, others, rfl, hwithin, hothers⟩ :=
    length_le_of_numberPart hwhole hpoint hother hpart
  · rw [List.length_append]
    exact Nat.le_add_right_of_le hle
  · have hle := length_le_takeWhile (List.cons_prefix_cons.mp hwithin).2 hothers
    rw [(Text.span_append hfraction hafter).1] at hle
    simp only [List.length_append, List.length_cons] at hle ⊢
    omega

/-- A number is the longest match at its sign or its first digit. -/
theorem correct_readNumber? (htext : c :: rest = sign negative ++ body)
    (hc : Opening.of c = .number) (hbody : negative = false → ∀ d ∈ body.head?, d ≠ '-') :
    Correct (c :: rest) ((readNumber? negative body).getD (.invalid [c])) := by
  have h := numberAt negative body
  generalize readNumber? negative body = lexeme at h
  cases h with
  | none hnone =>
      refine ⟨.inl fun p other r hother h => ?_, List.cons_ne_nil _ _, ⟨rest, rfl⟩⟩
      obtain ⟨part, -, ⟨after, hafter⟩, hpart⟩ := of_matches_number htext hc hbody hother h
      obtain ⟨d, tail, rfl, hd⟩ := hpart.head
      rw [hnone d (by rw [← hafter]; rfl)] at hd
      cases hd
  | @integer digits after hne hdigits hafter hpoint =>
      have hlongest := isLongest_integer htext hc hbody hne hdigits hafter hpoint
      rw [Option.getD_some, ofDigits_eq]
      cases hinteger : integer? negative digits with
      | some t =>
          rw [hinteger] at hlongest
          exact hlongest
      | none =>
          rw [hinteger] at hlongest
          exact ⟨.inr ⟨_, hlongest⟩, hlongest.ne_nil, hlongest.starts⟩
  | decimal hne hfractionNe hwhole hfraction hafter =>
      exact isLongest_decimal htext hc hbody hne hfractionNe hwhole hfraction hafter

end number

/-! ## All lexemes -/

/-- The lexeme that is read is the longest match of the patterns. -/
theorem correct_readFrom (c : Char) (rest : List Char) : Correct (c :: rest) (readFrom c rest) := by
  unfold readFrom
  split_ifs with hword hdouble hsingle hminus hdigit
  · exact isLongest_word hword
  · rw [hdouble]
    exact correct_readString .double rest
  · rw [hsingle]
    exact correct_readString .single rest
  · refine correct_readNumber? (congrArg (· :: rest) hminus) ?_ fun h => by cases h
    rw [hminus]
    rfl
  · refine correct_readNumber? rfl (Opening.of_isDigit hdigit) fun _ => ?_
    rintro _ ⟨⟩
    exact hminus
  · cases hmark : Token.punctuation? c with
    | some t =>
        have hopening : Opening.of c = .mark := by
          simp [Opening.of, hword, hdouble, hsingle, hminus, hdigit, hmark]
        exact isLongest_mark hopening hmark
    | none =>
        have hopening : Opening.of c = .other := by
          simp [Opening.of, hword, hdouble, hsingle, hminus, hdigit, hmark]
        refine ⟨.inl fun p other r hother h => ?_, List.cons_ne_nil _ _, ⟨rest, rfl⟩⟩
        obtain ⟨-, -, -, hp⟩ := Pattern.exists_tail hother h
        rw [hopening] at hp
        cases p <;> cases hp

end Lexeme
end Language
end Pushdown
