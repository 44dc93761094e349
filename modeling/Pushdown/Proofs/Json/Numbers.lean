import Pushdown.Json.Reader
import Pushdown.Proofs.Language.Lexing
import Pushdown.Proofs.Number.Shortest

/-!
# Texts of numbers in documents

A number is written by its sign, whole digits, fraction digits and an exponent. A reader takes
such a text apart in the same way, whatever it makes of the parts. The parts of an integer are
its digits. Those of a finite double are the digits of its shortest decimal, with a point put in
or an exponent behind them. Where the nearest double is taken, it comes back from its own text.

## Results

* `Json.Numeral.readNumber?_text`: the number of a text;
* `Json.exists_numeral`: the numeral of a finite double;
* `Json.NumberReading.Rereads`: what becomes of numbers that are written and read;
* `Json.rereads_exactly`: the nearest doubles are those that were written.
-/

namespace Pushdown

theorem readNat_eq (digits : List Char) : readNat digits = Nat.ofDigitChars 10 digits 0 := rfl

/-- Zeros behind a number multiply it. -/
theorem readNat_append_zeros (digits : List Char) (n : Nat) :
    readNat (digits ++ List.replicate n '0') = readNat digits * Nat.pow 10 n := by
  rw [readNat_eq, Nat.ofDigitChars_append, Nat.ofDigitChars_replicate_zero, Nat.mul_comm]
  rfl

/-- Zeros in front of a number leave it. -/
theorem readNat_zeros_append (digits : List Char) (n : Nat) :
    readNat (List.replicate n '0' ++ digits) = readNat digits := by
  rw [readNat_eq, Nat.ofDigitChars_append, Nat.ofDigitChars_replicate_zero, Nat.mul_zero,
    readNat_eq]

/-- A number that is not zero starts with none. -/
theorem head?_toDigits {n : Nat} (h : 0 < n) : (Nat.toDigits 10 n).head? ≠ some '0' := by
  induction n using Nat.strongRecOn with
  | ind n ih =>
      rw [Nat.toDigits_eq_if (by decide)]
      split
      · next hlt =>
        have hdigit : ∀ m < 10, 0 < m → [Nat.digitChar m].head? ≠ some '0' := by decide
        exact hdigit n hlt h
      · have hquotient : 0 < n / 10 := by omega
        rw [List.head?_append, Option.or_of_isSome (by simp [Nat.toDigits_ne_nil])]
        exact ih (n / 10) (by omega) hquotient

theorem isDigit_toDigits {n : Nat} : ∀ c ∈ Nat.toDigits 10 n, c.isDigit = true := fun _ h =>
  Nat.isDigit_of_mem_toDigits (by decide) (by decide) h

theorem spanDigits_append {digits rest : List Char} (hdigits : ∀ c ∈ digits, c.isDigit = true)
    (hrest : ∀ c ∈ rest.head?, c.isDigit = false) :
    spanDigits (digits ++ rest) = (digits, rest) := by
  obtain ⟨htake, hdrop⟩ := Text.span_append hdigits hrest
  rw [spanDigits, htake, hdrop]

namespace Json

open Pushdown.Language (sign)

/-- Characters that stand behind a value: one that ends it, or a blank. -/
def closing : List Char := [',', ']', '\x7d', ' ', '\n', '\t', '\r']

/-- Texts that go on with no number. -/
def Ends (rest : List Char) : Prop := ∀ c ∈ rest.head?, c ∈ closing

theorem Ends.head {rest : List Char} (h : Ends rest) : ∀ c ∈ rest.head?,
    c.isDigit = false ∧ c ≠ '.' ∧ c ≠ 'e' ∧ c ≠ 'E' := by
  intro c hc
  have hother : ∀ c ∈ closing, c.isDigit = false ∧ c ≠ '.' ∧ c ≠ 'e' ∧ c ≠ 'E' := by decide
  exact hother c (h c hc)

/-- A written number without its sign. -/
structure Numeral where
  whole : List Char
  fraction : List Char
  power : Option Int
  whole_ne_nil : whole ≠ []
  whole_digits : ∀ c ∈ whole, c.isDigit = true
  /-- Only a single zero starts a number. -/
  whole_head : whole.length = 1 ∨ whole.head? ≠ some '0'
  fraction_digits : ∀ c ∈ fraction, c.isDigit = true

namespace Numeral

/-- The point and the digits behind it, if there are any. -/
def fractionText (fraction : List Char) : List Char :=
  if fraction = [] then [] else '.' :: fraction

/-- The exponent with its sign, if there is one. -/
def powerText : Option Int → List Char
  | none => []
  | some power => 'e' :: (if power < 0 then '-' else '+') :: Nat.toDigits 10 power.natAbs

/-- The text of a number. -/
def text (n : Numeral) : List Char := n.whole ++ (fractionText n.fraction ++ powerText n.power)

theorem powerText_head (power : Option Int) {rest : List Char} (h : Ends rest) :
    ∀ c ∈ (powerText power ++ rest).head?, c.isDigit = false ∧ c ≠ '.' := by
  cases power with
  | none => exact fun c hc => ⟨(h.head c hc).1, (h.head c hc).2.1⟩
  | some power =>
      rintro c ⟨⟩
      decide

theorem fractionText_head (fraction : List Char) {rest : List Char}
    (h : ∀ c ∈ rest.head?, c.isDigit = false) :
    ∀ c ∈ (fractionText fraction ++ rest).head?, c.isDigit = false := by
  rw [fractionText]
  split
  · exact h
  · rintro c ⟨⟩
    decide

theorem readPower?_powerText (power : Option Int) {rest : List Char} (h : Ends rest) :
    readPower? (powerText power ++ rest) = some (power, rest) := by
  cases power with
  | none =>
      cases rest with
      | nil => rfl
      | cons c rest =>
          obtain ⟨-, -, hlower, hupper⟩ := h.head c rfl
          rw [powerText, List.nil_append, readPower?, if_neg (by simp [hlower, hupper])]
  | some power =>
      have hspan : spanDigits (Nat.toDigits 10 power.natAbs ++ rest) =
          (Nat.toDigits 10 power.natAbs, rest) :=
        spanDigits_append isDigit_toDigits fun c hc => (h.head c hc).1
      have hempty : (Nat.toDigits 10 power.natAbs).isEmpty = false := by
        rw [List.isEmpty_eq_false_iff]
        exact Nat.toDigits_ne_nil
      have hsign : readSign ((if power < 0 then '-' else '+') ::
          (Nat.toDigits 10 power.natAbs ++ rest)) =
            (decide (power < 0), Nat.toDigits 10 power.natAbs ++ rest) := by
        by_cases hneg : power < 0
        · rw [if_pos hneg, decide_eq_true hneg, readSign]
        · rw [if_neg hneg, decide_eq_false hneg, readSign]
      rw [powerText, List.cons_append, List.cons_append, readPower?, if_pos (.inl rfl), hsign]
      dsimp only
      rw [hspan]
      dsimp only
      rw [hempty, if_neg Bool.false_ne_true, Language.readNat_toDigits, Language.signed_natAbs]

theorem readFraction?_fractionText {fraction rest : List Char}
    (hdigits : ∀ c ∈ fraction, c.isDigit = true)
    (h : ∀ c ∈ rest.head?, c.isDigit = false ∧ c ≠ '.') :
    readFraction? (fractionText fraction ++ rest) = some (fraction, rest) := by
  by_cases hnil : fraction = []
  · rw [hnil, fractionText, if_pos rfl, List.nil_append]
    cases rest with
    | nil => rfl
    | cons c rest =>
        have hpoint := (h c rfl).2
        rw [readFraction?]
        intro digits hcons
        exact hpoint (List.cons.inj hcons).1
  · rw [fractionText, if_neg hnil, List.cons_append, readFraction?,
      spanDigits_append hdigits fun c hc => (h c hc).1]
    simp [hnil]

/-- What is read behind the sign of a number. -/
theorem readNumber?_sign (reading : NumberReading) (negative : Bool) {digit : Char}
    {text : List Char} (hdigit : digit ≠ '-') :
    readNumber? reading (sign negative ++ digit :: text) = (do
      let (whole, rest) := spanDigits (digit :: text)
      if whole.isEmpty || (1 < whole.length && whole.head? = some '0') then none
      else do
        let (fraction, rest) ← readFraction? rest
        let (power, rest) ← readPower? rest
        let number ← reading negative whole fraction power
        pure (number, rest)) := by
  cases negative with
  | true => rfl
  | false =>
      rw [sign, if_neg Bool.false_ne_true, List.nil_append, readNumber?]
      intro rest hcons
      exact hdigit (List.cons.inj hcons).1

/-- The number of a text. -/
theorem readNumber?_text (reading : NumberReading) (n : Numeral) (negative : Bool)
    {rest : List Char} (h : Ends rest) :
    readNumber? reading (sign negative ++ (n.text ++ rest)) =
      (reading negative n.whole n.fraction n.power).map (·, rest) := by
  have hpower := readPower?_powerText n.power h
  have hfraction := readFraction?_fractionText n.fraction_digits (powerText_head n.power h)
  have hwhole := spanDigits_append n.whole_digits
    (fractionText_head n.fraction fun c hc => (powerText_head n.power h c hc).1)
  obtain ⟨digit, digits, hdigits⟩ := List.exists_cons_of_ne_nil n.whole_ne_nil
  have hminus : digit ≠ '-' := by
    rintro rfl
    have hdigit := n.whole_digits '-' (hdigits ▸ List.mem_cons_self)
    exact absurd hdigit (by decide)
  have hhead : (n.whole.isEmpty || (1 < n.whole.length && n.whole.head? = some '0')) = false := by
    rcases n.whole_head with hone | hnozero
    · simp [hone, n.whole_ne_nil]
    · simp [hnozero, n.whole_ne_nil]
  have htext : n.text ++ rest =
      digit :: (digits ++ (fractionText n.fraction ++ (powerText n.power ++ rest))) := by
    rw [text, hdigits]
    simp
  rw [htext, readNumber?_sign reading negative hminus, ← List.cons_append, ← hdigits, hwhole]
  dsimp only
  rw [hhead, if_neg Bool.false_ne_true, hfraction]
  show (do
    let (power, rest) ← readPower? (powerText n.power ++ rest)
    let number ← reading negative n.whole n.fraction power
    pure (number, rest)) = _
  rw [hpower]
  show (reading negative n.whole n.fraction n.power).bind _ = _
  rw [Option.map_eq_bind]
  rfl

/-- A written number starts with its minus or with a digit. -/
theorem head (n : Numeral) (negative : Bool) : ∃ c tail, sign negative ++ n.text = c :: tail ∧
    (c = '-' ∨ c.isDigit = true) := by
  obtain ⟨digit, digits, hdigits⟩ := List.exists_cons_of_ne_nil n.whole_ne_nil
  have hdigit : digit.isDigit = true := n.whole_digits digit (hdigits ▸ List.mem_cons_self)
  cases negative with
  | true => exact ⟨'-', _, rfl, .inl rfl⟩
  | false =>
      rw [text, hdigits]
      exact ⟨digit, _, rfl, .inr hdigit⟩

/-- A numeral with a point or an exponent, and the decimal it stands for. -/
structure Denotes (n : Numeral) (coefficient : Nat) (power : Int) : Prop where
  notWhole : n.fraction ≠ [] ∨ n.power ≠ none
  coefficient_eq : readNat (n.whole ++ n.fraction) = coefficient
  power_eq : n.power.getD 0 - n.fraction.length = power

theorem Denotes.numberOf {n : Numeral} {coefficient : Nat} {power : Int}
    (h : n.Denotes coefficient power) (negative : Bool) :
    Json.numberOf negative n.whole n.fraction n.power =
      double (Binary.ofDecimal negative coefficient power) := by
  rw [Json.numberOf, h.coefficient_eq, h.power_eq, if_neg]
  rintro ⟨hfraction, hpower, -⟩
  exact h.notWhole.elim (fun hne => hne (List.isEmpty_iff.mp hfraction)) fun hne => hne hpower

end Numeral

/-! ## Integers -/

theorem whole_head_toDigits (n : Nat) :
    (Nat.toDigits 10 n).length = 1 ∨ (Nat.toDigits 10 n).head? ≠ some '0' := by
  rcases Nat.eq_zero_or_pos n with rfl | hpos
  · exact .inl rfl
  · exact .inr (head?_toDigits hpos)

/-- The numeral of a natural number. -/
def Numeral.ofNat (n : Nat) : Numeral where
  whole := Nat.toDigits 10 n
  fraction := []
  power := none
  whole_ne_nil := Nat.toDigits_ne_nil
  whole_digits := isDigit_toDigits
  whole_head := whole_head_toDigits n
  fraction_digits := nofun

/-- The numeral of an integer. -/
theorem toList_toString_int (i : Int) :
    (toString i).toList = sign (i < 0) ++ (Numeral.ofNat i.natAbs).text := by
  rw [Language.toList_toString_int]
  simp [Numeral.text, Numeral.ofNat, Numeral.fractionText, Numeral.powerText]

/-- An integer of a document is no negative zero, and its digits are its own. -/
theorem value_toDigits (i : Int) :
    (if decide (i < 0) = true then -(readNat (Nat.toDigits 10 i.natAbs) : Int)
      else readNat (Nat.toDigits 10 i.natAbs)) = i ∧
      (!(decide (i < 0) ∧ readNat (Nat.toDigits 10 i.natAbs) = 0)) = true := by
  rw [Language.readNat_toDigits]
  refine ⟨Language.signed_natAbs i, ?_⟩
  simp only [Bool.not_eq_true', decide_eq_false_iff_not, decide_eq_true_eq]
  omega

theorem exactly_int {i : Int} (h : FitsDocument i) :
    exactly (i < 0) (Nat.toDigits 10 i.natAbs) [] none = some (int i) := by
  obtain ⟨hvalue, hzero⟩ := value_toDigits i
  rw [exactly, numberOf, if_pos ⟨rfl, rfl, hzero⟩, hvalue, ofInt, if_pos h]
  rfl

theorem stepwise_int {i : Int} (h : FitsDocument i) :
    stepwise (i < 0) (Nat.toDigits 10 i.natAbs) [] none = some (int i) := by
  obtain ⟨hvalue, hzero⟩ := value_toDigits i
  rw [stepwise, numberStepwise, hvalue, if_pos ⟨rfl, rfl, hzero, h⟩]
  rfl

/-! ## Doubles -/

section decimal

variable {d : Decimal}

theorem isDigit_zeros {n : Nat} : ∀ c ∈ List.replicate n '0', c.isDigit = true := fun _ hc => by
  rw [List.eq_of_mem_replicate hc]
  decide

theorem isDigit_append {first second : List Char} (hfirst : ∀ c ∈ first, c.isDigit = true)
    (hsecond : ∀ c ∈ second, c.isDigit = true) : ∀ c ∈ first ++ second, c.isDigit = true :=
  List.forall_mem_append.mpr ⟨hfirst, hsecond⟩

theorem readNat_digits : readNat d.digits = d.coefficient := Language.readNat_toDigits _

theorem digits_ne_nil : d.digits ≠ [] := Nat.toDigits_ne_nil

/-- A whole decimal is written with a zero behind the point. -/
theorem exists_numeral_whole (hpower : 0 ≤ d.power) (hzero : d.coefficient = 0 → d.power = 0) :
    ∃ n : Numeral, n.text = Layout.literal.positionalText d ∧
      n.Denotes (d.coefficient * Nat.pow 10 (d.power.toNat + 1)) (-1) := by
  have hhead : (d.digits ++ List.replicate d.power.toNat '0').length = 1 ∨
      (d.digits ++ List.replicate d.power.toNat '0').head? ≠ some '0' := by
    rcases Nat.eq_zero_or_pos d.coefficient with hcoefficient | hpos
    · left
      rw [Decimal.digits, hcoefficient, hzero hcoefficient]
      rfl
    · right
      rw [List.head?_append, Option.or_of_isSome (by simp [digits_ne_nil])]
      exact head?_toDigits hpos
  refine ⟨⟨d.digits ++ List.replicate d.power.toNat '0', ['0'], none, by simp [digits_ne_nil],
    isDigit_append isDigit_toDigits isDigit_zeros, hhead, by decide⟩, ?_, .inl (by simp), ?_, rfl⟩
  · rw [Layout.positionalText]
    simp only [if_pos hpower, Numeral.text, Numeral.fractionText, Numeral.powerText]
    simp [Layout.literal]
  · show readNat (d.digits ++ List.replicate d.power.toNat '0' ++ List.replicate 1 '0') = _
    rw [List.append_assoc, List.replicate_append_replicate, readNat_append_zeros, readNat_digits]

theorem leadExponent_eq (d : Decimal) : d.leadExponent + 1 = d.digits.length + d.power := by
  rw [Decimal.leadExponent]
  omega

/-- A decimal whose point stands among its digits. -/
theorem exists_numeral_point (hpower : d.power < 0) (hwhole : 0 < d.leadExponent + 1)
    (hpos : 0 < d.coefficient) :
    ∃ n : Numeral, n.text = Layout.literal.positionalText d ∧
      n.Denotes d.coefficient d.power := by
  have hlead := leadExponent_eq d
  obtain ⟨places, hplaces⟩ := Int.eq_ofNat_of_zero_le (Int.le_of_lt hwhole)
  have hfraction : (d.digits.drop places).length = d.digits.length - places :=
    List.length_drop
  have hne : d.digits.drop places ≠ [] := by
    rw [← List.length_pos_iff]
    omega
  refine ⟨⟨d.digits.take places, d.digits.drop places, none, ?_,
    fun c hc => isDigit_toDigits c (List.mem_of_mem_take hc), .inr ?_,
    fun c hc => isDigit_toDigits c (List.mem_of_mem_drop hc)⟩, ?_, .inl hne, ?_, ?_⟩
  · simp only [ne_eq, List.take_eq_nil_iff, digits_ne_nil, or_false]
    omega
  · rw [List.head?_take, if_neg (by omega)]
    exact head?_toDigits hpos
  · rw [Layout.positionalText, if_neg (show ¬0 ≤ d.power by omega), if_pos hwhole, hplaces]
    simp [Numeral.text, Numeral.fractionText, Numeral.powerText, hne]
  · rw [List.take_append_drop, readNat_digits]
  · show (0 : Int) - (d.digits.drop places).length = d.power
    omega

/-- A decimal whose digits stand behind zeros. -/
theorem exists_numeral_small (hpower : d.power < 0) (hwhole : ¬0 < d.leadExponent + 1) :
    ∃ n : Numeral, n.text = Layout.literal.positionalText d ∧
      n.Denotes d.coefficient d.power := by
  have hlead := leadExponent_eq d
  refine ⟨⟨['0'], List.replicate (-(d.leadExponent + 1)).toNat '0' ++ d.digits, none, by simp,
    by decide, .inl rfl, isDigit_append isDigit_zeros isDigit_toDigits⟩, ?_,
    .inl (by simp [digits_ne_nil]), ?_, ?_⟩
  · rw [Layout.positionalText, if_neg (show ¬0 ≤ d.power by omega), if_neg hwhole]
    simp [Numeral.text, Numeral.fractionText, Numeral.powerText, digits_ne_nil]
  · show readNat (List.replicate 1 '0' ++ (List.replicate _ '0' ++ d.digits)) = _
    rw [readNat_zeros_append, readNat_zeros_append, readNat_digits]
  · show (0 : Int) - (List.replicate _ '0' ++ d.digits).length = d.power
    rw [List.length_append, List.length_replicate]
    omega

/-- A decimal with an exponent. -/
theorem exists_numeral_scientific (d : Decimal) :
    ∃ n : Numeral, n.text = Layout.literal.scientificText d ∧
      n.Denotes d.coefficient d.power := by
  have hlead := leadExponent_eq d
  obtain ⟨digit, digits, hdigits⟩ := List.exists_cons_of_ne_nil (digits_ne_nil (d := d))
  have hall : ∀ c ∈ digit :: digits, c.isDigit = true := hdigits ▸ isDigit_toDigits
  rw [List.forall_mem_cons] at hall
  refine ⟨⟨[digit], digits, some d.leadExponent, by simp, by simp [hall.1], .inl rfl, hall.2⟩, ?_,
    .inr (by simp), ?_, ?_⟩
  · rw [Layout.scientificText, hdigits]
    have hsign : (if d.leadExponent < 0 then ['-'] else if Layout.literal.signedExponent then ['+']
        else []) = [if d.leadExponent < 0 then '-' else '+'] := by
      split <;> rfl
    cases digits with
    | nil => simp [Numeral.text, Numeral.fractionText, Numeral.powerText, hsign]
    | cons next digits => simp [Numeral.text, Numeral.fractionText, Numeral.powerText, hsign]
  · show readNat (digit :: digits) = _
    rw [← hdigits, readNat_digits]
  · show d.leadExponent - (digits.length : Int) = d.power
    rw [hdigits, List.length_cons] at hlead
    omega

end decimal

/-- The shortest decimal of a double with its point put in, or with an exponent. -/
def decimalText (d : Decimal) : List Char :=
  if d.coefficient = 0 || Layout.literal.positional d.leadExponent then
    Layout.literal.positionalText d
  else Layout.literal.scientificText d

theorem toList_doubleText {x : Double} (hfinite : x.isFinite = true) :
    (doubleText x).toList = sign x.negative ++ decimalText (x.shortest .toEven) := by
  have hinfinite : x.isInfinite = false :=
    decide_eq_false (Nat.ne_of_lt (of_decide_eq_true hfinite))
  rw [doubleText, if_pos hfinite, Layout.render, Double.isNaN_of_isFinite hfinite, hinfinite,
    if_neg Bool.false_ne_true, String.toList_ofList]
  cases x.negative <;> rfl

/-- The numeral of a decimal. -/
theorem exists_numeral_decimal {d : Decimal} (hzero : d.coefficient = 0 → d.power = 0) :
    ∃ n : Numeral, n.text = decimalText d ∧
      n.Denotes (Double.placed d).coefficient (Double.placed d).power := by
  rw [decimalText, Double.placed]
  split
  · next hpositional =>
    rcases Int.lt_or_le d.power 0 with hneg | hpos
    · have hcoefficient : 0 < d.coefficient := by omega
      rw [if_neg (by omega)]
      by_cases hwhole : 0 < d.leadExponent + 1
      · exact exists_numeral_point hneg hwhole hcoefficient
      · exact exists_numeral_small hneg hwhole
    · rw [if_pos ⟨hpos, hpositional⟩]
      exact exists_numeral_whole hpos hzero
  · next hscientific =>
    rw [if_neg fun h => hscientific h.2]
    exact exists_numeral_scientific d

/-- The numeral of a finite double. -/
theorem exists_numeral {x : Double} (hfinite : x.isFinite = true) :
    ∃ n : Numeral, (doubleText x).toList = sign x.negative ++ n.text ∧
      n.Denotes x.written.coefficient x.written.power := by
  obtain ⟨n, htext, hdenotes⟩ :=
    exists_numeral_decimal (Double.power_shortest_of_zero .toEven hfinite)
  exact ⟨n, by rw [toList_doubleText hfinite, htext], hdenotes⟩

/-! ## Writing and reading again -/

/-- Numbers that are written are read: integers as they are, and finite doubles as other ones. -/
structure NumberReading.Rereads (reading : NumberReading) (again : Double → Double) : Prop where
  int {i : Int} (h : FitsDocument i) :
    reading (i < 0) (Nat.toDigits 10 i.natAbs) [] none = some (.int i)
  double {x : Double} (h : x.isFinite = true) :
    ∃ n : Numeral, (doubleText x).toList = sign x.negative ++ n.text ∧
      reading x.negative n.whole n.fraction n.power = some (.double (again x))

/-- The nearest double to the text of a finite double is the double. -/
theorem rereads_exactly : NumberReading.Rereads exactly id where
  int := exactly_int
  double := by
    intro x hfinite
    obtain ⟨n, htext, hdenotes⟩ := exists_numeral hfinite
    refine ⟨n, htext, ?_⟩
    rw [exactly, hdenotes.numberOf, Double.ofDecimal_written hfinite, finite?, if_pos hfinite]
    rfl

end Json
end Pushdown
