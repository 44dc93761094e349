import Pushdown.Number.Binary

/-!
# Decimal text of floating-point numbers

The text of a number is made in two steps. `shortest` finds the decimal with the
fewest digits that rounds back to the datum: a decimal rounds back when it lies
between the midpoints to the two neighbouring data, the midpoints included when
the significand is even. A `Layout` then says where the point goes and when an
exponent is written.

## Operations

* `shortest`: fewest digits, then nearest, then the tie rule;
* `Layout.render`: the text of a datum;
* `readDecimal?`: digits with an optional point and exponent;
* `Binary.ofText?`: a number written as text, special names included.
-/

namespace Pushdown

/-- Which of two equally near decimals is taken. -/
inductive Tie where
  | toEven
  | upward
deriving DecidableEq

/-- The number `coefficient * 10 ^ power`. -/
structure Decimal where
  coefficient : Nat
  power : Int
deriving DecidableEq

namespace Decimal

/-- Digits of the coefficient. -/
def digits (d : Decimal) : List Char := Nat.toDigits 10 d.coefficient

/-- Exponent of the first digit in scientific form. -/
def leadExponent (d : Decimal) : Int := d.digits.length - 1 + d.power

end Decimal

namespace Binary

variable {f : Format}

/-- Midpoints to the neighbours and the value itself, in quarter places. -/
structure Window where
  lower : Nat
  value : Nat
  upper : Nat
  closed : Bool
  exponent : Int

/-- The reals that round to the size of a finite datum. -/
def window (x : Binary f) : Window :=
  let m := x.significand
  let narrow := x.magnitude % Nat.pow 2 f.fractionBits = 0 ∧ 1 < x.exponentField
  { lower := if narrow then 4 * m - 1 else 4 * m - 2
    value := 4 * m
    upper := 4 * m + 2
    closed := m % 2 = 0
    exponent := f.unitExponent + x.shift - 2 }

/-- Whether `coefficient * 10 ^ power` lies in a window. -/
def Window.holds (w : Window) (coefficient : Nat) (power : Int) : Bool :=
  let point := coefficient * Nat.pow 10 power.toNat * Nat.pow 2 (-w.exponent).toNat
  let scale := Nat.pow 10 (-power).toNat * Nat.pow 2 w.exponent.toNat
  if w.closed then w.lower * scale ≤ point && point ≤ w.upper * scale
  else w.lower * scale < point && point < w.upper * scale

/-- The neighbour of the value on a decimal grid that is in the window. -/
def Window.onGrid? (w : Window) (tie : Tie) (power : Int) : Option Nat :=
  let step := Nat.pow 10 power.toNat * Nat.pow 2 (-w.exponent).toNat
  let value := w.value * (Nat.pow 10 (-power).toNat * Nat.pow 2 w.exponent.toNat)
  let below := value / step
  let twice := 2 * (value % step)
  let takeAbove :=
    if twice < step then false
    else if step < twice then true
    else match tie with
      | .upward => true
      | .toEven => below % 2 = 1
  match w.holds below power, w.holds (below + 1) power with
  | true, true => some (if takeAbove then below + 1 else below)
  | true, false => some below
  | false, true => some (below + 1)
  | false, false => none

/-- Try finer and finer grids. -/
def Window.search (w : Window) (tie : Tie) : Nat → Int → Decimal
  | 0, power => ⟨0, power⟩
  | fuel + 1, power =>
      match w.onGrid? tie power with
      | some coefficient => ⟨coefficient, power⟩
      | none => w.search tie fuel (power - 1)

/-- The decimal with the fewest digits that rounds back to a finite datum. -/
def shortest (tie : Tie) (x : Binary f) : Decimal :=
  if x.magnitude = 0 then ⟨0, 0⟩
  else
    let w := x.window
    let bits : Int := (Nat.log2 x.significand : Int) + 1 + f.unitExponent + x.shift
    w.search tie 64 (bits * 30103 / 100000 + 2)

end Binary

/-- Where the point goes and when an exponent is written. -/
structure Layout where
  /-- Exponents of the first digit that are written without an exponent. -/
  positional : Int → Bool
  /-- Whole numbers keep `.0`. -/
  keepPoint : Bool
  /-- Positive exponents carry a sign. -/
  signedExponent : Bool
  /-- The rule for two equally near decimals. -/
  tie : Tie

namespace Layout

/-- Positional digits of a decimal. -/
def positionalText (layout : Layout) (d : Decimal) : List Char :=
  let digits := d.digits
  let whole := d.leadExponent + 1
  if 0 ≤ d.power then
    digits ++ List.replicate d.power.toNat '0' ++ (if layout.keepPoint then ['.', '0'] else [])
  else if 0 < whole then
    digits.take whole.toNat ++ '.' :: digits.drop whole.toNat
  else
    '0' :: '.' :: (List.replicate (-whole).toNat '0' ++ digits)

/-- Scientific digits of a decimal. -/
def scientificText (layout : Layout) (d : Decimal) : List Char :=
  let lead := match d.digits with
    | [] => []
    | [c] => [c]
    | c :: rest => c :: '.' :: rest
  let e := d.leadExponent
  let sign := if e < 0 then ['-'] else if layout.signedExponent then ['+'] else []
  lead ++ 'e' :: sign ++ Nat.toDigits 10 e.natAbs

/-- Text of a datum; the special ones are `NaN`, `inf` and `-inf`. -/
def render {f : Format} (layout : Layout) (x : Binary f) : String :=
  if x.isNaN then "NaN"
  else
    let body :=
      if x.isInfinite then ['i', 'n', 'f']
      else
        let d := x.shortest layout.tie
        if d.coefficient = 0 || layout.positional d.leadExponent then layout.positionalText d
        else layout.scientificText d
    String.ofList (if x.negative then '-' :: body else body)

/-- Literals: a point always, an exponent outside `-5 ≤ e < 16`, signed. -/
def literal : Layout := ⟨fun e => -5 ≤ e && e < 16, true, true, .toEven⟩

/-- Plain numbers: never an exponent, no point in whole numbers. -/
def plain : Layout := ⟨fun _ => true, false, false, .upward⟩

/-- Inspected values: a point always, an exponent outside `-4 ≤ e < 16`. -/
def inspected : Layout := ⟨fun e => -4 ≤ e && e < 16, true, false, .upward⟩

end Layout

/-- Value of a digit character. -/
def digitValue (c : Char) : Nat := c.toNat - '0'.toNat

/-- Number written by decimal digits. -/
def readNat (digits : List Char) : Nat :=
  digits.foldl (fun n c => 10 * n + digitValue c) 0

/-- Split off the leading ASCII digits. -/
def spanDigits (text : List Char) : List Char × List Char :=
  (text.takeWhile Char.isDigit, text.dropWhile Char.isDigit)

/-- An optional sign; true for a minus. -/
def readSign : List Char → Bool × List Char
  | '-' :: rest => (true, rest)
  | '+' :: rest => (false, rest)
  | rest => (false, rest)

/-- The exponent part of a decimal, which must be all that is left. -/
def readExponent? : List Char → Option Int
  | [] => some 0
  | c :: rest =>
      if c = 'e' ∨ c = 'E' then
        let (negative, rest) := readSign rest
        let (digits, rest) := spanDigits rest
        if digits.isEmpty || !rest.isEmpty then none
        else some (if negative then -(readNat digits : Int) else readNat digits)
      else none

/-- An unsigned decimal: digits around an optional point, an optional exponent. -/
def readDecimal? (text : List Char) : Option Decimal :=
  let (whole, rest) := spanDigits text
  let (fraction, rest) := match rest with
    | '.' :: rest => spanDigits rest
    | rest => ([], rest)
  if whole.isEmpty && fraction.isEmpty then none
  else do
    let exponent ← readExponent? rest
    pure ⟨readNat (whole ++ fraction), exponent - fraction.length⟩

/-- A number written as text: a decimal, or an infinity or `nan` in any case. -/
def Binary.ofText? {f : Format} (text : String) : Option (Binary f) :=
  let (negative, body) := readSign text.toList
  let name := String.ofList (body.map Char.toLower)
  if name = "inf" ∨ name = "infinity" then some (Binary.infinity negative)
  else if name = "nan" then some Binary.notANumber
  else do
    let d ← readDecimal? body
    pure (Binary.ofDecimal negative d.coefficient d.power)

end Pushdown
