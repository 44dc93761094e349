/-!
# Widths of integers

The integers that signed words of 32 and 64 bits hold, and those that a document may
hold, which reach up to the largest unsigned word.
-/

namespace Pushdown

/-- The integers of signed 32-bit words. -/
abbrev Fits32 (i : Int) : Prop := -2147483648 ≤ i ∧ i ≤ 2147483647

/-- The integers of signed 64-bit words. -/
abbrev Fits64 (i : Int) : Prop := -9223372036854775808 ≤ i ∧ i ≤ 9223372036854775807

/-- The integers of signed and of unsigned 64-bit words. -/
abbrev FitsDocument (i : Int) : Prop := -9223372036854775808 ≤ i ∧ i ≤ 18446744073709551615

theorem Fits32.fits64 {i : Int} (h : Fits32 i) : Fits64 i :=
  ⟨Int.le_trans (by decide) h.1, Int.le_trans h.2 (by decide)⟩

theorem Fits64.fitsDocument {i : Int} (h : Fits64 i) : FitsDocument i :=
  ⟨h.1, Int.le_trans h.2 (by decide)⟩

theorem fits32_toInt (i : Int32) : Fits32 i.toInt :=
  ⟨Int32.le_toInt i, Int.le_of_lt_add_one (Int32.toInt_lt i)⟩

theorem fits64_toInt (i : Int64) : Fits64 i.toInt :=
  ⟨Int64.le_toInt i, Int.le_of_lt_add_one (Int64.toInt_lt i)⟩

end Pushdown
