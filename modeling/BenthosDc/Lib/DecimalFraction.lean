/-
BenthosDc/Lib/DecimalFraction.lean

The numbers that decimal fractions denote.

A fraction of `k` places is printed as `0.` and a number that is padded to `k` digits.
That denotes the number in units of `10 ^ -k` as long as it has no more than `k` digits
(`decimalValue_padded`): padding never cuts a number off.
-/
import Mathlib.Algebra.Field.Rat
import BenthosDc.Lib.Printf

namespace CString

/-- The number that digits, a point and digits denote. -/
def decimalValue (t : Text) : Option ℚ :=
  match t.dropWhile Char.isDigit with
  | '.' :: places =>
      if t.takeWhile Char.isDigit ≠ [] ∧ places ≠ [] ∧ places.all Char.isDigit then
        some (Nat.ofDigitChars 10 (t.takeWhile Char.isDigit) 0 +
          Nat.ofDigitChars 10 places 0 / 10 ^ places.length)
      else none
  | _ => none

variable {k n : Nat}

/-- A number that fits is padded to exactly `k` digits. -/
theorem length_padded (hk : 0 < k) (h : n < 10 ^ k) : (padded k n).length = k := by
  have hle : (decimal n).length ≤ k := (Nat.length_toDigits_le_iff (by decide) hk).mpr h
  rw [padded, List.length_append, List.length_replicate, Nat.sub_add_cancel hle]

/-- The zeros in front do not change a number. -/
theorem ofDigitChars_padded (k n : Nat) : Nat.ofDigitChars 10 (padded k n) 0 = n := by
  have hzeros : Nat.ofDigitChars 10 (List.replicate (k - (decimal n).length) '0') 0 = 0 := by
    rw [Nat.ofDigitChars_replicate_zero, Nat.mul_zero]
  rw [padded, Nat.ofDigitChars_append, hzeros]
  exact Nat.ofDigitChars_ten_toDigits

/-- **A padded number is a fraction in units of its places.** -/
theorem decimalValue_padded (hk : 0 < k) (h : n < 10 ^ k) :
    decimalValue ("0.".toList ++ padded k n) = some ((n : ℚ) / 10 ^ k) := by
  have hlength := length_padded hk h
  have hne : padded k n ≠ [] := List.ne_nil_of_length_pos (by rw [hlength]; exact hk)
  have hdigits : (padded k n).all Char.isDigit = true :=
    List.all_eq_true.mpr fun c hc => isDigit_of_mem_padded hc
  have hvalue : decimalValue ("0.".toList ++ padded k n) =
      if ['0'] ≠ [] ∧ padded k n ≠ [] ∧ (padded k n).all Char.isDigit then
        some (Nat.ofDigitChars 10 ['0'] 0 +
          Nat.ofDigitChars 10 (padded k n) 0 / 10 ^ (padded k n).length : ℚ)
      else none := rfl
  have hzero : Nat.ofDigitChars 10 ['0'] 0 = 0 := rfl
  rw [hvalue, if_pos ⟨nofun, hne, hdigits⟩, hzero, ofDigitChars_padded, hlength, Nat.cast_zero,
    zero_add]

end CString
