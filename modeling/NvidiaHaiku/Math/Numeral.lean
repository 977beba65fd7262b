/-
# Numerals

The numeral of a number has its most significant digit first and no leading zero, apart
from the numeral of zero. Every digit string without a leading zero is the numeral of
its value, so that writing and reading are inverse to each other.
-/

import Mathlib.Data.Nat.Digits.Lemmas

namespace NvidiaHaiku.Math

variable {b n : ℕ} {digits : List ℕ}

/-- The digits of a number, the most significant one first. -/
def numeral (b n : ℕ) : List ℕ := if n = 0 then [0] else (Nat.digits b n).reverse

/-- The value of a digit string, read from left to right. -/
def numeralValue (b : ℕ) (digits : List ℕ) : ℕ :=
  digits.foldl (fun value digit => value * b + digit) 0

/-- A digit string without a leading zero. -/
structure IsNumeral (b : ℕ) (digits : List ℕ) : Prop where
  ne_nil : digits ≠ []
  lt : ∀ digit ∈ digits, digit < b
  leading : digits.head? = some 0 → digits = [0]

theorem numeralValue_eq_ofDigits (b : ℕ) (digits : List ℕ) :
    numeralValue b digits = Nat.ofDigits b digits.reverse := by
  rw [Nat.ofDigits_eq_foldr, List.foldr_reverse, numeralValue]
  congr 1
  funext value digit
  rw [Nat.cast_id, Nat.add_comm, Nat.mul_comm]

/-- Reading what was written. -/
theorem numeralValue_numeral (b n : ℕ) : numeralValue b (numeral b n) = n := by
  unfold numeral
  split
  · rename_i zero
    simp [zero, numeralValue]
  · rw [numeralValue_eq_ofDigits, List.reverse_reverse, Nat.ofDigits_digits]

theorem isNumeral_numeral (base : 1 < b) : IsNumeral b (numeral b n) := by
  unfold numeral
  split
  · refine ⟨List.cons_ne_nil _ _, ?_, fun _ => rfl⟩
    intro digit zero
    rw [List.mem_singleton.mp zero]
    exact Nat.zero_lt_of_lt base
  · rename_i positive
    have digits : Nat.digits b n ≠ [] := Nat.digits_ne_nil_iff_ne_zero.mpr positive
    refine ⟨by simpa using digits, ?_, ?_⟩
    · intro digit written
      exact Nat.digits_lt_base base (List.mem_reverse.mp written)
    · intro leading
      rw [List.head?_reverse, List.getLast?_eq_some_getLast digits] at leading
      exact absurd (Option.some.inj leading) (Nat.getLast_digit_ne_zero b positive)

/-- Writing what was read. -/
theorem numeral_numeralValue (base : 1 < b) (canonical : IsNumeral b digits) :
    numeral b (numeralValue b digits) = digits := by
  by_cases leading : digits.head? = some 0
  · rw [canonical.leading leading]
    simp [numeral, numeralValue]
  · have reversed : Nat.digits b (numeralValue b digits) = digits.reverse := by
      rw [numeralValue_eq_ofDigits]
      apply Nat.digits_ofDigits b base
      · intro digit read
        exact canonical.lt digit (List.mem_reverse.mp read)
      · intro _ zero
        rw [List.getLast_reverse] at zero
        exact leading (by rw [List.head?_eq_some_head canonical.ne_nil, zero])
    have positive : numeralValue b digits ≠ 0 := by
      intro zero
      rw [zero, Nat.digits_zero] at reversed
      exact canonical.ne_nil (List.reverse_eq_nil_iff.mp reversed.symm)
    rw [numeral, if_neg positive, reversed, List.reverse_reverse]

end NvidiaHaiku.Math
