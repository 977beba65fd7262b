/-
# Machine words

A word of `w` bits is scaled by a multiplication that wraps, and holds flags of one
bit each. What survives such an encoding is the product that fits, and the bits that
are named. Nothing is lost in words that are wide enough.
-/

import Mathlib.Algebra.Group.Nat.Defs

namespace NvidiaHaiku.Math

variable {w : ℕ} {x k : BitVec w}

/-! ## Scaling -/

/-- Scaled up and down again, a word is what it was just when the product fits. -/
theorem mul_udiv_eq_self_iff (positive : k ≠ 0) : x * k / k = x ↔ x.toNat * k.toNat < 2 ^ w := by
  rw [← BitVec.toNat_inj, BitVec.toNat_udiv, BitVec.toNat_mul]
  constructor
  · intro same
    calc x.toNat * k.toNat
        = x.toNat * k.toNat % 2 ^ w / k.toNat * k.toNat := by rw [same]
      _ ≤ x.toNat * k.toNat % 2 ^ w := Nat.div_mul_le_self ..
      _ < 2 ^ w := Nat.mod_lt _ (Nat.two_pow_pos w)
  · intro fits
    have positive : 0 < k.toNat := by
      apply Nat.pos_of_ne_zero
      intro zero
      exact positive (BitVec.eq_of_toNat_eq zero)
    rw [Nat.mod_eq_of_lt fits, Nat.mul_div_cancel _ positive]

/-- Scaling down first leaves room for scaling up. -/
theorem toNat_udiv_mul : (x / k * k).toNat = x.toNat / k.toNat * k.toNat := by
  rw [BitVec.toNat_mul, BitVec.toNat_udiv]
  apply Nat.mod_eq_of_lt
  calc x.toNat / k.toNat * k.toNat
      ≤ x.toNat := Nat.div_mul_le_self ..
    _ < 2 ^ w := x.isLt

/-! ## What is lost

A product that wraps and a word that is cut differ from what they stand for. -/

theorem toNat_mul_eq_iff : (x * k).toNat = x.toNat * k.toNat ↔ x.toNat * k.toNat < 2 ^ w := by
  rw [BitVec.toNat_mul]
  exact Nat.mod_eq_iff_lt (Nat.ne_of_gt (Nat.two_pow_pos w))

theorem toNat_setWidth_eq_iff {v : ℕ} : (x.setWidth v).toNat = x.toNat ↔ x.toNat < 2 ^ v := by
  rw [BitVec.toNat_setWidth]
  exact Nat.mod_eq_iff_lt (Nat.ne_of_gt (Nat.two_pow_pos v))

/-! ## Widening -/

/-- A product of two words fits into twice their width. -/
theorem toNat_mul_setWidth {v : ℕ} {y z : BitVec v} (room : 2 * v ≤ w) :
    (y.setWidth w * z.setWidth w).toNat = y.toNat * z.toNat := by
  have widen : ∀ a : BitVec v, (a.setWidth w).toNat = a.toNat := fun a =>
    BitVec.toNat_setWidth_of_le (by omega)
  rw [BitVec.toNat_mul, widen, widen]
  apply Nat.mod_eq_of_lt
  calc y.toNat * z.toNat
      < 2 ^ v * 2 ^ v := Nat.mul_lt_mul'' y.isLt z.isLt
    _ = 2 ^ (2 * v) := by rw [← Nat.pow_add, Nat.two_mul]
    _ ≤ 2 ^ w := Nat.pow_le_pow_right (by decide) room

/-! ## Flags -/

/-- A flag that is read from a word and written back. -/
theorem ite_twoPow_and (i : ℕ) :
    (if BitVec.twoPow w i &&& x ≠ 0 then BitVec.twoPow w i else 0) = BitVec.twoPow w i &&& x := by
  rw [BitVec.and_comm, BitVec.and_twoPow]
  cases set : x.getLsbD i with
  | false => simp
  | true => simpa using Eq.symm

end NvidiaHaiku.Math
