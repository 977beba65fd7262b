/-
# Extents of addresses

An extent is a range of addresses of a fixed width that does not wrap around. An address
in it is its base and an offset, and either determines the other. Among extents of which
no two share an address, at most one contains a given address, so a search through them
finds that one wherever it stands.
-/

import Mathlib.Algebra.Group.Nat.Defs
import Mathlib.Data.List.Basic

namespace NvidiaHaiku.Math

/-- A range of addresses that does not wrap around. -/
structure Extent (w : ℕ) where
  base : BitVec w
  size : ℕ
  fits : base.toNat + size ≤ 2 ^ w
  deriving DecidableEq

namespace Extent

variable {w : ℕ} (e f : Extent w) {address : BitVec w} {o : ℕ}

/-- How far behind the base an address is. -/
def offset (address : BitVec w) : ℕ := (address - e.base).toNat

/-- The address that is so far behind the base. -/
def nth (o : ℕ) : BitVec w := e.base + BitVec.ofNat w o

/-- The address is in the extent. -/
def Contains (address : BitVec w) : Prop := e.offset address < e.size

instance (address : BitVec w) : Decidable (e.Contains address) :=
  inferInstanceAs (Decidable (_ < _))

/-- One ends before the other begins. -/
def Disjoint : Prop :=
  e.base.toNat + e.size ≤ f.base.toNat ∨ f.base.toNat + f.size ≤ e.base.toNat

instance : Decidable (e.Disjoint f) := inferInstanceAs (Decidable (_ ∨ _))

variable {e f}

theorem offset_nth (small : o < e.size) : e.offset (e.nth o) = o := by
  have fits := e.fits
  rw [offset, nth, BitVec.add_comm, BitVec.add_sub_cancel, BitVec.toNat_ofNat,
    Nat.mod_eq_of_lt (by omega)]

@[simp] theorem nth_offset : e.nth (e.offset address) = address := by
  rw [nth, offset, BitVec.ofNat_toNat, BitVec.setWidth_eq, BitVec.add_comm,
    BitVec.sub_add_cancel]

theorem contains_nth (small : o < e.size) : e.Contains (e.nth o) := by
  rwa [Contains, offset_nth small]

theorem nth_zero : e.nth 0 = e.base := by simp [nth]

/-- The addresses of an extent are consecutive numbers. -/
theorem toNat_nth (small : o < e.size) : (e.nth o).toNat = e.base.toNat + o := by
  have fits := e.fits
  rw [nth, BitVec.toNat_add, BitVec.toNat_ofNat, Nat.mod_eq_of_lt (show o < 2 ^ w by omega),
    Nat.mod_eq_of_lt (by omega)]

theorem contains_iff :
    e.Contains address ↔ e.base.toNat ≤ address.toNat ∧ address.toNat < e.base.toNat + e.size := by
  constructor
  · intro contains
    have here := toNat_nth contains
    rw [nth_offset] at here
    have small : e.offset address < e.size := contains
    omega
  · rintro ⟨above, below⟩
    have same : address = e.nth (address.toNat - e.base.toNat) := by
      apply BitVec.eq_of_toNat_eq
      rw [toNat_nth (by omega)]
      omega
    rw [same]
    exact contains_nth (by omega)

theorem Disjoint.symm (apart : e.Disjoint f) : f.Disjoint e := Or.symm apart

/-- No address is in two disjoint extents. -/
theorem Disjoint.not_contains (apart : e.Disjoint f) :
    ¬ (e.Contains address ∧ f.Contains address) := by
  rw [contains_iff, contains_iff]
  rcases apart with before | after <;> omega

/-- A search for an address finds the extent that it is in. -/
theorem find_eq_some {α : Type*} {xs : List α} {x : α} {p : α → Bool}
    (member : x ∈ xs) (meets : p x = true)
    (apart : xs.Pairwise fun a b => ¬ (p a = true ∧ p b = true)) : xs.find? p = some x := by
  induction xs with
  | nil => cases member
  | cons a xs ih =>
    obtain ⟨first, rest⟩ := List.pairwise_cons.mp apart
    rcases List.mem_cons.mp member with rfl | member
    · exact List.find?_cons_of_pos meets
    · rw [List.find?_cons_of_neg fun here => first x member ⟨here, meets⟩]
      exact ih member rest

end Extent

end NvidiaHaiku.Math
