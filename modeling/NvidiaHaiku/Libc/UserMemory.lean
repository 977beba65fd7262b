/-
# Copying from and to user space

The kernel reaches the memory of a team through copies that may fault. A copy moves byte after
byte, and stops at the first address where it may not, so that a copy that fails may have
written a part. What a copy does is settled by the addresses it is asked for, and nothing else
is written.
-/

import Mathlib.Data.List.Basic
import Mathlib.Data.Nat.Notation
import Mathlib.Logic.Function.Basic

namespace NvidiaHaiku.Libc

/-- What is mapped at an address. -/
structure UserByte where
  value : BitVec 8
  writable : Bool := true
  deriving DecidableEq, Repr

/-- The bytes at the addresses that are mapped. -/
abbrev UserMemory := ℕ → Option UserByte

namespace UserMemory

/-- The byte at an address, if it is mapped. -/
def read (memory : UserMemory) (a : ℕ) : Option (BitVec 8) := (memory a).map (·.value)

/-- A byte is written, if it is mapped and can be written. -/
def write (memory : UserMemory) (a : ℕ) (byte : BitVec 8) : Option UserMemory :=
  match memory a with
  | some ⟨_, true⟩ => some (Function.update memory a (some ⟨byte, true⟩))
  | some ⟨_, false⟩ | none => none

/-- `user_memcpy` from `a`. -/
def copyIn (memory : UserMemory) (a : ℕ) : (n : ℕ) → Option (List (BitVec 8))
  | 0 => some []
  | n + 1 =>
    match memory.read a with
    | none => none
    | some byte => (copyIn memory (a + 1) n).map (byte :: ·)

/-- `user_memcpy` to `a`, with whether it went through. `user_memset` copies equal bytes. -/
def copyOut (memory : UserMemory) (a : ℕ) : List (BitVec 8) → Bool × UserMemory
  | [] => (true, memory)
  | byte :: rest =>
    match memory.write a byte with
    | none => (false, memory)
    | some memory => copyOut memory (a + 1) rest

/-- The bytes are in memory from `a` on. -/
def Holds (memory : UserMemory) (a : ℕ) (bytes : List (BitVec 8)) : Prop :=
  ∀ i < bytes.length, memory.read (a + i) = bytes[i]?

/-- All of the `n` bytes from `a` on may be written. -/
def Writable (memory : UserMemory) (a n : ℕ) : Prop :=
  ∀ i < n, (memory (a + i)).any (·.writable) = true

variable {memory left other : UserMemory} {a n x : ℕ} {byte : BitVec 8}
  {bytes rest : List (BitVec 8)}

/-! ## One byte -/

theorem write_eq_some : memory.write a byte = some left ↔
    (memory a).any (·.writable) = true ∧ left = Function.update memory a (some ⟨byte, true⟩) := by
  unfold write
  rcases memory a with _ | ⟨old, _ | _⟩ <;> simp [eq_comm]

theorem write_eq_none : memory.write a byte = none ↔ (memory a).any (·.writable) = false := by
  unfold write
  rcases memory a with _ | ⟨old, _ | _⟩ <;> simp

/-! ## Copies in -/

/-- What is copied depends on the bytes that are asked for. -/
theorem copyIn_congr (same : ∀ x, a ≤ x → x < a + n → left x = memory x) :
    copyIn left a n = copyIn memory a n := by
  induction n generalizing a with
  | zero => rfl
  | succ n ih =>
    have first : left.read a = memory.read a := congrArg _ (same a (Nat.le_refl a) (by omega))
    rw [copyIn, copyIn, first, ih fun x low high => same x (by omega) (by omega)]

theorem length_of_copyIn (copied : copyIn memory a n = some bytes) : bytes.length = n := by
  induction n generalizing a bytes with
  | zero => cases copied; rfl
  | succ n ih =>
    rw [copyIn] at copied
    split at copied
    · cases copied
    · obtain ⟨rest, further, rfl⟩ := Option.map_eq_some_iff.mp copied
      rw [List.length_cons, ih further]

/-! ## Copies out -/

theorem copyOut_outside (outside : x < a ∨ a + bytes.length ≤ x) :
    (copyOut memory a bytes).2 x = memory x := by
  induction bytes generalizing memory a with
  | nil => rfl
  | cons byte rest ih =>
    rw [List.length_cons] at outside
    rw [copyOut]
    split
    · rfl
    · next written =>
      obtain ⟨-, rfl⟩ := write_eq_some.mp written
      rw [ih (by omega), Function.update_of_ne (by omega)]

/-- A copy depends on the addresses it is asked for, and writes there alike. -/
theorem copyOut_congr (same : ∀ x, a ≤ x → x < a + bytes.length → left x = memory x) :
    (copyOut left a bytes).1 = (copyOut memory a bytes).1 ∧
      ∀ x, a ≤ x → x < a + bytes.length →
        (copyOut left a bytes).2 x = (copyOut memory a bytes).2 x := by
  induction bytes generalizing memory left a with
  | nil => exact ⟨rfl, fun x low high => absurd high (Nat.not_lt.mpr low)⟩
  | cons byte rest ih =>
    rw [List.length_cons] at same ⊢
    have first : left a = memory a := same a (Nat.le_refl a) (by omega)
    have stopped : left.write a byte = none ↔ memory.write a byte = none := by
      rw [write_eq_none, write_eq_none, first]
    cases written : memory.write a byte with
    | none =>
      rw [copyOut, copyOut, written, stopped.mpr written]
      exact ⟨rfl, same⟩
    | some next =>
      obtain ⟨allowed, rfl⟩ := write_eq_some.mp written
      have written' : left.write a byte = some _ := write_eq_some.mpr ⟨first ▸ allowed, rfl⟩
      rw [copyOut, copyOut, written, written']
      have further : ∀ x, a + 1 ≤ x → x < a + 1 + rest.length →
          Function.update left a (some ⟨byte, true⟩) x =
            Function.update memory a (some ⟨byte, true⟩) x := by
        intro x low high
        rw [Function.update_of_ne (by omega), Function.update_of_ne (by omega)]
        exact same x (by omega) (by omega)
      obtain ⟨through, alike⟩ := ih further
      refine ⟨through, fun x low high => ?_⟩
      rcases Nat.eq_or_lt_of_le low with rfl | beyond
      · dsimp only
        rw [copyOut_outside (by omega), copyOut_outside (by omega), Function.update_self,
          Function.update_self]
      · exact alike x beyond (by omega)

/-- No protection is changed. -/
theorem writable_copyOut_at :
    ((copyOut memory a bytes).2 x).any (·.writable) = (memory x).any (·.writable) := by
  induction bytes generalizing memory a with
  | nil => rfl
  | cons byte rest ih =>
    rw [copyOut]
    split
    · rfl
    · next written =>
      obtain ⟨allowed, rfl⟩ := write_eq_some.mp written
      rw [ih]
      by_cases same : x = a
      · subst same
        rw [Function.update_self, allowed]
        rfl
      · rw [Function.update_of_ne same]

theorem writable_copyOut : Writable (copyOut memory a bytes).2 x n ↔ Writable memory x n := by
  simp only [Writable, writable_copyOut_at]

/-- A copy goes through exactly if all of its destination may be written. -/
theorem copyOut_iff_writable :
    (copyOut memory a bytes).1 = true ↔ Writable memory a bytes.length := by
  induction bytes generalizing memory a with
  | nil => exact iff_of_true rfl nofun
  | cons byte rest ih =>
    have first : Writable memory a (rest.length + 1) ↔
        (memory a).any (·.writable) = true ∧ Writable memory (a + 1) rest.length := by
      constructor
      · intro writable
        refine ⟨writable 0 (Nat.succ_pos _), fun i small => ?_⟩
        rw [Nat.add_right_comm]
        exact writable (i + 1) (Nat.succ_lt_succ small)
      · rintro ⟨here, writable⟩ i small
        cases i with
        | zero => exact here
        | succ i =>
          have there := writable i (Nat.lt_of_succ_lt_succ small)
          rwa [Nat.add_right_comm] at there
    rw [List.length_cons, first, copyOut]
    split
    · next refused => simp [write_eq_none.mp refused]
    · next written =>
      obtain ⟨allowed, rfl⟩ := write_eq_some.mp written
      rw [ih, and_iff_right allowed]
      refine forall₂_congr fun i small => ?_
      rw [Function.update_of_ne (by omega)]

/-- What a copy that goes through has written. -/
theorem holds_copyOut (through : (copyOut memory a bytes).1 = true) :
    Holds (copyOut memory a bytes).2 a bytes := by
  induction bytes generalizing memory a with
  | nil => exact nofun
  | cons byte rest ih =>
    rw [copyOut] at through ⊢
    split at through
    · cases through
    · next written =>
      obtain ⟨-, rfl⟩ := write_eq_some.mp written
      intro i small
      cases i with
      | zero =>
        rw [read, copyOut_outside (by omega), Nat.add_zero, Function.update_self]
        rfl
      | succ i =>
        have there := ih through i (Nat.lt_of_succ_lt_succ small)
        rwa [Nat.add_right_comm] at there

theorem Holds.congr (holds : Holds memory a bytes)
    (same : ∀ i < bytes.length, left (a + i) = memory (a + i)) : Holds left a bytes :=
  fun i small => (congrArg _ (same i small)).trans (holds i small)

/-- A part of what is held. -/
theorem Holds.replicate {total offset : ℕ}
    (holds : Holds memory a (List.replicate total byte)) (inside : offset + n ≤ total) :
    Holds memory (a + offset) (List.replicate n byte) := by
  intro i small
  rw [List.length_replicate] at small
  have written := holds (offset + i) (by rw [List.length_replicate]; omega)
  rw [List.getElem?_replicate_of_lt (by omega)] at written
  rw [List.getElem?_replicate_of_lt small, Nat.add_assoc, written]

end UserMemory

end NvidiaHaiku.Libc
