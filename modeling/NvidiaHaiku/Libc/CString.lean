/-
# Strings of the C library

A string is what stands before its terminator. Two functions compare strings, and
`strtol` reads a number off the front of one. It skips spaces, takes a sign, stops at
the first byte that is no digit, and saturates.

On a string that starts with a digit nothing is skipped. If that string is a whole
numeral, its number is returned or the range is exceeded.
-/

import Mathlib.Data.List.GetD
import Mathlib.Data.List.TakeWhile
import Mathlib.Tactic.SplitIfs
import NvidiaHaiku.Math.Numeral

namespace NvidiaHaiku.Libc

open NvidiaHaiku.Math

/-- A string that is terminated by a NUL. -/
@[ext]
structure CString where
  bytes : List UInt8
  terminated : 0 ∉ bytes
  deriving DecidableEq, Repr

namespace CString

variable {s t : CString} {n : ℕ}

/-- The string that `s + n` points to, for `n` up to the length of `s`. -/
def drop (s : CString) (n : ℕ) : CString :=
  ⟨s.bytes.drop n, fun zero => s.terminated (List.mem_of_mem_drop zero)⟩

/-- The strings one after the other. -/
def append (s t : CString) : CString :=
  ⟨s.bytes ++ t.bytes, by simp [s.terminated, t.terminated]⟩

/-- `s[n]`, for `n` up to the length of `s`. -/
def get (s : CString) (n : ℕ) : UInt8 := s.bytes.getD n 0

theorem get_eq_zero_iff : s.get n = 0 ↔ s.bytes.length ≤ n := by
  unfold get
  constructor
  · intro zero
    by_contra inside
    have inside : n < s.bytes.length := by omega
    rw [List.getD_eq_getElem _ _ inside] at zero
    exact s.terminated (zero ▸ List.getElem_mem inside)
  · exact List.getD_eq_default _ _

theorem head?_eq_some_get (nonempty : s.bytes ≠ []) : s.bytes.head? = some (s.get 0) := by
  obtain ⟨c, rest, bytes⟩ := List.exists_cons_of_ne_nil nonempty
  rw [get, bytes]
  rfl

@[simp]
theorem drop_append : (s.append t).drop s.bytes.length = t := by
  ext1
  exact List.drop_left ..

theorem append_inj {u : CString} : s.append t = s.append u ↔ t = u := by
  simp [append, CString.ext_iff]

end CString

/-! ## Comparing -/

/-- The length without the terminator. -/
def strlen (s : CString) : ℕ := s.bytes.length

/-- The first difference among `n` bytes and up to the terminators. -/
def compareBytes : ℕ → List UInt8 → List UInt8 → ℤ
  | 0, _, _ => 0
  | _ + 1, [], [] => 0
  | _ + 1, [], d :: _ => -d.toNat
  | _ + 1, c :: _, [] => c.toNat
  | n + 1, c :: s, d :: t => if c = d then compareBytes n s t else c.toNat - d.toNat

def strncmp (s t : CString) (n : ℕ) : ℤ := compareBytes n s.bytes t.bytes

/-- The terminator of `s` is compared as well. -/
def strcmp (s t : CString) : ℤ := strncmp s t (strlen s + 1)

variable {s t str : CString}

theorem compareBytes_eq_zero_iff {s t : List UInt8} (hs : 0 ∉ s) (ht : 0 ∉ t) (n : ℕ) :
    compareBytes n s t = 0 ↔ s.take n = t.take n := by
  -- the end of a string compares as the null that terminates it
  induction n generalizing s t with
  | zero => simp [compareBytes]
  | succ n ih =>
    have differ : ∀ c d : UInt8, (c.toNat : ℤ) - d.toNat = 0 ↔ c = d := by
      intro c d
      rw [← UInt8.toNat_inj]
      omega
    cases s with
    | nil =>
      cases t with
      | nil => simp [compareBytes]
      | cons d t =>
        have apart : ¬ d = 0 := fun zero => ht (zero ▸ List.mem_cons_self)
        simpa [compareBytes, apart] using (differ d 0).not.mpr apart
    | cons c s =>
      cases t with
      | nil =>
        have apart : ¬ c = 0 := fun zero => hs (zero ▸ List.mem_cons_self)
        simpa [compareBytes, apart] using (differ c 0).not.mpr apart
      | cons d t =>
        have rest := ih (fun zero => hs (List.mem_cons_of_mem c zero))
          (fun zero => ht (List.mem_cons_of_mem d zero))
        simp only [compareBytes, List.take_succ_cons, List.cons.injEq]
        split
        · rename_i same
          rw [rest]
          exact ⟨fun tail => ⟨same, tail⟩, And.right⟩
        · rename_i different
          rw [differ]
          exact ⟨fun same => absurd same different, fun same => absurd same.1 different⟩

theorem strncmp_eq_zero_iff : strncmp s t (strlen s) = 0 ↔ s.bytes <+: t.bytes := by
  rw [strncmp, compareBytes_eq_zero_iff s.terminated t.terminated, strlen, List.take_length,
    List.prefix_iff_eq_take]

theorem strcmp_eq_zero_iff : strcmp s t = 0 ↔ s = t := by
  rw [strcmp, strncmp, compareBytes_eq_zero_iff s.terminated t.terminated, strlen,
    List.take_of_length_le (Nat.le_succ _), CString.ext_iff]
  constructor
  · intro same
    have length : t.bytes.length ≤ s.bytes.length + 1 := by
      have taken := congrArg List.length same
      rw [List.length_take] at taken
      omega
    rwa [List.take_of_length_le length] at same
  · intro same
    rw [← same, List.take_of_length_le (Nat.le_succ _)]

/-! ## Digits -/

def isspace (c : UInt8) : Bool := c = 0x20 || 0x09 ≤ c && c ≤ 0x0d

def isdigit (c : UInt8) : Bool := 0x30 ≤ c && c ≤ 0x39

/-- The value of a digit. -/
def digitValue (c : UInt8) : ℕ := c.toNat - 0x30

/-- The digit with a value. -/
def digitByte (digit : ℕ) : UInt8 := UInt8.ofNat (0x30 + digit)

variable {c : UInt8} {digit : ℕ}

theorem isdigit_iff : isdigit c = true ↔ 0x30 ≤ c.toNat ∧ c.toNat ≤ 0x39 := by
  simp only [isdigit, Bool.and_eq_true, decide_eq_true_eq, UInt8.le_iff_toNat_le]
  rfl

theorem toNat_digitByte (decimal : digit < 10) : (digitByte digit).toNat = 0x30 + digit := by
  rw [digitByte, UInt8.toNat_ofNat']
  exact Nat.mod_eq_of_lt (by omega)

theorem isdigit_digitByte (decimal : digit < 10) : isdigit (digitByte digit) = true := by
  rw [isdigit_iff, toNat_digitByte decimal]
  omega

theorem digitValue_digitByte (decimal : digit < 10) : digitValue (digitByte digit) = digit := by
  rw [digitValue, toNat_digitByte decimal]
  omega

theorem digitValue_lt (read : isdigit c = true) : digitValue c < 10 := by
  rw [isdigit_iff] at read
  unfold digitValue
  omega

theorem digitByte_digitValue (read : isdigit c = true) : digitByte (digitValue c) = c := by
  have value := digitValue_lt read
  rw [isdigit_iff] at read
  rw [← UInt8.toNat_inj, toNat_digitByte value]
  unfold digitValue
  omega

/-! ## Reading a number -/

/-- The range of a 64-bit `long`. -/
def LONG_MIN : ℤ := -2 ^ 63
def LONG_MAX : ℤ := 2 ^ 63 - 1

def ERANGE : BitVec 32 := 0x80007011

/-- What `strtol` returns, how far behind the start `strEnd` points, and `errno`. -/
structure Strtol where
  value : ℤ
  strEnd : ℕ
  errno : BitVec 32
  deriving DecidableEq, Repr

/-- The value that is returned for a number, with `errno` only set if it saturates. -/
def saturate (number : ℤ) (strEnd : ℕ) (errno : BitVec 32) : Strtol :=
  if number < LONG_MIN then ⟨LONG_MIN, strEnd, ERANGE⟩
  else if LONG_MAX < number then ⟨LONG_MAX, strEnd, ERANGE⟩
  else ⟨number, strEnd, errno⟩

/-- `strtol` with base 10, called with a given `errno`. -/
def strtol (str : CString) (errno : BitVec 32) : Strtol :=
  let spaces := (str.bytes.takeWhile isspace).length
  let subject := str.bytes.drop spaces
  let signed := subject.head? = some 0x2d ∨ subject.head? = some 0x2b
  let sign := if signed then 1 else 0
  let digits := (subject.drop sign).takeWhile isdigit
  -- no conversion is made
  if digits = [] then ⟨0, 0, errno⟩
  else
    let magnitude : ℤ := numeralValue 10 (digits.map digitValue)
    let number := if subject.head? = some 0x2d then -magnitude else magnitude
    saturate number (spaces + sign + digits.length) errno

theorem saturate_of_mem {number : ℤ} (least : LONG_MIN ≤ number) (greatest : number ≤ LONG_MAX)
    (strEnd : ℕ) (errno : BitVec 32) : saturate number strEnd errno = ⟨number, strEnd, errno⟩ := by
  rw [saturate, if_neg (not_lt.mpr least), if_neg (not_lt.mpr greatest)]

theorem saturate_of_lt {number : ℤ} (above : LONG_MAX < number) (strEnd : ℕ) (errno : BitVec 32) :
    saturate number strEnd errno = ⟨LONG_MAX, strEnd, ERANGE⟩ := by
  have least : LONG_MIN ≤ number := le_trans (by decide) above.le
  rw [saturate, if_neg (not_lt.mpr least), if_pos above]

@[simp]
theorem strEnd_saturate (number : ℤ) (strEnd : ℕ) (errno : BitVec 32) :
    (saturate number strEnd errno).strEnd = strEnd := by
  unfold saturate
  split_ifs <;> rfl

/-- On a string that starts with a digit, the number starts at once and has no sign. -/
theorem strtol_of_isdigit (first : str.bytes.head? = some c) (read : isdigit c = true)
    (errno : BitVec 32) :
    strtol str errno =
      saturate (numeralValue 10 ((str.bytes.takeWhile isdigit).map digitValue))
        (str.bytes.takeWhile isdigit).length errno := by
  have range := isdigit_iff.mp read
  obtain ⟨rest, bytes⟩ := List.head?_eq_some_iff.mp first
  have space : isspace c = false := by
    simp only [isspace, Bool.or_eq_false_iff, Bool.and_eq_false_iff, decide_eq_false_iff_not,
      UInt8.le_iff_toNat_le, ← UInt8.toNat_inj]
    simp only [UInt8.toNat_ofNat]
    omega
  -- a digit is neither a space nor a sign
  have sign : ∀ d : UInt8, d.toNat < 0x30 → c ≠ d := by
    rintro d small rfl
    omega
  have minus : str.bytes.head? ≠ some 0x2d := by
    rw [first]
    exact fun same => sign 0x2d (by decide) (Option.some.inj same)
  have plus : str.bytes.head? ≠ some 0x2b := by
    rw [first]
    exact fun same => sign 0x2b (by decide) (Option.some.inj same)
  have spaces : str.bytes.takeWhile isspace = [] := by
    rw [bytes, List.takeWhile_cons_of_neg (by simp [space])]
  have digits : str.bytes.takeWhile isdigit ≠ [] := by
    rw [bytes, List.takeWhile_cons_of_pos read]
    exact List.cons_ne_nil _ _
  simp [strtol, spaces, minus, plus, digits]

/-! ## Printing a number -/

/-- The numeral of a number, as printed by `%d`. -/
def decimal (n : ℕ) : CString where
  bytes := (numeral 10 n).map digitByte
  terminated := by
    rw [List.mem_map]
    rintro ⟨digit, written, zero⟩
    have value := toNat_digitByte ((isNumeral_numeral (by decide)).lt digit written)
    rw [zero] at value
    exact absurd value (by simp; omega)

theorem bytes_decimal (n : ℕ) : (decimal n).bytes = (numeral 10 n).map digitByte := rfl

theorem isdigit_of_mem_decimal {n : ℕ} (written : c ∈ (decimal n).bytes) : isdigit c = true := by
  obtain ⟨digit, mem, rfl⟩ := List.mem_map.mp written
  exact isdigit_digitByte ((isNumeral_numeral (by decide)).lt digit mem)

theorem map_digitValue_decimal (n : ℕ) : (decimal n).bytes.map digitValue = numeral 10 n := by
  rw [decimal, List.map_map]
  apply (List.map_congr_left ?_).trans (List.map_id _)
  intro digit mem
  exact digitValue_digitByte ((isNumeral_numeral (by decide)).lt digit mem)

theorem numeralValue_decimal (n : ℕ) :
    numeralValue 10 ((decimal n).bytes.map digitValue) = n := by
  rw [map_digitValue_decimal, numeralValue_numeral]

theorem decimal_injective : Function.Injective decimal := by
  intro m n same
  rw [← numeralValue_decimal m, same, numeralValue_decimal]

/-- The printed numerals are the digit strings without a leading zero. -/
theorem eq_decimal (nonempty : s.bytes ≠ []) (digits : ∀ c ∈ s.bytes, isdigit c = true)
    (leading : s.bytes.head? = some 0x30 → s.bytes = [0x30]) :
    s = decimal (numeralValue 10 (s.bytes.map digitValue)) := by
  have canonical : IsNumeral 10 (s.bytes.map digitValue) := by
    refine ⟨by simpa using nonempty, ?_, ?_⟩
    · intro digit mem
      obtain ⟨c, read, rfl⟩ := List.mem_map.mp mem
      exact digitValue_lt (digits c read)
    · intro zero
      obtain ⟨c, first, value⟩ := Option.map_eq_some_iff.mp (List.head?_map ▸ zero)
      -- the digit of value zero is the byte of zero
      have byte : c = 0x30 := by
        rw [← digitByte_digitValue (digits c (List.mem_of_mem_head? first)), value]
        rfl
      rw [leading (byte ▸ first)]
      rfl
  ext1
  rw [bytes_decimal, numeral_numeralValue (by decide) canonical, List.map_map]
  symm
  apply (List.map_congr_left ?_).trans (List.map_id _)
  intro c read
  exact digitByte_digitValue (digits c read)

/-- A printed numeral starts with the digit zero only if it is that of zero. -/
theorem eq_zero_of_leading {n : ℕ} (zero : (decimal n).bytes.head? = some 0x30) :
    n = 0 := by
  have canonical : IsNumeral 10 (numeral 10 n) := isNumeral_numeral (by decide)
  obtain ⟨digit, first, byte⟩ := Option.map_eq_some_iff.mp (List.head?_map ▸ zero)
  have value : digit = 0 := by
    rw [← digitValue_digitByte (canonical.lt digit (List.mem_of_mem_head? first)), byte]
    rfl
  rw [← numeralValue_numeral 10 n, canonical.leading (value ▸ first)]
  rfl

theorem bytes_decimal_ne_nil (n : ℕ) : (decimal n).bytes ≠ [] := by
  rw [bytes_decimal]
  simpa using (isNumeral_numeral (by decide) : IsNumeral 10 (numeral 10 n)).ne_nil

/-- A printed numeral is read to its end. -/
theorem strtol_decimal (n : ℕ) (errno : BitVec 32) :
    strtol (decimal n) errno = saturate n (decimal n).bytes.length errno := by
  have nonempty := bytes_decimal_ne_nil n
  have digits : (decimal n).bytes.takeWhile isdigit = (decimal n).bytes :=
    List.takeWhile_eq_self_iff.mpr fun c => isdigit_of_mem_decimal
  rw [strtol_of_isdigit (List.head?_eq_some_head nonempty)
    (isdigit_of_mem_decimal (List.head_mem nonempty)), digits, numeralValue_decimal]

end NvidiaHaiku.Libc
