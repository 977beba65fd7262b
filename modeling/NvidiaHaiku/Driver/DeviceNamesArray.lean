/-
# The array of device names

`DeviceNamesArray` holds a null-terminated array of duplicated strings. It is made with
all entries null, and `SetName` puts one string in place. What is published are the names
up to the first null, so a name whose duplication failed hides those behind it.

Counts and indices are 32-bit integers with a sign. The array has an entry more than the
count that `Init` is given, so there is none for the greatest count, and for a count of -1 it
has no entries at all.
-/

import Mathlib.Data.List.Basic
import NvidiaHaiku.Libc.CString

namespace NvidiaHaiku.Driver

open NvidiaHaiku.Libc

/-- The results of the functions of the driver. -/
inductive Status
  | B_OK
  | B_ERROR
  | B_NO_MEMORY
  deriving DecidableEq, Repr

/-- A string duplicated by `strdup`, in a block of its own. -/
structure Name where
  block : ℕ
  string : CString
  deriving DecidableEq, Repr

/-- `DeviceNamesArray`, with what it has allocated and freed. -/
structure DeviceNamesArray where
  /-- The array with its last entry, if there is one. -/
  fNames : Option (List (Option Name)) := none
  /-- The number of blocks that `strdup` has returned. -/
  duplicated : ℕ := 0
  /-- The blocks that have been freed. -/
  freed : List ℕ := []
  deriving DecidableEq, Repr

namespace DeviceNamesArray

/-- `Delete`, which frees the names up to the first null; `none` if it reads past the end. -/
def delete (a : DeviceNamesArray) : Option DeviceNamesArray :=
  a.fNames.bind fun names =>
    if none ∈ names then
      some { a with
        freed := a.freed ++ (names.takeWhile Option.isSome).reduceOption.map Name.block }
    else none

/-- The length of the array that `new` makes for a count, if it is allocated. -/
def newLength (count : BitVec 32) (allocated : Bool) : Option ℕ :=
  -- for a negative length `new` returns null
  if allocated = true ∧ 0 ≤ (count + 1).toInt then some (count + 1).toNat else none

/-- `Init`, with whether the array is allocated; `none` if it reads past the end. -/
def init (a : DeviceNamesArray) (count : BitVec 32) (allocated : Bool) :
    Option (Status × DeviceNamesArray) :=
  let deleted := if a.fNames = none then some a else a.delete
  deleted.map fun a =>
    match newLength count allocated with
    | some length => (.B_OK, { a with fNames := some (List.replicate length none) })
    | none => (.B_NO_MEMORY, { a with fNames := none })

/-- `SetName`, with whether `strdup` succeeds; `none` if it accesses no entry of the array. -/
def setName (a : DeviceNamesArray) (index : BitVec 32) (name : CString) (duplicates : Bool) :
    Option (Status × DeviceNamesArray) :=
  if !duplicates then some (.B_NO_MEMORY, a)
  else a.fNames.bind fun names =>
    -- without its sign a negative index is past the end of every array
    names[index.toNat]?.map fun old =>
      (.B_OK,
        { fNames := some (names.set index.toNat (some ⟨a.duplicated, name⟩))
          duplicated := a.duplicated + 1
          freed := a.freed ++ old.toList.map Name.block })

/-- The strings of the entries. -/
def strings (a : DeviceNamesArray) : Option (List (Option CString)) :=
  a.fNames.map (List.map (Option.map Name.string))

/-- The names that a reader of `Names()` finds before the terminator. -/
def published (a : DeviceNamesArray) : Option (List CString) :=
  a.strings.map fun names => (names.takeWhile Option.isSome).reduceOption

variable {a b : DeviceNamesArray} {index : BitVec 32} {count : ℕ} {names : List (Option CString)}

theorem newLength_ofNat (fits : count + 1 < 2 ^ 31) :
    newLength (.ofNat 32 count) true = some (count + 1) := by
  have length : (BitVec.ofNat 32 count + 1).toNat = count + 1 := by
    rw [BitVec.toNat_add, BitVec.toNat_ofNat]
    simp
    omega
  rw [newLength, BitVec.toInt_eq_toNat_of_lt (by omega), length]
  exact if_pos ⟨rfl, Int.natCast_nonneg _⟩

theorem strings_init (fits : count + 1 < 2 ^ 31) :
    ∃ a, init {} (.ofNat 32 count) true = some (.B_OK, a) ∧
      a.strings = some (List.replicate (count + 1) none) := by
  refine ⟨{ fNames := some (List.replicate (count + 1) none) }, ?_, by simp [strings]⟩
  rw [init, newLength_ofNat fits]
  rfl

/-- Only the entry at the index is set, if the name can be duplicated. -/
theorem strings_setName (held : a.strings = some names) (inside : index.toNat < names.length)
    (name : CString) (duplicates : Bool) :
    ∃ status b, a.setName index name duplicates = some (status, b) ∧
      b.strings = some (if duplicates then names.set index.toNat (some name) else names) := by
  obtain ⟨entries, array, rfl⟩ := Option.map_eq_some_iff.mp held
  rw [List.length_map] at inside
  cases duplicates with
  | false => exact ⟨_, _, rfl, held⟩
  | true =>
    have entry : entries[index.toNat]? = some entries[index.toNat] :=
      List.getElem?_eq_getElem inside
    refine ⟨.B_OK, _, by rw [setName, array, Option.bind_some, entry]; rfl, ?_⟩
    simp [strings, List.map_set]

end DeviceNamesArray

end NvidiaHaiku.Driver
