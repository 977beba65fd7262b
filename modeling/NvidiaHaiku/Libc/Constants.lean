/-
# Constants and results of Haiku

What several parts of the driver and the accelerant take from the same headers.
-/

import Mathlib.Data.Nat.Notation

namespace NvidiaHaiku.Libc

def UINT32_MAX : BitVec 32 := 0xFFFFFFFF

def B_PAGE_SIZE : BitVec 64 := 4096

def B_SELECT_READ : BitVec 8 := 1

/-- What the hooks `Select` and `Deselect` return: `B_OK`, `B_BAD_VALUE`, or an error of the
functions of the pool. -/
inductive SelectStatus
  | ok
  | badValue
  | failed
  deriving DecidableEq, Repr

end NvidiaHaiku.Libc
