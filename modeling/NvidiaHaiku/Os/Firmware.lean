/-
# Loading firmware

`nv_get_firmware` looks for a file in four directories, takes the first one that opens and
reads it into a buffer of its length. The path is put together in a buffer of
`B_PATH_NAME_LENGTH` bytes, and a candidate that is too long for it is skipped.

The buffer is cleared before it is checked, so a failed allocation ends in a write through a
null pointer, and a failed `lseek` leads to one. The length has 64 bits and is stored in 32.
Otherwise the file is delivered whole, or nothing is changed.
-/

import Mathlib.Logic.Function.Basic
import NvidiaHaiku.Libc.CString
import NvidiaHaiku.Libc.Memory

namespace NvidiaHaiku.Os

open NvidiaHaiku.Libc

/-! ## The path -/

/-- `nv_firmware_type_t`. -/
inductive FirmwareType
  | NV_FIRMWARE_TYPE_GSP
  | NV_FIRMWARE_TYPE_GSP_LOG
  /-- Any other value. -/
  | unknown
  deriving DecidableEq, Repr

/-- `nv_firmware_chip_family_t`. -/
inductive FirmwareChipFamily
  | NV_FIRMWARE_CHIP_FAMILY_NULL
  | NV_FIRMWARE_CHIP_FAMILY_TU10X
  | NV_FIRMWARE_CHIP_FAMILY_TU11X
  | NV_FIRMWARE_CHIP_FAMILY_GA100
  | NV_FIRMWARE_CHIP_FAMILY_GA10X
  | NV_FIRMWARE_CHIP_FAMILY_AD10X
  | NV_FIRMWARE_CHIP_FAMILY_GH100
  | NV_FIRMWARE_CHIP_FAMILY_END
  /-- Any other value. -/
  | unknown
  deriving DecidableEq, Repr

/-- The directories that are searched. -/
inductive Directory
  | B_USER_NONPACKAGED_DATA_DIRECTORY
  | B_USER_DATA_DIRECTORY
  | B_SYSTEM_NONPACKAGED_DATA_DIRECTORY
  | B_SYSTEM_DATA_DIRECTORY
  deriving DecidableEq, Repr

/-- The directories in the order in which they are searched. -/
def dataDirectories : List Directory :=
  [.B_USER_NONPACKAGED_DATA_DIRECTORY, .B_USER_DATA_DIRECTORY,
    .B_SYSTEM_NONPACKAGED_DATA_DIRECTORY, .B_SYSTEM_DATA_DIRECTORY]

def B_PATH_NAME_LENGTH : ℕ := 1024

/-- `"/firmware/nvidia/570.86.16/"`. -/
def firmwareDirectory : CString :=
  ⟨"/firmware/nvidia/570.86.16/".toList.map fun c => c.toNat.toUInt8, by decide⟩

def NV_FIRMWARE_PATH_FOR_FILENAME (name : CString) : CString := firmwareDirectory.append name

/-- `"gsp_ga10x.bin"`. -/
def gsp_ga10x : CString := ⟨"gsp_ga10x.bin".toList.map fun c => c.toNat.toUInt8, by decide⟩

/-- `"gsp_tu10x.bin"`. -/
def gsp_tu10x : CString := ⟨"gsp_tu10x.bin".toList.map fun c => c.toNat.toUInt8, by decide⟩

/-- `"gsp_log_ga10x.bin"`. -/
def gsp_log_ga10x : CString := ⟨"gsp_log_ga10x.bin".toList.map fun c => c.toNat.toUInt8, by decide⟩

/-- `"gsp_log_tu10x.bin"`. -/
def gsp_log_tu10x : CString := ⟨"gsp_log_tu10x.bin".toList.map fun c => c.toNat.toUInt8, by decide⟩

/-- `""`. -/
def noSuffix : CString := ⟨[], by decide⟩

/-- `nv_firmware_path`, which never returns null. -/
def nvFirmwarePath (fw_type : FirmwareType) (fw_chip_family : FirmwareChipFamily) : CString :=
  match fw_type with
  | .NV_FIRMWARE_TYPE_GSP =>
    match fw_chip_family with
    | .NV_FIRMWARE_CHIP_FAMILY_GH100 | .NV_FIRMWARE_CHIP_FAMILY_AD10X
    | .NV_FIRMWARE_CHIP_FAMILY_GA10X => NV_FIRMWARE_PATH_FOR_FILENAME gsp_ga10x
    | .NV_FIRMWARE_CHIP_FAMILY_GA100 | .NV_FIRMWARE_CHIP_FAMILY_TU11X
    | .NV_FIRMWARE_CHIP_FAMILY_TU10X => NV_FIRMWARE_PATH_FOR_FILENAME gsp_tu10x
    | .NV_FIRMWARE_CHIP_FAMILY_END | .NV_FIRMWARE_CHIP_FAMILY_NULL | .unknown => noSuffix
  | .NV_FIRMWARE_TYPE_GSP_LOG =>
    match fw_chip_family with
    | .NV_FIRMWARE_CHIP_FAMILY_GH100 | .NV_FIRMWARE_CHIP_FAMILY_AD10X
    | .NV_FIRMWARE_CHIP_FAMILY_GA10X => NV_FIRMWARE_PATH_FOR_FILENAME gsp_log_ga10x
    | .NV_FIRMWARE_CHIP_FAMILY_GA100 | .NV_FIRMWARE_CHIP_FAMILY_TU11X
    | .NV_FIRMWARE_CHIP_FAMILY_TU10X => NV_FIRMWARE_PATH_FOR_FILENAME gsp_log_tu10x
    | .NV_FIRMWARE_CHIP_FAMILY_END | .NV_FIRMWARE_CHIP_FAMILY_NULL | .unknown => noSuffix
  | .unknown => noSuffix

/-! ## The call -/

abbrev Address := BitVec 64

/-- A file, whose length is an `off_t`. -/
structure File where
  content : List UInt8
  length_lt : content.length < 2 ^ 63
  deriving DecidableEq, Repr

/-- What `nv_get_firmware` may change. -/
structure State where
  /-- `*fw_buf`. -/
  fw_buf : Address := 0
  /-- `*fw_size`. -/
  fw_size : BitVec 32 := 0
  /-- The blocks that are allocated. -/
  heap : Address → Option (List UInt8) := fun _ => none

/-- What the calls made by `nv_get_firmware` return. -/
structure Calls (s : State) where
  /-- `find_directory`: the path, unless it fails. -/
  findDirectory : Directory → Option CString
  /-- `open` of the path in a directory. -/
  openFile : Directory → CString → Option File
  /-- `lseek` to the end succeeds. -/
  seeks : Bool
  /-- `new uint8[size]` for a size that is not negative, which gives no block that is in use. -/
  new : Option { data : Address // data ≠ 0 ∧ s.heap data = none }
  /-- What the new block holds. -/
  junk : ℕ → UInt8
  /-- `read_pos`: the most that it reads, unless it fails. -/
  readPos : Option ℕ

namespace State

/-- A buffer is filled. -/
def store (s : State) (data : Address) (bytes : List UInt8) : State :=
  { s with heap := Function.update s.heap data (some bytes) }

/-- `delete[]`. -/
def delete (s : State) (data : Address) : State :=
  { s with heap := Function.update s.heap data none }

end State

/-- The loop over the directories: the paths that are passed to `open`, and the file. -/
def search {s : State} (calls : Calls s) (suffix : CString) :
    List Directory → List CString × Option File
  | [] => ([], none)
  | directory :: rest =>
    match calls.findDirectory directory with
    | none => search calls suffix rest
    | some path =>
      if strlen path + strlen suffix > B_PATH_NAME_LENGTH - 1 then search calls suffix rest
      else
        let path := path.append suffix
        match calls.openFile directory path with
        | some file => ([path], some file)
        | none =>
          let (opened, file) := search calls suffix rest
          (path :: opened, file)

/-- What `read_pos` has made of the cleared buffer, and what follows from the number of bytes. -/
def finishRead (s : State) (file : File) (data : Address) (cleared : List UInt8)
    (readSize : ℕ) : Option (Address × State) :=
  (write cleared 0 (file.content.take readSize)).map fun filled =>
    if readSize < file.content.length then (0, (s.store data filled).delete data)
    else
      (data, { s.store data filled with
        fw_buf := data
        fw_size := BitVec.ofNat 32 file.content.length })

/-- `nv_get_firmware` from `memset` on, with a buffer for the file. -/
def readFirmware (s : State) (calls : Calls s) (file : File) (data : Address) :
    Option (Address × State) :=
  (memset ((List.range file.content.length).map calls.junk) 0 0 file.content.length).bind
    fun cleared =>
      match calls.readPos with
      -- `ArrayDeleter` frees the buffer on all returns but the last
      | none => some (0, (s.store data cleared).delete data)
      | some most => finishRead s file data cleared (min most file.content.length)

/-- `nv_get_firmware`; `none` if it writes through a null pointer or past a buffer. -/
def nvGetFirmware (s : State) (calls : Calls s) (fw_type : FirmwareType)
    (fw_chip_family : FirmwareChipFamily) : Option (Address × State) :=
  match (search calls (nvFirmwarePath fw_type fw_chip_family) dataDirectories).2 with
  | none => some (0, s)
  | some file =>
    let size : ℤ := if calls.seeks then file.content.length else -1
    match if size < 0 then none else calls.new with
    | some data => readFirmware s calls file data
    -- `memset` of `size` bytes comes before the check
    | none => if size = 0 then some (0, s) else none

/-- `nv_put_firmware`. -/
def nvPutFirmware (s : State) (fw_handle : Address) : State := s.delete fw_handle

/-! ## Delivery -/

/-- `read_pos` reads the file to its end. -/
def Calls.readsWhole {s : State} (calls : Calls s) (file : File) : Bool :=
  calls.readPos.any (file.content.length ≤ ·)

/-- The file is delivered whole or not at all. -/
structure Delivers (s : State) (calls : Calls s) (fw_type : FirmwareType)
    (fw_chip_family : FirmwareChipFamily) : Prop where
  /-- The paths are those of the directories with the suffix, and fit into their buffer. -/
  opened : ∀ path ∈ (search calls (nvFirmwarePath fw_type fw_chip_family) dataDirectories).1,
    ∃ directory ∈ dataDirectories, ∃ root, calls.findDirectory directory = some root ∧
      path = root.append (nvFirmwarePath fw_type fw_chip_family) ∧
      strlen path ≤ B_PATH_NAME_LENGTH - 1
  writes : (nvGetFirmware s calls fw_type fw_chip_family).isSome = true
  whole : ∀ handle t, nvGetFirmware s calls fw_type fw_chip_family = some (handle, t) →
    handle ≠ 0 → ∃ file,
      (search calls (nvFirmwarePath fw_type fw_chip_family) dataDirectories).2 = some file ∧
      t.fw_buf = handle ∧ t.fw_size.toNat = file.content.length ∧
      t.heap = Function.update s.heap handle (some file.content)
  untouched : ∀ t, nvGetFirmware s calls fw_type fw_chip_family = some (0, t) → t = s

/-- The length can be found, there is memory for a file that is not empty, and a file that is
read whole is below 4 GiB. -/
def Deliverable {s : State} (calls : Calls s) (file : File) : Prop :=
  calls.seeks = true ∧
    match calls.new with
    | none => file.content.length = 0
    | some _ => calls.readsWhole file = true → file.content.length < 2 ^ 32

variable {s : State} {calls : Calls s} {suffix : CString} {directories : List Directory}
  {fw_type : FirmwareType} {fw_chip_family : FirmwareChipFamily} {file : File} {data : Address}

theorem strlen_append (path suffix : CString) :
    strlen (path.append suffix) = strlen path + strlen suffix :=
  List.length_append

/-- Every path that is opened is that of a directory with the whole suffix. -/
theorem opened_spec : ∀ path ∈ (search calls suffix directories).1,
    ∃ directory ∈ directories, ∃ root, calls.findDirectory directory = some root ∧
      path = root.append suffix ∧ strlen path ≤ B_PATH_NAME_LENGTH - 1 := by
  -- on the directories, each of which adds at most one path
  induction directories with
  | nil => exact fun _ member => absurd member List.not_mem_nil
  | cons directory rest ih =>
    have further : ∀ path ∈ (search calls suffix rest).1,
        ∃ other ∈ directory :: rest, ∃ root, calls.findDirectory other = some root ∧
          path = root.append suffix ∧ strlen path ≤ B_PATH_NAME_LENGTH - 1 := by
      intro path member
      obtain ⟨other, listed, spec⟩ := ih path member
      exact ⟨other, List.mem_cons_of_mem _ listed, spec⟩
    intro path member
    rw [search] at member
    cases found : calls.findDirectory directory with
    | none =>
      rw [found] at member
      exact further path member
    | some root =>
      simp only [found] at member
      -- a path that is too long is skipped
      split at member
      · exact further path member
      · rename_i short
        rw [← strlen_append] at short
        have here : ∃ other ∈ directory :: rest, ∃ r, calls.findDirectory other = some r ∧
            root.append suffix = r.append suffix ∧
            strlen (root.append suffix) ≤ B_PATH_NAME_LENGTH - 1 :=
          ⟨directory, List.mem_cons_self, root, found, rfl, not_lt.mp short⟩
        split at member
        · rw [List.mem_singleton.mp member]
          exact here
        · rcases List.mem_cons.mp member with rfl | later
          · exact here
          · exact further path later

theorem delete_store (unused : s.heap data = none) (bytes : List UInt8) :
    (s.store data bytes).delete data = s := by
  rw [State.store, State.delete, Function.update_idem, ← unused, Function.update_eq_self]

/-- The state with the file delivered. -/
def deliver (s : State) (file : File) (data : Address) : State :=
  { s.store data file.content with
    fw_buf := data
    fw_size := BitVec.ofNat 32 file.content.length }

/-- A file of which less is read than its length is not delivered. -/
theorem finishRead_spec (unused : s.heap data = none) (most : ℕ) :
    finishRead s file data (List.replicate file.content.length 0) (min most file.content.length) =
      some (if decide (file.content.length ≤ most) = true then (data, deliver s file data)
        else (0, s)) := by
  unfold finishRead
  rcases Nat.lt_or_ge most file.content.length with short | whole
  · have fits : 0 + (file.content.take (min most file.content.length)).length ≤
        (List.replicate file.content.length (0 : UInt8)).length := by
      rw [List.length_take, List.length_replicate]
      omega
    obtain ⟨filled, filled_eq, -⟩ := write_spec fits
    rw [if_neg (by simpa using short), show write _ 0 _ = some filled from filled_eq,
      Option.map_some, if_pos (by omega), delete_store unused]
  · have all : file.content.take (min most file.content.length) = file.content := by
      rw [Nat.min_eq_right whole, List.take_length]
    rw [if_pos (by simpa using whole), all, write_all List.length_replicate.symm,
      Option.map_some, if_neg (by omega)]
    rfl

/-- With a buffer the file is delivered if it is read whole, and the buffer is freed if not. -/
theorem readFirmware_spec (unused : s.heap data = none) :
    readFirmware s calls file data =
      some (if calls.readsWhole file then (data, deliver s file data) else (0, s)) := by
  have junk : ((List.range file.content.length).map calls.junk).length = file.content.length := by
    rw [List.length_map, List.length_range]
  rw [readFirmware, memset_all _ junk, Option.bind_some, Calls.readsWhole]
  cases calls.readPos with
  | none => exact congrArg some (Prod.ext rfl (delete_store unused _))
  | some most => exact finishRead_spec unused most

/-- What becomes of a file that is found. -/
theorem nvGetFirmware_of_found
    (found : (search calls (nvFirmwarePath fw_type fw_chip_family) dataDirectories).2 =
      some file) :
    (calls.seeks = false ∧ nvGetFirmware s calls fw_type fw_chip_family = none) ∨
    (calls.seeks = true ∧ calls.new = none ∧ nvGetFirmware s calls fw_type fw_chip_family =
      if file.content.length = 0 then some (0, s) else none) ∨
    ∃ data, calls.seeks = true ∧ calls.new = some data ∧
      nvGetFirmware s calls fw_type fw_chip_family =
        some (if calls.readsWhole file then (data.1, deliver s file data) else (0, s)) := by
  rw [nvGetFirmware, found]
  cases seeks : calls.seeks with
  | false => exact Or.inl ⟨rfl, rfl⟩
  | true =>
    have positive : ¬ ((file.content.length : ℤ) < 0) := by omega
    refine Or.inr ?_
    cases allocated : calls.new with
    | none =>
      refine Or.inl ⟨rfl, rfl, ?_⟩
      simp [positive]
    | some data =>
      refine Or.inr ⟨data, rfl, rfl, ?_⟩
      simp only [if_true, if_neg positive]
      exact readFirmware_spec data.2.2

/-- A firmware that is got and put leaves no memory behind. -/
theorem heap_nvPutFirmware {t : State} {fw_handle : Address}
    (got : nvGetFirmware s calls fw_type fw_chip_family = some (fw_handle, t))
    (set : fw_handle ≠ 0) : (nvPutFirmware t fw_handle).heap = s.heap := by
  cases found : (search calls (nvFirmwarePath fw_type fw_chip_family) dataDirectories).2 with
  | none =>
    rw [nvGetFirmware, found] at got
    exact absurd (Prod.mk.inj (Option.some.inj got)).1.symm set
  | some file =>
    rcases nvGetFirmware_of_found found with ⟨-, ends⟩ | ⟨-, -, ends⟩ | ⟨data, -, -, ends⟩
    · cases ends.symm.trans got
    · -- without memory there is no handle
      obtain ⟨-, same⟩ := Option.ite_none_right_eq_some.mp (ends.symm.trans got)
      exact absurd (Prod.mk.inj (Option.some.inj same)).1.symm set
    · have same := Option.some.inj (ends.symm.trans got)
      split at same
      · obtain ⟨rfl, rfl⟩ := Prod.mk.inj same
        have restored := congrArg State.heap (delete_store data.2.2 file.content)
        exact restored
      · exact absurd (Prod.mk.inj same).1.symm set

theorem deliver_size (s : State) (file : File) (data : Address) :
    (deliver s file data).fw_size.toNat = file.content.length ↔ file.content.length < 2 ^ 32 := by
  show (BitVec.ofNat 32 file.content.length).toNat = _ ↔ _
  rw [BitVec.toNat_ofNat]
  exact Nat.mod_eq_iff_lt (by decide)

/-- Without a handle everything is as it was. -/
theorem delivers_of_untouched
    (ends : nvGetFirmware s calls fw_type fw_chip_family = some (0, s)) :
    Delivers s calls fw_type fw_chip_family := by
  refine ⟨opened_spec, by rw [ends]; rfl, fun handle t returned nonzero => ?_,
    fun t returned => ?_⟩
  · rw [ends] at returned
    exact absurd (Prod.mk.inj (Option.some.inj returned)).1.symm nonzero
  · rw [ends] at returned
    exact (Prod.mk.inj (Option.some.inj returned)).2.symm

theorem delivers_of_delivered
    (found : (search calls (nvFirmwarePath fw_type fw_chip_family) dataDirectories).2 =
      some file)
    (nonzero : data ≠ 0) (small : file.content.length < 2 ^ 32)
    (ends : nvGetFirmware s calls fw_type fw_chip_family = some (data, deliver s file data)) :
    Delivers s calls fw_type fw_chip_family := by
  refine ⟨opened_spec, by rw [ends]; rfl, fun handle t returned _ => ?_, fun t returned => ?_⟩
  · rw [ends] at returned
    obtain ⟨rfl, rfl⟩ := Prod.mk.inj (Option.some.inj returned)
    exact ⟨file, found, rfl, (deliver_size s file data).mpr small, rfl⟩
  · rw [ends] at returned
    exact absurd (Prod.mk.inj (Option.some.inj returned)).1 nonzero

/-- Firmware over all outcomes of the calls: it is delivered whole or not at all exactly if the
file that is found, if there is one, is deliverable. -/
theorem delivers_iff (s : State) (calls : Calls s) (fw_type : FirmwareType)
    (fw_chip_family : FirmwareChipFamily) :
    Delivers s calls fw_type fw_chip_family ↔
      ∀ file, (search calls (nvFirmwarePath fw_type fw_chip_family) dataDirectories).2 =
        some file → Deliverable calls file := by
  constructor
  · intro delivers file found
    have writes := delivers.writes
    rcases nvGetFirmware_of_found found with
      ⟨-, wild⟩ | ⟨seeks, noMemory, ends⟩ | ⟨data, seeks, allocated, ends⟩
    · -- the size is -1, no memory of that size is there, and `memset` writes through null
      rw [wild] at writes
      exact nomatch writes
    · refine ⟨seeks, ?_⟩
      rw [noMemory]
      -- `memset` writes through null unless there is nothing to write
      by_contra nonempty
      rw [ends, if_neg nonempty] at writes
      exact nomatch writes
    · refine ⟨seeks, ?_⟩
      rw [allocated]
      intro reads
      rw [if_pos reads] at ends
      -- a file that is read whole is delivered, and its size has been cut to 32 bits
      obtain ⟨file', found', -, size, -⟩ := delivers.whole _ _ ends data.2.1
      obtain rfl := Option.some.inj (found.symm.trans found')
      exact (deliver_size s file data).mp size
  · intro deliverable
    cases found : (search calls (nvFirmwarePath fw_type fw_chip_family) dataDirectories).2 with
    | none => exact delivers_of_untouched (by rw [nvGetFirmware, found])
    | some file =>
      obtain ⟨seeks, fits⟩ := deliverable file found
      rcases nvGetFirmware_of_found found with
        ⟨fails, -⟩ | ⟨-, noMemory, ends⟩ | ⟨data, -, allocated, ends⟩
      · exact absurd (fails.symm.trans seeks) Bool.false_ne_true
      · rw [noMemory] at fits
        exact delivers_of_untouched (ends.trans (if_pos fits))
      · rw [allocated] at fits
        cases reads : calls.readsWhole file with
        | false => exact delivers_of_untouched (ends.trans (by rw [reads]; rfl))
        | true =>
          exact delivers_of_delivered found data.2.1 (fits reads)
            (ends.trans (by rw [reads]; rfl))

/-- The first directory has a file of one byte, for which there is no memory. -/
def noMemory : Calls {} where
  findDirectory _ := some noSuffix
  openFile _ _ := some ⟨[0x7f], by decide⟩
  seeks := true
  new := none
  junk _ := 0
  readPos := some 1

theorem not_delivers_noMemory :
    ¬ Delivers {} noMemory .NV_FIRMWARE_TYPE_GSP .NV_FIRMWARE_CHIP_FAMILY_GA10X := by
  intro delivers
  exact absurd delivers.writes (by decide)

end NvidiaHaiku.Os
