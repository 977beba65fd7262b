/-
# The names of the device nodes

`Init` publishes the name of the control device and a numbered name for every probed
device, printed with `sprintf`. `FindDevice` goes the other way. It compares the name with
that of the control device, or parses a prefix and a number with `strtol`, guarded so that
neither spaces nor a sign nor leading zeros nor trailing characters get through.

The two are inverse to each other. The parser accepts a string just when it is the printed
name of a 32-bit index.
-/

import NvidiaHaiku.Driver.DeviceNamesArray
import NvidiaHaiku.Libc.Constants

namespace NvidiaHaiku.Driver

open NvidiaHaiku.Math NvidiaHaiku.Libc

/-! ## Names -/

/-- `"nvidiactl"`. -/
def NVIDIA_CONTROL_DEVIVE_NAME : CString :=
  ⟨"nvidiactl".toList.map fun c => c.toNat.toUInt8, by decide⟩

/-- `"graphics/nvidia"`. -/
def NVIDIA_DEVIVE_NAME : CString :=
  ⟨"graphics/nvidia".toList.map fun c => c.toNat.toUInt8, by decide⟩

/-- The name of the device with an index, as printed in `Init`. -/
def deviceName (index : ℕ) : CString := NVIDIA_DEVIVE_NAME.append (decimal index)

/-! ## Parsing -/

/-- `ParseUint32`, with how far behind the start `strEnd` points. -/
def parseUint32 (str : CString) (errno : BitVec 32) : Option (ℕ × BitVec 32) :=
  -- do not allow leading spaces or zeroes
  if ¬ (strcmp str (decimal 0) = 0 ∨ (0x31 ≤ str.get 0 ∧ str.get 0 ≤ 0x39)) then none
  else
    let val := strtol str errno
    if val.strEnd = 0 then none
    else if (val.value = LONG_MIN ∨ val.value = LONG_MAX) ∧ val.errno = ERANGE then none
    else if val.value < 0 ∨ val.value > UINT32_MAX.toNat then none
    else some (val.strEnd, BitVec.ofInt 32 val.value)

/-- `ParseDeviceName`. -/
def parseDeviceName (name : CString) (errno : BitVec 32) : Option (BitVec 32) :=
  let deviceNamePrefix := NVIDIA_DEVIVE_NAME
  let deviceNamePrefixLen := strlen deviceNamePrefix
  if strncmp deviceNamePrefix name deviceNamePrefixLen ≠ 0 then none
  else
    let number := name.drop deviceNamePrefixLen
    (parseUint32 number errno).bind fun (strEnd, index) =>
      if number.get strEnd ≠ 0 then none else some index

/-- `DevfsNodeInstance`: the empty one, that of the control device, or that of the device at
an index of `fDevices`. -/
inductive DevfsNodeInstance
  | empty
  | control
  | device (index : ℕ)
  deriving DecidableEq, Repr

/-- `NvHaikuDriver::FindDevice`, with `fDevices.Count()` and `errno`. -/
def findDevice (count : ℕ) (name : CString) (errno : BitVec 32) : DevfsNodeInstance :=
  if strcmp name NVIDIA_CONTROL_DEVIVE_NAME = 0 then .control
  else
    match parseDeviceName name errno with
    | none => .empty
    | some index => if index.toNat ≥ count then .empty else .device index.toNat

/-! ## Publishing -/

/-- The loop of `Init` over the devices from an index on. The result of `SetName` is ignored. -/
def publishNames (duplicates : ℕ → Bool) :
    ℕ → ℕ → DeviceNamesArray → Option DeviceNamesArray
  | _, 0, names => some names
  | i, remaining + 1, names =>
    (names.setName (1 + .ofNat 32 i) (deviceName i) (duplicates (1 + i))).bind fun (_, names) =>
      publishNames duplicates (i + 1) remaining names

/-- The end of `NvHaikuDriver::Init`, for `fDevices.Count()`, with whether the array is
allocated and which names are duplicated. -/
def initNames (count : BitVec 32) (allocated : Bool) (duplicates : ℕ → Bool) :
    Option (Status × DeviceNamesArray) :=
  (DeviceNamesArray.init {} (1 + count) allocated).bind fun (status, names) =>
    if status ≠ .B_OK then some (status, names)
    else (names.setName 0 NVIDIA_CONTROL_DEVIVE_NAME (duplicates 0)).bind fun (_, names) =>
      (publishNames duplicates 0 count.toInt.toNat names).map fun names => (.B_OK, names)

/-! ## What the parser accepts -/

variable {s name : CString} {errno index : BitVec 32} {count k n : ℕ}

/-- The test of the first byte lets a printed numeral through. -/
theorem first_decimal (n : ℕ) :
    strcmp (decimal n) (decimal 0) = 0 ∨
      (0x31 ≤ (decimal n).get 0 ∧ (decimal n).get 0 ≤ 0x39) := by
  by_cases zero : n = 0
  · exact Or.inl (strcmp_eq_zero_iff.mpr (congrArg decimal zero))
  · right
    have first := CString.head?_eq_some_get (bytes_decimal_ne_nil n)
    have digit := isdigit_iff.mp (isdigit_of_mem_decimal (List.mem_of_mem_head? first))
    have nonzero : (decimal n).get 0 ≠ 0x30 := fun same =>
      zero (eq_zero_of_leading (first.trans (congrArg some same)))
    rw [Ne, ← UInt8.toNat_inj] at nonzero
    simp only [UInt8.le_iff_toNat_le, UInt8.toNat_ofNat] at nonzero ⊢
    omega

/-- A printed numeral is parsed if its number fits into 32 bits, whatever `errno` was. -/
theorem parseUint32_decimal (n : ℕ) (errno : BitVec 32) :
    parseUint32 (decimal n) errno =
      if n < 2 ^ 32 then some ((decimal n).bytes.length, BitVec.ofNat 32 n) else none := by
  have nonempty : (decimal n).bytes.length ≠ 0 := by
    simpa using bytes_decimal_ne_nil n
  rw [parseUint32, if_neg (not_not.mpr (first_decimal n)), strtol_decimal]
  dsimp only
  rw [strEnd_saturate, if_neg nonempty]
  have least : LONG_MIN ≤ n := by
    unfold LONG_MIN
    omega
  have top : UINT32_MAX.toNat = 2 ^ 32 - 1 := rfl
  by_cases greatest : (n : ℤ) ≤ LONG_MAX
  · rw [saturate_of_mem least greatest]
    dsimp only
    by_cases fits : n < 2 ^ 32
    · -- neither end of the range, so that a stale `errno` does not matter
      have inside : ¬ ((n : ℤ) = LONG_MIN ∨ (n : ℤ) = LONG_MAX) := by
        unfold LONG_MIN LONG_MAX
        omega
      have small : ¬ ((n : ℤ) < 0 ∨ (n : ℤ) > UINT32_MAX.toNat) := by
        rw [top]
        omega
      rw [if_neg (fun stale => inside stale.1), if_neg small, if_pos fits, BitVec.ofInt_natCast]
    · have large : (n : ℤ) < 0 ∨ (n : ℤ) > UINT32_MAX.toNat := by
        rw [top]
        omega
      rw [if_pos large, if_neg fits, ite_self]
  · -- a number that `strtol` saturates is out of range in any case
    have large : ¬ n < 2 ^ 32 := by
      unfold LONG_MAX at greatest
      omega
    rw [saturate_of_lt (not_le.mp greatest), if_neg large, if_pos ⟨Or.inr rfl, rfl⟩]

/-- What is parsed up to the terminator is a printed numeral. -/
theorem exists_decimal_of_parseUint32 {strEnd : ℕ}
    (parsed : parseUint32 s errno = some (strEnd, index)) (ended : s.get strEnd = 0) :
    ∃ n, s = decimal n := by
  unfold parseUint32 at parsed
  split at parsed
  · simp at parsed
  · rename_i guard
    have length : (strtol s errno).strEnd = strEnd := by
      dsimp only at parsed
      split_ifs at parsed
      exact (Prod.mk.inj (Option.some.inj parsed)).1
    rcases not_not.mp guard with zero | range
    · exact ⟨0, strcmp_eq_zero_iff.mp zero⟩
    · have digit : isdigit (s.get 0) = true := by
        rw [isdigit_iff]
        simp only [UInt8.le_iff_toNat_le, UInt8.toNat_ofNat] at range
        omega
      have nonempty : s.bytes ≠ [] := by
        intro empty
        rw [CString.get, empty] at range
        exact absurd range (by decide)
      have first := CString.head?_eq_some_get nonempty
      rw [strtol_of_isdigit first digit, strEnd_saturate] at length
      -- the digits reach up to the terminator
      have whole : s.bytes.takeWhile isdigit = s.bytes := by
        apply (List.takeWhile_prefix isdigit).eq_of_length_le
        rw [length]
        exact CString.get_eq_zero_iff.mp ended
      refine ⟨_, eq_decimal nonempty (List.takeWhile_eq_self_iff.mp whole) fun zero => ?_⟩
      rw [Option.some.inj (first.symm.trans zero)] at range
      exact absurd range (by decide)

theorem parseDeviceName_append (rest : CString) (errno : BitVec 32) :
    parseDeviceName (NVIDIA_DEVIVE_NAME.append rest) errno =
      (parseUint32 rest errno).bind fun (strEnd, index) =>
        if rest.get strEnd ≠ 0 then none else some index := by
  have same : strncmp NVIDIA_DEVIVE_NAME (NVIDIA_DEVIVE_NAME.append rest)
      (strlen NVIDIA_DEVIVE_NAME) = 0 := strncmp_eq_zero_iff.mpr (List.prefix_append ..)
  rw [parseDeviceName, if_neg (not_not.mpr same), strlen, CString.drop_append]

theorem parseDeviceName_deviceName (n : ℕ) (errno : BitVec 32) :
    parseDeviceName (deviceName n) errno =
      if n < 2 ^ 32 then some (BitVec.ofNat 32 n) else none := by
  have ended : (decimal n).get (decimal n).bytes.length = 0 := CString.get_eq_zero_iff.mpr le_rfl
  rw [deviceName, parseDeviceName_append, parseUint32_decimal]
  split
  · rw [Option.bind_some]
    dsimp only
    rw [if_neg (not_not.mpr ended)]
  · rfl

theorem exists_deviceName_of_parseDeviceName (parsed : parseDeviceName name errno = some index) :
    ∃ n, name = deviceName n := by
  obtain ⟨rest, rfl⟩ : ∃ rest, name = NVIDIA_DEVIVE_NAME.append rest := by
    unfold parseDeviceName at parsed
    dsimp only at parsed
    split at parsed
    · simp at parsed
    · rename_i same
      have start := strncmp_eq_zero_iff.mp (not_not.mp same)
      refine ⟨name.drop (strlen NVIDIA_DEVIVE_NAME), ?_⟩
      ext1
      exact (List.prefix_iff_eq_append.mp start).symm
  rw [parseDeviceName_append] at parsed
  obtain ⟨⟨strEnd, index'⟩, number, ended⟩ := Option.bind_eq_some_iff.mp parsed
  obtain ⟨n, rfl⟩ := exists_decimal_of_parseUint32 number (of_not_not fun trailing => by
    simp [trailing] at ended)
  exact ⟨n, rfl⟩

/-- The parser accepts just the printed names of the 32-bit indices. -/
theorem parseDeviceName_eq_some_iff :
    parseDeviceName name errno = some index ↔ name = deviceName index.toNat := by
  constructor
  · intro parsed
    obtain ⟨n, rfl⟩ := exists_deviceName_of_parseDeviceName parsed
    rw [parseDeviceName_deviceName] at parsed
    obtain ⟨fits, rfl⟩ := Option.ite_none_right_eq_some.mp parsed |>.imp_right Option.some.inj
    rw [BitVec.toNat_ofNat, Nat.mod_eq_of_lt fits]
  · rintro rfl
    rw [parseDeviceName_deviceName, if_pos index.isLt, BitVec.ofNat_toNat, BitVec.setWidth_eq]

theorem deviceName_injective : Function.Injective deviceName := by
  intro m n same
  exact decimal_injective (CString.append_inj.mp same)

theorem deviceName_ne_control (n : ℕ) : deviceName n ≠ NVIDIA_CONTROL_DEVIVE_NAME := by
  intro same
  have first : NVIDIA_DEVIVE_NAME.get 0 = NVIDIA_CONTROL_DEVIVE_NAME.get 0 :=
    congrArg (fun name => name.get 0) same
  exact absurd first (by decide)

/-! ## The two directions -/

theorem findDevice_control (count : ℕ) (errno : BitVec 32) :
    findDevice count NVIDIA_CONTROL_DEVIVE_NAME errno = .control := by
  rw [findDevice, if_pos (strcmp_eq_zero_iff.mpr rfl)]

theorem findDevice_deviceName (bound : count < 2 ^ 31) (inside : k < count) (errno : BitVec 32) :
    findDevice count (deviceName k) errno = .device k := by
  have fits : k < 2 ^ 32 := by omega
  have index : (BitVec.ofNat 32 k).toNat = k := by
    rw [BitVec.toNat_ofNat, Nat.mod_eq_of_lt fits]
  rw [findDevice, if_neg fun same => deviceName_ne_control k (strcmp_eq_zero_iff.mp same),
    parseDeviceName_deviceName, if_pos fits]
  dsimp only
  rw [index, if_neg (not_le.mpr inside)]

/-- The names in the order of the array. -/
def publishedNames (count : ℕ) : List CString :=
  NVIDIA_CONTROL_DEVIVE_NAME :: (List.range count).map deviceName

theorem mem_publishedNames :
    name ∈ publishedNames count ↔
      name = NVIDIA_CONTROL_DEVIVE_NAME ∨ ∃ k < count, name = deviceName k := by
  simp [publishedNames, eq_comm]

theorem nodup_publishedNames (count : ℕ) : (publishedNames count).Nodup := by
  apply List.nodup_cons.mpr
  constructor
  · intro published
    obtain ⟨k, -, same⟩ := List.mem_map.mp published
    exact deviceName_ne_control k same
  · exact List.nodup_range.map deviceName_injective

/-- A name that is not published is not found. -/
theorem findDevice_of_notMem (unpublished : name ∉ publishedNames count) (errno : BitVec 32) :
    findDevice count name errno = .empty := by
  rw [mem_publishedNames, not_or] at unpublished
  rw [findDevice, if_neg fun same => unpublished.1 (strcmp_eq_zero_iff.mp same)]
  split
  · rfl
  · rename_i index parsed
    have printed := parseDeviceName_eq_some_iff.mp parsed
    rw [if_pos (not_lt.mp fun inside => unpublished.2 ⟨_, inside, printed⟩)]

/-- The three things that `FindDevice` may return, and for which names. -/
theorem findDevice_cases (bound : count < 2 ^ 31) (name : CString) (errno : BitVec 32) :
    (name = NVIDIA_CONTROL_DEVIVE_NAME ∧ findDevice count name errno = .control) ∨
      (∃ k < count, name = deviceName k ∧ findDevice count name errno = .device k) ∨
      (name ∉ publishedNames count ∧ findDevice count name errno = .empty) := by
  by_cases published : name ∈ publishedNames count
  · rcases mem_publishedNames.mp published with rfl | ⟨k, inside, rfl⟩
    · exact Or.inl ⟨rfl, findDevice_control count errno⟩
    · exact Or.inr (Or.inl ⟨k, inside, rfl, findDevice_deviceName bound inside errno⟩)
  · exact Or.inr (Or.inr ⟨published, findDevice_of_notMem published errno⟩)

/-- The entry made of a name. -/
def entry (duplicates : ℕ → Bool) (index : ℕ) (name : CString) : Option CString :=
  if duplicates index then some name else none

theorem one_add_ofNat (n : ℕ) : (1 : BitVec 32) + .ofNat 32 n = .ofNat 32 (1 + n) :=
  (BitVec.ofNat_add ..).symm

/-- `SetName` on the first entry that has not been tried. -/
theorem strings_setName_next {a : DeviceNamesArray} {done : List (Option CString)} {remaining : ℕ}
    (held : a.strings = some (done ++ List.replicate (remaining + 1) none))
    (small : done.length < 2 ^ 31) (duplicates : ℕ → Bool) (name : CString) :
    ∃ status b, a.setName (.ofNat 32 done.length) name (duplicates done.length) =
        some (status, b) ∧
      b.strings = some (done ++ [entry duplicates done.length name] ++
        List.replicate remaining none) := by
  have index : (BitVec.ofNat 32 done.length).toNat = done.length := by
    rw [BitVec.toNat_ofNat]
    omega
  have inside : (BitVec.ofNat 32 done.length).toNat <
      (done ++ List.replicate (remaining + 1) none).length := by
    rw [index, List.length_append, List.length_replicate]
    omega
  obtain ⟨status, b, set, held'⟩ :=
    DeviceNamesArray.strings_setName held inside name (duplicates done.length)
  refine ⟨status, b, set, ?_⟩
  rw [held', index, List.append_assoc, entry]
  split
  · rw [List.set_append_right _ _ le_rfl, Nat.sub_self]
    rfl
  · rfl

/-- The loop tries one entry after another. -/
theorem strings_publishNames (duplicates : ℕ → Bool) {a : DeviceNamesArray}
    {done : List (Option CString)} {remaining k : ℕ} (length : done.length = 1 + k)
    (small : 1 + k + remaining < 2 ^ 31)
    (held : a.strings = some (done ++ List.replicate (remaining + 1) none)) :
    ∃ b, publishNames duplicates k remaining a = some b ∧
      b.strings = some (done ++
        (List.range' k remaining).map (fun i => entry duplicates (1 + i) (deviceName i)) ++
          [none]) := by
  induction remaining generalizing k a done with
  | zero => exact ⟨a, rfl, by simpa using held⟩
  | succ remaining ih =>
    obtain ⟨status, b, set, held'⟩ :=
      strings_setName_next held (by omega) duplicates (deviceName k)
    rw [length] at set held'
    have length' : (done ++ [entry duplicates (1 + k) (deviceName k)]).length = 1 + (k + 1) := by
      rw [List.length_append, length]
      rfl
    obtain ⟨c, rest, named⟩ := ih length' (by omega) held'
    refine ⟨c, ?_, ?_⟩
    · rw [publishNames, one_add_ofNat, set]
      exact rest
    · rw [named, List.range'_succ, List.map_cons, List.append_assoc done]
      rfl

/-- The entries after `Init`, whichever names can be duplicated. -/
theorem strings_initNames (fits : count + 2 < 2 ^ 31) (duplicates : ℕ → Bool) :
    ∃ a, initNames (.ofNat 32 count) true duplicates = some (.B_OK, a) ∧
      a.strings = some ((publishedNames count).mapIdx (entry duplicates) ++ [none]) := by
  obtain ⟨a, made, empty⟩ := DeviceNamesArray.strings_init (show 1 + count + 1 < 2 ^ 31 by omega)
  rw [← one_add_ofNat] at made
  have fresh : a.strings = some ([] ++ List.replicate (1 + count + 1) none) := empty
  obtain ⟨status, b, set, held⟩ :=
    strings_setName_next fresh (by simp) duplicates NVIDIA_CONTROL_DEVIVE_NAME
  have set : a.setName 0 NVIDIA_CONTROL_DEVIVE_NAME (duplicates 0) = some (status, b) := set
  rw [Nat.add_comm 1 count] at held
  obtain ⟨c, rest, named⟩ := strings_publishNames duplicates (k := 0) rfl (by omega) held
  have devicesCount : (BitVec.ofNat 32 count).toInt.toNat = count := by
    have natural : (BitVec.ofNat 32 count).toNat = count := by
      rw [BitVec.toNat_ofNat]
      omega
    rw [BitVec.toInt_eq_toNat_of_lt (by omega), natural, Int.toNat_natCast]
  have devices : ((List.range' 0 count).map fun i => entry duplicates (1 + i) (deviceName i)) =
      ((List.range count).map deviceName).mapIdx fun i => entry duplicates (i + 1) := by
    apply List.ext_getElem (by simp)
    intro i inside inside'
    simp [Nat.add_comm 1]
  refine ⟨c, ?_, ?_⟩
  · rw [initNames, made, Option.bind_some]
    dsimp only
    rw [if_neg (by decide), set, Option.bind_some]
    dsimp only
    rw [devicesCount, rest, Option.map_some]
  · rw [named, devices, publishedNames, List.mapIdx_cons]
    rfl

/-- Without the array `Init` fails: there is no memory for it, or no count of its entries. -/
theorem initNames_eq_of_not (bound : count < 2 ^ 31) {allocated : Bool} (duplicates : ℕ → Bool)
    (none : ¬ (allocated = true ∧ count + 2 < 2 ^ 31)) :
    initNames (.ofNat 32 count) allocated duplicates = some (.B_NO_MEMORY, {}) := by
  have no : DeviceNamesArray.newLength (1 + .ofNat 32 count) allocated = Option.none := by
    refine if_neg fun both => none ⟨both.1, ?_⟩
    by_contra large
    -- the length of the array would be 2 ^ 31, or 2 ^ 31 + 1
    rcases (by omega : count = 2 ^ 31 - 2 ∨ count = 2 ^ 31 - 1) with rfl | rfl
    · exact absurd both.2 (by decide)
    · exact absurd both.2 (by decide)
  rw [initNames, DeviceNamesArray.init, no]
  rfl

/-- `Init` returns, with the names or without the array. -/
theorem initNames_cases (bound : count < 2 ^ 31) (allocated : Bool) (duplicates : ℕ → Bool) :
    ∃ status a, initNames (.ofNat 32 count) allocated duplicates = some (status, a) ∧
      (status = .B_OK ↔ allocated = true ∧ count + 2 < 2 ^ 31) ∧
      (status = .B_OK →
        a.strings = some ((publishedNames count).mapIdx (entry duplicates) ++ [none])) := by
  by_cases made : allocated = true ∧ count + 2 < 2 ^ 31
  · obtain ⟨rfl, fits⟩ := made
    obtain ⟨a, ran, named⟩ := strings_initNames fits duplicates
    exact ⟨.B_OK, a, ran, iff_of_true rfl ⟨rfl, fits⟩, fun _ => named⟩
  · exact ⟨_, _, initNames_eq_of_not bound duplicates made, iff_of_false (by simp) made,
      fun ok => by cases ok⟩

/-- Up to the first null: all names, or those before the first one that cannot be duplicated. -/
theorem reduceOption_takeWhile_entry {duplicates : ℕ → Bool} {names : List CString}
    (inside : k ≤ names.length) (before : ∀ i < k, duplicates i = true)
    (stopped : k = names.length ∨ duplicates k = false) :
    ((names.mapIdx (entry duplicates) ++ [none]).takeWhile Option.isSome).reduceOption =
      names.take k := by
  have within : k < (names.mapIdx (entry duplicates) ++ [none]).length := by
    rw [List.length_append, List.length_mapIdx, List.length_singleton]
    omega
  -- the first null, which is the terminator if there is no other
  have first : (names.mapIdx (entry duplicates) ++ [none]).findIdx (!Option.isSome ·) = k := by
    rw [List.findIdx_eq within]
    constructor
    · rcases stopped with rfl | failed
      · simp
      · simp [List.getElem_append, entry, failed]
    · intro j earlier
      have short : j < names.length := by omega
      simp [short, entry, before j earlier]
  have shown : (names.mapIdx (entry duplicates) ++ [none]).take k = (names.take k).map some := by
    apply List.ext_getElem
    · simp
      omega
    · intro j _ inside'
      have earlier : j < k := by
        rw [List.length_map, List.length_take] at inside'
        omega
      have short : j < names.length := by omega
      simp [short, entry, before j earlier]
  rw [List.takeWhile_eq_take_findIdx_not, first, shown]
  exact (List.filterMap_map ..).trans List.filterMap_some

theorem length_publishedNames (count : ℕ) : (publishedNames count).length = 1 + count := by
  simp [publishedNames, Nat.add_comm]

/-- The names before the terminator. -/
theorem published_initNames (bound : count < 2 ^ 31) {allocated : Bool} {duplicates : ℕ → Bool}
    {a : DeviceNamesArray}
    (made : initNames (.ofNat 32 count) allocated duplicates = some (.B_OK, a))
    (inside : k ≤ 1 + count) (before : ∀ i < k, duplicates i = true)
    (stopped : k = 1 + count ∨ duplicates k = false) :
    a.published = some ((publishedNames count).take k) := by
  obtain ⟨status, a', made', -, named⟩ := initNames_cases bound allocated duplicates
  obtain ⟨rfl, rfl⟩ := Prod.mk.inj (Option.some.inj (made.symm.trans made'))
  rw [← length_publishedNames] at inside stopped
  rw [DeviceNamesArray.published, named rfl, Option.map_some,
    reduceOption_takeWhile_entry inside before stopped]

/-- All names are published when all of them can be duplicated. -/
theorem published_initNames_of_forall (bound : count < 2 ^ 31) {allocated : Bool}
    {duplicates : ℕ → Bool} {a : DeviceNamesArray}
    (made : initNames (.ofNat 32 count) allocated duplicates = some (.B_OK, a))
    (all : ∀ i ≤ count, duplicates i = true) : a.published = some (publishedNames count) := by
  have names := published_initNames bound made le_rfl (fun i inside => all i (by omega))
    (Or.inl rfl)
  rwa [← length_publishedNames, List.take_length] at names

/-- What the nodes of the published names are, in order. -/
def publishedNodes (count : ℕ) : List DevfsNodeInstance :=
  .control :: (List.range count).map .device

/-- Published names and `FindDevice` are inverse to each other. -/
structure NamesInverse (count : ℕ) (errno : BitVec 32) : Prop where
  control (s : CString) :
    findDevice count s errno = .control ↔ s = NVIDIA_CONTROL_DEVIVE_NAME
  device (s : CString) (k : ℕ) :
    findDevice count s errno = .device k ↔ k < count ∧ s = deviceName k
  empty (s : CString) :
    findDevice count s errno = .empty ↔ s ∉ publishedNames count
  /-- `Init` fills the array, if the number of its entries is an `int32`. -/
  filled : count + 2 < 2 ^ 31 →
    ∃ a, initNames (.ofNat 32 count) true (fun _ => true) = some (.B_OK, a)
  published : ∀ a, initNames (.ofNat 32 count) true (fun _ => true) = some (.B_OK, a) →
    ∃ names, a.published = some names ∧ names = publishedNames count ∧ names.Nodup ∧
      names.map (fun s => findDevice count s errno) = publishedNodes count

/-- What is published is found again, each name as its own device, and nothing else is. -/
theorem namesInverse (bound : count < 2 ^ 31) (errno : BitVec 32) : NamesInverse count errno := by
  constructor
  · intro s
    constructor
    · intro found
      rcases findDevice_cases bound s errno with ⟨same, -⟩ | ⟨k, -, -, node⟩ | ⟨-, node⟩
      · exact same
      · simp [found] at node
      · simp [found] at node
    · rintro rfl
      exact findDevice_control count errno
  · intro s k
    constructor
    · intro found
      rcases findDevice_cases bound s errno with ⟨-, node⟩ | ⟨j, inside, same, node⟩ | ⟨-, node⟩
      · simp [found] at node
      · obtain rfl := DevfsNodeInstance.device.inj (found.symm.trans node)
        exact ⟨inside, same⟩
      · simp [found] at node
    · rintro ⟨inside, rfl⟩
      exact findDevice_deviceName bound inside errno
  · intro s
    constructor
    · intro found
      rcases findDevice_cases bound s errno with ⟨-, node⟩ | ⟨k, -, -, node⟩ | ⟨unpublished, -⟩
      · simp [found] at node
      · simp [found] at node
      · exact unpublished
    · intro unpublished
      exact findDevice_of_notMem unpublished errno
  · intro fits
    obtain ⟨a, made, -⟩ := strings_initNames fits fun _ => true
    exact ⟨a, made⟩
  · -- with no duplication failing, the published names are those of the nodes in order
    intro a made
    have names := published_initNames_of_forall bound made fun _ _ => rfl
    refine ⟨_, names, rfl, nodup_publishedNames count, ?_⟩
    rw [publishedNames, publishedNodes, List.map_cons, findDevice_control, List.map_map]
    congr 1
    apply List.map_congr_left
    intro k inside
    exact findDevice_deviceName bound (List.mem_range.mp inside) errno

/-- Two devices, with `ERANGE` left in `errno`. -/
theorem namesInverse_two : NamesInverse 2 ERANGE := namesInverse (by decide) ERANGE

example : findDevice 12 (deviceName 11) 0 = .device 11 := by decide

end NvidiaHaiku.Driver
