/-
# What is published

`PublishDevices` returns the array of names that `Init` has filled. `Init` tests whether each
object it needs can be allocated, the array of the names included, but not whether `SetName`
succeeds.

A name that cannot be duplicated leaves its entry null. The array is read up to the first null,
so this hides the names behind it too, and `Init` returns `B_OK` all the same.
-/

import NvidiaHaiku.Driver.Module

namespace NvidiaHaiku.Driver

open NvidiaHaiku.Libc NvidiaHaiku.Math

/-- `PublishDevices`, as the names before the terminator. -/
def publishDevices (driver : NvHaikuDriver) : Option (List CString) :=
  driver.fDeviceNamesArray.published

/-- If `Init` succeeds, the names of the control device and of all devices are published. -/
def PublishesAll (env : Environment) : Prop :=
  ∃ res, NvHaikuDriver.init env = some res ∧
    (res.status = .B_OK →
      publishDevices res.driver = some (publishedNames res.driver.fDevices.length))

namespace Environment

/-- The number of entries of the bus that are probed as devices. -/
def deviceCount (env : Environment) : ℕ := env.entries.countP PciEntry.probed

/-- `Init` gets as far as the names: no earlier step fails. The count of the devices, and that
of the array with its terminator, are an `int32`. -/
def ReachesNames (env : Environment) : Prop :=
  env.scans = true ∧ (∀ entry ∈ env.entries, entry.probed = true → entry.added = true) ∧
    env.namesAllocated = true ∧ env.deviceCount + 2 < 2 ^ 31

end Environment

variable {infos : List PciInfo} {env : Environment}

/-- The loop over the bus succeeds if no device fails to be added. All that are probed are in
`fDevices` then. -/
theorem Scans.succeeds {i : ℕ} {entries : List PciEntry} {fDevices : List NvHaikuDevice}
    {result : Status × List NvHaikuDevice × List (Op Resource)}
    (scans : Scans infos i entries fDevices result) (bound : fDevices.length < 2 ^ 31) :
    (result.1 = .B_OK ↔ (∀ entry ∈ entries, entry.probed = true → entry.added = true) ∧
        fDevices.length + entries.countP PciEntry.probed < 2 ^ 31) ∧
      (result.1 = .B_OK →
        result.2.1.length = fDevices.length + entries.countP PciEntry.probed) := by
  induction scans with
  | done => exact ⟨by simpa using bound, fun _ => rfl⟩
  | skipped failed low settled further ih =>
    rw [List.forall_mem_cons, List.countP_cons, failed]
    exact ⟨by simpa using (ih bound).1, by simpa using (ih bound).2⟩
  | @notAdded i entry rest fDevices d ops stops =>
    rw [List.forall_mem_cons, List.countP_cons]
    simp only [PciEntry.stops, PciEntry.adds, Bool.and_eq_true, Bool.not_eq_true',
      Bool.and_eq_false_iff, decide_eq_false_iff_not] at stops
    obtain ⟨probed, failed⟩ := stops
    rw [probed, if_pos rfl]
    refine ⟨iff_of_false (by simp) ?_, by simp⟩
    rintro ⟨⟨added, -⟩, few⟩
    rcases failed with missing | full
    · exact Bool.false_ne_true (missing.symm.trans (added rfl))
    · omega
  | @added i entry rest fDevices fDevices' d status ops later probed stays low settled further ih =>
    simp only [PciEntry.stops, PciEntry.adds, probed, Bool.true_and, Bool.not_eq_false',
      Bool.and_eq_true, decide_eq_true_eq] at stays
    rw [List.length_append, List.length_singleton] at ih
    obtain ⟨succeeds, length⟩ := ih stays.2
    rw [List.forall_mem_cons, List.countP_cons, probed, if_pos rfl, Nat.add_comm (rest.countP _),
      ← Nat.add_assoc]
    exact ⟨by simpa [stays.1] using succeeds, length⟩

/-- `Init` succeeds just when it gets as far as the names, and fills them in last. -/
theorem driverInit_names (env : Environment) :
    ∃ res, NvHaikuDriver.init env = some res ∧ (res.status = .B_OK ↔ env.ReachesNames) ∧
      (res.status = .B_OK → res.driver.fDevices.length = env.deviceCount ∧
        env.deviceCount < 2 ^ 31 ∧
        initNames (.ofNat 32 env.deviceCount) env.namesAllocated env.duplicates =
          some (.B_OK, res.driver.fDeviceNamesArray)) := by
  obtain ⟨filled, pool, maintained, -⟩ := exists_filled env.callocs
  obtain ⟨res, returned, ends⟩ := exists_initEnds maintained
  obtain ⟨succeeds, length⟩ := env.scans_bus.succeeds (by simp)
  rw [List.length_nil, Nat.zero_add, ← Environment.deviceCount] at succeeds length
  refine ⟨res, returned, ?_⟩
  cases ends with
  | noModule failed | noRm found failed | noControl found rm failed =>
    have stopped : env.scans = false := by simp [Environment.scans, failed]
    simp [Environment.ReachesNames, stopped, failed]
  | notAdded scans ran failed =>
    -- a device could not be added
    rw [ran] at succeeds
    refine ⟨iff_of_false failed fun reaches => failed (succeeds.mpr ?_), fun ok => absurd ok failed⟩
    obtain ⟨-, added, -, fits⟩ := reaches
    exact ⟨added, by omega⟩
  | named scans ran made =>
    rw [ran] at succeeds length
    obtain ⟨added, bound⟩ := succeeds.mp rfl
    rw [length rfl] at made
    obtain ⟨status, names', made', filled, -⟩ :=
      initNames_cases bound env.namesAllocated env.duplicates
    obtain ⟨rfl, rfl⟩ := Prod.mk.inj (Option.some.inj (made'.symm.trans made))
    refine ⟨filled.trans ⟨fun fits => ⟨scans, added, fits⟩, fun reaches => reaches.2.2⟩, ?_⟩
    rintro rfl
    exact ⟨length rfl, bound, made⟩

/-- The first name that cannot be duplicated hides itself and all behind it. -/
theorem exists_published_initNames_take {count : ℕ} (bound : count < 2 ^ 31) {allocated : Bool}
    {duplicates : ℕ → Bool} {a : DeviceNamesArray}
    (made : initNames (.ofNat 32 count) allocated duplicates = some (.B_OK, a))
    (failed : ∃ i, i ≤ count ∧ duplicates i = false) :
    ∃ k ≤ count, a.published = some ((publishedNames count).take k) := by
  obtain ⟨inside, first⟩ := Nat.find_spec failed
  refine ⟨Nat.find failed, inside, published_initNames bound made (by omega) ?_ (Or.inr first)⟩
  intro i earlier
  have passed := Nat.find_min failed earlier
  rw [not_and, Bool.not_eq_false] at passed
  exact passed (earlier.le.trans inside)

/-- `Init` publishes all that it should just when it fails before it gets to the names, or no
name fails to be duplicated. -/
theorem publishesAll_iff (env : Environment) :
    PublishesAll env ↔
      (env.ReachesNames → ∀ i ≤ env.deviceCount, env.duplicates i = true) := by
  obtain ⟨res, ran, succeeds, names⟩ := driverInit_names env
  constructor
  · rintro ⟨res', ran', published⟩ reaches
    obtain rfl := Option.some.inj (ran.symm.trans ran')
    obtain ⟨count, bound, made⟩ := names (succeeds.mpr reaches)
    by_contra incomplete
    simp only [not_forall, Bool.not_eq_true, exists_prop] at incomplete
    -- fewer names are published than there should be
    obtain ⟨k, inside, hidden⟩ := exists_published_initNames_take bound made incomplete
    have same := Option.some.inj (hidden.symm.trans (published (succeeds.mpr reaches)))
    have lengths := congrArg List.length same
    rw [List.length_take, length_publishedNames, length_publishedNames, count] at lengths
    omega
  · intro all
    refine ⟨res, ran, fun ok => ?_⟩
    obtain ⟨count, bound, made⟩ := names ok
    rw [publishDevices, published_initNames_of_forall bound made (all (succeeds.mp ok)), count]

/-- One GPU, with no memory for the name of the control device. -/
def unnamedControl : Environment := { oneGpu with duplicates := fun i => i ≠ 0 }

/-- The name of the GPU is hidden behind that of the control device. -/
theorem not_publishesAll_unnamedControl : ¬ PublishesAll unnamedControl := by
  rintro ⟨res, ran, published⟩
  obtain ⟨res', ran', succeeds, names⟩ := driverInit_names unnamedControl
  obtain rfl := Option.some.inj (ran'.symm.trans ran)
  have ok : res'.status = .B_OK := succeeds.mpr ⟨by decide, by decide, rfl, by decide⟩
  obtain ⟨count, bound, made⟩ := names ok
  have hidden := published_initNames bound made (Nat.zero_le _) (by simp) (Or.inr (by decide))
  have same := hidden.symm.trans (published ok)
  simp [publishedNames] at same

end NvidiaHaiku.Driver
