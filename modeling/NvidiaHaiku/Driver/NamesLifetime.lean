/-
# The lifetime of the array of device names

Whoever owns a `DeviceNamesArray` initializes it, possibly several times, sets names in it,
and destroys it. Every duplicated name should be freed once by then: when another one takes
its place, when the array is initialized again, or by the destructor.

`Delete` frees the names up to the first null, but nothing requires that names are set in
order, and `SetName` leaves a null where a duplication fails. So the names behind a gap are
never freed. After a failed `Init` there is no array left for `SetName` to write to. And an
array made for a count of -1 has no entries, so that `Delete` reads past its end. `NoGaps`
excludes all three, and nothing else has to be excluded.
-/

import Mathlib.Tactic.Abel
import NvidiaHaiku.Driver.FindDevice
import NvidiaHaiku.Math.Terminated

namespace NvidiaHaiku.Driver.DeviceNamesArray

open NvidiaHaiku.Libc NvidiaHaiku.Math.Terminated

/-- The calls of the owner, with whether what they allocate is allocated. -/
inductive Call
  | init (count : BitVec 32) (allocated : Bool)
  | setName (index : BitVec 32) (name : CString) (duplicates : Bool)
  deriving DecidableEq, Repr

/-- One call; `none` if it accesses an entry outside the array. -/
def call (a : DeviceNamesArray) : Call → Option DeviceNamesArray
  | .init count allocated => (a.init count allocated).map Prod.snd
  | .setName index name duplicates => (a.setName index name duplicates).map Prod.snd

/-- The destructor. -/
def destroy (a : DeviceNamesArray) : Option DeviceNamesArray :=
  if a.fNames = none then some a else a.delete

/-- The calls after one another, and the destructor. -/
def lifetime (calls : List Call) : Option DeviceNamesArray :=
  (calls.foldlM call {}).bind destroy

/-- The indices are below the count of the last `Init` that succeeded. -/
def InRange : (last : ℤ) → List Call → Prop
  | _, [] => True
  | last, .init count allocated :: rest =>
    InRange (if (newLength count allocated).isSome then count.toInt else last) rest
  | last, .setName index _ _ :: rest => (0 ≤ index.toInt ∧ index.toInt < last) ∧ InRange last rest

instance : (last : ℤ) → (calls : List Call) → Decidable (InRange last calls)
  | _, [] => isTrue trivial
  | last, .init count allocated :: rest =>
    instDecidableInRange (if (newLength count allocated).isSome then count.toInt else last) rest
  | last, .setName index _ _ :: rest =>
    have := instDecidableInRange last rest
    inferInstanceAs (Decidable ((0 ≤ index.toInt ∧ index.toInt < last) ∧ InRange last rest))

/-- No entry outside the array is accessed, and each block that `strdup` has returned has
been freed once when the array is gone. -/
def FreedOnce (calls : List Call) : Prop :=
  ∃ final, lifetime calls = some final ∧
    (final.freed : Multiset ℕ) = Multiset.range final.duplicated

/-- Where the names are `filled`, if there is an array: whenever it is deleted, the entries
in use have no gap, and no name is duplicated when there is no array. No array is made
without entries. -/
def NoGaps : (filled : Option (Finset ℕ)) → List Call → Prop
  | filled, [] => ∀ used ∈ filled, Gapless (· ∈ used)
  | filled, .init count allocated :: rest =>
    (∀ used ∈ filled, Gapless (· ∈ used)) ∧ (allocated = true → count ≠ -1) ∧
      NoGaps (if (newLength count allocated).isSome then some ∅ else none) rest
  | filled, .setName index _ duplicates :: rest =>
    if duplicates then ∃ used ∈ filled, NoGaps (some (insert index.toNat used)) rest
    else NoGaps filled rest

instance : (filled : Option (Finset ℕ)) → (calls : List Call) → Decidable (NoGaps filled calls)
  | filled, [] => inferInstanceAs (Decidable (∀ used ∈ filled, Gapless (· ∈ used)))
  | filled, .init count allocated :: rest =>
    have := instDecidableNoGaps (if (newLength count allocated).isSome then some ∅ else none) rest
    inferInstanceAs (Decidable ((∀ used ∈ filled, Gapless (· ∈ used)) ∧
      (allocated = true → count ≠ -1) ∧ NoGaps _ rest))
  | filled, .setName _ _ false :: rest => instDecidableNoGaps filled rest
  | filled, .setName index _ true :: rest =>
    have (used : Finset ℕ) := instDecidableNoGaps (some (insert index.toNat used)) rest
    inferInstanceAs (Decidable (∃ used ∈ filled, NoGaps (some (insert index.toNat used)) rest))

variable {a : DeviceNamesArray} {names : List (Option Name)} {last index : ℕ}
  {filled : Option (Finset ℕ)} {used : Finset ℕ} {lost : Multiset ℕ}

/-- The three things that `new` may make for a count. -/
theorem newLength_cases (count : BitVec 32) (allocated : Bool) :
    newLength count allocated = none ∨
      (allocated = true ∧ count = -1 ∧ newLength count allocated = some 0) ∨
      ∃ last : ℕ, count ≠ -1 ∧ count.toInt = last ∧ newLength count allocated = some (last + 1) := by
  by_cases made : allocated = true ∧ 0 ≤ (count + 1).toInt
  · have length : newLength count allocated = some (count + 1).toNat := if_pos made
    by_cases empty : count = -1
    · subst empty
      exact Or.inr (Or.inl ⟨made.1, rfl, length⟩)
    · -- with a length that is not negative the count is not negative either
      have positive : count.toInt = count.toNat ∧ (count + 1).toNat = count.toNat + 1 := by
        obtain ⟨-, natural⟩ := made
        rw [BitVec.toInt_eq_toNat_cond] at natural ⊢
        bv_omega
      exact Or.inr (Or.inr ⟨count.toNat, empty, positive.1, positive.2 ▸ length⟩)
  · exact Or.inl (if_neg made)

/-- The blocks of the names in the array. -/
def blocks (names : List (Option Name)) : Multiset ℕ := (held names).map Name.block

/-- The blocks that `Delete` does not come to. -/
def leaked (names : List (Option Name)) : Multiset ℕ := (missed names).map Name.block

theorem leaked_eq_zero_iff : leaked names = 0 ↔ Gapless fun i => names[i]?.join.isSome := by
  rw [leaked, Multiset.map_eq_zero, missed_eq_zero_iff]

/-- The array has an entry more than there are names, which is never used. -/
structure Layout (last : ℕ) (used : Finset ℕ) (names : List (Option Name)) : Prop where
  length : names.length = last + 1
  used_iff : ∀ i, i ∈ used ↔ names[i]?.join.isSome
  used_lt : ∀ i ∈ used, i < last

namespace Layout

theorem empty (last : ℕ) : Layout last ∅ (List.replicate (last + 1) none) where
  length := List.length_replicate
  used_iff i := by
    rw [List.getElem?_replicate]
    split <;> simp
  used_lt i member := absurd member (Finset.notMem_empty i)

theorem none_mem (layout : Layout last used names) : none ∈ names := by
  have inside : last < names.length := layout.length ▸ last.lt_succ_self
  have unused : names[last]?.join = none := by
    rw [← Option.not_isSome_iff_eq_none, ← layout.used_iff]
    exact fun member => lt_irrefl _ (layout.used_lt last member)
  rw [List.getElem?_eq_getElem inside, Option.join_some] at unused
  exact unused ▸ List.getElem_mem inside

theorem set (layout : Layout last used names) (inside : index < last) (name : Name) :
    Layout last (insert index used) (names.set index (some name)) where
  length := List.length_set.trans layout.length
  used_iff i := by
    rw [Finset.mem_insert, layout.used_iff]
    by_cases same : index = i
    · subst same
      have within : index < names.length := inside.trans (layout.length ▸ last.lt_succ_self)
      rw [List.getElem?_set_self within]
      exact ⟨fun _ => rfl, fun _ => Or.inl rfl⟩
    · rw [List.getElem?_set_ne same]
      exact ⟨fun either => either.resolve_left fun eq => same eq.symm, Or.inr⟩
  used_lt i member := by
    rcases Finset.mem_insert.mp member with rfl | before
    · exact inside
    · exact layout.used_lt i before

theorem leaked_eq_zero_iff (layout : Layout last used names) :
    leaked names = 0 ↔ Gapless (· ∈ used) := by
  have same : (· ∈ used) = fun i => names[i]?.join.isSome = true :=
    funext fun i => propext (layout.used_iff i)
  rw [DeviceNamesArray.leaked_eq_zero_iff, same]

end Layout

/-- `Delete` frees all names but the leaked ones. -/
theorem delete_spec (array : a.fNames = some names) (terminated : none ∈ names) :
    ∃ freed, a.delete = some { a with freed := freed } ∧
      (freed : Multiset ℕ) + leaked names = a.freed + blocks names := by
  refine ⟨_, by rw [delete, array, Option.bind_some, if_pos terminated], ?_⟩
  have walk : (((names.takeWhile Option.isSome).reduceOption.map Name.block : List ℕ) :
      Multiset ℕ) = (walked names).map Name.block := rfl
  rw [← Multiset.coe_add, walk, leaked, blocks, add_assoc, ← Multiset.map_add, walked_add_missed]

/-- Every block that `strdup` has returned has been freed, is in the array, or is lost. -/
inductive Tracked (lost : Multiset ℕ) : ℤ → Option (Finset ℕ) → DeviceNamesArray → Prop
  | noArray {last : ℤ} {duplicated : ℕ} {freed : List ℕ} :
      (freed : Multiset ℕ) + lost = Multiset.range duplicated →
      Tracked lost last none ⟨none, duplicated, freed⟩
  | array {last : ℕ} {used : Finset ℕ} {names : List (Option Name)} {duplicated : ℕ}
      {freed : List ℕ} : Layout last used names →
      (freed : Multiset ℕ) + blocks names + lost = Multiset.range duplicated →
      Tracked lost last (some used) ⟨some names, duplicated, freed⟩

namespace Tracked

variable {last : ℤ}

theorem initial : Tracked 0 0 none {} := .noArray rfl

/-- Without its array, all that is lost is what was lost before and what lies behind a gap. -/
theorem destroy (tracked : Tracked lost last filled a) :
    ∃ b lost', a.destroy = some b ∧
      (b.freed : Multiset ℕ) + lost' = Multiset.range b.duplicated ∧
      (lost' = 0 ↔ lost = 0 ∧ ∀ used ∈ filled, Gapless (· ∈ used)) := by
  cases tracked with
  | noArray accounts =>
    exact ⟨_, lost, rfl, accounts, ⟨fun nothing => ⟨nothing, nofun⟩, And.left⟩⟩
  | @array last used names duplicated freed layout accounts =>
    obtain ⟨freed', deleted, all⟩ :=
      delete_spec (a := ⟨some names, duplicated, freed⟩) rfl layout.none_mem
    refine ⟨_, leaked names + lost, deleted, ?_, ?_⟩
    · rw [← add_assoc, all]
      exact accounts
    · rw [add_eq_zero, layout.leaked_eq_zero_iff, and_comm]
      refine and_congr_right fun _ => ⟨fun gapless used' member => ?_, fun all => all used rfl⟩
      rwa [← Option.some.inj member]

/-- `Init` deletes the array as the destructor does, and starts with an empty one. -/
theorem init (tracked : Tracked lost last filled a) {count : BitVec 32} {allocated : Bool}
    (entries : newLength count allocated ≠ some 0) :
    ∃ b lost', a.call (.init count allocated) = some b ∧
      Tracked lost' (if (newLength count allocated).isSome then count.toInt else last)
        (if (newLength count allocated).isSome then some ∅ else none) b ∧
      (lost' = 0 ↔ lost = 0 ∧ ∀ used ∈ filled, Gapless (· ∈ used)) := by
  obtain ⟨b, lost', destroyed, accounts, kept⟩ := tracked.destroy
  have deleted : (if a.fNames = none then some a else a.delete) = some b := destroyed
  rcases newLength_cases count allocated with failed | ⟨-, -, empty⟩ | ⟨last', -, same, made⟩
  · rw [failed]
    exact ⟨_, lost', by rw [call, DeviceNamesArray.init, deleted, failed]; rfl, .noArray accounts,
      kept⟩
  · exact absurd empty entries
  · rw [made, same]
    refine ⟨_, lost', by rw [call, DeviceNamesArray.init, deleted, made]; rfl, ?_, kept⟩
    refine .array (.empty last') ?_
    rw [blocks, held_replicate_none, Multiset.map_zero, add_zero]
    exact accounts

/-- A duplicated name takes the place of the one at its index, which is freed. -/
theorem setName {index : BitVec 32} (tracked : Tracked lost last (some used) a)
    (natural : 0 ≤ index.toInt) (inside : index.toInt < last) (name : CString) :
    ∃ b, a.call (.setName index name true) = some b ∧
      Tracked lost last (some (insert index.toNat used)) b := by
  cases tracked with
  | @array last used names duplicated freed layout accounts =>
    have inside : index.toNat < last := by
      rw [BitVec.toInt_eq_toNat_cond] at natural inside
      split at inside <;> omega
    have within : index.toNat < names.length := inside.trans (layout.length ▸ last.lt_succ_self)
    have entry : names[index.toNat]? = some names[index.toNat] := List.getElem?_eq_getElem within
    refine ⟨_, by
      rw [call, DeviceNamesArray.setName, Option.bind_some, entry]
      rfl, .array (layout.set inside _) ?_⟩
    obtain ⟨old, old_def⟩ :
        ∃ old : Multiset ℕ, old = ((names[index.toNat].toList.map Name.block : List ℕ)) := ⟨_, rfl⟩
    -- what the array holds changes by the name that is freed and the one that is new
    have exchanged : blocks (names.set index.toNat (some ⟨duplicated, name⟩)) + old =
        blocks names + {duplicated} := by
      have both := congrArg (Multiset.map Name.block) (held_set entry ⟨duplicated, name⟩)
      rw [Multiset.map_add, Multiset.map_add] at both
      exact old_def ▸ both
    calc ((freed ++ names[index.toNat].toList.map Name.block : List ℕ) : Multiset ℕ) +
            blocks (names.set index.toNat (some ⟨duplicated, name⟩)) + lost
        = freed + (blocks (names.set index.toNat (some ⟨duplicated, name⟩)) + old) + lost := by
          rw [← Multiset.coe_add, ← old_def]
          abel
      _ = {duplicated} + (freed + blocks names + lost) := by
          rw [exchanged]
          abel
      _ = Multiset.range (duplicated + 1) := by
          rw [accounts, Multiset.range_succ, Multiset.singleton_add]

end Tracked

/-- An array without entries cannot be deleted, and nothing can be done with it before. -/
theorem foldlM_of_empty (empty : a.fNames = some []) {calls : List Call}
    (inRange : InRange (-1) calls) : (calls.foldlM call a).bind destroy = none := by
  have unreadable : a.delete = none := by simp [delete, empty]
  cases calls with
  | nil => simp [destroy, empty, unreadable]
  | cons c rest =>
    cases c with
    | init count allocated => simp [call, init, empty, unreadable]
    | setName index name duplicates =>
      obtain ⟨⟨natural, below⟩, -⟩ := inRange
      omega

/-- From any point of a lifetime on, all blocks are freed once exactly if none has been lost
yet and the calls that follow leave no gaps. -/
theorem freedOnce_from {calls : List Call} {last : ℤ} (tracked : Tracked lost last filled a)
    (inRange : InRange last calls) :
    (∃ final, (calls.foldlM call a).bind destroy = some final ∧
      (final.freed : Multiset ℕ) = Multiset.range final.duplicated) ↔
        lost = 0 ∧ NoGaps filled calls := by
  induction calls generalizing a lost last filled with
  | nil =>
    obtain ⟨b, lost', destroyed, accounts, kept⟩ := tracked.destroy
    rw [NoGaps, ← kept]
    constructor
    · rintro ⟨final, ended, once⟩
      obtain rfl : b = final := Option.some.inj (destroyed.symm.trans ended)
      rw [once] at accounts
      exact add_eq_left.mp accounts
    · rintro rfl
      exact ⟨b, destroyed, (add_zero _).symm.trans accounts⟩
  | cons c rest ih =>
    rw [List.foldlM_cons]
    cases c with
    | init count allocated =>
      by_cases empty : newLength count allocated = some 0
      · -- an array for a count of -1 is never deleted
        rcases newLength_cases count allocated with failed | ⟨rfl, rfl, -⟩ | ⟨last', -, -, made⟩
        · simp [failed] at empty
        · obtain ⟨b, lost', destroyed, -⟩ := tracked.destroy
          have deleted : (if a.fNames = none then some a else a.delete) = some b := destroyed
          have called : a.call (.init (-1) true) = some { b with fNames := some [] } := by
            rw [call, init, deleted, empty]
            rfl
          rw [called]
          constructor
          · rintro ⟨final, ended, -⟩
            have stuck := foldlM_of_empty (a := { b with fNames := some [] }) rfl inRange
            cases stuck.symm.trans ended
          · rintro ⟨-, -, counted, -⟩
            exact absurd rfl (counted rfl)
        · simp [made] at empty
      · obtain ⟨b, lost', called, tracked, kept⟩ := tracked.init empty
        have counted : allocated = true → count ≠ -1 := by
          rintro rfl rfl
          exact empty (by decide)
        rw [called]
        exact (ih tracked inRange).trans (by
          rw [kept, and_assoc, NoGaps, and_iff_right counted])
    | setName index name duplicates =>
      obtain ⟨⟨natural, inside⟩, inRange⟩ := inRange
      cases duplicates with
      | false => exact ih tracked inRange
      | true =>
        cases filled with
        | none =>
          -- there is no array to write to
          cases tracked with
          | noArray =>
            constructor
            · rintro ⟨final, ended, -⟩
              cases ended
            · rintro ⟨-, used, member, -⟩
              cases member
        | some used =>
          obtain ⟨b, called, tracked⟩ := tracked.setName natural inside name
          rw [called]
          refine (ih tracked inRange).trans (and_congr_right fun _ => ?_)
          constructor
          · intro rest
            exact ⟨used, rfl, rest⟩
          · rintro ⟨used', member, rest⟩
            rwa [Option.some.inj member]

/-- Frees over a lifetime: every duplicated name is freed once, and no entry outside the
array is accessed, exactly if the calls leave no gaps. -/
theorem freedOnce_iff {calls : List Call} (inRange : InRange 0 calls) :
    FreedOnce calls ↔ NoGaps none calls :=
  (freedOnce_from .initial inRange).trans (and_iff_right rfl)

/-- Names that are set out of order, one of them twice, and a second array. -/
theorem freedOnce_refilled :
    FreedOnce [.init 2 true, .setName 1 (deviceName 0) true,
      .setName 0 NVIDIA_CONTROL_DEVIVE_NAME true, .setName 1 (deviceName 1) true,
      .init 1 true, .setName 0 (deviceName 0) false] :=
  (freedOnce_iff (by decide)).mpr (by decide)

/-- The name of the control device cannot be duplicated, and that of the first device is
never freed. -/
theorem not_freedOnce_unnamedControl :
    InRange 0 [.init 2 true, .setName 0 NVIDIA_CONTROL_DEVIVE_NAME false,
      .setName 1 (deviceName 0) true] ∧
    ¬ FreedOnce [.init 2 true, .setName 0 NVIDIA_CONTROL_DEVIVE_NAME false,
      .setName 1 (deviceName 0) true] := by
  refine ⟨by decide, ?_⟩
  rintro ⟨final, ended, once⟩
  obtain rfl : _ = final := Option.some.inj ended
  have counts : 0 = 1 := congrArg Multiset.card once
  exact absurd counts (by decide)

end NvidiaHaiku.Driver.DeviceNamesArray
