/-
# A heap as its clients see it

A heap gives a block that nobody has, zeroed and large enough, or nothing; a
client writes into its blocks and gives them back. Nothing else happens to a
block. Whatever an allocator does behind the calls, it is correct if its calls
are a history of this system.

The state is determined by the calls as far as the clients can tell: `owner`
reads off who has a block, and `Left` what is in it, which is what its client
wrote last, and zeros if it has not written since the allocation.
-/

import Mathlib.Logic.Function.Basic
import NvidiaHaiku.Math.Simulation

namespace NvidiaHaiku.Math

/-- The calls of a heap, with their results. -/
inductive HeapCall (Client Block Byte : Type*)
  | alloc (client : Client) (size : ℕ) (result : Option Block)
  | free (client : Client) (ptr : Option Block)
  | write (client : Client) (block : Block) (bytes : List Byte)

/-- Who has which block, and what is in it. -/
abbrev BlockStore (Client Block Byte : Type*) := Block → Option (Client × List Byte)

namespace BlockStore

variable {Client Block Byte : Type*} [DecidableEq Block] [Zero Byte]

/-- One call. A block is allocated to one client, cleared, and stays with it until it is freed. -/
inductive Step (store : BlockStore Client Block Byte) :
    HeapCall Client Block Byte → BlockStore Client Block Byte → Prop
  | alloc {client : Client} {size : ℕ} {block : Block} {bytes : List Byte}
      (unused : store block = none) (large : size ≤ bytes.length)
      (zeroed : ∀ byte ∈ bytes, byte = 0) :
      Step store (.alloc client size (some block))
        (Function.update store block (some (client, bytes)))
  | allocFails {client : Client} {size : ℕ} : Step store (.alloc client size none) store
  | free {client : Client} {block : Block} {bytes : List Byte}
      (has : store block = some (client, bytes)) :
      Step store (.free client (some block)) (Function.update store block none)
  | freeNull {client : Client} : Step store (.free client none) store
  | write {client : Client} {block : Block} {bytes old : List Byte}
      (has : store block = some (client, old)) :
      Step store (.write client block bytes) (Function.update store block (some (client, bytes)))

/-- The heap, empty at first. -/
def heap (Client Block Byte : Type*) [DecidableEq Block] [Zero Byte] :
    TransitionSystem (BlockStore Client Block Byte) (HeapCall Client Block Byte) where
  start := (· = fun _ => none)
  step := Step

variable {calls : List (HeapCall Client Block Byte)} {store store' : BlockStore Client Block Byte}
  {history history' : List (Event (BlockStore Client Block Byte) (HeapCall Client Block Byte))}
  {client : Client} {block : Block} {bytes : List Byte}

/-! ## What the calls tell -/

/-- Who has the block after the calls, most recent first. -/
def owner : (calls : List (HeapCall Client Block Byte)) → (block : Block) → Option Client
  | [], _ => none
  | .alloc client _ (some other) :: calls, block =>
    if block = other then some client else owner calls block
  | .free _ (some other) :: calls, block => if block = other then none else owner calls block
  | .alloc _ _ none :: calls, block | .free _ none :: calls, block
  | .write .. :: calls, block => owner calls block

/-- `bytes` is what the calls, most recent first, have left in the block. -/
def Left : (calls : List (HeapCall Client Block Byte)) → (block : Block) → (bytes : List Byte) → Prop
  | [], _, _ => False
  | .alloc _ size (some other) :: calls, block, bytes =>
    if block = other then size ≤ bytes.length ∧ ∀ byte ∈ bytes, byte = 0
    else Left calls block bytes
  | .write _ other new :: calls, block, bytes =>
    if block = other then bytes = new else Left calls block bytes
  | .alloc _ _ none :: calls, block, bytes | .free .. :: calls, block, bytes =>
    Left calls block bytes

/-- One step changes the owners as its call tells. -/
theorem Step.owner {call : HeapCall Client Block Byte} (step : Step store call store')
    (known : ∀ block, (store block).map Prod.fst = owner calls block) (block : Block) :
    (store' block).map Prod.fst = owner (call :: calls) block := by
  cases step with
  | @alloc client size other bytes unused large zeroed =>
    rcases eq_or_ne block other with rfl | different
    · simp [BlockStore.owner]
    · simpa [BlockStore.owner, different] using known block
  | allocFails => exact known block
  | @free client other bytes has =>
    rcases eq_or_ne block other with rfl | different
    · simp [BlockStore.owner]
    · simpa [BlockStore.owner, different] using known block
  | freeNull => exact known block
  | @write client other bytes old has =>
    rcases eq_or_ne block other with rfl | different
    · -- whoever writes into a block had it before
      have before := known block
      rw [has] at before
      simpa [BlockStore.owner] using before
    · simpa [BlockStore.owner, different] using known block

theorem owner_of_run (run : (heap Client Block Byte).Run history store) (block : Block) :
    (store block).map Prod.fst = owner (TransitionSystem.actions history) block := by
  induction run generalizing block with
  | start initial =>
    rw [show _ = _ from initial]
    rfl
  | step run taken ih => exact Step.owner taken ih block

/-- Runs with the same calls agree on who has which block. -/
theorem has_of_same_calls (run : (heap Client Block Byte).Run history store)
    (run' : (heap Client Block Byte).Run history' store')
    (same : TransitionSystem.actions history' = TransitionSystem.actions history)
    (has : store block = some (client, bytes)) :
    ∃ bytes', store' block = some (client, bytes') := by
  have before := owner_of_run run block
  have after := owner_of_run run' block
  rw [same, ← before, has] at after
  obtain ⟨⟨found, bytes'⟩, present, rfl⟩ := Option.map_eq_some_iff.mp after
  exact ⟨bytes', present⟩

/-- One step leaves in a block what its call tells. -/
theorem Step.left {call : HeapCall Client Block Byte} (step : Step store call store')
    (known : ∀ block client bytes, store block = some (client, bytes) → Left calls block bytes)
    {block : Block} (has : store' block = some (client, bytes)) :
    Left (call :: calls) block bytes := by
  cases step with
  | @alloc _ size other fresh unused large zeroed =>
    rcases eq_or_ne block other with rfl | different
    · rw [Function.update_self] at has
      obtain ⟨rfl, rfl⟩ := Prod.mk.inj (Option.some.inj has)
      simpa [Left] using ⟨large, zeroed⟩
    · rw [Function.update_of_ne different] at has
      simpa [Left, different] using known block client bytes has
  | allocFails => exact known block client bytes has
  | @free _ other _ had =>
    rcases eq_or_ne block other with rfl | different
    · simp at has
    · rw [Function.update_of_ne different] at has
      exact known block client bytes has
  | freeNull => exact known block client bytes has
  | @write _ other new old had =>
    rcases eq_or_ne block other with rfl | different
    · rw [Function.update_self] at has
      obtain ⟨rfl, rfl⟩ := Prod.mk.inj (Option.some.inj has)
      simp [Left]
    · rw [Function.update_of_ne different] at has
      simpa [Left, different] using known block client bytes has

/-- A client finds in its block what the calls have left there. -/
theorem left_of_run (run : (heap Client Block Byte).Run history store)
    (has : store block = some (client, bytes)) :
    Left (TransitionSystem.actions history) block bytes := by
  induction run generalizing block client bytes with
  | start initial =>
    rw [show _ = _ from initial] at has
    cases has
  | step run taken ih => exact Step.left taken (fun _ _ _ => ih) has

end BlockStore

end NvidiaHaiku.Math
