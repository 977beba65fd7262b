/-
# Entries that wait to be notified

A pool keeps the entries that want to hear of something. An entry is added, it is notified,
alone or with all others, and it is removed. The pool counts its operations, and keeps for
each entry when it was last added and last notified. An entry waits from the time it is
added until it is notified. Each time it has been added it is answered at most once, by the
first notification after that.

What is said of a pool with a condition that comes and goes is that every entry is informed:
it has been notified since it was added, and since the condition last came.
-/

import Mathlib.Data.Finset.Erase
import Mathlib.Data.Finset.Insert

namespace NvidiaHaiku.Math

/-- The entries that want to hear of something. -/
structure Pool (κ : Type*) where
  entries : Finset κ := ∅
  /-- The number of operations so far. -/
  now : ℕ := 0
  /-- When each entry was last added. -/
  added : κ → ℕ := fun _ => 0
  /-- When each entry was last notified. -/
  notified : κ → ℕ := fun _ => 0
  /-- How often each entry has been notified for the first time since it was added. -/
  answered : κ → ℕ := fun _ => 0

namespace Pool

variable {κ : Type*} [DecidableEq κ] {p : Pool κ} {k l : κ} {since : ℕ}

/-- The entry has not been notified since it was added. -/
def Waiting (p : Pool κ) (k : κ) : Prop := p.notified k < p.added k

instance : Decidable (p.Waiting k) := inferInstanceAs (Decidable (p.notified k < p.added k))

/-- Something happens outside the pool. -/
def tick (p : Pool κ) : Pool κ := { p with now := p.now + 1 }

/-- The entry is added, or added again. -/
def add (p : Pool κ) (k : κ) : Pool κ :=
  { p with
    entries := insert k p.entries
    now := p.now + 1
    added := Function.update p.added k (p.now + 1) }

/-- The entry is removed. -/
def remove (p : Pool κ) (k : κ) : Pool κ :=
  { p with entries := p.entries.erase k, now := p.now + 1 }

/-- The entries in `who` are notified. -/
def notifyWhere (p : Pool κ) (who : κ → Prop) [DecidablePred who] : Pool κ :=
  { p with
    now := p.now + 1
    notified := fun k => if who k then p.now + 1 else p.notified k
    answered := fun k => if who k ∧ p.Waiting k then p.answered k + 1 else p.answered k }

/-- One entry is notified. -/
def notify (p : Pool κ) (k : κ) : Pool κ := p.notifyWhere (· = k)

/-- All entries are notified. -/
def notifyAll (p : Pool κ) : Pool κ := p.notifyWhere (· ∈ p.entries)

/-! ## The fields after each operation -/

section Fields

variable (p k l) (who : κ → Prop) [DecidablePred who]

@[simp] theorem add_now : (p.add k).now = p.now + 1 := rfl

@[simp] theorem notify_notified :
    (p.notify k).notified l = if l = k then p.now + 1 else p.notified l := rfl

@[simp] theorem notifyAll_notified :
    p.notifyAll.notified l = if l ∈ p.entries then p.now + 1 else p.notified l := rfl

omit [DecidableEq κ] in
/-- A notification answers at most once. -/
theorem notifyWhere_answered_le : (p.notifyWhere who).answered l ≤ p.answered l + 1 := by
  show (if who l ∧ p.Waiting l then p.answered l + 1 else p.answered l) ≤ p.answered l + 1
  split
  · exact le_rfl
  · exact Nat.le_succ _

end Fields

/-- Nothing is answered by notifying entries that do not wait. -/
theorem notifyAll_answered_of_not_waiting (settled : ¬ (k ∈ p.entries ∧ p.Waiting k)) :
    p.notifyAll.answered k = p.answered k := if_neg settled

/-! ## Time -/

/-- Nothing has been recorded for a later time. -/
structure Timed (p : Pool κ) : Prop where
  added : ∀ k, p.added k ≤ p.now
  notified : ∀ k, p.notified k ≤ p.now

omit [DecidableEq κ] in
theorem timed_empty : ({} : Pool κ).Timed := ⟨fun _ => le_rfl, fun _ => le_rfl⟩

omit [DecidableEq κ] in
theorem Timed.tick (timed : p.Timed) : p.tick.Timed :=
  ⟨fun k => Nat.le_succ_of_le (timed.added k), fun k => Nat.le_succ_of_le (timed.notified k)⟩

theorem Timed.add (timed : p.Timed) (k : κ) : (p.add k).Timed := by
  refine ⟨fun l => ?_, fun l => Nat.le_succ_of_le (timed.notified l)⟩
  show Function.update p.added k (p.now + 1) l ≤ p.now + 1
  rw [Function.update_apply]
  split
  · exact le_rfl
  · exact Nat.le_succ_of_le (timed.added l)

theorem Timed.remove (timed : p.Timed) (k : κ) : (p.remove k).Timed :=
  ⟨fun l => Nat.le_succ_of_le (timed.added l), fun l => Nat.le_succ_of_le (timed.notified l)⟩

omit [DecidableEq κ] in
theorem Timed.notifyWhere (timed : p.Timed) (who : κ → Prop) [DecidablePred who] :
    (p.notifyWhere who).Timed := by
  refine ⟨fun l => Nat.le_succ_of_le (timed.added l), fun l => ?_⟩
  show (if who l then p.now + 1 else p.notified l) ≤ p.now + 1
  split
  · exact le_rfl
  · exact Nat.le_succ_of_le (timed.notified l)

omit [DecidableEq κ] in
/-- The time of the last notification of an entry only grows. -/
theorem Timed.notified_le (timed : p.Timed) (who : κ → Prop) [DecidablePred who] (k : κ) :
    p.notified k ≤ (p.notifyWhere who).notified k := by
  show p.notified k ≤ if who k then p.now + 1 else p.notified k
  split
  · exact Nat.le_succ_of_le (timed.notified k)
  · exact le_rfl

/-! ## Informed entries -/

/-- Every entry has been notified since it was added and since the time `since`. -/
def Informed (p : Pool κ) (since : ℕ) : Prop :=
  ∀ k ∈ p.entries, max (p.added k) since ≤ p.notified k

theorem Informed.remove (informed : p.Informed since) (k : κ) : (p.remove k).Informed since :=
  fun l member => informed l (Finset.mem_of_mem_erase member)

/-- Notifying all entries informs them. -/
theorem informed_notifyAll (timed : p.Timed) (past : since ≤ p.now) :
    p.notifyAll.Informed since := by
  intro k member
  have entry : k ∈ p.entries := member
  rw [notifyAll_notified, if_pos entry]
  exact Nat.le_succ_of_le (max_le (timed.added k) past)

/-- An entry that is added is informed by a notification of its own. -/
theorem Informed.add_notify (informed : p.Informed since) (past : since ≤ p.now) (k : κ) :
    ((p.add k).notify k).Informed since := by
  intro l member
  have added : ((p.add k).notify k).added l = Function.update p.added k (p.now + 1) l := rfl
  rw [notify_notified, added]
  by_cases same : l = k
  · subst same
    rw [if_pos rfl, Function.update_self, add_now]
    omega
  · rw [if_neg same, Function.update_of_ne same]
    exact informed l ((Finset.mem_insert.mp member).resolve_left same)

end Pool

end NvidiaHaiku.Math
