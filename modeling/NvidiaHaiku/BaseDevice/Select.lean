/-
# Waiting for events of the RM

`nv_post_event` tells a handle of an event without data in two steps. It sets
`fDatalessEventPending`, and then notifies the entries of the select pool under
`fSelectPoolMutex`. A client that starts to wait adds its entry to the pool under the
mutex, clears the flag, and is notified at once if the flag was set. The flag is outside the
mutex, and any number of events are posted at the same time, so it may be set at any
moment, also between the two halves of `Select`.

This module is the system of any number of events posted and of clients on one handle.
`NotifySelectPool` and `Deselect` are one step each, and `Select` is one for each of its
halves, the mutex being held in between.
-/

import Mathlib.Data.Finset.Lattice.Basic
import NvidiaHaiku.Libc.Constants
import NvidiaHaiku.Math.Transition
import NvidiaHaiku.Math.Waiting

namespace NvidiaHaiku.BaseDevice.Select

open NvidiaHaiku.Math TransitionSystem
open NvidiaHaiku.Libc (B_SELECT_READ SelectStatus)

/-- Where a call of `nv_post_event` is. -/
inductive PostPc
  | outside
  | begun (data_valid : Bool)
  /-- Past `SetDatalessEventPending`, and about to call `NotifySelectPool`. -/
  | flagged (data_valid : Bool)
  | returned (data_valid : Bool)
  deriving DecidableEq, Repr

/-- A handle with its select pool, and the calls of `nv_post_event` for it. -/
structure State (ι κ : Type*) where
  fDatalessEventPending : Bool := false
  fSelectPool : Pool κ := {}
  /-- The entry of the `Select` that holds `fSelectPoolMutex` and is about to clear the flag. -/
  selecting : Option κ := none
  posts : ι → PostPc := fun _ => .outside
  /-- When each call of `nv_post_event` began. -/
  began : ι → ℕ := fun _ => 0
  /-- The calls that have begun. -/
  begun : Finset ι := ∅

/-- A step of a call, between two places where others come in. -/
inductive Action (ι κ : Type*)
  | beginPost (i : ι) (data_valid : Bool)
  /-- `SetDatalessEventPending`, unless there is data. -/
  | setPending (i : ι)
  | notifySelectPool (i : ι)
  /-- `Select` up to `add_select_sync_pool_entry`, with the answer of that. -/
  | select (event : BitVec 8) (sync : κ) (added : Bool)
  /-- The rest of a `Select` that has added its entry. -/
  | exchange
  | deselect (event : BitVec 8) (sync : κ) (removed : Bool)
  deriving DecidableEq, Repr

variable {ι κ : Type*} [DecidableEq ι] [DecidableEq κ]

namespace State

/-- Call `i` goes on to `pc`. -/
def goto (s : State ι κ) (i : ι) (pc : PostPc) : State ι κ :=
  { s with posts := Function.update s.posts i pc }

/-- The entry of some client is waiting to be notified. -/
def AnyWaiting (s : State ι κ) : Prop := ∃ k ∈ s.fSelectPool.entries, s.fSelectPool.Waiting k

instance (s : State ι κ) : Decidable s.AnyWaiting :=
  inferInstanceAs (Decidable (∃ k ∈ s.fSelectPool.entries, s.fSelectPool.Waiting k))

/-- `NvHaikuBaseDeviceHandle::NotifySelectPool`. -/
def notifySelectPool (s : State ι κ) : State ι κ :=
  { s with fSelectPool := s.fSelectPool.notifyAll }

/-- `NvHaikuBaseDeviceHandle::Select` up to `add_select_sync_pool_entry`. -/
def selectAdd (s : State ι κ) (event : BitVec 8) (sync : κ) (added : Bool) :
    State ι κ × SelectStatus :=
  if event ≠ B_SELECT_READ then (s, .badValue)
  else if !added then (s, .failed)
  else ({ s with fSelectPool := s.fSelectPool.add sync, selecting := some sync }, .ok)

/-- The rest of `NvHaikuBaseDeviceHandle::Select`. -/
def selectExchange (s : State ι κ) (sync : κ) : State ι κ :=
  let cleared := { s with fDatalessEventPending := false, selecting := none }
  if s.fDatalessEventPending then
    { cleared with fSelectPool := s.fSelectPool.notify sync }
  else cleared

/-- `NvHaikuBaseDeviceHandle::Deselect`. -/
def deselect (s : State ι κ) (event : BitVec 8) (sync : κ) (removed : Bool) :
    State ι κ × SelectStatus :=
  if event ≠ B_SELECT_READ then (s, .badValue)
  else if !removed then (s, .failed)
  else ({ s with fSelectPool := s.fSelectPool.remove sync }, .ok)

/-- One step of an event posted or of a client. A call of `nv_post_event` has a name of its
own. -/
def step (s : State ι κ) : Action ι κ → Option (State ι κ)
  | .beginPost i data_valid =>
    if s.posts i = .outside then
      some { s.goto i (.begun data_valid) with
        fSelectPool := s.fSelectPool.tick
        began := Function.update s.began i s.fSelectPool.tick.now
        begun := insert i s.begun }
    else none
  | .setPending i =>
    match s.posts i with
    | .begun true => some (s.goto i (.flagged true))
    | .begun false => some { s.goto i (.flagged false) with fDatalessEventPending := true }
    | _ => none
  | .notifySelectPool i =>
    match s.posts i with
    | .flagged data_valid =>
      if s.selecting = none then some (s.notifySelectPool.goto i (.returned data_valid))
      else none
    | _ => none
  | .select event sync added =>
    if s.selecting = none then some (s.selectAdd event sync added).1 else none
  | .exchange => s.selecting.map s.selectExchange
  | .deselect event sync removed =>
    if s.selecting = none then some (s.deselect event sync removed).1 else none

/-! ## The moves

`Moves s a t` is `s.step a = some t` with the branches told apart. -/

/-- Everything a step can do, with its guards. -/
inductive Moves (s : State ι κ) : Action ι κ → State ι κ → Prop
  | beginPost {i : ι} (data_valid : Bool) (outside : s.posts i = .outside) :
      Moves s (.beginPost i data_valid) { s.goto i (.begun data_valid) with
        fSelectPool := s.fSelectPool.tick
        began := Function.update s.began i s.fSelectPool.tick.now
        begun := insert i s.begun }
  | setNothing {i : ι} (begun : s.posts i = .begun true) :
      Moves s (.setPending i) (s.goto i (.flagged true))
  | setPending {i : ι} (begun : s.posts i = .begun false) :
      Moves s (.setPending i) { s.goto i (.flagged false) with fDatalessEventPending := true }
  | notifySelectPool {i : ι} {data_valid : Bool} (flagged : s.posts i = .flagged data_valid)
      (unheld : s.selecting = none) :
      Moves s (.notifySelectPool i) (s.notifySelectPool.goto i (.returned data_valid))
  | selectFails {event : BitVec 8} {sync : κ} {added : Bool} (unheld : s.selecting = none) :
      Moves s (.select event sync added) s
  | select {event : BitVec 8} {sync : κ} {added : Bool} (unheld : s.selecting = none) :
      Moves s (.select event sync added)
        { s with fSelectPool := s.fSelectPool.add sync, selecting := some sync }
  | exchangeSet {sync : κ} (selecting : s.selecting = some sync)
      (pending : s.fDatalessEventPending = true) :
      Moves s .exchange { s with
        fDatalessEventPending := false, selecting := none
        fSelectPool := s.fSelectPool.notify sync }
  | exchangeClear {sync : κ} (selecting : s.selecting = some sync)
      (clear : s.fDatalessEventPending = false) :
      Moves s .exchange { s with fDatalessEventPending := false, selecting := none }
  | deselectFails {event : BitVec 8} {sync : κ} {removed : Bool} (unheld : s.selecting = none) :
      Moves s (.deselect event sync removed) s
  | deselect {event : BitVec 8} {sync : κ} {removed : Bool} (unheld : s.selecting = none) :
      Moves s (.deselect event sync removed)
        { s with fSelectPool := s.fSelectPool.remove sync }

variable {s t : State ι κ} {a : Action ι κ}

theorem moves_of_step (taken : s.step a = some t) : Moves s a t := by
  cases a with
  | beginPost i data_valid =>
    obtain ⟨outside, rfl⟩ := of_guarded taken
    exact .beginPost data_valid outside
  | setPending i =>
    simp only [step] at taken
    split at taken
    · obtain rfl := Option.some.inj taken
      exact .setNothing ‹_›
    · obtain rfl := Option.some.inj taken
      exact .setPending ‹_›
    · cases taken
  | notifySelectPool i =>
    simp only [step] at taken
    split at taken
    · obtain ⟨unheld, rfl⟩ := of_guarded taken
      exact .notifySelectPool ‹_› unheld
    · cases taken
  | select event sync added =>
    obtain ⟨unheld, rfl⟩ := of_guarded taken
    -- another event and a failing addition to the pool both change nothing
    unfold selectAdd
    split
    · exact .selectFails unheld
    split
    · exact .selectFails unheld
    · exact .select unheld
  | exchange =>
    obtain ⟨sync, selecting, rfl⟩ := Option.map_eq_some_iff.mp taken
    unfold selectExchange
    cases pending : s.fDatalessEventPending with
    | true => exact .exchangeSet selecting pending
    | false => exact .exchangeClear selecting pending
  | deselect event sync removed =>
    obtain ⟨unheld, rfl⟩ := of_guarded taken
    unfold deselect
    split
    · exact .deselectFails unheld
    split
    · exact .deselectFails unheld
    · exact .deselect unheld

end State

/-- One handle, with events `ι` posted and clients with entries `κ`. -/
def posting (ι κ : Type*) [DecidableEq ι] [DecidableEq κ] :
    TransitionSystem (State ι κ) (Action ι κ) :=
  .ofStep (· = {}) State.step

/-! ## No event is lost -/

variable {s t : State ι κ} {a : Action ι κ} {past : List (Event (State ι κ) (Action ι κ))}

/-- Every event without data that has been posted is still pending, or some entry has been
notified since `nv_post_event` began. -/
def State.Kept (s : State ι κ) : Prop :=
  ∀ i, s.posts i = .returned false →
    s.fDatalessEventPending = true ∨ ∃ k, s.began i < s.fSelectPool.notified k

/-- A `Select` that finds the flag set notifies its caller. -/
def Delivers (e : Event (State ι κ) (Action ι κ)) : Prop :=
  e.action = .exchange → e.source.fDatalessEventPending = true →
    ∃ k, e.source.selecting = some k ∧ e.source.fSelectPool.now < e.target.fSelectPool.notified k

/-- What holds in every state. -/
structure State.Sound (s : State ι κ) : Prop where
  timed : s.fSelectPool.Timed
  began : ∀ i, s.began i ≤ s.fSelectPool.now
  /-- A `Select` has added its entry. -/
  selecting : ∀ k, s.selecting = some k → k ∈ s.fSelectPool.entries
  told : ∀ i, s.posts i = .flagged false ∨ s.posts i = .returned false →
    s.fDatalessEventPending = true ∨ ∃ k, s.began i < s.fSelectPool.notified k

omit [DecidableEq ι] [DecidableEq κ] in
/-- A post that is told of stays so while the flag and the notifications do. -/
theorem State.Sound.told_mono (sound : s.Sound) {pool : Pool κ}
    (later : ∀ k, s.fSelectPool.notified k ≤ pool.notified k) (i : ι)
    (posted : s.posts i = .flagged false ∨ s.posts i = .returned false) :
    s.fDatalessEventPending = true ∨ ∃ k, s.began i < pool.notified k :=
  (sound.told i posted).imp_right fun ⟨k, notified⟩ => ⟨k, notified.trans_le (later k)⟩

theorem State.Sound.step (sound : s.Sound) (taken : s.step a = some t) : t.Sound := by
  have before := sound
  obtain ⟨timed, began, selecting, told⟩ := sound
  cases State.moves_of_step taken with
  | @beginPost i data_valid outside =>
    refine ⟨timed.tick, fun j => ?_, selecting, fun j posted => ?_⟩
    · show Function.update s.began i (s.fSelectPool.now + 1) j ≤ s.fSelectPool.now + 1
      rw [Function.update_apply]
      split
      · exact le_rfl
      · exact Nat.le_succ_of_le (began j)
    · by_cases same : j = i
      · subst same
        simp [State.goto] at posted
      · simp only [State.goto, Function.update_of_ne same] at posted ⊢
        exact told j posted
  | @setNothing i begun =>
    refine ⟨timed, began, selecting, fun j posted => ?_⟩
    by_cases same : j = i
    · subst same
      simp [State.goto] at posted
    · simp only [State.goto, Function.update_of_ne same] at posted
      exact told j posted
  | setPending => exact ⟨timed, began, selecting, fun _ _ => Or.inl rfl⟩
  | @notifySelectPool i data_valid flagged unheld =>
    refine ⟨timed.notifyWhere _, fun j => Nat.le_succ_of_le (began j), selecting,
      fun j posted => before.told_mono (timed.notified_le _) j ?_⟩
    by_cases same : j = i
    · subst same
      simp only [State.goto, Function.update_self, reduceCtorEq, false_or,
        PostPc.returned.injEq] at posted
      exact Or.inl (posted ▸ flagged)
    · simpa only [State.goto, State.notifySelectPool, Function.update_of_ne same] using posted
  | @select event sync added unheld =>
    refine ⟨timed.add sync, fun j => Nat.le_succ_of_le (began j), fun k same => ?_, told⟩
    obtain rfl := Option.some.inj same
    exact Finset.mem_insert_self ..
  | @exchangeSet sync held pending =>
    -- every event posted began before this notification
    refine ⟨timed.notifyWhere _, fun j => Nat.le_succ_of_le (began j),
      (fun k none => by cases none), fun j _ => Or.inr ⟨sync, ?_⟩⟩
    rw [Pool.notify_notified, if_pos rfl]
    exact Nat.lt_succ_of_le (began j)
  | exchangeClear held clear =>
    refine ⟨timed, began, (fun k none => by cases none), fun j posted => Or.inr ?_⟩
    exact (told j posted).resolve_left (by simp [clear])
  | @deselect event sync removed unheld =>
    exact ⟨timed.remove sync, fun j => Nat.le_succ_of_le (began j),
      fun k held => by simp [unheld] at held, told⟩
  | selectFails | deselectFails => exact ⟨timed, began, selecting, told⟩

theorem sound_of_reachable (reached : (posting ι κ).Reachable s) : s.Sound :=
  reached.invariant (fun _ first => by
    rw [show _ = ({} : State ι κ) from first]
    exact ⟨Pool.timed_empty, fun _ => le_rfl, by simp, by simp⟩)
    fun _ _ _ sound taken => sound.step taken

omit [DecidableEq ι] [DecidableEq κ] in
theorem State.Sound.kept (sound : s.Sound) : s.Kept := fun i returned =>
  sound.told i (Or.inr returned)

end NvidiaHaiku.BaseDevice.Select
