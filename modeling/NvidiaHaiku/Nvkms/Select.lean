/-
# Waiting for events of NVKMS

NVKMS tells a device handle when its event queue becomes empty or gets an event. The handle
keeps that as a flag, and notifies its select pool when the flag is set. A client that
starts to wait is notified at once if the flag is set already. All of this happens under
`fSelectPoolMutex`, so the calls come one after another.

Readiness is level-triggered: while events are available, every entry of the pool has been
notified since it was added and since they became available.
-/

import NvidiaHaiku.Libc.Constants
import NvidiaHaiku.Math.Transition
import NvidiaHaiku.Math.Waiting

namespace NvidiaHaiku.Nvkms

open NvidiaHaiku.Math TransitionSystem
open NvidiaHaiku.Libc (B_SELECT_READ SelectStatus)

/-- The fields of `NvHaikuKmsDeviceHandle` that say who waits for what. -/
structure NvHaikuKmsDeviceHandle (κ : Type*) where
  fEventsAvailable : Bool := false
  fSelectPool : Pool κ := {}
  /-- When `fEventsAvailable` last changed from false to true. -/
  raised : ℕ := 0

variable {κ : Type*} [DecidableEq κ]

namespace NvHaikuKmsDeviceHandle

/-- `NvHaikuKmsDeviceHandle::EventQueueChanged`. -/
def eventQueueChanged (h : NvHaikuKmsDeviceHandle κ) (eventsAvailable : Bool) :
    NvHaikuKmsDeviceHandle κ :=
  let h := { h with
    fEventsAvailable := eventsAvailable
    fSelectPool := h.fSelectPool.tick
    raised := if eventsAvailable && !h.fEventsAvailable then h.fSelectPool.tick.now else h.raised }
  if h.fEventsAvailable then { h with fSelectPool := h.fSelectPool.notifyAll } else h

/-- `NvHaikuKmsDeviceHandle::Select`, with the answer of `add_select_sync_pool_entry`. -/
def select (h : NvHaikuKmsDeviceHandle κ) (event : BitVec 8) (sync : κ) (added : Bool) :
    NvHaikuKmsDeviceHandle κ × SelectStatus :=
  if event ≠ B_SELECT_READ then (h, .badValue)
  else if !added then (h, .failed)
  else
    let h := { h with fSelectPool := h.fSelectPool.add sync }
    if h.fEventsAvailable then ({ h with fSelectPool := h.fSelectPool.notify sync }, .ok)
    else (h, .ok)

/-- `NvHaikuKmsDeviceHandle::Deselect`, with the answer of `remove_select_sync_pool_entry`. -/
def deselect (h : NvHaikuKmsDeviceHandle κ) (event : BitVec 8) (sync : κ) (removed : Bool) :
    NvHaikuKmsDeviceHandle κ × SelectStatus :=
  if event ≠ B_SELECT_READ then (h, .badValue)
  else if !removed then (h, .failed)
  else ({ h with fSelectPool := h.fSelectPool.remove sync }, .ok)

end NvHaikuKmsDeviceHandle

/-- A call, with the answer of the pool. -/
inductive SelectCall (κ : Type*)
  | eventQueueChanged (eventsAvailable : Bool)
  | select (event : BitVec 8) (sync : κ) (added : Bool)
  | deselect (event : BitVec 8) (sync : κ) (removed : Bool)
  deriving DecidableEq, Repr

/-- One call, under `fSelectPoolMutex`. -/
def NvHaikuKmsDeviceHandle.step (h : NvHaikuKmsDeviceHandle κ) :
    SelectCall κ → Option (NvHaikuKmsDeviceHandle κ)
  | .eventQueueChanged eventsAvailable => some (h.eventQueueChanged eventsAvailable)
  | .select event sync added => some (h.select event sync added).1
  | .deselect event sync removed => some (h.deselect event sync removed).1

/-- One device handle, with calls of any number of threads. -/
def selecting (κ : Type*) [DecidableEq κ] :
    TransitionSystem (NvHaikuKmsDeviceHandle κ) (SelectCall κ) :=
  .ofStep (· = {}) NvHaikuKmsDeviceHandle.step

variable {h t : NvHaikuKmsDeviceHandle κ} {a : SelectCall κ}

/-- While events are available, every entry has been notified since it was added and since
they became available. -/
def NvHaikuKmsDeviceHandle.LevelTriggered (h : NvHaikuKmsDeviceHandle κ) : Prop :=
  h.fEventsAvailable = true → h.fSelectPool.Informed h.raised

/-- An entry is only notified while events are available. -/
def NotifiesAvailable (e : Event (NvHaikuKmsDeviceHandle κ) (SelectCall κ)) : Prop :=
  ∀ k, e.target.fSelectPool.notified k ≠ e.source.fSelectPool.notified k →
    e.target.fEventsAvailable = true

/-- What holds after every call. -/
structure NvHaikuKmsDeviceHandle.Sound (h : NvHaikuKmsDeviceHandle κ) : Prop where
  timed : h.fSelectPool.Timed
  raised : h.raised ≤ h.fSelectPool.now
  level : h.LevelTriggered

namespace NvHaikuKmsDeviceHandle

theorem Sound.eventQueueChanged (sound : h.Sound) (eventsAvailable : Bool) :
    (h.eventQueueChanged eventsAvailable).Sound ∧
      NotifiesAvailable ⟨h, .eventQueueChanged eventsAvailable,
        h.eventQueueChanged eventsAvailable⟩ := by
  obtain ⟨timed, raised, -⟩ := sound
  have marked : (if eventsAvailable && !h.fEventsAvailable then h.fSelectPool.tick.now
      else h.raised) ≤ h.fSelectPool.now + 1 := by
    split
    · exact le_rfl
    · exact Nat.le_succ_of_le raised
  cases eventsAvailable with
  | false =>
    exact ⟨⟨timed.tick, Nat.le_succ_of_le raised, fun available => by cases available⟩,
      fun k changed => absurd rfl changed⟩
  | true =>
    exact ⟨⟨timed.tick.notifyWhere _, Nat.le_succ_of_le marked,
      fun _ => Pool.informed_notifyAll timed.tick marked⟩, fun _ _ => rfl⟩

theorem Sound.select (sound : h.Sound) (event : BitVec 8) (sync : κ) (added : Bool) :
    (h.select event sync added).1.Sound ∧
      NotifiesAvailable ⟨h, .select event sync added, (h.select event sync added).1⟩ := by
  have before := sound
  obtain ⟨timed, raised, level⟩ := sound
  unfold NvHaikuKmsDeviceHandle.select
  split
  · exact ⟨before, fun k changed => absurd rfl changed⟩
  split
  · exact ⟨before, fun k changed => absurd rfl changed⟩
  dsimp only
  split
  · rename_i available
    refine ⟨⟨(timed.add sync).notifyWhere _, ?_, fun _ => ?_⟩, fun _ _ => available⟩
    · exact Nat.le_succ_of_le (Nat.le_succ_of_le raised)
    · exact (level available).add_notify raised sync
  · rename_i unavailable
    refine ⟨⟨timed.add sync, Nat.le_succ_of_le raised, ?_⟩, fun k changed => absurd rfl changed⟩
    exact fun available => absurd available unavailable

theorem Sound.deselect (sound : h.Sound) (event : BitVec 8) (sync : κ) (removed : Bool) :
    (h.deselect event sync removed).1.Sound ∧
      NotifiesAvailable ⟨h, .deselect event sync removed, (h.deselect event sync removed).1⟩ := by
  have before := sound
  obtain ⟨timed, raised, level⟩ := sound
  unfold NvHaikuKmsDeviceHandle.deselect
  split
  · exact ⟨before, fun k changed => absurd rfl changed⟩
  split
  · exact ⟨before, fun k changed => absurd rfl changed⟩
  · exact ⟨⟨timed.remove sync, Nat.le_succ_of_le raised,
      fun available => (level available).remove sync⟩, fun k changed => absurd rfl changed⟩

theorem Sound.step (sound : h.Sound) (taken : h.step a = some t) :
    t.Sound ∧ NotifiesAvailable ⟨h, a, t⟩ := by
  cases a with
  | eventQueueChanged eventsAvailable =>
    obtain rfl := Option.some.inj taken
    exact sound.eventQueueChanged eventsAvailable
  | select event sync added =>
    obtain rfl := Option.some.inj taken
    exact sound.select event sync added
  | deselect event sync removed =>
    obtain rfl := Option.some.inj taken
    exact sound.deselect event sync removed

omit [DecidableEq κ] in
theorem sound_empty : ({} : NvHaikuKmsDeviceHandle κ).Sound :=
  ⟨Pool.timed_empty, le_rfl, fun available => by cases available⟩

end NvHaikuKmsDeviceHandle

/-- Readiness over whole runs: it is level-triggered after every call, and no call notifies an
entry while no events are available. -/
theorem levelTriggered_of_run {past : List (Event (NvHaikuKmsDeviceHandle κ) (SelectCall κ))}
    (run : (selecting κ).Run past h) : h.LevelTriggered ∧ Every NotifiesAvailable past := by
  suffices sound : h.Sound ∧ Every NotifiesAvailable past from ⟨sound.1.level, sound.2⟩
  induction run with
  | start first =>
    rw [show _ = _ from first]
    exact ⟨NvHaikuKmsDeviceHandle.sound_empty, every_nil⟩
  | step run taken ih =>
    obtain ⟨sound, notifies⟩ := ih.1.step taken
    exact ⟨sound, every_cons.mpr ⟨notifies, ih.2⟩⟩

/-- One client waits for the first event, and another one comes when it is there. -/
theorem levelTriggered_latecomer : ∃ past h, (selecting Bool).Run past h ∧
    h.fEventsAvailable = true ∧ h.fSelectPool.entries = {true, false} ∧
      h.LevelTriggered ∧ Every NotifiesAvailable past := by
  have run := (Run.start (T := selecting Bool) rfl).play
    [.select B_SELECT_READ true true, .select B_SELECT_READ false false,
      .eventQueueChanged true, .select B_SELECT_READ false true] rfl
  exact ⟨_, _, run, rfl, by decide, levelTriggered_of_run run⟩

end NvidiaHaiku.Nvkms
