/-
# Events that are reported twice

An event without data reaches a client by two routes: `NotifySelectPool` notifies the entry
that is waiting, and the pending flag notifies the next `Select`. `NotifySelectPool` does
not clear the flag, and clearing the flag does not keep the same call of `nv_post_event`
from going on to `NotifySelectPool`. So one event may end two rounds of a client.

One client is on the handle here. As long as no call of `nv_post_event` reaches it by both
routes, there are no more rounds that end in a notification than calls.
-/

import Mathlib.Data.Finset.Card
import NvidiaHaiku.BaseDevice.Select

namespace NvidiaHaiku.BaseDevice.Select

open NvidiaHaiku.Math TransitionSystem
open NvidiaHaiku.Libc (B_SELECT_READ)

variable {ι : Type*} [DecidableEq ι] {s t : State ι Unit} {a : Action ι Unit}
  {past : List (Event (State ι Unit) (Action ι Unit))}

/-- The rounds of the client that have ended in a notification. -/
def State.rounds (s : State ι Unit) : ℕ := s.fSelectPool.answered ()

/-- The client only begins or ends a round when it is not waiting, and no event has data. -/
def State.Orderly (s : State ι Unit) : Action ι Unit → Prop
  | .select .. | .deselect .. => ¬ s.AnyWaiting
  | .beginPost _ data_valid => data_valid = false
  | .setPending _ | .notifySelectPool _ | .exchange => True

instance : (a : Action ι Unit) → Decidable (s.Orderly a)
  | .select .. | .deselect .. => inferInstanceAs (Decidable (¬ s.AnyWaiting))
  | .beginPost _ data_valid => inferInstanceAs (Decidable (data_valid = false))
  | .setPending _ | .notifySelectPool _ | .exchange => isTrue trivial

/-! ## The two routes -/

/-- Call `i` sets the flag. -/
def SetBy (i : ι) (e : Event (State ι Unit) (Action ι Unit)) : Prop :=
  e.action = .setPending i ∧ e.source.posts i = .begun false

instance (i : ι) (e : Event (State ι Unit) (Action ι Unit)) : Decidable (SetBy i e) :=
  inferInstanceAs (Decidable (_ ∧ _))

/-- Some call sets the flag. -/
def Sets (e : Event (State ι Unit) (Action ι Unit)) : Prop := ∃ i, SetBy i e

instance [Fintype ι] (e : Event (State ι Unit) (Action ι Unit)) : Decidable (Sets e) :=
  inferInstanceAs (Decidable (∃ i, SetBy i e))

/-- A `Select` finds the flag set. -/
def Consumes (e : Event (State ι Unit) (Action ι Unit)) : Prop :=
  e.action = .exchange ∧ e.source.fDatalessEventPending = true

instance : DecidablePred (Consumes (ι := ι)) := fun _ => inferInstanceAs (Decidable (_ ∧ _))

/-- The step is a call of `NotifySelectPool`. -/
def Action.isNotifySelectPool : Action ι Unit → Bool
  | notifySelectPool _ => true
  | _ => false

/-- `NotifySelectPool` finds the client waiting. -/
def NotifiesWaiting (e : Event (State ι Unit) (Action ι Unit)) : Prop :=
  e.action.isNotifySelectPool = true ∧ e.source.AnyWaiting

instance : DecidablePred (NotifiesWaiting (ι := ι)) :=
  fun _ => inferInstanceAs (Decidable (_ ∧ _))

/-- A `Select` finds the flag set only if it has been set since `NotifySelectPool` last found
the client waiting. `NotifySelectPool` of a call finds the client waiting only if no `Select`
has found the flag set since the call was at `SetDatalessEventPending`. -/
def OneRoute (past : List (Event (State ι Unit) (Action ι Unit)))
    (e : Event (State ι Unit) (Action ι Unit)) : Prop :=
  (Consumes e → ∃ e' ∈ since NotifiesWaiting past, Sets e') ∧
    (e.source.AnyWaiting → ∀ i, e.action = .notifySelectPool i →
      Every (¬ Consumes ·) (since (·.action = .setPending i) past))

instance [Fintype ι] (past : List (Event (State ι Unit) (Action ι Unit)))
    (e : Event (State ι Unit) (Action ι Unit)) : Decidable (OneRoute past e) :=
  inferInstanceAs (Decidable (_ ∧ _))

/-! ## Charging the rounds -/

/-- The client has been notified, by one route or the other. -/
def Reports (e : Event (State ι Unit) (Action ι Unit)) : Prop := NotifiesWaiting e ∨ Consumes e

instance : DecidablePred (Reports (ι := ι)) := fun _ => inferInstanceAs (Decidable (_ ∨ _))

/-- The call is past `SetDatalessEventPending`. -/
def PostPc.HasSet : PostPc → Prop
  | flagged _ | returned _ => True
  | outside | begun _ => False

/-- Each round that has ended in a notification is charged to a call of its own. -/
structure Charged (past : List (Event (State ι Unit) (Action ι Unit))) (s : State ι Unit)
    (charge : Finset ι) : Prop where
  rounds : s.rounds ≤ charge.card
  hasSet : ∀ i ∈ charge, (s.posts i).HasSet
  /-- A call that is charged and has not notified yet has had its flag consumed. -/
  consumed : ∀ i ∈ charge, ∀ data_valid, s.posts i = .flagged data_valid →
    ∃ e ∈ since (·.action = .setPending i) past, Consumes e
  /-- What has set a flag that is still set has not been consumed. -/
  fresh : s.fDatalessEventPending = true → (∃ e ∈ since NotifiesWaiting past, Sets e) →
    ∃ e ∈ since Reports past, Sets e
  /-- The calls that have set the flag since the last report can still be charged. -/
  free : ∀ e ∈ since Reports past, ∀ i, SetBy i e → (s.posts i).HasSet ∧ i ∉ charge

variable {charge : Finset ι}

theorem charged_empty : Charged [] ({} : State ι Unit) ∅ where
  rounds := le_rfl
  hasSet := by simp
  consumed := by simp
  fresh unset := by cases unset
  free := by simp [since]

/-- A step that neither sets the flag nor reports leaves the charges as they are. -/
theorem Charged.extend (charged : Charged past s charge) (quiet : ¬ Reports ⟨s, a, t⟩)
    (sets : ¬ Sets ⟨s, a, t⟩) (rounds : t.rounds = s.rounds)
    (pending : t.fDatalessEventPending = true → s.fDatalessEventPending = true)
    (hasSet : ∀ i, (s.posts i).HasSet → (t.posts i).HasSet)
    (flagged : ∀ i ∈ charge, ∀ data_valid, t.posts i = .flagged data_valid →
      s.posts i = .flagged data_valid ∧ a ≠ .setPending i) :
    Charged (⟨s, a, t⟩ :: past) t charge where
  rounds := rounds ▸ charged.rounds
  hasSet i member := hasSet i (charged.hasSet i member)
  consumed i member data_valid at_ := by
    obtain ⟨before, other⟩ := flagged i member data_valid at_
    obtain ⟨e, later, consumes⟩ := charged.consumed i member data_valid before
    rw [since_cons_of_not (by exact other)]
    exact ⟨e, .tail _ later, consumes⟩
  fresh set := by
    rintro ⟨e, later, setting⟩
    rw [since_cons_of_not fun waiting => quiet (Or.inl waiting)] at later
    rw [since_cons_of_not quiet]
    -- what has set the flag came before this step
    have earlier : e ∈ since NotifiesWaiting past := by
      rcases List.mem_cons.mp later with rfl | earlier
      · exact absurd setting sets
      · exact earlier
    obtain ⟨e', later, setting⟩ := charged.fresh (pending set) ⟨e, earlier, setting⟩
    exact ⟨e', .tail _ later, setting⟩
  free e later i setting := by
    rw [since_cons_of_not quiet] at later
    rcases List.mem_cons.mp later with rfl | earlier
    · exact absurd ⟨i, setting⟩ sets
    · exact (charged.free e earlier i setting).imp_left (hasSet i)

/-- A report is charged to a call that is past `SetDatalessEventPending`, and the calls that
have set the flag before it count no more. -/
theorem Charged.report (charged : Charged past s charge) (reports : Reports ⟨s, a, t⟩) {i : ι}
    (new : i ∉ charge) (rounds : t.rounds ≤ s.rounds + 1)
    (hasSet : ∀ j, (s.posts j).HasSet → (t.posts j).HasSet) (own : (t.posts i).HasSet)
    (consumed : ∀ j ∈ insert i charge, ∀ data_valid, t.posts j = .flagged data_valid →
      ∃ e ∈ since (·.action = .setPending j) (⟨s, a, t⟩ :: past), Consumes e)
    (stale : t.fDatalessEventPending = true → NotifiesWaiting ⟨s, a, t⟩) :
    Charged (⟨s, a, t⟩ :: past) t (insert i charge) where
  rounds := by
    rw [Finset.card_insert_of_notMem new]
    exact rounds.trans (Nat.succ_le_succ charged.rounds)
  hasSet j member := by
    rcases Finset.mem_insert.mp member with rfl | member
    · exact own
    · exact hasSet j (charged.hasSet j member)
  consumed := consumed
  fresh set := by
    rintro ⟨e, later, -⟩
    rw [since_cons_of (stale set)] at later
    cases later
  free e later := by
    rw [since_cons_of reports] at later
    cases later

theorem Charged.notifySelectPool (charged : Charged past s charge) {i : ι} {data_valid : Bool}
    (at_ : s.posts i = .flagged data_valid)
    (once : OneRoute past
      ⟨s, .notifySelectPool i, s.notifySelectPool.goto i (.returned data_valid)⟩) :
    ∃ charge, Charged (⟨s, .notifySelectPool i, s.notifySelectPool.goto i (.returned data_valid)⟩
      :: past) (s.notifySelectPool.goto i (.returned data_valid)) charge := by
  have hasSet (j : ι) (set : (s.posts j).HasSet) :
      ((s.notifySelectPool.goto i (.returned data_valid)).posts j).HasSet := by
    by_cases same : j = i
    · simp [State.goto, same, PostPc.HasSet]
    · simpa [State.goto, State.notifySelectPool, Function.update_of_ne same] using set
  have flagged {j : ι} {v : Bool}
      (later : (s.notifySelectPool.goto i (.returned data_valid)).posts j = .flagged v) :
      s.posts j = .flagged v := by
    by_cases same : j = i
    · simp [State.goto, same] at later
    · simpa [State.goto, State.notifySelectPool, Function.update_of_ne same] using later
  by_cases waiting : s.AnyWaiting
  · -- the event has not been reported by the other route, or the client would not wait
    have new : i ∉ charge := by
      intro member
      obtain ⟨e, later, consumes⟩ := charged.consumed i member data_valid at_
      exact once.2 waiting i rfl e later consumes
    refine ⟨_, charged.report (Or.inl ⟨rfl, waiting⟩) new (Pool.notifyWhere_answered_le ..) hasSet
      (hasSet i (by rw [at_]; trivial)) ?_ fun _ => ⟨rfl, waiting⟩⟩
    intro j member v later
    rw [since_cons_of_not (by simp)]
    rcases Finset.mem_insert.mp member with rfl | member
    · simp [State.goto] at later
    · obtain ⟨e, later, consumes⟩ := charged.consumed j member v (flagged later)
      exact ⟨e, .tail _ later, consumes⟩
  · refine ⟨_, charged.extend ?_ ?_ ?_ id hasSet fun j _ v later => ⟨flagged later, by simp⟩⟩
    · rintro (⟨-, both⟩ | ⟨exchange, -⟩)
      · exact waiting both
      · cases exchange
    · rintro ⟨j, setPending, -⟩
      cases setPending
    · exact Pool.notifyAll_answered_of_not_waiting fun both => waiting ⟨(), both⟩

theorem Charged.setPending (charged : Charged past s charge) {i : ι}
    (begun : s.posts i = .begun false) :
    Charged (⟨s, .setPending i, { s.goto i (.flagged false) with fDatalessEventPending := true }⟩
      :: past) { s.goto i (.flagged false) with fDatalessEventPending := true } charge where
  rounds := charged.rounds
  hasSet j member := by
    by_cases same : j = i
    · simp [State.goto, same, PostPc.HasSet]
    · simpa [State.goto, Function.update_of_ne same] using charged.hasSet j member
  consumed j member v later := by
    have different : j ≠ i := by
      rintro rfl
      have set := charged.hasSet j member
      simp [begun, PostPc.HasSet] at set
    simp only [State.goto, Function.update_of_ne different] at later
    obtain ⟨e, earlier, consumes⟩ := charged.consumed j member v later
    rw [since_cons_of_not fun same => different (Action.setPending.inj same).symm]
    exact ⟨e, .tail _ earlier, consumes⟩
  fresh _ _ := by
    rw [since_cons_of_not (by simp [Reports, NotifiesWaiting, Consumes, Action.isNotifySelectPool])]
    exact ⟨_, .head _, i, rfl, begun⟩
  free e later j setting := by
    have moved (set : j ≠ i → (s.posts j).HasSet) :
        (Function.update s.posts i (.flagged false) j).HasSet := by
      by_cases same : j = i
      · simp [same, PostPc.HasSet]
      · rw [Function.update_of_ne same]
        exact set same
    rw [since_cons_of_not (by
      simp [Reports, NotifiesWaiting, Consumes, Action.isNotifySelectPool])] at later
    rcases List.mem_cons.mp later with rfl | earlier
    · -- the call that sets the flag now has not been charged, as it has not set it before
      obtain rfl := Action.setPending.inj setting.1
      refine ⟨moved fun different => absurd rfl different, fun member => ?_⟩
      have set := charged.hasSet i member
      simp [begun, PostPc.HasSet] at set
    · obtain ⟨set, new⟩ := charged.free e earlier j setting
      exact ⟨moved fun _ => set, new⟩

theorem Charged.exchangeSet (charged : Charged past s charge)
    (pending : s.fDatalessEventPending = true) (cleared : t.fDatalessEventPending = false)
    (posts : t.posts = s.posts) (rounds : t.rounds ≤ s.rounds + 1)
    (once : OneRoute past ⟨s, .exchange, t⟩) :
    ∃ charge, Charged (⟨s, .exchange, t⟩ :: past) t charge := by
  -- the flag has been set since the last report, whichever route that took
  obtain ⟨e, later, i, setting⟩ := charged.fresh pending (once.1 ⟨rfl, pending⟩)
  obtain ⟨set, new⟩ := charged.free e later i setting
  refine ⟨_, charged.report (Or.inr ⟨rfl, pending⟩) new rounds (fun j set => posts ▸ set)
    (posts ▸ set) ?_ fun set => by simp [cleared] at set⟩
  intro j _ v _
  rw [since_cons_of_not (by simp)]
  exact ⟨_, .head _, rfl, pending⟩

theorem Charged.step (charged : Charged past s charge) (taken : s.step a = some t)
    (once : OneRoute past ⟨s, a, t⟩) : ∃ charge, Charged (⟨s, a, t⟩ :: past) t charge := by
  cases State.moves_of_step taken with
  | @beginPost i data_valid outside =>
    have other {j : ι} (set : (s.posts j).HasSet) : j ≠ i := by
      rintro rfl
      simp [outside, PostPc.HasSet] at set
    refine ⟨charge, charged.extend ?_ ?_ rfl id ?_ ?_⟩
    · simp [Reports, NotifiesWaiting, Consumes, Action.isNotifySelectPool]
    · simp [Sets, SetBy]
    · intro j set
      simpa [State.goto, Function.update_of_ne (other set)] using set
    · intro j member v later
      have different := other (charged.hasSet j member)
      simpa [State.goto, Function.update_of_ne different] using later
  | @setNothing i begun =>
    have other {j : ι} (set : (s.posts j).HasSet) : j ≠ i := by
      rintro rfl
      simp [begun, PostPc.HasSet] at set
    refine ⟨charge, charged.extend ?_ ?_ rfl id ?_ ?_⟩
    · simp [Reports, NotifiesWaiting, Consumes, Action.isNotifySelectPool]
    · rintro ⟨j, setPending, set⟩
      obtain rfl := Action.setPending.inj setPending
      simp [begun] at set
    · intro j set
      simpa [State.goto, Function.update_of_ne (other set)] using set
    · intro j member v later
      have different := other (charged.hasSet j member)
      refine ⟨by simpa [State.goto, Function.update_of_ne different] using later, ?_⟩
      exact fun same => different (Action.setPending.inj same).symm
  | @setPending i begun => exact ⟨charge, charged.setPending begun⟩
  | notifySelectPool at_ unheld => exact charged.notifySelectPool at_ once
  | exchangeSet held pending =>
    exact charged.exchangeSet pending rfl rfl (Pool.notifyWhere_answered_le ..) once
  | exchangeClear held clear =>
    refine ⟨charge, charged.extend ?_ ?_ rfl (by simp) (fun _ set => set) fun j _ v later =>
      ⟨later, by simp⟩⟩
    · simp [Reports, NotifiesWaiting, Consumes, Action.isNotifySelectPool, clear]
    · simp [Sets, SetBy]
  | select | deselect | selectFails | deselectFails =>
    refine ⟨charge, charged.extend ?_ ?_ rfl id (fun _ set => set) fun j _ v later =>
      ⟨later, by simp⟩⟩
    · simp [Reports, NotifiesWaiting, Consumes, Action.isNotifySelectPool]
    · simp [Sets, SetBy]

/-- Only calls that have begun are anywhere. -/
theorem mem_begun_of_reachable (reached : (posting ι Unit).Reachable s) :
    ∀ i, s.posts i ≠ .outside → i ∈ s.begun := by
  apply reached.invariant (P := fun s => ∀ i, s.posts i ≠ .outside → i ∈ s.begun)
  · intro s first i inside
    rw [show s = {} from first] at inside
    exact absurd rfl inside
  · intro s a t begun taken
    -- a call that goes on stays one that has begun
    have goes_on {i : ι} {pc pc' : PostPc} (at_ : s.posts i = pc) (inside : pc ≠ .outside) (j : ι)
        (moved : Function.update s.posts i pc' j ≠ .outside) : j ∈ s.begun := by
      by_cases same : j = i
      · exact begun j (by rw [same, at_]; exact inside)
      · exact begun j (by rwa [Function.update_of_ne same] at moved)
    cases State.moves_of_step taken with
    | @beginPost i data_valid outside =>
      intro j moved
      by_cases same : j = i
      · exact same ▸ Finset.mem_insert_self ..
      · exact Finset.mem_insert_of_mem
          (begun j fun outside => moved ((Function.update_of_ne same ..).trans outside))
    | setNothing at_ | setPending at_ | notifySelectPool at_ => exact goes_on at_ (by simp)
    | exchangeSet | exchangeClear | select | deselect | selectFails | deselectFails => exact begun

/-- Reports over whole runs: the client has no more rounds that end in a notification than
events have been posted, as long as every event reaches it by one route. -/
theorem rounds_le_begun (run : (posting ι Unit).Run past s) (once : Along OneRoute past) :
    s.rounds ≤ s.begun.card := by
  obtain ⟨charge, charged⟩ := run.invariant_of_along (P := fun past s => ∃ charge,
    Charged past s charge) once
    (fun _ first => by
      rw [show _ = ({} : State ι Unit) from first]
      exact ⟨∅, charged_empty⟩)
    fun _ _ _ _ ⟨_, charged⟩ once taken => charged.step taken once
  refine charged.rounds.trans (Finset.card_le_card fun i member => ?_)
  refine mem_begun_of_reachable run.reachable i fun outside => ?_
  have set := charged.hasSet i member
  simp [outside, PostPc.HasSet] at set

/-- A client whose two rounds are ended by two events. -/
theorem rounds_le_begun_apart : ∃ past s, (posting Bool Unit).Run past s ∧
    Every (fun e => e.source.Orderly e.action) past ∧ s.rounds = 2 ∧ s.rounds ≤ s.begun.card := by
  have run := (Run.start (T := posting Bool Unit) rfl).play
    [.beginPost true false, .setPending true, .notifySelectPool true,
      .select B_SELECT_READ () true, .exchange, .deselect B_SELECT_READ () true,
      .beginPost false false, .setPending false, .notifySelectPool false,
      .select B_SELECT_READ () true, .exchange] rfl
  exact ⟨_, _, run, by decide, rfl, rounds_le_begun run (by decide)⟩

/-- The client waits while an event is posted, and is notified of it again when it waits
next. -/
theorem rounds_gt_begun : ∃ past s, (posting Unit Unit).Run past s ∧
    Every (fun e => e.source.Orderly e.action) past ∧ s.begun.card < s.rounds := by
  have run := (Run.start (T := posting Unit Unit) rfl).play
    [.select B_SELECT_READ () true, .exchange, .beginPost () false, .setPending (),
      .notifySelectPool (), .deselect B_SELECT_READ () true,
      .select B_SELECT_READ () true, .exchange] rfl
  exact ⟨_, _, run, by decide, by decide⟩

end NvidiaHaiku.BaseDevice.Select
