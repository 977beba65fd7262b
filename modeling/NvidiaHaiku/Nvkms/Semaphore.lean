/-
# NVKMS semaphores

An NVKMS semaphore is a Haiku semaphore created with count 0. `nvkms_sema_down`
releases it and `nvkms_sema_up` acquires it, which is the wrong way round. So the
count is the number of threads that have taken the semaphore and not given it back,
neither of the two ever blocks, and the semaphore keeps nobody out. Threads exclude
each other only as far as they do so by themselves.

Of Haiku the model assumes that `acquire_sem` blocks while the count is 0 and then
decrements it, and that `release_sem` increments it.
-/

import NvidiaHaiku.Math.Counting
import NvidiaHaiku.Math.Transition

namespace NvidiaHaiku.Nvkms

open NvidiaHaiku.Math TransitionSystem

/-- A `nvkms_sema_t`, with the count of its Haiku semaphore. -/
structure Sema where
  count : ℕ
  deriving DecidableEq, Repr

/-- Which of the calls of `nvkms_sema_alloc` succeed. -/
structure AllocAnswers where
  new : Bool
  createSem : Bool

/-- `create_sem`. -/
def createSem (count : ℕ) : Sema := ⟨count⟩

/-- `nvkms_sema_alloc`. -/
def semaAlloc (answers : AllocAnswers) : Option Sema :=
  if !answers.new then none
  else if !answers.createSem then none
  else some (createSem 0)

namespace Sema

/-- `release_sem`. -/
def releaseSem (s : Sema) : Sema := { s with count := s.count + 1 }

/-- `none` while the caller blocks. -/
def acquireSem (s : Sema) : Option Sema :=
  if s.count = 0 then none else some { s with count := s.count - 1 }

/-- `nvkms_sema_down`. -/
def semaDown (s : Sema) : Option Sema := some s.releaseSem

/-- `nvkms_sema_up`. -/
def semaUp (s : Sema) : Option Sema := s.acquireSem

end Sema

/-- Where a thread is. -/
inductive Pc
  | outside
  /-- In `nvkms_sema_down`. -/
  | down
  /-- Past `nvkms_sema_down`, in its critical section. -/
  | inside
  /-- In `nvkms_sema_up`. -/
  | up
  deriving DecidableEq, Repr

/-- A semaphore with the threads `ι` that use it. -/
structure State (ι : Type*) where
  sema : Sema
  threads : ι → Pc

/-- A call begins, or it returns. -/
inductive Action (ι : Type*)
  | callDown (t : ι)
  /-- `nvkms_sema_down` does its work and returns. -/
  | down (t : ι)
  | callUp (t : ι)
  /-- `nvkms_sema_up` does its work and returns. -/
  | up (t : ι)
  deriving DecidableEq, Repr

variable {ι : Type*} [DecidableEq ι]

namespace State

/-- Thread `t` goes on to `pc`. -/
def goto (s : State ι) (t : ι) (pc : Pc) : State ι :=
  { s with threads := Function.update s.threads t pc }

/-- One step. A thread calls `nvkms_sema_up` only from its critical section. -/
def step (s : State ι) : Action ι → Option (State ι)
  | .callDown t => if s.threads t = .outside then some (s.goto t .down) else none
  | .down t =>
    if s.threads t = .down then
      s.sema.semaDown.map fun sema => { s.goto t .inside with sema := sema }
    else none
  | .callUp t => if s.threads t = .inside then some (s.goto t .up) else none
  | .up t =>
    if s.threads t = .up then
      s.sema.semaUp.map fun sema => { s.goto t .outside with sema := sema }
    else none

end State

/-- Any threads, each of which takes the semaphore, is in its critical section and
gives the semaphore back, over and over. -/
def users (ι : Type*) [DecidableEq ι] : TransitionSystem (State ι) (Action ι) :=
  .ofStep (fun s => (∃ answers, semaAlloc answers = some s.sema) ∧ s.threads = fun _ => .outside)
    State.step

variable {s s' : State ι} {t : ι}

theorem semaAlloc_count {answers : AllocAnswers} {sema : Sema}
    (made : semaAlloc answers = some sema) : sema.count = 0 := by
  simp only [semaAlloc] at made
  split_ifs at made
  exact (Option.some.inj made) ▸ rfl

/-! ## Nobody waits -/

/-- The thread has taken the semaphore and not given it back. -/
def Pc.Took (pc : Pc) : Prop := pc = .inside ∨ pc = .up

/-- The count is the number of threads that have taken the semaphore. -/
structure Tallied (s : State ι) : Prop where
  finite : (holders (fun _ => Pc.Took) s.threads).Finite
  count : s.sema.count = (holders (fun _ => Pc.Took) s.threads).ncard

theorem Tallied.step {a : Action ι} (tallied : Tallied s) (taken : s.step a = some s') :
    Tallied s' := by
  obtain ⟨finite, count⟩ := tallied
  cases a with
  | callDown t | callUp t =>
    obtain ⟨at_, rfl⟩ := of_guarded taken
    refine ⟨finite_holders_update finite, ?_⟩
    rw [State.goto, holders_update_of_iff (by simp [at_, Pc.Took])]
    exact count
  | down t =>
    obtain ⟨at_, rfl⟩ := of_guarded taken
    refine ⟨finite_holders_update finite, ?_⟩
    have more := ncard_holders_of_gain finite (i := t) (x := Pc.inside) (by simp [at_, Pc.Took])
      (Or.inl rfl)
    exact (congrArg (· + 1) count).trans more.symm
  | up t =>
    obtain ⟨at_, taken⟩ := Option.ite_none_right_eq_some.mp taken
    obtain ⟨sema, acquired, rfl⟩ := Option.map_eq_some_iff.mp taken
    -- the count is positive, so that taking one off does not go below zero
    have less := ncard_holders_of_loss finite (i := t) (x := Pc.outside) (Or.inr at_)
      (by simp [Pc.Took])
    refine ⟨finite_holders_update finite, ?_⟩
    simp only [Sema.semaUp, Sema.acquireSem] at acquired
    split at acquired
    · exact nomatch acquired
    · obtain rfl := Option.some.inj acquired
      change s.sema.count - 1 = (holders _ (Function.update s.threads t .outside)).ncard
      omega

theorem tallied_of_reachable (reached : (users ι).Reachable s) : Tallied s := by
  apply reached.invariant (P := Tallied)
  · intro s first
    obtain ⟨⟨answers, made⟩, outside⟩ := first
    have nobody : holders (fun _ => Pc.Took) s.threads = ∅ :=
      holders_eq_empty fun t took => by simp [outside, Pc.Took] at took
    exact ⟨nobody ▸ Set.finite_empty, by rw [nobody, semaAlloc_count made, Set.ncard_empty]⟩
  · intro s a s' tallied taken
    exact tallied.step taken

/-- `nvkms_sema_up` returns at once: the thread itself has put the count above 0. -/
theorem semaUp_isSome (reached : (users ι).Reachable s) (at_ : s.threads t = .up) :
    s.sema.semaUp.isSome := by
  obtain ⟨finite, count⟩ := tallied_of_reachable reached
  have some_took := ncard_holders_pos finite (i := t) (Or.inr at_)
  have positive : s.sema.count ≠ 0 := by omega
  simp [Sema.semaUp, Sema.acquireSem, positive]

/-! ## Nobody is kept out -/

/-- At most one thread is in its critical section. -/
def Exclusive (s : State ι) : Prop := {t | s.threads t = .inside}.Subsingleton

/-- The thread is on its way into its critical section, or in it. -/
def Pc.Wants (pc : Pc) : Prop := pc = .down ∨ pc = .inside

/-- `nvkms_sema_down` is called only while no other thread is between its own call of
`nvkms_sema_down` and its call of `nvkms_sema_up`. -/
def CallsAlone (e : Event (State ι) (Action ι)) : Prop :=
  ∀ t, e.action = .callDown t → ∀ t', ¬ (e.source.threads t').Wants

/-- At most one thread wants to be in its critical section. -/
def Alone (s : State ι) : Prop := {t | (s.threads t).Wants}.Subsingleton

omit [DecidableEq ι] in
theorem Alone.exclusive (alone : Alone s) : Exclusive s :=
  Set.Subsingleton.anti alone fun _ inside => Or.inr inside

/-- A step in which only `t` moves, and `t` wants what it wanted before. -/
theorem Alone.goto (alone : Alone s) {pc : Pc} (wanted : pc.Wants → (s.threads t).Wants) :
    Alone (s.goto t pc) := by
  refine Set.Subsingleton.anti alone ?_
  intro t' wants
  by_cases same : t' = t
  · subst same
    exact wanted (by simpa [State.goto] using wants)
  · simpa [State.goto, same] using wants

theorem Alone.step {a : Action ι} (alone : Alone s) (taken : s.step a = some s')
    (calls : CallsAlone ⟨s, a, s'⟩) : Alone s' := by
  cases a with
  | callDown t =>
    obtain ⟨-, rfl⟩ := of_guarded taken
    -- the caller finds nobody, and so is the only one
    intro t₁ first t₂ second
    have own (t' : ι) (wants : ((s.goto t .down).threads t').Wants) : t' = t := by
      by_contra other
      apply calls t rfl t'
      simpa [State.goto, other] using wants
    exact (own t₁ first).trans (own t₂ second).symm
  | down t =>
    obtain ⟨at_, rfl⟩ := of_guarded taken
    exact alone.goto fun _ => Or.inl at_
  | callUp t =>
    obtain ⟨-, rfl⟩ := of_guarded taken
    exact alone.goto (by simp [Pc.Wants])
  | up t =>
    obtain ⟨-, taken⟩ := Option.ite_none_right_eq_some.mp taken
    obtain ⟨sema, -, rfl⟩ := Option.map_eq_some_iff.mp taken
    exact alone.goto (by simp [Pc.Wants])

/-- A thread that wants to can enter its critical section, whoever else is there, without
another call of `nvkms_sema_down`. -/
theorem enters (wants : (s.threads t).Wants) : ∃ later u, ((users ι).after s).Run later u ∧
    Every CallsAlone later ∧ u.threads t = .inside ∧
      ∀ t', t' ≠ t → u.threads t' = s.threads t' := by
  rcases wants with down | inside
  · have taken : (users ι).step s (.down t)
        { s.goto t .inside with sema := s.sema.releaseSem } := if_pos down
    refine ⟨[_], _, Run.step (.start rfl) taken, ?_, by simp [State.goto], ?_⟩
    · exact every_cons.mpr ⟨(fun t' same => by cases same), every_nil⟩
    · intro t' other
      simp [State.goto, other]
  · exact ⟨[], s, .start rfl, every_nil, inside, fun _ _ => rfl⟩

/-- Two threads that both want to can be in their critical sections together. -/
theorem not_exclusive_of_wants {t' : ι} (distinct : t' ≠ t) (first : (s.threads t).Wants)
    (second : (s.threads t').Wants) : ∃ later u, ((users ι).after s).Run later u ∧
    Every CallsAlone later ∧ ¬ Exclusive u := by
  obtain ⟨later, u, run, alone, inside, others⟩ := enters first
  obtain ⟨later', v, run', alone', inside', others'⟩ := enters (others t' distinct ▸ second)
  refine ⟨later' ++ later, v, run.append run', every_append.mpr ⟨alone', alone⟩,
    fun exclusive => distinct ?_⟩
  apply exclusive inside'
  exact (others' t distinct.symm).trans inside

/-- Mutual exclusion over whole runs. At most one thread is in its critical section as
long as `nvkms_sema_down` is only called while no other thread is on its way there or
in it; the first call at another time can be followed, with no further such call, to a state
with two threads in their critical sections. A thread in `nvkms_sema_down` never waits. -/
theorem exclusive_exactlyWhen_callsAlone (ι : Type*) [DecidableEq ι] :
    (users ι).SafeExactlyWhen CallsAlone (fun e => Exclusive e.target) ∧
      ∀ (s : State ι) (t : ι), s.threads t = .down → (s.step (.down t)).isSome := by
  refine ⟨.of_invariant (P := Alone) ?_ ?_ ?_, fun s t at_ => ?_⟩
  · intro s first t wants
    simp [first.2, Pc.Wants] at wants
  · intro s a s' alone taken calls
    have alone := alone.step taken calls
    exact ⟨alone, alone.exclusive⟩
  · intro s a s' alone taken fails
    simp only [CallsAlone, not_forall, not_not] at fails
    obtain ⟨t, rfl, t', wants⟩ := fails
    obtain ⟨outside, rfl⟩ := of_guarded taken
    have distinct : t' ≠ t := by
      intro same
      simp [same, outside, Pc.Wants] at wants
    -- the caller and the other thread go on to their critical sections
    obtain ⟨later, u, run, alone, shared⟩ := not_exclusive_of_wants (s := s.goto t .down)
      distinct (Or.inl (by simp [State.goto])) (by simpa [State.goto, distinct] using wants)
    exact CanBreak.of_target run alone shared
  · rw [State.step, if_pos at_]
    rfl

/-- Two threads call `nvkms_sema_down`, one after the other, and both return. -/
theorem not_exclusive_two : ∃ past s, (users Bool).Run past s ∧
    s.threads false = .inside ∧ s.threads true = .inside ∧ ¬ Exclusive s := by
  have run := (Run.start (T := users Bool) (s := ⟨createSem 0, fun _ => .outside⟩)
    ⟨⟨⟨true, true⟩, rfl⟩, rfl⟩).play
    [.callDown false, .down false, .callDown true, .down true] rfl
  refine ⟨_, _, run, rfl, rfl, fun exclusive => ?_⟩
  exact absurd (exclusive (x := false) rfl (y := true) rfl) (by decide)

end NvidiaHaiku.Nvkms
