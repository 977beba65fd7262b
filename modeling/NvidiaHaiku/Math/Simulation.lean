/-
# Forward simulation with silent steps

A concrete system simulates an abstract one if every concrete step is matched by
the abstract step it is observed as, or by none if it is not observed. Matching
is needed only for the steps that meet a condition, so that a simulation can rest
on what the users of a system keep to.

By induction along a run the observations of a whole run are then the actions of
an abstract run, and the two end in related states. What is proved of every run
of the abstract system is therefore proved of the concrete one.
-/

import NvidiaHaiku.Math.Transition

namespace NvidiaHaiku.Math.TransitionSystem

variable {σ α τ β : Type*}

/-- The actions of a run, most recent first. -/
def actions (past : List (Event σ α)) : List α := past.map Event.action

/-- What is observed of a run, most recent first. -/
def trace (observe : Event σ α → Option β) (past : List (Event σ α)) : List β :=
  past.filterMap observe

theorem trace_silent {observe : Event σ α → Option β} {e : Event σ α} {past : List (Event σ α)}
    (silent : observe e = none) : trace observe (e :: past) = trace observe past :=
  List.filterMap_cons_none silent

theorem trace_observed {observe : Event σ α → Option β} {e : Event σ α} {past : List (Event σ α)}
    {b : β} (observed : observe e = some b) : trace observe (e :: past) = b :: trace observe past :=
  List.filterMap_cons_some observed

/-- `U` can do what is observed of a step, and stays related. -/
def Matches (U : TransitionSystem τ β) (R : σ → τ → Prop) (observed : Option β) (t : σ) (x : τ) :
    Prop :=
  match observed with
  | none => R t x
  | some b => ∃ y, U.step x b y ∧ R t y

/-- `T` simulates `U` up to `R`, as long as its steps meet `G`. -/
structure Simulates (T : TransitionSystem σ α) (U : TransitionSystem τ β)
    (observe : Event σ α → Option β) (G : Event σ α → Prop) (R : σ → τ → Prop) : Prop where
  start : ∀ s, T.start s → ∃ x, U.start x ∧ R s x
  step : ∀ s a t x, R s x → T.step s a t → G ⟨s, a, t⟩ → U.Matches R (observe ⟨s, a, t⟩) t x

variable {T : TransitionSystem σ α} {U : TransitionSystem τ β} {observe : Event σ α → Option β}
  {G : Event σ α → Prop} {R : σ → τ → Prop} {past : List (Event σ α)} {s : σ}

/-- A run whose steps all meet `G` is observed as a run of the abstract system. -/
theorem Simulates.run (simulates : T.Simulates U observe G R) (run : T.Run past s)
    (every : Every G past) :
    ∃ history x, U.Run history x ∧ R s x ∧ actions history = trace observe past := by
  induction run with
  | start initial =>
    obtain ⟨x, initial, related⟩ := simulates.start _ initial
    exact ⟨[], x, .start initial, related, rfl⟩
  | @step past s t a run taken ih =>
    obtain ⟨last, earlier⟩ := every_cons.mp every
    obtain ⟨history, x, abstract, related, same⟩ := ih earlier
    have matched := simulates.step s a t x related taken last
    cases observed : observe ⟨s, a, t⟩ with
    | none =>
      rw [observed] at matched
      exact ⟨history, x, abstract, matched, same.trans (trace_silent observed).symm⟩
    | some b =>
      rw [observed] at matched
      obtain ⟨y, moved, related⟩ := matched
      refine ⟨_, y, abstract.step moved, related, ?_⟩
      rw [trace_observed observed, ← same]
      rfl

/-- `U` has a run with the given actions. -/
def Accepts (U : TransitionSystem τ β) (calls : List β) : Prop :=
  ∃ history x, U.Run history x ∧ actions history = calls

theorem Simulates.accepts (simulates : T.Simulates U observe G R) (run : T.Run past s)
    (every : Every G past) : U.Accepts (trace observe past) := by
  obtain ⟨history, x, abstract, -, same⟩ := simulates.run run every
  exact ⟨history, x, abstract, same⟩

/-- What `U` accepts, it accepted without the last action. -/
theorem Accepts.of_cons {b : β} {calls : List β} (accepts : U.Accepts (b :: calls)) :
    ∃ history x y, U.Run history x ∧ actions history = calls ∧ U.step x b y := by
  obtain ⟨history, y, run, same⟩ := accepts
  cases run with
  | start => cases same
  | @step history x _ a run taken =>
    obtain ⟨rfl, earlier⟩ := List.cons.inj same
    exact ⟨history, x, y, run, earlier, taken⟩

/-- A condition is exact for a simulation if the abstract system refuses what is
observed of the first step outside it, after any run with the same actions. -/
theorem Simulates.accepts_iff (simulates : T.Simulates U observe G R)
    (refuses : ∀ s a t x, R s x → T.step s a t → ¬ G ⟨s, a, t⟩ →
      ∃ b, observe ⟨s, a, t⟩ = some b ∧ ∀ history history' x' y', U.Run history x →
        U.Run history' x' → actions history' = actions history → ¬ U.step x' b y')
    (run : T.Run past s) : U.Accepts (trace observe past) ↔ Every G past := by
  refine ⟨fun accepts => ?_, simulates.accepts run⟩
  induction run with
  | start => exact every_nil
  | @step past s t a run taken ih =>
    -- the earlier part of the run is accepted as well, so all its steps meet `G`
    have earlier : Every G past := by
      apply ih
      cases observed : observe ⟨s, a, t⟩ with
      | none => rwa [trace_silent observed] at accepts
      | some b =>
        rw [trace_observed observed] at accepts
        obtain ⟨history, x, -, abstract, same, -⟩ := accepts.of_cons
        exact ⟨history, x, abstract, same⟩
    refine every_cons.mpr ⟨by_contra fun fails => ?_, earlier⟩
    obtain ⟨history, x, abstract, related, same⟩ := simulates.run run earlier
    obtain ⟨b, observed, refused⟩ := refuses s a t x related taken fails
    rw [trace_observed observed] at accepts
    obtain ⟨history', x', y', other, same', moved⟩ := accepts.of_cons
    exact refused history history' x' y' abstract other (same'.trans same.symm) moved

end NvidiaHaiku.Math.TransitionSystem
