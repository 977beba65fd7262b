/-
# Labelled transition systems and their runs

A transition system is a predicate for the states it may start in and a step
relation labelled by actions. A run is recorded with its past: the list of
events, most recent first, each holding the state it left, the action it took
and the state it entered. Keeping the past lets a statement speak about every
step of a run at once, which is what conditional safety needs: a property that
holds as long as every step so far met a condition.

Five rules carry the developments built on this. `Reachable.invariant` is the
usual induction. `Run.invariant_of_every` is the same induction along the runs
whose steps all meet a condition, and `Run.invariant_of_along` along those whose
steps meet a condition on what came before them. `Run.every_iff` turns two step
lemmas, one for the steps that meet the condition and one for those that do not,
into an exact characterization over whole runs. `SafeExactlyWhen` is for a defect
whose steps only open the way to it. A run of a system of components shows each
component its own `history`, which is a run of the component.
-/

import Mathlib.Data.List.Basic

namespace NvidiaHaiku.Math

variable {σ α τ β : Type*}

/-- One step of a run, with the states on both of its sides. -/
structure Event (σ α : Type*) where
  source : σ
  action : α
  target : σ

/-- A labelled transition system. -/
structure TransitionSystem (σ α : Type*) where
  /-- The states a run may start in. -/
  start : σ → Prop
  /-- One step, labelled by the action taken. -/
  step : σ → α → σ → Prop

/-- A guarded step is taken past its guard. -/
theorem of_guarded {guard : Prop} [Decidable guard] {s t : σ}
    (taken : (if guard then some s else none) = some t) : guard ∧ s = t :=
  (Option.ite_none_right_eq_some.mp taken).imp_right Option.some.inj

namespace TransitionSystem

/-- The system of a computable step function: `none` means the action is not
possible in that state. -/
def ofStep (start : σ → Prop) (next : σ → α → Option σ) : TransitionSystem σ α where
  start := start
  step s a t := next s a = some t

/-- `T.Run past s`: a run with the events `past`, most recent first, ends in `s`. -/
inductive Run (T : TransitionSystem σ α) : List (Event σ α) → σ → Prop
  | start {s : σ} : T.start s → Run T [] s
  | step {past : List (Event σ α)} {s t : σ} {a : α} :
      Run T past s → T.step s a t → Run T (⟨s, a, t⟩ :: past) t

/-- A state some run ends in. -/
def Reachable (T : TransitionSystem σ α) (s : σ) : Prop := ∃ past, T.Run past s

/-- Every event of a past meets `G`. -/
def Every (G : Event σ α → Prop) (past : List (Event σ α)) : Prop := ∀ e ∈ past, G e

instance {G : Event σ α → Prop} [DecidablePred G] (past : List (Event σ α)) :
    Decidable (Every G past) := inferInstanceAs (Decidable (∀ e ∈ past, G e))

variable {T : TransitionSystem σ α} {G H : Event σ α → Prop} {past : List (Event σ α)} {s : σ}

@[simp] theorem every_nil : Every G [] := fun _ member => nomatch member

@[simp] theorem every_cons {e : Event σ α} : Every G (e :: past) ↔ G e ∧ Every G past :=
  List.forall_mem_cons

theorem Every.mono (weaker : ∀ e, G e → H e) (every : Every G past) : Every H past :=
  fun e member => weaker e (every e member)

theorem Every.and (left : Every G past) (right : Every H past) :
    Every (fun e => G e ∧ H e) past :=
  fun e member => ⟨left e member, right e member⟩

theorem Run.reachable (run : T.Run past s) : T.Reachable s := ⟨past, run⟩

theorem Reachable.start (initial : T.start s) : T.Reachable s := ⟨[], .start initial⟩

theorem Reachable.step {t : σ} {a : α} (reached : T.Reachable s) (taken : T.step s a t) :
    T.Reachable t := by
  obtain ⟨past, run⟩ := reached
  exact ⟨⟨s, a, t⟩ :: past, run.step taken⟩

/-- Along the runs whose steps all meet `G`, a property that holds at the start
and that every such step preserves holds at the end. -/
theorem Run.invariant_of_every {P : σ → Prop} (run : T.Run past s) (every : Every G past)
    (atStart : ∀ s, T.start s → P s)
    (preserved : ∀ s a t, P s → G ⟨s, a, t⟩ → T.step s a t → P t) : P s := by
  induction run with
  | start initial => exact atStart _ initial
  | step _ taken ih =>
    rw [every_cons] at every
    exact preserved _ _ _ (ih every.2) every.1 taken

/-- A property that holds at the start and that every step preserves holds of
every reachable state. -/
theorem Reachable.invariant {P : σ → Prop} (reached : T.Reachable s)
    (atStart : ∀ s, T.start s → P s)
    (preserved : ∀ s a t, P s → T.step s a t → P t) : P s := by
  obtain ⟨past, run⟩ := reached
  exact run.invariant_of_every (G := fun _ => True) (fun _ _ => trivial) atStart
    fun s a t held _ taken => preserved s a t held taken

/-! ## Conditions on what came before -/

/-- Every event of a past meets `K` together with the events before it. -/
def Along (K : List (Event σ α) → Event σ α → Prop) : List (Event σ α) → Prop
  | [] => True
  | e :: past => K past e ∧ Along K past

/-- What each step has to meet, with what came before it, is tested step by step. -/
def decidableAlong {K : List (Event σ α) → Event σ α → Prop}
    [dec : ∀ past e, Decidable (K past e)] : ∀ past, Decidable (Along K past)
  | [] => isTrue trivial
  | e :: past => @instDecidableAnd _ _ (dec past e) (decidableAlong past)

instance {K : List (Event σ α) → Event σ α → Prop} [∀ past e, Decidable (K past e)]
    (past : List (Event σ α)) : Decidable (Along K past) := decidableAlong past

/-- Along the runs whose steps all meet `K`, a property of the past and the state that
holds at the start and that every such step preserves holds at the end. -/
theorem Run.invariant_of_along {K : List (Event σ α) → Event σ α → Prop}
    {P : List (Event σ α) → σ → Prop} (run : T.Run past s) (along : Along K past)
    (atStart : ∀ s, T.start s → P [] s)
    (preserved : ∀ past s a t, P past s → K past ⟨s, a, t⟩ → T.step s a t →
      P (⟨s, a, t⟩ :: past) t) : P past s := by
  induction run with
  | start initial => exact atStart _ initial
  | step _ taken ih => exact preserved _ _ _ _ (ih along.2) along.1 taken

section Since

variable (G) [DecidablePred G]

/-- The events since the last one that meets `G`. -/
def since (past : List (Event σ α)) : List (Event σ α) := past.takeWhile (¬ G ·)

variable {G} {e : Event σ α}

theorem since_cons_of (meets : G e) : since G (e :: past) = [] :=
  List.takeWhile_cons_of_neg (by simpa using meets)

theorem since_cons_of_not (skipped : ¬ G e) : since G (e :: past) = e :: since G past :=
  List.takeWhile_cons_of_pos (by simpa using skipped)

end Since

/-- Plays the actions one after another from `s`, adding the events to `past`;
`none` if one of them is not possible. -/
def play (next : σ → α → Option σ) :
    (actions : List α) → (s : σ) → (past : List (Event σ α)) → Option (List (Event σ α) × σ)
  | [], s, past => some (past, s)
  | a :: rest, s, past => (next s a).bind fun t => play next rest t (⟨s, a, t⟩ :: past)

/-- Actions that can be played prolong a run. -/
theorem Run.of_play {start : σ → Prop} {next : σ → α → Option σ} {actions : List α}
    {past' : List (Event σ α)} {t : σ} (run : (ofStep start next).Run past s)
    (played : play next actions s past = some (past', t)) :
    (ofStep start next).Run past' t := by
  induction actions generalizing s past with
  | nil =>
    obtain ⟨rfl, rfl⟩ := Prod.mk.inj (Option.some.inj played)
    exact run
  | cons a rest ih =>
    obtain ⟨u, taken, played⟩ := Option.bind_eq_some_iff.mp played
    exact ih (run.step taken) played

theorem Run.play {start : σ → Prop} {next : σ → α → Option σ}
    (run : (ofStep start next).Run past s) (actions : List α)
    (possible : (play next actions s past).isSome) :
    (ofStep start next).Run ((TransitionSystem.play next actions s past).get possible).1
      ((TransitionSystem.play next actions s past).get possible).2 :=
  run.of_play (Option.some_get possible).symm

/-- Exact characterization of the runs whose steps all satisfy `H`, for a defect
that may show late. The steps that meet `G` keep `P`, satisfy `H` and leave
nothing pending. A step outside `G` breaks `H` or leaves something pending, and
what is pending stays so until some step breaks `H`. -/
theorem Run.every_of_every_and_iff {P : σ → Prop} (run : T.Run past s) (Pending : σ → Prop)
    (atStart : ∀ s, T.start s → P s ∧ ¬ Pending s)
    (kept : ∀ s a t, P s → ¬ Pending s → T.step s a t → G ⟨s, a, t⟩ →
      P t ∧ ¬ Pending t ∧ H ⟨s, a, t⟩)
    (broken : ∀ s a t, P s → ¬ Pending s → T.step s a t → ¬ G ⟨s, a, t⟩ →
      Pending t ∨ ¬ H ⟨s, a, t⟩)
    (sticks : ∀ s a t, Pending s → T.step s a t → Pending t ∨ ¬ H ⟨s, a, t⟩) :
    (Every G past → Every H past ∧ ¬ Pending s) ∧
      (¬ Pending s → (Every H past ↔ Every G past)) := by
  -- a past outside `G` has something pending or has broken `H`, whichever step it was
  suffices both : (Every G past → Every H past ∧ P s ∧ ¬ Pending s) ∧
      (¬ Every G past → Pending s ∨ ¬ Every H past) from
    ⟨fun every => (both.1 every).imp_right And.right, fun settled =>
      ⟨fun every => by_contra fun fails => (both.2 fails).elim settled (· every),
        fun every => (both.1 every).1⟩⟩
  induction run with
  | start initial =>
    exact ⟨fun _ => ⟨every_nil, atStart _ initial⟩, fun fails => absurd every_nil fails⟩
  | @step past s t a run taken ih =>
    constructor
    · intro every
      obtain ⟨last, earlier⟩ := every_cons.mp every
      obtain ⟨satisfied, held, clear⟩ := ih.1 earlier
      obtain ⟨held, clear, now⟩ := kept s a t held clear taken last
      exact ⟨every_cons.mpr ⟨now, satisfied⟩, held, clear⟩
    · intro fails
      have later : Pending t ∨ ¬ H ⟨s, a, t⟩ → Pending t ∨ ¬ Every H (⟨s, a, t⟩ :: past) :=
        Or.imp_right fun breaks every => breaks (every_cons.mp every).1
      by_cases earlier : Every G past
      · -- the last step is the first one outside `G`
        obtain ⟨-, held, clear⟩ := ih.1 earlier
        have last : ¬ G ⟨s, a, t⟩ := fun last => fails (every_cons.mpr ⟨last, earlier⟩)
        exact later (broken s a t held clear taken last)
      · rcases ih.2 earlier with pending | breaks
        · exact later (sticks s a t pending taken)
        · exact Or.inr fun every => breaks (every_cons.mp every).2

/-- The same for a defect that shows in the step itself. -/
theorem Run.every_iff {P : σ → Prop} (run : T.Run past s)
    (atStart : ∀ s, T.start s → P s)
    (kept : ∀ s a t, P s → T.step s a t → G ⟨s, a, t⟩ → P t ∧ H ⟨s, a, t⟩)
    (broken : ∀ s a t, P s → T.step s a t → ¬ G ⟨s, a, t⟩ → ¬ H ⟨s, a, t⟩) :
    Every H past ↔ Every G past :=
  (run.every_of_every_and_iff (fun _ => False)
    (fun s initial => ⟨atStart s initial, id⟩)
    (fun s a t held _ taken meets => ⟨(kept s a t held taken meets).1, id,
      (kept s a t held taken meets).2⟩)
    (fun s a t held _ taken fails => Or.inr (broken s a t held taken fails))
    fun _ _ _ pending => pending.elim).2 id

/-! ## Exact conditions for safety

A defect may show only later, and only if the steps after it help. So a condition
is exact if the runs that meet it are safe, and any one step outside it, taken after
such a run, can be followed by steps that meet it to a run that is not. -/

@[simp] theorem every_append {later : List (Event σ α)} :
    Every G (later ++ past) ↔ Every G later ∧ Every G past :=
  List.forall_mem_append

/-- The system, started in `s`. -/
def after (T : TransitionSystem σ α) (s : σ) : TransitionSystem σ α where
  start := (· = s)
  step := T.step

theorem Run.append {later : List (Event σ α)} {t : σ} (run : T.Run past s)
    (more : (T.after s).Run later t) : T.Run (later ++ past) t := by
  induction more with
  | start here =>
    rw [show _ = s from here]
    exact run
  | step _ taken ih => exact ih.step taken

/-- From `s` the system can get to a step outside `H`, by steps that all meet `G`. -/
def CanBreak (T : TransitionSystem σ α) (G H : Event σ α → Prop) (s : σ) : Prop :=
  ∃ later t, (T.after s).Run later t ∧ Every G later ∧ ¬ Every H later

theorem CanBreak.of_step {t : σ} {a : α} (taken : T.step s a t) (meets : G ⟨s, a, t⟩)
    (breaks : T.CanBreak G H t) : T.CanBreak G H s := by
  obtain ⟨later, u, run, every, breaks⟩ := breaks
  have first : (T.after s).Run [⟨s, a, t⟩] t := Run.step (.start rfl) taken
  refine ⟨later ++ [⟨s, a, t⟩], u, first.append run, ?_, fun all => breaks (every_append.mp all).1⟩
  exact every_append.mpr ⟨every, every_cons.mpr ⟨meets, every_nil⟩⟩

theorem CanBreak.now {t : σ} {a : α} (taken : T.step s a t) (meets : G ⟨s, a, t⟩)
    (fails : ¬ H ⟨s, a, t⟩) : T.CanBreak G H s :=
  ⟨[⟨s, a, t⟩], t, Run.step (.start rfl) taken, every_cons.mpr ⟨meets, every_nil⟩,
    fun every => fails (every_cons.mp every).1⟩

/-- A state outside `P` that is not reached at once is reached by a step. -/
theorem CanBreak.of_target {P : σ → Prop} {later : List (Event σ α)} {t : σ}
    (run : (T.after s).Run later t) (meet : Every G later) (fails : ¬ P t) :
    ¬ P s ∨ T.CanBreak G (fun e => P e.target) s := by
  cases run with
  | start here =>
    rw [show t = s from here] at fails
    exact Or.inl fails
  | step run taken =>
    exact Or.inr ⟨_, t, run.step taken, meet, fun every => fails (every_cons.mp every).1⟩

/-- From a state in `I` the system can get to one in `D`, by steps in `K`, if every state in
between has a step that stays in `I` and leaves less to do. -/
theorem exists_run_of_measure {I D : σ → Prop} {K : Event σ α → Prop} (μ : σ → ℕ)
    (progress : ∀ s, I s → ¬ D s → ∃ a t, T.step s a t ∧ K ⟨s, a, t⟩ ∧ I t ∧ μ t < μ s)
    (held : I s) : ∃ later t, (T.after s).Run later t ∧ Every K later ∧ I t ∧ D t := by
  induction measure : μ s using Nat.strongRecOn generalizing s with
  | ind n ih =>
    by_cases done : D s
    · exact ⟨[], s, .start rfl, every_nil, held, done⟩
    · obtain ⟨a, t, taken, meets, held, less⟩ := progress s held done
      obtain ⟨later, u, run, every, held, done⟩ := ih (μ t) (measure ▸ less) held rfl
      have first : (T.after s).Run [⟨s, a, t⟩] t := Run.step (.start rfl) taken
      refine ⟨later ++ [⟨s, a, t⟩], u, first.append run, ?_, held, done⟩
      exact every_append.mpr ⟨every, every_cons.mpr ⟨meets, every_nil⟩⟩

/-- `G` is the exact condition on steps under which all steps of a run meet `H`. -/
structure SafeExactlyWhen (T : TransitionSystem σ α) (G H : Event σ α → Prop) : Prop where
  safe : ∀ past s, T.Run past s → Every G past → Every H past
  /-- The first step outside `G` is outside `H`, or can be followed to a step that is by
  steps that all meet `G`. -/
  needed : ∀ past s a t, T.Run past s → Every G past → T.step s a t → ¬ G ⟨s, a, t⟩ →
    ¬ H ⟨s, a, t⟩ ∨ T.CanBreak G H t

/-- An invariant of the steps that meet `G`, and a way on from every other step. -/
theorem SafeExactlyWhen.of_invariant {P : σ → Prop} (atStart : ∀ s, T.start s → P s)
    (kept : ∀ s a t, P s → T.step s a t → G ⟨s, a, t⟩ → P t ∧ H ⟨s, a, t⟩)
    (needed : ∀ s a t, P s → T.step s a t → ¬ G ⟨s, a, t⟩ → ¬ H ⟨s, a, t⟩ ∨ T.CanBreak G H t) :
    T.SafeExactlyWhen G H where
  safe past s run every := by
    induction run with
    | start => exact every_nil
    | @step past s t a run taken ih =>
      obtain ⟨last, earlier⟩ := every_cons.mp every
      have held : P s := run.invariant_of_every earlier atStart
        fun s a t held meets taken => (kept s a t held taken meets).1
      exact every_cons.mpr ⟨(kept s a t held taken last).2, ih earlier⟩
  needed past s a t run every taken fails := by
    have held : P s := run.invariant_of_every every atStart
      fun s a t held meets taken => (kept s a t held taken meets).1
    exact needed s a t held taken fails

/-! ## The part a component takes in a run -/

/-- The events of a component with state `f s`, which takes part in an action
labelled with one of its own actions. -/
def history (f : σ → τ) (label : α → Option β) (past : List (Event σ α)) : List (Event τ β) :=
  past.filterMap fun e => (label e.action).map fun b => ⟨f e.source, b, f e.target⟩

/-- The history of a component is a run of the component. -/
theorem Run.history {U : TransitionSystem τ β} {f : σ → τ} {label : α → Option β}
    (run : T.Run past s) (atStart : ∀ s, T.start s → U.start (f s))
    (own : ∀ s a t b, T.step s a t → label a = some b → U.step (f s) b (f t))
    (other : ∀ s a t, T.step s a t → label a = none → f t = f s) :
    U.Run (history f label past) (f s) := by
  induction run with
  | start initial => exact .start (atStart _ initial)
  | @step past s t a run taken ih =>
    cases labelled : label a with
    | none =>
      -- the component takes no part, and its history stays
      rw [other s a t taken labelled]
      simpa [TransitionSystem.history, labelled] using ih
    | some b =>
      have moved := ih.step (own s a t b taken labelled)
      simpa [TransitionSystem.history, labelled] using moved

/-- A property of all events of a component, as one of all events of the run. -/
theorem every_history {f : σ → τ} {label : α → Option β} {K : Event τ β → Prop} :
    Every K (history f label past) ↔
      Every (fun e => ∀ b, label e.action = some b → K ⟨f e.source, b, f e.target⟩) past := by
  simp only [Every, history, List.mem_filterMap, Option.map_eq_some_iff]
  constructor
  · intro every e member b labelled
    exact every _ ⟨e, member, b, labelled, rfl⟩
  · rintro every _ ⟨e, member, b, labelled, rfl⟩
    exact every e member b labelled

end TransitionSystem

end NvidiaHaiku.Math
