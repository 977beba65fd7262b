/-
# Scoped resources

A function acquires resources and may throw at any step. What it has acquired by then
is released by what holds it. A local variable releases its resource when its scope is
left, by a return or by a throw, unless it is detached before it returns. The members
of an object under construction release theirs, the last one first, if the
construction throws. What nothing holds stays acquired.

An attempt is one run of such a function: its outcome and its ledger. The weakest
precondition of an attempt says what is held when it ends, and there is a rule for
each construct, so that a function is settled along its text.
-/

import NvidiaHaiku.Math.Ledger

namespace NvidiaHaiku.Math

/-- How a function ends. -/
inductive Outcome (ε α : Type*)
  | returned (a : α)
  | thrown (e : ε)
  /-- It never comes back: the process has ended, or a loop goes on forever. -/
  | noReturn

/-- A result, or an error that is thrown. -/
def Outcome.ofExcept {ε α : Type*} : Except ε α → Outcome ε α
  | .ok a => returned a
  | .error e => thrown e

/-- A run of a function. -/
structure Attempt (ε R α : Type*) where
  outcome : Outcome ε α
  ops : List (Op R) := []
  /-- What the members of the object under construction have come to hold, most recent
  first. -/
  members : List R := []

namespace Attempt

variable {ε R : Type*} {α β : Type _}

/-- The attempt does not come back. -/
def abort : Attempt ε R α where
  outcome := .noReturn

/-- An error is thrown. -/
def throw (e : ε) : Attempt ε R α where
  outcome := .thrown e

/-- A call that returns or throws. -/
def call (reply : Except ε α) : Attempt ε R α where
  outcome := .ofExcept reply

/-- What a loop computes and throws, if it comes to an end. -/
def loop : Option (Except ε α) → Attempt ε R α
  | none => abort
  | some result => call result

/-- A resource is acquired. -/
def acquire (r : R) : Attempt ε R PUnit where
  outcome := .returned ⟨⟩
  ops := [.acquire r]

/-- Acquires a resource into a member. -/
def member (r : R) : Attempt ε R PUnit where
  outcome := .returned ⟨⟩
  ops := [.acquire r]
  members := [r]

instance : Monad (Attempt ε R) where
  pure a := { outcome := .returned a }
  bind m f :=
    match m.outcome with
    | .returned a =>
      { outcome := (f a).outcome
        ops := m.ops ++ (f a).ops
        members := (f a).members ++ m.members }
    | .thrown e => { m with outcome := .thrown e }
    | .noReturn => { m with outcome := .noReturn }

/-- A local variable holds the resource while `m` runs. -/
def holding (r : R) (m : Attempt ε R α) : Attempt ε R α :=
  match m.outcome with
  | .noReturn => m
  | .returned _ | .thrown _ => { m with ops := m.ops ++ [.release r] }

/-- A local variable holds the resource while `m` runs, and is detached when `m` returns. -/
def detaching (r : R) (m : Attempt ε R α) : Attempt ε R α :=
  match m.outcome with
  | .thrown _ => { m with ops := m.ops ++ [.release r] }
  | .returned _ | .noReturn => m

/-- The construction of an object, with the destructors of its members. -/
def construction (m : Attempt ε R α) : Attempt ε R α where
  outcome := m.outcome
  ops :=
    match m.outcome with
    | .thrown _ => m.ops ++ m.members.map .release
    | .returned _ | .noReturn => m.ops

/-! ## Weakest preconditions -/

section WP

variable [DecidableEq R] {held : Multiset R} {r : R} {m : Attempt ε R α}

/-- Run with `held`, the attempt releases nothing that is not held, and ends in `Q`. -/
def wp (held : Multiset R) (m : Attempt ε R α)
    (Q : Outcome ε α → List R → Multiset R → Prop) : Prop :=
  ∃ left, settle held m.ops = some left ∧ Q m.outcome m.members left

variable {Q : Outcome ε α → List R → Multiset R → Prop} {P : Multiset R → Prop}
  {ops later : List (Op R)}

/-- A ledger is settled in two parts. -/
theorem exists_settle_append : (∃ left, settle held (ops ++ later) = some left ∧ P left) ↔
    ∃ middle, settle held ops = some middle ∧ ∃ left, settle middle later = some left ∧ P left := by
  simp only [settle_append, Option.bind_eq_some_iff]
  exact ⟨fun ⟨left, ⟨middle, first, second⟩, holds⟩ => ⟨middle, first, left, second, holds⟩,
    fun ⟨middle, first, left, second, holds⟩ => ⟨left, ⟨middle, first, second⟩, holds⟩⟩

theorem exists_settle_release : (∃ left, settle held [.release r] = some left ∧ P left) ↔
    r ∈ held ∧ P (held.erase r) := by
  simp [settle, and_assoc]

theorem wp_of_nil (nothing : m.ops = []) : wp held m Q ↔ Q m.outcome m.members held := by
  simp [wp, nothing, settle]

@[simp] theorem wp_pure (a : α) :
    wp held (pure a : Attempt ε R α) Q ↔ Q (.returned a) [] held := wp_of_nil rfl

@[simp] theorem wp_abort : wp held (abort : Attempt ε R α) Q ↔ Q .noReturn [] held := wp_of_nil rfl

@[simp] theorem wp_throw (e : ε) :
    wp held (throw e : Attempt ε R α) Q ↔ Q (.thrown e) [] held := wp_of_nil rfl

@[simp] theorem wp_call_ok (a : α) :
    wp held (call (.ok a) : Attempt ε R α) Q ↔ Q (.returned a) [] held := wp_of_nil rfl

@[simp] theorem wp_call_error (e : ε) :
    wp held (call (.error e) : Attempt ε R α) Q ↔ Q (.thrown e) [] held := wp_of_nil rfl

@[simp] theorem wp_acquire {Q : Outcome ε PUnit → List R → Multiset R → Prop} :
    wp held (acquire r : Attempt ε R PUnit) Q ↔ Q (.returned ⟨⟩) [] (r ::ₘ held) := by
  simp [wp, acquire, settle]

@[simp] theorem wp_member {Q : Outcome ε PUnit → List R → Multiset R → Prop} :
    wp held (member r : Attempt ε R PUnit) Q ↔ Q (.returned ⟨⟩) [r] (r ::ₘ held) := by
  simp [wp, member, settle]

/-- What the rest of a function is run with is what the first part leaves. -/
@[simp] theorem wp_bind {f : α → Attempt ε R β} {Q : Outcome ε β → List R → Multiset R → Prop} :
    wp held (m >>= f) Q ↔ wp held m fun outcome members left =>
      match outcome with
      | .returned a => wp left (f a) fun outcome later => Q outcome (later ++ members)
      | .thrown e => Q (.thrown e) members left
      | .noReturn => Q .noReturn members left := by
  unfold wp
  simp only [Bind.bind]
  cases m.outcome with
  | returned a => exact exists_settle_append
  | thrown e => rfl
  | noReturn => rfl

@[simp] theorem wp_holding : wp held (holding r m) Q ↔ wp held m fun outcome members left =>
    match outcome with
    | .noReturn => Q .noReturn members left
    | .returned a => r ∈ left ∧ Q (.returned a) members (left.erase r)
    | .thrown e => r ∈ left ∧ Q (.thrown e) members (left.erase r) := by
  unfold wp holding
  cases ended : m.outcome <;> simp [ended, exists_settle_append, exists_settle_release]

@[simp] theorem wp_detaching : wp held (detaching r m) Q ↔ wp held m fun outcome members left =>
    match outcome with
    | .thrown e => r ∈ left ∧ Q (.thrown e) members (left.erase r)
    | .returned a => Q (.returned a) members left
    | .noReturn => Q .noReturn members left := by
  unfold wp detaching
  cases ended : m.outcome <;> simp [ended, exists_settle_append, exists_settle_release]

@[simp] theorem wp_construction :
    wp held (construction m) Q ↔ wp held m fun outcome members left =>
      match outcome with
      | .thrown e => ∃ rest, settle left (members.map .release) = some rest ∧ Q (.thrown e) [] rest
      | .returned a => Q (.returned a) [] left
      | .noReturn => Q .noReturn [] left := by
  unfold wp construction
  cases m.outcome <;> simp [exists_settle_append]

end WP

/-! ## Attempts without local resources -/

/-- All that is acquired is acquired into members. -/
def Plain (m : Attempt ε R α) : Prop := m.ops = m.members.reverse.map .acquire

section Plain

variable {r : R} {m : Attempt ε R α} {f : α → Attempt ε R β}

theorem plain_pure (a : α) : (pure a : Attempt ε R α).Plain := rfl

theorem plain_abort : (abort : Attempt ε R α).Plain := rfl

theorem plain_throw (e : ε) : (throw e : Attempt ε R α).Plain := rfl

theorem plain_call (reply : Except ε α) : (call reply : Attempt ε R α).Plain := rfl

theorem plain_loop : (result : Option (Except ε α)) → (loop result : Attempt ε R α).Plain
  | none => rfl
  | some _ => rfl

theorem plain_member : (member r : Attempt ε R PUnit).Plain := rfl

theorem Plain.bind (first : m.Plain) (next : ∀ a, (f a).Plain) : (m >>= f).Plain := by
  unfold Plain at *
  simp only [Bind.bind]
  cases m.outcome with
  | returned a => simp [first, next a]
  | thrown e => exact first
  | noReturn => exact first

/-- What throws gives back all that it acquired, in the reverse order. -/
theorem Plain.construction_thrown {e : ε} (plain : m.Plain) (thrown : m.outcome = .thrown e) :
    (construction m).ops =
      m.members.reverse.map .acquire ++ m.members.reverse.reverse.map .release := by
  rw [List.reverse_reverse, ← show m.ops = _ from plain]
  simp only [construction, thrown]

end Plain

/-! ## Attempts that return -/

/-- The attempt returns `a`, and its members have come to hold `rs`, most recent first. -/
def Returns (m : Attempt ε R α) (a : α) (rs : List R) : Prop :=
  m.outcome = .returned a ∧ m.members = rs

section Returns

variable {r : R} {m : Attempt ε R α} {f : α → Attempt ε R β} {a : α} {b : β} {rs : List R}

@[simp] theorem returns_pure_iff {a' : α} :
    (pure a' : Attempt ε R α).Returns a rs ↔ a' = a ∧ rs = [] := by
  simp [Returns, Pure.pure, eq_comm]

@[simp] theorem not_returns_abort : ¬ (abort : Attempt ε R α).Returns a rs := by
  simp [Returns, abort]

@[simp] theorem not_returns_throw {e : ε} : ¬ (throw e : Attempt ε R α).Returns a rs := by
  simp [Returns, throw]

/-- Both parts return, and the members of the second one are added to those of the first. -/
theorem returns_bind_iff : (m >>= f).Returns b rs ↔
    ∃ a ms, m.Returns a ms ∧ ∃ later, (f a).Returns b later ∧ rs = later ++ ms := by
  unfold Returns
  simp only [Bind.bind]
  cases m.outcome <;> simp [eq_comm]

@[simp] theorem returns_call_bind_iff {reply : Except ε α} :
    (call reply >>= f).Returns b rs ↔ ∃ a, reply = .ok a ∧ (f a).Returns b rs := by
  unfold Returns
  cases reply <;> simp [Bind.bind, call, Outcome.ofExcept]

@[simp] theorem returns_loop_bind_iff {result : Option (Except ε α)} :
    (loop result >>= f).Returns b rs ↔ ∃ a, result = some (.ok a) ∧ (f a).Returns b rs := by
  cases result with
  | none => simp [loop, abort, Returns, Bind.bind]
  | some result => simp [loop]

@[simp] theorem returns_member_bind_iff {g : PUnit → Attempt ε R β} :
    (member r >>= g).Returns b rs ↔ ∃ later, (g ⟨⟩).Returns b later ∧ rs = later ++ [r] := by
  unfold Returns
  simp [Bind.bind, member, eq_comm]

theorem returns_construction_iff :
    (construction m).outcome = .returned a ↔ ∃ rs, m.Returns a rs := by
  simp [Returns, construction]

end Returns

end Attempt

end NvidiaHaiku.Math
