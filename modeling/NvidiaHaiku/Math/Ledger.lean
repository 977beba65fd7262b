/-
# Ledgers of resources

A program acquires and releases resources, and its ledger lists what it did in order.
Settling a ledger runs through it with what is held. A release of something that is not
held cannot be settled. A ledger is balanced when it starts and ends with nothing held,
which makes every acquired resource released exactly once and nothing else released.

Ledgers are settled piece by piece. What is held besides does not matter to a piece, so
a function is described by what it adds to what is held.
-/

import Mathlib.Data.Multiset.Count
import Mathlib.Data.Multiset.MapFold

namespace NvidiaHaiku.Math

/-- An entry of a ledger. -/
inductive Op (R : Type*)
  | acquire (r : R)
  | release (r : R)
  deriving DecidableEq, Repr

variable {R S : Type*}

/-- The entry about the image of the resource. -/
def Op.map (f : R → S) : Op R → Op S
  | acquire r => acquire (f r)
  | release r => release (f r)

/-- The entry about the image of the resource, if it has one. -/
def Op.restrict (f : R → Option S) : Op R → Option (Op S)
  | acquire r => (f r).map acquire
  | release r => (f r).map release

variable {ops later : List (Op R)}

/-! ## Settling -/

section Settle

variable [DecidableEq R] [DecidableEq S] {held left frame : Multiset R}

/-- What is held in the end, if nothing is released that is not held. -/
def settle : Multiset R → List (Op R) → Option (Multiset R)
  | held, [] => some held
  | held, .acquire r :: ops => settle (r ::ₘ held) ops
  | held, .release r :: ops => if r ∈ held then settle (held.erase r) ops else none

/-- Every acquired resource is released exactly once, and nothing else is. -/
def Balanced (ops : List (Op R)) : Prop := settle 0 ops = some 0

theorem settle_append :
    settle held (ops ++ later) = (settle held ops).bind fun left => settle left later := by
  induction ops generalizing held with
  | nil => rfl
  | cons op ops ih =>
    cases op with
    | acquire r => exact ih
    | release r =>
      simp only [List.cons_append, settle]
      split
      · exact ih
      · rfl

/-- One piece after another. -/
theorem settle_trans {rest : Multiset R} (first : settle held ops = some left)
    (second : settle left later = some rest) : settle held (ops ++ later) = some rest := by
  rw [settle_append, first, Option.bind_some, second]

/-- What is held besides does not matter. -/
theorem settle_frame (settled : settle held ops = some left) :
    settle (frame + held) ops = some (frame + left) := by
  induction ops generalizing held with
  | nil => exact congrArg _ (congrArg _ (Option.some.inj settled))
  | cons op ops ih =>
    cases op with
    | acquire r =>
      rw [settle, ← Multiset.add_cons]
      exact ih settled
    | release r =>
      obtain ⟨member, settled⟩ := Option.ite_none_right_eq_some.mp settled
      have member' : r ∈ frame + held := Multiset.mem_add.mpr (Or.inr member)
      rw [settle, if_pos member', Multiset.erase_add_right_pos _ member]
      exact ih settled

/-- A piece that gives back all of its own. -/
theorem settle_rest (settled : settle held ops = some 0) :
    settle (held + frame) ops = some frame := by
  rw [Multiset.add_comm held]
  exact (settle_frame settled).trans (congrArg some (Multiset.add_zero frame))

theorem settle_acquires (rs : List R) :
    settle held (rs.map .acquire) = some (held + (rs : Multiset R)) := by
  induction rs generalizing held with
  | nil => simp [settle]
  | cons r rs ih =>
    rw [List.map_cons, settle, ih, ← Multiset.cons_coe, Multiset.cons_add, Multiset.add_cons]

theorem settle_releases (rs : List R) :
    settle (held + (rs : Multiset R)) (rs.map .release) = some held := by
  induction rs generalizing held with
  | nil => simp [settle]
  | cons r rs ih =>
    rw [← Multiset.cons_coe, Multiset.add_cons, List.map_cons, settle,
      if_pos (Multiset.mem_cons_self r _), Multiset.erase_cons_head]
    exact ih

theorem settle_map {f : R → S} (injective : Function.Injective f)
    (settled : settle held ops = some left) :
    settle (held.map f) (ops.map (Op.map f)) = some (left.map f) := by
  induction ops generalizing held with
  | nil => exact congrArg _ (congrArg _ (Option.some.inj settled))
  | cons op ops ih =>
    cases op with
    | acquire r =>
      rw [List.map_cons, Op.map, settle, ← Multiset.map_cons]
      exact ih settled
    | release r =>
      obtain ⟨member, settled⟩ := Option.ite_none_right_eq_some.mp settled
      rw [List.map_cons, Op.map, settle, if_pos (Multiset.mem_map_of_mem f member),
        ← Multiset.map_erase f injective]
      exact ih settled

end Settle

/-! ## The order of releases -/

/-- Whatever is released is one of `P`. -/
def Releases (P : R → Prop) (ops : List (Op R)) : Prop := ∀ r, .release r ∈ ops → P r

/-- Resources that have a rank are released in the order of their ranks. -/
def Ordered (rank : R → Option ℕ) (ops : List (Op R)) : Prop :=
  ops.Pairwise fun x y => ∀ r s, x = .release r → y = .release s →
    ∀ a ∈ rank r, ∀ b ∈ rank s, a ≤ b

variable {P Q : R → Prop} {rank : R → Option ℕ}

theorem Releases.mono (releases : Releases P ops) (weaker : ∀ r, P r → Q r) : Releases Q ops :=
  fun r member => weaker r (releases r member)

theorem releases_append : Releases P (ops ++ later) ↔ Releases P ops ∧ Releases P later := by
  constructor
  · intro releases
    exact ⟨fun r member => releases r (List.mem_append_left _ member),
      fun r member => releases r (List.mem_append_right _ member)⟩
  · rintro ⟨first, second⟩ r member
    rcases List.mem_append.mp member with member | member
    · exact first r member
    · exact second r member

theorem releases_map {f : R → S} {P : S → Prop} (every : ∀ r, P (f r)) :
    Releases P (ops.map (Op.map f)) := by
  intro s member
  obtain ⟨op, -, image⟩ := List.mem_map.mp member
  cases op with
  | acquire r => simp [Op.map] at image
  | release r =>
    obtain rfl := Op.release.inj image
    exact every r

/-- One rank at most is released. -/
theorem ordered_of_rank (k : ℕ) (releases : Releases (fun r => ∀ a ∈ rank r, a = k) ops) :
    Ordered rank ops := by
  apply List.pairwise_of_forall_mem_list
  rintro x member y member' r s rfl rfl a ha b hb
  rw [releases r member a ha, releases s member' b hb]

/-- Two pieces with the ranks on the two sides of some number. -/
theorem ordered_append (k : ℕ) (first : Ordered rank ops) (second : Ordered rank later)
    (below : Releases (fun r => ∀ a ∈ rank r, a ≤ k) ops)
    (above : Releases (fun r => ∀ a ∈ rank r, k ≤ a) later) : Ordered rank (ops ++ later) := by
  refine List.pairwise_append.mpr ⟨first, second, ?_⟩
  rintro x member y member' r s rfl rfl a ha b hb
  exact (below r member a ha).trans (above s member' b hb)

/-- A piece that releases one rank at most, behind lower ranks. -/
theorem Ordered.append_rank {k : ℕ} (first : Ordered rank ops)
    (below : Releases (fun r => ∀ a ∈ rank r, a ≤ k) ops)
    (next : Releases (fun r => ∀ a ∈ rank r, a = k) later) : Ordered rank (ops ++ later) :=
  ordered_append k first (ordered_of_rank k next) below
    (next.mono fun _ same a ha => (same a ha).ge)

end NvidiaHaiku.Math
