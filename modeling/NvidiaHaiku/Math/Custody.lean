/-
# Custody of resources

A system hands resources from place to place: a pool slot, a list of things to
release, the possession of a client. The multiset of everything held in any
place is in exact custody of the live resources when each live resource is held
once and nothing else is held.

Moving a resource does not change the multiset, so only acquiring and releasing
need a rule. Both rules are stated for one resource at the head of the multiset,
which is where a step that touches it puts it.
-/

import Mathlib.Data.List.ReduceOption
import Mathlib.Data.Multiset.AddSub
import Mathlib.Data.Multiset.Bind
import Mathlib.Data.Multiset.Filter
import Mathlib.Data.Set.Insert

namespace NvidiaHaiku.Math

variable {R : Type*}

/-- Every live resource is held in exactly one place, and only live ones are. -/
structure ExactCustody (held : Multiset R) (live : Set R) : Prop where
  nodup : held.Nodup
  mem_iff : ∀ r, r ∈ held ↔ r ∈ live

namespace ExactCustody

variable {held rest : Multiset R} {live : Set R} {r : R}

theorem empty : ExactCustody (0 : Multiset R) ∅ :=
  ⟨Multiset.nodup_zero, fun r => by simp⟩

/-- A resource that is not live yet may be acquired. -/
theorem acquire (exact : ExactCustody held live) (fresh : r ∉ live) :
    ExactCustody (r ::ₘ held) (insert r live) where
  nodup := Multiset.nodup_cons.mpr ⟨fun member => fresh ((exact.mem_iff r).mp member), exact.nodup⟩
  mem_iff q := by simp [exact.mem_iff q]

/-- A held resource may be released. It was live, and it is not held elsewhere. -/
theorem release (exact : ExactCustody (r ::ₘ rest) live) : ExactCustody rest (live \ {r}) where
  nodup := (Multiset.nodup_cons.mp exact.nodup).2
  mem_iff q := by
    -- the released resource was held once, so it is not held any more
    have absent : r ∉ rest := (Multiset.nodup_cons.mp exact.nodup).1
    rw [Set.mem_sdiff, Set.mem_singleton_iff, ← exact.mem_iff q, Multiset.mem_cons]
    constructor
    · intro member
      exact ⟨Or.inr member, fun same => absent (same ▸ member)⟩
    · rintro ⟨rfl | member, different⟩
      · exact absurd rfl different
      · exact member

theorem live_of_mem (exact : ExactCustody held live) (member : r ∈ held) : r ∈ live :=
  (exact.mem_iff r).mp member

theorem count_eq_one [DecidableEq R] (exact : ExactCustody held live) (alive : r ∈ live) :
    held.count r = 1 :=
  Multiset.count_eq_one_of_mem exact.nodup ((exact.mem_iff r).mpr alive)

theorem count_eq_zero [DecidableEq R] (exact : ExactCustody held live) (dead : r ∉ live) :
    held.count r = 0 :=
  Multiset.count_eq_zero.mpr fun member => dead (exact.live_of_mem member)

end ExactCustody

/-- The resources among handles of which some may be null. -/
def resources (handles : List (Option R)) : Multiset R := (handles.reduceOption : Multiset R)

@[simp] theorem resources_nil : resources ([] : List (Option R)) = 0 := rfl

@[simp] theorem resources_append (first second : List (Option R)) :
    resources (first ++ second) = resources first + resources second := by
  simp [resources, List.reduceOption_append]

@[simp] theorem resources_none : resources [(none : Option R)] = 0 := rfl

@[simp] theorem resources_some (r : R) : resources [some r] = {r} := rfl

end NvidiaHaiku.Math
