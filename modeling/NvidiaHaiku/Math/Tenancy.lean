/-
# Tables and those who hold their entries

A table gives out entries, and gives an entry out again after it has been returned. An
entry is in use exactly while some place holds it, and never two places at a time. So
an entry that is returned is free, and one that is given out is nobody else's.

The rules take an entry from the table into an empty place, move it from place to
place, and return it.
-/

import Mathlib.Data.Set.Insert
import Mathlib.Logic.Equiv.Basic
import Mathlib.Logic.Function.Basic

namespace NvidiaHaiku.Math

variable {ν R : Type*}

/-- The entries in use are each held in one place, and only they are held. -/
structure HeldOnce (owner : ν → Option R) (used : Set R) : Prop where
  used_iff : ∀ r, r ∈ used ↔ ∃ v, owner v = some r
  single : ∀ v w r, owner v = some r → owner w = some r → v = w

namespace HeldOnce

variable {owner : ν → Option R} {used : Set R} {v w : ν} {r : R}

theorem empty : HeldOnce (fun _ : ν => (none : Option R)) ∅ :=
  ⟨fun r => by simp, fun _ _ _ owns => nomatch owns⟩

theorem used_of_owner (held : HeldOnce owner used) (owns : owner v = some r) : r ∈ used :=
  (held.used_iff r).mpr ⟨v, owns⟩

theorem comp (held : HeldOnce owner used) (rename : ν ≃ ν) : HeldOnce (owner ∘ rename) used where
  used_iff r := (held.used_iff r).trans
    ⟨fun ⟨v, owns⟩ => ⟨rename.symm v, by simpa using owns⟩, fun ⟨v, owns⟩ => ⟨rename v, owns⟩⟩
  single v w r owns owns' := rename.injective (held.single _ _ r owns owns')

variable [DecidableEq ν]

/-- An empty place takes an entry that is not in use. -/
theorem take (held : HeldOnce owner used) (vacant : owner v = none) (free : r ∉ used) :
    HeldOnce (Function.update owner v (some r)) (insert r used) := by
  have others (w : ν) (q : R) : Function.update owner v (some r) w = some q ↔
      w = v ∧ q = r ∨ owner w = some q := by
    by_cases same : w = v
    · simp [same, vacant, eq_comm]
    · simp [same]
  refine ⟨fun q => ?_, fun w w' q owns owns' => ?_⟩
  · simp only [Set.mem_insert_iff, held.used_iff, others]
    constructor
    · rintro (rfl | ⟨w, owns⟩)
      · exact ⟨v, Or.inl ⟨rfl, rfl⟩⟩
      · exact ⟨w, Or.inr owns⟩
    · rintro ⟨w, ⟨-, rfl⟩ | owns⟩
      · exact Or.inl rfl
      · exact Or.inr ⟨w, owns⟩
  · rcases (others w q).mp owns with ⟨rfl, rfl⟩ | before
    · rcases (others w' q).mp owns' with ⟨rfl, -⟩ | before'
      · rfl
      · exact absurd (held.used_of_owner before') free
    · rcases (others w' q).mp owns' with ⟨-, rfl⟩ | before'
      · exact absurd (held.used_of_owner before) free
      · exact held.single w w' q before before'

/-- A place returns its entry. -/
theorem giveBack (held : HeldOnce owner used) (owns : owner v = some r) :
    HeldOnce (Function.update owner v none) (used \ {r}) := by
  have others (w : ν) (q : R) : Function.update owner v none w = some q ↔
      w ≠ v ∧ owner w = some q := by
    by_cases same : w = v <;> simp [same]
  refine ⟨fun q => ?_, fun w w' q also also' => ?_⟩
  · simp only [Set.mem_sdiff, Set.mem_singleton_iff, held.used_iff, others]
    constructor
    · rintro ⟨⟨w, also⟩, different⟩
      exact ⟨w, fun same => different (Option.some.inj (also.symm.trans (same ▸ owns))), also⟩
    · rintro ⟨w, apart, also⟩
      exact ⟨⟨w, also⟩, fun same => apart (held.single w v q also (same ▸ owns))⟩
  · exact held.single w w' q ((others w q).mp also).2 ((others w' q).mp also').2

/-- A place that holds nothing may be emptied. -/
theorem vacate (held : HeldOnce owner used) (vacant : owner v = none) :
    HeldOnce (Function.update owner v none) used := by
  rwa [← vacant, Function.update_eq_self]

/-- What a place holds, if anything, moves into an empty one. -/
theorem move (held : HeldOnce owner used) (vacant : owner w = none) :
    HeldOnce (Function.update (Function.update owner w (owner v)) v none) used := by
  have swapped : Function.update (Function.update owner w (owner v)) v none =
      owner ∘ Equiv.swap v w := by
    funext u
    by_cases source : u = v
    · subst source
      simp [vacant]
    · by_cases target : u = w
      · subst target
        simp [Function.update_of_ne source]
      · simp [Function.update_of_ne source, Function.update_of_ne target,
          Equiv.swap_apply_of_ne_of_ne source target]
  rw [swapped]
  exact held.comp _

end HeldOnce

/-! ## Tables -/

variable {β : Type*} {table : R → Option β} {r : R} {b : β}

/-- The entries of a table that are in use. -/
def used (table : R → Option β) : Set R := {r | table r ≠ none}

@[simp] theorem mem_used : r ∈ used table ↔ table r ≠ none := Iff.rfl

@[simp] theorem used_empty : used (fun _ : R => (none : Option β)) = ∅ := by
  ext
  simp

variable [DecidableEq R]

@[simp] theorem used_update_some :
    used (Function.update table r (some b)) = insert r (used table) := by
  ext q
  by_cases same : q = r <;> simp [same]

@[simp] theorem used_update_none :
    used (Function.update table r none) = used table \ {r} := by
  ext q
  by_cases same : q = r <;> simp [same]

end NvidiaHaiku.Math
