/-
# Unique ownership by variables

Resources are acquired into variables, moved between variables, and released by
the variable that owns them. Ownership is unique when every resource acquired so
far is owned by exactly one variable or has been released exactly once, and no
other resource is owned or has been released.

There is a rule for each thing a special member function does to ownership: it
acquires into an empty variable, releases from an owning one, or moves what a
variable owns, if anything, into an empty one. A move assignment is a release
followed by a move.
-/

import Mathlib.Data.List.Nodup
import Mathlib.Logic.Equiv.Basic
import Mathlib.Logic.Function.Basic

namespace NvidiaHaiku.Math

variable {ν R : Type*}

/-- Every resource in `made` is owned by one variable or was released once. -/
structure UniqueOwner (owner : ν → Option R) (made released : List R) : Prop where
  owned : ∀ v r, owner v = some r → r ∈ made ∧ r ∉ released
  single : ∀ v w r, owner v = some r → owner w = some r → v = w
  covered : ∀ r ∈ made, r ∈ released ∨ ∃ v, owner v = some r
  released_subset : ∀ r ∈ released, r ∈ made
  released_nodup : released.Nodup

namespace UniqueOwner

variable {owner : ν → Option R} {made released : List R} {v w : ν} {r : R}

theorem empty : UniqueOwner (fun _ : ν => (none : Option R)) [] [] where
  owned _ _ owns := nomatch owns
  single _ _ _ owns := nomatch owns
  covered _ member := nomatch member
  released_subset _ member := nomatch member
  released_nodup := List.nodup_nil

/-- A resource that has not been released is owned by exactly one variable. -/
theorem existsUnique (unique : UniqueOwner owner made released) (member : r ∈ made)
    (unreleased : r ∉ released) : ∃! v, owner v = some r := by
  obtain ⟨v, owns⟩ := (unique.covered r member).resolve_left unreleased
  exact ⟨v, owns, fun w also => unique.single w v r also owns⟩

/-- Ownership does not depend on the order of the releases. -/
theorem perm {released' : List R} (unique : UniqueOwner owner made released)
    (same : released.Perm released') : UniqueOwner owner made released' where
  owned v r owns := (unique.owned v r owns).imp_right fun unreleased gone =>
    unreleased (same.mem_iff.mpr gone)
  single := unique.single
  covered r member := (unique.covered r member).imp_left same.mem_iff.mp
  released_subset r gone := unique.released_subset r (same.mem_iff.mpr gone)
  released_nodup := same.nodup_iff.mp unique.released_nodup

/-- Ownership does not depend on which variable is which. -/
theorem comp (unique : UniqueOwner owner made released) (rename : ν ≃ ν) :
    UniqueOwner (owner ∘ rename) made released where
  owned v r owns := unique.owned (rename v) r owns
  single v w r owns owns' := rename.injective (unique.single _ _ r owns owns')
  covered r member := (unique.covered r member).imp_right fun ⟨v, owns⟩ =>
    ⟨rename.symm v, by simpa using owns⟩
  released_subset := unique.released_subset
  released_nodup := unique.released_nodup

variable [DecidableEq ν]

/-- A fresh resource is acquired into an empty variable. -/
theorem acquire (unique : UniqueOwner owner made released) (vacant : owner v = none)
    (fresh : r ∉ made) : UniqueOwner (Function.update owner v (some r)) (r :: made) released where
  owned w q owns := by
    by_cases same : w = v
    · subst same
      obtain rfl : r = q := by simpa using owns
      exact ⟨List.mem_cons_self, fun gone => fresh (unique.released_subset r gone)⟩
    · rw [Function.update_of_ne same] at owns
      obtain ⟨member, unreleased⟩ := unique.owned w q owns
      exact ⟨List.mem_cons_of_mem _ member, unreleased⟩
  single w w' q owns owns' := by
    -- the other variables own older resources
    have old : ∀ u, u ≠ v → Function.update owner v (some r) u = some q → q ≠ r := by
      rintro u different owns rfl
      rw [Function.update_of_ne different] at owns
      exact fresh (unique.owned u q owns).1
    by_cases same : w = v
    · by_cases same' : w' = v
      · rw [same, same']
      · subst same
        refine absurd ?_ (old w' same' owns')
        simpa using owns.symm
    · by_cases same' : w' = v
      · subst same'
        refine absurd ?_ (old w same owns)
        simpa using owns'.symm
      · rw [Function.update_of_ne same] at owns
        rw [Function.update_of_ne same'] at owns'
        exact unique.single w w' q owns owns'
  covered q member := by
    rcases List.mem_cons.mp member with rfl | member
    · exact Or.inr ⟨v, by simp⟩
    · refine (unique.covered q member).imp_right fun ⟨w, owns⟩ => ⟨w, ?_⟩
      have different : w ≠ v := fun same => by simp [same, vacant] at owns
      rwa [Function.update_of_ne different]
  released_subset q gone := List.mem_cons_of_mem _ (unique.released_subset q gone)
  released_nodup := unique.released_nodup

/-- An owning variable releases its resource. -/
theorem release (unique : UniqueOwner owner made released) (owns : owner v = some r) :
    UniqueOwner (Function.update owner v none) made (r :: released) where
  owned w q also := by
    have different : w ≠ v := fun same => by simp [same] at also
    rw [Function.update_of_ne different] at also
    obtain ⟨member, unreleased⟩ := unique.owned w q also
    refine ⟨member, fun gone => (List.mem_cons.mp gone).elim ?_ unreleased⟩
    -- a second owner of what has been released would have been `v` itself
    rintro rfl
    exact different (unique.single w v q also owns)
  single w w' q also also' := by
    have different : ∀ u, Function.update owner v none u = some q → u ≠ v :=
      fun u also same => by simp [same] at also
    rw [Function.update_of_ne (different w also)] at also
    rw [Function.update_of_ne (different w' also')] at also'
    exact unique.single w w' q also also'
  covered q member := by
    rcases unique.covered q member with gone | ⟨w, also⟩
    · exact Or.inl (List.mem_cons_of_mem _ gone)
    · by_cases same : w = v
      · -- this is the resource that is released now
        subst same
        obtain rfl := Option.some.inj (owns.symm.trans also)
        exact Or.inl List.mem_cons_self
      · exact Or.inr ⟨w, by rwa [Function.update_of_ne same]⟩
  released_subset q gone := by
    rcases List.mem_cons.mp gone with rfl | gone
    · exact (unique.owned v q owns).1
    · exact unique.released_subset q gone
  released_nodup := List.nodup_cons.mpr ⟨(unique.owned v r owns).2, unique.released_nodup⟩

/-- A variable releases what it owns, if anything. -/
theorem clear (unique : UniqueOwner owner made released) :
    UniqueOwner (Function.update owner v none) made ((owner v).toList ++ released) := by
  cases owns : owner v with
  | none =>
    rw [← owns, Function.update_eq_self, owns]
    exact unique
  | some r => exact unique.release owns

/-- What a variable owns, if anything, moves into an empty one. -/
theorem move (unique : UniqueOwner owner made released) (vacant : owner w = none) :
    UniqueOwner (Function.update (Function.update owner w (owner v)) v none) made released := by
  -- the empty variable and the source trade places
  have swapped : Function.update (Function.update owner w (owner v)) v none =
      owner ∘ Equiv.swap v w := by
    funext u
    by_cases source : u = v
    · subst source
      simp [vacant]
    · by_cases target : u = w
      · subst target
        simp [Function.update_of_ne source]
      · simp [Function.update_of_ne source, Function.update_of_ne target,
          Equiv.swap_apply_of_ne_of_ne source target]
  rw [swapped]
  exact unique.comp _

end UniqueOwner

end NvidiaHaiku.Math
