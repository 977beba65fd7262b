/-
# The first of the least elements

A search that keeps the best element so far, and replaces it by a strictly better one only,
ends with the first of the least elements that it considers.
-/

import Mathlib.Data.List.MinMax

namespace NvidiaHaiku.Math

variable {α β : Type*} [LinearOrder β] {p : α → Prop} {f : α → β} {l : List α} {m : α}

/-- Of the elements of `l` with `p`, none has a smaller `f` than `m`, and those before `m` have
a greater one. -/
structure IsFirstLeast (p : α → Prop) (f : α → β) (l : List α) (m : α) : Prop where
  passes : p m
  first : ∃ before after, l = before ++ m :: after ∧
    (∀ n ∈ before, p n → f m < f n) ∧ ∀ n ∈ after, p n → f m ≤ f n

theorem exists_split_of_argmin (least : l.argmin f = some m) :
    ∃ before after, l = before ++ m :: after ∧
      (∀ n ∈ before, f m < f n) ∧ ∀ n ∈ after, f m ≤ f n := by
  induction l with
  | nil => simp at least
  | cons a rest ih =>
    rw [List.argmin_cons] at least
    cases below : rest.argmin f with
    | none =>
      -- the first element is the only one
      obtain rfl := List.argmin_eq_none.mp below
      rw [below] at least
      obtain rfl := Option.some.inj least
      exact ⟨[], [], rfl, by simp, by simp⟩
    | some c =>
      simp only [below] at least
      split at least
      · -- a later element is smaller, and so all before it are greater
        rename_i smaller
        obtain rfl := Option.some.inj least
        obtain ⟨before, after, rfl, greater, atLeast⟩ := ih below
        refine ⟨a :: before, after, rfl, ?_, atLeast⟩
        rintro n (_ | ⟨_, member⟩)
        · exact smaller
        · exact greater n member
      · rename_i notSmaller
        obtain rfl := Option.some.inj least
        refine ⟨[], rest, rfl, by simp, fun n member => ?_⟩
        calc f a
            ≤ f c := not_lt.mp notSmaller
          _ ≤ f n := List.le_of_mem_argmin member below

theorem isFirstLeast_of_argmin_filter {test : α → Bool}
    (least : (l.filter test).argmin f = some m) : IsFirstLeast (test · = true) f l m := by
  obtain ⟨before, after, split, greater, atLeast⟩ := exists_split_of_argmin least
  obtain ⟨l₁, l₂, rfl, rfl, rest⟩ := List.filter_eq_append_iff.mp split
  obtain ⟨l₃, l₄, rfl, none, passes, rfl⟩ := List.filter_eq_cons_iff.mp rest
  refine ⟨passes, l₁ ++ l₃, l₄, (List.append_assoc ..).symm, ?_, ?_⟩
  · intro n member tested
    rcases List.mem_append.mp member with member | member
    · exact greater n (List.mem_filter.mpr ⟨member, tested⟩)
    · exact absurd tested (none n member)
  · intro n member tested
    exact atLeast n (List.mem_filter.mpr ⟨member, tested⟩)

namespace IsFirstLeast

theorem mem (least : IsFirstLeast p f l m) : m ∈ l := by
  obtain ⟨before, after, rfl, -⟩ := least.first
  simp

theorem imp {q : α → Prop} (iff : ∀ n, p n ↔ q n) (least : IsFirstLeast p f l m) :
    IsFirstLeast q f l m := by
  obtain rfl : p = q := funext fun n => propext (iff n)
  exact least

end IsFirstLeast

end NvidiaHaiku.Math
