/-
# Hierarchies of resources

A system gives out resources, and some of them lie under others: a file descriptor has
objects under it, and an object its children. What gives a resource back names it, and
everything under that name goes with it. When nothing has that name, the release fails.

A client that gives back in the right order never sees a release fail, and never loses
more than it gives back. What it holds is placed in variables, and the order of the
variables bounds the hierarchy: only what is placed lower can lie under a resource. Then a
release takes the resource of one variable alone, as soon as all lower ones are empty.
-/

import Mathlib.Logic.Equiv.Basic
import NvidiaHaiku.Math.Ledger

namespace NvidiaHaiku.Math

/-- The names and the parents of resources, and what lies under a name. -/
structure Hierarchy (R N : Type*) where
  name : R → N
  parent : R → Option R
  under : R → N → Bool
  self : ∀ r, under r (name r) = true
  /-- A resource lies under its own name and under what its parent lies under. -/
  lineage : ∀ r n, under r n = true → n = name r ∨ ∃ p, parent r = some p ∧ under p n = true

namespace Hierarchy

variable {R N X : Type*} (H : Hierarchy R N)

/-- Nothing held lies under the name of `r`. -/
def Fresh (held : List R) (r : R) : Prop := ∀ c ∈ held, H.under c (H.name r) = false

instance (held : List R) (r : R) : Decidable (H.Fresh held r) :=
  inferInstanceAs (Decidable (∀ c ∈ held, _))

variable [DecidableEq N]

/-- Gives back what is named `n`, and everything under it. -/
def release (held : List R) (n : N) : Option (List R) :=
  if ∃ r ∈ held, H.name r = n then some (held.filter fun c => !H.under c n) else none

/-- What is held after a ledger; `none` if one of its releases fails. -/
def run : List R → List (Op R) → Option (List R)
  | held, [] => some held
  | held, .acquire r :: ops => run (r :: held) ops
  | held, .release r :: ops => (H.release held (H.name r)).bind fun left => run left ops

/-- Whatever the ledger acquires is fresh. -/
def gives : List R → List (Op R) → Bool
  | _, [] => true
  | held, .acquire r :: ops => decide (H.Fresh held r) && gives (r :: held) ops
  | held, .release r :: ops =>
    match H.release held (H.name r) with
    | some left => gives left ops
    | none => true

variable {H} {held left : List R} {r : R} {ops later : List (Op R)} {rs : List R}

/-! ## Ledgers -/

theorem run_append : H.run held (ops ++ later) =
    (H.run held ops).bind fun left => H.run left later := by
  induction ops generalizing held with
  | nil => rfl
  | cons op ops ih =>
    cases op with
    | acquire r => exact ih
    | release r =>
      simp only [List.cons_append, run, Option.bind_assoc]
      exact congrArg _ (funext fun left => ih)

theorem gives_append (ran : H.run held ops = some left) :
    H.gives held (ops ++ later) = true ↔
      H.gives held ops = true ∧ H.gives left later = true := by
  induction ops generalizing held with
  | nil =>
    obtain rfl := Option.some.inj ran
    simp [gives]
  | cons op ops ih =>
    cases op with
    | acquire r =>
      simp only [List.cons_append, gives, Bool.and_eq_true, ih ran, and_assoc]
    | release r =>
      obtain ⟨middle, released, ran⟩ := Option.bind_eq_some_iff.mp ran
      simp only [List.cons_append, gives, released, ih ran]

/-- What was just acquired is given back alone. -/
theorem release_fresh (fresh : H.Fresh held r) :
    H.release (r :: held) (H.name r) = some held := by
  have others : held.filter (fun c => !H.under c (H.name r)) = held :=
    List.filter_eq_self.mpr fun c member => by simp [fresh c member]
  simp [release, H.self, others]

/-- Resources that are given back in the reverse order leave what was held before. -/
theorem run_undo (gives : H.gives held (rs.map .acquire) = true) :
    H.run held (rs.map .acquire ++ rs.reverse.map .release) = some held := by
  induction rs generalizing held with
  | nil => rfl
  | cons r rs ih =>
    simp only [List.map_cons, Hierarchy.gives, Bool.and_eq_true, decide_eq_true_eq] at gives
    obtain ⟨fresh, gives⟩ := gives
    rw [List.reverse_cons, List.map_append, List.map_cons, List.cons_append, ← List.append_assoc,
      run, run_append, ih gives]
    simp [run, release_fresh fresh]

/-- Acquisitions never fail. -/
theorem run_acquires : H.run held (rs.map .acquire) = some (rs.reverse ++ held) := by
  induction rs generalizing held with
  | nil => rfl
  | cons r rs ih => simp [run, ih]

/-! ## Placing what is held -/

variable {le : X → X → Prop} {part : X → Option R} {x : X}

variable (H) in
/-- All that is held is placed in variables, and only what is placed lower lies under a
resource. -/
structure Placed (le : X → X → Prop) (part : X → Option R) (held : List R) : Prop where
  mem : ∀ r, r ∈ held ↔ ∃ x, part x = some r
  nodup : held.Nodup
  single : ∀ x y r, part x = some r → part y = some r → x = y
  order : ∀ x y c r, part x = some c → part y = some r → H.under c (H.name r) = true → le x y

omit [DecidableEq N] in
theorem Placed.empty : H.Placed le (fun _ : X => none) [] := ⟨by simp, by simp, nofun, nofun⟩

omit [DecidableEq N] in
/-- The variables may be permuted, if their order does not mind. -/
theorem Placed.permute (placed : H.Placed le part held) (e : X ≃ X)
    (mono : ∀ x y, le (e x) (e y) → le x y) : H.Placed le (fun x => part (e x)) held where
  mem r := by
    rw [placed.mem]
    exact ⟨fun ⟨x, here⟩ => ⟨e.symm x, by simpa using here⟩, fun ⟨x, here⟩ => ⟨e x, here⟩⟩
  nodup := placed.nodup
  single x y r here here' := e.injective (placed.single _ _ r here here')
  order x y c r here here' under := mono x y (placed.order _ _ c r here here' under)

variable [DecidableEq X]

omit [DecidableEq N] in
/-- A fresh resource is placed below its parent. -/
theorem Placed.acquire [Std.Refl le] [IsTrans X le] (placed : H.Placed le part held)
    (vacant : part x = none) (fresh : H.Fresh held r)
    (rooted : ∀ p, H.parent r = some p → ∃ y, part y = some p ∧ le x y) :
    H.Placed le (Function.update part x (some r)) (r :: held) := by
  have new : r ∉ held := fun member => by simpa [H.self] using fresh r member
  have old : ∀ y c, y ≠ x → Function.update part x (some r) y = some c →
      part y = some c ∧ c ∈ held := by
    intro y c other here
    rw [Function.update_of_ne other] at here
    exact ⟨here, (placed.mem c).mpr ⟨y, here⟩⟩
  refine ⟨fun q => ?_, List.nodup_cons.mpr ⟨new, placed.nodup⟩, fun u v q here here' => ?_,
    fun u v c q here here' under => ?_⟩
  · rw [List.mem_cons, placed.mem]
    constructor
    · rintro (rfl | ⟨y, here⟩)
      · exact ⟨x, by simp⟩
      · have other : y ≠ x := by
          rintro rfl
          simp [vacant] at here
        exact ⟨y, by rwa [Function.update_of_ne other]⟩
    · rintro ⟨y, here⟩
      by_cases other : y = x
      · subst other
        exact Or.inl (by simpa using here.symm)
      · exact Or.inr ⟨y, (old y q other here).1⟩
  · by_cases first : u = x <;> by_cases second : v = x
    · rw [first, second]
    · subst first
      obtain rfl : r = q := by simpa using here
      exact absurd (old v r second here').2 new
    · subst second
      obtain rfl : r = q := by simpa using here'
      exact absurd (old u r first here).2 new
    · exact placed.single u v q (old u q first here).1 (old v q second here').1
  · by_cases first : u = x <;> by_cases second : v = x
    · subst first second
      exact refl _
    · subst first
      obtain rfl : r = c := by simpa using here
      obtain ⟨here', member⟩ := old v q second here'
      rcases H.lineage r _ under with own | ⟨p, parent, under⟩
      · -- nothing that was held has the name of the new one
        have apart := fresh q member
        rw [← own, H.self] at apart
        cases apart
      · obtain ⟨y, there, lower⟩ := rooted p parent
        exact IsTrans.trans _ _ _ lower (placed.order y v p q there here' under)
    · subst second
      obtain rfl : r = q := by simpa using here'
      simp [fresh c (old u c first here).2] at under
    · exact placed.order u v c q (old u c first here).1 (old v q second here').1 under

omit [DecidableEq N] in
/-- The first variable of a list is set before the others. -/
theorem ite_mem_update (part new : X → Option R) (x : X) (xs : List X) :
    (fun y => if y ∈ xs then new y else Function.update part x (new x) y) =
      fun y => if y ∈ x :: xs then new y else part y := by
  funext y
  by_cases same : y = x
  · subst same
    simp
  · simp [same]

/-- Resources are acquired one after the other, parents before their children. -/
theorem Placed.acquires [Std.Refl le] [IsTrans X le] (placed : H.Placed le part held)
    (xs : List X) (new : X → Option R) (vacant : ∀ x ∈ xs, part x = none) (nodup : xs.Nodup)
    (rooted : ∀ x ∈ xs, ∀ r p, new x = some r → H.parent r = some p →
      ∃ y, le x y ∧ (part y = some p ∨ new y = some p ∧ [y, x].Sublist xs))
    (gives : H.gives held ((xs.filterMap new).map .acquire) = true) :
    H.Placed le (fun x => if x ∈ xs then new x else part x)
      ((xs.filterMap new).reverse ++ held) := by
  induction xs generalizing part held with
  | nil => simpa using placed
  | cons x xs ih =>
    obtain ⟨outside, nodup⟩ := List.nodup_cons.mp nodup
    have empty := vacant x List.mem_cons_self
    have merged := ite_mem_update part new x xs
    have later : ∀ z ∈ xs, ∀ r p, new z = some r → H.parent r = some p →
        ∃ y, le z y ∧
          (Function.update part x (new x) y = some p ∨ new y = some p ∧ [y, z].Sublist xs) := by
      intro z member r p here parent
      obtain ⟨y, lower, there | ⟨there, before⟩⟩ :=
        rooted z (List.mem_cons_of_mem _ member) r p here parent
      · have other : y ≠ x := by
          rintro rfl
          simp [empty] at there
        exact ⟨y, lower, Or.inl (by rwa [Function.update_of_ne other])⟩
      · refine ⟨y, lower, ?_⟩
        cases before with
        | cons _ before => exact Or.inr ⟨there, before⟩
        | cons_cons _ _ => exact Or.inl (by simpa using there)
    have vacant : ∀ z ∈ xs, Function.update part x (new x) z = none := fun z member => by
      rw [Function.update_of_ne (ne_of_mem_of_not_mem member outside)]
      exact vacant z (List.mem_cons_of_mem _ member)
    cases here : new x with
    | none =>
      rw [List.filterMap_cons_none here] at gives ⊢
      have unchanged : Function.update part x (new x) = part := by
        rw [here, ← empty, Function.update_eq_self]
      exact merged ▸ ih (unchanged.symm ▸ placed) vacant nodup later gives
    | some r =>
      rw [List.filterMap_cons_some here] at gives ⊢
      simp only [List.map_cons, Hierarchy.gives, Bool.and_eq_true, decide_eq_true_eq] at gives
      have placed := placed.acquire empty gives.1 fun p parent => by
        obtain ⟨y, lower, there | ⟨-, before⟩⟩ := rooted x List.mem_cons_self r p here parent
        · exact ⟨y, there, lower⟩
        · -- the first one has its parent among those placed before
          cases before with
          | cons _ before => exact absurd (before.subset (by simp)) outside
          | cons_cons _ before => exact absurd (List.singleton_sublist.mp before) outside
      rw [← here] at placed
      rw [List.reverse_cons, List.append_assoc]
      exact merged ▸ ih placed vacant nodup later gives.2

/-- A resource is given back alone when nothing is placed lower. -/
theorem Placed.release (placed : H.Placed le part held) (here : part x = some r)
    (lowest : ∀ y, le y x → part y ≠ none → y = x) :
    ∃ left, H.release held (H.name r) = some left ∧
      H.Placed le (Function.update part x none) left := by
  have member : r ∈ held := (placed.mem r).mpr ⟨x, here⟩
  -- what lies under the resource is placed lower, and so is the resource itself
  have alone : ∀ y c, part y = some c → (H.under c (H.name r) = true ↔ y = x) := by
    intro y c there
    constructor
    · intro under
      exact lowest y (placed.order y x c r there here under) (by simp [there])
    · rintro rfl
      obtain rfl := Option.some.inj (here.symm.trans there)
      exact H.self r
  have stays : ∀ y c, Function.update part x none y = some c ↔ part y = some c ∧ y ≠ x := by
    intro y c
    by_cases same : y = x
    · subst same
      simp
    · simp [same]
  refine ⟨_, if_pos ⟨r, member, rfl⟩, ⟨fun q => ?_, placed.nodup.filter _,
    fun u v q there there' => ?_, fun u v c q there there' => ?_⟩⟩
  · simp only [List.mem_filter, placed.mem, stays, Bool.not_eq_true']
    constructor
    · rintro ⟨⟨y, there⟩, apart⟩
      exact ⟨y, there, fun same => by simp [(alone y q there).mpr same] at apart⟩
    · rintro ⟨y, there, other⟩
      exact ⟨⟨y, there⟩, by simpa using mt (alone y q there).mp other⟩
  · exact placed.single u v q ((stays u q).mp there).1 ((stays v q).mp there').1
  · exact placed.order u v c q ((stays u c).mp there).1 ((stays v q).mp there').1

/-- The variables are emptied one after the other, the lower ones first. -/
theorem Placed.releases (placed : H.Placed le part held) (xs : List X)
    (ordered : xs.Pairwise fun earlier next => ¬ le next earlier)
    (closed : ∀ x ∈ xs, ∀ y, le y x → part y ≠ none → y ∈ xs) :
    ∃ left, H.run held ((xs.filterMap part).map .release) = some left ∧
      H.Placed le (fun x => if x ∈ xs then none else part x) left := by
  induction xs generalizing part held with
  | nil => exact ⟨held, rfl, by simpa using placed⟩
  | cons x xs ih =>
    obtain ⟨first, ordered⟩ := List.pairwise_cons.mp ordered
    have merged := ite_mem_update part (fun _ => none) x xs
    cases here : part x with
    | none =>
      have unchanged : Function.update part x none = part := by
        rw [← here, Function.update_eq_self]
      obtain ⟨left, ran, placed⟩ := ih placed ordered fun z member y lower occupied => by
        refine (List.mem_cons.mp (closed z (List.mem_cons_of_mem _ member) y lower
          occupied)).resolve_left ?_
        rintro rfl
        exact occupied here
      rw [unchanged] at merged
      exact ⟨left, by rwa [List.filterMap_cons_none here], merged ▸ placed⟩
    | some r =>
      have outside : x ∉ xs := fun member =>
        first x member (placed.order x x r r here here (H.self r))
      have rest : xs.filterMap (Function.update part x none) = xs.filterMap part :=
        List.filterMap_congr fun y member =>
          Function.update_of_ne (ne_of_mem_of_not_mem member outside) _ _
      obtain ⟨middle, released, placed⟩ := placed.release here fun y lower occupied => by
        refine (List.mem_cons.mp (closed x List.mem_cons_self y lower occupied)).resolve_right ?_
        exact fun member => first y member lower
      obtain ⟨left, ran, placed⟩ := ih placed ordered fun z member y lower occupied => by
        have other : y ≠ x := by
          rintro rfl
          simp at occupied
        rw [Function.update_of_ne other] at occupied
        exact (List.mem_cons.mp (closed z (List.mem_cons_of_mem _ member) y lower
          occupied)).resolve_left other
      refine ⟨left, ?_, merged ▸ placed⟩
      rw [List.filterMap_cons_some here, List.map_cons, run, released, ← rest]
      exact ran

end Hierarchy

end NvidiaHaiku.Math
