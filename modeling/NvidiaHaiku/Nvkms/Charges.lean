/-
# Who is in charge of which handle

A handle is in the charge of devfs once `Open` has returned it, and of one thread
while it is being opened or freed. The registry is the part of the state that says
which handles exist, which are published and who their clients in NVKMS are. A call
relies on what the registry says about its own handle only, so that a step which
changes the registry at one handle needs a look at the calls on that handle.
-/

import NvidiaHaiku.Nvkms.Device

namespace NvidiaHaiku.Nvkms

variable {θ κ : Type*}

/-- The part of the state that says which handles exist and who their clients are. -/
structure Registry where
  /-- The field `fCookie` of the handles that exist. -/
  cookieOf : HandlePtr → Option (Option Cookie)
  published : HandlePtr → Bool
  clients : Cookie → Option HandlePtr

/-- Which client has which handle. -/
def KmsState.registry (s : KmsState θ κ) : Registry where
  cookieOf h := (s.handles h).map (·.fCookie)
  published := s.published
  clients := s.clients

/-- The call is responsible for the handle: it is opening or freeing it. -/
def CoreCall.claims (c : CoreCall) (h : HandlePtr) : Prop :=
  c.handle = h ∧ ∀ cmd, c.call ≠ .nvKmsIoctl cmd

/-- What a call through `Locker` relies on. -/
def Registry.Serves (r : Registry) (c : CoreCall) : Prop :=
  match c.call, c.stage with
  | .nvKmsIoctl _, _ => r.published c.handle = true
  | .nvKmsOpen, .lock | .nvKmsOpen, .core =>
    r.published c.handle = false ∧ r.cookieOf c.handle = some none
  | .nvKmsOpen, .unlock _ | .nvKmsOpen, .finish _ =>
    r.published c.handle = false ∧ ∃ cookie, r.cookieOf c.handle = some cookie ∧
      ∀ k ∈ cookie, r.clients k = some c.handle
  | .nvKmsClose, .lock | .nvKmsClose, .core =>
    r.published c.handle = false ∧ ∃ k, r.cookieOf c.handle = some (some k) ∧
      r.clients k = some c.handle
  | .nvKmsClose, .unlock _ | .nvKmsClose, .finish _ =>
    r.published c.handle = false ∧ (∃ cookie, r.cookieOf c.handle = some cookie) ∧
      ∀ k, r.clients k ≠ some c.handle

/-- What a call on a select pool relies on: devfs waits for it, or NVKMS has made it for a
client that is open or about to be. -/
def Registry.Reaches (r : Registry) (core : Option CoreCall) (p : PoolCall κ) : Prop :=
  match core with
  | none => r.published p.handle = true
  | some c => c.stage = .core ∧
      ((∃ k, r.clients k = some p.handle) ∨ c.call = .nvKmsOpen ∧ c.handle = p.handle)

/-- Every handle is in the charge of devfs or of one thread, and every client has its handle. -/
structure Charged (r : Registry) (threads : θ → Thread κ) : Prop where
  client : ∀ k h, r.clients k = some h → r.cookieOf h = some (some k)
  published : ∀ h, r.published h = true → ∃ k, r.cookieOf h = some (some k) ∧ r.clients k = some h
  core : ∀ t c, (threads t).core = some c → r.Serves c
  pool : ∀ t p, (threads t).pool = some p → r.Reaches (threads t).core p
  single : ∀ t t' c c' h, (threads t).core = some c → (threads t').core = some c' →
    c.claims h → c'.claims h → t = t'
  charge : ∀ h, (r.cookieOf h).isSome = true → r.published h = true ∨
    ∃ t c, (threads t).core = some c ∧ c.claims h

variable {s : KmsState θ κ} {handle : KmsHandle θ κ} {r r' : Registry} {threads : θ → Thread κ}
  {t t' : θ} {c c' : CoreCall} {x : Thread κ} {h : HandlePtr} {k : Cookie} {p : PoolCall κ}

/-- A handle that a call relies on exists. -/
theorem Charged.exists_of_core (charged : Charged r threads) (has : (threads t).core = some c) :
    ∃ cookie, r.cookieOf c.handle = some cookie := by
  have serves := charged.core t c has
  obtain ⟨call, handle, stage⟩ := c
  cases call with
  | nvKmsIoctl cmd =>
    obtain ⟨k, present, -⟩ := charged.published handle serves
    exact ⟨_, present⟩
  | nvKmsOpen =>
    cases stage with
    | lock | core => exact ⟨_, serves.2⟩
    | unlock | finish => exact ⟨_, serves.2.choose_spec.1⟩
  | nvKmsClose =>
    cases stage with
    | lock | core => exact ⟨_, serves.2.choose_spec.1⟩
    | unlock | finish => exact serves.2.1

/-- A handle whose select pool is used exists. -/
theorem Charged.exists_of_pool (charged : Charged r threads) (has : (threads t).pool = some p) :
    ∃ cookie, r.cookieOf p.handle = some cookie := by
  have reaches := charged.pool t p has
  cases core : (threads t).core with
  | none =>
    rw [core] at reaches
    obtain ⟨k, present, -⟩ := charged.published p.handle reaches
    exact ⟨_, present⟩
  | some c =>
    rw [core] at reaches
    obtain ⟨-, ⟨k, client⟩ | ⟨-, same⟩⟩ := reaches
    · exact ⟨_, charged.client k p.handle client⟩
    · exact same ▸ charged.exists_of_core core

theorem claims_or_ioctl (c : CoreCall) : c.claims c.handle ∨ ∃ cmd, c.call = .nvKmsIoctl cmd := by
  obtain ⟨call, handle, stage⟩ := c
  cases call with
  | nvKmsIoctl cmd => exact Or.inr ⟨cmd, rfl⟩
  | nvKmsOpen | nvKmsClose => exact Or.inl ⟨rfl, nofun⟩

/-- devfs is not in charge of a handle that a call is. -/
theorem Charged.unpublished (charged : Charged r threads) (has : (threads t).core = some c)
    (claims : c.claims h) : r.published h = false := by
  have serves := charged.core t c has
  obtain ⟨rfl, other⟩ := claims
  obtain ⟨call, handle, stage⟩ := c
  cases call with
  | nvKmsIoctl cmd => exact absurd rfl (other cmd)
  | nvKmsOpen | nvKmsClose => cases stage <;> exact serves.1

/-- No other call through `Locker` is on a handle that a call is in charge of. -/
theorem Charged.alone (charged : Charged r threads) (has : (threads t).core = some c)
    (claims : c.claims h) (t' : θ) (c' : CoreCall) (other : t' ≠ t)
    (has' : (threads t').core = some c') : c'.handle ≠ h := by
  rintro rfl
  rcases claims_or_ioctl c' with claims' | ⟨cmd, ioctl⟩
  · exact other (charged.single t' t c' c _ has' has claims' claims)
  · have serves := charged.core t' c' has'
    simp only [Registry.Serves, ioctl] at serves
    cases (charged.unpublished has claims).symm.trans serves

/-! ## What one thread may change -/

/-- The two registries say the same about the handle. -/
structure SameAt (r r' : Registry) (h : HandlePtr) : Prop where
  cookieOf : r'.cookieOf h = r.cookieOf h
  published : r'.published h = r.published h
  clients : ∀ k, r'.clients k = some h ↔ r.clients k = some h

theorem Registry.Serves.congr (serves : r.Serves c) (same : SameAt r r' c.handle) :
    r'.Serves c := by
  unfold Registry.Serves at serves ⊢
  split at serves <;> simp_all [same.cookieOf, same.published, same.clients]

theorem Registry.Reaches.congr {core : Option CoreCall} (reaches : r.Reaches core p)
    (same : SameAt r r' p.handle) : r'.Reaches core p := by
  cases core with
  | none => exact same.published.trans reaches
  | some c => exact reaches.imp_right (.imp_left (Exists.imp fun k => (same.clients k).mpr))

/-! ## The registry of a state -/

theorem cookieOf_eq_some {cookie : Option Cookie} :
    s.registry.cookieOf h = some cookie ↔ ∃ handle, s.handles h = some handle ∧
      handle.fCookie = cookie :=
  Option.map_eq_some_iff

theorem registry_setHandle (s : KmsState θ κ) (h : HandlePtr) (new : Option (KmsHandle θ κ)) :
    (s.setHandle h new).registry =
      { s.registry with
        cookieOf := Function.update s.registry.cookieOf h (new.map (·.fCookie)) } := by
  have cookies : (s.setHandle h new).registry.cookieOf =
      Function.update s.registry.cookieOf h (new.map (·.fCookie)) := by
    funext h'
    rcases eq_or_ne h' h with rfl | different
    · simp [KmsState.registry, KmsState.setHandle]
    · simp [KmsState.registry, KmsState.setHandle, different]
  rw [← cookies]
  rfl

/-- A handle keeps its cookie. -/
theorem registry_of_same (present : s.handles h = some handle) (new : KmsHandle θ κ)
    (same : new.fCookie = handle.fCookie) : (s.setHandle h (some new)).registry = s.registry := by
  rw [registry_setHandle]
  have kept : Function.update s.registry.cookieOf h (some new.fCookie) = s.registry.cookieOf := by
    apply Function.update_eq_self_iff.mpr
    rw [same]
    exact (cookieOf_eq_some.mpr ⟨handle, present, rfl⟩).symm
  rw [Option.map_some, kept]

/-- A call stays in charge of its handle, however far it gets. -/
theorem claims_advance (has : (threads t).core = some c) (stage : CoreStage) (h : HandlePtr) :
    (∃ c', some { c with stage := stage } = some c' ∧ c'.claims h) ↔
      ∃ c', (threads t).core = some c' ∧ c'.claims h := by
  simp only [has, Option.some.injEq, exists_eq_left']
  exact Iff.rfl

variable [DecidableEq θ]

/-- The thread `t` moves to `x`, and the registry changes at the handle it is busy with. -/
theorem Charged.updateAt (charged : Charged r threads)
    (elsewhere : ∀ h' ≠ h, SameAt r r' h')
    (mine : ∀ c, (threads t).core = some c → c.handle = h)
    (mine' : ∀ c, x.core = some c → c.handle = h)
    (alone : ∀ t' c, t' ≠ t → (threads t').core = some c → c.handle ≠ h)
    (client : ∀ k, r'.clients k = some h → r'.cookieOf h = some (some k))
    (published : r'.published h = true → ∃ k, r'.cookieOf h = some (some k) ∧ r'.clients k = some h)
    (core : ∀ c, x.core = some c → r'.Serves c)
    (pool : ∀ p, x.pool = some p → r'.Reaches x.core p)
    (others : ∀ t' p, t' ≠ t → (threads t').pool = some p → p.handle = h →
      r'.Reaches (threads t').core p)
    (charge : (r'.cookieOf h).isSome = true →
      r'.published h = true ∨ ∃ c, x.core = some c ∧ c.claims h) :
    Charged r' (Function.update threads t x) where
  client k h' has := by
    rcases eq_or_ne h' h with rfl | different
    · exact client k has
    · have same := elsewhere h' different
      rw [same.cookieOf]
      exact charged.client k h' ((same.clients k).mp has)
  published h' held := by
    rcases eq_or_ne h' h with rfl | different
    · exact published held
    · have same := elsewhere h' different
      obtain ⟨k, present, has⟩ := charged.published h' (same.published.symm.trans held)
      exact ⟨k, same.cookieOf.trans present, (same.clients k).mpr has⟩
  core t' c has := by
    rcases eq_or_ne t' t with rfl | other
    · rw [Function.update_self] at has
      exact core c has
    · rw [Function.update_of_ne other] at has
      exact (charged.core t' c has).congr (elsewhere _ (alone t' c other has))
  pool t' p has := by
    rcases eq_or_ne t' t with rfl | other
    · rw [Function.update_self] at has ⊢
      exact pool p has
    · rw [Function.update_of_ne other] at has ⊢
      rcases eq_or_ne p.handle h with same | different
      · exact others t' p other has same
      · exact (charged.pool t' p has).congr (elsewhere _ different)
  single t₁ t₂ c₁ c₂ h' has₁ has₂ claims₁ claims₂ := by
    -- two calls of different threads are never on `h`, where this thread is
    rcases eq_or_ne t₁ t with same₁ | other₁ <;> rcases eq_or_ne t₂ t with same₂ | other₂
    · exact same₁.trans same₂.symm
    · rw [same₁, Function.update_self] at has₁
      rw [Function.update_of_ne other₂] at has₂
      exact absurd (claims₂.1.trans (claims₁.1.symm.trans (mine' c₁ has₁)))
        (alone t₂ c₂ other₂ has₂)
    · rw [Function.update_of_ne other₁] at has₁
      rw [same₂, Function.update_self] at has₂
      exact absurd (claims₁.1.trans (claims₂.1.symm.trans (mine' c₂ has₂)))
        (alone t₁ c₁ other₁ has₁)
    · rw [Function.update_of_ne other₁] at has₁
      rw [Function.update_of_ne other₂] at has₂
      exact charged.single t₁ t₂ c₁ c₂ h' has₁ has₂ claims₁ claims₂
  charge h' present := by
    rcases eq_or_ne h' h with rfl | different
    · refine (charge present).imp_right ?_
      rintro ⟨c, has, claims⟩
      exact ⟨t, c, by rwa [Function.update_self], claims⟩
    · have same := elsewhere h' different
      rw [same.cookieOf] at present
      rcases charged.charge h' present with held | ⟨t', c, has, claims⟩
      · exact Or.inl (same.published.trans held)
      · rcases eq_or_ne t' t with rfl | other
        · exact absurd (claims.1.symm.trans (mine c has)) different
        · exact Or.inr ⟨t', c, by rwa [Function.update_of_ne other], claims⟩

/-- The thread `t` moves to `x`, and the registry changes at the handle its call is in charge of. -/
theorem Charged.updateClaimed (charged : Charged r threads) (has : (threads t).core = some c)
    (claims : c.claims c.handle) (alone : x.pool = none)
    (elsewhere : ∀ h' ≠ c.handle, SameAt r r' h')
    (mine : ∀ c', x.core = some c' → c'.handle = c.handle)
    (client : ∀ k, r'.clients k = some c.handle → r'.cookieOf c.handle = some (some k))
    (published : r'.published c.handle = true →
      ∃ k, r'.cookieOf c.handle = some (some k) ∧ r'.clients k = some c.handle)
    (core : ∀ c', x.core = some c' → r'.Serves c')
    (others : ∀ t' c', t' ≠ t → (threads t').core = some c' → c'.stage = .core →
      (∃ k, r.clients k = some c.handle) → ∃ k, r'.clients k = some c.handle)
    (charge : (r'.cookieOf c.handle).isSome = true →
      r'.published c.handle = true ∨ ∃ c', x.core = some c' ∧ c'.claims c.handle) :
    Charged r' (Function.update threads t x) := by
  refine charged.updateAt elsewhere (fun c' has' => ?_) mine
    (fun t' c' => charged.alone has claims t' c') client published core
    (fun p has' => by cases alone.symm.trans has') (fun t' p other has' same => ?_) charge
  · rw [Option.some.inj (has.symm.trans has')]
  · -- devfs waits for no select pool of this handle, so NVKMS has called back
    have reaches := charged.pool t' p has'
    cases within : (threads t').core with
    | none =>
      rw [within] at reaches
      cases (same ▸ charged.unpublished has claims).symm.trans reaches
    | some c' =>
      rw [within] at reaches
      obtain ⟨stage, reached⟩ := reaches
      refine ⟨stage, Or.inl ?_⟩
      rw [same] at reached ⊢
      rcases reached with client | ⟨-, aims⟩
      · exact others t' c' other within stage client
      · exact absurd aims (charged.alone has claims t' c' other within)

/-- The thread goes on with its call, or starts or ends one that is in charge of nothing. -/
theorem Charged.move (charged : Charged r threads)
    (core : ∀ c, x.core = some c → r.Serves c)
    (pool : ∀ p, x.pool = some p → r.Reaches x.core p)
    (same : ∀ h, (∃ c, x.core = some c ∧ c.claims h) ↔
      ∃ c, (threads t).core = some c ∧ c.claims h) :
    Charged r (Function.update threads t x) where
  client := charged.client
  published := charged.published
  core t' c has := by
    rcases eq_or_ne t' t with rfl | other
    · rw [Function.update_self] at has
      exact core c has
    · rw [Function.update_of_ne other] at has
      exact charged.core t' c has
  pool t' p has := by
    rcases eq_or_ne t' t with rfl | other
    · rw [Function.update_self] at has ⊢
      exact pool p has
    · rw [Function.update_of_ne other] at has ⊢
      exact charged.pool t' p has
  single t₁ t₂ c₁ c₂ h has₁ has₂ claims₁ claims₂ := by
    -- whoever is in charge now was so before
    have before : ∀ {t' : θ} {c' : CoreCall}, (Function.update threads t x t').core = some c' →
        c'.claims h → ∃ c, (threads t').core = some c ∧ c.claims h := by
      intro t' c' has claims
      rcases eq_or_ne t' t with rfl | other
      · rw [Function.update_self] at has
        exact (same h).mp ⟨c', has, claims⟩
      · rw [Function.update_of_ne other] at has
        exact ⟨c', has, claims⟩
    obtain ⟨c₁, has₁, claims₁⟩ := before has₁ claims₁
    obtain ⟨c₂, has₂, claims₂⟩ := before has₂ claims₂
    exact charged.single t₁ t₂ c₁ c₂ h has₁ has₂ claims₁ claims₂
  charge h present := by
    refine (charged.charge h present).imp_right ?_
    rintro ⟨t', c, has, claims⟩
    rcases eq_or_ne t' t with rfl | other
    · obtain ⟨c', has', claims'⟩ := (same h).mpr ⟨c, has, claims⟩
      exact ⟨t', c', by rwa [Function.update_self], claims'⟩
    · exact ⟨t', c, by rwa [Function.update_of_ne other], claims⟩

/-! ## Opening and freeing a handle -/

/-- The call goes on without a change of the registry. -/
theorem Charged.advance (charged : Charged r threads) (has : (threads t).core = some c)
    {stage : CoreStage} (serves : r.Serves { c with stage := stage })
    (core : x.core = some { c with stage := stage }) (pool : x.pool = none) :
    Charged r (Function.update threads t x) := by
  refine charged.move (fun c' same => ?_) (fun p same => by cases pool.symm.trans same) fun h => ?_
  · obtain rfl := Option.some.inj (core.symm.trans same)
    exact serves
  · rw [core]
    exact claims_advance has stage h

/-- A thread with no call through `Locker` waits for a select pool, or starts to wait. -/
theorem Charged.usePool (charged : Charged r threads) (core : x.core = (threads t).core)
    (reaches : ∀ p, x.pool = some p → r.Reaches (threads t).core p) :
    Charged r (Function.update threads t x) := by
  refine charged.move (fun c has => charged.core t c (core ▸ has)) (fun p has => ?_) fun h => ?_
  · rw [core]
    exact reaches p has
  · rw [core]

/-- The registry at a handle other than the one that changes. -/
theorem sameAt_of_update {cookie : Option (Option Cookie)} {h' : HandlePtr} (different : h' ≠ h) :
    SameAt r { r with cookieOf := Function.update r.cookieOf h cookie } h' :=
  ⟨Function.update_of_ne different .., rfl, fun _ => Iff.rfl⟩

theorem Charged.construct (charged : Charged r threads) (idle : (threads t).core = none)
    (alone : x.pool = none) (unused : r.cookieOf h = none)
    (core : x.core = some ⟨.nvKmsOpen, h, .lock⟩) :
    Charged { r with cookieOf := Function.update r.cookieOf h (some none) }
      (Function.update threads t x) := by
  have unpublished : r.published h = false := by
    by_contra published
    obtain ⟨k, present, -⟩ := charged.published h (by simpa using published)
    cases unused.symm.trans present
  have unknown : ∀ k, r.clients k ≠ some h := fun k client => by
    cases unused.symm.trans (charged.client k h client)
  refine charged.updateAt (fun h' different => sameAt_of_update different)
    (fun c has => by cases idle.symm.trans has) (fun c has => ?_) (fun t' c _ has => ?_)
    (fun k client => absurd client (unknown k))
    (fun published => by cases unpublished.symm.trans published) (fun c has => ?_)
    (fun p has => by cases alone.symm.trans has) (fun t' p _ has same => ?_) fun _ => ?_
  · obtain rfl := Option.some.inj (core.symm.trans has)
    rfl
  · rintro rfl
    obtain ⟨cookie, present⟩ := charged.exists_of_core has
    cases unused.symm.trans present
  · obtain rfl := Option.some.inj (core.symm.trans has)
    exact ⟨unpublished, Function.update_self ..⟩
  · obtain ⟨cookie, present⟩ := charged.exists_of_pool has
    cases (same ▸ unused).symm.trans present
  · exact Or.inr ⟨_, core, rfl, nofun⟩

theorem Charged.unpublish (charged : Charged r threads) (idle : (threads t).idle = true)
    (published : r.published h = true) (unused : ∀ t', (threads t').uses h = false)
    (core : x.core = some ⟨.nvKmsClose, h, .lock⟩) (alone : x.pool = none) :
    Charged { r with published := Function.update r.published h false }
      (Function.update threads t x) := by
  obtain ⟨k, present, client⟩ := charged.published h published
  have away : ∀ t' c, (threads t').core = some c → c.handle ≠ h := fun t' c has same => by
    simpa [Thread.uses, has, same] using unused t'
  refine charged.updateAt
    (fun h' different => ⟨rfl, Function.update_of_ne different .., fun _ => Iff.rfl⟩)
    (fun c has => ?_) (fun c has => ?_) (fun t' c _ => away t' c) (fun k => charged.client k h)
    (fun still => ?_) (fun c has => ?_) (fun p has => by cases alone.symm.trans has)
    (fun t' p _ has same => ?_) fun _ => Or.inr ⟨_, core, rfl, nofun⟩
  · obtain ⟨none, -⟩ := Bool.and_eq_true_iff.mp idle
    cases (Option.isNone_iff_eq_none.mp none).symm.trans has
  · obtain rfl := Option.some.inj (core.symm.trans has)
    rfl
  · simp at still
  · obtain rfl := Option.some.inj (core.symm.trans has)
    exact ⟨Function.update_self .., k, present, client⟩
  · -- a call of devfs would have kept the handle from being freed, so NVKMS has called back
    have reaches := charged.pool t' p has
    cases within : (threads t').core with
    | none => simpa [Thread.uses, within, has, same] using unused t'
    | some c =>
      rw [within] at reaches
      exact reaches

theorem Charged.opened (charged : Charged r threads) (has : (threads t).core = some c)
    (call : c.call = .nvKmsOpen) (stage : c.stage = .core) (fresh : r.clients k = none) {res : Bool}
    (core : x.core = some { c with stage := .unlock res }) (alone : x.pool = none) :
    Charged { r with
      cookieOf := Function.update r.cookieOf c.handle (some (some k))
      clients := Function.update r.clients k (some c.handle) } (Function.update threads t x) := by
  have claims : c.claims c.handle := ⟨rfl, by rw [call]; nofun⟩
  have unpublished := charged.unpublished has claims
  have serves := charged.core t c has
  simp only [Registry.Serves, call, stage] at serves
  have unknown : ∀ k, r.clients k ≠ some c.handle := fun k client => by
    cases serves.2.symm.trans (charged.client k _ client)
  have only : ∀ k', Function.update r.clients k (some c.handle) k' = some c.handle → k' = k := by
    intro k' client
    by_contra other
    rw [Function.update_of_ne other] at client
    exact unknown k' client
  refine charged.updateClaimed has claims alone
    (fun h' different => ⟨Function.update_of_ne different .., rfl, fun k' => ?_⟩)
    (fun c' has' => ?_) (fun k' client => ?_)
    (fun published => by cases unpublished.symm.trans published) (fun c' has' => ?_)
    (fun t' c' _ _ _ _ => ⟨k, Function.update_self ..⟩) fun _ => Or.inr ⟨_, core, claims⟩
  · rcases eq_or_ne k' k with rfl | other
    · simp [fresh, different.symm]
    · simp [other]
  · rw [← Option.some.inj (core.symm.trans has')]
  · rw [only k' client]
    exact Function.update_self ..
  · obtain rfl := Option.some.inj (core.symm.trans has')
    simp only [Registry.Serves, call]
    refine ⟨unpublished, some k, Function.update_self .., ?_⟩
    rintro k' ⟨⟩
    exact Function.update_self ..

theorem Charged.closed (charged : Charged r threads) (has : (threads t).core = some c)
    (call : c.call = .nvKmsClose) (client : r.clients k = some c.handle)
    (only : ∀ t' c', t' ≠ t → (threads t').core = some c' → c'.stage ≠ .core) {res : Bool}
    (core : x.core = some { c with stage := .unlock res }) (alone : x.pool = none) :
    Charged { r with clients := fun k' => if some k = some k' then none else r.clients k' }
      (Function.update threads t x) := by
  have claims : c.claims c.handle := ⟨rfl, by rw [call]; nofun⟩
  have unpublished := charged.unpublished has claims
  have present := charged.client k _ client
  have gone : ∀ k', (if some k = some k' then none else r.clients k') ≠ some c.handle := by
    intro k' still
    split at still
    · cases still
    · -- the handle holds one cookie
      rename_i other
      exact other (Option.some.inj (present.symm.trans (charged.client k' _ still)))
  refine charged.updateClaimed has claims alone (fun h' different => ⟨rfl, rfl, fun k' => ?_⟩)
    (fun c' has' => ?_) (fun k' client => absurd client (gone k'))
    (fun published => by cases unpublished.symm.trans published) (fun c' has' => ?_)
    (fun t' c' other within stage _ => absurd stage (only t' c' other within))
    fun _ => Or.inr ⟨_, core, claims⟩
  · by_cases removed : some k = some k'
    · obtain rfl := Option.some.inj removed
      simp [client, different.symm]
    · simp only [if_neg removed]
  · rw [← Option.some.inj (core.symm.trans has')]
  · obtain rfl := Option.some.inj (core.symm.trans has')
    simp only [Registry.Serves, call]
    exact ⟨unpublished, ⟨_, present⟩, gone⟩

theorem Charged.publish (charged : Charged r threads) (has : (threads t).core = some c)
    (call : c.call = .nvKmsOpen) {res : Bool} (stage : c.stage = .finish res)
    (present : r.cookieOf c.handle = some (some k)) (core : x.core = none) (alone : x.pool = none) :
    Charged { r with published := Function.update r.published c.handle true }
      (Function.update threads t x) := by
  have claims : c.claims c.handle := ⟨rfl, by rw [call]; nofun⟩
  have serves := charged.core t c has
  simp only [Registry.Serves, call, stage] at serves
  obtain ⟨unpublished, cookie, known, clients⟩ := serves
  obtain rfl := Option.some.inj (present.symm.trans known)
  exact charged.updateClaimed has claims alone
    (fun h' different => ⟨rfl, Function.update_of_ne different .., fun _ => Iff.rfl⟩)
    (fun c' has' => by cases core.symm.trans has') (fun k => charged.client k _)
    (fun _ => ⟨k, present, clients k rfl⟩) (fun c' has' => by cases core.symm.trans has')
    (fun _ _ _ _ _ => id) fun _ => Or.inl (Function.update_self ..)

theorem Charged.delete (charged : Charged r threads) (has : (threads t).core = some c)
    (claims : c.claims c.handle)
    (unknown : ∀ k, r.clients k ≠ some c.handle) (core : x.core = none) (alone : x.pool = none) :
    Charged { r with cookieOf := Function.update r.cookieOf c.handle none }
      (Function.update threads t x) := by
  have unpublished := charged.unpublished has claims
  refine charged.updateClaimed has claims alone (fun h' different => sameAt_of_update different)
    (fun c' has' => by cases core.symm.trans has') (fun k client => absurd client (unknown k))
    (fun published => by cases unpublished.symm.trans published)
    (fun c' has' => by cases core.symm.trans has')
    (fun _ _ _ _ _ ⟨k, client⟩ => absurd client (unknown k)) fun still => ?_
  simp at still

end NvidiaHaiku.Nvkms
