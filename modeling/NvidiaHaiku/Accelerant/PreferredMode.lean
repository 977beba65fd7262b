/-
# The preferred mode

KMS numbers the modes of a display. The constructor of `NvAccelerant` asks for one after the
other, and lists those that pass a second validation. `GetPreferredDisplayMode` asks for them
again, and takes the first one that is marked preferred. It does not validate it.

Both loops run until KMS replies that there are no more modes. What they compute is a filter
and a search of one list of replies.
-/

import NvidiaHaiku.Accelerant.ProposeMode

namespace NvidiaHaiku.Accelerant

/-! ## The calls -/

/-- The reply of `NVKMS_IOCTL_VALIDATE_MODE_INDEX`. -/
structure ModeIndexReply where
  /-- `end`. -/
  atEnd : Bool := false
  preferredMode : Bool := false
  mode : NvKmsMode := {}

/-- What KMS replies on the modes of the display, each time it is asked. -/
structure KmsModes where
  /-- `NVKMS_IOCTL_VALIDATE_MODE_INDEX`. -/
  validateModeIndex : BitVec 32 → Reply ModeIndexReply
  /-- `NVKMS_IOCTL_VALIDATE_MODE`, with `reply.valid`. -/
  validateMode : NvKmsMode → Reply Bool

namespace KmsModes

/-- The loop in the constructor of `NvAccelerant`; `none` if there are more rounds than `fuel`. -/
def enumerateModes (kms : KmsModes) :
    ℕ → BitVec 32 → List NvKmsMode → Option (Reply (List NvKmsMode))
  | 0, _, _ => none
  | fuel + 1, i, fModeList =>
    match kms.validateModeIndex i with
    | .error e => some (.error e)
    | .ok reply =>
      if reply.atEnd then some (.ok fModeList)
      else
        match kms.validateMode reply.mode with
        | .error e => some (.error e)
        | .ok false => kms.enumerateModes fuel (i + 1) fModeList
        | .ok true => kms.enumerateModes fuel (i + 1) (fModeList ++ [reply.mode])

/-- The loop of `GetPreferredDisplayMode`, and the error after it. -/
def preferredFrom (kms : KmsModes) : ℕ → BitVec 32 → Option (Reply DisplayMode)
  | 0, _ => none
  | fuel + 1, i =>
    match kms.validateModeIndex i with
    | .error e => some (.error e)
    | .ok reply =>
      if reply.atEnd then some (.error ENOENT)
      else if reply.preferredMode then some (.ok (toHaikuMode reply.mode))
      else kms.preferredFrom fuel (i + 1)

/-- The rounds after which a loop asks for the first index again, and so never ends. -/
def indexCount : ℕ := 2 ^ 32

/-- The mode list of a new `NvAccelerant`. -/
def constructModeList (kms : KmsModes) (fuel : ℕ) : Option (Reply (List NvKmsMode)) :=
  kms.enumerateModes fuel 0 []

/-- `GetPreferredDisplayMode`. -/
def getPreferredDisplayMode (kms : KmsModes) (fuel : ℕ) : Option (Reply DisplayMode) :=
  kms.preferredFrom fuel 0

/-! ## The replies up to the end -/

/-- What KMS replies from index `i` on, until it replies that there is no more. -/
inductive Enumerates (kms : KmsModes) : BitVec 32 → List ModeIndexReply → Prop
  | done {i : BitVec 32} {reply : ModeIndexReply} (replied : kms.validateModeIndex i = .ok reply)
      (last : reply.atEnd = true) : Enumerates kms i []
  | more {i : BitVec 32} {reply : ModeIndexReply} {rest : List ModeIndexReply}
      (replied : kms.validateModeIndex i = .ok reply) (notLast : reply.atEnd = false)
      (further : Enumerates kms (i + 1) rest) : Enumerates kms i (reply :: rest)

/-- The second validation. -/
def passes (kms : KmsModes) (reply : ModeIndexReply) : Bool :=
  kms.validateMode reply.mode matches .ok true

variable {kms : KmsModes} {fuel : ℕ} {i : BitVec 32} {replies : List ModeIndexReply}
  {fModeList listed : List NvKmsMode} {result : Reply DisplayMode} {reply : ModeIndexReply}

/-- There is one such list at most. -/
theorem Enumerates.unique {replies' : List ModeIndexReply} (enumerated : kms.Enumerates i replies)
    (enumerated' : kms.Enumerates i replies') : replies = replies' := by
  induction enumerated generalizing replies' with
  | done replied last =>
    cases enumerated' with
    | done => rfl
    | more replied' notLast' =>
      obtain rfl := Except.ok.inj (replied.symm.trans replied')
      simp [last] at notLast'
  | more replied notLast _ ih =>
    cases enumerated' with
    | done replied' last' =>
      obtain rfl := Except.ok.inj (replied.symm.trans replied')
      simp [notLast] at last'
    | more replied' _ further' =>
      obtain rfl := Except.ok.inj (replied.symm.trans replied')
      rw [ih further']

/-- The constructor lists the modes that pass, in the order of the replies. -/
theorem enumerates_of_enumerateModes
    (ran : kms.enumerateModes fuel i fModeList = some (.ok listed)) :
    ∃ replies, kms.Enumerates i replies ∧
      listed = fModeList ++ (replies.filter kms.passes).map (·.mode) := by
  -- one unit of fuel for each `NVKMS_IOCTL_VALIDATE_MODE_INDEX`
  induction fuel generalizing i fModeList with
  | zero => simp [enumerateModes] at ran
  | succ fuel ih =>
    rw [enumerateModes.eq_def] at ran
    dsimp only at ran
    split at ran
    · simp at ran
    · rename_i reply replied
      split at ran
      · rename_i last
        obtain rfl := Except.ok.inj (Option.some.inj ran)
        exact ⟨[], .done replied last, by simp⟩
      · rename_i notLast
        rw [Bool.not_eq_true] at notLast
        split at ran
        · simp at ran
        · -- the mode is left out
          rename_i invalid
          obtain ⟨rest, further, rfl⟩ := ih ran
          exact ⟨reply :: rest, .more replied notLast further, by simp [passes, invalid]⟩
        · rename_i valid
          obtain ⟨rest, further, rfl⟩ := ih ran
          exact ⟨reply :: rest, .more replied notLast further, by simp [passes, valid]⟩

/-- KMS replies that there is no more at the index behind the list, and at none before it. -/
theorem Enumerates.atEnd_iff (enumerated : kms.Enumerates i replies) {n : ℕ}
    (inside : n ≤ replies.length) : ∃ reply, kms.validateModeIndex (i + .ofNat 32 n) = .ok reply ∧
      (reply.atEnd = true ↔ n = replies.length) := by
  induction enumerated generalizing n with
  | @done i reply replied last =>
    obtain rfl : n = 0 := by simpa using inside
    exact ⟨reply, by simpa using replied, by simp [last]⟩
  | @more i reply rest replied notLast _ ih =>
    cases n with
    | zero => exact ⟨reply, by simpa using replied, by simp [notLast]⟩
    | succ n =>
      obtain ⟨reply', replied', iff⟩ := ih (Nat.le_of_succ_le_succ inside)
      refine ⟨reply', ?_, by simp [iff]⟩
      rw [← replied', BitVec.add_assoc, Nat.add_comm n, BitVec.ofNat_add]
      rfl

/-- The loops end before the index comes around. -/
theorem Enumerates.length_lt (enumerated : kms.Enumerates i replies) :
    replies.length < indexCount := by
  by_contra large
  rw [not_lt] at large
  obtain ⟨last, replied, ends⟩ := enumerated.atEnd_iff le_rfl
  obtain ⟨same, replied', goesOn⟩ := enumerated.atEnd_iff (Nat.sub_le replies.length indexCount)
  -- the last index has been asked for before
  have around : BitVec.ofNat 32 (replies.length - indexCount) = .ofNat 32 replies.length := by
    apply BitVec.eq_of_toNat_eq
    rw [BitVec.toNat_ofNat, BitVec.toNat_ofNat]
    unfold indexCount at large ⊢
    omega
  rw [around] at replied'
  obtain rfl := Except.ok.inj (replied.symm.trans replied')
  have back := goesOn.mp (ends.mpr rfl)
  unfold indexCount at large back
  omega

/-- Each mode of the replies can be validated. -/
def Validates (kms : KmsModes) (replies : List ModeIndexReply) : Prop :=
  ∀ reply ∈ replies, ∃ valid, kms.validateMode reply.mode = .ok valid

theorem enumerateModes_of_enumerates (enumerated : kms.Enumerates i replies)
    (validated : kms.Validates replies) (enough : replies.length < fuel) :
    kms.enumerateModes fuel i fModeList =
      some (.ok (fModeList ++ (replies.filter kms.passes).map (·.mode))) := by
  induction enumerated generalizing fuel fModeList with
  | done replied last =>
    cases fuel with
    | zero => cases enough
    | succ fuel => simp [enumerateModes, replied, last]
  | @more i reply rest replied notLast _ ih =>
    cases fuel with
    | zero => cases enough
    | succ fuel =>
      obtain ⟨⟨valid, own⟩, further⟩ := List.forall_mem_cons.mp validated
      have go (fModeList) := @ih fuel fModeList further (Nat.lt_of_succ_lt_succ enough)
      cases valid with
      | false => simpa [enumerateModes, replied, notLast, own, passes] using go fModeList
      | true =>
        simpa [enumerateModes, replied, notLast, own, passes] using go (fModeList ++ [reply.mode])

theorem validates_of_enumerateModes (enumerated : kms.Enumerates i replies)
    (ran : kms.enumerateModes fuel i fModeList = some (.ok listed)) : kms.Validates replies := by
  induction enumerated generalizing fuel fModeList with
  | done => exact fun _ member => absurd member List.not_mem_nil
  | @more i reply rest replied notLast _ ih =>
    cases fuel with
    | zero => simp [enumerateModes] at ran
    | succ fuel =>
      cases own : kms.validateMode reply.mode with
      | error e => simp [enumerateModes, replied, notLast, own] at ran
      | ok valid =>
        refine List.forall_mem_cons.mpr ⟨⟨valid, own⟩, ?_⟩
        cases valid with
        | false => exact ih (by simpa [enumerateModes, replied, notLast, own] using ran)
        | true => exact ih (by simpa [enumerateModes, replied, notLast, own] using ran)

/-- The constructor lists modes just when KMS comes to the end of them and validates each. They
are the ones that pass. -/
theorem constructModeList_eq_ok_iff : kms.constructModeList indexCount = some (.ok listed) ↔
    ∃ replies, kms.Enumerates 0 replies ∧ kms.Validates replies ∧
      listed = (replies.filter kms.passes).map (·.mode) := by
  constructor
  · intro ran
    obtain ⟨replies, enumerated, rfl⟩ := enumerates_of_enumerateModes ran
    exact ⟨replies, enumerated, validates_of_enumerateModes enumerated ran, rfl⟩
  · rintro ⟨replies, enumerated, validated, rfl⟩
    exact enumerateModes_of_enumerates enumerated validated enumerated.length_lt

/-- The first mode that is marked preferred. -/
def preferredOf (replies : List ModeIndexReply) : Reply DisplayMode :=
  match replies.find? (·.preferredMode) with
  | none => .error ENOENT
  | some reply => .ok (toHaikuMode reply.mode)

/-- `GetPreferredDisplayMode` searches the same replies. -/
theorem preferredFrom_of_enumerates (enumerated : kms.Enumerates i replies) :
    kms.preferredFrom (replies.length + 1) i = some (preferredOf replies) ∧
      ∀ fuel result, kms.preferredFrom fuel i = some result → result = preferredOf replies := by
  induction enumerated with
  | done replied last =>
    refine ⟨by simp [preferredFrom, replied, last, preferredOf], ?_⟩
    rintro (_ | fuel) result ran
    · simp [preferredFrom] at ran
    · simpa [preferredFrom, replied, last, preferredOf, eq_comm] using ran
  | more replied notLast _ ih =>
    rename_i i reply rest _
    -- the search stops here or goes on with the rest, as `find?` does
    cases preferred : reply.preferredMode with
    | true =>
      refine ⟨by simp [preferredFrom, replied, notLast, preferredOf, preferred], ?_⟩
      rintro (_ | fuel) result ran
      · simp [preferredFrom] at ran
      · simpa [preferredFrom, replied, notLast, preferredOf, preferred, eq_comm] using ran
    | false =>
      have skipped : preferredOf (reply :: rest) = preferredOf rest := by
        simp [preferredOf, preferred]
      have round : ∀ fuel, kms.preferredFrom (fuel + 1) i = kms.preferredFrom fuel (i + 1) := by
        intro fuel
        simp [preferredFrom, replied, notLast, preferred]
      rw [skipped]
      refine ⟨(round _).trans ih.1, ?_⟩
      rintro (_ | fuel) result ran
      · simp [preferredFrom] at ran
      · exact ih.2 fuel result ((round fuel).symm.trans ran)

/-! ## The preferred mode among the advertised ones -/

/-- `GetPreferredDisplayMode` returns, and its result is true of the mode list. -/
structure PreferredAdvertised (kms : KmsModes) (fModeList : List NvKmsMode) : Prop where
  returns : ∃ fuel result, kms.getPreferredDisplayMode fuel = some result
  advertised : ∀ fuel mode, kms.getPreferredDisplayMode fuel = some (.ok mode) →
    mode ∈ getModeList fModeList
  /-- `ProposeMode` compares the mode with the bounds only. -/
  recognised : ∀ fuel mode, kms.getPreferredDisplayMode fuel = some (.ok mode) →
    ∀ low high, proposeMode fModeList mode low high = some (bounded mode low high, mode)
  fails : ∀ fuel e, kms.getPreferredDisplayMode fuel = some (.error e) →
    ∀ replies, kms.Enumerates 0 replies →
    ∀ reply ∈ replies, reply.mode ∈ fModeList → reply.preferredMode = false

/-- If a mode is marked preferred, the first one passes the second validation, or looks to the
caller like one that does. -/
def PrefersValid (kms : KmsModes) : Prop :=
  ∀ replies reply, kms.Enumerates 0 replies → replies.find? (·.preferredMode) = some reply →
    ∃ other ∈ replies, kms.passes other = true ∧ toHaikuMode other.mode = toHaikuMode reply.mode

theorem preferredOf_eq_ok_iff {mode : DisplayMode} : preferredOf replies = .ok mode ↔
    ∃ reply, replies.find? (·.preferredMode) = some reply ∧ toHaikuMode reply.mode = mode := by
  unfold preferredOf
  split
  · rename_i none
    simp [none]
  · rename_i reply found
    simp [found]

theorem mem_getModeList_iff {mode : DisplayMode} :
    mode ∈ getModeList ((replies.filter kms.passes).map (·.mode)) ↔
      ∃ other ∈ replies, kms.passes other = true ∧ toHaikuMode other.mode = mode := by
  simp [getModeList, and_assoc]

/-- The preferred mode is an advertised one just when the first mode that KMS marks preferred
passes the validation that the list is made with, or cannot be told from one that does. -/
theorem preferredAdvertised_iff (constructed : kms.constructModeList fuel = some (.ok fModeList)) :
    kms.PreferredAdvertised fModeList ↔ kms.PrefersValid := by
  obtain ⟨replies, enumerated, rfl⟩ := enumerates_of_enumerateModes constructed
  rw [List.nil_append]
  obtain ⟨returned, result⟩ := preferredFrom_of_enumerates enumerated
  constructor
  · rintro ⟨-, advertised, -, -⟩ replies' reply enumerated' found
    obtain rfl := enumerated.unique enumerated'
    have preferred := preferredOf_eq_ok_iff.mpr ⟨reply, found, rfl⟩
    exact mem_getModeList_iff.mp (advertised _ _ (returned.trans (congrArg some preferred)))
  · intro valid
    have advertised : ∀ fuel mode, kms.getPreferredDisplayMode fuel = some (.ok mode) →
        ∃ other ∈ replies, kms.passes other = true ∧ toHaikuMode other.mode = mode := by
      intro fuel mode got
      obtain ⟨reply, found, rfl⟩ := preferredOf_eq_ok_iff.mp (result fuel _ got).symm
      exact valid replies reply enumerated found
    refine ⟨⟨_, _, returned⟩, fun fuel mode got => ?_, fun fuel mode got low high => ?_, ?_⟩
    · exact mem_getModeList_iff.mpr (advertised fuel mode got)
    · obtain ⟨other, member, passes, rfl⟩ := advertised fuel mode got
      have inList := List.mem_map_of_mem (f := (·.mode)) (List.mem_filter.mpr ⟨member, passes⟩)
      exact proposeMode_of_mem inList rfl
    · intro fuel e got replies' enumerated' reply member _
      obtain rfl := enumerated.unique enumerated'
      -- the search went through
      have failed := result fuel _ got
      unfold preferredOf at failed
      split at failed
      · rename_i none
        simpa using List.find?_eq_none.mp none reply member
      · simp at failed

end KmsModes

/-- KMS has the given mode, marked preferred, and 640x480, and approves of some modes. -/
def twoModes (preferred : NvKmsMode) (valid : NvKmsMode → Bool) : KmsModes where
  validateModeIndex
    | 0 => .ok { preferredMode := true, mode := preferred }
    | 1 => .ok { mode := vgaTimings }
    | _ => .ok { atEnd := true }
  validateMode mode := .ok (valid mode)

theorem preferredAdvertised_vga :
    (twoModes vgaTimings fun _ => true).PreferredAdvertised [vgaTimings, vgaTimings] ↔
      (twoModes vgaTimings fun _ => true).PrefersValid := by
  have constructed : (twoModes vgaTimings fun _ => true).constructModeList 3 =
      some (.ok [vgaTimings, vgaTimings]) := rfl
  exact KmsModes.preferredAdvertised_iff constructed

/-- The same frame at a higher clock. -/
def vgaFast : NvKmsMode := { vgaTimings with RRx1k := 75000, pixelClockHz := 31500000 }

/-- The preferred mode does not pass the second validation. It is returned, and it is not one
of the advertised modes. -/
theorem not_preferredAdvertised_vgaFast :
    (twoModes vgaFast (· = vgaTimings)).constructModeList 3 = some (.ok [vgaTimings]) ∧
      ¬ (twoModes vgaFast (· = vgaTimings)).PreferredAdvertised [vgaTimings] := by
  refine ⟨rfl, fun preferred => ?_⟩
  exact absurd (preferred.advertised 1 (toHaikuMode vgaFast) rfl) (by decide)

end NvidiaHaiku.Accelerant
