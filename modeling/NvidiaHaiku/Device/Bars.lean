/-
# The address registers of a GPU

`NvHaikuDevice::Init` decodes the six address registers of the PCI header into regions. A
register of the 64-bit type takes the next one as the upper half of its address and of its
size, and the loop goes on behind both. The regions that are not empty are stored, as many as
there is room for.

The test of the loop is made before the register is looked at, and the second half is taken
without one. If the last register begins a region and has the 64-bit type, the loop reads past
the registers.
-/

import Mathlib.Algebra.Group.Nat.Even
import Mathlib.Algebra.Group.Nat.Defs

namespace NvidiaHaiku.Device

/-! ## The loop -/

/-- The macros of `PCI.h` and `nv.h` that the loop uses. -/
structure BarMacros where
  PCI_address_type : BitVec 8
  PCI_address_type_64 : BitVec 8
  NV_GPU_NUM_BARS : ℕ
  NVRM_PCICFG_BAR_OFFSET : ℕ → BitVec 32

/-- The address registers of `pci_info.u.h0`. -/
structure PciHeader where
  base_registers : Vector (BitVec 32) 6
  base_register_sizes : Vector (BitVec 32) 6
  base_register_flags : Vector (BitVec 8) 6

/-- An entry of `nv->bars`. -/
structure Bar where
  offset : BitVec 32
  cpu_address : BitVec 64
  size : BitVec 64
  deriving DecidableEq, Repr

section Loop

variable (m : BarMacros) (h0 : PciHeader)

/-- The store into `nv->bars`, of which there are `bars` already. -/
def storeBar (bars : List Bar) (curBar : ℕ) (physAdr size : BitVec 64) : List Bar :=
  if size > 0 ∧ bars.length < m.NV_GPU_NUM_BARS then
    bars ++ [⟨m.NVRM_PCICFG_BAR_OFFSET curBar, physAdr, size⟩]
  else bars

/-- The loop of `Init`, for so many rounds at most; `none` if it reads past the registers. -/
def barLoop : (fuel bar : ℕ) → List Bar → Option (List Bar)
  | 0, _, bars => some bars
  | fuel + 1, bar, bars =>
    if bar < 6 then do
      let physAdr := (← h0.base_registers[bar]?).setWidth 64
      let size := (← h0.base_register_sizes[bar]?).setWidth 64
      let flags ← h0.base_register_flags[bar]?
      if flags &&& m.PCI_address_type = m.PCI_address_type_64 then
        -- `bar++`, here and again at the end of the round
        let physAdr := physAdr ||| (← h0.base_registers[bar + 1]?).setWidth 64 <<< 32
        let size := size ||| (← h0.base_register_sizes[bar + 1]?).setWidth 64 <<< 32
        barLoop fuel (bar + 1 + 1) (storeBar m bars bar physAdr size)
      else barLoop fuel (bar + 1) (storeBar m bars bar physAdr size)
    else some bars

/-- `nv->bars` after the loop, which has six rounds at most. -/
def initBars : Option (List Bar) := barLoop m h0 6 0 []

end Loop

/-! ## Regions -/

/-- A region, by its first register. -/
structure Region where
  first : ℕ
  /-- It has a second register. -/
  wide : Bool

namespace Region

/-- The registers that the region takes. -/
def registers (r : Region) : List ℕ := if r.wide then [r.first, r.first + 1] else [r.first]

/-- The value of a region, with the halves in its registers. -/
def value (r : Region) (halves : Vector (BitVec 32) 6) : BitVec 64 :=
  if r.wide then halves[r.first + 1]?.getD 0 ++ halves[r.first]?.getD 0
  else (halves[r.first]?.getD 0).setWidth 64

/-- The BAR of a region. -/
def bar (m : BarMacros) (h0 : PciHeader) (r : Region) : Bar where
  offset := m.NVRM_PCICFG_BAR_OFFSET r.first
  cpu_address := r.value h0.base_registers
  size := r.value h0.base_register_sizes

end Region

/-- The register has the 64-bit type. -/
def PciHeader.is64 (m : BarMacros) (h0 : PciHeader) (i : ℕ) : Bool :=
  h0.base_register_flags[i]?.getD 0 &&& m.PCI_address_type = m.PCI_address_type_64

/-- The regions use the registers from `i` on, each once and in order, and a region has a second
register just when its first one has the 64-bit type. -/
structure Decodes (m : BarMacros) (h0 : PciHeader) (i n : ℕ) (regions : List Region) : Prop where
  registers : regions.flatMap Region.registers = List.range' i n
  type : ∀ r ∈ regions, r.wide = h0.is64 m r.first

/-- What the loop is to leave: the regions that are not empty, as far as there is room. -/
def barsOf (m : BarMacros) (h0 : PciHeader) (regions : List Region) : List Bar :=
  (regions.map (Region.bar m h0)).filter (·.size > 0)

/-- The loop reads the six registers only, and leaves the regions decoded from them. -/
def DecodesBars (m : BarMacros) (h0 : PciHeader) : Prop :=
  ∃ bars regions, initBars m h0 = some bars ∧ Decodes m h0 0 6 regions ∧
    bars = (barsOf m h0 regions).take m.NV_GPU_NUM_BARS

/-! ## Flags at the end -/

/-- The number of flags at the end of a list that are set. -/
def trailing (flags : List Bool) : ℕ := (flags.reverse.takeWhile id).length

theorem trailing_cons (flag : Bool) (flags : List Bool) :
    trailing (flag :: flags) =
      if trailing flags = flags.length ∧ flag = true then trailing flags + 1
      else trailing flags := by
  unfold trailing
  rw [List.reverse_cons, List.takeWhile_append, List.length_reverse]
  by_cases all : (flags.reverse.takeWhile id).length = flags.length
  · rw [if_pos all]
    cases flag <;> simp [all]
  · rw [if_neg all]
    simp [all]

theorem trailing_le_length (flags : List Bool) : trailing flags ≤ flags.length := by
  rw [← List.length_reverse]
  exact (List.takeWhile_sublist id).length_le

/-- A flag that is not set changes nothing. -/
theorem trailing_false_cons (flags : List Bool) : trailing (false :: flags) = trailing flags := by
  simp [trailing_cons]

/-- The parity is kept when two flags are passed over, of which the first is set. -/
theorem even_trailing_true_cons_cons (flag : Bool) (flags : List Bool) :
    Even (trailing (true :: flag :: flags)) ↔ Even (trailing flags) := by
  have bound := trailing_le_length flags
  rw [trailing_cons, trailing_cons, List.length_cons, Nat.even_iff, Nat.even_iff]
  cases flag with
  | false =>
    simp only [Bool.false_eq_true, and_false, if_false]
    split <;> omega
  | true =>
    -- the number goes up by two if all flags behind are set, and stays otherwise
    simp only [and_true]
    split <;> split <;> omega

/-! ## The loop and the regions -/

section Spec

variable {m : BarMacros} {h0 : PciHeader} {i n : ℕ} {regions : List Region}

theorem PciHeader.is64_eq (inside : i < 6) : h0.is64 m i =
    decide (h0.base_register_flags[i] &&& m.PCI_address_type = m.PCI_address_type_64) := by
  simp [PciHeader.is64, inside]

/-- The flags from a register on. -/
def flagsFrom (m : BarMacros) (h0 : PciHeader) (i n : ℕ) : List Bool :=
  (List.range' i n).map (h0.is64 m)

theorem flagsFrom_succ : flagsFrom m h0 i (n + 1) = h0.is64 m i :: flagsFrom m h0 (i + 1) n := rfl

theorem Decodes.nil : Decodes m h0 i 0 [] := ⟨rfl, by simp⟩

/-- A register of another type is a region of its own. -/
theorem Decodes.narrow (type : h0.is64 m i = false) (decodes : Decodes m h0 (i + 1) n regions) :
    Decodes m h0 i (n + 1) (⟨i, false⟩ :: regions) := by
  refine ⟨?_, List.forall_mem_cons.mpr ⟨type.symm, decodes.type⟩⟩
  rw [List.flatMap_cons, decodes.registers]
  rfl

/-- A register of the 64-bit type takes the next one. -/
theorem Decodes.wide (type : h0.is64 m i = true) (decodes : Decodes m h0 (i + 2) n regions) :
    Decodes m h0 i (n + 2) (⟨i, true⟩ :: regions) := by
  refine ⟨?_, List.forall_mem_cons.mpr ⟨type.symm, decodes.type⟩⟩
  rw [List.flatMap_cons, decodes.registers]
  rfl

/-- The halves of a word are put together. -/
theorem or_shiftLeft_eq_append (low high : BitVec 32) :
    low.setWidth 64 ||| high.setWidth 64 <<< 32 = high ++ low := by
  apply BitVec.eq_of_getLsbD_eq
  intro i inside
  simp only [BitVec.getLsbD_or, BitVec.getLsbD_shiftLeft, BitVec.getLsbD_setWidth,
    BitVec.getLsbD_append]
  by_cases lower : i < 32
  · simp [lower, inside]
  · have above : low.getLsbD i = false := BitVec.getLsbD_of_ge _ _ (not_lt.mp lower)
    have rest : i - 32 < 64 := by omega
    simp [lower, inside, above, rest]

variable {bars : List Bar} {fuel : ℕ}

theorem barsOf_cons (r : Region) (regions : List Region) :
    barsOf m h0 (r :: regions) = barsOf m h0 [r] ++ barsOf m h0 regions := by
  rw [barsOf, ← List.singleton_append, List.map_append, List.filter_append]
  rfl

/-- A region is stored if it is not empty and there is room. -/
theorem storeBar_region (room : bars.length ≤ m.NV_GPU_NUM_BARS) (r : Region) :
    storeBar m bars r.first (r.value h0.base_registers) (r.value h0.base_register_sizes) =
      (bars ++ barsOf m h0 [r]).take m.NV_GPU_NUM_BARS := by
  unfold storeBar barsOf
  by_cases nonempty : r.value h0.base_register_sizes > 0
  · have kept : ([r].map (Region.bar m h0)).filter (·.size > 0) = [r.bar m h0] :=
      List.filter_cons_of_pos (decide_eq_true nonempty)
    rw [kept]
    by_cases free : bars.length < m.NV_GPU_NUM_BARS
    · rw [if_pos ⟨nonempty, free⟩, List.take_of_length_le (by simp; omega)]
      rfl
    · -- what is stored is cut off again
      have full : bars.length = m.NV_GPU_NUM_BARS := by omega
      rw [if_neg (not_and_of_not_right _ free), ← full, List.take_left]
  · have dropped : ([r].map (Region.bar m h0)).filter (·.size > 0) = [] :=
      List.filter_cons_of_neg (by simpa [Region.bar] using nonempty)
    rw [if_neg (not_and_of_not_left _ nonempty), dropped, List.append_nil,
      List.take_of_length_le room]

/-- What is cut off twice could be cut off once. -/
theorem take_take_append {α : Type*} (k : ℕ) (xs ys : List α) :
    (xs.take k ++ ys).take k = (xs ++ ys).take k := by
  rw [List.take_append, List.take_append, List.take_take, Nat.min_self, List.length_take]
  congr 2
  omega

theorem barLoop_narrow (inside : i < 6) (type : h0.is64 m i = false) :
    barLoop m h0 (fuel + 1) i bars = barLoop m h0 fuel (i + 1)
      (storeBar m bars i (Region.value ⟨i, false⟩ h0.base_registers)
        (Region.value ⟨i, false⟩ h0.base_register_sizes)) := by
  rw [PciHeader.is64_eq inside, decide_eq_false_iff_not] at type
  rw [barLoop, if_pos inside]
  simp [inside, type, Region.value]

theorem barLoop_wide (inside : i + 1 < 6) (type : h0.is64 m i = true) :
    barLoop m h0 (fuel + 1) i bars = barLoop m h0 fuel (i + 2)
      (storeBar m bars i (Region.value ⟨i, true⟩ h0.base_registers)
        (Region.value ⟨i, true⟩ h0.base_register_sizes)) := by
  have first : i < 6 := by omega
  rw [PciHeader.is64_eq first, decide_eq_true_eq] at type
  rw [barLoop, if_pos first]
  simp [inside, first, type, Region.value, or_shiftLeft_eq_append]

/-- The second half of the last register would be a seventh one. -/
theorem barLoop_last (type : h0.is64 m 5 = true) : barLoop m h0 (fuel + 1) 5 bars = none := by
  rw [PciHeader.is64_eq (by decide), decide_eq_true_eq] at type
  rw [barLoop, if_pos (by decide)]
  simp [type]

/-- From a register on, the loop stores the decoded regions, or reads past the registers. Which
of the two depends on the flags at the end. -/
def DecodesFrom (m : BarMacros) (h0 : PciHeader) (fuel i n : ℕ) (bars : List Bar) : Prop :=
  barLoop m h0 fuel i bars = none ∧ ¬ Even (trailing (flagsFrom m h0 i n)) ∨
    Even (trailing (flagsFrom m h0 i n)) ∧ ∃ regions, Decodes m h0 i n regions ∧
      barLoop m h0 fuel i bars = some ((bars ++ barsOf m h0 regions).take m.NV_GPU_NUM_BARS)

/-- Behind the registers the loop ends. -/
theorem decodesFrom_end (room : bars.length ≤ m.NV_GPU_NUM_BARS)
    (ended : barLoop m h0 fuel i bars = some bars) : DecodesFrom m h0 fuel i 0 bars := by
  refine Or.inr ⟨Even.zero, [], .nil, ?_⟩
  rw [ended, barsOf, List.map_nil, List.filter_nil, List.append_nil, List.take_of_length_le room]

/-- A round for a region `r`, and those after it. -/
theorem DecodesFrom.round {r : Region} {j k : ℕ} (room : bars.length ≤ m.NV_GPU_NUM_BARS)
    (later : DecodesFrom m h0 fuel j k (storeBar m bars r.first (r.value h0.base_registers)
      (r.value h0.base_register_sizes)))
    (ran : barLoop m h0 (fuel + 1) i bars = barLoop m h0 fuel j
      (storeBar m bars r.first (r.value h0.base_registers) (r.value h0.base_register_sizes)))
    (decodes : ∀ regions, Decodes m h0 j k regions → Decodes m h0 i n (r :: regions))
    (parity : Even (trailing (flagsFrom m h0 i n)) ↔ Even (trailing (flagsFrom m h0 j k))) :
    DecodesFrom m h0 (fuel + 1) i n bars := by
  rw [DecodesFrom, ran, parity]
  refine later.imp_right (And.imp_right ?_)
  rintro ⟨regions, decoded, left⟩
  refine ⟨r :: regions, decodes regions decoded, ?_⟩
  rw [left, storeBar_region room, take_take_append, barsOf_cons r regions, List.append_assoc]

theorem length_storeBar (room : bars.length ≤ m.NV_GPU_NUM_BARS) (curBar : ℕ)
    (physAdr size : BitVec 64) :
    (storeBar m bars curBar physAdr size).length ≤ m.NV_GPU_NUM_BARS := by
  unfold storeBar
  split
  · rw [List.length_append, List.length_singleton]
    omega
  · exact room

/-- The loop decodes the registers from any one on, with rounds enough. -/
theorem barLoop_spec (last : i + n = 6) (enough : n ≤ fuel)
    (room : bars.length ≤ m.NV_GPU_NUM_BARS) : DecodesFrom m h0 fuel i n bars := by
  induction fuel generalizing i n bars with
  | zero =>
    obtain rfl := Nat.le_zero.mp enough
    exact decodesFrom_end room rfl
  | succ fuel ih =>
    cases n with
    | zero =>
      obtain rfl : i = 6 := last
      exact decodesFrom_end room rfl
    | succ n =>
      cases type : h0.is64 m i with
      | false =>
        refine .round (r := ⟨i, false⟩) room (ih (by omega) (by omega) (length_storeBar room ..))
          (barLoop_narrow (by omega) type) (fun _ => Decodes.narrow type) ?_
        rw [flagsFrom_succ, type, trailing_false_cons]
      | true =>
        cases n with
        | zero =>
          -- the only flag left, so the number at the end is one
          obtain rfl : i = 5 := by omega
          refine Or.inl ⟨barLoop_last type, ?_⟩
          rw [flagsFrom_succ, type]
          show ¬ Even (trailing [true])
          decide
        | succ n =>
          refine .round (r := ⟨i, true⟩) room (ih (by omega) (by omega) (length_storeBar room ..))
            (barLoop_wide (by omega) type) (fun _ => Decodes.wide type) ?_
          rw [flagsFrom_succ, flagsFrom_succ, type, even_trailing_true_cons_cons]

end Spec

/-- The registers are decoded as they should be just when the number of registers of the 64-bit
type at the end, without another one in between, is even. -/
theorem decodesBars_iff (m : BarMacros) (h0 : PciHeader) :
    DecodesBars m h0 ↔ Even (trailing ((List.range 6).map (h0.is64 m))) := by
  have all : (List.range 6).map (h0.is64 m) = flagsFrom m h0 0 6 := by
    rw [flagsFrom, List.range_eq_range']
  rw [all]
  have room : ([] : List Bar).length ≤ m.NV_GPU_NUM_BARS := Nat.zero_le _
  rcases barLoop_spec (m := m) (Nat.zero_add 6) le_rfl room
    with ⟨past, odd⟩ | ⟨even, regions, decodes, left⟩
  · refine iff_of_false ?_ odd
    rintro ⟨bars, regions, returned, -⟩
    cases past.symm.trans returned
  · exact iff_of_true ⟨_, regions, left, decodes, rfl⟩ even

/-- The macros with their values. -/
def barMacros : BarMacros where
  PCI_address_type := 0x06
  PCI_address_type_64 := 0x04
  NV_GPU_NUM_BARS := 3
  NVRM_PCICFG_BAR_OFFSET := fun i => BitVec.ofNat 32 (0x10 + 4 * i)

/-- Only the last register has the 64-bit type. -/
def lastWide : PciHeader where
  base_registers := Vector.replicate 6 0
  base_register_sizes := Vector.replicate 6 0
  base_register_flags := #v[0, 0, 0, 0, 0, 0x04]

/-- The upper half of the last region would be in a seventh register. -/
theorem not_decodesBars_lastWide : ¬ DecodesBars barMacros lastWide := by
  rintro ⟨bars, regions, returned, -⟩
  have past : initBars barMacros lastWide = none := by decide
  cases past.symm.trans returned

end NvidiaHaiku.Device
