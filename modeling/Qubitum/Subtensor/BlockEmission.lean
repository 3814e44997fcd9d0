import Mathlib.Data.Nat.Log
import Qubitum.Lib.Fixed

/-!
# `Subtensor.BlockEmission` — how much a block mints

The emission of a block is halved whenever the rest of the supply is halved. The rest is counted in units of `2 ^ -32`
of the supply, rounded up, and the number of halvings is the integer part of a logarithm. No block mints more than what
is left (`emission_within_supply`).
-/

namespace Qubitum.Subtensor
open Fixed I96F32

/-- `TotalSupply` -/
def totalSupply : Nat := 21000000000000000

/-- `get_block_emission_for_issuance`, with the logarithm of the fixed-point library. All its errors have one text. -/
def getBlockEmissionForIssuance (log2 : I96F32 → Option I96F32) (issuance : Nat) : Option Nat := do
  let totalIssuance := ofNat issuance
  if ¬ totalIssuance < ofNat totalSupply then return 0
  let ratio ← totalIssuance.checkedDiv ((ofNat 2).saturatingMul (ofNat 10500000000000000))
  let rest ← (ofNat 1).checkedSub ratio
  let inverse ← (ofNat 1).checkedDiv rest
  let residual ← log2 inverse
  let multiplier := (fun x : I96F32 => x.saturatingMul (ofNat 2))^[residual.toUnsigned 64] (ofNat 1)
  let percentage := ((ofNat 1).checkedDiv multiplier).getD (ofNat 0)
  return (percentage.saturatingMul (ofNat 1000000000)).toUnsigned 64

/-- The issuance once the emission of a block is minted. -/
def minted (log2 : I96F32 → Option I96F32) (issuance : Nat) : Nat :=
  issuance + (getBlockEmissionForIssuance log2 issuance).getD 0

/-- The integer part of the logarithm is exact. -/
def FloorExact (log2 : I96F32 → Option I96F32) : Prop :=
  ∀ x : I96F32, 2 ^ 32 ≤ x.bits → ∃ y, log2 x = some y ∧ y.bits / 2 ^ 32 = Nat.log 2 (x.bits / 2 ^ 32).toNat

/-- The rest of the supply, in units of `2 ^ -32` of it, rounded up. -/
def restOf (issuance : Nat) : Nat := 2 ^ 32 - issuance * 2 ^ 32 / totalSupply

/-- How often the emission has been halved. -/
def halvings (issuance : Nat) : Nat := Nat.log 2 (2 ^ 32 / restOf issuance)

/-- There are at most 32 halvings, and for each number of them the doubling loop and the division are exact. -/
theorem emission_of_halvings : ∀ k ≤ 32,
    ((((ofNat 1).checkedDiv ((fun x : I96F32 => x.saturatingMul (ofNat 2))^[k] (ofNat 1))).getD
      (ofNat 0)).saturatingMul (ofNat 1000000000)).toUnsigned 64 = 1000000000 / 2 ^ k := by
  decide +kernel

variable {log2 : I96F32 → Option I96F32} {i j : Nat}

theorem restOf_pos (h : i < totalSupply) : 0 < restOf i ∧ restOf i ≤ 2 ^ 32 := by
  unfold restOf totalSupply at *
  omega

theorem halvings_le (i : Nat) : halvings i ≤ 32 := by
  have hmono : halvings i ≤ Nat.log 2 (2 ^ 32) := Nat.log_mono_right (Nat.div_le_self _ _)
  rwa [Nat.log_pow (by decide)] at hmono

/-- The argument of the logarithm. -/
theorem inverse_eq (h : i < totalSupply) :
    ∃ ratio rest inverse, (ofNat i).checkedDiv ((ofNat 2).saturatingMul (ofNat 10500000000000000)) = some ratio
      ∧ (ofNat 1).checkedSub ratio = some rest ∧ (ofNat 1).checkedDiv rest = some inverse
      ∧ inverse.bits = (2 ^ 32 * 2 ^ 32 / restOf i : Nat) := by
  have hbound : i < 21000000000000000 := h
  have hissuance : (ofNat i).bits = (i * 2 ^ 32 : Nat) := by
    rw [bits_ofNat (by omega)]
    norm_cast
  obtain ⟨ratio, hratio, hbits⟩ := checkedDiv_eq (y := (ofNat 2).saturatingMul (ofNat 10500000000000000))
    (b := totalSupply * 2 ^ 32) hissuance (by decide) (by decide) (by unfold totalSupply; omega)
  rw [Nat.mul_div_mul_right _ _ (by decide)] at hbits
  have hrest : (ofNat 1).bits - ratio.bits = restOf i := by
    show (2 ^ 32 : Int) - ratio.bits = restOf i
    unfold restOf totalSupply at *
    omega
  obtain ⟨hpos, hle⟩ := restOf_pos h
  obtain ⟨inverse, hinverse⟩ := checkedDiv_eq (x := ofNat 1) (a := 2 ^ 32) rfl
    (y := ⟨(ofNat 1).bits - ratio.bits, by omega, by omega⟩) hrest hpos
    (lt_of_le_of_lt (Nat.div_le_self _ _) (by decide))
  exact ⟨ratio, _, inverse, hratio, dif_pos ⟨by omega, by omega⟩, hinverse⟩

/-- **The emission**, in whole numbers. -/
theorem getBlockEmissionForIssuance_eq (hlog : FloorExact log2) (h : i < totalSupply) :
    getBlockEmissionForIssuance log2 i = some (1000000000 / 2 ^ halvings i) := by
  obtain ⟨hpos, hle⟩ := restOf_pos h
  obtain ⟨ratio, rest, inverse, hratio, hrest, hinverse, hbits⟩ := inverse_eq h
  have hbelow : ofNat i < ofNat totalSupply := by
    have hbound : i < 21000000000000000 := h
    show (ofNat i).bits < (21000000000000000 * 2 ^ 32 : Int)
    rw [bits_ofNat (by omega)]
    omega
  have hge : 2 ^ 32 ≤ 2 ^ 32 * 2 ^ 32 / restOf i := (Nat.le_div_iff_mul_le hpos).2 (Nat.mul_le_mul_left _ hle)
  have hwhole : (inverse.bits / 2 ^ 32).toNat = 2 ^ 32 / restOf i := by
    have hdiv : 2 ^ 32 * 2 ^ 32 / restOf i / 2 ^ 32 = 2 ^ 32 / restOf i := by
      rw [Nat.div_div_eq_div_mul, Nat.mul_div_mul_right _ _ (by decide)]
    rw [hbits, ← hdiv]
    generalize 2 ^ 32 * 2 ^ 32 / restOf i = n
    omega
  obtain ⟨residual, hresidual, hfloor⟩ := hlog inverse (by rw [hbits]; exact_mod_cast hge)
  have hhalvings : residual.toUnsigned 64 = halvings i := by
    unfold I96F32.toUnsigned
    rw [hfloor, hwhole, Int.toNat_natCast]
    exact Nat.min_eq_left (le_trans (halvings_le i) (by decide))
  unfold getBlockEmissionForIssuance
  rw [← emission_of_halvings _ (halvings_le i), if_neg (not_not_intro hbelow)]
  simp [hratio, hrest, hinverse, hresidual, hhalvings]

theorem halvings_mono (hij : i ≤ j) (h : j < totalSupply) : halvings i ≤ halvings j := by
  refine Nat.log_mono_right (Nat.div_le_div_left ?_ (restOf_pos h).1)
  exact Nat.sub_le_sub_left (Nat.div_le_div_right (Nat.mul_le_mul_right _ hij)) _

/-- When one unit of the rest is left nothing is minted; before that the supply is far from reached. -/
theorem emission_le_rest (h : i < totalSupply) : i + 1000000000 / 2 ^ halvings i ≤ totalSupply := by
  obtain ⟨hpos, hle⟩ := restOf_pos h
  by_cases hone : restOf i = 1
  · have hlast : halvings i = 32 := by
      unfold halvings
      rw [hone, Nat.div_one, Nat.log_pow (by decide)]
    rw [hlast]
    omega
  · have hlog : 2 ^ 32 < restOf i * 2 ^ (halvings i + 1) := by
      rw [Nat.mul_comm]
      exact (Nat.div_lt_iff_lt_mul hpos).1 (Nat.lt_pow_succ_log_self (by decide) _)
    have hmul : 1000000000 / 2 ^ halvings i * 2 ^ halvings i ≤ 1000000000 := Nat.div_mul_le_self _ _
    have hemission : 1000000000 / 2 ^ halvings i * 2 ^ 32 ≤ 2 * restOf i * 1000000000 := by
      calc 1000000000 / 2 ^ halvings i * 2 ^ 32
          ≤ 1000000000 / 2 ^ halvings i * (restOf i * 2 ^ (halvings i + 1)) := Nat.mul_le_mul_left _ hlog.le
        _ = 2 * restOf i * (1000000000 / 2 ^ halvings i * 2 ^ halvings i) := by ring
        _ ≤ 2 * restOf i * 1000000000 := Nat.mul_le_mul_left _ hmul
    generalize 1000000000 / 2 ^ halvings i = emission at *
    unfold restOf totalSupply at *
    omega

theorem minted_le (hlog : FloorExact log2) (h : i ≤ totalSupply) : minted log2 i ≤ totalSupply := by
  unfold minted
  rcases Nat.lt_or_eq_of_le h with hlt | rfl
  · rw [getBlockEmissionForIssuance_eq hlog hlt, Option.getD_some]
    exact emission_le_rest hlt
  · -- with the whole supply issued nothing is minted
    have hfull : ¬ ofNat totalSupply < ofNat totalSupply := lt_irrefl (ofNat totalSupply).bits
    have hnone : getBlockEmissionForIssuance log2 totalSupply = some 0 := by
      unfold getBlockEmissionForIssuance
      rw [if_pos hfull]
      rfl
    rw [hnone, Option.getD_some, Nat.add_zero]

/-- **The curve respects the supply**: the emission never grows with the issuance, and however many blocks mint, the
supply is not exceeded. -/
theorem emission_within_supply (hlog : FloorExact log2) :
    (∀ i j, i ≤ j → j < totalSupply → ∃ emission later, getBlockEmissionForIssuance log2 i = some emission
      ∧ getBlockEmissionForIssuance log2 j = some later ∧ later ≤ emission ∧ i + emission ≤ totalSupply)
    ∧ ∀ blocks issuance, issuance ≤ totalSupply → (minted log2)^[blocks] issuance ≤ totalSupply := by
  constructor
  · intro i j hij h
    have hi : i < totalSupply := lt_of_le_of_lt hij h
    refine ⟨_, _, getBlockEmissionForIssuance_eq hlog hi, getBlockEmissionForIssuance_eq hlog h, ?_,
      emission_le_rest hi⟩
    exact Nat.div_le_div_left (Nat.pow_le_pow_right (by decide) (halvings_mono hij h)) (by positivity)
  · intro blocks
    induction blocks with
    | zero => exact fun _ h => h
    | succ blocks ih =>
      intro issuance h
      rw [Function.iterate_succ_apply]
      exact ih _ (minted_le hlog h)

/-- A logarithm with an exact integer part. -/
def floorLog2 (x : I96F32) : Option I96F32 := some (ofNat (Nat.log 2 (x.bits / 2 ^ 32).toNat))

theorem emission_within_supply_floorLog2 : FloorExact floorLog2 ∧ (minted floorLog2)^[1000] 0 ≤ totalSupply := by
  have hexact : FloorExact floorLog2 := by
    intro x _
    refine ⟨_, rfl, ?_⟩
    have hle := Nat.log_le_self 2 (x.bits / 2 ^ 32).toNat
    have hlt := x.lt
    rw [bits_ofNat (by omega)]
    exact Int.mul_ediv_cancel _ (by decide)
  exact ⟨hexact, (emission_within_supply hexact).2 1000 0 (Nat.zero_le _)⟩
end Qubitum.Subtensor
