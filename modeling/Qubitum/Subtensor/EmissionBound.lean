import Qubitum.Lib.Proportion
import Qubitum.Subtensor.Emissions
import Qubitum.Subtensor.StakingEffects

/-!
# `Subtensor.EmissionBound` — no more is emitted than the block's emission

The shares of the subnets are parts of one: whatever logarithm, power and square root come out as, each share is the
quotient of a power by the sum of the powers. The branch that leaves the flows as they were scaled is only taken if
they are all zero. So the TAO emissions add up to the block's emission at most, and so does what the coinbase adds to
the issuance.
-/

namespace Qubitum.Subtensor
open Fixed Mutation UFixed

/-! ## Maps -/

section Maps
variable {K V W : Type} {m : StorageMap K V}

theorem values_mapKV_const (f : V → W) : (m.mapKV fun _ v => f v).values = m.values.map f := by
  simp [StorageMap.values, StorageMap.mapKV]

variable [DecidableEq K]

theorem mem_entries_iff {k : K} {v : V} : m.lookup k = some v ↔ ⟨k, v⟩ ∈ m.entries := AList.mem_lookup_iff

theorem lookup_mapKV (f : K → V → W) (k : K) : (m.mapKV f).lookup k = (m.lookup k).map (f k) := by
  apply Option.ext
  intro w
  simp only [Option.map_eq_some_iff]
  rw [mem_entries_iff]
  simp only [StorageMap.mapKV, List.mem_map]
  constructor
  · rintro ⟨⟨k', v⟩, he, heq⟩
    cases heq
    exact ⟨v, mem_entries_iff.mpr he, rfl⟩
  · rintro ⟨v, hv, rfl⟩
    exact ⟨⟨k, v⟩, mem_entries_iff.mp hv, rfl⟩

/-- What is stored under some keys is not more than what is stored. -/
theorem sum_lookup_le (f : V → Nat) {keys : List K} (hkeys : keys.Nodup) :
    (keys.map fun k => ((m.lookup k).map f).getD 0).sum ≤ (m.values.map f).sum := by
  have hvalues : (m.values.map f).sum = (m.keys.map fun k => ((m.lookup k).map f).getD 0).sum := by
    rw [StorageMap.values, AList.keys, List.keys, List.map_map, List.map_map]
    congr 1
    refine List.map_congr_left ?_
    rintro ⟨k, v⟩ he
    have hlookup : m.lookup k = some v := mem_entries_iff.mpr he
    simp [hlookup]
  rw [hvalues, ← List.sum_toFinset _ hkeys, ← List.sum_toFinset _ m.keys_nodup]
  refine Finset.sum_le_sum_of_ne_zero ?_
  intro k _ hk
  cases hlookup : m.lookup k with
  | none => simp [hlookup] at hk
  | some v =>
    rw [List.mem_toFinset, AList.keys]
    exact List.mem_keys_of_mem (mem_entries_iff.mp hlookup)
end Maps

/-- A map by subnet has an entry for each of them at most. -/
theorem length_values_le {V : Type} (m : StorageMap NetUid V) : m.values.length ≤ 65536 := by
  have hnodup : (m.keys.map UInt16.toFin).Nodup := m.keys_nodup.map fun _ _ h => UInt16.toFin_inj.mp h
  have hcard := hnodup.length_le_card
  simpa [StorageMap.values, AList.keys, List.keys] using hcard

/-! ## Shares -/

section Shares
variable (ecfg : EmissionConfig) (flows : StorageMap NetUid U64F64)
variable {x : U64F64}

/-- With a flow that large, the flows are precise enough to be raised to a power. -/
theorem precision_le {n : Nat} (hpos : 0 < n) (hn : n ≤ 65536) (hx : 2 ^ 63 ≤ x.bits) :
    (ofNat (2 ^ 31 - 1) : U64F64).safeDiv (.ofNat (2 ^ 64 - 1)) ≤ (ofNat n).saturatingMul (x.saturatingMul x) := by
  have hlow : ((ofNat (2 ^ 31 - 1) : U64F64).safeDiv (.ofNat (2 ^ 64 - 1))).bits ≤ 2 ^ 31 := by decide
  have hsquare : 2 ^ 62 ≤ (x.saturatingMul x).bits := by
    have hmul : 2 ^ 63 * 2 ^ 63 ≤ x.bits * x.bits := Nat.mul_le_mul hx hx
    refine le_bits_saturatingMul ?_ (by decide)
    generalize x.bits * x.bits = y at hmul
    omega
  rw [le_iff]
  refine hlow.trans (le_bits_saturatingMul ?_ (by decide))
  have hcount : (ofNat n : U64F64).bits = n * 2 ^ 64 := bits_ofNat (by omega)
  rw [hcount, Nat.mul_right_comm, Nat.mul_div_cancel _ (by decide)]
  have hmul : 1 * 2 ^ 62 ≤ n * (x.saturatingMul x).bits := Nat.mul_le_mul hpos hsquare
  omega

/-- A number times what it divides one into. -/
theorem half_le_scaled (h : 2 ≤ x.bits) : 2 ^ 63 ≤ (((ofNat 1).safeDiv x).saturatingMul x).bits := by
  have hlt := x.lt
  have hq : (ofNat 1 : U64F64).bits * 2 ^ 64 / x.bits = 2 ^ 128 / x.bits := by
    have hone : (ofNat 1 : U64F64).bits = 2 ^ 64 := by decide
    rw [hone, ← Nat.pow_add]
  have hfits : 2 ^ 128 / x.bits < 2 ^ 128 := Nat.div_lt_self (by decide) (by omega)
  have hfactor : ((ofNat 1 : U64F64).safeDiv x).bits = 2 ^ 128 / x.bits := by
    rw [bits_safeDiv (by rw [hq]; exact hfits), hq]
  have hpos : 1 ≤ 2 ^ 128 / x.bits := Nat.div_pos (by omega) (by omega)
  have hle : 2 ^ 128 / x.bits * x.bits ≤ 2 ^ 128 := Nat.div_mul_le_self _ _
  have hge : 2 ^ 128 < 2 ^ 128 / x.bits * x.bits + x.bits := Nat.lt_div_mul_add (by omega)
  have hself : x.bits ≤ 2 ^ 128 / x.bits * x.bits := Nat.le_mul_of_pos_left _ hpos
  rw [← hfactor] at hle hge hself
  rw [bits_saturatingMul (by omega)]
  omega

/-- Scaling brings the largest flow to a half at least, or everything to zero. -/
theorem inplaceScale_cases :
    2 ^ 63 ≤ (maximum (inplaceScale flows).values).bits ∨ ∀ flow ∈ (inplaceScale flows).values, flow.bits = 0 := by
  unfold inplaceScale
  simp only [values_mapKV_const]
  generalize flows.values = vs
  by_cases hmax : 2 ≤ (maximum vs).bits
  · left
    have hmem : maximum vs ∈ vs := maximum_mem (by omega)
    exact le_trans (half_le_scaled hmax) (le_maximum (List.mem_map_of_mem hmem))
  · right
    intro flow hflow
    obtain ⟨v, hv, rfl⟩ := List.mem_map.mp hflow
    have hle := le_maximum hv
    have hbound : (((ofNat 1).safeDiv (maximum vs)).saturatingMul v).bits ≤
        ((ofNat 1).safeDiv (maximum vs)).bits * v.bits / 2 ^ 64 := bits_saturatingMul_le
    by_cases hone : (maximum vs).bits = 1
    · -- one over the smallest number there is does not fit
      have hfactor : ((ofNat 1).safeDiv (maximum vs)).bits = 0 := by
        unfold safeDiv
        rw [dif_neg]
        rw [hone]
        decide
      rw [hfactor] at hbound
      omega
    · have hv : v.bits = 0 := by omega
      rw [hv] at hbound
      omega

/-- The powers of the scaled flows. -/
theorem bits_safePow_lt (val p : U64F64) : (safePow ecfg val p).bits < 2 ^ 95 := by
  unfold safePow
  split
  · exact I32F32.bits_toU64F64_lt _
  · decide

/-- Each power over the sum of the powers. -/
theorem bits_normalised (pows : List U64F64) (hlen : pows.length ≤ 65536) (hpows : ∀ x ∈ pows, x.bits < 2 ^ 95) :
    (pows.map fun x => x.safeDiv (sum pows)).map bits =
      (pows.map bits).map fun n => n * 2 ^ 64 / (pows.map bits).sum := by
  have hle : (pows.map bits).sum ≤ (pows.map bits).length • 2 ^ 95 := by
    refine List.sum_le_card_nsmul _ _ ?_
    intro n hn
    obtain ⟨x, hx, rfl⟩ := List.mem_map.mp hn
    exact (hpows x hx).le
  rw [List.length_map, smul_eq_mul] at hle
  have hsum : (sum pows).bits = (pows.map bits).sum := Nat.mod_eq_of_lt (by omega)
  rw [← hsum]
  refine map_bits_safeDiv (by decide) ?_
  intro x hx
  rw [hsum]
  exact List.le_sum_of_mem (List.mem_map_of_mem hx)

/-- The shares are parts of one, and if there is any they make up one but for the rounding. -/
theorem inplacePowNormalize_sum (p : U64F64) :
    ((inplacePowNormalize ecfg flows p).values.map bits).sum ≤ 2 ^ 64 ∧
      ((∃ share ∈ (inplacePowNormalize ecfg flows p).values, 0 < share.bits) →
        2 ^ 64 < ((inplacePowNormalize ecfg flows p).values.map bits).sum +
          (inplacePowNormalize ecfg flows p).values.length) := by
  unfold inplacePowNormalize
  simp only
  split_ifs with hbranch
  · rw [values_mapKV_const]
    generalize checkedSqrt _ _ = flowFactor
    have hcount := length_values_le (inplaceScale flows)
    generalize (inplaceScale flows).values = scaled at hcount
    generalize hpows : scaled.map (fun flow => safePow ecfg (flowFactor.saturatingMul flow) p) = pows
    have hmap : scaled.map (fun flow => (safePow ecfg (flowFactor.saturatingMul flow) p).safeDiv (sum pows)) =
        pows.map fun x => x.safeDiv (sum pows) := by
      rw [← hpows, List.map_map]
      rfl
    have hlength : pows.length = scaled.length := by rw [← hpows, List.length_map]
    rw [hmap, List.length_map]
    have hbits := bits_normalised pows (by omega) (by
      intro x hx
      rw [← hpows] at hx
      obtain ⟨flow, -, rfl⟩ := List.mem_map.mp hx
      exact bits_safePow_lt ecfg _ p)
    rw [hbits]
    refine ⟨Proportion.sum_floor_le _ _, ?_⟩
    rintro ⟨share, hshare, hpos⟩
    have hsum : 0 < (pows.map bits).sum := by
      by_contra hzero
      have hmem : share.bits ∈ (pows.map fun x => x.safeDiv (sum pows)).map bits := List.mem_map_of_mem hshare
      rw [hbits, Nat.eq_zero_of_not_pos hzero] at hmem
      obtain ⟨n, -, hn⟩ := List.mem_map.mp hmem
      rw [Nat.div_zero] at hn
      omega
    have hlt := Proportion.lt_sum_floor_add_length (2 ^ 64) hsum
    rwa [List.length_map] at hlt
  · -- nothing is left to share
    have hzero : ∀ flow ∈ (inplaceScale flows).values, flow.bits = 0 := by
      refine (inplaceScale_cases flows).resolve_left ?_
      intro hmax
      have hmem : maximum (inplaceScale flows).values ∈ (inplaceScale flows).values := maximum_mem (by omega)
      have hcount := length_values_le flows
      have hpos : 0 < flows.values.length := by
        have hlen := List.length_pos_of_mem hmem
        rwa [inplaceScale, values_mapKV_const, List.length_map] at hlen
      rw [StorageMap.values, List.length_map] at hcount hpos
      exact hbranch (precision_le hpos hcount hmax)
    have hsum : ((inplaceScale flows).values.map bits).sum = 0 := by
      refine List.sum_eq_zero ?_
      intro n hn
      obtain ⟨flow, hflow, rfl⟩ := List.mem_map.mp hn
      exact hzero flow hflow
    rw [hsum]
    refine ⟨Nat.zero_le _, ?_⟩
    rintro ⟨share, hshare, hpos⟩
    have := hzero share hshare
    omega
end Shares

/-! ## Emissions -/

section Emission
variable {A B X R : Type} {cfg : Config A B X (EmissionStorage × R)} {ecfg : EmissionConfig} {s : CoinbaseState A B X R}

theorem shareOf_le (blockEmission : U96F32) (share : U64F64) :
    (shareOf blockEmission share).bits ≤ share.bits * blockEmission.bits / 2 ^ 64 := by
  have hblock : (blockEmission.convert : U64F64).bits ≤ blockEmission.bits * 2 ^ 64 / 2 ^ 32 := bits_convert_le
  have hmul : ((blockEmission.convert : U64F64).saturatingMul share).bits ≤
      (blockEmission.convert : U64F64).bits * share.bits / 2 ^ 64 := bits_saturatingMul_le
  have hback : (shareOf blockEmission share).bits ≤
      ((blockEmission.convert : U64F64).saturatingMul share).bits * 2 ^ 32 / 2 ^ 64 := bits_convert_le
  have hprod : (blockEmission.convert : U64F64).bits * share.bits ≤ blockEmission.bits * 2 ^ 32 * share.bits :=
    Nat.mul_le_mul_right _ (by omega)
  have hcomm : blockEmission.bits * 2 ^ 32 * share.bits = share.bits * blockEmission.bits * 2 ^ 32 := by ring
  rw [hcomm] at hprod
  omega

/-- The shares of the subnets, whatever their flows are. -/
theorem getShares_sum (ecfg : EmissionConfig) (s : CoinbaseState A B X R) (subnets : List NetUid) :
    ((getShares ecfg s subnets).2.values.map bits).sum ≤ 2 ^ 64 ∧
      ((∃ share ∈ (getShares ecfg s subnets).2.values, 0 < share.bits) →
        2 ^ 64 < ((getShares ecfg s subnets).2.values.map bits).sum + (getShares ecfg s subnets).2.values.length) := by
  have hshares : (getShares ecfg s subnets).2 =
      inplacePowNormalize ecfg (offsetFlows ecfg (getEmaFlows ecfg s subnets).2) ecfg.flowNormExponent := by
    simp only [getShares]
  rw [hshares]
  exact inplacePowNormalize_sum ecfg (offsetFlows ecfg (getEmaFlows ecfg s subnets).2) ecfg.flowNormExponent

/-- A sum over a list that was mapped. -/
theorem sum_map_map_le {α β : Type} {l : List α} {f : α → β} {g : β → Nat} {h : α → Nat}
    (hle : ∀ a ∈ l, g (f a) ≤ h a) : ((l.map f).map g).sum ≤ (l.map h).sum := by
  rw [List.map_map]
  exact List.sum_le_sum hle

theorem getSubnetBlockEmissions_sum (ecfg : EmissionConfig) (s : CoinbaseState A B X R) (subnets : List NetUid)
    (blockEmission : U96F32) :
    ((getSubnetBlockEmissions ecfg s subnets blockEmission).2.values.map bits).sum ≤ blockEmission.bits := by
  have hshares := (getShares_sum ecfg s subnets).1
  unfold getSubnetBlockEmissions
  rw [values_mapKV_const]
  generalize (getShares ecfg s subnets).2.values = shares at hshares
  have hparts : (shares.map fun share => share.bits * blockEmission.bits / 2 ^ 64) =
      (shares.map bits).map fun n => n * blockEmission.bits / 2 ^ 64 := by
    rw [List.map_map]
    rfl
  calc ((shares.map (shareOf blockEmission)).map bits).sum
      ≤ (shares.map fun share => share.bits * blockEmission.bits / 2 ^ 64).sum :=
        sum_map_map_le fun share _ => shareOf_le blockEmission share
    _ ≤ (shares.map bits).sum * blockEmission.bits / 2 ^ 64 := by
        rw [hparts]
        exact Proportion.sum_floor_le_div _ _ _
    _ ≤ 2 ^ 64 * blockEmission.bits / 2 ^ 64 := Nat.div_le_div_right (Nat.mul_le_mul_right _ hshares)
    _ = blockEmission.bits := Nat.mul_div_cancel_left _ (by decide)

/-- The emission of a subnet is what goes into the pool and what alpha is bought with, and the alpha that goes into the
    pool is not more than the smaller one of the two emissions. -/
theorem subnetTerms_split (netuid : NetUid) (emission : U96F32) :
    (subnetTerms cfg ecfg s netuid emission).taoIn.bits + (subnetTerms cfg ecfg s netuid emission).excessTao.bits =
        emission.bits ∧
      (subnetTerms cfg ecfg s netuid emission).alphaIn ≤ alphaEmission ecfg s netuid ∧
      (subnetTerms cfg ecfg s netuid emission).alphaIn ≤ taoBlockEmission ecfg s := by
  unfold subnetTerms
  generalize alphaEmission ecfg s netuid = alphaOut
  generalize taoBlockEmission ecfg s = blockEmission
  generalize cfg.swapInterface.currentAlphaPrice s.swap s.pools netuid = price
  simp only
  generalize hcap : (if alphaOut ≤ blockEmission then alphaOut else blockEmission) = cap
  have hmin : cap.bits ≤ alphaOut.bits ∧ cap.bits ≤ blockEmission.bits := by
    rw [← hcap]
    split_ifs with hle
    · exact ⟨le_refl _, hle⟩
    · exact ⟨(not_le.mp hle).le, le_refl _⟩
  split_ifs with hover
  · -- the alpha at the cap costs less than the emission would have bought
    have hcost : (cap.saturatingMul price).bits ≤ emission.bits := bits_saturatingMul_le_of_lt_safeDiv hover
    refine ⟨?_, hmin⟩
    dsimp only
    rw [bits_saturatingSub]
    omega
  · have hle : (emission.safeDiv price).bits ≤ cap.bits := Nat.not_lt.mp hover
    refine ⟨?_, hle.trans hmin.1, hle.trans hmin.2⟩
    dsimp only
    rw [bits_saturatingSub]
    omega

/-! ## Issuance -/

variable {taoIn alphaIn excessTao m : StorageMap NetUid U96F32} {netuid : NetUid}

/-- What the coinbase issues for a subnet. -/
theorem injectOn_issuance : Ends (injectOn cfg taoIn alphaIn excessTao netuid) s
      (fun _ s' => s'.totals.totalIssuance =
        s.totals.totalIssuance + (emissionOf taoIn netuid + emissionOf excessTao netuid))
      (fun _ _ => False) := by
  unfold injectOn
  simp only [ends_bind, ends_modify, ends_ite, ends_attempt]
  refine ⟨fun hexcess => ?_, fun hnone => Nat.add_assoc _ _ _⟩
  refine swapTaoForAlpha_ends.mono ?_ ?_
  · rintro r t ⟨hr, rfl⟩
    exact Nat.add_assoc _ _ _
  · rintro e t ⟨he, ht⟩
    rw [ht]
    exact Nat.add_assoc _ _ _

theorem injectAndMaybeSwap_issuance (subnets : List NetUid) :
    Ends (injectAndMaybeSwap cfg subnets taoIn alphaIn excessTao) s
      (fun _ s' => s'.totals.totalIssuance = s.totals.totalIssuance +
        (subnets.map fun netuid => emissionOf taoIn netuid + emissionOf excessTao netuid).sum)
      (fun _ _ => False) := by
  refine (ends_forM (I := fun rest t => t.totals.totalIssuance +
    (rest.map fun netuid => emissionOf taoIn netuid + emissionOf excessTao netuid).sum = s.totals.totalIssuance +
      (subnets.map fun netuid => emissionOf taoIn netuid + emissionOf excessTao netuid).sum) ?_ rfl).mono ?_
    fun _ _ h => h
  · intro netuid rest t hinv
    refine injectOn_issuance.mono ?_ fun _ _ h => h
    intro _ t' ht'
    rw [List.map_cons, List.sum_cons] at hinv
    omega
  · intro _ t hinv
    simpa using hinv

theorem emissionOf_some {x : U96F32} (h : m.lookup netuid = some x) : emissionOf m netuid = x.toU64 := by
  rw [emissionOf, h, Option.getD_some]

theorem emissionOf_none (h : m.lookup netuid = none) : emissionOf m netuid = 0 := by
  rw [emissionOf, h, Option.getD_none]
  decide

/-- What goes into the pool and what alpha is bought with, both rounded down to whole units. -/
theorem emissionOf_terms_le (emissions : StorageMap NetUid U96F32) (netuid : NetUid) :
    2 ^ 32 * (emissionOf ((getSubnetTerms cfg ecfg s emissions).mapKV fun _ t => t.taoIn) netuid +
        emissionOf ((getSubnetTerms cfg ecfg s emissions).mapKV fun _ t => t.excessTao) netuid) ≤
      ((emissions.lookup netuid).map bits).getD 0 := by
  have hlookup : ∀ g : SubnetTerms → U96F32, ((getSubnetTerms cfg ecfg s emissions).mapKV fun _ t => g t).lookup netuid =
      (emissions.lookup netuid).map fun emission => g (subnetTerms cfg ecfg s netuid emission) := by
    intro g
    rw [lookup_mapKV, getSubnetTerms, lookup_mapKV, Option.map_map]
    rfl
  have htao := hlookup SubnetTerms.taoIn
  have hexcess := hlookup SubnetTerms.excessTao
  cases hemission : emissions.lookup netuid with
  | none =>
    rw [hemission, Option.map_none] at htao hexcess
    rw [emissionOf_none htao, emissionOf_none hexcess]
    exact Nat.zero_le _
  | some emission =>
    rw [hemission, Option.map_some] at htao hexcess
    rw [emissionOf_some htao, emissionOf_some hexcess, Option.map_some, Option.getD_some]
    obtain ⟨hsplit, -⟩ := @subnetTerms_split _ _ _ _ cfg ecfg s netuid emission
    generalize subnetTerms cfg ecfg s netuid emission = terms at hsplit
    have htao : terms.taoIn.toU64 ≤ terms.taoIn.bits / 2 ^ 32 := toU64_le
    have hexcess : terms.excessTao.toU64 ≤ terms.excessTao.bits / 2 ^ 32 := toU64_le
    omega

variable (cfg) (ecfg)

/-- What `emit_to_subnets` adds to the issuance, in units of `U96F32`. -/
theorem emitToSubnets_issuance {subnets : List NetUid} (hsubnets : subnets.Nodup)
    (emissions : StorageMap NetUid U96F32) (rootSellFlag : Bool) (t : CoinbaseState A B X R) :
    Ends (emitToSubnets cfg ecfg subnets emissions rootSellFlag) t
      (fun _ t' => 2 ^ 32 * t'.totals.totalIssuance ≤ 2 ^ 32 * t.totals.totalIssuance + (emissions.values.map bits).sum)
      (fun _ _ => False) := by
  unfold emitToSubnets
  simp only [ends_bind, ends_get, ends_modify]
  refine (injectAndMaybeSwap_issuance subnets).mono ?_ fun _ _ h => h
  intro _ t' ht'
  -- the second loop leaves the totals alone
  have htotals : ∀ (l : List NetUid) (u : CoinbaseState A B X R),
      (l.foldl (fun u netuid => accumulatePending ecfg
        ((getSubnetTerms cfg ecfg t emissions).mapKV fun _ t => t.alphaOut) rootSellFlag netuid u) u).totals =
          u.totals := by
    intro l
    induction l with
    | nil => exact fun u => rfl
    | cons netuid l ih =>
      intro u
      rw [List.foldl_cons, ih]
      unfold accumulatePending
      simp only
      split <;> rfl
  rw [htotals, ht', Nat.mul_add, ← List.sum_map_mul_left]
  refine Nat.add_le_add_left ?_ _
  calc (subnets.map fun netuid => 2 ^ 32 *
        (emissionOf ((getSubnetTerms cfg ecfg t emissions).mapKV fun _ t => t.taoIn) netuid +
          emissionOf ((getSubnetTerms cfg ecfg t emissions).mapKV fun _ t => t.excessTao) netuid)).sum
      ≤ (subnets.map fun netuid => ((emissions.lookup netuid).map bits).getD 0).sum :=
        List.sum_le_sum fun netuid _ => emissionOf_terms_le emissions netuid
    _ ≤ (emissions.values.map bits).sum := sum_lookup_le bits hsubnets

/-- For every set of subnets, whatever their flows, the cutoff, the exponent and the pools' prices are, and whatever
    logarithm and exponential function return:

    * the shares of the subnets make up one at most, and if any is positive all of one but for the rounding;
    * the TAO emissions make up the block's emission at most;
    * the emission of a subnet is split into what goes into the pool and what alpha is bought with, and the alpha that
      goes into the pool is not more than the alpha emission and than the block's emission;
    * `emit_to_subnets` raises the issuance by the block's emission at most. -/
theorem block_emission_not_exceeded (s : CoinbaseState A B X R) (subnets : List NetUid) (hsubnets : subnets.Nodup)
    (blockEmission : U96F32) :
    (((getShares ecfg s subnets).2.values.map bits).sum ≤ 2 ^ 64 ∧
      ((∃ share ∈ (getShares ecfg s subnets).2.values, 0 < share.bits) →
        2 ^ 64 < ((getShares ecfg s subnets).2.values.map bits).sum + (getShares ecfg s subnets).2.values.length)) ∧
    ((getSubnetBlockEmissions ecfg s subnets blockEmission).2.values.map bits).sum ≤ blockEmission.bits ∧
    (∀ (t : CoinbaseState A B X R) (emissions : StorageMap NetUid U96F32) netuid emission,
      emissions.lookup netuid = some emission →
      ∃ terms, (getSubnetTerms cfg ecfg t emissions).lookup netuid = some terms ∧
        terms.taoIn.bits + terms.excessTao.bits = emission.bits ∧
        terms.alphaIn ≤ alphaEmission ecfg t netuid ∧ terms.alphaIn ≤ taoBlockEmission ecfg t) ∧
    ∀ (t : CoinbaseState A B X R) (rootSellFlag : Bool),
      Ends (emitToSubnets cfg ecfg subnets (getSubnetBlockEmissions ecfg s subnets blockEmission).2 rootSellFlag) t
        (fun _ t' => 2 ^ 32 * t'.totals.totalIssuance ≤ 2 ^ 32 * t.totals.totalIssuance + blockEmission.bits)
        (fun _ _ => False) := by
  have hsum := getSubnetBlockEmissions_sum ecfg s subnets blockEmission
  refine ⟨getShares_sum ecfg s subnets, hsum, ?_, ?_⟩
  · intro t emissions netuid emission hemission
    refine ⟨subnetTerms cfg ecfg t netuid emission, ?_, subnetTerms_split netuid emission⟩
    rw [getSubnetTerms, lookup_mapKV, hemission, Option.map_some]
  · intro t rootSellFlag
    refine (emitToSubnets_issuance cfg ecfg hsubnets _ rootSellFlag t).mono ?_ fun _ _ h => h
    intro _ t' ht'
    exact ht'.trans (Nat.add_le_add_left hsum _)
end Emission

namespace Sample

/-- Powers that are the flows themselves. -/
def emissionConfig : EmissionConfig where
  flowEmaSmoothingFactor := 0
  taoFlowCutoff := .ofInt 0
  flowNormExponent := .ofNat 1
  ln := some
  exp := some
  blockEmissionForIssuance _ := some 1000000000
  subnetOwnerCut := 11796
  taoWeight := .ofNat 0

/-- Three times as much flows into subnet 1 as into subnet 2. -/
def flowing : CoinbaseState Account (Account → Nat) Unit Unit :=
  { fresh with
    rest := ({
      subnetEmaTaoFlow := fun netuid => if netuid = 1 then some (fresh.block, .ofInt 3) else some (fresh.block, .ofInt 1)
      pendingOwnerCut := fun _ => 0
      pendingServerEmission := fun _ => 0
      pendingValidatorEmission := fun _ => 0
      pendingRootAlphaDivs := fun _ => 0 }, ()) }
end Sample

/-- Half a TAO is shared between two subnets. -/
theorem block_emission_not_exceeded_two :
    ([1, 2] : List NetUid).Nodup ∧
      ((getSubnetBlockEmissions Sample.emissionConfig Sample.flowing [1, 2] (.ofNat 500000000)).2.values.map
        bits).sum ≤ (ofNat 500000000 : U96F32).bits :=
  ⟨by decide, (block_emission_not_exceeded (Sample.config.beside EmissionStorage) Sample.emissionConfig Sample.flowing
    [1, 2] (by decide) (.ofNat 500000000)).2.1⟩

example : ((getSubnetBlockEmissions Sample.emissionConfig Sample.flowing [1, 2] (.ofNat 500000000)).2.values.map
    toU64) = [124999999, 375000000] := by
  decide +kernel
end Qubitum.Subtensor
