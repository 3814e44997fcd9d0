import Qubitum.Pallet.RouteSearch

/-!
# `Pallet.Overflow` — amounts at the end of the balance type

Shares of an amount are computed by `pro_rata`, which multiplies in the width of the balance type before it divides. So
it is exact while the product fits and refuses otherwise (`proRata_eq`), and a call that needs such a share is refused
with it. Two groups of results say where that matters in the runtime's `u64`:

* a request is opened with any payment, but is settled only if both products of its payment fit;
* a bond is bounded and can always be slashed, a stake is not and can be slashed only if the product fits.
-/

namespace Qubitum
open Scale Outcome Ledger Tally Dense

/-! ## Shares of an amount -/

section Shares
variable {w : Nat}

theorem toNat_saturatedInto (hw : 16 ≤ w) (n : UInt16) : (Checked.saturatedInto w n.toNat).toNat = n.toNat := by
  have hlt : n.toNat < 2 ^ w := Nat.lt_of_lt_of_le n.toNat_lt (Nat.pow_le_pow_right (by decide) hw)
  rw [Checked.saturatedInto, if_pos hlt, BitVec.toNat_ofNat, Nat.mod_eq_of_lt hlt]

/-- **`pro_rata` is exact while the product fits**, and refuses otherwise. -/
theorem proRata_eq (hw : 16 ≤ w) (amount : BitVec w) (bps : UInt16) :
    proRata amount bps =
      if amount.toNat * bps.toNat < 2 ^ w then .ok (BitVec.ofNat w (amount.toNat * bps.toNat / 10000))
      else .error (.module .arithmeticOverflow) := by
  have hdenominator : (Checked.saturatedInto w bpsDenominator.toNat).toNat = 10000 := toNat_saturatedInto hw _
  unfold proRata Checked.mul Checked.div
  rw [toNat_saturatedInto hw, hdenominator]
  by_cases hfits : amount.toNat * bps.toNat < 2 ^ w
  · rw [if_pos hfits, if_pos hfits]
    show Except.ok (amount * Checked.saturatedInto w bps.toNat / Checked.saturatedInto w bpsDenominator.toNat) = _
    congr 1
    apply BitVec.eq_of_toNat_eq
    rw [BitVec.toNat_udiv, hdenominator, BitVec.toNat_mul, toNat_saturatedInto hw, Nat.mod_eq_of_lt hfits,
      BitVec.toNat_ofNat, Nat.mod_eq_of_lt (Nat.lt_of_le_of_lt (Nat.div_le_self ..) hfits)]
  · rw [if_neg hfits, if_neg hfits]
    rfl

variable {amount payment : BitVec w} {bps validatorFeeBps treasuryFeeBps : UInt16}

theorem proRata_toNat (hw : 16 ≤ w) {share : BitVec w} (h : proRata amount bps = .ok share) :
    amount.toNat * bps.toNat < 2 ^ w ∧ share.toNat = amount.toNat * bps.toNat / 10000 := by
  rw [proRata_eq hw] at h
  split_ifs at h with hfits
  · cases h
    refine ⟨hfits, ?_⟩
    rw [BitVec.toNat_ofNat, Nat.mod_eq_of_lt (Nat.lt_of_le_of_lt (Nat.div_le_self ..) hfits)]

theorem proRata_succeeds (hw : 16 ≤ w) (hfits : amount.toNat * bps.toNat < 2 ^ w) :
    ∃ share, proRata amount bps = .ok share ∧ share.toNat = amount.toNat * bps.toNat / 10000 := by
  have hok : proRata amount bps = .ok (BitVec.ofNat w (amount.toNat * bps.toNat / 10000)) := by
    rw [proRata_eq hw, if_pos hfits]
  exact ⟨_, hok, (proRata_toNat hw hok).2⟩

/-- Both shares of a payment and the rest. -/
structure SplitExactly (payment : BitVec w) (validatorFeeBps treasuryFeeBps : UInt16)
    (minerPayment validatorFee treasuryFee : BitVec w) : Prop where
  validator : validatorFee.toNat = payment.toNat * validatorFeeBps.toNat / 10000
  treasury : treasuryFee.toNat = payment.toNat * treasuryFeeBps.toNat / 10000
  miner : minerPayment.toNat = payment.toNat - validatorFee.toNat - treasuryFee.toNat
  total : minerPayment.toNat + validatorFee.toNat + treasuryFee.toNat = payment.toNat

/-- A payment whose products fit is split exactly. -/
theorem paymentSplit_succeeds (hw : 16 ≤ w) (hsplit : validateFeeSplit validatorFeeBps treasuryFeeBps = .ok ())
    (hvalidator : payment.toNat * validatorFeeBps.toNat < 2 ^ w)
    (htreasury : payment.toNat * treasuryFeeBps.toNat < 2 ^ w) :
    ∃ minerPayment validatorFee treasuryFee,
      paymentSplit payment validatorFeeBps treasuryFeeBps = .ok (minerPayment, validatorFee, treasuryFee) ∧
      SplitExactly payment validatorFeeBps treasuryFeeBps minerPayment validatorFee treasuryFee := by
  obtain ⟨validatorFee, hfee, hvalue⟩ := proRata_succeeds hw hvalidator
  obtain ⟨treasuryFee, hfee', hvalue'⟩ := proRata_succeeds hw htreasury
  -- together the two shares are at most the payment, so neither the sum nor the rest is refused
  have hle : validatorFee.toNat + treasuryFee.toNat ≤ payment.toNat := by
    have hbps : _ ≤ 10000 := validateFeeSplit_eq_ok.mp hsplit
    have hmul := Nat.mul_le_mul_left payment.toNat hbps
    rw [Nat.mul_add] at hmul
    omega
  have hadd : Checked.add validatorFee treasuryFee = some (validatorFee + treasuryFee) :=
    if_pos (Nat.lt_of_le_of_lt hle payment.isLt)
  have hsum := Checked.add_eq_some hadd
  have hsub : Checked.sub payment (validatorFee + treasuryFee) = some (payment - (validatorFee + treasuryFee)) :=
    if_pos (by omega)
  have hrest := Checked.sub_eq_some hsub
  refine ⟨payment - (validatorFee + treasuryFee), validatorFee, treasuryFee, ?_, hvalue, hvalue', by omega, by omega⟩
  refine bind_eq_ok.mpr ⟨(), hsplit, bind_eq_ok.mpr ⟨_, hfee, bind_eq_ok.mpr ⟨_, hfee', ?_⟩⟩⟩
  exact okOr_bind_eq_ok.mpr ⟨_, hadd, okOr_bind_eq_ok.mpr ⟨_, hsub, rfl⟩⟩
end Shares

/-! ## Opening and settling a request -/

section Settling
variable {A L : Type} [Codec A]

/-- A request with these parameters was opened, by one of the two calls that open one. -/
def Opens (cfg : Config A L 64) (s s' : State L 64) (origin : Origin A) (requestId : RequestId)
    (params : AutoRouteInferenceRequestParams 64) : Prop :=
  requestInferenceAutoRoute cfg s origin requestId params = .ok s' ∨
    ∃ named : InferenceRequestParams 64, named.toAutoRoute = params ∧
      requestInference cfg s origin requestId named = .ok s'

variable {s : State L 64} {requestId : RequestId} {params : AutoRouteInferenceRequestParams 64}

theorem feeSplit_of_openable (h : ensureInferenceRequestOpenable s requestId params = .ok ()) :
    validateFeeSplit params.validatorFeeBps params.treasuryFeeBps = .ok () := by
  iterate 4 obtain ⟨_, _, h⟩ := bind_ok h
  iterate 2 obtain ⟨_, h⟩ := ensure_ok h
  obtain ⟨_, hsplit, _⟩ := bind_ok h
  exact hsplit

/-- Opening a request checks the fees against each other, and nothing of the payment but that it is not zero. -/
theorem Opens.feeSplit {cfg : Config A L 64} {s' : State L 64} {origin : Origin A}
    (h : Opens cfg s s' origin requestId params) :
    validateFeeSplit params.validatorFeeBps params.treasuryFeeBps = .ok () := by
  rcases h with h | ⟨named, rfl, h⟩
  · unfold requestInferenceAutoRoute at h
    obtain ⟨_, _, h⟩ := bind_ok h
    obtain ⟨_, hopen, _⟩ := bind_ok h
    exact feeSplit_of_openable hopen
  · unfold requestInference at h
    obtain ⟨_, _, h⟩ := bind_ok h
    obtain ⟨_, h⟩ := ensure_ok h
    obtain ⟨_, hopen, _⟩ := bind_ok h
    exact feeSplit_of_openable hopen

/-- **Which opened requests can be settled.** The payment of an opened request is split into the two floors and the
    rest exactly if its products with both fees fit in 64 bits; otherwise the split is refused. -/
theorem opened_splits_iff {cfg : Config A L 64} {s s' : State L 64} {origin : Origin A} {requestId : RequestId}
    {params : AutoRouteInferenceRequestParams 64} (h : Opens cfg s s' origin requestId params) :
    if params.payment.toNat * params.validatorFeeBps.toNat < 2 ^ 64 ∧
        params.payment.toNat * params.treasuryFeeBps.toNat < 2 ^ 64 then
      ∃ minerPayment validatorFee treasuryFee,
        paymentSplit params.payment params.validatorFeeBps params.treasuryFeeBps =
          .ok (minerPayment, validatorFee, treasuryFee) ∧
        validatorFee.toNat = params.payment.toNat * params.validatorFeeBps.toNat / 10000 ∧
        treasuryFee.toNat = params.payment.toNat * params.treasuryFeeBps.toNat / 10000 ∧
        minerPayment.toNat = params.payment.toNat - validatorFee.toNat - treasuryFee.toNat ∧
        minerPayment.toNat + validatorFee.toNat + treasuryFee.toNat = params.payment.toNat else
      paymentSplit params.payment params.validatorFeeBps params.treasuryFeeBps =
        .error (.module .arithmeticOverflow) := by
  split_ifs with hfits
  · obtain ⟨minerPayment, validatorFee, treasuryFee, hok, hexact⟩ :=
      paymentSplit_succeeds (by decide) h.feeSplit hfits.1 hfits.2
    exact ⟨_, _, _, hok, hexact.validator, hexact.treasury, hexact.miner, hexact.total⟩
  · unfold paymentSplit
    rw [h.feeSplit, proRata_eq (by decide), proRata_eq (by decide)]
    by_cases hvalidator : params.payment.toNat * params.validatorFeeBps.toNat < 2 ^ 64
    · rw [if_pos hvalidator, if_neg fun htreasury => hfits ⟨hvalidator, htreasury⟩]
      rfl
    · rw [if_neg hvalidator]
      rfl
end Settling

/-! ### A tenth of the supply

Account 7 opens a request that pays 2 100 000 TAO, of which the validator gets nine tenths. -/

namespace Sample

def fundedState : State Ledger 64 :=
  { State.empty ⟨fun _ _ => 0, fun _ => 4000000000000000⟩ 1 with registry := mixedRegistry }

def largeParams : AutoRouteInferenceRequestParams 64 :=
  { params with payment := 2100000000000000, validatorFeeBps := 9000, treasuryFeeBps := 1000 }
end Sample
open Sample

theorem opened_splits_iff_small :
    ∃ s', Opens config fundedState s' (.signed 7) 0 params ∧
      ∃ minerPayment validatorFee treasuryFee,
        paymentSplit (100 : BitVec 64) 500 100 = .ok (minerPayment, validatorFee, treasuryFee) ∧
        validatorFee.toNat = 5 := by
  have h : (requestInferenceAutoRoute config fundedState (.signed 7) 0 params).map
      (fun _ => ()) = .ok () := by decide +kernel
  obtain ⟨s', hok, _⟩ := map_eq_ok.mp h
  have hopens : Opens config fundedState s' (.signed 7) 0 params := .inl hok
  have hsplits := opened_splits_iff hopens
  obtain ⟨minerPayment, validatorFee, treasuryFee, hsplit, hvalidator, _⟩ := hsplits
  exact ⟨s', hopens, minerPayment, validatorFee, treasuryFee, hsplit, hvalidator⟩

/-- **An opened request cannot be settled**: the validator's share of its payment overflows, so the payment is not
    split, and a valid proof for it is refused. -/
theorem opened_not_split :
    ∃ s', Opens config fundedState s' (.signed 7) 0 largeParams ∧
      paymentSplit largeParams.payment largeParams.validatorFeeBps largeParams.treasuryFeeBps =
        .error (.module .arithmeticOverflow) ∧
      (submitProof config (fun _ _ => .ok .valid) s' (.signed 1) mixedSubmission 7 1
        (commitment 41) ⟨⟨2100000000000000, 9000, 1000⟩, commitment 43⟩).map (fun _ => ()) =
          .error (.module .arithmeticOverflow) := by
  have h : (requestInferenceAutoRoute config fundedState (.signed 7) 0 largeParams).map
      (fun s' => (submitProof config (fun _ _ => .ok .valid) s' (.signed 1) mixedSubmission 7 1
        (commitment 41) ⟨⟨2100000000000000, 9000, 1000⟩, commitment 43⟩).map fun _ => ()) =
        .ok (.error (.module .arithmeticOverflow)) := by decide +kernel
  obtain ⟨s', hok, hrefused⟩ := map_eq_ok.mp h
  exact ⟨s', .inl hok, by decide +kernel, hrefused⟩
end Qubitum
