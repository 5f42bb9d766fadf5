import Stride.Stakedym.RedemptionSums

/-!
# Funds for the Claims

An unbonding record becomes claimable when an operator confirms that its tokens were swept to
the claim account, and `DistributeClaims` then pays all claimable records or none. The
confirmation compares the balance of the claim account with its own record only, which is
necessary for the sweep to have happened. It is not enough: the same tokens can be there for
two confirmations, and then the payment of both records fails.

When every confirmation finds the tokens of all claimable records and of its own in the claim
account, the account can always pay, and a distribution never fails for lack of funds.
-/

namespace Stride.Stakedym

open Lib Sdk List Keeper

/-! ## Distribution -/

namespace Keeper

variable {accounts : Accounts} {k k' : Keeper} {denom claimAccount : String}

/-- The redeemer of a record can receive coins. -/
def Receives (accounts : Accounts) (rr : RedemptionRecord) : Prop :=
  ∃ user, accounts.accAddressFromBech32 rr.redeemer = .ok user ∧ accounts.blockedAddr user = false

/-- The zone is not halted, and every redeemer of a claimable record can receive coins. -/
structure Payable (accounts : Accounts) (k : Keeper) : Prop where
  unhalted : k.hostZone.halted = false
  claim : ∃ a, accounts.accAddressFromBech32 k.hostZone.claimAddress = .ok a
  redeemers : ∀ r ∈ k.getAllUnbondingRecordsByStatus .claimable,
    ∀ rr ∈ k.getRedemptionRecordsFromUnbondingId r.id, Receives accounts rr

variable {paid : List Payment} {id : ℕ}

private theorem distributeClaim_succeeds {rr : RedemptionRecord} (hreceives : Receives accounts rr)
    (hnonneg : 0 ≤ rr.nativeAmount) (hfunds : rr.nativeAmount ≤ k.bank.balance claimAccount denom) :
    ∃ k' paid', distributeClaim accounts denom claimAccount id (k, paid) rr = .ok (k', paid') ∧
      k.bank.balance claimAccount denom - rr.nativeAmount ≤
        k'.bank.balance claimAccount denom := by
  obtain ⟨user, huser, hblocked⟩ := hreceives
  obtain ⟨bank, hsend⟩ : ∃ bank, k.bank.sendCoins claimAccount user (denom, rr.nativeAmount) =
      .ok bank := by
    unfold Bank.sendCoins
    rw [if_neg (not_lt.mpr hfunds)]
    exact ⟨_, rfl⟩
  have hcoin : newCoin denom rr.nativeAmount = .ok (denom, rr.nativeAmount) :=
    newCoin_eq_ok.mpr ⟨hnonneg, rfl⟩
  have hsafe : k.bank.safeSendCoins accounts.blockedAddr true claimAccount user
      (denom, rr.nativeAmount) = .ok bank :=
    bind_eq_ok.mpr ⟨(), require_eq_ok.mpr (by simp [hblocked]), hsend⟩
  refine ⟨_, _, bind_eq_ok.mpr ⟨user, wrapError_eq_ok.mpr huser, bind_eq_ok.mpr ⟨_, hcoin,
    bind_eq_ok.mpr ⟨bank, wrapError_eq_ok.mpr hsafe, rfl⟩⟩⟩, ?_⟩
  · -- what the claim account pays to itself stays
    show _ ≤ bank.balance claimAccount denom
    rw [Bank.balance_sendCoins hsend]
    split <;> omega

private theorem foldlM_distributeClaim_succeeds {l : List RedemptionRecord}
    (hreceives : ∀ rr ∈ l, Receives accounts rr) (hnonneg : ∀ rr ∈ l, 0 ≤ rr.nativeAmount)
    (hfunds : (l.map (·.nativeAmount)).sum ≤ k.bank.balance claimAccount denom) :
    ∃ k' paid', l.foldlM (distributeClaim accounts denom claimAccount id) (k, paid) =
        .ok (k', paid') ∧
      k.bank.balance claimAccount denom - (l.map (·.nativeAmount)).sum ≤
        k'.bank.balance claimAccount denom := by
  induction l generalizing k paid with
  | nil => exact ⟨k, paid, rfl, by simp⟩
  | cons rr l ih =>
    obtain ⟨hone, hrest⟩ := forall_mem_cons.mp hreceives
    obtain ⟨hamount, hamounts⟩ := forall_mem_cons.mp hnonneg
    rw [map_cons, sum_cons] at hfunds ⊢
    have hpositive : 0 ≤ (l.map (·.nativeAmount)).sum := sum_map_nonneg hamounts
    have hfirst : rr.nativeAmount ≤ k.bank.balance claimAccount denom := by omega
    obtain ⟨k₁, paid₁, hstep, hleft⟩ := distributeClaim_succeeds hone hamount
      hfirst
    have hothers : (l.map (·.nativeAmount)).sum ≤ k₁.bank.balance claimAccount denom := by omega
    obtain ⟨k₂, paid₂, hloop, hfinal⟩ := ih hrest hamounts hothers
    refine ⟨k₂, paid₂, ?_, by omega⟩
    rw [foldlM_cons, hstep]
    exact hloop

/-- **Payout loop**: with enough coins every record is paid. -/
theorem foldlM_distributeUnbondingRecord_succeeds {records l : List UnbondingRecord}
    (hdone : PaidRecords accounts denom claimAccount k k' records paid)
    (hnd : ((records ++ l).map (·.id)).Nodup)
    (hreceives : ∀ r ∈ l, ∀ rr ∈ k.getRedemptionRecordsFromUnbondingId r.id, Receives accounts rr)
    (hnonneg : ∀ r ∈ l, ∀ rr ∈ k.getRedemptionRecordsFromUnbondingId r.id, 0 ≤ rr.nativeAmount)
    (hfunds : ((l.flatMap fun r => k.getRedemptionRecordsFromUnbondingId r.id).map
      (·.nativeAmount)).sum ≤ k'.bank.balance claimAccount denom) :
    ∃ result, l.foldlM (distributeUnbondingRecord accounts denom claimAccount) (k', paid) =
      .ok result := by
  induction l generalizing k' records paid with
  | nil => exact ⟨_, rfl⟩
  | cons r l ih =>
    obtain ⟨hone, hrest⟩ := forall_mem_cons.mp hreceives
    obtain ⟨hamounts, hlater⟩ := forall_mem_cons.mp hnonneg
    have hr : r.id ∉ records.map (·.id) := by
      rw [map_append, nodup_append] at hnd
      intro hmem
      exact hnd.2.2 _ hmem _ mem_cons_self rfl
    rw [flatMap_cons, map_append, sum_append] at hfunds
    have hpositive : 0 ≤ ((l.flatMap fun r => k.getRedemptionRecordsFromUnbondingId r.id).map
        (·.nativeAmount)).sum := by
      apply sum_map_nonneg
      intro rr hrr
      obtain ⟨r', hr', hrr'⟩ := mem_flatMap.mp hrr
      exact hlater r' hr' rr hrr'
    -- the payments before have not touched the redemption records of this one
    have hsame := hdone.redemptions_of_notMem hr
    obtain ⟨k₁, paid₁, hinner, hleft⟩ := foldlM_distributeClaim_succeeds hone hamounts
      (show _ ≤ k'.bank.balance claimAccount denom by omega)
    have hstep : distributeUnbondingRecord accounts denom claimAccount (k', paid) r =
        .ok (k₁.archiveUnbondingRecord { r with status := .claimed }, paid₁) := by
      rw [← hsame] at hinner
      exact bind_eq_ok.mpr ⟨_, wrapError_eq_ok.mpr hinner, rfl⟩
    rw [append_cons] at hnd
    obtain ⟨result, hloop⟩ := ih (hdone.step hr hstep) hnd hrest hlater
      (show _ ≤ k₁.bank.balance claimAccount denom by omega)
    refine ⟨result, ?_⟩
    rw [foldlM_cons, hstep]
    exact hloop

/-- **With enough funds a distribution goes through**. -/
theorem distributeClaims_succeeds {lastEpoch : ℕ} {payments : List Payment}
    (hbook : BookInv k lastEpoch payments) (hpayable : Payable accounts k)
    (hpositive : ∀ id r, k.unbondingRecords.get? id = some r → r.status = .claimable →
      0 < r.nativeAmount)
    (hfunds : ∀ a, accounts.accAddressFromBech32 k.hostZone.claimAddress = .ok a →
      claimableTokens k.unbondingRecords ≤
        k.bank.balance a k.hostZone.nativeTokenIbcDenom) :
    ∃ k' paid, distributeClaims accounts k = .ok (k', paid) := by
  obtain ⟨claimAccount, hclaim⟩ := hpayable.claim
  have hstored : ∀ r ∈ k.getAllUnbondingRecordsByStatus .claimable,
      k.unbondingRecords.get? r.id = some r :=
    fun r hr => (mem_getAllUnbondingRecordsByStatus.mp hr).1
  -- each record is the sum of its redemptions
  have hsum := hbook.sum_redemptions hstored
  have hnonneg : ∀ r ∈ k.getAllUnbondingRecordsByStatus .claimable,
      ∀ rr ∈ k.getRedemptionRecordsFromUnbondingId r.id, 0 ≤ rr.nativeAmount := by
    intro r hr
    obtain ⟨hget, hstatus⟩ := mem_getAllUnbondingRecordsByStatus.mp hr
    exact hbook.nativeAmount_nonneg hget (by simp [hstatus]) (hpositive _ r hget hstatus)
  have hstart : PaidRecords accounts k.hostZone.nativeTokenIbcDenom claimAccount k k [] [] :=
    .nil k
  obtain ⟨⟨k', paid⟩, hloop⟩ := foldlM_distributeUnbondingRecord_succeeds hstart
    (nodup_ids_getAllUnbondingRecordsByStatus k .claimable) hpayable.redeemers hnonneg
    (hsum.trans_le (hfunds claimAccount hclaim))
  have hzone : k.getUnhaltedHostZone = .ok k.hostZone := by
    unfold getUnhaltedHostZone
    rw [hpayable.unhalted]
    rfl
  exact ⟨k', paid, bind_eq_ok.mpr ⟨k.hostZone, hzone,
    bind_eq_ok.mpr ⟨claimAccount, wrapError_eq_ok.mpr hclaim, hloop⟩⟩⟩

end Keeper

/-! ## Runs -/

namespace System

variable {accounts : Accounts} {s s' : System}

/-- A confirmation finds the tokens of all claimable records and of its own in the claim account,
    and nobody else takes native tokens from it. -/
def SweepsArrived (accounts : Accounts) (s : System) (e : Event) : Prop :=
  ∀ a, accounts.accAddressFromBech32 s.keeper.hostZone.claimAddress = .ok a →
    ¬ e.Takes accounts s a s.keeper.hostZone.nativeTokenIbcDenom ∧
      ∀ operator recordId txHash r, e = .confirmUnbondedTokenSweep operator recordId txHash →
        s.keeper.unbondingRecords.get? recordId = some r →
        claimableTokens s.keeper.unbondingRecords + r.nativeAmount ≤
          s.keeper.bank.balance a s.keeper.hostZone.nativeTokenIbcDenom

/-- The record whose sweep is confirmed. -/
def sweptRecord : Event → Option ℕ
  | .confirmUnbondedTokenSweep _ recordId _ => some recordId
  | _ => none

instance (accounts : Accounts) (s : System) (a d : String) (e : Event) :
    Decidable (e.Takes accounts s a d) := by
  apply @Event.casesOn _ e <;> intros <;> dsimp only [Event.Takes] <;> infer_instance

instance (accounts : Accounts) (s : System) (e : Event) : Decidable (SweepsArrived accounts s e) :=
  decidable_of_iff (∀ a, accounts.accAddressFromBech32 s.keeper.hostZone.claimAddress = .ok a →
    ¬ e.Takes accounts s a s.keeper.hostZone.nativeTokenIbcDenom ∧
      ∀ id, sweptRecord e = some id → ∀ r, s.keeper.unbondingRecords.get? id = some r →
        claimableTokens s.keeper.unbondingRecords + r.nativeAmount ≤
          s.keeper.bank.balance a s.keeper.hostZone.nativeTokenIbcDenom)
    (by cases e <;> grind [SweepsArrived, sweptRecord])

/-- The books are right, and the claim account can pay what is claimable. -/
structure FundedInv (accounts : Accounts) (s : System) : Prop where
  book : BookInv s.keeper s.lastEpoch s.payments
  funded : ∀ a, accounts.accAddressFromBech32 s.keeper.hostZone.claimAddress = .ok a →
    claimableTokens s.keeper.unbondingRecords ≤
      s.keeper.bank.balance a s.keeper.hostZone.nativeTokenIbcDenom
  positive : ∀ id r, s.keeper.unbondingRecords.get? id = some r → r.status = .claimable →
    0 < r.nativeAmount

variable {e : Event}

/-- A record is claimable if it was before, or if its sweep was confirmed, for more than nothing. -/
theorem positive_of_effect (he : Effect accounts s e s')
    (h : ∀ id r, s.keeper.unbondingRecords.get? id = some r → r.status = .claimable →
      0 < r.nativeAmount) {id : ℕ} {r : UnbondingRecord}
    (hr : s'.keeper.unbondingRecords.get? id = some r) (hclaimable : r.status = .claimable) :
    0 < r.nativeAmount := by
  -- an event that writes a single record
  have hset {r' : UnbondingRecord} (hr' : r'.status = .claimable → 0 < r'.nativeAmount)
      (hset : (s.keeper.unbondingRecords.set r').get? id = some r) : 0 < r.nativeAmount := by
    rw [KeyedStore.get?_set] at hset
    split at hset
    · cases hset
      exact hr' hclaimable
    · exact h id r hset hclaimable
  cases he with
  | quiet hq =>
    rw [hq.quietStep.unbondings.records] at hr
    exact h id r hr hclaimable
  | redeemed hredeemed =>
    rw [hredeemed.keeper] at hr
    have hstatus := (accumulating_iff.mp hredeemed.accumulating).2.1
    exact hset (by simp [hstatus]) hr
  | prepared _ hp =>
    rcases hp.of_get? hr with ⟨-, rfl⟩ | ⟨-, rfl⟩ | ⟨-, -, hold⟩
    · cases hclaimable
    · cases hclaimable
    · exact h id r hold hclaimable
  | undelegated hc =>
    obtain ⟨txHash, time, hkeeper⟩ := hc.keeper
    rw [hkeeper] at hr
    exact hset (by simp) hr
  | finished now =>
    dsimp only at hr
    rw [markFinishedUnbondings_eq, KeyedStore.get?_mapValues] at hr
    obtain ⟨old, hold, rfl⟩ := Option.map_eq_some_iff.mp hr
    rw [(amounts_finishedRecord now old).2]
    rcases status_finishedRecord now old with hsame | ⟨-, hunbonded⟩
    · exact h id old hold (hsame.symm.trans hclaimable)
    · cases hunbonded.symm.trans hclaimable
  | swept hc =>
    obtain ⟨txHash, hkeeper⟩ := hc.keeper
    rw [hkeeper] at hr
    refine hset ?_ hr
    exact fun _ => hc.positive
  | paid _ hp => exact h id r (hp.of_get? hr).2 hclaimable

namespace FundedInv

private theorem of_emptyStart (h : EmptyStart s) : FundedInv accounts s := by
  obtain ⟨r, hvalues, hstatus, -⟩ := h.record
  refine ⟨bookInv_of_emptyStart h, fun a _ => ?_, fun id r' hr' hclaimable => ?_⟩
  · have hzero : claimableTokens s.keeper.unbondingRecords = 0 := by
      unfold claimableTokens recordTotal
      rw [hvalues]
      simp [hstatus]
    rw [hzero]
    exact h.balances a _
  · have hmem := KeyedStore.mem_values_iff.mpr (KeyedStore.key_of_get? hr' ▸ hr')
    rw [hvalues, mem_singleton] at hmem
    rw [hmem, hstatus] at hclaimable
    cases hclaimable

/-- The part of the invariant that a step has to show, in the terms of the state before. -/
theorem of_parts (hbook : BookInv s'.keeper s'.lastEpoch s'.payments)
    (hpositive : ∀ id r, s'.keeper.unbondingRecords.get? id = some r → r.status = .claimable →
      0 < r.nativeAmount)
    (hsetup : s'.keeper.hostZone.setup = s.keeper.hostZone.setup)
    (hfunded : ∀ a, accounts.accAddressFromBech32 s.keeper.hostZone.claimAddress = .ok a →
      claimableTokens s'.keeper.unbondingRecords ≤
        s'.keeper.bank.balance a s.keeper.hostZone.nativeTokenIbcDenom) :
    FundedInv accounts s' where
  book := hbook
  positive := hpositive
  funded := by
    have hclaim : s'.keeper.hostZone.claimAddress = s.keeper.hostZone.claimAddress :=
      congrArg ZoneSetup.claimAddress hsetup
    have hdenom : s'.keeper.hostZone.nativeTokenIbcDenom =
        s.keeper.hostZone.nativeTokenIbcDenom := congrArg ZoneSetup.nativeTokenIbcDenom hsetup
    rw [hclaim, hdenom]
    exact hfunded

private theorem claimableTokens_set {records : UnbondingRecordStore} {r r' : UnbondingRecord}
    (hr : records.get? r'.id = some r) (hold : r.status ≠ .claimable)
    (hnew : r'.status ≠ .claimable) :
    claimableTokens (records.set r') = claimableTokens records := by
  unfold claimableTokens
  rw [recordTotal_set_of_get? _ _ hr, partOf, if_neg hold, partOf,
    if_neg hnew, sub_zero, add_zero]

/-- **One event** keeps the claims funded. -/
theorem step (h : FundedInv accounts s) (hok : SweepsArrived accounts s e)
    (hstep : step accounts s e = some s') : FundedInv accounts s' := by
  have heffect := effect_of_step hstep
  have hbook := h.book.effect heffect
  have hpositive (id : ℕ) (r : UnbondingRecord)
      (hr : s'.keeper.unbondingRecords.get? id = some r) :=
    positive_of_effect heffect h.positive hr
  have hdenom := s.keeper.hostZone.stDenom_ne_ibcDenom
  cases heffect with
  | quiet hquiet =>
    have hq := hquiet.quietStep
    refine of_parts hbook hpositive hq.unbondings.setup ?_
    intro a ha
    rw [hq.unbondings.records]
    exact (h.funded a ha).trans (hq.coins a _ (hok a ha).1)
  | redeemed hr =>
    have hkeeper := hr.keeper
    obtain ⟨hstored, hstatus, -⟩ := accumulating_iff.mp hr.accumulating
    refine of_parts hbook hpositive (congrArg (fun k => k.hostZone.setup) hkeeper) ?_
    intro a ha
    -- stTokens move, and the accumulating record is not claimable
    rw [Bank.balance_sendCoins hr.sent, if_neg (fun heq => hdenom heq.2.symm),
      if_neg (fun heq => hdenom heq.2.symm), sub_zero, add_zero]
    refine le_trans (le_of_eq ?_) (h.funded a ha)
    rw [hkeeper]
    exact claimableTokens_set hstored (by simp [hstatus]) (by simp [hstatus])
  | prepared hlt hp =>
    have hframe := hp.frame
    refine of_parts hbook hpositive (congrArg (fun k => k.hostZone.setup) hframe) ?_
    intro a ha
    rw [hp.claimableTokens_eq]
    refine (h.funded a ha).trans_eq ?_
    rw [hframe]
  | @undelegated _ _ recordId _ _ _ record hc =>
    obtain ⟨txHash, time, hkeeper⟩ := hc.keeper
    have hid : record.id = recordId := KeyedStore.key_of_get? hc.stored
    refine of_parts hbook hpositive (congrArg (fun k => k.hostZone.setup) hkeeper) ?_
    intro a ha
    rw [hc.balance, if_neg (fun heq => hdenom heq.2.symm), sub_zero]
    refine le_trans (le_of_eq ?_) (h.funded a ha)
    rw [hkeeper]
    exact claimableTokens_set (r := record) (hid ▸ hc.stored) (by simp [hc.queued]) (by simp)
  | finished now =>
    have hkeeper := markFinishedUnbondings_eq s.keeper now
    refine of_parts hbook hpositive (congrArg (fun k => k.hostZone.setup) hkeeper) ?_
    intro a ha
    rw [claimableTokens_finished]
    refine (h.funded a ha).trans_eq ?_
    rw [hkeeper]
  | @swept _ _ recordId _ _ record hc =>
    obtain ⟨txHash, hkeeper⟩ := hc.keeper
    have hid : record.id = recordId := KeyedStore.key_of_get? hc.stored
    refine of_parts hbook hpositive (congrArg (fun k => k.hostZone.setup) hkeeper) ?_
    intro a ha
    -- the record joins the claimable ones, and its tokens are there
    have hcovered := (hok a ha).2 _ recordId _ record rfl hc.stored
    refine le_trans (le_of_eq ?_) (hcovered.trans_eq (by rw [hkeeper]))
    rw [hkeeper]
    unfold claimableTokens
    rw [recordTotal_set_of_get? _ _ (r := record) (hid ▸ hc.stored), partOf,
      if_neg (by simp [hc.unbonded]), partOf, if_pos rfl, sub_zero]
  | @paid k' claimAccount paid hclaim hp =>
    have hkeeper := hp.keeper
    refine of_parts hbook hpositive (congrArg (fun k => k.hostZone.setup) hkeeper) ?_
    intro a ha
    rw [hclaim] at ha
    cases ha
    -- the payments add up to what was claimable
    have hpaid : (paid.map (·.amount)).sum =
        claimableTokens s.keeper.unbondingRecords := by
      rw [sum_amounts hp.pays]
      exact h.book.sum_redemptions fun r hr =>
        (mem_getAllUnbondingRecordsByStatus.mp hr).1
    have hreceived := receivedBy_nonneg hp.pays claimAccount
    have hfunded := h.funded claimAccount hclaim
    rw [hp.claimableTokens_eq_zero, hp.out claimAccount, if_pos ⟨rfl, rfl⟩, hpaid]
    omega

private theorem of_reaches {s₀ : System}
    (hrun : Reaches (System.step accounts) (SweepsArrived accounts) s₀ s)
    (h₀ : EmptyStart s₀) : FundedInv accounts s :=
  hrun.invariant (of_emptyStart h₀) fun _ _ _ h hok hstep => h.step hok hstep

end FundedInv

/-! ## Main result -/

/-- **Claims are always funded**, in every run in which the confirmed tokens have arrived: the
    claim account covers all claimable records, and a distribution goes through unless the zone
    is halted or a redeemer cannot receive coins. -/
theorem claims_always_funded {s₀ : System} (h₀ : EmptyStart s₀)
    (hrun : Reaches (step accounts) (SweepsArrived accounts) s₀ s) :
    (∀ a, accounts.accAddressFromBech32 s.keeper.hostZone.claimAddress = .ok a →
        claimableTokens s.keeper.unbondingRecords ≤
          s.keeper.bank.balance a s.keeper.hostZone.nativeTokenIbcDenom) ∧
      (Payable accounts s.keeper →
        ∃ k' paid, s.keeper.distributeClaims accounts = .ok (k', paid)) := by
  have hinv := FundedInv.of_reaches hrun h₀
  exact ⟨hinv.funded, fun hpayable =>
    distributeClaims_succeeds hinv.book hpayable hinv.positive hinv.funded⟩

/-- Two redemptions of 100000 in two unbonding records, both of them unbonded. -/
def twoUnbonded : List Event :=
  [.liquidStake userAddress 300000, .prepareDelegation 2 (some 7),
    .transferAck (depositTransfer defaultHostZone 7 (dymensionNativeTokenIBCDenom, 300000))
      (.ok true),
    .confirmDelegation operatorAddressOnStride 2 "delegated",
    .redeemStake userAddress 100000, .prepareUndelegation 4,
    .redeemStake userAddress 100000, .prepareUndelegation 8,
    .confirmUndelegation operatorAddressOnStride 1 "first" 0,
    .confirmUndelegation operatorAddressOnStride 4 "second" 0,
    .markFinishedUnbondings (21 * 24 * 60 * 60 + 1)]

/-- The tokens of one record arrive, and both records are confirmed. -/
def oneSweep : List Event :=
  [.arrive claimAddress (dymensionNativeTokenIBCDenom, 100000),
    .confirmUnbondedTokenSweep operatorAddressOnStride 1 "swept",
    .confirmUnbondedTokenSweep operatorAddressOnStride 4 "swept"]

/-- **Two confirmations of the same tokens**: 200000 are claimable, the claim account holds
    100000, and the distribution fails for both records, for lack of funds. -/
theorem one_sweep_confirms_two_records :
    EmptyStart (genesis (userBank 300000) 1) ∧
      (runSteps (step knownAccounts) (genesis (userBank 300000) 1)
        (twoUnbonded ++ oneSweep)).map (fun s =>
          (claimableTokens s.keeper.unbondingRecords,
            s.keeper.bank.balance claimAddress s.keeper.hostZone.nativeTokenIbcDenom,
            match s.keeper.distributeClaims knownAccounts with
            | .ok _ => none
            | .error e => some e.code)) =
        some (200000, 100000, some .errInsufficientFunds) := by
  refine ⟨emptyStart_genesis (by decide) le_rfl, ?_⟩
  decide +kernel

/-- The tokens of both records arrive before they are confirmed. -/
def twoSweeps : List Event :=
  .arrive claimAddress (dymensionNativeTokenIBCDenom, 100000) :: oneSweep

theorem claims_always_funded_twoSweeps :
    ∃ s, runAllowed (step knownAccounts) (SweepsArrived knownAccounts)
        (genesis (userBank 300000) 1) (twoUnbonded ++ twoSweeps) = some s ∧
      claimableTokens s.keeper.unbondingRecords = 200000 ∧
      200000 ≤ s.keeper.bank.balance claimAddress s.keeper.hostZone.nativeTokenIbcDenom := by
  have hrun : Reaches (step knownAccounts) (SweepsArrived knownAccounts)
      (genesis (userBank 300000) 1) _ := .of_get (l := twoUnbonded ++ twoSweeps) (by decide +kernel)
  have hfunded := (claims_always_funded (emptyStart_genesis (by decide) le_rfl) hrun).1
    claimAddress (by decide +kernel)
  exact exists_run_end (by decide +kernel)
    ⟨by decide +kernel, le_trans (by decide +kernel) hfunded⟩

end System

end Stride.Stakedym
