import Stride.Stakeibc.RedemptionBook
import Stride.Stakeibc.UnbondingSplits

/-!
# Unbonding What Was Redeemed

`RedeemStake` accepts a redemption of up to the total delegations of the zone. The next
`UnbondFromHostZone` takes all queued redemptions together and balances the validators for what
remains afterwards, and `GetTargetValAmtsForHostZone` refuses to balance them for nothing. So a
zone can be redeemed as a whole, and is then never unbonded.
-/

namespace Stride.Stakeibc

open Lib Sdk Records Records.EpochUnbondingStore List

/-! ## What the queue is worth -/

/-- The total native amount of the queued records. -/
def UnbondingKeeper.queuedNativeAmount (k : UnbondingKeeper) : ℤ :=
  (k.queuedRecords.map
    fun p => k.nativeAmount p.2).sum

/-- Native tokens that the messages of a transaction undelegate. -/
def UndelegateTx.undelegated (tx : UndelegateTx) : ℤ := (tx.msgs.map fun m => m.amount.2).sum

private theorem UnbondingKeeper.nativeTokensToUnbond_refreshed (k : UnbondingKeeper)
    (r : HostZoneUnbonding) : (k.refreshed r).nativeTokensToUnbond = k.nativeAmount r := by
  unfold refreshed nativeAmount
  split
  · rfl
  · rfl

variable {submitTxs : ℕ → Bool}

/-- No amount of the book is negative. -/
structure UnbondingKeeper.NonnegAmounts (k : UnbondingKeeper) : Prop where
  rate : 0 ≤ k.hostZone.redemptionRate.i
  users : NonnegUsers k.userRedemptionRecords
  unbondings : ∀ e r, hostZoneUnbondings k.epochUnbondingRecords k.hostZone.chainId e = some r →
    0 ≤ r.nativeTokensToUnbond

namespace UnbondingKeeper

variable {k : UnbondingKeeper}

private theorem NonnegAmounts.queuedNativeAmount (h : k.NonnegAmounts) :
    0 ≤ k.queuedNativeAmount := by
  apply sum_map_nonneg
  intro p hp
  have hview := (mem_selectHostZoneUnbondings (r := p.2) (e := p.1)).mp hp
  unfold nativeAmount
  split
  · exact listedNativeAmount_nonneg h.rate h.users _
  · exact h.unbondings p.1 p.2 hview.1

private theorem getTotalUnbondAmount_refreshed (k : UnbondingKeeper) :
    getTotalUnbondAmount k.refreshedQueue = k.queuedNativeAmount := by
  unfold getTotalUnbondAmount refreshedQueue mapRecords
  rw [map_map]
  congr 1
  apply map_congr_left
  intro p _
  exact k.nativeTokensToUnbond_refreshed p.2

end UnbondingKeeper

/-! ## The submission goes through -/

private theorem submitUndelegateBatches_of_accepts (ids : List ℕ)
    (haccepts : ∀ i, submitTxs i = true) {bs : List (List MsgUndelegate × List SplitUndelegation)}
    (batch : ℕ) {z : HostZone} (hvalidators : ∀ b ∈ bs, ∀ u ∈ b.2, u.validator ∈ z.addresses) :
    ∃ plan, submitUndelegateBatches ids submitTxs bs batch z = .ok plan := by
  induction bs generalizing batch z with
  | nil => exact ⟨_, rfl⟩
  | cons b bs ih =>
    obtain ⟨hb, hbs⟩ := forall_mem_cons.mp hvalidators
    obtain ⟨z₁, hinc, heffect⟩ := foldlM_incrementValidatorDelegationChangesInProgress
      (b.2.map SplitUndelegation.validator) (z := z) (by simpa using hb)
    obtain ⟨plan, hrest⟩ := ih (batch + 1) (z := z₁)
      fun b hb u hu => heffect.addresses ▸ hbs b hb u hu
    unfold submitUndelegateBatches
    rw [if_neg (by simp [haccepts])]
    exact ⟨_, bind_eq_ok.mpr ⟨z₁, hinc, bind_eq_ok.mpr ⟨_, hrest, rfl⟩⟩⟩

/-! ## All value is delegated -/

/-- A zone with all of its value delegated: to validators with distinct addresses, none of which
    has been slashed or is being queried for a slash. -/
structure AllDelegated (z : HostZone) : Prop where
  account : z.delegationIcaAddress ≠ ""
  addresses : z.addresses.Nodup
  total : z.totalDelegations = (z.validators.map Validator.delegation).sum
  noSlashQuery : ∀ v ∈ z.validators, v.slashQueryInProgress = false
  notSlashed : ∀ v ∈ z.validators, v.sharesToTokensRate = LegacyDec.one
  weight_pos : 0 < weightSum z.validators
  weight_lt : weightSum z.validators < 2 ^ 64

namespace AllDelegated

variable {z : HostZone} (h : AllDelegated z)

include h

private theorem eligible_eq : z.eligible = z.validators := by
  apply filter_eq_self.mpr
  intro v hv
  rw [h.noSlashQuery v hv]
  rfl

private theorem totalValidDelegation_eq : totalValidDelegation z = z.totalDelegations := by
  rw [totalValidDelegation, h.eligible_eq, h.total]

private theorem buffersAbsorbed (unbond : ℤ) : BuffersAbsorbed z unbond := by
  have hbuffer (c : ValidatorUnbondCapacity) : roundingBuffer z c = 0 := by
    unfold roundingBuffer
    rw [if_neg]
    rintro ⟨-, -, v, hv, -, hlt⟩
    rw [h.notSlashed v hv] at hlt
    exact lt_irrefl _ hlt
  have hsum : ((surplusCapacities z unbond).map (roundingBuffer z)).sum = 0 := by
    apply sum_map_eq_zero
    intro c _
    exact hbuffer c
  left
  rw [hsum]
  apply sum_map_nonneg
  intro v _
  exact le_max_left _ _

variable {unbond : ℤ}

private theorem unbondingMessages_ok (hpos : 0 < unbond) (hlt : unbond < z.totalDelegations) :
    ∃ msgs us, unbondingMessages z unbond = .ok (msgs, us) ∧
      ∀ u ∈ us, u.validator ∈ z.addresses := by
  have heligible := h.eligible_eq
  obtain ⟨msgs, us, hmsgs, -, hus⟩ := (unbondingMessages_ok_iff h.addresses
    (heligible.symm ▸ h.weight_pos) (heligible.symm ▸ h.weight_lt) hpos
    (h.totalValidDelegation_eq.symm ▸ hlt)).mpr (h.buffersAbsorbed unbond)
  refine ⟨msgs, us, hmsgs, fun u hu => ?_⟩
  obtain ⟨-, v, hv, haddress, -⟩ := hus u hu
  exact haddress ▸ mem_map_of_mem hv

private theorem unbondingMessages_error (hge : z.totalDelegations ≤ unbond)
    (res : List MsgUndelegate × List SplitUndelegation) : unbondingMessages z unbond ≠ .ok res := by
  intro hok
  obtain ⟨targets, htargets, -⟩ := bind_eq_ok.mp hok
  unfold getTargetValAmtsForHostZone at htargets
  rw [h.totalValidDelegation_eq, if_pos (by omega)] at htargets
  cases htargets

end AllDelegated

/-- **Submission**: if all value is delegated and the transactions are accepted for submission,
    the queue is unbonded exactly if it is empty or worth less than the delegations. -/
theorem unbondFromHostZone_ok_iff {k : UnbondingKeeper} (hzone : AllDelegated k.hostZone)
    (hamounts : k.NonnegAmounts) (haccepts : ∀ i, submitTxs i = true) :
    (∃ k' txs, unbondFromHostZone k submitTxs = .ok (k', txs) ∧
      (txs.map UndelegateTx.undelegated).sum = k.queuedNativeAmount) ↔
    k.queuedNativeAmount = 0 ∨ k.queuedNativeAmount < k.hostZone.totalDelegations := by
  have htotal := k.getTotalUnbondAmount_refreshed
  constructor
  · rintro ⟨k', txs, hok, -⟩
    obtain ⟨z', hplan, -⟩ := unbondFromHostZone_ok hok
    obtain ⟨hzero, -⟩ | ⟨-, msgs, us, hsent⟩ := undelegationPlan_ok hplan
    · exact .inl (htotal ▸ hzero)
    · -- all that is delegated cannot be unbonded at once
      by_contra hnot
      exact hzone.unbondingMessages_error (not_lt.mp fun hlt => hnot (.inr hlt)) _
        (htotal ▸ hsent.computed)
  · intro hcond
    -- below it the splits exist, and every batch is accepted
    have hplan : ∃ plan, undelegationPlan k.hostZone k.refreshedQueue submitTxs = .ok plan := by
      unfold undelegationPlan
      rw [if_neg hzone.account, htotal]
      split
      · exact ⟨_, rfl⟩
      rename_i hzero
      have hpos : 0 < k.queuedNativeAmount :=
        lt_of_le_of_ne hamounts.queuedNativeAmount (Ne.symm hzero)
      obtain ⟨msgs, us, hmsgs, hus⟩ :=
        hzone.unbondingMessages_ok hpos (hcond.resolve_left hzero)
      have hne : msgs.isEmpty = false := by
        have hsum := sum_amounts_unbondingMessages hmsgs
        cases msgs with
        | nil =>
          rw [map_nil, sum_nil] at hsum
          omega
        | cons m ms => rfl
      obtain ⟨plan, hsubmit⟩ := submitUndelegateBatches_of_accepts
        (k.refreshedQueue.map Prod.fst) haccepts 0
        (show ∀ b ∈ (batches k.hostZone.maxMessagesPerIcaTx msgs).zip
          (batches k.hostZone.maxMessagesPerIcaTx us), ∀ u ∈ b.2,
            u.validator ∈ k.hostZone.addresses from
          fun b hb u hu => hus u (mem_of_mem_batches (of_mem_zip hb).2 hu))
      refine ⟨plan, bind_eq_ok.mpr ⟨(msgs, us), hmsgs, ?_⟩⟩
      dsimp only
      rw [hne]
      exact hsubmit
    obtain ⟨⟨z', txs⟩, hplan⟩ := hplan
    have heq := unbondFromHostZone_eq k submitTxs
    rw [hplan] at heq
    obtain ⟨k', hunbond, -⟩ := heq
    refine ⟨k', txs, hunbond, ?_⟩
    obtain ⟨hzero, -, rfl⟩ | ⟨-, msgs, us, hsent⟩ := undelegationPlan_ok hplan
    · exact (htotal ▸ hzero).symm
    · have hsum := sum_amounts_unbondingMessages hsent.computed
      rw [← hsent.msgs, map_flatten, sum_flatten, map_map, map_map] at hsum
      exact hsum.trans htotal

/-! ## Redemptions before the submission -/

namespace RedemptionKeeper

/-- The stores of the redemptions, as the unbonding of a zone reads them. -/
def unbondingKeeper (k : RedemptionKeeper) (z : HostZone) : UnbondingKeeper where
  hostZone := z
  epochUnbondingRecords := k.epochUnbondingRecords
  userRedemptionRecords := k.userRedemptionRecords
  bank := ⟨k.escrow z, k.bank.supply (stAssetDenomFromHostZoneDenom z.hostDenom)⟩

/-- Redemptions, on any zones and days. -/
def redeems (_ : RedemptionKeeper) : RedemptionEvent → Bool
  | .redeemStake _ => true
  | .startDay _ => true
  | _ => false

/-- A zone with all of its value delegated, and a book without negative amounts. -/
structure ReadyToRedeem (k : RedemptionKeeper) (z : HostZone) : Prop where
  registered : k.hostZones.get? z.chainId = some z
  delegated : AllDelegated z
  amounts : (k.unbondingKeeper z).NonnegAmounts

variable {k k' k₀ : RedemptionKeeper} {z : HostZone}

/-- A redemption adds to what a user redeemed, and leaves what has to be unbonded for the
    submission. -/
theorem ReadyToRedeem.redeemStake (h : k.ReadyToRedeem z) {msg : MsgRedeemStake}
    (hredeem : redeemStake k msg = .ok k') : k'.ReadyToRedeem z := by
  obtain ⟨zone, native, e, r, bz, bank, records, -, -, -, -, hr, hnonneg, -, hset, rfl⟩ :=
    redeemStake_ok hredeem
  have husers := h.amounts.users
  refine ⟨h.registered, h.delegated, h.amounts.rate, fun id user huser => ?_, ?_⟩
  · rw [unbondingKeeper, KeyedStore.get?_set] at huser
    split at huser
    · cases huser
      cases hstored : k.userRedemptionRecords.get?
          (userRedemptionRecordKeyFormatter msg.hostZone e msg.receiver) with
      | none => exact hnonneg
      | some user => exact add_nonneg (husers _ user hstored) hnonneg
    · exact husers id user huser
  · intro e' r' hr'
    -- the amount to unbond is set by the refresh, not by a redemption
    have hid : ∀ ids, (redeemedUnbonding r msg native ids).hostZoneId = msg.hostZone :=
      fun _ => hostZoneId_of_hostZoneUnbondings (r := r) hr
    rw [unbondingKeeper, view_setHostZoneUnbondingRecord hr (hid _) hset] at hr'
    split at hr'
    · rename_i hsame
      cases hr'
      exact h.amounts.unbondings e r (hsame.1 ▸ hr)
    · exact h.amounts.unbondings e' r' hr'

private theorem ReadyToRedeem.startDay (h : k.ReadyToRedeem z) (e : ℕ) :
    (createEpochUnbondingRecord { k with dayEpoch := some e } e).ReadyToRedeem z := by
  refine ⟨h.registered, h.delegated, h.amounts.rate, h.amounts.users, fun e' r hr => ?_⟩
  rcases view_createEpochUnbondingRecord hr with hold | ⟨-, zone, rfl⟩
  · exact h.amounts.unbondings e' r hold
  · exact le_rfl

/-- **Step**: redemptions leave the zone as it is. -/
theorem ReadyToRedeem.step (h : k.ReadyToRedeem z) {l : RedemptionEvent} (hl : k.redeems l = true)
    (hstep : k.step l = some k') : k'.ReadyToRedeem z := by
  cases l with
  | redeemStake msg =>
    simp only [RedemptionKeeper.step] at hstep
    split at hstep
    · cases hstep
    exact h.redeemStake (toOption_eq_some.mp hstep)
  | startDay e =>
    simp only [RedemptionKeeper.step] at hstep
    split at hstep
    · cases hstep
      exact h.startDay e
    · cases hstep
  | _ => cases hl

/-- **Redemptions are unbonded**: from a state with all value delegated, whatever is redeemed on
    any number of days, the next submission goes through and undelegates what the queued records
    are worth, exactly if there is nothing to unbond or it is less than the delegations. -/
theorem redemptions_unbond_iff (hstart : k₀.ReadyToRedeem z)
    (hrun : Reaches step (redeems · · = true) k₀ k) {submitTxs : ℕ → Bool}
    (haccepts : ∀ i, submitTxs i = true) :
    (∃ k' txs, unbondFromHostZone (k.unbondingKeeper z) submitTxs = .ok (k', txs) ∧
      (txs.map UndelegateTx.undelegated).sum = (k.unbondingKeeper z).queuedNativeAmount) ↔
    (k.unbondingKeeper z).queuedNativeAmount = 0 ∨
      (k.unbondingKeeper z).queuedNativeAmount < z.totalDelegations := by
  have hready : k.ReadyToRedeem z :=
    hrun.invariant (I := fun k => k.ReadyToRedeem z) hstart fun _ _ _ h hl hstep => h.step hl hstep
  exact unbondFromHostZone_ok_iff hready.delegated hready.amounts haccepts

/-! ## The whole supply -/

/-- 400 stTokens for 400 delegated tokens, all of them with one holder. -/
def oneHolder : RedemptionKeeper where
  params := ⟨90, 150⟩
  hostZones := KeyedStore.empty.set twoValidatorZone
  settings _ := plainSettings "pb" "deposit"
  dayEpoch := none
  epochUnbondingRecords := .empty
  userRedemptionRecords := .empty
  bank := ⟨fun address _ => if address = "alice" then 400 else 0, fun _ => 400⟩

private theorem oneHolder_readyToRedeem : oneHolder.ReadyToRedeem twoValidatorZone where
  registered := KeyedStore.get?_set_self _ _
  delegated := ⟨by decide, by decide, by decide, by decide, by decide, by decide, by decide⟩
  amounts := ⟨by decide, nonnegUsers_empty, fun e r hr => by cases hr⟩

def redeemedBy (amount : ℤ) : List RedemptionEvent :=
  [.startDay 1, .redeemStake ⟨"alice", amount, "host", "pb1qqqqqqqqqqqqqqqqqqqqqqqqqqqqqqqq6dt62p"⟩]

/-- **Stuck redemption**: the rate is what the delegations can pay, and the redemption of the
    whole supply is accepted, but it cannot be unbonded. -/
theorem whole_supply_not_unbonded : oneHolder.ReadyToRedeem twoValidatorZone ∧
    twoValidatorZone.redemptionRate.i * oneHolder.bank.supply "stuatom" ≤
      twoValidatorZone.totalDelegations * precision ∧
    ∃ k, Reaches step (redeems · · = true) oneHolder k ∧
      k.escrow twoValidatorZone = oneHolder.bank.supply "stuatom" ∧
      (k.unbondingKeeper twoValidatorZone).queuedNativeAmount = twoValidatorZone.totalDelegations ∧
      ∀ res, unbondFromHostZone (k.unbondingKeeper twoValidatorZone) (fun _ => true) ≠ .ok res := by
  refine ⟨oneHolder_readyToRedeem, by decide, ?_⟩
  have hrun : ((runAllowed step (redeems · · = true) oneHolder (redeemedBy 400)).any fun k =>
      k.escrow twoValidatorZone = oneHolder.bank.supply "stuatom" ∧
      (k.unbondingKeeper twoValidatorZone).queuedNativeAmount =
        twoValidatorZone.totalDelegations ∧
      (unbondFromHostZone (k.unbondingKeeper twoValidatorZone) fun _ => true).toOption.isNone) =
      true := by
    decide +kernel
  obtain ⟨k, hk, htest⟩ := (Option.any_eq_true _ _).mp hrun
  obtain ⟨hescrow, hqueued, hnone⟩ := of_decide_eq_true htest
  refine ⟨k, Reaches.of_runAllowed hk, hescrow, hqueued, fun res hok => ?_⟩
  rw [hok] at hnone
  cases hnone

/-- A quarter of the supply is unbonded. -/
theorem redemptions_unbond_iff_quarter : ∃ k, Reaches step (redeems · · = true) oneHolder k ∧
    (k.unbondingKeeper twoValidatorZone).queuedNativeAmount = 100 ∧
    ∃ k' txs, unbondFromHostZone (k.unbondingKeeper twoValidatorZone) (fun _ => true) =
      .ok (k', txs) ∧ (txs.map UndelegateTx.undelegated).sum = 100 := by
  have hrun : ((runAllowed step (redeems · · = true) oneHolder (redeemedBy 100)).any fun k =>
      (k.unbondingKeeper twoValidatorZone).queuedNativeAmount = 100) = true := by
    decide +kernel
  obtain ⟨k, hk, htest⟩ := (Option.any_eq_true _ _).mp hrun
  have hreaches : Reaches step (redeems · · = true) oneHolder k := Reaches.of_runAllowed hk
  have hqueued : (k.unbondingKeeper twoValidatorZone).queuedNativeAmount = 100 :=
    of_decide_eq_true htest
  have hunbond := (redemptions_unbond_iff oneHolder_readyToRedeem hreaches fun _ => rfl).mpr
    (.inr (by rw [hqueued]; decide))
  rw [hqueued] at hunbond
  exact ⟨k, hreaches, hqueued, hunbond⟩

end RedemptionKeeper

end Stride.Stakeibc
