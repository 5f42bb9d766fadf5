import Stride.Stakeibc.IcaBatch
import Stride.Stakeibc.RedemptionRate
import Stride.Stakeibc.UndelegationBurn
import Mathlib.Data.Rat.Defs

/-!
# Dilution by an Unbonding

An unbonding takes native tokens out of a zone and burns the stTokens they were redeemed for. The
refresh rounds the native amount of every user down, and once every batch is acknowledged the
burned stTokens are those of the records exactly, however the batches cut the total.
-/

namespace Stride.Stakeibc

open Lib Sdk Records Records.EpochUnbondingStore List UnbondingKeeper

/-- The success callbacks of some batches, in turn, with the responses of the host. -/
def succeedAll (k : UnbondingKeeper) (acked : List (UndelegateCallback × List (Option ℤ))) :
    Result UnbondingKeeper :=
  acked.foldlM (fun k a => undelegateCallback k a.1 ⟨.success, a.2⟩) k

def batchAmount (a : UndelegateCallback × List (Option ℤ)) : ℤ :=
  calculateTotalUnbondedInBatch a.1.splitUndelegations

variable {recs out : EpochRecords} {r r' : HostZoneUnbonding}
  {acked : List (UndelegateCallback × List (Option ℤ))} {tally tally' : UndelegationTally}
  {users : UserRedemptionStore} {k k₁ k' : UnbondingKeeper}
  {submitTxs : ℕ → Bool} {txs : List UndelegateTx}

/-! ## What the batches undelegate -/

/-- Batches that all succeed take their amounts off the book. -/
theorem succeedAll_bookEffect (hrun : succeedAll k acked = .ok k') :
    ∃ d c, BookEffect k.hostZone k'.hostZone d (-(acked.map batchAmount).sum) c := by
  induction acked generalizing k with
  | nil =>
    cases hrun
    exact ⟨0, 0, by simpa using .refl _⟩
  | cons a acked ih =>
    obtain ⟨k₁, hstep, hrest⟩ := bind_eq_ok.mp hrun
    obtain ⟨d, c, hrest⟩ := ih hrest
    obtain ⟨_, hdec, hbalances⟩ := bind_eq_ok.mp (undelegateCallback_zone hstep)
    have hmarked := foldlM_decrementValidatorDelegationChangesInProgress hdec
    have hbook := BookEffect.foldlM (c := fun _ => 0)
      (fun _ _ _ _ hs => addDelegationToValidator_ok hs) hbalances
    have hamount : (a.1.splitUndelegations.map fun u => -u.nativeTokenAmount).sum =
        -batchAmount a := by
      rw [batchAmount, calculateTotalUnbondedInBatch, sum_neg, map_map]
      rfl
    have heffect := (hmarked.trans hbook).trans hrest
    rw [hamount, zero_add (-batchAmount a), ← neg_add] at heffect
    exact ⟨_, _, heffect⟩

/-! ## Batches that pay everything -/

/-- Nothing is left of a completed record. -/
def Settled (r : HostZoneUnbonding) : Prop :=
  CascadeReady r ∧ (r.status = .exitTransferQueue → r.stTokensToBurn = 0)

/-- A batch visits every record, also those it has nothing left for. -/
theorem CascadeStep.settled (h : CascadeStep r r') (hr : Settled r)
    (hnonneg : 0 ≤ r'.nativeTokensToUnbond) :
    Settled r' ∧ (r'.nativeTokensToUnbond = 0 → r'.stTokensToBurn = 0) := by
  rcases h with ⟨hexit, rfl⟩ | ⟨hexit, native, st, time, rfl, hlast⟩
  · exact ⟨hr, fun _ => hr.2 hexit⟩
  · simp only [Settled, CascadeReady, afterUndelegation] at hnonneg ⊢
    by_cases hzero : r.nativeTokensToUnbond - native = 0
    · simp [hzero, hlast hzero]
    · simp [hzero, hexit, sub_nonneg.mp hnonneg]

/-- The cascade burns what it takes off the records. -/
theorem cascade_st {time : ℕ}
    (h : mapAccum (recordStep (undelegationBody time)) tally recs = .ok (tally', out)) :
    tally'.totalStTokensToBurn + (out.map fun p => p.2.stTokensToBurn).sum =
      tally.totalStTokensToBurn + (recs.map fun p => p.2.stTokensToBurn).sum := by
  refine mapAccum_sum UndelegationTally.totalStTokensToBurn
    (fun p : ℕ × HostZoneUnbonding => p.2.stTokensToBurn) (fun acc p acc' q hstep => ?_) h
  rcases recordStep_undelegationBody hstep with ⟨-, rfl, rfl⟩ | ⟨-, st, -, rfl, rfl⟩
  · rfl
  · simp only [afterUndelegation]
    ring

/-- **Settlement**: callbacks that pay everything burn everything, however the total is cut. -/
theorem succeedAll_settles (hrun : succeedAll k acked = .ok k')
    (hrecs : Fetched k.epochUnbondingRecords k.hostZone.chainId recs)
    (hnd : (recs.map Prod.fst).Nodup)
    (hids : ∀ a ∈ acked, a.1.epochUnbondingRecordIds = recs.map Prod.fst)
    (hsettled : ∀ p ∈ recs, Settled p.2) (hpos : ∀ a ∈ acked, 0 < batchAmount a)
    (hne : acked ≠ []) (htotal : (acked.map batchAmount).sum =
      (recs.map fun p => p.2.nativeTokensToUnbond).sum) :
    k'.bank.supply = k.bank.supply - (recs.map fun p => p.2.stTokensToBurn).sum := by
  induction acked generalizing k recs with
  | nil => exact absurd rfl hne
  | cons a acked ih =>
    obtain ⟨k₁, hstep, hrest⟩ := bind_eq_ok.mp hrun
    obtain ⟨hid, hids'⟩ := forall_mem_cons.mp hids
    obtain ⟨hapos, hpos'⟩ := forall_mem_cons.mp hpos
    rw [map_cons, sum_cons] at htotal
    obtain ⟨marked, time, burned, hmark, hburn, hbank⟩ := burnBatch_of_undelegateCallback hstep
    obtain ⟨-, -, -, recs', hfst, hrecs', -, hmarked, -⟩ :=
      markUndelegationAckReceived_ok (hid ▸ hnd) hmark
    obtain rfl : recs' = recs := hrecs'.ext hrecs (hfst.trans hid)
    -- a marked record has the amounts of the record
    have hsum (f : HostZoneUnbonding → ℤ) (hf : ∀ r, f (ackReceived r) = f r) :
        ((mapRecords ackReceived recs').map fun p => f p.2).sum =
          (recs'.map fun p => f p.2).sum := by
      simp [mapRecords, Function.comp_def, hf]
    have hfst' := map_fst_mapRecords ackReceived recs'
    rw [hid, ← hfst'] at hburn
    obtain ⟨out, hcascade, hout_fst, hout⟩ :=
      burnBatch_ok (s := ⟨marked.epochUnbondingRecords, 0⟩) (hfst'.symm ▸ hnd) hmarked hburn
    obtain ⟨tally, hcascade, -, hburned⟩ := cascadeBatch_eq_ok.mp hcascade
    have hsettled' : ∀ p ∈ mapRecords ackReceived recs', Settled p.2 :=
      forall_mem_map.mpr hsettled
    have hnonneg : 0 ≤ (acked.map batchAmount).sum :=
      sum_map_nonneg fun a ha => (hpos' a ha).le
    obtain ⟨hnative, hleft⟩ := cascade_of_covered hcascade (fun p hp => (hsettled' p hp).1)
      hapos.le (by rw [hsum _ fun _ => rfl]; exact htotal ▸ le_add_of_nonneg_right hnonneg)
    have hst := cascade_st hcascade
    rw [hsum _ fun _ => rfl] at hnative hst
    have hafter : ∀ q ∈ out, Settled q.2 ∧
        (q.2.nativeTokensToUnbond = 0 → q.2.stTokensToBurn = 0) := by
      intro q hq
      obtain ⟨p, hp, -, hpq⟩ := forall₂_exists_left (cascade_forall₂ hcascade) hq
      exact hpq.settled (hsettled' p hp) (hleft q hq)
    have hsupply : k₁.bank.supply = k.bank.supply - burned := by rw [hbank]
    rw [show (⟨calculateTotalUnbondedInBatch a.1.splitUndelegations, 0⟩ :
      UndelegationTally) = ⟨batchAmount a, 0⟩ from rfl] at hnative hst
    dsimp only at hnative hst hburned
    by_cases hlast : acked = []
    · -- the last batch leaves no native token, hence no stToken either
      subst hlast
      cases hrest
      have hzero : (out.map fun p => p.2.stTokensToBurn).sum = 0 := by
        refine sum_map_eq_zero fun p hp => ?_
        have hle : p.2.nativeTokensToUnbond ≤ (out.map fun p => p.2.nativeTokensToUnbond).sum :=
          single_le_sum (forall_mem_map.mpr hleft) _ (mem_map_of_mem hp)
        have hpnonneg := hleft p hp
        rw [map_nil, sum_nil] at htotal
        exact (hafter p hp).2 (by omega)
      omega
    · have hone : succeedAll k [a] = .ok k₁ := bind_eq_ok.mpr ⟨k₁, hstep, rfl⟩
      obtain ⟨_, _, heffect⟩ := succeedAll_bookEffect hone
      have hend := ih hrest (heffect.chainId ▸ hout) (hout_fst ▸ hfst' ▸ hnd)
        (fun a ha => (hids' a ha).trans (hfst'.symm.trans hout_fst.symm))
        (fun q hq => (hafter q hq).1) hpos' hlast
        (by omega)
      omega

/-! ## The refresh rounds down -/

/-- stTokens of the user records behind a record. -/
def stTokensBehind (users : UserRedemptionStore) (r : HostZoneUnbonding) : ℤ :=
  (r.userRedemptionRecords.filterMap (redeemedTokens users)).sum

private theorem listedNativeAmount_mul_le {rate : LegacyDec} (hrate : 0 ≤ rate.i)
    (husers : NonnegUsers users) (ids : List String) :
    listedNativeAmount rate users ids * precision ≤
      rate.i * (ids.filterMap (redeemedTokens users)).sum := by
  obtain ⟨j, hj⟩ := Int.eq_ofNat_of_zero_le hrate
  obtain rfl : rate = ⟨(j : ℤ)⟩ := congrArg LegacyDec.mk hj
  induction ids with
  | nil => simp [listedNativeAmount]
  | cons id ids ih =>
    unfold listedNativeAmount at ih ⊢
    rw [filterMap_cons]
    cases huser : redeemedTokens users id with
    | none => exact ih
    | some st =>
      obtain ⟨m, rfl⟩ :=
        Int.eq_ofNat_of_zero_le (nonnegUsers_iff_redeemedTokens.mp husers id st huser)
      have hone : ((m * j / precision : ℕ) : ℤ) * precision ≤ m * j := by
        exact_mod_cast Nat.div_mul_le_self _ _
      simp only [map_cons, sum_cons, nativeAmountAt, LegacyDec.truncateInt_mul_natCast,
        add_mul, mul_add]
      linarith

/-! ## Main result -/

private theorem getTotalUnbondAmount_refreshedQueue
    (hqueue : ∀ p ∈ k.queuedRecords, p.2.status = .unbondingQueue) :
    getTotalUnbondAmount k.refreshedQueue = (k.queuedRecords.map fun p => listedNativeAmount
      k.hostZone.redemptionRate k.userRedemptionRecords p.2.userRedemptionRecords).sum := by
  rw [refreshedQueue, getTotalUnbondAmount, mapRecords, map_map]
  refine congrArg sum (map_congr_left fun p hp => ?_)
  simp [refreshed, nativeAmount, hqueue p hp, refreshedRecord]

/-- The records of a queue that was submitted, with the amounts of their user records. -/
def submittedQueue (k : UnbondingKeeper) (numTxs : ℕ) : EpochRecords :=
  mapRecords (fun r => submittedRecord numTxs (refreshedRecord r (listedNativeAmount
    k.hostZone.redemptionRate k.userRedemptionRecords r.userRedemptionRecords))) k.queuedRecords

private theorem fetched_submittedQueue (hunbond : unbondFromHostZone k submitTxs = .ok (k₁, txs))
    (hqueue : ∀ p ∈ k.queuedRecords, p.2.status = .unbondingQueue)
    (hnonzero : getTotalUnbondAmount k.refreshedQueue ≠ 0) :
    Fetched k₁.epochUnbondingRecords k₁.hostZone.chainId (submittedQueue k txs.length) := by
  obtain ⟨z', hplan, hunbonded⟩ := unbondFromHostZone_ok hunbond
  obtain ⟨hzero, -⟩ | ⟨-, _, _, hsent⟩ := undelegationPlan_ok hplan
  · exact absurd hzero hnonzero
  have hlength : txs.length ≠ 0 := fun h => hsent.ne_nil (length_eq_zero_iff.mp h)
  have hfetched := fetched_of_rewrites hunbonded.records (fetched_selectHostZoneUnbondings _ _ _)
  rw [hunbonded.zone, hsent.counters.chainId]
  refine Eq.subst (motive := Fetched _ _) (map_congr_left fun p hp => ?_) hfetched
  simp [unbondedAt, hlength, refreshed, nativeAmount, hqueue p hp]

/-- Native tokens locked for an stToken of the zone, given its deposits. -/
def UnbondingKeeper.valuePerStToken (k : UnbondingKeeper) (depositRecords : List DepositRecord)
    (deposits : LSMTokenDepositStore) : ℚ :=
  (k.hostZone.nativeTokensLocked depositRecords deposits).i / precision / k.bank.supply

/-- The arithmetic of the main result: `u` native tokens leave for `b` stTokens that were worth
    at least as much at the rate `r`. -/
theorem div_le_div_of_worth {N S u b r D : ℚ} (hD : 0 < D) (hb : 0 ≤ b) (hbS : b < S)
    (hrate : r / D ≤ N / D / S) (hworth : u * D ≤ r * b) :
    N / D / S ≤ (N - u * D) / D / (S - b) := by
  have hS : 0 < S := hb.trans_lt hbS
  have hleft : 0 < S - b := sub_pos.mpr hbS
  rw [div_div, div_le_div_iff₀ hD (mul_pos hD hS)] at hrate
  have hrS : r * S ≤ N := le_of_mul_le_mul_right (by linarith) hD
  rw [div_div, div_div, div_le_div_iff₀ (mul_pos hD hS) (mul_pos hD hleft)]
  -- `u * D * S ≤ r * b * S ≤ N * b`
  have hcross : u * D * S ≤ N * b := by nlinarith
  nlinarith

/-- **No dilution**: the queued records of a zone are unbonded at a rate of at most the value of
    an stToken, and every batch of the total is acknowledged with success. An stToken is then
    worth at least what it was worth before. -/
theorem value_per_stToken_le_of_unbonding
    (hunbond : unbondFromHostZone k submitTxs = .ok (k₁, txs))
    (hqueue : ∀ p ∈ k.queuedRecords, p.2.status = .unbondingQueue) (hbehind : ∀ p ∈ k.queuedRecords,
      stTokensBehind k.userRedemptionRecords p.2 ≤ p.2.stTokenAmount)
    (husers : NonnegUsers k.userRedemptionRecords) (hrate : 0 ≤ k.hostZone.redemptionRate.i)
    {depositRecords : List DepositRecord} {deposits : LSMTokenDepositStore}
    (hvalue : (k.hostZone.redemptionRate.i : ℚ) / precision ≤
      k.valuePerStToken depositRecords deposits)
    (hsupply : (k.queuedRecords.map fun p => p.2.stTokenAmount).sum < k.bank.supply)
    (hids : ∀ a ∈ acked, a.1.epochUnbondingRecordIds = k.queuedRecords.map Prod.fst)
    (hpos : ∀ a ∈ acked, 0 < batchAmount a)
    (htotal : (acked.map batchAmount).sum = getTotalUnbondAmount k.refreshedQueue)
    (hrun : succeedAll k₁ acked = .ok k') :
    k.valuePerStToken depositRecords deposits ≤ k'.valuePerStToken depositRecords deposits := by
  obtain ⟨z', hplan, hunbonded⟩ := unbondFromHostZone_ok hunbond
  have hsubmit : ∃ c, BookEffect k.hostZone k₁.hostZone 0 0 c := by
    obtain ⟨-, rfl, -⟩ | ⟨-, _, _, hsent⟩ := undelegationPlan_ok hplan
    · exact ⟨0, hunbonded.zone ▸ .refl _⟩
    · exact ⟨_, hunbonded.zone ▸ hsent.counters⟩
  obtain ⟨_, hsubmit⟩ := hsubmit
  obtain ⟨_, _, hundelegated⟩ := succeedAll_bookEffect hrun
  have hlocked := (hsubmit.trans hundelegated).nativeTokensLocked_eq depositRecords deposits
  by_cases hnone : acked = []
  · subst hnone
    cases hrun
    simp [valuePerStToken, hlocked, hunbonded.bank, LegacyDec.add,
      LegacyDec.fromInt]
  have hnonzero : getTotalUnbondAmount k.refreshedQueue ≠ 0 :=
    htotal ▸ (sum_pos _ (forall_mem_map.mpr hpos) (by simpa using hnone)).ne'
  have hfst : (submittedQueue k txs.length).map Prod.fst = k.queuedRecords.map Prod.fst :=
    map_fst_mapRecords _ _
  have hbank := succeedAll_settles hrun (fetched_submittedQueue hunbond hqueue hnonzero)
    (hfst ▸ nodup_selectHostZoneUnbondings _ _ _) (fun a ha => (hids a ha).trans hfst.symm)
    (forall_mem_map.mpr fun p hp =>
      ⟨⟨listedNativeAmount_nonneg hrate husers _, UnbondingStatus.noConfusion⟩,
        UnbondingStatus.noConfusion⟩) hpos hnone (by
      rw [htotal, getTotalUnbondAmount_refreshedQueue hqueue, submittedQueue, mapRecords, map_map]
      rfl)
  rw [submittedQueue, mapRecords, map_map, hunbonded.bank] at hbank
  replace hbank : k'.bank.supply =
      k.bank.supply - (k.queuedRecords.map fun p => p.2.stTokenAmount).sum := hbank
  -- every record is worth at most its stTokens at the stored rate
  have hworth : (acked.map batchAmount).sum * precision ≤ k.hostZone.redemptionRate.i *
      (k.queuedRecords.map fun p => p.2.stTokenAmount).sum := by
    rw [htotal, getTotalUnbondAmount_refreshedQueue hqueue, ← sum_map_mul_right,
      ← sum_map_mul_left]
    refine sum_le_sum fun p hp => (listedNativeAmount_mul_le hrate husers _).trans ?_
    exact mul_le_mul_of_nonneg_left (hbehind p hp) hrate
  have hburned : 0 ≤ (k.queuedRecords.map fun p => p.2.stTokenAmount).sum := by
    refine sum_map_nonneg fun p hp => ?_
    have hselected : 0 < p.2.stTokenAmount := by
      simpa [HostZoneUnbonding.shouldInitiateUnbonding, HostZoneUnbonding.shouldRetryUnbonding,
        hqueue p hp] using (mem_selectHostZoneUnbondings.mp hp).2
    exact hselected.le
  have hle := div_le_div_of_worth (u := ((acked.map batchAmount).sum : ℤ))
    (b := ((k.queuedRecords.map fun p => p.2.stTokenAmount).sum : ℤ))
    (by exact_mod_cast precision_pos) (by exact_mod_cast hburned) (by exact_mod_cast hsupply)
    hvalue (by exact_mod_cast hworth)
  refine hle.trans_eq ?_
  rw [valuePerStToken, hlocked, hbank]
  simp [LegacyDec.add, LegacyDec.fromInt, sub_eq_add_neg]

/-- Two users redeem 100 of 300 stTokens at the rate 1.1, in a zone of 400 native tokens. -/
def hundredRedeemed : UnbondingKeeper where
  hostZone := { twoValidatorZone with redemptionRate := ⟨11 * 10 ^ 17⟩ }
  epochUnbondingRecords := EpochUnbondingStore.empty.setEpochUnbondingRecord
    ⟨1, [⟨100, 0, 0, 0, 0, 0, "uatom", "host", 0, .unbondingQueue, ["a", "b"]⟩]⟩
  userRedemptionRecords := (KeyedStore.empty.set (redemptionOf "a" 61)).set (redemptionOf "b" 39)
  bank := ⟨100, 300⟩

/-- Both batches of the submission are acknowledged: 109 native tokens leave for 100 stTokens. -/
theorem value_per_stToken_le_hundredRedeemed :
    ∃ k₁ txs k', unbondFromHostZone hundredRedeemed (fun _ => true) = .ok (k₁, txs) ∧
      succeedAll k₁ (txs.map fun tx => (tx.callback, [some 5])) = .ok k' ∧ txs.length = 2 ∧
      (k'.hostZone.totalDelegations, k'.bank.supply) = (291, 200) ∧
      hundredRedeemed.valuePerStToken [] .empty ≤ k'.valuePerStToken [] .empty := by
  have hlocked : hundredRedeemed.hostZone.nativeTokensLocked [] .empty = ⟨400 * 10 ^ 18⟩ := by
    decide +kernel
  have husers : NonnegUsers hundredRedeemed.userRedemptionRecords :=
    (nonnegUsers_empty.set (by decide)).set (by decide)
  have hacked : ∃ k₁ txs k', unbondFromHostZone hundredRedeemed (fun _ => true) = .ok (k₁, txs) ∧
      succeedAll k₁ (txs.map fun tx => (tx.callback, [some 5])) = .ok k' ∧ txs.length = 2 ∧
      (k'.hostZone.totalDelegations, k'.bank.supply) = (291, 200) ∧
      (∀ tx ∈ txs, tx.callback.epochUnbondingRecordIds = [1]) ∧ (∀ tx ∈ txs, 0 < tx.amount) ∧
      (txs.map UndelegateTx.amount).sum = 109 :=
    ⟨_, _, _, rfl, rfl, by decide +kernel⟩
  obtain ⟨k₁, txs, k', hunbond, hrun, hlength, hends, hids, hpos, hsum⟩ := hacked
  refine ⟨k₁, txs, k', hunbond, hrun, hlength, hends, ?_⟩
  refine value_per_stToken_le_of_unbonding hunbond (by decide) (by decide) husers (by decide) ?_
    (by decide) (forall_mem_map.mpr hids) (forall_mem_map.mpr hpos) ?_ hrun
  on_goal 2 => rw [map_map]; exact hsum.trans (by decide +kernel)
  rw [valuePerStToken, hlocked]
  norm_num [hundredRedeemed, precision]

end Stride.Stakeibc
