import Stride.Stakeibc.UndelegateCallback

/-!
# Redemption Sweeps

Records whose undelegations have completed wait in EXIT_TRANSFER_QUEUE until their
unbonding time has passed on the host. A sweep sends the sum of their native amounts from
the delegation account to the redemption account.
-/

namespace Stride.Stakeibc

open Lib Sdk Records Records.EpochUnbondingStore

/-! ## Model -/

/-- A record that the next sweep takes. -/
def readyForSweep (hostBlockTime : ℕ) (r : HostZoneUnbonding) : Bool :=
  r.status = .exitTransferQueue && 0 < r.unbondingTime && r.unbondingTime < hostBlockTime

/-- The records a sweep takes, with their epoch numbers. -/
def sweptRecords (s : EpochUnbondingStore) (chainId : String) (hostBlockTime : ℕ) :
    EpochRecords :=
  selectHostZoneUnbondings s chainId (readyForSweep hostBlockTime)

def getTotalRedemptionSweepAmountAndRecordIds (s : EpochUnbondingStore) (chainId : String)
    (hostBlockTime : ℕ) : ℤ × List ℕ :=
  let swept := sweptRecords s chainId hostBlockTime
  ((swept.map fun p => p.2.nativeTokenAmount).sum, swept.map Prod.fst)

/-- Data stored for the callback of a sweep. -/
structure RedemptionCallback where
  hostZoneId : String
  epochUnbondingRecordIds : List ℕ
  deriving DecidableEq

/-- A sweep sent to the host: a bank send between two accounts. -/
structure RedemptionTx where
  fromAddress : String
  toAddress : String
  amount : String × ℤ
  callback : RedemptionCallback
  deriving DecidableEq

/-- `SweepUnbondedTokensForHostZone`, at the block time of the light client of the host.
    Returns the transaction it sent, if any. -/
def sweepUnbondedTokensForHostZone (k : UnbondingKeeper) (hostBlockTime : ℕ)
    (submitTxs : Bool) : Result (UnbondingKeeper × Option RedemptionTx) :=
  let hostZone := k.hostZone
  let chainId := hostZone.chainId
  if hostZone.delegationIcaAddress = "" then
    wrapf .errICAAccountNotFound s!"no delegation account found for {chainId}"
  else if hostZone.redemptionIcaAddress = "" then
    wrapf .errICAAccountNotFound s!"no redemption account found for {chainId}"
  else
    let (totalSweepAmount, epochUnbondingRecordIds) :=
      getTotalRedemptionSweepAmountAndRecordIds k.epochUnbondingRecords chainId hostBlockTime
    if totalSweepAmount ≤ 0 then return (k, none)
    else do
      let sweepCoin ← newCoin hostZone.hostDenom totalSweepAmount
      if ¬ submitTxs then
        wrapf .plain s!"unable to submit redemption ICA for {chainId}"
      else
        let records ← setHostZoneUnbondingStatus k.epochUnbondingRecords chainId
          epochUnbondingRecordIds .exitTransferInProgress
        return ({ k with epochUnbondingRecords := records },
          some ⟨hostZone.delegationIcaAddress, hostZone.redemptionIcaAddress, sweepCoin,
            ⟨chainId, epochUnbondingRecordIds⟩⟩)

/-- A record whose tokens have arrived at the redemption account. -/
def markClaimable (r : HostZoneUnbonding) : HostZoneUnbonding :=
  { r with claimableNativeTokens := r.nativeTokenAmount, status := .claimable }

def redemptionCallback (k : UnbondingKeeper) (callback : RedemptionCallback)
    (status : AckStatus) : Result UnbondingKeeper :=
  let chainId := callback.hostZoneId
  match status with
  | .timeout => return k
  | .failure => do
    let records ← setHostZoneUnbondingStatus k.epochUnbondingRecords chainId
      callback.epochUnbondingRecordIds .exitTransferQueue
    return { k with epochUnbondingRecords := records }
  | .success =>
    if chainId ≠ k.hostZone.chainId then
      wrapf .errKeyNotFound s!"Host zone not found: {chainId}"
    else do
      let (_, records) ← forEachHostZoneUnbonding chainId
        (fun e => ⟨.errHostUnbondingRecordNotFound,
          s!"unbonding record not found for epoch {e} and chain {chainId}"⟩)
        (fun _ _ r => .ok ((), some (markClaimable r)))
        callback.epochUnbondingRecordIds () k.epochUnbondingRecords
      return { k with epochUnbondingRecords := records }

/-! ## What a sweep and its callback leave -/

variable {status : AckStatus} {submitTxs : Bool} {callback : RedemptionCallback}
  {k k' : UnbondingKeeper} {hostBlockTime : ℕ}

theorem of_mem_sweptRecords {s : EpochUnbondingStore} {chainId : String}
    {p : ℕ × HostZoneUnbonding} (hp : p ∈ sweptRecords s chainId hostBlockTime) :
    hostZoneUnbondings s chainId p.1 = some p.2 ∧ p.2.status = .exitTransferQueue ∧
      p.2.unbondingTime < hostBlockTime := by
  obtain ⟨hview, hready⟩ := mem_selectHostZoneUnbondings.mp hp
  simp only [readyForSweep, Bool.and_eq_true, decide_eq_true_eq] at hready
  exact ⟨hview, hready.1.1, hready.2⟩

/-- A sweep sends the native amounts of the records it takes and marks these, and no other, as in
    progress. -/
structure Sweeps (k : UnbondingKeeper) (hostBlockTime : ℕ) (tx : RedemptionTx)
    (swept : EpochRecords) (records : EpochUnbondingStore) : Prop where
  ready : swept = sweptRecords k.epochUnbondingRecords k.hostZone.chainId hostBlockTime
  callback : tx.callback = ⟨k.hostZone.chainId, swept.map Prod.fst⟩
  toAddress : tx.toAddress = k.hostZone.redemptionIcaAddress
  amount : tx.amount = (k.hostZone.hostDenom, (swept.map fun p => p.2.nativeTokenAmount).sum)
  marked : Rewrites k.hostZone.chainId (swept.map Prod.fst)
    (fun r => { r with status := .exitTransferInProgress }) k.epochUnbondingRecords records
  onePerChain : k.epochUnbondingRecords.OnePerChain → records.OnePerChain

/-- **Sweep**: a sweep that ends well either finds nothing or sends its transaction. -/
theorem sweepUnbondedTokensForHostZone_spec {sent : Option RedemptionTx}
    (h : sweepUnbondedTokensForHostZone k hostBlockTime submitTxs = .ok (k', sent)) :
    (sent = none ∧ k' = k) ∨ ∃ tx swept records, sent = some tx ∧
      k' = { k with epochUnbondingRecords := records } ∧
      Sweeps k hostBlockTime tx swept records := by
  unfold sweepUnbondedTokensForHostZone at h
  dsimp only at h
  split at h
  · cases h
  split at h
  · cases h
  split at h
  · -- there is nothing to sweep
    cases h
    exact .inl ⟨rfl, rfl⟩
  · obtain ⟨coin, hcoin, h⟩ := bind_eq_ok.mp h
    obtain ⟨-, rfl⟩ := newCoin_eq_ok.mp hcoin
    split at h
    · cases h
    obtain ⟨records, hset, h⟩ := bind_eq_ok.mp h
    cases h
    refine .inr ⟨_, _, records, rfl, rfl, rfl, rfl, rfl, rfl,
      setHostZoneUnbondingStatus_ok (nodup_selectHostZoneUnbondings _ _ _) hset, fun hone => ?_⟩
    obtain ⟨res, hloop, hset⟩ := bind_eq_ok.mp hset
    cases hset
    exact hone.forEach (fun _ _ _ _ _ hb => by cases hb; rfl) hloop

/-- The record a redemption callback leaves. -/
def sweepOutcome : AckStatus → HostZoneUnbonding → HostZoneUnbonding
  | .timeout => id
  | .failure => fun r => { r with status := .exitTransferQueue }
  | .success => markClaimable

/-- **Sweep callback**: a callback that ends well changes the records of its sweep and no
    other. -/
theorem redemptionCallback_spec (hnd : callback.epochUnbondingRecordIds.Nodup)
    (h : redemptionCallback k callback status = .ok k') :
    ∃ records, k' = { k with epochUnbondingRecords := records } ∧
      Rewrites callback.hostZoneId callback.epochUnbondingRecordIds (sweepOutcome status)
        k.epochUnbondingRecords records := by
  unfold redemptionCallback at h
  cases status with
  | timeout =>
    cases h
    exact ⟨_, rfl, fun c e => by simp [sweepOutcome], rfl⟩
  | failure =>
    obtain ⟨records, hset, h⟩ := bind_eq_ok.mp h
    cases h
    exact ⟨records, rfl, setHostZoneUnbondingStatus_ok hnd hset⟩
  | success =>
    dsimp only at h
    split at h
    · cases h
    obtain ⟨⟨_, records⟩, hloop, h⟩ := bind_eq_ok.mp h
    cases h
    obtain ⟨recs, hfst, hrecs, -, hout, hsame⟩ := forEachHostZoneUnbonding_eq_map
      (g := markClaimable) (P := fun _ => True) (fun _ => rfl)
      (fun _ _ _ _ _ hb => by cases hb; exact ⟨rfl, trivial⟩) hnd hloop
    exact ⟨records, rfl, rewrites_of_mapRecords hfst hrecs hout hsame⟩

theorem onePerChain_redemptionCallback (hone : k.epochUnbondingRecords.OnePerChain)
    (h : redemptionCallback k callback status = .ok k') : k'.epochUnbondingRecords.OnePerChain := by
  unfold redemptionCallback at h
  cases status with
  | timeout =>
    cases h
    exact hone
  | failure =>
    obtain ⟨records, hset, h⟩ := bind_eq_ok.mp h
    cases h
    obtain ⟨res, hloop, hset⟩ := bind_eq_ok.mp hset
    cases hset
    exact hone.forEach (fun _ _ _ _ _ hb => by cases hb; rfl) hloop
  | success =>
    dsimp only at h
    split at h
    · cases h
    obtain ⟨res, hloop, h⟩ := bind_eq_ok.mp h
    cases h
    exact hone.forEach (fun _ _ _ _ _ hb => by cases hb; rfl) hloop

end Stride.Stakeibc
