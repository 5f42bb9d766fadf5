import Stride.Stakedym.Keeper

/-!
# Unbonding

Redeemers hand in stTokens, which are held in escrow and counted in the accumulating unbonding
record and in a redemption record of the redeemer. Every few days the accumulating record is
frozen and a new one opened; operators confirm the undelegation and, after the unbonding period,
the transfer of the unbonded tokens to the claim address, from which the redeemers are paid.
-/

namespace Stride.Stakedym

open Lib Sdk List

/-! ## Model -/

/-- `minThreshold` of the messages `MsgLiquidStake` and `MsgRedeemStake`. -/
def minThreshold : ℤ := 100000

/-- The native tokens of an amount of stTokens. -/
def nativeTokensAt (redemptionRate : LegacyDec) (stTokenAmount : ℤ) : ℤ :=
  ((LegacyDec.fromInt stTokenAmount).mul redemptionRate).truncateInt

structure Payment where
  unbondingRecordId : ℕ
  redeemer : String
  /-- the account of the redeemer -/
  userAddress : String
  amount : ℤ
  deriving DecidableEq

namespace Keeper

/-- The redemption record of a redeemer after a redemption. -/
def redeemedRecord (k : Keeper) (unbondingRecordId : ℕ) (redeemer : String)
    (stTokenAmount nativeAmount : ℤ) : RedemptionRecord :=
  match k.getRedemptionRecord unbondingRecordId redeemer with
  | some r =>
    { r with
      stTokenAmount := r.stTokenAmount + stTokenAmount
      nativeAmount := r.nativeAmount + nativeAmount }
  | none => ⟨unbondingRecordId, redeemer, nativeAmount, stTokenAmount⟩

/-- `RedeemStake`, with the native tokens of the response. -/
def redeemStake (accounts : Accounts) (k : Keeper) (redeemer : String) (stTokenAmount : ℤ) :
    Result (Keeper × (String × ℤ)) := do
  let hostZone ← k.getUnhaltedHostZone
  let escrowAccount ← wrapError (accounts.accAddressFromBech32 hostZone.redemptionAddress)
    s!"could not bech32 decode redemption address {hostZone.redemptionAddress} on stride"
  checkRedemptionRateExceedsBounds hostZone
  let accUnbondingRecord ← k.getAccumulatingUnbondingRecord
  let redeemerAccount ← wrapError (accounts.accAddressFromBech32 redeemer)
    s!"invalid address ({redeemer})"
  let balance := k.bank.balance redeemerAccount hostZone.stDenom
  require (stTokenAmount ≤ balance) .errInsufficientFunds
    s!"wallet balance of stTIA is lower than redemption amount. {balance} < {stTokenAmount}: "
  let nativeAmount := nativeTokensAt hostZone.redemptionRate stTokenAmount
  require (nativeAmount ≤ hostZone.delegatedBalance) .errUnbondAmountToLarge
    (s!"cannot unstake an amount g.t. total staked balance: {nativeAmount} > " ++
      s!"{hostZone.delegatedBalance}")
  let nativeToken ← newCoin hostZone.nativeTokenDenom nativeAmount
  let redeemCoin ← newCoin hostZone.stDenom stTokenAmount
  let bank ← wrapError (k.bank.safeSendCoins accounts.blockedAddr false redeemerAccount
      escrowAccount redeemCoin)
    s!"couldn't send {stTokenAmount} stadym"
  return ({ k with
    bank := bank
    unbondingRecords := k.unbondingRecords.set
      { accUnbondingRecord with
        stTokenAmount := accUnbondingRecord.stTokenAmount + stTokenAmount
        nativeAmount := accUnbondingRecord.nativeAmount + nativeAmount }
    redemptionRecords := k.redemptionRecords.set
      (k.redeemedRecord accUnbondingRecord.id redeemer stTokenAmount nativeAmount) }, nativeToken)

/-- The loop of `PrepareUndelegation`: the native amounts at the current rate, and their sum. -/
def refreshNativeAmounts (redemptionRate : LegacyDec) (redemptionRecords : RedemptionRecordStore)
    (records : List RedemptionRecord) : RedemptionRecordStore × ℤ :=
  records.foldl
    (fun (redemptionRecords, totalNativeTokens) r =>
      let nativeAmount := nativeTokensAt redemptionRate r.stTokenAmount
      (redemptionRecords.set { r with nativeAmount := nativeAmount },
        totalNativeTokens + nativeAmount))
    (redemptionRecords, 0)

/-- The new accumulating record of an epoch. -/
def openedRecord (epochNumber : ℕ) : UnbondingRecord where
  id := epochNumber
  status := .accumulatingRedemptions
  stTokenAmount := 0
  nativeAmount := 0

/-- An unbonding record that is frozen, with its native tokens at the current rate. -/
def frozenRecord (r : UnbondingRecord) (totalNativeTokens : ℤ) : UnbondingRecord :=
  { r with
    status := .unbondingQueue
    nativeAmount := totalNativeTokens }

def prepareUndelegation (k : Keeper) (epochNumber : ℕ) : Result Keeper := do
  let hostZone ← k.getUnhaltedHostZone
  let unbondingRecord ← k.getAccumulatingUnbondingRecord
  let k ← k.safelySetUnbondingRecord (openedRecord epochNumber)
  let (redemptionRecords, totalNativeTokens) := refreshNativeAmounts hostZone.redemptionRate
    k.redemptionRecords (k.getRedemptionRecordsFromUnbondingId unbondingRecord.id)
  let k := { k with redemptionRecords := redemptionRecords }
  if totalNativeTokens = 0 then
    -- no unbondings this epoch: the record is archived as it is
    return k.archiveUnbondingRecord unbondingRecord
  else
    return { k with
      unbondingRecords := k.unbondingRecords.set
        (frozenRecord unbondingRecord totalNativeTokens) }

def burnRedeemedStTokens (accounts : Accounts) (bank : Bank) (stTokensToBurn : String × ℤ)
    (redemptionAddress : String) : Result Bank := do
  let acctAddressRedemption ← wrapError (accounts.accAddressFromBech32 redemptionAddress)
    s!"could not bech32 decode address {redemptionAddress}"
  let bank ← wrapError (bank.sendCoins acctAddressRedemption moduleName stTokensToBurn)
    s!"could not send coins from account {redemptionAddress} to module {moduleName}"
  wrapError (bank.burnCoins moduleName stTokensToBurn)
    s!"couldn't burn {stTokensToBurn.2} tokens in module account"

/-- `VerifyImpliedRedemptionRateFromUnbonding`, on the state after the burn. -/
def verifyImpliedRedemptionRateFromUnbonding (hostZoneAfter : HostZone) (bank : Bank)
    (stTokenSupplyBefore delegatedBalanceBefore : ℤ) : Result Unit := do
  let delegatedBalanceDecremented := delegatedBalanceBefore - hostZoneAfter.delegatedBalance
  let stTokenSupplyBurned := stTokenSupplyBefore - bank.supply hostZoneAfter.stDenom
  require (stTokenSupplyBurned ≠ 0) .errDivisionByZero "division by zero"
  let ratio ← (LegacyDec.fromInt delegatedBalanceDecremented).quo
    (LegacyDec.fromInt stTokenSupplyBurned)
  require (hostZoneAfter.minRedemptionRate.i ≤ ratio.i ∧
      ratio.i ≤ hostZoneAfter.maxRedemptionRate.i)
    .errRedemptionRateOutsideSafetyBounds "redemption rate outside safety bounds"

/-- `ConfirmUndelegation` at the block time `now`, in seconds. -/
def confirmUndelegation (accounts : Accounts) (k : Keeper) (recordId : ℕ) (txHash : String)
    (now : ℤ) : Result Keeper :=
  match k.unbondingRecords.get? recordId with
  | none =>
    wrapf .errUnbondingRecordNotFound s!"couldn't find unbonding record with id: {recordId}"
  | some record => do
    require (record.status = .unbondingQueue) .errInvalidUnbondingRecord
      s!"unbonding record with id: {recordId} is not ready to be undelegated"
    require (record.undelegationTxHash = "") .errInvalidUnbondingRecord
      s!"unbonding record with id: {recordId} already has undelegation tx hash set"
    require (record.unbondedTokenSweepTxHash = "") .errInvalidUnbondingRecord
      s!"unbonding record with id: {recordId} already has token sweep tx hash set"
    require (0 < record.nativeAmount ∧ 0 < record.stTokenAmount) .errInvalidUnbondingRecord
      s!"unbonding record with id: {recordId} has no tokens to unbond (or negative)"
    let hostZone := k.hostZone
    let unbondingCompletionTime := now + hostZone.unbondingPeriodSeconds
    if unbondingCompletionTime < 0 then
      goPanic s!"int64 value {unbondingCompletionTime} is negative and can't be converted to uint64"
    else
      let newDelegatedBalance := hostZone.delegatedBalance - record.nativeAmount
      require (0 ≤ newDelegatedBalance) .errNegativeNotAllowed
        "host zone's delegated balance would be negative after undelegation"
      let hostZoneAfter := { hostZone with delegatedBalance := newDelegatedBalance }
      let stTokensToBurn ← newCoin hostZone.stDenom record.stTokenAmount
      let bank ← wrapError (burnRedeemedStTokens accounts k.bank stTokensToBurn
        hostZone.redemptionAddress) "unable to burn stTokens in ConfirmUndelegation"
      wrapError (verifyImpliedRedemptionRateFromUnbonding hostZoneAfter bank
        (k.bank.supply hostZone.stDenom) hostZone.delegatedBalance)
        "ratio of delegation change to burned tokens exceeds redemption rate bounds"
      return { k with
        bank := bank
        hostZone := hostZoneAfter
        unbondingRecords := k.unbondingRecords.set
          { record with
            undelegationTxHash := txHash
            status := .unbondingInProgress
            unbondingCompletionTimeSeconds := unbondingCompletionTime } }

/-- `MarkFinishedUnbondings` at the block time `now`, in seconds. -/
def markFinishedUnbondings (k : Keeper) (now : ℤ) : Keeper :=
  (k.getAllUnbondingRecordsByStatus .unbondingInProgress).foldl
    (fun k r =>
      if r.unbondingCompletionTimeSeconds < now then
        { k with unbondingRecords := k.unbondingRecords.set { r with status := .unbonded } }
      else k)
    k

def confirmUnbondedTokenSweep (accounts : Accounts) (k : Keeper) (recordId : ℕ)
    (txHash : String) : Result Keeper :=
  match k.unbondingRecords.get? recordId with
  | none =>
    wrapf .errUnbondingRecordNotFound s!"couldn't find unbonding record with id: {recordId}"
  | some record => do
    require (record.status = .unbonded) .errInvalidUnbondingRecord
      s!"unbonding record with id: {recordId} is not ready to be swept"
    require (record.unbondedTokenSweepTxHash = "") .errInvalidUnbondingRecord
      s!"unbonding record with id: {recordId} already has a tx hash set"
    require (0 < record.nativeAmount ∧ 0 < record.stTokenAmount) .errInvalidUnbondingRecord
      s!"unbonding record with id: {recordId} has non positive amount to sweep"
    let hostZone := k.hostZone
    let claimAddress ← accounts.accAddressFromBech32 hostZone.claimAddress
    let claimAddressBalance := k.bank.balance claimAddress hostZone.nativeTokenIbcDenom
    require (record.nativeAmount ≤ claimAddressBalance) .errInsufficientFunds
      (s!"claim address {hostZone.claimAddress} has insufficient funds to confirm sweep " ++
        "unbonded tokens")
    return { k with
      unbondingRecords := k.unbondingRecords.set
        { record with
          status := .claimable
          unbondedTokenSweepTxHash := txHash } }

/-- The loop body of `DistributeClaimsForUnbondingRecord`, with the payments so far. -/
def distributeClaim (accounts : Accounts) (hostNativeIbcDenom claimAddress : String)
    (unbondingRecordId : ℕ) (s : Keeper × List Payment) (r : RedemptionRecord) :
    Result (Keeper × List Payment) := do
  let (k, paid) := s
  let userAddress ← wrapError (accounts.accAddressFromBech32 r.redeemer)
    s!"invalid redeemer address {r.redeemer}"
  let nativeTokens ← newCoin hostNativeIbcDenom r.nativeAmount
  let bank ← wrapError (k.bank.safeSendCoins accounts.blockedAddr true claimAddress userAddress
      nativeTokens)
    s!"unable to send {r.nativeAmount} from claim address to {r.redeemer}"
  return ({ k with bank := bank }.removeRedemptionRecord unbondingRecordId r.redeemer,
    paid ++ [⟨unbondingRecordId, r.redeemer, userAddress, r.nativeAmount⟩])

def distributeClaimsForUnbondingRecord (accounts : Accounts)
    (hostNativeIbcDenom claimAddress : String) (s : Keeper × List Payment)
    (unbondingRecordId : ℕ) : Result (Keeper × List Payment) :=
  (s.1.getRedemptionRecordsFromUnbondingId unbondingRecordId).foldlM
    (distributeClaim accounts hostNativeIbcDenom claimAddress unbondingRecordId) s

/-- The loop body of `DistributeClaims`. -/
def distributeUnbondingRecord (accounts : Accounts) (hostNativeIbcDenom claimAddress : String)
    (s : Keeper × List Payment) (r : UnbondingRecord) : Result (Keeper × List Payment) := do
  let (k, paid) ← wrapError
    (distributeClaimsForUnbondingRecord accounts hostNativeIbcDenom claimAddress s r.id)
    s!"Unable to distribute claims for unbonding record {r.id}"
  return (k.archiveUnbondingRecord { r with status := .claimed }, paid)

/-- `DistributeClaims`, with the payments made. -/
def distributeClaims (accounts : Accounts) (k : Keeper) : Result (Keeper × List Payment) := do
  let hostZone ← k.getUnhaltedHostZone
  let claimAddress ← wrapError (accounts.accAddressFromBech32 hostZone.claimAddress)
    s!"invalid host zone claim address {hostZone.claimAddress}"
  (k.getAllUnbondingRecordsByStatus .claimable).foldlM
    (distributeUnbondingRecord accounts hostZone.nativeTokenIbcDenom claimAddress) (k, [])

/-! ## Outcomes -/

variable {accounts : Accounts} {k k' : Keeper}

/-! ### Redemptions -/

/-- What a redemption that goes through found and leaves. -/
structure RedeemedStake (accounts : Accounts) (k k' : Keeper) (redeemer : String) (amount : ℤ)
    (escrowAccount redeemerAccount : String) (record : UnbondingRecord) : Prop where
  escrow : accounts.accAddressFromBech32 k.hostZone.redemptionAddress = .ok escrowAccount
  account : accounts.accAddressFromBech32 redeemer = .ok redeemerAccount
  accumulating : k.getAllUnbondingRecordsByStatus .accumulatingRedemptions = [record]
  nonneg : 0 ≤ amount
  sent : k.bank.sendCoins redeemerAccount escrowAccount (k.hostZone.stDenom, amount) = .ok k'.bank
  keeper : k' = { k with
    bank := k'.bank
    unbondingRecords := k.unbondingRecords.set
      { record with
        stTokenAmount := record.stTokenAmount + amount
        nativeAmount := record.nativeAmount + nativeTokensAt k.hostZone.redemptionRate amount }
    redemptionRecords := k.redemptionRecords.set (k.redeemedRecord record.id redeemer amount
      (nativeTokensAt k.hostZone.redemptionRate amount)) }

/-- A redemption escrows stTokens and adds to the open record. -/
theorem redeemStake_ok {redeemer : String} {amount : ℤ} {token : String × ℤ}
    (h : redeemStake accounts k redeemer amount = .ok (k', token)) :
    ∃ escrowAccount redeemerAccount record,
      RedeemedStake accounts k k' redeemer amount escrowAccount redeemerAccount record := by
  obtain ⟨hostZone, hzone, h⟩ := bind_eq_ok.mp h
  obtain ⟨rfl, -⟩ := getUnhaltedHostZone_ok hzone
  obtain ⟨escrowAccount, hescrow, h⟩ := bind_eq_ok.mp h
  obtain ⟨_, _, h⟩ := bind_eq_ok.mp h
  obtain ⟨record, hrecord, h⟩ := bind_eq_ok.mp h
  obtain ⟨redeemerAccount, haccount, h⟩ := bind_eq_ok.mp h
  obtain ⟨_, _, h⟩ := bind_eq_ok.mp h
  obtain ⟨_, _, h⟩ := bind_eq_ok.mp h
  obtain ⟨_, _, h⟩ := bind_eq_ok.mp h
  obtain ⟨coin, hcoin, h⟩ := bind_eq_ok.mp h
  obtain ⟨hnonneg, rfl⟩ := newCoin_eq_ok.mp hcoin
  obtain ⟨bank, hsent, h⟩ := bind_eq_ok.mp h
  cases h
  exact ⟨escrowAccount, redeemerAccount, record,
    { escrow := wrapError_eq_ok.mp hescrow
      account := wrapError_eq_ok.mp haccount
      accumulating := getAccumulatingUnbondingRecord_ok.mp hrecord
      nonneg := hnonneg
      sent := Bank.safeSendCoins_ok (wrapError_eq_ok.mp hsent)
      keeper := rfl }⟩

/-! ### Freezing the accumulating record -/

/-- A redemption record after the unbonding record `id` was frozen. -/
def refreshedRecord (redemptionRate : LegacyDec) (id : ℕ) (r : RedemptionRecord) :
    RedemptionRecord :=
  if r.unbondingRecordId = id then
    { r with nativeAmount := nativeTokensAt redemptionRate r.stTokenAmount }
  else r

theorem key_refreshedRecord (redemptionRate : LegacyDec) (id : ℕ) (r : RedemptionRecord) :
    (refreshedRecord redemptionRate id r).key = r.key := by
  unfold refreshedRecord
  split <;> rfl

/-- The sum of the native amounts of an unbonding record at a rate. -/
def refreshedTotal (k : Keeper) (redemptionRate : LegacyDec) (id : ℕ) : ℤ :=
  ((k.getRedemptionRecordsFromUnbondingId id).map fun r =>
    nativeTokensAt redemptionRate r.stTokenAmount).sum

/-- The accumulating record as it is frozen. -/
def frozenAtRate (k : Keeper) (record : UnbondingRecord) : UnbondingRecord :=
  frozenRecord record (k.refreshedTotal k.hostZone.redemptionRate record.id)

/-- The loop refreshes the redemption records of one unbonding. -/
theorem refreshNativeAmounts_eq (redemptionRate : LegacyDec) (k : Keeper) (id : ℕ) :
    refreshNativeAmounts redemptionRate k.redemptionRecords
        (k.getRedemptionRecordsFromUnbondingId id) =
      (k.redemptionRecords.mapValues (refreshedRecord redemptionRate id)
        (key_refreshedRecord redemptionRate id), k.refreshedTotal redemptionRate id) := by
  -- the loop writes and sums independently
  have hloop (l : List RedemptionRecord) (store : RedemptionRecordStore) (total : ℤ) :
      l.foldl (fun (p : RedemptionRecordStore × ℤ) r =>
          (p.1.set { r with nativeAmount := nativeTokensAt redemptionRate r.stTokenAmount },
            p.2 + nativeTokensAt redemptionRate r.stTokenAmount)) (store, total) =
        (l.foldl (fun t r =>
          t.set { r with nativeAmount := nativeTokensAt redemptionRate r.stTokenAmount }) store,
          total + (l.map fun r => nativeTokensAt redemptionRate r.stTokenAmount).sum) := by
    induction l generalizing store total with
    | nil => simp
    | cons r l ih => rw [foldl_cons, ih, foldl_cons, map_cons, sum_cons,
        add_assoc]
  have hset := KeyedStore.foldl_set_filter (p := fun r : RedemptionRecord =>
      r.unbondingRecordId = id)
    (g := fun r => { r with nativeAmount := nativeTokensAt redemptionRate r.stTokenAmount })
    (fun _ => rfl) k.redemptionRecords
  refine (hloop _ k.redemptionRecords 0).trans ?_
  rw [zero_add]
  exact congrArg₂ Prod.mk hset rfl

/-- What freezing the accumulating record found and leaves. -/
structure PreparedUndelegation (k k' : Keeper) (epochNumber : ℕ) (record : UnbondingRecord) :
    Prop where
  accumulating : k.getAllUnbondingRecordsByStatus .accumulatingRedemptions = [record]
  fresh : k.unbondingRecords.get? epochNumber = none
  redemptionRecords : k'.redemptionRecords =
    k.redemptionRecords.mapValues (refreshedRecord k.hostZone.redemptionRate record.id)
      (key_refreshedRecord k.hostZone.redemptionRate record.id)
  /-- The new record is open, and the old one is archived if it is worth nothing. -/
  records :
    (k'.unbondingRecords = (k.unbondingRecords.set (openedRecord epochNumber)).delete record.id ∧
        k'.archivedUnbondingRecords = k.archivedUnbondingRecords.set record) ∨
      (k'.unbondingRecords = (k.unbondingRecords.set (openedRecord epochNumber)).set
          (k.frozenAtRate record) ∧
        k'.archivedUnbondingRecords = k.archivedUnbondingRecords)
  frame : k' = { k with
    redemptionRecords := k'.redemptionRecords
    unbondingRecords := k'.unbondingRecords
    archivedUnbondingRecords := k'.archivedUnbondingRecords }

/-- The open record is frozen or dropped, and a new one opened. -/
theorem prepareUndelegation_ok {epochNumber : ℕ}
    (h : prepareUndelegation k epochNumber = .ok k') :
    ∃ record, PreparedUndelegation k k' epochNumber record := by
  obtain ⟨hostZone, hzone, h⟩ := bind_eq_ok.mp h
  obtain ⟨rfl, -⟩ := getUnhaltedHostZone_ok hzone
  obtain ⟨record, hrecord, h⟩ := bind_eq_ok.mp h
  obtain ⟨k₁, hset, h⟩ := bind_eq_ok.mp h
  obtain ⟨hfresh, rfl⟩ := safelySetUnbondingRecord_ok hset
  -- opening the new record leaves the redemption records as they were
  have hloop := refreshNativeAmounts_eq k.hostZone.redemptionRate
    { k with unbondingRecords := k.unbondingRecords.set (openedRecord epochNumber) } record.id
  rw [hloop] at h
  dsimp only at h
  have haccumulating := getAccumulatingUnbondingRecord_ok.mp hrecord
  split at h
  · cases h
    exact ⟨record,
      { accumulating := haccumulating
        fresh := hfresh
        redemptionRecords := rfl
        records := .inl ⟨rfl, rfl⟩
        frame := rfl }⟩
  · cases h
    exact ⟨record,
      { accumulating := haccumulating
        fresh := hfresh
        redemptionRecords := rfl
        records := .inr ⟨rfl, rfl⟩
        frame := rfl }⟩

/-! ### Confirmations -/

/-- What the confirmation of an undelegation found and leaves. -/
structure ConfirmedUndelegation (accounts : Accounts) (k k' : Keeper) (recordId : ℕ)
    (escrowAccount : String) (record : UnbondingRecord) : Prop where
  escrow : accounts.accAddressFromBech32 k.hostZone.redemptionAddress = .ok escrowAccount
  stored : k.unbondingRecords.get? recordId = some record
  queued : record.status = .unbondingQueue
  delegated : 0 ≤ k.hostZone.delegatedBalance - record.nativeAmount
  /-- The stTokens of the record leave the escrow account. -/
  balance : ∀ a d, k'.bank.balance a d = k.bank.balance a d -
    if a = escrowAccount ∧ d = k.hostZone.stDenom then record.stTokenAmount else 0
  keeper : ∃ txHash time, k' = { k with
    bank := k'.bank
    hostZone := { k.hostZone with
      delegatedBalance := k.hostZone.delegatedBalance - record.nativeAmount }
    unbondingRecords := k.unbondingRecords.set
      { record with
        undelegationTxHash := txHash
        status := .unbondingInProgress
        unbondingCompletionTimeSeconds := time } }

variable {paid' : List Payment} {p : Payment} {r : RedemptionRecord} {txHash : String}
  {id recordId : ℕ}

/-- The stTokens of a queued record are burned. -/
theorem confirmUndelegation_ok {now : ℤ}
    (h : confirmUndelegation accounts k recordId txHash now = .ok k') :
    ∃ escrowAccount record,
      ConfirmedUndelegation accounts k k' recordId escrowAccount record := by
  unfold confirmUndelegation at h
  split at h
  · cases h
  rename_i record hstored
  obtain ⟨_, hqueued, h⟩ := bind_eq_ok.mp h
  obtain ⟨_, _, h⟩ := bind_eq_ok.mp h
  obtain ⟨_, _, h⟩ := bind_eq_ok.mp h
  obtain ⟨_, _, h⟩ := bind_eq_ok.mp h
  dsimp only at h
  split at h
  · cases h
  obtain ⟨_, hdelegated, h⟩ := bind_eq_ok.mp h
  obtain ⟨coin, hcoin, h⟩ := bind_eq_ok.mp h
  obtain ⟨-, rfl⟩ := newCoin_eq_ok.mp hcoin
  obtain ⟨bank, hburn, h⟩ := bind_eq_ok.mp h
  obtain ⟨_, _, h⟩ := bind_eq_ok.mp h
  obtain ⟨escrowAccount, hescrow, hburn⟩ := bind_eq_ok.mp (wrapError_eq_ok.mp hburn)
  obtain ⟨taken, htaken, hburn⟩ := bind_eq_ok.mp hburn
  cases h
  exact ⟨escrowAccount, record,
    { escrow := wrapError_eq_ok.mp hescrow
      stored := hstored
      queued := require_eq_ok.mp hqueued
      delegated := require_eq_ok.mp hdelegated
      balance := Bank.balance_burnFrom (wrapError_eq_ok.mp htaken)
        (wrapError_eq_ok.mp hburn)
      keeper := ⟨txHash, _, rfl⟩ }⟩

/-- An unbonding record after the hourly check. -/
def finishedRecord (now : ℤ) (r : UnbondingRecord) : UnbondingRecord :=
  if r.status = .unbondingInProgress ∧ r.unbondingCompletionTimeSeconds < now then
    { r with status := .unbonded }
  else r

theorem id_finishedRecord (now : ℤ) (r : UnbondingRecord) : (finishedRecord now r).id = r.id := by
  unfold finishedRecord
  split <;> rfl

/-- All records whose time has come are marked. -/
theorem markFinishedUnbondings_eq (k : Keeper) (now : ℤ) :
    k.markFinishedUnbondings now = { k with
      unbondingRecords := k.unbondingRecords.mapValues (finishedRecord now)
        (id_finishedRecord now) } := by
  -- the loop writes the records of a filtered list
  have hloop (l : List UnbondingRecord) (k : Keeper) :
      l.foldl (fun (k : Keeper) r =>
          if r.unbondingCompletionTimeSeconds < now then
            { k with unbondingRecords := k.unbondingRecords.set { r with status := .unbonded } }
          else k) k =
        { k with
          unbondingRecords := (l.filter fun r => r.unbondingCompletionTimeSeconds < now).foldl
            (fun t r => t.set { r with status := .unbonded }) k.unbondingRecords } := by
    induction l generalizing k with
    | nil => rfl
    | cons r l ih =>
      rw [foldl_cons, ih]
      by_cases hnow : r.unbondingCompletionTimeSeconds < now
      · simp [hnow]
      · simp [hnow]
  have hset := KeyedStore.foldl_set_filter (p := fun r : UnbondingRecord =>
      r.status = .unbondingInProgress ∧ r.unbondingCompletionTimeSeconds < now)
    (g := fun r => { r with status := .unbonded }) (fun _ => rfl) k.unbondingRecords
  unfold markFinishedUnbondings
  rw [hloop]
  unfold getAllUnbondingRecordsByStatus
  rw [filter_filter]
  simp only [Bool.and_comm, ← Bool.decide_and]
  exact congrArg (fun t => { k with unbondingRecords := t }) hset

/-- What the confirmation of a sweep found and leaves. -/
structure ConfirmedSweep (accounts : Accounts) (k k' : Keeper) (recordId : ℕ)
    (claimAccount : String) (record : UnbondingRecord) : Prop where
  claim : accounts.accAddressFromBech32 k.hostZone.claimAddress = .ok claimAccount
  stored : k.unbondingRecords.get? recordId = some record
  unbonded : record.status = .unbonded
  positive : 0 < record.nativeAmount
  /-- The claim address holds the tokens of this record. -/
  covered : record.nativeAmount ≤
    k.bank.balance claimAccount k.hostZone.nativeTokenIbcDenom
  keeper : ∃ txHash, k' = { k with
    unbondingRecords := k.unbondingRecords.set
      { record with
        status := .claimable
        unbondedTokenSweepTxHash := txHash } }

/-- An unbonded record becomes claimable. -/
theorem confirmUnbondedTokenSweep_ok
    (h : confirmUnbondedTokenSweep accounts k recordId txHash = .ok k') :
    ∃ claimAccount record, ConfirmedSweep accounts k k' recordId claimAccount record := by
  unfold confirmUnbondedTokenSweep at h
  split at h
  · cases h
  rename_i record hstored
  obtain ⟨_, hunbonded, h⟩ := bind_eq_ok.mp h
  obtain ⟨_, _, h⟩ := bind_eq_ok.mp h
  obtain ⟨_, hpositive, h⟩ := bind_eq_ok.mp h
  obtain ⟨claimAccount, hclaim, h⟩ := bind_eq_ok.mp h
  obtain ⟨_, hcovered, h⟩ := bind_eq_ok.mp h
  cases h
  exact ⟨claimAccount, record,
    { claim := hclaim
      stored := hstored
      unbonded := require_eq_ok.mp hunbonded
      positive := (require_eq_ok.mp hpositive).1
      covered := require_eq_ok.mp hcovered
      keeper := ⟨txHash, rfl⟩ }⟩

/-! ### Payments -/

/-- The key of the redemption record that was paid. -/
def paymentKey (p : Payment) : ℕ ×ₗ List UInt8 :=
  redemptionRecordKey p.unbondingRecordId p.redeemer

/-- The payment is what a redemption record promises. -/
structure Pays (accounts : Accounts) (r : RedemptionRecord) (p : Payment) : Prop where
  record : p.unbondingRecordId = r.unbondingRecordId
  redeemer : p.redeemer = r.redeemer
  account : accounts.accAddressFromBech32 r.redeemer = .ok p.userAddress
  amount : p.amount = r.nativeAmount
  nonneg : 0 ≤ r.nativeAmount

theorem Pays.key (h : Pays accounts r p) : paymentKey p = r.key := by
  unfold paymentKey RedemptionRecord.key
  rw [h.record, h.redeemer]

/-- What an account receives from some payments. -/
def receivedBy (account : String) (paid : List Payment) : ℤ :=
  ((paid.filter fun p => p.userAddress = account).map (·.amount)).sum

/-- The payments move the coins from the claim account to the redeemers, and nothing else. -/
def PaidOut (denom claimAccount : String) (bank bank' : Bank) (paid : List Payment) : Prop :=
  ∀ a d, bank'.balance a d = bank.balance a d -
    (if a = claimAccount ∧ d = denom then (paid.map (·.amount)).sum else 0) +
    if d = denom then receivedBy a paid else 0

private theorem PaidOut.nil (denom claimAccount : String) (bank : Bank) :
    PaidOut denom claimAccount bank bank [] := by
  intro a d
  simp [receivedBy]

private theorem PaidOut.concat {denom claimAccount : String} {bank bank₁ bank₂ : Bank}
    {paid : List Payment}
    (h : PaidOut denom claimAccount bank bank₁ paid)
    (hsend : bank₁.sendCoins claimAccount p.userAddress (denom, p.amount) = .ok bank₂) :
    PaidOut denom claimAccount bank bank₂ (paid ++ [p]) := by
  intro a d
  have hreceived : receivedBy a (paid ++ [p]) =
      receivedBy a paid + if a = p.userAddress then p.amount else 0 := by
    unfold receivedBy
    by_cases ha : a = p.userAddress
    · simp [ha]
    · simp [ha, Ne.symm ha]
  rw [Bank.balance_sendCoins hsend, h a d, hreceived, map_append, sum_append]
  simp only [map_cons, map_nil, sum_cons, sum_nil, add_zero]
  by_cases hd : d = denom
  · simp only [hd, and_true, if_true]
    split <;> split <;> omega
  · simp [hd]

private theorem distributeClaim_ok {denom claimAccount : String} {paid : List Payment}
    (hid : r.unbondingRecordId = id)
    (h : distributeClaim accounts denom claimAccount id (k, paid) r = .ok (k', paid')) :
    ∃ p, Pays accounts r p ∧ paid' = paid ++ [p] ∧
      k.bank.sendCoins claimAccount p.userAddress (denom, p.amount) = .ok k'.bank ∧
      k' = { k with
        bank := k'.bank
        redemptionRecords := k.redemptionRecords.delete (paymentKey p) } := by
  obtain ⟨userAddress, haccount, h⟩ := bind_eq_ok.mp h
  obtain ⟨coin, hcoin, h⟩ := bind_eq_ok.mp h
  obtain ⟨hnonneg, rfl⟩ := newCoin_eq_ok.mp hcoin
  obtain ⟨bank, hsent, h⟩ := bind_eq_ok.mp h
  cases h
  exact ⟨⟨id, r.redeemer, userAddress, r.nativeAmount⟩,
    { record := hid.symm
      redeemer := rfl
      account := wrapError_eq_ok.mp haccount
      amount := rfl
      nonneg := hnonneg }, rfl, Bank.safeSendCoins_ok (wrapError_eq_ok.mp hsent), rfl⟩

/-- **Loop lemma**: one payment for each redemption record. -/
theorem foldlM_distributeClaim_ok {denom claimAccount : String} {l : List RedemptionRecord}
    (hl : ∀ r ∈ l, r.unbondingRecordId = id) {paid : List Payment}
    (h : l.foldlM (distributeClaim accounts denom claimAccount id) (k, paid) = .ok (k', paid')) :
    ∃ new, paid' = paid ++ new ∧ Forall₂ (Pays accounts) l new ∧
      (∀ bank, PaidOut denom claimAccount bank k.bank paid →
        PaidOut denom claimAccount bank k'.bank paid') ∧
      k' = { k with
        bank := k'.bank
        redemptionRecords :=
          (new.map paymentKey).foldl (fun t key => t.delete key) k.redemptionRecords } := by
  induction l generalizing k paid with
  | nil =>
    cases h
    exact ⟨[], (append_nil _).symm, .nil, fun _ hpaid => hpaid, rfl⟩
  | cons r l ih =>
    obtain ⟨⟨k₁, paid₁⟩, hone, hrest⟩ := bind_eq_ok.mp h
    obtain ⟨hr, hl⟩ := forall_mem_cons.mp hl
    -- the first record is paid by `p`, the others by `new`
    obtain ⟨p, hpays, rfl, hsent, hkeeper⟩ := distributeClaim_ok hr hone
    obtain ⟨new, rfl, hall, hout, hfinal⟩ := ih hl hrest
    refine ⟨p :: new, by simp, .cons hpays hall, ?_, ?_⟩
    · intro bank hpaid
      exact hout bank (hpaid.concat hsent)
    · rw [hfinal, hkeeper]
      rfl

def claimedRecord (r : UnbondingRecord) : UnbondingRecord := { r with status := .claimed }

/-- The state after the unbonding records of a list were paid out. -/
structure PaidRecords (accounts : Accounts) (denom claimAccount : String) (k k' : Keeper)
    (records : List UnbondingRecord) (paid : List Payment) : Prop where
  /-- Each redemption record of these unbonding records is paid, in order. -/
  pays : Forall₂ (Pays accounts)
    (records.flatMap fun r => k.getRedemptionRecordsFromUnbondingId r.id) paid
  out : PaidOut denom claimAccount k.bank k'.bank paid
  keeper : k' = { k with
    bank := k'.bank
    unbondingRecords :=
      (records.map (·.id)).foldl (fun t id => t.delete id) k.unbondingRecords
    archivedUnbondingRecords :=
      (records.map claimedRecord).foldl (fun t r => t.set r) k.archivedUnbondingRecords
    redemptionRecords :=
      (paid.map paymentKey).foldl (fun t key => t.delete key) k.redemptionRecords }

namespace PaidRecords

variable {denom claimAccount : String} {records : List UnbondingRecord} {paid : List Payment}

theorem nil (k : Keeper) : PaidRecords accounts denom claimAccount k k [] [] where
  pays := .nil
  out := PaidOut.nil denom claimAccount k.bank
  keeper := rfl

variable (h : PaidRecords accounts denom claimAccount k k' records paid)
include h

/-- Every payment is for a redemption of a paid record. -/
theorem exists_of_mem (hp : p ∈ paid) :
    ∃ r ∈ records, ∃ rr ∈ k.getRedemptionRecordsFromUnbondingId r.id, Pays accounts rr p := by
  obtain ⟨hlen, hget⟩ := forall₂_iff_get.mp h.pays
  obtain ⟨i, hi, rfl⟩ := mem_iff_getElem.mp hp
  have hi' := hi
  rw [← hlen] at hi'
  obtain ⟨r, hr, hmem⟩ := mem_flatMap.mp (get_mem _ ⟨i, hi'⟩)
  exact ⟨r, hr, _, hmem, hget i hi' hi⟩

/-- The redemptions of other records stay. -/
theorem redemptions_of_notMem (hid : id ∉ records.map (·.id)) :
    k'.getRedemptionRecordsFromUnbondingId id = k.getRedemptionRecordsFromUnbondingId id := by
  have hstore : k'.redemptionRecords =
      (paid.map paymentKey).foldl (fun t key => t.delete key) k.redemptionRecords := by
    rw [h.keeper]
  unfold getRedemptionRecordsFromUnbondingId
  rw [hstore, KeyedStore.values_foldl_delete, filter_filter]
  apply filter_congr
  intro rr _
  by_cases hrr : rr.unbondingRecordId = id
  · have hnot : rr.key ∉ paid.map paymentKey := by
      intro hmem
      obtain ⟨p, hp, hkey⟩ := mem_map.mp hmem
      obtain ⟨r, hr, rr', hrr', hpays⟩ := h.exists_of_mem hp
      have hsame := redemptionRecordKey_inj.mp hkey
      rw [hpays.record, (mem_getRedemptionRecordsFromUnbondingId.mp hrr').2, hrr] at hsame
      exact hid (mem_map.mpr ⟨r, hr, hsame.1⟩)
    simp [hrr, hnot]
  · simp [hrr]

variable {k₂ : Keeper} {paid₂ : List Payment}

/-- One more record is paid. -/
theorem step {r : UnbondingRecord} (hr : r.id ∉ records.map (·.id))
    (hstep : distributeUnbondingRecord accounts denom claimAccount (k', paid) r =
      .ok (k₂, paid₂)) : PaidRecords accounts denom claimAccount k k₂ (records ++ [r]) paid₂ := by
  obtain ⟨⟨k₁, paid₁⟩, hinner, hstep⟩ := bind_eq_ok.mp hstep
  have hloop := wrapError_eq_ok.mp hinner
  obtain ⟨new, rfl, hall, hout, hkeeper⟩ := foldlM_distributeClaim_ok
    (fun rr hrr => (mem_getRedemptionRecordsFromUnbondingId.mp hrr).2) hloop
  rw [h.redemptions_of_notMem hr] at hall
  cases hstep
  constructor
  · rw [flatMap_append]
    refine rel_append h.pays ?_
    simpa using hall
  · exact hout k.bank h.out
  · rw [archiveUnbondingRecord, hkeeper, h.keeper]
    simp [map_append, foldl_append, claimedRecord]

private theorem foldlM {l : List UnbondingRecord} (hnd : ((records ++ l).map (·.id)).Nodup)
    (hloop : l.foldlM (distributeUnbondingRecord accounts denom claimAccount) (k', paid) =
      .ok (k₂, paid₂)) : PaidRecords accounts denom claimAccount k k₂ (records ++ l) paid₂ := by
  induction l generalizing k' records paid with
  | nil =>
    cases hloop
    rw [append_nil]
    exact h
  | cons r l ih =>
    obtain ⟨⟨k₁, paid₁⟩, hone, hrest⟩ := bind_eq_ok.mp hloop
    have hr : r.id ∉ records.map (·.id) := by
      rw [map_append, nodup_append] at hnd
      intro hmem
      exact hnd.2.2 _ hmem _ mem_cons_self rfl
    rw [append_cons] at hnd ⊢
    exact ih (h.step hr hone) hnd hrest

end PaidRecords

theorem nodup_ids_getAllUnbondingRecordsByStatus (k : Keeper) (status : UnbondingRecordStatus) :
    ((k.getAllUnbondingRecordsByStatus status).map (·.id)).Nodup :=
  k.unbondingRecords.nodup_map_key_values.sublist (filter_sublist.map _)

/-- A distribution pays the claimable records. -/
theorem distributeClaims_ok {paid : List Payment}
    (h : distributeClaims accounts k = .ok (k', paid)) :
    ∃ claimAccount, accounts.accAddressFromBech32 k.hostZone.claimAddress = .ok claimAccount ∧
      PaidRecords accounts k.hostZone.nativeTokenIbcDenom claimAccount k k'
        (k.getAllUnbondingRecordsByStatus .claimable) paid := by
  obtain ⟨hostZone, hzone, h⟩ := bind_eq_ok.mp h
  obtain ⟨rfl, -⟩ := getUnhaltedHostZone_ok hzone
  obtain ⟨claimAccount, hclaim, h⟩ := bind_eq_ok.mp h
  refine ⟨claimAccount, wrapError_eq_ok.mp hclaim, ?_⟩
  exact (PaidRecords.nil k).foldlM (nodup_ids_getAllUnbondingRecordsByStatus k .claimable) h

end Keeper

end Stride.Stakedym
