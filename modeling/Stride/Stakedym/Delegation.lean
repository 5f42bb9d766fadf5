import Stride.Stakedym.Keeper

/-!
# Delegation

Liquid stakes send native tokens to the deposit account. Once a day the whole balance of that
account is transferred to the host under a new delegation record. The acknowledgement or timeout
of the transfer finds the record through an index by channel and sequence; an operator confirms
the delegation, which adds the amount to the delegated balance.

The transfer module is a parameter: it answers a transfer with the sequence of the packet, or
with an error, in which case the work of the epoch is undone as a whole.
-/

namespace Stride.Stakedym

open Lib Sdk
open Stride.Stakeibc (isIBCToken)

/-! ## Model -/

structure TransferPacket where
  sourceChannel : String
  sequence : ℕ
  sender : String
  receiver : String
  token : String × ℤ
  deriving DecidableEq

namespace Keeper

/-- `LiquidStake`, with the stTokens of the response. -/
def liquidStake (accounts : Accounts) (k : Keeper) (liquidStaker : String) (nativeAmount : ℤ) :
    Result (Keeper × (String × ℤ)) := do
  let hostZone ← k.getUnhaltedHostZone
  let liquidStakerAddress ← wrapError (accounts.accAddressFromBech32 liquidStaker)
    "user's address is invalid"
  let hostZoneDepositAddress ← wrapError (accounts.accAddressFromBech32 hostZone.depositAddress)
    "host zone deposit address is invalid"
  checkRedemptionRateExceedsBounds hostZone
  let nativeToken ← newCoin hostZone.nativeTokenIbcDenom nativeAmount
  require (isIBCToken hostZone.nativeTokenIbcDenom = true) .errInvalidToken
    s!"denom is not an IBC token ({hostZone.nativeTokenIbcDenom})"
  let stTokens ← (LegacyDec.fromInt nativeAmount).quo hostZone.redemptionRate
  let stAmount := stTokens.truncateInt
  require (stAmount ≠ 0) .errInsufficientLiquidStake
    s!"Liquid stake of {nativeAmount}{hostZone.nativeTokenDenom} would return 0 stTokens"
  let bank ← wrapError (k.bank.safeSendCoins accounts.blockedAddr false liquidStakerAddress
      hostZoneDepositAddress nativeToken)
    s!"failed to send tokens from liquid staker {liquidStaker} to deposit address"
  let stToken ← newCoin hostZone.stDenom stAmount
  let bank ← wrapError ((bank.mintCoins moduleName stToken).safeSendCoins accounts.blockedAddr true
      moduleName liquidStakerAddress stToken)
    s!"Failed to send {stToken.2}{stToken.1} from deposit address to liquid staker"
  return ({ k with bank := bank }, stToken)

/-- The transfer of `PrepareDelegation`. -/
def depositTransfer (hostZone : HostZone) (sequence : ℕ) (nativeTokens : String × ℤ) :
    TransferPacket where
  sourceChannel := hostZone.transferChannelId
  sequence := sequence
  sender := hostZone.depositAddress
  receiver := hostZone.delegationAddress
  token := nativeTokens

/-- `PrepareDelegation`, with the transfer that was sent. `reply` is the sequence with which the
    transfer module answers, if it sends the transfer. -/
def prepareDelegation (accounts : Accounts) (k : Keeper) (epochNumber : ℕ) (reply : Option ℕ) :
    Result (Keeper × Option TransferPacket) := do
  let hostZone ← k.getUnhaltedHostZone
  match k.getAllActiveDelegationRecords.find? fun r => r.status = .transferInProgress with
  | some record =>
    wrapf .errInvariantBroken
      s!"cannot prepare delegation while a transfer is in progress, record ID {record.id}"
  | none =>
    let depositAddress ← accounts.accAddressFromBech32 hostZone.depositAddress
    let nativeTokens := k.bank.balance depositAddress hostZone.nativeTokenIbcDenom
    if nativeTokens = 0 then return (k, none)
    else
      let delegationRecord : DelegationRecord :=
        { id := epochNumber, nativeAmount := nativeTokens, status := .transferInProgress }
      let k ← k.safelySetDelegationRecord delegationRecord
      match reply with
      | none => wrapf .plain "failed to submit transfer from deposit to delegation acct"
      | some sequence =>
        return ({ k with
          -- the transfer module takes the coins of the deposit account
          bank := k.bank.addCoins depositAddress (hostZone.nativeTokenIbcDenom, -nativeTokens)
          transferInProgress := k.transferInProgress.set
            (transferInProgressRecordKey hostZone.transferChannelId sequence)
            delegationRecord.id },
          some (depositTransfer hostZone sequence (hostZone.nativeTokenIbcDenom, nativeTokens)))

def confirmDelegation (k : Keeper) (recordId : ℕ) (txHash : String) : Result Keeper :=
  match k.delegationRecords.get? recordId with
  | none => wrapf .errDelegationRecordNotFound s!"delegation record not found for {recordId}"
  | some delegationRecord => do
    require (delegationRecord.status = .delegationQueue) .errDelegationRecordInvalidState
      s!"delegation record {recordId} is not in the correct state"
    require (delegationRecord.txHash = "") .errDelegationRecordInvalidState
      s!"delegation record {recordId} already has a txHash"
    require (0 < delegationRecord.nativeAmount) .errDelegationRecordInvalidState
      s!"delegation record {recordId} has non positive delegation"
    let k := k.archiveDelegationRecord
      { delegationRecord with txHash := txHash, status := .delegationComplete }
    return { k with
      hostZone := { k.hostZone with
        delegatedBalance := k.hostZone.delegatedBalance + delegationRecord.nativeAmount } }

/-! ### Callbacks of transfers -/

def archiveFailedTransferRecord (k : Keeper) (recordId : ℕ) : Result Keeper :=
  match k.delegationRecords.get? recordId with
  | none => wrapf .errDelegationRecordNotFound s!"delegation record not found for {recordId}"
  | some delegationRecord =>
    .ok (k.archiveDelegationRecord { delegationRecord with status := .transferFailed })

def removeTransferInProgressRecordId (k : Keeper) (channelId : String) (sequence : ℕ) : Keeper :=
  { k with
    transferInProgress :=
      k.transferInProgress.delete (transferInProgressRecordKey channelId sequence) }

def onTimeoutPacket (k : Keeper) (channelId : String) (sequence : ℕ) : Result Keeper :=
  match k.transferInProgress.get? (transferInProgressRecordKey channelId sequence) with
  | none => .ok k
  | some recordId => do
    let k ← k.archiveFailedTransferRecord recordId
    return k.removeTransferInProgressRecordId channelId sequence

/-- `OnAcknowledgementPacket`. `ack` is the outcome of `UnpackAcknowledgementResponse`. -/
def onAcknowledgementPacket (k : Keeper) (channelId : String) (sequence : ℕ)
    (ack : Result Bool) : Result Keeper :=
  match k.transferInProgress.get? (transferInProgressRecordKey channelId sequence) with
  | none => .ok k
  | some recordId => do
    let success ← ack
    match k.delegationRecords.get? recordId with
    -- the error that is wrapped here is nil, and a nil error wraps to nil
    | none => return k
    | some record =>
      let k ← if success then
          .ok { k with
            delegationRecords :=
              k.delegationRecords.set { record with status := .delegationQueue } }
        else k.archiveFailedTransferRecord recordId
      return k.removeTransferInProgressRecordId channelId sequence

/-! ### Redemption rate -/

/-- The numerator of the redemption rate: the balance of the deposit account, the amounts of
    the active delegation records and the delegated balance. -/
def nativeTokensLocked (k : Keeper) (depositAccount : String) : ℤ :=
  k.bank.balance depositAccount k.hostZone.nativeTokenIbcDenom +
    (k.getAllActiveDelegationRecords.map (·.nativeAmount)).sum + k.hostZone.delegatedBalance

def updateRedemptionRate (accounts : Accounts) (k : Keeper) : Result Keeper := do
  let hostZone := k.hostZone
  let stTokenSupply := k.bank.supply hostZone.stDenom
  if stTokenSupply = 0 then return k
  else
    let depositAddress ← wrapError (accounts.accAddressFromBech32 hostZone.depositAddress)
      "invalid deposit address"
    require (0 < k.nativeTokensLocked depositAddress) .plain
      "Non-zero stToken supply, yet the zero delegated and undelegated balance"
    let redemptionRate ← (LegacyDec.fromInt (k.nativeTokensLocked depositAddress)).quo
      (LegacyDec.fromInt stTokenSupply)
    return { k with
      hostZone := { hostZone with
        lastRedemptionRate := hostZone.redemptionRate
        redemptionRate := redemptionRate } }

/-! ### Safety and admins -/

/-- `BeginBlocker`: halts the zone when the rate is out of bounds. -/
def beginBlocker (k : Keeper) : Keeper :=
  match checkRedemptionRateExceedsBounds k.hostZone with
  | .ok () => k
  | .error _ => { k with hostZone := { k.hostZone with halted := true } }

def resumeHostZone (k : Keeper) : Result Keeper := do
  require (k.hostZone.halted = true) .errHostZoneNotHalted "zone is not halted"
  return { k with hostZone := { k.hostZone with halted := false } }

def updateInnerRedemptionRateBounds (k : Keeper) (minInnerBound maxInnerBound : LegacyDec) :
    Result Keeper := do
  require (maxInnerBound.i ≤ k.hostZone.maxRedemptionRate.i) .errInvalidRedemptionRateBounds
    "invalid redemption rate bounds"
  require (k.hostZone.minRedemptionRate.i ≤ minInnerBound.i) .errInvalidRedemptionRateBounds
    "invalid redemption rate bounds"
  return { k with
    hostZone := { k.hostZone with
      minInnerRedemptionRate := minInnerBound
      maxInnerRedemptionRate := maxInnerBound } }

/-- `AdjustDelegatedBalance`. The slash record it writes is read by nothing here. -/
def adjustDelegatedBalance (k : Keeper) (delegationOffset : ℤ) : Result Keeper := do
  let delegatedBalance := k.hostZone.delegatedBalance + delegationOffset
  require (0 ≤ delegatedBalance) .errNegativeNotAllowed
    "offset would cause the delegated balance to be negative"
  return { k with hostZone := { k.hostZone with delegatedBalance := delegatedBalance } }

/-! ## Outcomes -/

variable {accounts : Accounts} {k k' : Keeper}

/-- What a liquid stake that goes through found and leaves. -/
structure LiquidStaked (accounts : Accounts) (k k' : Keeper) (liquidStaker : String)
    (amount : ℤ) (staker depositAccount : String) (stAmount : ℤ) : Prop where
  account : accounts.accAddressFromBech32 liquidStaker = .ok staker
  deposit : accounts.accAddressFromBech32 k.hostZone.depositAddress = .ok depositAccount
  nonneg : 0 ≤ amount
  stNonneg : 0 ≤ stAmount
  /-- The native coin goes to the deposit account, and the stTokens are new. -/
  balance : ∀ a d, k'.bank.balance a d = k.bank.balance a d -
      (if a = staker ∧ d = k.hostZone.nativeTokenIbcDenom then amount else 0) +
      (if a = depositAccount ∧ d = k.hostZone.nativeTokenIbcDenom then amount else 0) +
      (if a = staker ∧ d = k.hostZone.stDenom then stAmount else 0)
  keeper : k' = { k with bank := k'.bank }

/-- A stake sends native tokens and mints stTokens. -/
theorem liquidStake_ok {liquidStaker : String} {amount : ℤ} {stToken : String × ℤ}
    (h : liquidStake accounts k liquidStaker amount = .ok (k', stToken)) :
    ∃ staker depositAccount stAmount,
      LiquidStaked accounts k k' liquidStaker amount staker depositAccount stAmount := by
  obtain ⟨hostZone, hzone, h⟩ := bind_eq_ok.mp h
  obtain ⟨rfl, -⟩ := getUnhaltedHostZone_ok hzone
  obtain ⟨staker, hstaker, h⟩ := bind_eq_ok.mp h
  obtain ⟨depositAccount, hdeposit, h⟩ := bind_eq_ok.mp h
  obtain ⟨_, _, h⟩ := bind_eq_ok.mp h
  obtain ⟨nativeToken, hnative, h⟩ := bind_eq_ok.mp h
  obtain ⟨hnonneg, rfl⟩ := newCoin_eq_ok.mp hnative
  obtain ⟨_, _, h⟩ := bind_eq_ok.mp h
  obtain ⟨stTokens, _, h⟩ := bind_eq_ok.mp h
  obtain ⟨_, _, h⟩ := bind_eq_ok.mp h
  obtain ⟨bank₁, hsent, h⟩ := bind_eq_ok.mp h
  obtain ⟨stCoin, hst, h⟩ := bind_eq_ok.mp h
  obtain ⟨hstNonneg, rfl⟩ := newCoin_eq_ok.mp hst
  obtain ⟨bank₂, hminted, h⟩ := bind_eq_ok.mp h
  cases h
  refine ⟨staker, depositAccount, stTokens.truncateInt,
    { account := wrapError_eq_ok.mp hstaker
      deposit := wrapError_eq_ok.mp hdeposit
      nonneg := hnonneg
      stNonneg := hstNonneg
      balance := ?_
      keeper := rfl }⟩
  intro a d
  rw [Bank.balance_mintTo (Bank.safeSendCoins_ok (wrapError_eq_ok.mp hminted)) a d,
    Bank.balance_sendCoins (Bank.safeSendCoins_ok (wrapError_eq_ok.mp hsent)) a d]

/-- What the daily transfer found and leaves, when there is something to transfer. -/
structure PreparedDelegation (accounts : Accounts) (k k' : Keeper) (epochNumber : ℕ)
    (depositAccount : String) (packet : TransferPacket) (amount : ℤ) : Prop where
  idle : ∀ r ∈ k.getAllActiveDelegationRecords, r.status ≠ .transferInProgress
  deposit : accounts.accAddressFromBech32 k.hostZone.depositAddress = .ok depositAccount
  balance : amount = k.bank.balance depositAccount k.hostZone.nativeTokenIbcDenom
  fresh : k.delegationRecords.get? epochNumber = none
  contents : packet = depositTransfer k.hostZone packet.sequence
    (k.hostZone.nativeTokenIbcDenom, amount)
  keeper : k' = { k with
    bank := k.bank.addCoins depositAccount (k.hostZone.nativeTokenIbcDenom, -amount)
    delegationRecords := k.delegationRecords.set
      { id := epochNumber, nativeAmount := amount, status := .transferInProgress }
    transferInProgress := k.transferInProgress.set
      (transferInProgressRecordKey k.hostZone.transferChannelId packet.sequence) epochNumber }

/-- The deposits are sent under a new record. -/
theorem prepareDelegation_ok {epochNumber : ℕ} {reply : Option ℕ}
    {sent : Option TransferPacket}
    (h : prepareDelegation accounts k epochNumber reply = .ok (k', sent)) :
    (k' = k ∧ sent = none) ∨ ∃ depositAccount packet amount,
      reply = some packet.sequence ∧ sent = some packet ∧
      PreparedDelegation accounts k k' epochNumber depositAccount packet amount := by
  obtain ⟨hostZone, hzone, h⟩ := bind_eq_ok.mp h
  obtain ⟨rfl, -⟩ := getUnhaltedHostZone_ok hzone
  split at h
  · cases h
  rename_i hidle
  obtain ⟨depositAccount, hdeposit, h⟩ := bind_eq_ok.mp h
  dsimp only at h
  split at h
  · -- there is nothing to delegate
    cases h
    exact .inl ⟨rfl, rfl⟩
  · obtain ⟨k₁, hset, h⟩ := bind_eq_ok.mp h
    obtain ⟨hfresh, rfl⟩ := safelySetDelegationRecord_ok hset
    split at h
    · cases h
    cases h
    refine .inr ⟨depositAccount, _, _, rfl, rfl,
      { idle := ?_
        deposit := hdeposit
        balance := rfl
        fresh := hfresh
        contents := rfl
        keeper := rfl }⟩
    intro r hr
    simpa using List.find?_eq_none.mp hidle r hr

/-- What the confirmation of a delegation found and leaves. -/
structure ConfirmedDelegation (k k' : Keeper) (recordId : ℕ) (record : DelegationRecord) :
    Prop where
  stored : k.delegationRecords.get? recordId = some record
  queued : record.status = .delegationQueue
  positive : 0 < record.nativeAmount
  keeper : k' = { k with
    delegationRecords := k.delegationRecords.delete record.id
    archivedDelegationRecords := k'.archivedDelegationRecords
    hostZone := { k.hostZone with
      delegatedBalance := k.hostZone.delegatedBalance + record.nativeAmount } }

variable {channelId : String} {recordId sequence : ℕ}

/-- A queued record adds to the delegated balance. -/
theorem confirmDelegation_ok {txHash : String} (h : confirmDelegation k recordId txHash = .ok k') :
    ∃ record, ConfirmedDelegation k k' recordId record := by
  unfold confirmDelegation at h
  split at h
  · cases h
  rename_i record hstored
  obtain ⟨_, hqueued, h⟩ := bind_eq_ok.mp h
  obtain ⟨_, _, h⟩ := bind_eq_ok.mp h
  obtain ⟨_, hpositive, h⟩ := bind_eq_ok.mp h
  cases h
  exact ⟨record,
    { stored := hstored
      queued := require_eq_ok.mp hqueued
      positive := require_eq_ok.mp hpositive
      keeper := rfl }⟩

/-- What the callback of a transfer leaves: nothing changed, or the record of the transfer was
    moved on and the entry of the index removed. -/
inductive TransferSettled (k : Keeper) (channelId : String) (sequence : ℕ) (delivered : Bool)
    (k' : Keeper) : Prop
  | unknown :
      k.transferInProgress.get? (transferInProgressRecordKey channelId sequence) = none →
      k' = k → TransferSettled k channelId sequence delivered k'
  | lost (recordId : ℕ) :
      k.transferInProgress.get? (transferInProgressRecordKey channelId sequence) =
        some recordId →
      k.delegationRecords.get? recordId = none →
      k' = k → TransferSettled k channelId sequence delivered k'
  | queued (recordId : ℕ) (record : DelegationRecord) :
      k.transferInProgress.get? (transferInProgressRecordKey channelId sequence) =
        some recordId →
      k.delegationRecords.get? recordId = some record → delivered = true →
      k' = { k with
        delegationRecords := k.delegationRecords.set { record with status := .delegationQueue }
        transferInProgress :=
          k.transferInProgress.delete (transferInProgressRecordKey channelId sequence) } →
      TransferSettled k channelId sequence delivered k'
  | archived (recordId : ℕ) (record : DelegationRecord) :
      k.transferInProgress.get? (transferInProgressRecordKey channelId sequence) =
        some recordId →
      k.delegationRecords.get? recordId = some record → delivered = false →
      k' = { k with
        delegationRecords := k.delegationRecords.delete record.id
        archivedDelegationRecords := k'.archivedDelegationRecords
        transferInProgress :=
          k.transferInProgress.delete (transferInProgressRecordKey channelId sequence) } →
      TransferSettled k channelId sequence delivered k'

private theorem archiveFailedTransferRecord_ok
    (h : archiveFailedTransferRecord k recordId = .ok k') :
    ∃ record, k.delegationRecords.get? recordId = some record ∧
      k' = k.archiveDelegationRecord { record with status := .transferFailed } := by
  unfold archiveFailedTransferRecord at h
  split at h
  · cases h
  rename_i record hstored
  cases h
  exact ⟨record, hstored, rfl⟩

/-- A timeout settles the transfer as failed. -/
theorem onTimeoutPacket_ok (h : onTimeoutPacket k channelId sequence = .ok k') :
    TransferSettled k channelId sequence false k' := by
  unfold onTimeoutPacket at h
  split at h
  · rename_i hnone
    cases h
    exact .unknown hnone rfl
  · rename_i recordId hindex
    obtain ⟨k₁, harchive, h⟩ := bind_eq_ok.mp h
    obtain ⟨record, hstored, rfl⟩ := archiveFailedTransferRecord_ok harchive
    cases h
    exact .archived recordId record hindex hstored rfl rfl

/-- An acknowledgement settles the transfer, if it is one. -/
theorem onAcknowledgementPacket_ok {ack : Result Bool}
    (h : onAcknowledgementPacket k channelId sequence ack = .ok k') :
    k.transferInProgress.get? (transferInProgressRecordKey channelId sequence) = none ∧ k' = k ∨
      ∃ success, ack = .ok success ∧ TransferSettled k channelId sequence success k' := by
  unfold onAcknowledgementPacket at h
  split at h
  · -- the packet is no transfer of this module
    rename_i hnone
    cases h
    exact .inl ⟨hnone, rfl⟩
  · rename_i recordId hindex
    obtain ⟨success, hack, h⟩ := bind_eq_ok.mp h
    refine .inr ⟨success, hack, ?_⟩
    split at h
    · rename_i hlost
      cases h
      exact .lost recordId hindex hlost rfl
    · rename_i record hstored
      cases success with
      | true =>
        cases h
        exact .queued recordId record hindex hstored rfl rfl
      | false =>
        obtain ⟨k₁, harchive, h⟩ := bind_eq_ok.mp h
        obtain ⟨record', hstored', rfl⟩ := archiveFailedTransferRecord_ok harchive
        cases h
        exact .archived recordId record' hindex hstored' rfl rfl

end Keeper

end Stride.Stakedym
