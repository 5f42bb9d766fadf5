import Stride.Sdk.Bytes
import Stride.Stakeibc.LiquidStake
import Mathlib.Data.Prod.Lex

/-!
# Stakedym Keeper

The stakedym module stakes for a single host zone. Operators move the tokens by hand on the
host; the module keeps the records of deposits on their way out (delegation records), of
unbondings, and of the shares of the redeemers in each unbonding (redemption records).

Ids are encoded with a fixed length, so that the keys of a store are ordered like the ids.
-/

namespace Stride.Stakedym

open Lib Sdk
open Stride.Stakeibc (isIBCToken stAssetDenomFromHostZoneDenom)

/-! ## Types -/

/-- In the order of the life of a record. -/
inductive UnbondingRecordStatus where
  | accumulatingRedemptions
  | unbondingQueue
  | unbondingInProgress
  | unbonded
  | claimable
  | claimed
  deriving DecidableEq

structure UnbondingRecord where
  id : ℕ
  status : UnbondingRecordStatus
  stTokenAmount : ℤ
  nativeAmount : ℤ
  unbondingCompletionTimeSeconds : ℤ := 0
  undelegationTxHash : String := ""
  unbondedTokenSweepTxHash : String := ""
  deriving DecidableEq

/-- `RedemptionRecord`: the part of one redeemer in an unbonding record. -/
structure RedemptionRecord where
  unbondingRecordId : ℕ
  redeemer : String
  nativeAmount : ℤ
  stTokenAmount : ℤ
  deriving DecidableEq

/-- `RedemptionRecordKey`: the id, which has a fixed length, and the bytes of the address. -/
def redemptionRecordKey (unbondingRecordId : ℕ) (redeemerAddress : String) :
    ℕ ×ₗ List UInt8 :=
  toLex (unbondingRecordId, bytes redeemerAddress)

variable {id : ℕ}

theorem redemptionRecordKey_inj {id' : ℕ} {a a' : String} :
    redemptionRecordKey id a = redemptionRecordKey id' a' ↔ id = id' ∧ a = a' := by
  simp [redemptionRecordKey]

def RedemptionRecord.key (r : RedemptionRecord) : ℕ ×ₗ List UInt8 :=
  redemptionRecordKey r.unbondingRecordId r.redeemer

inductive DelegationRecordStatus where
  | transferInProgress
  | delegationQueue
  | transferFailed
  | delegationComplete
  deriving DecidableEq

structure DelegationRecord where
  id : ℕ
  nativeAmount : ℤ
  status : DelegationRecordStatus
  txHash : String := ""
  deriving DecidableEq

/-- `TransferInProgressRecordKey`: the channel id is copied into a buffer of 16 bytes. -/
def transferInProgressRecordKey (channelId : String) (sequence : ℕ) : List UInt8 ×ₗ ℕ :=
  toLex ((bytes channelId ++ List.replicate 16 0).take 16, sequence)

/-- `HostZone`. That the denom of the native token on Stride is an IBC denom is checked when
    the zone is set up, and no message changes it. -/
structure HostZone where
  chainId : String
  nativeTokenDenom : String
  nativeTokenIbcDenom : String
  transferChannelId : String
  delegationAddress : String
  depositAddress : String
  redemptionAddress : String
  claimAddress : String
  operatorAddressOnStride : String
  safeAddressOnStride : String
  redemptionRate : LegacyDec
  lastRedemptionRate : LegacyDec
  minRedemptionRate : LegacyDec
  maxRedemptionRate : LegacyDec
  minInnerRedemptionRate : LegacyDec
  maxInnerRedemptionRate : LegacyDec
  delegatedBalance : ℤ
  unbondingPeriodSeconds : ℤ
  halted : Bool
  ibcToken : isIBCToken nativeTokenIbcDenom = true

/-- The part of a zone that no message changes and the other modules are called with. -/
structure ZoneSetup where
  nativeTokenDenom : String
  nativeTokenIbcDenom : String
  transferChannelId : String
  depositAddress : String
  redemptionAddress : String
  claimAddress : String

namespace HostZone

def setup (hostZone : HostZone) : ZoneSetup where
  nativeTokenDenom := hostZone.nativeTokenDenom
  nativeTokenIbcDenom := hostZone.nativeTokenIbcDenom
  transferChannelId := hostZone.transferChannelId
  depositAddress := hostZone.depositAddress
  redemptionAddress := hostZone.redemptionAddress
  claimAddress := hostZone.claimAddress

def stDenom (hostZone : HostZone) : String :=
  stAssetDenomFromHostZoneDenom hostZone.nativeTokenDenom

theorem stDenom_ne_ibcDenom (hostZone : HostZone) :
    hostZone.stDenom ≠ hostZone.nativeTokenIbcDenom := by
  intro heq
  have hibc := hostZone.ibcToken
  rw [← heq] at hibc
  simp [stDenom, stAssetDenomFromHostZoneDenom, isIBCToken] at hibc

end HostZone

/-! ## Stores -/

abbrev UnbondingRecordStore := KeyedStore UnbondingRecord.id

abbrev RedemptionRecordStore := KeyedStore RedemptionRecord.key

abbrev DelegationRecordStore := KeyedStore DelegationRecord.id

/-- The stores of the module and the bank. -/
structure Keeper where
  hostZone : HostZone
  unbondingRecords : UnbondingRecordStore
  archivedUnbondingRecords : UnbondingRecordStore
  redemptionRecords : RedemptionRecordStore
  delegationRecords : DelegationRecordStore
  archivedDelegationRecords : DelegationRecordStore
  transferInProgress : KVStore (List UInt8 ×ₗ ℕ) ℕ
  bank : Bank

/-- What the module is told about addresses: the account that an address names, and the
    accounts that may not receive coins. -/
structure Accounts where
  accAddressFromBech32 : String → Result String
  blockedAddr : String → Bool

/-- The account of the module, under the name of the module. -/
def moduleName : String := "stakedym"

namespace Keeper

/-! ### Unbonding records -/

def archiveUnbondingRecord (k : Keeper) (r : UnbondingRecord) : Keeper :=
  { k with
    unbondingRecords := k.unbondingRecords.delete r.id
    archivedUnbondingRecords := k.archivedUnbondingRecords.set r }

def getAllUnbondingRecordsByStatus (k : Keeper) (status : UnbondingRecordStatus) :
    List UnbondingRecord :=
  k.unbondingRecords.values.filter fun r => r.status = status

def getAccumulatingUnbondingRecord (k : Keeper) : Result UnbondingRecord :=
  match k.getAllUnbondingRecordsByStatus .accumulatingRedemptions with
  | [] => wrapf .errBrokenUnbondingRecordInvariant "no unbonding record in status ACCUMULATING"
  | [r] => .ok r
  | _ => wrapf .errBrokenUnbondingRecordInvariant "more than one record in status ACCUMULATING"

def safelySetUnbondingRecord (k : Keeper) (r : UnbondingRecord) : Result Keeper :=
  match k.unbondingRecords.get? r.id with
  | some _ =>
    wrapf .errUnbondingRecordAlreadyExists s!"unbonding record already exists for ID {r.id}"
  | none => .ok { k with unbondingRecords := k.unbondingRecords.set r }

/-! ### Redemption records -/

def getRedemptionRecord (k : Keeper) (unbondingRecordId : ℕ) (address : String) :
    Option RedemptionRecord :=
  k.redemptionRecords.get? (redemptionRecordKey unbondingRecordId address)

def removeRedemptionRecord (k : Keeper) (unbondingRecordId : ℕ) (address : String) : Keeper :=
  { k with
    redemptionRecords := k.redemptionRecords.delete
      (redemptionRecordKey unbondingRecordId address) }

/-- `GetRedemptionRecordsFromUnbondingId`: the scan over the keys that start with the id. -/
def getRedemptionRecordsFromUnbondingId (k : Keeper) (unbondingRecordId : ℕ) :
    List RedemptionRecord :=
  k.redemptionRecords.values.filter fun r => r.unbondingRecordId = unbondingRecordId

/-! ### Delegation records -/

def archiveDelegationRecord (k : Keeper) (r : DelegationRecord) : Keeper :=
  { k with
    delegationRecords := k.delegationRecords.delete r.id
    archivedDelegationRecords := k.archivedDelegationRecords.set r }

def getAllActiveDelegationRecords (k : Keeper) : List DelegationRecord :=
  k.delegationRecords.values.filter fun r =>
    r.status = .transferInProgress ∨ r.status = .delegationQueue

def safelySetDelegationRecord (k : Keeper) (r : DelegationRecord) : Result Keeper :=
  match k.delegationRecords.get? r.id with
  | some _ =>
    wrapf .errDelegationRecordAlreadyExists s!"delegation record already exists for ID {r.id}"
  | none => .ok { k with delegationRecords := k.delegationRecords.set r }

/-! ### The host zone -/

def getUnhaltedHostZone (k : Keeper) : Result HostZone :=
  if k.hostZone.halted then
    wrapf .errHostZoneHalted s!"host zone {k.hostZone.chainId} is halted"
  else .ok k.hostZone

/-- `ValidateRedemptionRateBoundsInitalized`. The bounds are never nil here. -/
def validateRedemptionRateBoundsInitalized (hostZone : HostZone) : Result Unit := do
  require (0 < hostZone.minRedemptionRate.i) .errInvalidRedemptionRateBounds
    "min outer redemption rate bound not set"
  require (0 < hostZone.maxRedemptionRate.i) .errInvalidRedemptionRateBounds
    "max outer redemption rate bound not set"
  require (0 < hostZone.minInnerRedemptionRate.i) .errInvalidRedemptionRateBounds
    "min inner redemption rate bound not set"
  require (0 < hostZone.maxInnerRedemptionRate.i) .errInvalidRedemptionRateBounds
    "max inner redemption rate bound not set"
  require (hostZone.minRedemptionRate.i ≤ hostZone.minInnerRedemptionRate.i)
    .errInvalidRedemptionRateBounds "min inner redemption rate bound outside of min outer bound"
  require (hostZone.maxInnerRedemptionRate.i ≤ hostZone.maxRedemptionRate.i)
    .errInvalidRedemptionRateBounds "max inner redemption rate bound outside of max outer bound"
  require (hostZone.minInnerRedemptionRate.i ≤ hostZone.maxInnerRedemptionRate.i)
    .errInvalidRedemptionRateBounds "min inner redemption rate greater than max inner bound"

def checkRedemptionRateExceedsBounds (hostZone : HostZone) : Result Unit := do
  let redemptionRate := hostZone.redemptionRate.i
  validateRedemptionRateBoundsInitalized hostZone
  require (hostZone.minRedemptionRate.i ≤ redemptionRate ∧
      redemptionRate ≤ hostZone.maxRedemptionRate.i)
    .errRedemptionRateOutsideSafetyBounds "redemption rate outside outer safety bounds"
  require (hostZone.minInnerRedemptionRate.i ≤ redemptionRate ∧
      redemptionRate ≤ hostZone.maxInnerRedemptionRate.i)
    .errRedemptionRateOutsideSafetyBounds "redemption rate outside inner safety bounds"

def checkIsSafeOrOperatorAddress (hostZone : HostZone) (address : String) : Result Unit :=
  require (address = hostZone.safeAddressOnStride ∨ address = hostZone.operatorAddressOnStride)
    .errInvalidAdmin s!"invalid admin address {address}"

def checkIsSafeAddress (hostZone : HostZone) (address : String) : Result Unit :=
  require (address = hostZone.safeAddressOnStride) .errInvalidAdmin
    s!"invalid safe address {address}"

/-! ## Outcomes -/

variable {k : Keeper}

theorem getUnhaltedHostZone_ok {hostZone : HostZone} (h : k.getUnhaltedHostZone = .ok hostZone) :
    hostZone = k.hostZone ∧ k.hostZone.halted = false := by
  unfold getUnhaltedHostZone at h
  split at h
  · cases h
  rename_i hhalted
  cases h
  exact ⟨rfl, by simpa using hhalted⟩

variable {k' : Keeper} {r : UnbondingRecord}

/-- The accumulating record is stored, and the only one. -/
theorem getAccumulatingUnbondingRecord_ok :
    k.getAccumulatingUnbondingRecord = .ok r ↔
      k.getAllUnbondingRecordsByStatus .accumulatingRedemptions = [r] := by
  unfold getAccumulatingUnbondingRecord
  split
  · rename_i heq
    simp [heq, wrapf]
  · rename_i r' heq
    simp [heq]
  · rename_i hnil hone
    simp only [wrapf, reduceCtorEq, false_iff]
    exact hone r

theorem mem_getAllUnbondingRecordsByStatus {status : UnbondingRecordStatus} :
    r ∈ k.getAllUnbondingRecordsByStatus status ↔
      k.unbondingRecords.get? r.id = some r ∧ r.status = status := by
  unfold getAllUnbondingRecordsByStatus
  rw [List.mem_filter, KeyedStore.mem_values_iff]
  simp

theorem mem_getRedemptionRecordsFromUnbondingId {r : RedemptionRecord} :
    r ∈ k.getRedemptionRecordsFromUnbondingId id ↔
      k.redemptionRecords.get? r.key = some r ∧ r.unbondingRecordId = id := by
  unfold getRedemptionRecordsFromUnbondingId
  rw [List.mem_filter, KeyedStore.mem_values_iff]
  simp

theorem ids_of_get?_redemptionRecords {address : String} {r : RedemptionRecord}
    (h : k.redemptionRecords.get? (redemptionRecordKey id address) = some r) :
    r.unbondingRecordId = id ∧ r.redeemer = address := by
  have hkey : r.key = redemptionRecordKey id address := KeyedStore.key_of_get? h
  exact redemptionRecordKey_inj.mp hkey

theorem safelySetUnbondingRecord_ok (h : k.safelySetUnbondingRecord r = .ok k') :
    k.unbondingRecords.get? r.id = none ∧
      k' = { k with unbondingRecords := k.unbondingRecords.set r } := by
  unfold safelySetUnbondingRecord at h
  split at h
  · cases h
  rename_i hnone
  cases h
  exact ⟨hnone, rfl⟩

theorem safelySetDelegationRecord_ok {r : DelegationRecord}
    (h : k.safelySetDelegationRecord r = .ok k') :
    k.delegationRecords.get? r.id = none ∧
      k' = { k with delegationRecords := k.delegationRecords.set r } := by
  unfold safelySetDelegationRecord at h
  split at h
  · cases h
  rename_i hnone
  cases h
  exact ⟨hnone, rfl⟩

end Keeper

/-! ## The default genesis -/

def depositAddress : String := "stride1e7j8d6sdq272fqe2jfxjpgcagn04j75w9695fj"

def redemptionAddress : String := "stride1jpsnc0ynufa2aheflj6mxzzzsu7nlwqk7ff69n"

def claimAddress : String := "stride1q8juddwptg5yxyghh3n243pp4w8ctpvpmf6ras"

def safeAddressOnStride : String := "stride1sj8gyqeqecqhqu7em67hn2tjzhpkdf8wz5plh7"

def operatorAddressOnStride : String := "stride1ghhu67ttgmxrsyxljfl2tysyayswklvxs7pepw"

def dymensionNativeTokenIBCDenom : String :=
  "ibc/E1C22332C083574F3418481359733BA8887D171E76C80AD9237422AEABB66018"

def defaultHostZone : HostZone where
  chainId := "dymension_1100-1"
  nativeTokenDenom := "adym"
  nativeTokenIbcDenom := dymensionNativeTokenIBCDenom
  transferChannelId := "channel-197"
  delegationAddress := "dym1gl9j2hyyukqvlmzzcxl99mqfgu4y4frgzlv3zz"
  depositAddress := depositAddress
  redemptionAddress := redemptionAddress
  claimAddress := claimAddress
  operatorAddressOnStride := operatorAddressOnStride
  safeAddressOnStride := safeAddressOnStride
  redemptionRate := ⟨10 ^ 18⟩
  lastRedemptionRate := ⟨10 ^ 18⟩
  minRedemptionRate := ⟨95 * 10 ^ 16⟩
  maxRedemptionRate := ⟨11 * 10 ^ 17⟩
  minInnerRedemptionRate := ⟨95 * 10 ^ 16⟩
  maxInnerRedemptionRate := ⟨11 * 10 ^ 17⟩
  delegatedBalance := 0
  unbondingPeriodSeconds := 21 * 24 * 60 * 60
  halted := false
  ibcToken := by decide +kernel

/-- `DefaultGenesis`, on a chain with the balances of `bank`. -/
def defaultGenesis (bank : Bank) : Keeper where
  hostZone := defaultHostZone
  unbondingRecords := KeyedStore.empty.set
    { id := 1, status := .accumulatingRedemptions, nativeAmount := 0, stTokenAmount := 0 }
  archivedUnbondingRecords := .empty
  redemptionRecords := .empty
  delegationRecords := .empty
  archivedDelegationRecords := .empty
  transferInProgress := .empty
  bank := bank

end Stride.Stakedym
