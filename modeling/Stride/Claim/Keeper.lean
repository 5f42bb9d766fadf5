import Stride.Lib.KVStore
import Stride.Sdk.Bank
import Stride.Sdk.Bech32Encode
import Stride.Sdk.Bytes
import Mathlib.Logic.Function.Basic

/-!
# Claim Keeper

An airdrop of the claim module gives each record a share of the distributor's balance by its
weight, one part for each of three actions. Records are stored under the identifier of the
airdrop followed by the bytes of the account, without anything in between.

Coins are amounts of the claim denom of their airdrop; empty coins are the amount 0.

## Main results

- `setClaimRecord_eq`, `setClaimRecord_ok`: what a write leaves
- `claimCoinsForAction_ok`
-/

/-! ## Vesting accounts -/

namespace Stride.Vesting

/-- Amounts by denom. -/
abbrev Coins := String → ℤ

def coinsOf (denom : String) (amount : ℤ) : Coins := fun d => if d = denom then amount else 0

/-- A grant. Times are in seconds. -/
structure Period where
  startTime : ℤ
  length : ℤ
  amount : Coins
  actionType : ℕ

structure BaseVestingAccount where
  originalVesting : Coins
  delegatedFree : Coins
  delegatedVesting : Coins
  endTime : ℤ

structure StridePeriodicVestingAccount extends BaseVestingAccount where
  vestingPeriods : List Period

def newStridePeriodicVestingAccount (originalVesting : Coins) (periods : List Period) :
    StridePeriodicVestingAccount where
  originalVesting := originalVesting
  delegatedFree := fun _ => 0
  delegatedVesting := fun _ => 0
  endTime := periods.foldl (fun endTime p => max endTime (p.startTime + p.length)) 0
  vestingPeriods := periods

def StridePeriodicVestingAccount.addNewGrant (pva : StridePeriodicVestingAccount)
    (grantedPeriod : Period) : StridePeriodicVestingAccount :=
  { pva with
    vestingPeriods := pva.vestingPeriods ++ [grantedPeriod]
    endTime := max pva.endTime (grantedPeriod.length + grantedPeriod.startTime)
    originalVesting := fun d => pva.originalVesting d + grantedPeriod.amount d }

end Stride.Vesting

namespace Stride.Claim

open Lib Sdk Vesting List

/-! ## Types -/

/-- A time or a duration in nanoseconds. -/
abbrev Time := ℤ

abbrev AccAddress := List ℕ

inductive Action where
  | free
  | liquidStake
  | delegateStake
  deriving DecidableEq

/-- The number of an action, its place among the completed actions. -/
def Action.number : Action → ℕ
  | .free => 0
  | .liquidStake => 1
  | .delegateStake => 2

structure Airdrop where
  airdropIdentifier : String
  chainId : String
  airdropStartTime : Time
  airdropDuration : Time
  claimDenom : String
  distributorAddress : String
  claimedSoFar : ℤ
  autopilotEnabled : Bool
  deriving DecidableEq

structure ClaimRecord where
  airdropIdentifier : String
  address : String
  weight : LegacyDec
  actionCompleted : List Bool
  deriving DecidableEq

/-- `sdk.AccAddressFromBech32`. -/
def accAddress (address : String) : Result AccAddress := accAddressFromBech32 address "stride"

/-- A record in the store: its address belongs to an account. -/
structure StoredRecord where
  record : ClaimRecord
  account : AccAddress
  decoded : accAddress record.address = .ok account

def rawBytes (s : String) : List ℕ := (bytes s).map UInt8.toNat

variable {airdropIdentifier : String}

theorem rawBytes_inj {s t : String} : rawBytes s = rawBytes t ↔ s = t := by
  unfold rawBytes
  rw [(map_injective_iff.mpr fun a b h => UInt8.toNat_inj.mp h).eq_iff, bytes_inj]

/-- `append([]byte(identifier), addr...)`. -/
def claimRecordKey (airdropIdentifier : String) (addr : AccAddress) : List ℕ :=
  rawBytes airdropIdentifier ++ addr

def StoredRecord.key (r : StoredRecord) : List ℕ :=
  claimRecordKey r.record.airdropIdentifier r.account

/-- Accounts that the claim module tells apart. -/
inductive Account where
  | base
  | stridePeriodicVesting (account : StridePeriodicVestingAccount)
  /-- Other types of accounts, and no account. -/
  | other

def Account.canClaim : Account → Bool
  | .other => false
  | _ => true

structure Keeper where
  airdrops : List Airdrop
  claimRecords : KeyedStore StoredRecord.key
  totalWeights : KVStore (List ℕ) LegacyDec
  accounts : AccAddress → Account
  bank : Bank

namespace Keeper

/-! ## Airdrops -/

def getAirdropByIdentifier (k : Keeper) (airdropIdentifier : String) : Option Airdrop :=
  if airdropIdentifier = "" then none
  else k.airdrops.find? fun a => a.airdropIdentifier = airdropIdentifier

def getAirdropByChainId (k : Keeper) (chainId : String) : Option Airdrop :=
  if chainId = "" then none else k.airdrops.find? fun a => a.chainId = chainId

def getAirdropDistributor (k : Keeper) (airdropIdentifier : String) : Result AccAddress :=
  match k.getAirdropByIdentifier airdropIdentifier with
  | none => wrapf .errInvalidAddress "invalid airdrop identifier: GetAirdropDistributor"
  | some airdrop => accAddress airdrop.distributorAddress

def getDistributorAccountBalance (k : Keeper) (airdropIdentifier : String) : Result ℤ :=
  match k.getAirdropByIdentifier airdropIdentifier with
  | none => wrapf .errInvalidAddress "invalid airdrop identifier: GetDistributorAccountBalance"
  | some airdrop => do
    let addr ← k.getAirdropDistributor airdropIdentifier
    return k.bank.balance (convertAndEncode "stride" addr) airdrop.claimDenom

/-- Three months, the initial period. -/
def defaultVestingInitialPeriod : Time := 90 * 24 * 3600 * 10 ^ 9

def isInitialPeriodPassed (k : Keeper) (blockTime : Time) (airdropIdentifier : String) : Bool :=
  match k.getAirdropByIdentifier airdropIdentifier with
  | none => false
  | some airdrop => defaultVestingInitialPeriod ≤ blockTime - airdrop.airdropStartTime

/-- A write to the airdrops with an identifier. -/
def updateAirdrops (k : Keeper) (airdropIdentifier : String) (f : Airdrop → Airdrop) : Keeper :=
  { k with
    airdrops := k.airdrops.map fun a => if a.airdropIdentifier = airdropIdentifier then f a else a }

def incrementClaimedSoFar (k : Keeper) (identifier : String) (amount : ℤ) : Result Keeper := do
  require (0 ≤ amount) .errInvalidAmount "cannot claim negative tokens"
  return k.updateAirdrops identifier fun a => { a with claimedSoFar := a.claimedSoFar + amount }

def resetClaimedSoFar (k : Keeper) (airdropIdentifier : String) : Keeper :=
  k.updateAirdrops airdropIdentifier fun a => { a with claimedSoFar := 0 }

/-! ## Records -/

/-- `GetClaimRecord`. A stored record has an address. -/
def getClaimRecord (k : Keeper) (addr : AccAddress) (airdropIdentifier : String) :
    Option ClaimRecord :=
  (k.claimRecords.get? (claimRecordKey airdropIdentifier addr)).map StoredRecord.record

def setClaimRecord (k : Keeper) (record : ClaimRecord) : Result Keeper :=
  match h : accAddress record.address with
  | .ok account => .ok { k with claimRecords := k.claimRecords.set ⟨record, account, h⟩ }
  | .error e => .error e

def setClaimRecords (k : Keeper) (records : List ClaimRecord) : Result Keeper :=
  records.foldlM setClaimRecord k

def deleteClaimRecord (k : Keeper) (addr : AccAddress) (airdropId : String) : Keeper :=
  { k with claimRecords := k.claimRecords.delete (claimRecordKey airdropId addr) }

/-- What a scan by identifier visits. -/
def scan (k : Keeper) (airdropIdentifier : String) : List StoredRecord :=
  k.claimRecords.values.filter fun r => (rawBytes airdropIdentifier).isPrefixOf r.key

def getClaimRecords (k : Keeper) (airdropIdentifier : String) : List ClaimRecord :=
  (k.scan airdropIdentifier).map StoredRecord.record

def clearInitialClaimables (k : Keeper) (airdropIdentifier : String) : Keeper :=
  { k with
    claimRecords := ((k.scan airdropIdentifier).map StoredRecord.key).foldl
      (fun records key => records.delete key) k.claimRecords }

def getTotalWeight (k : Keeper) (airdropIdentifier : String) : LegacyDec :=
  (k.totalWeights.get? (rawBytes airdropIdentifier)).getD ⟨0⟩

def setTotalWeight (k : Keeper) (totalWeight : LegacyDec) (airdropIdentifier : String) : Keeper :=
  { k with totalWeights := k.totalWeights.set (rawBytes airdropIdentifier) totalWeight }

/-- The sum of the weights of an airdrop's records. -/
def weightOf (k : Keeper) (airdropIdentifier : String) : ℤ :=
  ((k.claimRecords.values.filter fun r => r.record.airdropIdentifier = airdropIdentifier).map
    fun r => r.record.weight.i).sum

/-- `DeleteAirdropAndEpoch`, without the epoch. -/
def deleteAirdropAndEpoch (k : Keeper) (identifier : String) : Keeper :=
  { k with airdrops := k.airdrops.filter fun a => a.airdropIdentifier ≠ identifier }

def endAirdrop (k : Keeper) (airdropIdentifier : String) : Keeper :=
  let k := k.clearInitialClaimables airdropIdentifier
  let k := { k with totalWeights := k.totalWeights.delete (rawBytes airdropIdentifier) }
  k.deleteAirdropAndEpoch airdropIdentifier

def resetClaimStatus (k : Keeper) (blockTime : Time) (airdropIdentifier : String) :
    Result Keeper :=
  if k.isInitialPeriodPassed blockTime airdropIdentifier then do
    let records := (k.getClaimRecords airdropIdentifier).map fun r =>
      { r with actionCompleted := [false, false, false] }
    let k ← k.setClaimRecords records
    return k.resetClaimedSoFar airdropIdentifier
  else .ok k

/-! ## Claims -/

/-- The part of the pool for an action, with two decimals. -/
def percentageForAction : Action → LegacyDec
  | .free => ⟨20 * 10 ^ 16⟩
  | .liquidStake => ⟨60 * 10 ^ 16⟩
  | .delegateStake => ⟨20 * 10 ^ 16⟩

/-- `Int64` of an amount. -/
def int64 (amount : ℤ) : Result ℤ :=
  if -2 ^ 63 ≤ amount ∧ amount < 2 ^ 63 then .ok amount else goPanic "Int64() out of bound"

def readCompleted (actionCompleted : List Bool) (action : Action) : Result Bool :=
  match actionCompleted[action.number]? with
  | some completed => .ok completed
  | none => goPanic "index out of range"

/-- The share of a weight in a pool. -/
def shareOfPool (poolBal : ℤ) (action : Action) (weight totalWeight : LegacyDec) : Result ℤ := do
  let pool ← int64 poolBal
  let share ←
    (((LegacyDec.fromInt pool).mul (percentageForAction action)).mul weight).quo totalWeight
  return share.roundInt

/-- The share of a record, before it is looked at whether the airdrop runs. -/
def claimableShare (k : Keeper) (airdrop : Airdrop) (claimRecord : ClaimRecord) (action : Action)
    (airdropIdentifier : String) : Result ℤ := do
  let balance ← k.getDistributorAccountBalance airdropIdentifier
  let claimableAmount ← shareOfPool (balance + airdrop.claimedSoFar) action claimRecord.weight
    (k.getTotalWeight airdropIdentifier)
  let claimableCoin ← newCoin airdrop.claimDenom claimableAmount
  return claimableCoin.2

/-- The claimable amount of a record whose action counts. -/
def claimableOfRecord (k : Keeper) (blockTime : Time) (claimRecord : ClaimRecord)
    (action : Action) (airdropIdentifier : String) : Result ℤ :=
  match k.getAirdropByIdentifier airdropIdentifier with
  | none => goPanic "invalid memory address or nil pointer dereference"
  | some airdrop =>
    if blockTime < airdrop.airdropStartTime then .ok 0
    else do
      let claimableAmount ← k.claimableShare airdrop claimRecord action airdropIdentifier
      return if airdrop.airdropDuration < blockTime - airdrop.airdropStartTime then 0
        else claimableAmount

def getClaimableAmountForAction (k : Keeper) (blockTime : Time) (addr : AccAddress)
    (action : Action) (airdropIdentifier : String) (includeClaimed : Bool) : Result ℤ :=
  match k.getClaimRecord addr airdropIdentifier with
  | none => .ok 0
  | some claimRecord =>
    if includeClaimed then k.claimableOfRecord blockTime claimRecord action airdropIdentifier
    else do
      -- nothing is claimable for an action that was completed
      if ← readCompleted claimRecord.actionCompleted action then return 0
      else k.claimableOfRecord blockTime claimRecord action airdropIdentifier

/-- `GetAirdropDurationForAction`, in seconds. -/
def getAirdropDurationForAction : Action → ℤ
  | .free => 0
  | .liquidStake => 90 * 24 * 3600
  | .delegateStake => 90 * 24 * 3600

/-- Claims within the initial period vest. -/
def grantVesting (account : Account) (blockTime : Time) (action : Action) (claimable : Coins) :
    Account :=
  let period : Period :=
    { startTime := blockTime / 10 ^ 9
      length := getAirdropDurationForAction action
      amount := claimable
      actionType := action.number }
  match account with
  | .stridePeriodicVesting vesting => .stridePeriodicVesting (vesting.addNewGrant period)
  | _ => .stridePeriodicVesting (newStridePeriodicVestingAccount claimable [period])

/-- The payment of `ClaimCoinsForAction`. -/
def payClaim (blockedAddr : String → Bool) (k : Keeper) (blockTime : Time) (addr : AccAddress)
    (action : Action) (airdrop : Airdrop) (claimRecord : ClaimRecord) (airdropIdentifier : String)
    (claimableAmount : ℤ) : Result Keeper := do
  require ((k.accounts addr).canClaim) .errInvalidAccount "Account"
  -- claims do not vest after the initial period
  let accounts := if k.isInitialPeriodPassed blockTime airdropIdentifier then k.accounts else
    Function.update k.accounts addr
      (grantVesting (k.accounts addr) blockTime action (coinsOf airdrop.claimDenom claimableAmount))
  let distributor ← k.getAirdropDistributor airdropIdentifier
  let bank ← k.bank.safeSendCoins blockedAddr true (convertAndEncode "stride" distributor)
    (convertAndEncode "stride" addr) (airdrop.claimDenom, claimableAmount)
  let k ← ({ k with accounts := accounts, bank := bank } : Keeper).setClaimRecord
    { claimRecord with actionCompleted := claimRecord.actionCompleted.set action.number true }
  k.incrementClaimedSoFar airdropIdentifier claimableAmount

/-- `ClaimCoinsForAction`, with the amount that is paid. -/
def claimCoinsForAction (blockedAddr : String → Bool) (k : Keeper) (blockTime : Time)
    (addr : AccAddress) (action : Action) (airdropIdentifier : String) : Result (Keeper × ℤ) := do
  require (airdropIdentifier ≠ "") .errInvalidRequest
    "invalid airdrop identifier: ClaimCoinsForAction"
  let claimableAmount ← k.getClaimableAmountForAction blockTime addr action airdropIdentifier false
  if claimableAmount = 0 then return (k, 0)
  else
    match k.getClaimRecord addr airdropIdentifier, k.getAirdropByIdentifier airdropIdentifier with
    | some claimRecord, some airdrop => do
      let k ← k.payClaim blockedAddr blockTime addr action airdrop claimRecord airdropIdentifier
        claimableAmount
      return (k, claimableAmount)
    | _, _ => wrapf .errInvalidRequest "invalid airdrop identifier: ClaimCoinsForAction"

/-! ## Messages -/

def findClaimRecord (k : Keeper) (address airdropId : String) : Result (AccAddress × ClaimRecord) :=
  let notFound := wrapf .errClaimNotFound
    s!"error getting claim record for address {address} on airdrop {airdropId}"
  match accAddress address with
  | .error _ => notFound
  | .ok addr =>
    match k.getClaimRecord addr airdropId with
    | none => notFound
    | some claimRecord => .ok (addr, claimRecord)

def updateAirdropAddress (k : Keeper) (existingStrideAddress newStrideAddress airdropId : String) :
    Result Keeper := do
  require ((k.getAirdropByIdentifier airdropId).isSome) .errAirdropNotFound
    s!"airdrop not found for identifier {airdropId}"
  require ((accAddress newStrideAddress).isOk) .errInvalidAddress
    s!"invalid stride address {newStrideAddress}"
  let (existingAccAddress, claimRecord) ← k.findClaimRecord existingStrideAddress airdropId
  let k ← wrapError (k.setClaimRecord { claimRecord with address := newStrideAddress })
    (s!"error setting claim record from address {existingStrideAddress} to address " ++
      s!"{newStrideAddress} on airdrop {airdropId}")
  return k.deleteClaimRecord existingAccAddress airdropId

structure MsgSetAirdropAllocations where
  allocator : String
  airdropIdentifier : String
  users : List String
  weights : List LegacyDec
  deriving DecidableEq

/-- The checks of `MsgSetAirdropAllocations`. -/
def MsgSetAirdropAllocations.validateBasic (msg : MsgSetAirdropAllocations) : Result Unit := do
  require ((accAddress msg.allocator).isOk) .errInvalidAddress "invalid allocator address"
  require (msg.airdropIdentifier ≠ "") .errInvalidRequest "airdrop identifier not set"
  require (msg.users ≠ []) .errInvalidRequest "empty users list"
  require (msg.weights ≠ []) .errInvalidRequest "empty weights list"
  require (msg.users.length = msg.weights.length) .errInvalidRequest "different length"
  require (∀ user ∈ msg.users, convertAddressToStrideAddress user ≠ "") .errInvalidAddress
    "invalid bech32 address"
  require (∀ user ∈ msg.users, (accAddress (convertAddressToStrideAddress user)).isOk)
    .errInvalidAddress "invalid user address"
  require (∀ weight ∈ msg.weights, weight ≠ ⟨0⟩) .errInvalidRequest "invalid user weight"

/-- `GetUnallocatedUsers`: the users without a record, with their weights. An address that does
    not decode stands for the empty account. -/
def getUnallocatedUsers (k : Keeper) (identifier : String) (users : List (String × LegacyDec)) :
    List (String × LegacyDec) :=
  users.filter fun (user, _) =>
    let addr := (accAddress (convertAddressToStrideAddress user)).toOption.getD []
    (k.claimRecords.get? (claimRecordKey identifier addr)).isNone

def setAirdropAllocations (k : Keeper) (msg : MsgSetAirdropAllocations) : Result Keeper := do
  let totalWeight := k.getTotalWeight msg.airdropIdentifier
  let airdropDistributor ← k.getAirdropDistributor msg.airdropIdentifier
  let addr ← accAddress msg.allocator
  require (addr = airdropDistributor) .errInvalidAddress "invalid distributor address"
  let users := k.getUnallocatedUsers msg.airdropIdentifier (msg.users.zip msg.weights)
  let records := users.map fun (user, weight) =>
    { airdropIdentifier := msg.airdropIdentifier
      address := user
      weight := weight
      actionCompleted := [false, false, false] }
  let totalWeight := users.foldl (fun total (_, weight) => total.add weight) totalWeight
  (k.setTotalWeight totalWeight msg.airdropIdentifier).setClaimRecords records

/-! ## Outcomes -/

variable {k k' : Keeper} {record : ClaimRecord}

theorem setClaimRecord_eq {account : AccAddress} (h : accAddress record.address = .ok account) :
    k.setClaimRecord record =
      .ok { k with claimRecords := k.claimRecords.set ⟨record, account, h⟩ } := by
  unfold setClaimRecord
  split
  · rename_i account' h'
    have hsame : account' = account := by
      rw [h] at h'
      exact (Except.ok.inj h').symm
    subst hsame
    rfl
  · rename_i e h'
    rw [h] at h'
    cases h'

/-- The record is written under the account of its address. -/
theorem setClaimRecord_ok (h : k.setClaimRecord record = .ok k') :
    ∃ stored : StoredRecord, stored.record = record ∧
      k' = { k with claimRecords := k.claimRecords.set stored } := by
  unfold setClaimRecord at h
  split at h
  · cases h
    exact ⟨_, rfl, rfl⟩
  · cases h

variable {f : Airdrop → Airdrop}

theorem getAirdropByIdentifier_updateAirdrops
    (hf : ∀ a, (f a).airdropIdentifier = a.airdropIdentifier) :
    (k.updateAirdrops airdropIdentifier f).getAirdropByIdentifier airdropIdentifier =
      (k.getAirdropByIdentifier airdropIdentifier).map f := by
  unfold getAirdropByIdentifier updateAirdrops
  split
  · rfl
  · induction k.airdrops with
    | nil => rfl
    | cons a l ih =>
      by_cases ha : a.airdropIdentifier = airdropIdentifier
      · simp [ha, hf]
      · simp [ha, ih]

theorem getAirdropByIdentifier_updateAirdrops_of_ne {other : String}
    (hf : ∀ a, (f a).airdropIdentifier = a.airdropIdentifier) (hne : airdropIdentifier ≠ other) :
    (k.updateAirdrops other f).getAirdropByIdentifier airdropIdentifier =
      k.getAirdropByIdentifier airdropIdentifier := by
  unfold getAirdropByIdentifier updateAirdrops
  split
  · rfl
  · induction k.airdrops with
    | nil => rfl
    | cons a l ih =>
      by_cases ha : a.airdropIdentifier = other
      · have hskip : ¬ other = airdropIdentifier := fun h => hne h.symm
        simp [ha, hf, hskip, ih]
      · by_cases hown : a.airdropIdentifier = airdropIdentifier
        · simp [hown, hne]
        · simp [ha, hown, ih]

theorem getTotalWeight_congr (h : k'.totalWeights = k.totalWeights) :
    k'.getTotalWeight airdropIdentifier = k.getTotalWeight airdropIdentifier := by
  unfold getTotalWeight
  rw [h]

/-- A claim that is paid: the record `old` of the user becomes `new`. -/
structure PaidClaim (k k' : Keeper) (blockTime : Time) (addr : AccAddress) (action : Action)
    (airdropIdentifier : String) (amount : ℤ) (airdrop : Airdrop) (distributor : AccAddress)
    (old new : StoredRecord) : Prop where
  airdrop_eq : k.getAirdropByIdentifier airdropIdentifier = some airdrop
  distributor_eq : accAddress airdrop.distributorAddress = .ok distributor
  old_eq : k.claimRecords.get? (claimRecordKey airdropIdentifier addr) = some old
  /-- the action was not completed -/
  fresh : old.record.actionCompleted[action.number]? = some false
  amount_eq : k.claimableOfRecord blockTime old.record action airdropIdentifier = .ok amount
  amount_ne : amount ≠ 0
  new_eq : new.record =
    { old.record with actionCompleted := old.record.actionCompleted.set action.number true }
  key_eq : new.key = claimRecordKey airdropIdentifier addr
  /-- the distributor pays the user -/
  sent : k.bank.sendCoins (convertAndEncode "stride" distributor) (convertAndEncode "stride" addr)
    (airdrop.claimDenom, amount) = .ok k'.bank
  records_eq : k'.claimRecords = k.claimRecords.set new
  airdrops_eq : k'.airdrops = (k.updateAirdrops airdropIdentifier fun a =>
    { a with claimedSoFar := a.claimedSoFar + amount }).airdrops
  totalWeights_eq : k'.totalWeights = k.totalWeights

variable {blockedAddr : String → Bool} {blockTime : Time} {addr : AccAddress} {action : Action}
  {amount : ℤ}

/-- An amount other than 0 is the share of the record. -/
theorem claimableOfRecord_ok (hne : amount ≠ 0)
    (h : k.claimableOfRecord blockTime record action airdropIdentifier = .ok amount) :
    ∃ airdrop, k.getAirdropByIdentifier airdropIdentifier = some airdrop ∧
      k.claimableShare airdrop record action airdropIdentifier = .ok amount := by
  unfold claimableOfRecord at h
  split at h
  · cases h
  rename_i airdrop hairdrop
  split at h
  · exact absurd (Except.ok.inj h).symm hne
  · obtain ⟨share, hshare, h⟩ := bind_eq_ok.mp h
    have hamount := Except.ok.inj h
    -- after the end of the airdrop the share is not paid
    split at hamount
    · exact absurd hamount.symm hne
    · subst hamount
      exact ⟨airdrop, hairdrop, hshare⟩

/-- The claimable amount is a share of the pool. -/
theorem claimableShare_ok {airdrop : Airdrop}
    (hairdrop : k.getAirdropByIdentifier airdropIdentifier = some airdrop)
    (h : k.claimableShare airdrop record action airdropIdentifier = .ok amount) :
    ∃ distributor, accAddress airdrop.distributorAddress = .ok distributor ∧
      shareOfPool (k.bank.balance (convertAndEncode "stride" distributor) airdrop.claimDenom +
        airdrop.claimedSoFar) action record.weight (k.getTotalWeight airdropIdentifier) =
        .ok amount := by
  unfold claimableShare getDistributorAccountBalance getAirdropDistributor at h
  rw [hairdrop] at h
  obtain ⟨balance, hbalance, h⟩ := bind_eq_ok.mp h
  obtain ⟨distributor, hdistributor, hbalance⟩ := bind_eq_ok.mp hbalance
  cases hbalance
  obtain ⟨share, hshare, h⟩ := bind_eq_ok.mp h
  obtain ⟨coin, hcoin, h⟩ := bind_eq_ok.mp h
  obtain ⟨-, rfl⟩ := newCoin_eq_ok.mp hcoin
  cases h
  exact ⟨distributor, hdistributor, hshare⟩

private theorem getClaimableAmountForAction_ok (hne : amount ≠ 0)
    (h : k.getClaimableAmountForAction blockTime addr action airdropIdentifier false = .ok amount) :
    ∃ old, k.claimRecords.get? (claimRecordKey airdropIdentifier addr) = some old ∧
      old.record.actionCompleted[action.number]? = some false ∧
      k.claimableOfRecord blockTime old.record action airdropIdentifier = .ok amount := by
  unfold getClaimableAmountForAction getClaimRecord at h
  cases hget : k.claimRecords.get? (claimRecordKey airdropIdentifier addr) with
  | none =>
    rw [hget] at h
    exact absurd (Except.ok.inj h).symm hne
  | some old =>
    rw [hget] at h
    obtain ⟨completed, hcompleted, h⟩ := bind_eq_ok.mp h
    -- a completed action gives nothing
    cases completed with
    | true => exact absurd (Except.ok.inj h).symm hne
    | false =>
      refine ⟨old, rfl, ?_, h⟩
      unfold readCompleted at hcompleted
      split at hcompleted
      · rename_i completed hread
        rw [hread]
        exact congrArg some (Except.ok.inj hcompleted)
      · cases hcompleted

/-- **A claim that goes through** is for nothing, or it is paid. -/
theorem claimCoinsForAction_ok
    (h : k.claimCoinsForAction blockedAddr blockTime addr action airdropIdentifier =
      .ok (k', amount)) :
    (amount = 0 ∧ k' = k) ∨ ∃ airdrop distributor old new,
      PaidClaim k k' blockTime addr action airdropIdentifier amount
        airdrop distributor old new := by
  obtain ⟨_, -, h⟩ := bind_eq_ok.mp h
  obtain ⟨claimable, hclaimable, h⟩ := bind_eq_ok.mp h
  split at h
  · -- nothing is claimable
    cases h
    exact .inl ⟨rfl, rfl⟩
  · rename_i hne
    obtain ⟨old, hold, hfresh, hrecord⟩ := getClaimableAmountForAction_ok hne hclaimable
    obtain ⟨airdrop, hairdrop, -⟩ := claimableOfRecord_ok hne hrecord
    unfold getClaimRecord at h
    rw [hold, hairdrop] at h
    obtain ⟨paid, hpay, h⟩ := bind_eq_ok.mp h
    cases h
    obtain ⟨_, -, hpay⟩ := bind_eq_ok.mp hpay
    obtain ⟨distributor, hdistributor, hpay⟩ := bind_eq_ok.mp hpay
    obtain ⟨bank, hsend, hpay⟩ := bind_eq_ok.mp hpay
    obtain ⟨written, hset, hpay⟩ := bind_eq_ok.mp hpay
    obtain ⟨_, -, hpay⟩ := bind_eq_ok.mp hpay
    cases hpay
    obtain ⟨new, hnew, rfl⟩ := setClaimRecord_ok hset
    unfold getAirdropDistributor at hdistributor
    rw [hairdrop] at hdistributor
    -- the record is written back under its own key
    have hkey : new.key = claimRecordKey airdropIdentifier addr := by
      rw [← KeyedStore.key_of_get? hold]
      have haccount : accAddress new.record.address = .ok old.account := by
        rw [hnew]
        exact old.decoded
      have hsame : new.account = old.account :=
        Except.ok.inj (new.decoded.symm.trans haccount)
      unfold StoredRecord.key
      rw [hsame, hnew]
    exact .inr ⟨airdrop, distributor, old, new, hairdrop, hdistributor, hold, hfresh, hrecord, hne,
      hnew, hkey, Bank.safeSendCoins_ok hsend, rfl, rfl, rfl⟩

end Keeper

end Stride.Claim
