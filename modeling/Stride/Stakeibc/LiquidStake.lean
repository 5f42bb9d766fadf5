import Stride.Records.DepositRecord
import Stride.Sdk.Bank
import Stride.Stakeibc.ZoneSettings

/-!
# Liquid Staking of Native Tokens

A liquid stake sends native tokens of a user to the deposit account of the zone, mints stTokens
at the redemption rate, and adds the amount to the deposit record of the current epoch.

The addresses of the signer and of the deposit account are given in decoded form, and the hooks
after a liquid stake are not modelled.
-/

namespace Stride.Stakeibc

open Lib Sdk Records

/-! ## Model -/

/-- The account of the module, under the name of the module. -/
def moduleName : String := "stakeibc"

structure MsgLiquidStake where
  creator : String
  amount : ℤ
  hostDenom : String
  deriving DecidableEq

structure LiquidStakeKeeper where
  params : SafetyParams
  hostZones : HostZoneStore
  settings : String → ZoneSettings
  /-- the epoch number of the tracker of the stride epoch, if there is one -/
  strideEpoch : Option ℕ
  depositRecords : DepositRecordStore
  bank : Bank

def getHostZoneFromHostDenom (hostZones : HostZoneStore) (denom : String) : Option HostZone :=
  hostZones.values.find? fun hostZone => hostZone.chainId ≠ "" ∧ hostZone.hostDenom = denom

def isIBCToken (denom : String) : Bool := "ibc/".toList.isPrefixOf denom.toList

/-- The checks of `LiquidStake`, with the zone, the deposit record, the native coin and the
    amount of stTokens. -/
def validateLiquidStake (k : LiquidStakeKeeper) (msg : MsgLiquidStake) :
    Result (HostZone × DepositRecord × (String × ℤ) × ℤ) :=
  match getHostZoneFromHostDenom k.hostZones msg.hostDenom with
  | none => wrapf .errInvalidToken s!"no host zone found for denom ({msg.hostDenom})"
  | some hostZone => do
    let settings := k.settings hostZone.chainId
    require (hostZone.halted = false) .errHaltedHostZone
      s!"halted host zone found for denom ({msg.hostDenom})"
    match isRedemptionRateWithinSafetyBounds k.params settings hostZone.redemptionRate,
        k.strideEpoch with
    | .error err, _ =>
      wrapf .errRedemptionRateOutsideSafetyBounds
        s!"HostZone: {hostZone.chainId}, err: {err.message}"
    | .ok (), none => wrapf .errNotFound "no epoch number for epoch (stride_epoch)"
    | .ok (), some epochNumber =>
      match getTransferDepositRecordByEpochAndChain k.depositRecords epochNumber
          hostZone.chainId with
      | none => wrapf .errNotFound s!"no deposit record for epoch ({epochNumber})"
      | some depositRecord =>
        let nativeCoin ← newCoin settings.ibcDenom msg.amount
        require (isIBCToken settings.ibcDenom = true) .errInvalidToken
          s!"denom is not an IBC token ({settings.ibcDenom})"
        let balance := k.bank.balance msg.creator settings.ibcDenom
        require (msg.amount ≤ balance) .errInsufficientFunds
          s!"balance is lower than staking amount. staking amount: {msg.amount}, balance: {balance}"
        let stTokens ← (LegacyDec.fromInt msg.amount).quo hostZone.redemptionRate
        let stAmount := stTokens.truncateInt
        require (stAmount ≠ 0) .errInsufficientLiquidStake
          s!"Liquid stake of {msg.amount}{hostZone.hostDenom} would return 0 stTokens"
        return (hostZone, depositRecord, nativeCoin, stAmount)

def stakedDeposit (depositRecord : DepositRecord) (amount : ℤ) : DepositRecord :=
  { depositRecord with amount := depositRecord.amount + amount }

/-- `LiquidStake`, with the stTokens of the response. -/
def liquidStake (k : LiquidStakeKeeper) (msg : MsgLiquidStake) :
    Result (LiquidStakeKeeper × (String × ℤ)) := do
  let (hostZone, depositRecord, nativeCoin, stAmount) ← validateLiquidStake k msg
  let bank ← wrapError (k.bank.sendCoins msg.creator
    (k.settings hostZone.chainId).depositAddress nativeCoin)
    "failed to send tokens from Account to Module"
  let stCoin ← newCoin (stAssetDenomFromHostZoneDenom msg.hostDenom) stAmount
  let bank ← wrapError ((bank.mintCoins moduleName stCoin).sendCoins moduleName msg.creator stCoin)
    s!"Failed to send {stCoin.2}{stCoin.1} from module to account"
  return ({ k with
    bank := bank
    depositRecords := k.depositRecords.set (stakedDeposit depositRecord msg.amount) }, stCoin)

/-! ## Outcome -/

/-- What a liquid stake that goes through found and leaves. -/
structure LiquidStaked (k k' : LiquidStakeKeeper) (msg : MsgLiquidStake) (stCoin : String × ℤ)
    (hostZone : HostZone) (depositRecord : DepositRecord) : Prop where
  zone : getHostZoneFromHostDenom k.hostZones msg.hostDenom = some hostZone
  active : hostZone.halted = false
  safe : isRedemptionRateWithinSafetyBounds k.params (k.settings hostZone.chainId)
    hostZone.redemptionRate = .ok ()
  record : k.depositRecords.get? depositRecord.id = some depositRecord
  recordZone : depositRecord.hostZoneId = hostZone.chainId
  recordStatus : depositRecord.status = .transferQueue
  nonneg : 0 ≤ msg.amount
  minted : ∃ stTokens, (LegacyDec.fromInt msg.amount).quo hostZone.redemptionRate = .ok stTokens ∧
    stCoin.2 = stTokens.truncateInt
  /-- The native coin goes to the deposit account, and the stTokens are new. -/
  balance : ∀ a d, k'.bank.balance a d = k.bank.balance a d -
      (if a = msg.creator ∧ d = (k.settings hostZone.chainId).ibcDenom then msg.amount else 0) +
      (if a = (k.settings hostZone.chainId).depositAddress ∧
          d = (k.settings hostZone.chainId).ibcDenom then msg.amount else 0) +
      (if a = msg.creator ∧ d = stCoin.1 then stCoin.2 else 0)
  stNonneg : 0 ≤ stCoin.2
  stDenom : stCoin.1 = stAssetDenomFromHostZoneDenom msg.hostDenom
  keeper : k' = { k with
    bank := k'.bank
    depositRecords := k.depositRecords.set (stakedDeposit depositRecord msg.amount) }

variable {k : LiquidStakeKeeper} {msg : MsgLiquidStake}

private theorem validateLiquidStake_ok {hostZone : HostZone} {depositRecord : DepositRecord}
    {nativeCoin : String × ℤ} {stAmount : ℤ}
    (h : validateLiquidStake k msg = .ok (hostZone, depositRecord, nativeCoin, stAmount)) :
    getHostZoneFromHostDenom k.hostZones msg.hostDenom = some hostZone ∧
      hostZone.halted = false ∧
      isRedemptionRateWithinSafetyBounds k.params (k.settings hostZone.chainId)
        hostZone.redemptionRate = .ok () ∧
      k.depositRecords.get? depositRecord.id = some depositRecord ∧
      depositRecord.hostZoneId = hostZone.chainId ∧ depositRecord.status = .transferQueue ∧
      0 ≤ msg.amount ∧ nativeCoin = ((k.settings hostZone.chainId).ibcDenom, msg.amount) ∧
      ∃ stTokens, (LegacyDec.fromInt msg.amount).quo hostZone.redemptionRate = .ok stTokens ∧
        stAmount = stTokens.truncateInt := by
  unfold validateLiquidStake at h
  split at h
  · cases h
  rename_i z hz
  obtain ⟨_, hhalted, h⟩ := bind_eq_ok.mp h
  split at h
  · cases h
  · cases h
  · rename_i hsafe _
    split at h
    · cases h
    rename_i r hr
    obtain ⟨coin, hcoin, h⟩ := bind_eq_ok.mp h
    obtain ⟨_, -, h⟩ := bind_eq_ok.mp h
    obtain ⟨_, -, h⟩ := bind_eq_ok.mp h
    obtain ⟨stTokens, hquo, h⟩ := bind_eq_ok.mp h
    obtain ⟨_, -, h⟩ := bind_eq_ok.mp h
    cases h
    obtain ⟨hstored, hzone, hstatus⟩ := getTransferDepositRecordByEpochAndChain_eq_some hr
    obtain ⟨hnonneg, hcoin⟩ := newCoin_eq_ok.mp hcoin
    exact ⟨hz, require_eq_ok.mp hhalted, hsafe, hstored, hzone, hstatus, hnonneg, hcoin, stTokens,
      hquo, rfl⟩

/-- **Liquid stake**: the checks have passed, and the coins and the record have moved. -/
theorem liquidStake_ok {k' : LiquidStakeKeeper} {stCoin : String × ℤ}
    (h : liquidStake k msg = .ok (k', stCoin)) :
    ∃ hostZone depositRecord, LiquidStaked k k' msg stCoin hostZone depositRecord := by
  obtain ⟨⟨z, r, nativeCoin, stAmount⟩, hvalid, h⟩ := bind_eq_ok.mp h
  obtain ⟨hz, hhalted, hsafe, hstored, hzone, hstatus, hnonneg, rfl, hminted⟩ :=
    validateLiquidStake_ok hvalid
  obtain ⟨bank, hsend, h⟩ := bind_eq_ok.mp h
  obtain ⟨coin, hcoin, h⟩ := bind_eq_ok.mp h
  obtain ⟨bank', hmint, h⟩ := bind_eq_ok.mp h
  cases h
  obtain ⟨hst, hcoin⟩ := newCoin_eq_ok.mp hcoin
  refine ⟨z, r, hz, hhalted, hsafe, hstored, hzone, hstatus, hnonneg, ?_, fun a d => ?_, ?_, ?_,
    rfl⟩
  · rw [hcoin]
    exact hminted
  · rw [Bank.balance_mintTo (wrapError_eq_ok.mp hmint),
      Bank.balance_sendCoins (wrapError_eq_ok.mp hsend)]
  · rw [hcoin]
    exact hst
  · rw [hcoin]

end Stride.Stakeibc
