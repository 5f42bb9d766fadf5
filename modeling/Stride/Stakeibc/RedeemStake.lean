import Stride.Sdk.Bank
import Stride.Sdk.Bech32
import Stride.Stakeibc.Unbonding
import Stride.Stakeibc.ZoneSettings

/-!
# Redeeming Stake

A redemption moves stTokens of a user into the deposit account of the zone, and adds the amount
to two records: the one of the receiver for the current day, and the unbonding of the zone for
that day. Before an unbonding is submitted the native amounts of its user records are set anew,
at the redemption rate of that time.

The address of the signer and that of the deposit account are given in decoded form.

## Main results

- `redeemStake_ok`, `refreshHostZoneUnbonding_ok`: what they leave
- `UsersRefreshed.listedRecords_eq`, `listedNativeAmount_eq`: the refreshed records and their
  total
-/

namespace Stride.Stakeibc

open Lib Sdk Records Records.EpochUnbondingStore KeyedStore List

/-! ## Model -/

structure MsgRedeemStake where
  creator : String
  amount : ℤ
  hostZone : String
  receiver : String
  deriving DecidableEq

structure RedemptionKeeper where
  params : SafetyParams
  hostZones : HostZoneStore
  settings : String → ZoneSettings
  /-- the epoch number of the tracker of the day epoch, if there is one -/
  dayEpoch : Option ℕ
  epochUnbondingRecords : EpochUnbondingStore
  userRedemptionRecords : UserRedemptionStore
  bank : Bank

/-- The checks of `RedeemStake`, with the host zone and the native amount of the redemption. -/
def validateRedemption (k : RedemptionKeeper) (msg : MsgRedeemStake) : Result (HostZone × ℤ) := do
  let hostZone ← getActiveHostZone k.hostZones msg.hostZone
  let settings := k.settings hostZone.chainId
  require settings.redemptionsEnabled .errRedemptionsDisabled
    s!"redemptions disabled for {msg.hostZone}"
  match accAddressFromBech32 msg.receiver settings.bech32Prefix with
  | .error err => wrapf .errInvalidAddress s!"invalid receiver address ({err.message})"
  | .ok _ =>
    wrapError (isRedemptionRateWithinSafetyBounds k.params settings hostZone.redemptionRate)
      "unable to check if redemption rate is within safety bounds"
    let nativeAmount := ((LegacyDec.fromInt msg.amount).mul hostZone.redemptionRate).truncateInt
    require (0 < nativeAmount) .errInvalidCoins
      s!"amount must be greater than 0. found: {msg.amount}"
    require (nativeAmount ≤ hostZone.totalDelegations) .errInvalidAmount
      s!"cannot unstake an amount g.t. staked balance on host zone: {msg.amount}"
    return (hostZone, nativeAmount)

/-- The user record after a redemption: the stored one with the amounts added, or a new one. -/
def redeemedRecord (hostZone : HostZone) (epochNumber : ℕ) (msg : MsgRedeemStake)
    (nativeAmount : ℤ) : Option UserRedemptionRecord → UserRedemptionRecord
  | some user =>
    { user with
      stTokenAmount := user.stTokenAmount + msg.amount
      nativeTokenAmount := user.nativeTokenAmount + nativeAmount }
  | none =>
    { id := userRedemptionRecordKeyFormatter hostZone.chainId epochNumber msg.receiver
      receiver := msg.receiver
      nativeTokenAmount := nativeAmount
      denom := hostZone.hostDenom
      hostZoneId := hostZone.chainId
      epochNumber := epochNumber
      claimIsPending := false
      stTokenAmount := msg.amount }

/-- The unbonding of the zone after a redemption. A new user record is appended to it. -/
def redeemedUnbonding (r : HostZoneUnbonding) (msg : MsgRedeemStake) (nativeAmount : ℤ)
    (newRecords : List String) : HostZoneUnbonding :=
  { r with
    nativeTokenAmount := r.nativeTokenAmount + nativeAmount
    userRedemptionRecords := r.userRedemptionRecords ++ newRecords
    stTokenAmount := r.stTokenAmount + msg.amount }

def redeemStake (k : RedemptionKeeper) (msg : MsgRedeemStake) : Result RedemptionKeeper := do
  let (hostZone, nativeAmount) ← validateRedemption k msg
  match k.dayEpoch with
  | none => wrapf .errEpochNotFound "epoch tracker found: day"
  | some epochNumber =>
    let redemptionId :=
      userRedemptionRecordKeyFormatter hostZone.chainId epochNumber msg.receiver
    let stored := k.userRedemptionRecords.get? redemptionId
    let userRedemptionRecord := redeemedRecord hostZone epochNumber msg nativeAmount stored
    match k.epochUnbondingRecords.getEpochUnbondingRecord epochNumber with
    | none => wrapf .errEpochUnbondingRecordNotFound "latest epoch unbonding record not found"
    | some epochUnbondingRecord =>
      match k.epochUnbondingRecords.getHostZoneUnbondingByChainId
          epochUnbondingRecord.epochNumber hostZone.chainId with
      | none =>
        wrapf .errInvalidHostZone s!"host zone not found in unbondings: {hostZone.chainId}"
      | some hostZoneUnbonding =>
        let newRecords := if stored.isSome then [] else [userRedemptionRecord.id]
        let redeemCoin ← newCoin (stAssetDenomFromHostZoneDenom hostZone.hostDenom) msg.amount
        let bank ← wrapError (k.bank.sendCoins msg.creator
            (k.settings hostZone.chainId).depositAddress redeemCoin)
          s!"couldn't send {msg.amount} derivative {hostZone.hostDenom} tokens to module account"
        let records ← setHostZoneUnbondingRecord k.epochUnbondingRecords
          epochUnbondingRecord.epochNumber hostZone.chainId
          (redeemedUnbonding hostZoneUnbonding msg nativeAmount newRecords)
        return { k with
          bank := bank
          userRedemptionRecords := k.userRedemptionRecords.set userRedemptionRecord
          epochUnbondingRecords := records }

def emptyHostZoneUnbonding (hostZone : HostZone) : HostZoneUnbonding where
  stTokenAmount := 0
  nativeTokenAmount := 0
  stTokensToBurn := 0
  nativeTokensToUnbond := 0
  claimableNativeTokens := 0
  undelegationTxsInProgress := 0
  denom := hostZone.hostDenom
  hostZoneId := hostZone.chainId
  unbondingTime := 0
  status := .unbondingQueue
  userRedemptionRecords := []

def getAllActiveHostZone (hostZones : HostZoneStore) : List HostZone :=
  hostZones.values.filter fun hostZone => ¬ hostZone.halted

def createEpochUnbondingRecord (k : RedemptionKeeper) (epochNumber : ℕ) : RedemptionKeeper :=
  { k with
    epochUnbondingRecords := k.epochUnbondingRecords.setEpochUnbondingRecord
      ⟨epochNumber, (getAllActiveHostZone k.hostZones).map emptyHostZoneUnbonding⟩ }

/-- `RefreshHostZoneUnbondingNativeTokenAmount`. -/
def refreshHostZoneUnbonding (k : RedemptionKeeper) (epochNumber : ℕ) (r : HostZoneUnbonding) :
    Result RedemptionKeeper :=
  match k.hostZones.get? r.hostZoneId with
  | none => wrapf .errHostZoneNotFound s!"host zone {r.hostZoneId} not found"
  | some hostZone => do
    let (totalNativeAmount, users) :=
      refreshUserRedemptionRecordNativeAmounts hostZone.redemptionRate
      r.userRedemptionRecords 0 k.userRedemptionRecords
    let records ← setHostZoneUnbondingRecord k.epochUnbondingRecords epochNumber r.hostZoneId
      (refreshedRecord r totalNativeAmount)
    return { k with userRedemptionRecords := users, epochUnbondingRecords := records }

/-! ## Outcomes -/

variable {r : HostZoneUnbonding} {k k' : RedemptionKeeper} {e : ℕ}

/-- **Redemption**: a redemption that goes through is for a registered zone and a valid
    receiver, and writes the user record, the unbonding of the day and the bank. -/
theorem redeemStake_ok {msg : MsgRedeemStake} (h : redeemStake k msg = .ok k') :
    ∃ hostZone nativeAmount e r bz bank records,
      k.hostZones.get? msg.hostZone = some hostZone ∧ hostZone.chainId = msg.hostZone ∧
      accAddressFromBech32 msg.receiver (k.settings msg.hostZone).bech32Prefix = .ok bz ∧
      k.dayEpoch = some e ∧
      hostZoneUnbondings k.epochUnbondingRecords msg.hostZone e = some r ∧
      0 ≤ msg.amount ∧
      k.bank.sendCoins msg.creator (k.settings msg.hostZone).depositAddress
        (stAssetDenomFromHostZoneDenom hostZone.hostDenom, msg.amount) = .ok bank ∧
      let stored := k.userRedemptionRecords.get?
        (userRedemptionRecordKeyFormatter msg.hostZone e msg.receiver)
      let user := redeemedRecord hostZone e msg nativeAmount stored
      setHostZoneUnbondingRecord k.epochUnbondingRecords e msg.hostZone
        (redeemedUnbonding r msg nativeAmount (if stored.isSome then [] else [user.id])) =
        .ok records ∧
      k' = { k with
        bank := bank
        userRedemptionRecords := k.userRedemptionRecords.set user
        epochUnbondingRecords := records } := by
  obtain ⟨⟨hostZone, nativeAmount⟩, hvalid, h⟩ := bind_eq_ok.mp h
  obtain ⟨hostZone', hactive, hvalid⟩ := bind_eq_ok.mp hvalid
  obtain ⟨_, -, hvalid⟩ := bind_eq_ok.mp hvalid
  -- the zone is stored under the id of the message
  have hzone := get?_of_getActiveHostZone hactive
  have hchain : hostZone'.chainId = msg.hostZone := key_of_get? hzone
  split at hvalid
  · cases hvalid
  rename_i bz haddress
  obtain ⟨_, -, hvalid⟩ := bind_eq_ok.mp hvalid
  obtain ⟨_, -, hvalid⟩ := bind_eq_ok.mp hvalid
  obtain ⟨_, -, hvalid⟩ := bind_eq_ok.mp hvalid
  cases hvalid
  dsimp only at h
  split at h
  · cases h
  rename_i e hday
  split at h
  · cases h
  rename_i eur heur
  have hepoch : eur.epochNumber = e := k.epochUnbondingRecords.keyed e eur heur
  rw [hepoch, hchain] at h
  split at h
  · cases h
  rename_i r hr
  obtain ⟨coin, hcoin, h⟩ := bind_eq_ok.mp h
  obtain ⟨bank, hbank, h⟩ := bind_eq_ok.mp h
  obtain ⟨records, hrecords, h⟩ := bind_eq_ok.mp h
  cases h
  obtain ⟨hnonneg, rfl⟩ := newCoin_eq_ok.mp hcoin
  exact ⟨hostZone, _, e, r, bz, bank, records, hzone, hchain, hchain ▸ haddress, hday, hr,
    hnonneg, wrapError_eq_ok.mp hbank, hrecords, rfl⟩

theorem refreshHostZoneUnbonding_ok (h : refreshHostZoneUnbonding k e r = .ok k') :
    ∃ hostZone users records, k.hostZones.get? r.hostZoneId = some hostZone ∧
      UsersRefreshed hostZone.redemptionRate r.userRedemptionRecords k.userRedemptionRecords
        users ∧
      setHostZoneUnbondingRecord k.epochUnbondingRecords e r.hostZoneId
        (refreshedRecord r (listedNativeAmount hostZone.redemptionRate k.userRedemptionRecords
          r.userRedemptionRecords)) = .ok records ∧
      k' = { k with userRedemptionRecords := users, epochUnbondingRecords := records } := by
  unfold refreshHostZoneUnbonding at h
  split at h
  · cases h
  rename_i hostZone hzone
  obtain ⟨records, hrecords, h⟩ := bind_eq_ok.mp h
  cases h
  obtain ⟨htotal, husers⟩ := refreshUserRedemptionRecordNativeAmounts_eq hostZone.redemptionRate
    r.userRedemptionRecords 0 k.userRedemptionRecords
  rw [htotal, zero_add] at hrecords
  exact ⟨hostZone, _, records, hzone, husers, hrecords, rfl⟩

/-- What a chain sees once the record of a day is created: the unbondings of the day are
    empty. -/
theorem view_createEpochUnbondingRecord {e' : ℕ} {c : String}
    (hr : hostZoneUnbondings (createEpochUnbondingRecord k e).epochUnbondingRecords c e' = some r) :
    hostZoneUnbondings k.epochUnbondingRecords c e' = some r ∨
      e' = e ∧ ∃ z, r = emptyHostZoneUnbonding z := by
  obtain ⟨eur, heur, hfind⟩ := Option.bind_eq_some_iff.mp hr
  unfold createEpochUnbondingRecord at heur
  rw [getEpochUnbondingRecord_set] at heur
  split at heur
  · rename_i he
    cases heur
    obtain ⟨z, -, rfl⟩ := mem_map.mp (mem_of_find?_eq_some hfind)
    exact .inr ⟨he, z, rfl⟩
  · exact .inl (Option.bind_eq_some_iff.mpr ⟨eur, heur, hfind⟩)

/-! ## The refresh -/

def listedRecords (users : UserRedemptionStore) (ids : List String) :
    List UserRedemptionRecord :=
  ids.filterMap users.get?

theorem UsersRefreshed.listedRecords_eq {rate : LegacyDec} {ids : List String}
    {users users' : UserRedemptionStore} (h : UsersRefreshed rate ids users users') :
    listedRecords users' ids = (listedRecords users ids).map (refreshedUser rate) := by
  unfold listedRecords
  rw [map_filterMap]
  apply filterMap_congr
  intro id hid
  rw [h id, if_pos hid]

theorem listedNativeAmount_eq (rate : LegacyDec) (users : UserRedemptionStore)
    (ids : List String) : listedNativeAmount rate users ids =
      ((listedRecords users ids).map fun user =>
        (refreshedUser rate user).nativeTokenAmount).sum := by
  have htokens : ids.filterMap (redeemedTokens users) =
      (listedRecords users ids).map UserRedemptionRecord.stTokenAmount := map_filterMap.symm
  rw [listedNativeAmount, htokens, map_map]
  rfl

end Stride.Stakeibc
