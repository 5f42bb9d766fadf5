import Stride.Records.LSMTokenDeposit
import Stride.Stakeibc.DelegationQueries
import Stride.Stakeibc.LiquidStake

/-!
# Liquid Staking of Tokenized Shares

A delegation that was tokenized on the host is an LSM token, and its IBC voucher can be liquid
staked. The amount of stTokens is fixed when the stake is started. It is either finished at
once, or parked behind a query for the rate of its validator.

A host zone that a parked stake carries has the settings of its chain id. The hooks after a liquid
stake are not modelled. The progress to the next query of a validator stands beside it, by chain id
and address.

## Main results

- `ValidLSMLiquidStake`, `validateLSMLiquidStake_ok`
- `startLSMLiquidStake_ok`, `finishLSMLiquidStake_ok`
- `ValidLSMLiquidStake.origin`: a voucher determines the zone and the denom of its deposit
-/

namespace Stride.Stakeibc

open Lib Sdk Records InterchainQuery

/-! ## Types -/

structure MsgLSMLiquidStake where
  creator : String
  amount : ℤ
  lsmTokenIbcDenom : String
  deriving DecidableEq

/-- A hop of an IBC denom. -/
structure Hop where
  portId : String
  channelId : String
  deriving DecidableEq

/-- `Denom` of the transfer module: a base denom with the hops that it has taken. -/
structure Denom where
  base : String
  trace : List Hop
  deriving DecidableEq

/-- What LSM liquid stakes read from the chain around them: besides the block, the denoms that
    the transfer module knows by their hash. -/
structure LSMContext extends Context where
  blockHeight : ℤ
  parseHexHash : String → Result (List UInt8)
  getDenom : List UInt8 → Option Denom

/-- `LSMLiquidStake`: a deposit with copies of its host zone and validator. -/
structure LSMLiquidStake where
  deposit : LSMTokenDeposit
  hostZone : HostZone
  validator : Validator
  deriving DecidableEq

/-- Callback data of a query for a rate: `ValidatorSharesToTokensQueryCallback`, or no bytes. -/
inductive RateQueryData where
  | empty
  | lsmLiquidStake (l : LSMLiquidStake)
  deriving DecidableEq

instance (data : RateQueryData) {p : LSMLiquidStake → Prop} [DecidablePred p] :
    Decidable (∀ l, data = .lsmLiquidStake l → p l) :=
  match data with
  | .empty => .isTrue fun _ h => by cases h
  | .lsmLiquidStake l => decidable_of_iff (p l) (by simp)

/-- `SlashQueryProgressTracker` and `SlashQueryCheckpoint` of a validator. -/
structure SlashQueryProgress where
  tracker : ℤ
  checkpoint : ℤ
  deriving DecidableEq

/-- What LSM liquid stakes read and write. The queries for rates and those for delegations
    stand in stores of their own. -/
structure LSMKeeper extends LiquidStakeKeeper where
  /-- in percent -/
  validatorSlashQueryThreshold : ℕ
  slashQueryProgress : String → String → SlashQueryProgress
  lsmTokenDeposits : LSMTokenDepositStore
  rateQueries : IcqKeeper RateQueryData
  delegationQueries : IcqKeeper DelegationQueryData

/-! ## Where a voucher comes from -/

/-- `Hop.String`. -/
def Hop.toPath (hop : Hop) : String := hop.portId ++ "/" ++ hop.channelId

def tracePath (hops : List Hop) : String := "/".intercalate (hops.map Hop.toPath)

/-- `IsValidIBCPath`: the expression `^transfer/(channel-[0-9]{1,20})$`. -/
def isValidIBCPath (path : String) : Bool :=
  let start := "transfer/channel-".toList
  let digits := path.toList.drop start.length
  start.isPrefixOf path.toList ∧ digits.all Char.isDigit ∧ 1 ≤ digits.length ∧ digits.length ≤ 20

/-- The channel of a valid path: what is left without `transfer/`. -/
def pathChannelId (path : String) : String :=
  String.ofList (path.toList.drop "transfer/".toList.length)

def getLSMTokenDenomTrace (ctx : LSMContext) (denom : String) : Result Denom := do
  require (isIBCToken denom = true) .errInvalidLSMToken s!"lsm token is not an IBC token ({denom})"
  let hash ← wrapError (ctx.parseHexHash (String.ofList (denom.toList.drop "ibc/".toList.length)))
    s!"unable to get ibc hex hash from denom {denom}"
  match ctx.getDenom hash with
  | none => wrapf .errInvalidLSMToken s!"denom not found for {denom}"
  | some denomTrace => return denomTrace

def getHostZoneFromLSMTokenPath (hostZones : HostZoneStore) (settings : String → ZoneSettings)
    (path : String) : Result HostZone := do
  require (isValidIBCPath path = true) .errInvalidLSMToken
    s!"ibc path of LSM token ({path}) cannot be more than 1 hop away"
  let channelId := pathChannelId path
  match hostZones.values.find? fun hostZone =>
      (settings hostZone.chainId).transferChannelId = channelId with
  | none =>
    wrapf .errInvalidLSMToken
      s!"transfer channel-id from LSM token ({channelId}) does not match any registered host zone"
  | some hostZone =>
    require ((settings hostZone.chainId).lsmLiquidStakeEnabled = true)
      .errLSMLiquidStakeDisabledForHostZone s!"LSM liquid stake disabled for {hostZone.chainId}"
    return hostZone

/-- `GetValidatorFromLSMTokenDenom`. A rate that is nil in the source is zero here. -/
def getValidatorFromLSMTokenDenom (denom : String) (validators : List Validator) :
    Result Validator :=
  match denom.toList.splitOn '/' with
  | [address, _] =>
    let validatorAddress := String.ofList address
    match getValidatorFromAddress validators validatorAddress with
    | none =>
      wrapf .errInvalidLSMToken
        s!"validator ({validatorAddress}) is not registered in the Stride validator set"
    | some validator => do
      require (validator.slashQueryInProgress = false) .errValidatorWasSlashed
        s!"validator {validator.address} was slashed, liquid stakes from this validator are temporarily unavailable"
      require (validator.sharesToTokensRate.i ≠ 0) .errValidatorSharesToTokensRateNotKnown
        s!"validator {validator.address} sharesToTokens rate is not known"
      return validator
  | _ =>
    wrapf .errInvalidLSMToken
      s!"lsm token base denom is not of the format \x7bval-address\x7d/\x7brecord-id\x7d ({denom})"

/-! ## Start -/

def getLSMTokenDepositId (ctx : LSMContext) (chainId stakerAddress denom : String) : String :=
  ctx.sha256 (bytes s!"{ctx.blockHeight}-{chainId}-{stakerAddress}-{denom}")

/-- `ValidateLSMLiquidStake`. The stToken of the deposit is set later. -/
def validateLSMLiquidStake (ctx : LSMContext) (k : LSMKeeper) (msg : MsgLSMLiquidStake) :
    Result LSMLiquidStake := do
  let denomTrace ← getLSMTokenDenomTrace ctx msg.lsmTokenIbcDenom
  let hostZone ← getHostZoneFromLSMTokenPath k.hostZones k.settings (tracePath denomTrace.trace)
  let validator ← getValidatorFromLSMTokenDenom denomTrace.base hostZone.validators
  let balance := k.bank.balance msg.creator msg.lsmTokenIbcDenom
  require (msg.amount ≤ balance) .errInsufficientFunds
    s!"balance is lower than staking amount. staking amount: {msg.amount}, balance: {balance}"
  return {
    deposit := {
      depositId := getLSMTokenDepositId ctx hostZone.chainId msg.creator denomTrace.base
      chainId := hostZone.chainId
      denom := denomTrace.base
      ibcDenom := msg.lsmTokenIbcDenom
      stakerAddress := msg.creator
      validatorAddress := validator.address
      amount := msg.amount
      stToken := ("", 0)
      status := .depositPending }
    hostZone := hostZone
    validator := validator }

/-- `CalculateLSMStToken`: the shares at the rate of the validator, over the redemption rate. -/
def calculateLSMStToken (liquidStakedShares : ℤ) (l : LSMLiquidStake) : Result (String × ℤ) := do
  let liquidStakedTokens :=
    (LegacyDec.fromInt liquidStakedShares).mul l.validator.sharesToTokensRate
  let stTokens ← liquidStakedTokens.quo l.hostZone.redemptionRate
  newCoin (stAssetDenomFromHostZoneDenom l.hostZone.hostDenom) stTokens.truncateInt

def LSMLiquidStake.withStToken (l : LSMLiquidStake) (stCoin : String × ℤ) : LSMLiquidStake :=
  { l with deposit := { l.deposit with stToken := stCoin } }

def startLSMLiquidStake (ctx : LSMContext) (k : LSMKeeper) (msg : MsgLSMLiquidStake) :
    Result (LSMKeeper × LSMLiquidStake) := do
  let l ← validateLSMLiquidStake ctx k msg
  require (l.hostZone.halted = false) .errHaltedHostZone
    s!"host zone {l.hostZone.chainId} is halted"
  require ((k.lsmTokenDeposits.getLSMTokenDeposit l.hostZone.chainId l.deposit.denom).isNone)
    .errInvalidRequest
    s!"there is already a previous record with this denom being processed: {l.deposit.denom}"
  let stCoin ← calculateLSMStToken msg.amount l
  require (stCoin.2 ≠ 0) .errInsufficientLiquidStake
    s!"Liquid stake of {msg.amount}{l.hostZone.hostDenom} would return 0 stTokens"
  let l := l.withStToken stCoin
  return ({ k with lsmTokenDeposits := k.lsmTokenDeposits.setLSMTokenDeposit l.deposit }, l)

/-! ## Finish -/

/-- Whether a stake takes the progress of a validator over its next checkpoint. -/
def SlashQueryProgress.breachedBy (progress : SlashQueryProgress) (amount : ℤ) : Bool :=
  progress.tracker.tdiv progress.checkpoint < (progress.tracker + amount).tdiv progress.checkpoint

def shouldCheckIfValidatorWasSlashed (progress : SlashQueryProgress)
    (transactionStakeAmount : ℤ) : Bool :=
  if progress.checkpoint = 0 then false else progress.breachedBy transactionStakeAmount

/-- `GetUpdatedSlashQueryCheckpoint`: the threshold is a decimal with two places. -/
def getUpdatedSlashQueryCheckpoint (k : LSMKeeper) (totalDelegations : ℤ) : ℤ :=
  let queryThreshold : LegacyDec := ⟨k.validatorSlashQueryThreshold * 10 ^ 16⟩
  (queryThreshold.mul (LegacyDec.fromInt totalDelegations)).truncateInt

/-- The progress of a validator after a stake. A checkpoint that is zero was set without
    delegations, and is set again. -/
def updatedSlashQueryProgress (k : LSMKeeper) (hostZone : HostZone) (progress : SlashQueryProgress)
    (amount : ℤ) : SlashQueryProgress where
  tracker := progress.tracker + amount
  checkpoint :=
    if progress.checkpoint = 0 ∨ progress.breachedBy amount then
      getUpdatedSlashQueryCheckpoint k hostZone.totalDelegations
    else progress.checkpoint

def incrementValidatorSlashQueryProgress (k : LSMKeeper) (chainId validatorAddress : String)
    (amount : ℤ) : Result LSMKeeper :=
  match k.hostZones.get? chainId with
  | none => wrapf .errHostZoneNotFound ""
  | some hostZone =>
    match getValidatorFromAddress hostZone.validators validatorAddress with
    | none => wrapf .errValidatorNotFound ""
    | some _ =>
      .ok { k with
        slashQueryProgress := fun c a =>
          if c = chainId ∧ a = validatorAddress then
            updatedSlashQueryProgress k hostZone (k.slashQueryProgress c a) amount
          else k.slashQueryProgress c a }

/-- The message of a stake that was parked. -/
def LSMTokenDeposit.toMsg (deposit : LSMTokenDeposit) : MsgLSMLiquidStake where
  creator := deposit.stakerAddress
  amount := deposit.amount
  lsmTokenIbcDenom := deposit.ibcDenom

/-- A stake that was interrupted by the query is validated again. -/
def revalidateLSMLiquidStake (ctx : LSMContext) (k : LSMKeeper) (l : LSMLiquidStake)
    (async : Bool) : Result Unit :=
  if async then do
    let _ ← validateLSMLiquidStake ctx k (LSMTokenDeposit.toMsg l.deposit)
    return ()
  else .ok ()

def finishLSMLiquidStake (ctx : LSMContext) (k : LSMKeeper) (l : LSMLiquidStake) (async : Bool) :
    Result LSMKeeper := do
  revalidateLSMLiquidStake ctx k l async
  let lsmIBCToken ← newCoin l.deposit.ibcDenom l.deposit.amount
  let bank ← wrapError (k.bank.sendCoins l.deposit.stakerAddress
    (k.settings l.hostZone.chainId).depositAddress lsmIBCToken)
    "failed to send tokens from Account to Module"
  let bank ← wrapError ((bank.mintCoins moduleName l.deposit.stToken).sendCoins moduleName
    l.deposit.stakerAddress l.deposit.stToken)
    s!"Failed to send {l.deposit.stToken.2}{l.deposit.stToken.1} from module to account"
  require (l.hostZone.delegationIcaAddress ≠ "") .errICAAccountNotFound
    s!"no delegation address found for {l.hostZone.chainId}"
  incrementValidatorSlashQueryProgress
    { k with
      bank := bank
      lsmTokenDeposits :=
        k.lsmTokenDeposits.updateLSMTokenDepositStatus l.deposit .transferQueue }
    l.hostZone.chainId l.deposit.validatorAddress l.deposit.amount

/-! ## What a valid stake has found -/

private theorem getHostZoneFromLSMTokenPath_ok {hostZones : HostZoneStore}
    {settings : String → ZoneSettings} {path : String} {z : HostZone}
    (h : getHostZoneFromLSMTokenPath hostZones settings path = .ok z) :
    hostZones.values.find? (fun z => (settings z.chainId).transferChannelId = pathChannelId path) =
      some z := by
  obtain ⟨_, -, h⟩ := bind_eq_ok.mp h
  dsimp only at h
  split at h
  · cases h
  rename_i z' hz
  obtain ⟨_, -, h⟩ := bind_eq_ok.mp h
  cases h
  exact hz

private theorem getValidatorFromLSMTokenDenom_ok {denom : String} {validators : List Validator}
    {v : Validator} (h : getValidatorFromLSMTokenDenom denom validators = .ok v) :
    getValidatorFromAddress validators v.address = some v ∧ v.slashQueryInProgress = false ∧
      v.sharesToTokensRate.i ≠ 0 := by
  unfold getValidatorFromLSMTokenDenom at h
  split at h
  · dsimp only at h
    split at h
    · cases h
    rename_i v' hv
    obtain ⟨_, hflag, h⟩ := bind_eq_ok.mp h
    obtain ⟨_, hrate, h⟩ := bind_eq_ok.mp h
    cases h
    rw [address_of_getValidatorFromAddress hv]
    exact ⟨hv, require_eq_ok.mp hflag, require_eq_ok.mp hrate⟩
  · cases h

/-- The registered chain ids, in the order of the store. -/
def chainIds (hostZones : HostZoneStore) : List String := hostZones.values.map HostZone.chainId

/-- The zone and the base denom of a voucher: the first zone with its channel. -/
def lsmOrigin (ctx : LSMContext) (settings : String → ZoneSettings) (ids : List String)
    (ibcDenom : String) : Option (String × String) :=
  match getLSMTokenDenomTrace ctx ibcDenom with
  | .error _ => none
  | .ok denomTrace =>
    (ids.find? fun c =>
      (settings c).transferChannelId = pathChannelId (tracePath denomTrace.trace)).map
        fun c => (c, denomTrace.base)

/-- What a stake that is valid for a message has found. -/
structure ValidLSMLiquidStake (ctx : LSMContext) (k : LSMKeeper) (msg : MsgLSMLiquidStake)
    (l : LSMLiquidStake) : Prop where
  zone : k.hostZones.get? l.deposit.chainId = some l.hostZone
  validator : getValidatorFromAddress l.hostZone.validators l.deposit.validatorAddress =
    some l.validator
  unflagged : l.validator.slashQueryInProgress = false
  known : l.validator.sharesToTokensRate.i ≠ 0
  /-- A voucher determines the zone and the denom of its deposit. -/
  origin : lsmOrigin ctx k.settings (chainIds k.hostZones) msg.lsmTokenIbcDenom =
    some (l.deposit.chainId, l.deposit.denom)
  msg : LSMTokenDeposit.toMsg l.deposit = msg
  status : l.deposit.status = .depositPending

variable {ctx : LSMContext} {k k' : LSMKeeper} {l : LSMLiquidStake} {msg : MsgLSMLiquidStake}

theorem ValidLSMLiquidStake.chainId (h : ValidLSMLiquidStake ctx k msg l) :
    l.hostZone.chainId = l.deposit.chainId :=
  KeyedStore.key_of_get? h.zone

/-- **Validation** finds the zone by the channel of the voucher and the validator by its
    denom. -/
theorem validateLSMLiquidStake_ok (h : validateLSMLiquidStake ctx k msg = .ok l) :
    ValidLSMLiquidStake ctx k msg l := by
  obtain ⟨denomTrace, htrace, h⟩ := bind_eq_ok.mp h
  obtain ⟨z, hz, h⟩ := bind_eq_ok.mp h
  obtain ⟨v, hv, h⟩ := bind_eq_ok.mp h
  obtain ⟨_, -, h⟩ := bind_eq_ok.mp h
  cases h
  have hfind := getHostZoneFromLSMTokenPath_ok hz
  obtain ⟨hget, hflag, hrate⟩ := getValidatorFromLSMTokenDenom_ok hv
  refine ⟨KeyedStore.mem_values_iff.mp (List.mem_of_find?_eq_some hfind), hget, hflag, hrate, ?_,
    rfl, rfl⟩
  -- the search looks at the chain ids only
  have hids : (chainIds k.hostZones).find? (fun c =>
      (k.settings c).transferChannelId = pathChannelId (tracePath denomTrace.trace)) =
        some z.chainId := by
    unfold chainIds
    rw [List.find?_map]
    exact congrArg (Option.map HostZone.chainId) hfind
  unfold lsmOrigin
  rw [htrace]
  dsimp only
  rw [hids]
  rfl

/-- **Start**: a deposit enters the store under a free key, with the stTokens that its shares are
    worth at the rates of this moment. -/
theorem startLSMLiquidStake_ok (h : startLSMLiquidStake ctx k msg = .ok (k', l)) :
    ValidLSMLiquidStake ctx k msg l ∧ l.hostZone.halted = false ∧
      k.lsmTokenDeposits.get? l.deposit.key = none ∧
      calculateLSMStToken l.deposit.amount l = .ok l.deposit.stToken ∧
      k' = { k with lsmTokenDeposits := k.lsmTokenDeposits.set l.deposit } := by
  obtain ⟨l₀, hvalid, h⟩ := bind_eq_ok.mp h
  obtain ⟨_, hhalted, h⟩ := bind_eq_ok.mp h
  obtain ⟨_, hfree, h⟩ := bind_eq_ok.mp h
  obtain ⟨stCoin, hcoin, h⟩ := bind_eq_ok.mp h
  obtain ⟨_, -, h⟩ := bind_eq_ok.mp h
  cases h
  have hv := validateLSMLiquidStake_ok hvalid
  have hamount : l₀.deposit.amount = msg.amount := congrArg MsgLSMLiquidStake.amount hv.msg
  refine ⟨⟨hv.zone, hv.validator, hv.unflagged, hv.known, hv.origin, hv.msg, hv.status⟩,
    require_eq_ok.mp hhalted, ?_, ?_, rfl⟩
  · have hnone := Option.isNone_iff_eq_none.mp (require_eq_ok.mp hfree)
    rw [hv.chainId] at hnone
    exact hnone
  · rw [← hamount] at hcoin
    exact hcoin

/-- What a stake that was finished leaves: the LSM tokens are in the deposit account, and the
    stTokens are new. -/
structure FinishedLSMLiquidStake (k k' : LSMKeeper) (l : LSMLiquidStake) : Prop where
  nonneg : 0 ≤ l.deposit.amount
  registered : ∃ z, k.hostZones.get? l.hostZone.chainId = some z
  balance : ∀ a d, k'.bank.balance a d = k.bank.balance a d -
      (if a = l.deposit.stakerAddress ∧ d = l.deposit.ibcDenom then l.deposit.amount else 0) +
      (if a = (k.settings l.hostZone.chainId).depositAddress ∧ d = l.deposit.ibcDenom then
        l.deposit.amount else 0) +
      (if a = l.deposit.stakerAddress ∧ d = l.deposit.stToken.1 then l.deposit.stToken.2 else 0)
  supply : ∀ d, k'.bank.supply d =
    k.bank.supply d + if d = l.deposit.stToken.1 then l.deposit.stToken.2 else 0
  keeper : k' = { k with
    bank := k'.bank
    lsmTokenDeposits := k.lsmTokenDeposits.set { l.deposit with status := .transferQueue }
    slashQueryProgress := k'.slashQueryProgress }

private theorem incrementValidatorSlashQueryProgress_ok {c a : String} {n : ℤ}
    (h : incrementValidatorSlashQueryProgress k c a n = .ok k') :
    (∃ z, k.hostZones.get? c = some z) ∧
      k' = { k with slashQueryProgress := k'.slashQueryProgress } := by
  unfold incrementValidatorSlashQueryProgress at h
  split at h
  · cases h
  rename_i z hz
  split at h
  · cases h
  cases h
  exact ⟨⟨z, hz⟩, rfl⟩

/-- **Finish**: the coins move, and the deposit is ready for its transfer. A stake that was parked
    is valid again. -/
theorem finishLSMLiquidStake_ok {async : Bool} (h : finishLSMLiquidStake ctx k l async = .ok k') :
    FinishedLSMLiquidStake k k' l ∧
      (async = true → ∃ l', ValidLSMLiquidStake ctx k (LSMTokenDeposit.toMsg l.deposit) l') := by
  obtain ⟨_, hvalid, h⟩ := bind_eq_ok.mp h
  obtain ⟨coin, hcoin, h⟩ := bind_eq_ok.mp h
  obtain ⟨bank, hsend, h⟩ := bind_eq_ok.mp h
  obtain ⟨bank', hmint, h⟩ := bind_eq_ok.mp h
  obtain ⟨_, -, h⟩ := bind_eq_ok.mp h
  obtain ⟨hnonneg, hcoin⟩ := newCoin_eq_ok.mp hcoin
  rw [hcoin] at hsend
  obtain ⟨hregistered, hkeeper⟩ := incrementValidatorSlashQueryProgress_ok h
  have hbank : k'.bank = bank' := by rw [hkeeper]
  constructor
  · refine ⟨hnonneg, hregistered, fun a d => ?_, fun d => ?_, ?_⟩
    · rw [hbank, Bank.balance_mintTo (wrapError_eq_ok.mp hmint),
        Bank.balance_sendCoins (wrapError_eq_ok.mp hsend)]
    · rw [hbank, Bank.supply_mintTo (wrapError_eq_ok.mp hmint),
        Bank.supply_sendCoins (wrapError_eq_ok.mp hsend)]
    · rw [hbank]
      exact hkeeper
  · rintro rfl
    obtain ⟨l', hl', -⟩ := bind_eq_ok.mp hvalid
    exact ⟨l', validateLSMLiquidStake_ok hl'⟩

end Stride.Stakeibc
