import Stride.Stakeibc.LSMLiquidStake
import Stride.Stakeibc.RedeemStake
import Stride.Stakeibc.RedemptionRate
import Mathlib.Data.List.Infix

/-!
# Queries for the Rate of a Validator

A query for the rate at which shares of a validator are worth tokens is sent by hand, or by an
LSM liquid stake that reaches a checkpoint of its validator. The answer overwrites the rate. A
rate that has changed counts as a slash: it fails the stake that waits for the answer, and a
query for the delegation to the validator is sent.

Functions that mint stTokens return a `Mint` for it, which keeps the host zones as they are stored
at that moment.
-/

namespace Stride.Stakeibc

open Lib Sdk Records InterchainQuery KeyedStore

/-! ## Types -/

/-- A `Validator` in the staking store of the host. Shares are in units of `10 ^ -18`. -/
structure QueriedValidator where
  operatorAddress : String
  tokens : ℕ
  delegatorShares : ℕ
  deriving DecidableEq

abbrev RateQuery := Query RateQueryData

/-- stTokens that were minted, with the host zones at that moment and, for an LSM liquid stake,
    the stake. -/
structure Mint where
  hostZones : HostZoneStore
  chainId : String
  stToken : String × ℤ
  stake : Option LSMLiquidStake

/-- The stTokens of an LSM liquid stake that is finished in `k`. -/
def lsmMint (k : LSMKeeper) (l : LSMLiquidStake) : Mint where
  hostZones := k.hostZones
  chainId := l.hostZone.chainId
  stToken := l.deposit.stToken
  stake := some l

/-! ## Submission -/

def getValidatorKey (validator : List UInt8) : Result (List UInt8) := do
  let validator ← mustLengthPrefix validator
  return 0x21 :: validator

/-- The key of a validator in the staking store of its host. -/
def validatorKey (ctx : Context) (validatorAddress : String) : Result (List UInt8) := do
  let validatorAddressBz ← decodeAddress ctx "validator operator" validatorAddress
  getValidatorKey validatorAddressBz

/-- The query of `SubmitValidatorSharesToTokensRateICQ`. -/
def newRateQuery (hostZone : HostZone) (requestData : List UInt8) (callbackData : RateQueryData)
    (timeoutDuration : ℤ) (timeoutPolicy : TimeoutPolicy) : RateQuery where
  id := ""
  connectionId := hostZone.connectionId
  chainId := hostZone.chainId
  queryType := "store/staking/key"
  requestData := requestData
  callbackModule := "stakeibc"
  callbackId := "validator"
  callbackData := callbackData
  timeoutPolicy := timeoutPolicy
  timeoutDuration := timeoutDuration
  timeoutTimestamp := 0
  requestSent := false
  submissionHeight := 0

def submitValidatorSharesToTokensRateICQ (ctx : Context) (k : LSMKeeper)
    (chainId validatorAddress : String) (callbackData : RateQueryData) (timeoutDuration : ℤ)
    (timeoutPolicy : TimeoutPolicy) : Result LSMKeeper :=
  match k.hostZones.get? chainId with
  | none => wrapf .errInvalidHostZone s!"Host zone not found ({chainId})"
  | some hostZone => do
    require ((k.settings chainId).bech32Prefix.toList <:+: validatorAddress.toList)
      .errInvalidRequest "validator operator address must match the host zone bech32 prefix"
    let queryData ← validatorKey ctx validatorAddress
    let rateQueries ← submitICQRequest ctx k.rateQueries
      (newRateQuery hostZone queryData callbackData timeoutDuration timeoutPolicy) true
    return { k with rateQueries := rateQueries }

/-- `QueryValidatorSharesToTokensRate`: a query by hand, which times out after a day. -/
def queryValidatorSharesToTokensRate (ctx : Context) (k : LSMKeeper)
    (chainId validatorAddress : String) : Result LSMKeeper :=
  submitValidatorSharesToTokensRateICQ ctx k chainId validatorAddress .empty (24 * 3600 * 10 ^ 9)
    .rejectQueryResponse

/-- `SubmitValidatorSlashQuery`: the stake waits for at most five minutes. -/
def submitValidatorSlashQuery (ctx : Context) (k : LSMKeeper) (l : LSMLiquidStake) :
    Result LSMKeeper :=
  submitValidatorSharesToTokensRateICQ ctx k l.hostZone.chainId l.validator.address
    (.lsmLiquidStake l) (5 * 60 * 10 ^ 9) .executeQueryCallback

/-- `LSMLiquidStake`, with what it minted. -/
def lsmLiquidStake (ctx : LSMContext) (k : LSMKeeper) (msg : MsgLSMLiquidStake) :
    Result (LSMKeeper × List Mint) := do
  let (started, l) ← startLSMLiquidStake ctx k msg
  if shouldCheckIfValidatorWasSlashed
      (started.slashQueryProgress l.hostZone.chainId l.validator.address) msg.amount then
    let parked ← submitValidatorSlashQuery ctx.toContext started l
    return (parked, [])
  else
    let finished ← finishLSMLiquidStake ctx started l false
    return (finished, [lsmMint started l])

/-! ## Answers to queries for rates -/

/-- `TokensFromShares` of one share. -/
def QueriedValidator.tokensFromShare (validator : QueriedValidator) : Result LegacyDec :=
  (LegacyDec.fromInt validator.tokens).quo ⟨validator.delegatorShares⟩

def setSharesToTokensRate (hostZone : HostZone) (address : String) (rate : LegacyDec) : HostZone :=
  { hostZone with
    validators := modifyValidator address (fun v => { v with sharesToTokensRate := rate })
      hostZone.validators }

/-- `CheckIfValidatorWasSlashed`: whether the rate has changed, and the host zone with the new
    rate. -/
def checkIfValidatorWasSlashed (hostZone : HostZone) (queriedValidator : QueriedValidator) :
    Result (Bool × HostZone) :=
  match getValidatorFromAddress hostZone.validators queriedValidator.operatorAddress with
  | none =>
    wrapf .errValidatorNotFound
      s!"no registered validator for address ({queriedValidator.operatorAddress})"
  | some validator => do
    require (queriedValidator.delegatorShares ≠ 0) .errDivisionByZero
      s!"can't calculate validator internal sharesToTokens rate because delegation amount is 0 (validator: {validator.address})"
    let currentRate ← queriedValidator.tokensFromShare
    let previousRateKnown : Bool := 0 < validator.sharesToTokensRate.i
    return (previousRateKnown && decide (validator.sharesToTokensRate ≠ currentRate),
      setSharesToTokensRate hostZone queriedValidator.operatorAddress currentRate)

def failLSMLiquidStake (k : LSMKeeper) (l : LSMLiquidStake) : LSMKeeper :=
  { k with
    lsmTokenDeposits :=
      k.lsmTokenDeposits.removeLSMTokenDeposit l.deposit.chainId l.deposit.denom }

/-- `LSMSlashQueryCallback`, with what it minted. The stake is finished in a cached context, so
    that nothing is left of an error. -/
def lsmSlashQueryCallback (ctx : LSMContext) (k : LSMKeeper) (l : LSMLiquidStake)
    (validatorWasSlashed : Bool) : LSMKeeper × List Mint :=
  if validatorWasSlashed then (failLSMLiquidStake k l, [])
  else
    match finishLSMLiquidStake ctx k l true with
    | .ok finished => (finished, [lsmMint k l])
    | .error _ => (failLSMLiquidStake k l, [])

/-- The part of the callback that concerns a stake that waits for the answer. -/
def finishWaitingStake (ctx : LSMContext) (k : LSMKeeper) (callbackData : RateQueryData)
    (validatorWasSlashed : Bool) : LSMKeeper × List Mint :=
  match callbackData with
  | .empty => (k, [])
  | .lsmLiquidStake l => lsmSlashQueryCallback ctx k l validatorWasSlashed

/-- A query that timed out fails the stake that waits for its answer. -/
def rateQueryTimeout (k : LSMKeeper) (callbackData : RateQueryData) : LSMKeeper :=
  match callbackData with
  | .empty => k
  | .lsmLiquidStake l => failLSMLiquidStake k l

/-- The query for the delegation to a validator that was slashed. -/
def querySlashedDelegation (ctx : Context) (k : LSMKeeper) (hostZone : HostZone)
    (validatorAddress : String) : Result LSMKeeper := do
  let out ← wrapError (submitDelegationICQ ctx ⟨hostZone, k.delegationQueries⟩ validatorAddress)
    "Failed to submit ICQ validator delegations"
  return { k with
    hostZones := k.hostZones.set out.hostZone
    delegationQueries := out.icq }

def LSMKeeper.withZone (k : LSMKeeper) (hostZone : HostZone) : LSMKeeper :=
  { k with hostZones := k.hostZones.set hostZone }

/-- The callback once the new rate is stored: the waiting stake is settled, and after a slash the
    delegation is queried. -/
def afterRateCheck (ctx : LSMContext) (checked : LSMKeeper) (hostZone : HostZone)
    (callbackData : RateQueryData) (validatorAddress : String) (validatorWasSlashed : Bool) :
    Result (LSMKeeper × List Mint) :=
  let (settled, mints) := finishWaitingStake ctx checked callbackData validatorWasSlashed
  if validatorWasSlashed then do
    let queried ← querySlashedDelegation ctx.toContext settled hostZone validatorAddress
    return (queried, mints)
  else return (settled, mints)

/-- `ValidatorSharesToTokensRateCallback`, with what it minted. -/
def validatorSharesToTokensRateCallback (ctx : LSMContext) (k : LSMKeeper) (query : RateQuery)
    (args : QueriedValidator) : Result (LSMKeeper × List Mint) :=
  match k.hostZones.get? query.chainId with
  | none =>
    wrapf .errHostZoneNotFound s!"no registered zone for queried chain ID ({query.chainId})"
  | some hostZone =>
    if query.hasTimedOut ctx.blockTime then .ok (rateQueryTimeout k query.callbackData, [])
    else do
      let (validatorWasSlashed, hostZone) ← checkIfValidatorWasSlashed hostZone args
      afterRateCheck ctx (k.withZone hostZone) hostZone query.callbackData args.operatorAddress
        validatorWasSlashed

/-- `VerifyKeyProof`: the host stores a validator under its key. -/
def verifyValidatorProof (ctx : Context) (result : Option QueriedValidator) (query : RateQuery) :
    Result Unit :=
  match result with
  | none => .ok ()
  | some v =>
    if validatorKey ctx v.operatorAddress = .ok query.requestData then .ok ()
    else wrapf .errInvalidICQProof "Unable to verify membership proof"

/-- `SubmitQueryResponse` for a query for a rate, with what its callback minted. -/
def respondRate (ctx : LSMContext) (k : LSMKeeper) (queryId : String)
    (result : Option QueriedValidator) : Result (LSMKeeper × List Mint) :=
  submitQueryResponse ctx.toContext k.rateQueries
    (fun rateQueries => ({ k with rateQueries := rateQueries }, []))
    (fun rateQueries query args =>
      validatorSharesToTokensRateCallback ctx { k with rateQueries := rateQueries } query args)
    (verifyValidatorProof ctx.toContext result) queryId result

/-! ## Answers to queries for delegations -/

/-- `UpdateRedemptionRateForHostZone` with all deposit records. Posting the rate to the oracles
    is not modelled. -/
def updateRedemptionRateForHostZone (k : LSMKeeper) (hostZone : HostZone) : Result LSMKeeper := do
  let hostZone ← updatedHostZone
    (k.bank.supply (stAssetDenomFromHostZoneDenom hostZone.hostDenom)) k.depositRecords.values
    k.lsmTokenDeposits hostZone
  return { k with hostZones := k.hostZones.set hostZone }

def updateRedemptionRates (k : LSMKeeper) : Result LSMKeeper :=
  (getAllActiveHostZone k.hostZones).foldlM updateRedemptionRateForHostZone k

/-- `DelegatorSharesCallback`, with the update of the redemption rate at the end of
    `SlashValidatorOnHostZone`. -/
def delegatorSharesUpdate (ctx : Context) (k : LSMKeeper) (query : DelegationQuery)
    (args : QueriedDelegation) : Result LSMKeeper :=
  match k.hostZones.get? query.chainId with
  | none =>
    wrapf .errHostZoneNotFound s!"no registered zone for queried chain ID ({query.chainId})"
  | some hostZone => do
    match ← delegatorSharesVerdict hostZone query args with
    | .overlapped currInternalDelegation =>
      let icq ← wrapError (retryICQRequest ctx k.delegationQueries
        { query with callbackData := .delegatorShares currInternalDelegation })
        "unable to resubmit delegator shares query"
      return { k with delegationQueries := icq }
    | .notSlashed hostZone => return { k with hostZones := k.hostZones.set hostZone }
    | .slashed hostZone validator tokens =>
      let hostZone ← slashValidatorOnHostZone hostZone validator tokens
      updateRedemptionRateForHostZone { k with hostZones := k.hostZones.set hostZone } hostZone

/-- `VerifyKeyProof`: the host stores the delegation of a pair under its key. -/
def verifyDelegatorSharesProof (ctx : Context) (k : LSMKeeper) (result : Option QueriedDelegation)
    (query : DelegationQuery) : Result Unit :=
  match result, k.hostZones.get? query.chainId with
  | some d, some hostZone =>
    if delegationKey ctx hostZone d.validatorAddress = .ok query.requestData then .ok ()
    else wrapf .errInvalidICQProof "Unable to verify membership proof"
  | _, _ => .ok ()

/-- `SubmitQueryResponse` for a query for a delegation. -/
def delegatorSharesResponse (ctx : Context) (k : LSMKeeper) (queryId : String)
    (result : Option QueriedDelegation) : Result LSMKeeper :=
  submitQueryResponse ctx k.delegationQueries
    (fun icq => { k with delegationQueries := icq })
    (fun icq query args => delegatorSharesUpdate ctx { k with delegationQueries := icq } query args)
    (verifyDelegatorSharesProof ctx k result) queryId result

/-! ## Begin of a block -/

/-- The redemption rate of a zone is inside its safety bounds. -/
def LSMKeeper.rateSafe (k : LSMKeeper) (hostZone : HostZone) : Bool :=
  (isRedemptionRateWithinSafetyBounds k.params (k.settings hostZone.chainId)
    hostZone.redemptionRate).isOk

/-- `BeginBlocker`: zones with a redemption rate outside of its bounds are halted. The blacklist
    of the rate limits and the check of the epoch durations are not modelled. -/
def beginBlocker (k : LSMKeeper) : LSMKeeper :=
  { k with
    hostZones := k.hostZones.values.foldl
      (fun hostZones hostZone =>
        if k.rateSafe hostZone = false then hostZones.set { hostZone with halted := true }
        else hostZones)
      k.hostZones }

/-! ## Rates by address -/

def HostZone.rateTable (hostZone : HostZone) : List (String × LegacyDec) :=
  hostZone.validators.map fun v => (v.address, v.sharesToTokensRate)

def HostZone.rateOf (hostZone : HostZone) (address : String) : Option LegacyDec :=
  (getValidatorFromAddress hostZone.validators address).map Validator.sharesToTokensRate

theorem rateOf_eq_find? (z : HostZone) (a : String) :
    z.rateOf a = (z.rateTable.find? fun p => p.1 = a).map Prod.snd := by
  unfold HostZone.rateTable
  rw [List.find?_map, Option.map_map]
  rfl

/-- One rate is written. -/
theorem rateOf_setSharesToTokensRate (z : HostZone) (a b : String) (rate : LegacyDec) :
    (setSharesToTokensRate z a rate).rateOf b =
      if b = a then (z.rateOf a).map fun _ => rate else z.rateOf b := by
  unfold HostZone.rateOf setSharesToTokensRate
  rw [getValidatorFromAddress_modifyValidator
    (f := fun v => { v with sharesToTokensRate := rate }) fun _ => rfl]
  split
  · rw [Option.map_map, Option.map_map]
    rfl
  · rfl

/-- What most events leave alone. -/
def HostZone.haltedAndRates (hostZone : HostZone) : Bool × List (String × LegacyDec) :=
  (hostZone.halted, hostZone.rateTable)

variable {k checked k' : LSMKeeper} {z z' : HostZone} {a queryId : String} {data : RateQueryData}
  {mints : List Mint} {args : QueriedValidator} {slashed : Bool} {query : RateQuery}
  {ctx : LSMContext}

theorem haltedAndRates_of_settings (hsettings : z'.settings = z.settings)
    (hrates : z'.rateTable = z.rateTable) : z'.haltedAndRates = z.haltedAndRates := by
  have hhalted : z'.settings.halted = z.settings.halted := by rw [hsettings]
  exact Prod.ext hhalted hrates

/-! ## Outcomes of submissions -/

theorem rateQuery_of_request {q q' : RateQuery} (h : q'.request = q.request) :
    q'.callbackData = q.callbackData ∧ q'.chainId = q.chainId ∧
      q'.requestData = q.requestData := by
  simp only [Query.request, Query.mk.injEq] at h
  obtain ⟨-, -, hchain, -, hrequest, -, -, hdata, -⟩ := h
  exact ⟨hdata, hchain, hrequest⟩

theorem submitValidatorSharesToTokensRateICQ_ok {ctx : Context} {chainId validatorAddress : String}
    {callbackData : RateQueryData} {timeoutDuration : ℤ} {timeoutPolicy : TimeoutPolicy}
    (h : submitValidatorSharesToTokensRateICQ ctx k chainId validatorAddress callbackData
      timeoutDuration timeoutPolicy = .ok k') :
    k' = { k with rateQueries := k'.rateQueries } ∧
      ∃ query : RateQuery, query.callbackData = callbackData ∧ query.chainId = chainId ∧
        validatorKey ctx validatorAddress = .ok query.requestData ∧
        k'.rateQueries.queries = k.rateQueries.queries.set query := by
  unfold submitValidatorSharesToTokensRateICQ at h
  split at h
  · cases h
  rename_i z hz
  have hchain : z.chainId = chainId := key_of_get? hz
  obtain ⟨_, -, h⟩ := bind_eq_ok.mp h
  obtain ⟨key, hkey, h⟩ := bind_eq_ok.mp h
  obtain ⟨icq, hicq, h⟩ := bind_eq_ok.mp h
  cases h
  obtain ⟨query, -, hrequest, hqueries, -⟩ := submitICQRequest_ok hicq
  obtain ⟨hdata, hid, hrequestData⟩ := rateQuery_of_request hrequest
  have hrequestKey : query.requestData = key := hrequestData
  rw [← hrequestKey] at hkey
  exact ⟨rfl, query, hdata, hid.trans hchain, hkey, hqueries⟩

/-- **LSM liquid stake**: it is started, and then parked behind a query or finished. -/
theorem lsmLiquidStake_ok {msg : MsgLSMLiquidStake}
    (h : lsmLiquidStake ctx k msg = .ok (k', mints)) :
    ∃ started l, startLSMLiquidStake ctx k msg = .ok (started, l) ∧
      ((mints = [] ∧ k' = { started with rateQueries := k'.rateQueries } ∧
        ∃ query : RateQuery, query.callbackData = .lsmLiquidStake l ∧
          query.chainId = l.hostZone.chainId ∧
          validatorKey ctx.toContext l.validator.address = .ok query.requestData ∧
          k'.rateQueries.queries = k.rateQueries.queries.set query) ∨
      (mints = [lsmMint started l] ∧ finishLSMLiquidStake ctx started l false = .ok k')) := by
  obtain ⟨⟨started, l⟩, hstart, h⟩ := bind_eq_ok.mp h
  refine ⟨started, l, hstart, ?_⟩
  have hqueries : started.rateQueries = k.rateQueries := by
    obtain ⟨-, -, -, -, rfl⟩ := startLSMLiquidStake_ok hstart
    rfl
  dsimp only at h
  split at h
  · obtain ⟨parked, hparked, h⟩ := bind_eq_ok.mp h
    cases h
    obtain ⟨hkeeper, query, hdata, hid, hkey, hset⟩ :=
      submitValidatorSharesToTokensRateICQ_ok hparked
    rw [hqueries] at hset
    exact .inl ⟨rfl, hkeeper, query, hdata, hid, hkey, hset⟩
  · obtain ⟨finished, hfinish, h⟩ := bind_eq_ok.mp h
    cases h
    exact .inr ⟨rfl, hfinish⟩

/-! ## Outcomes of answers about rates -/

/-- The check overwrites the rate, and finds a slash if the rate was known and has changed. -/
theorem checkIfValidatorWasSlashed_ok (h : checkIfValidatorWasSlashed z args = .ok (slashed, z')) :
    ∃ v rate, getValidatorFromAddress z.validators args.operatorAddress = some v ∧
      args.tokensFromShare = .ok rate ∧
      (slashed = true ↔ 0 < v.sharesToTokensRate.i ∧ v.sharesToTokensRate ≠ rate) ∧
      z' = setSharesToTokensRate z args.operatorAddress rate := by
  unfold checkIfValidatorWasSlashed at h
  split at h
  · cases h
  rename_i v hv
  obtain ⟨_, -, h⟩ := bind_eq_ok.mp h
  obtain ⟨rate, hrate, h⟩ := bind_eq_ok.mp h
  cases h
  exact ⟨v, rate, hv, hrate, by simp, rfl⟩

/-- A stake that waits for the answer is failed, or finished if the rate is the same. -/
theorem finishWaitingStake_cases (ctx : LSMContext) (k : LSMKeeper) (data : RateQueryData)
    (slashed : Bool) :
    (data = .empty ∧ finishWaitingStake ctx k data slashed = (k, [])) ∨
    ∃ l, data = .lsmLiquidStake l ∧
      (finishWaitingStake ctx k data slashed = (failLSMLiquidStake k l, []) ∨
      (slashed = false ∧ ∃ k', finishLSMLiquidStake ctx k l true = .ok k' ∧
        finishWaitingStake ctx k data slashed = (k', [lsmMint k l]))) := by
  cases data with
  | empty => exact .inl ⟨rfl, rfl⟩
  | lsmLiquidStake l =>
    refine .inr ⟨l, rfl, ?_⟩
    unfold finishWaitingStake lsmSlashQueryCallback
    cases slashed with
    | true => exact .inl rfl
    | false =>
      dsimp only
      cases hfinish : finishLSMLiquidStake ctx k l true with
      | error e => exact .inl rfl
      | ok k' => exact .inr ⟨rfl, k', rfl, rfl⟩

private theorem querySlashedDelegation_ok {ctx : Context}
    (h : querySlashedDelegation ctx k z a = .ok k') :
    ∃ z' : HostZone, SameUpToFlags z z' ∧ z'.rateTable = z.rateTable ∧
      k' = { k with
        hostZones := k.hostZones.set z'
        delegationQueries := k'.delegationQueries } := by
  obtain ⟨out, hout, h⟩ := bind_eq_ok.mp h
  cases h
  obtain rfl | ⟨v, key, icq, -, -, -, rfl⟩ := submitDelegationICQ_ok (wrapError_eq_ok.mp hout)
  · exact ⟨z, .refl z, rfl, rfl⟩
  · refine ⟨setSlashQueryInProgress z a true, sameUpToFlags_setSlashQueryInProgress z a true, ?_,
      rfl⟩
    exact map_modifyValidator (f := fun v => { v with slashQueryInProgress := true })
      (fun _ => rfl) z.validators a

def LSMKeeper.withoutRateQuery (k : LSMKeeper) (id : String) : LSMKeeper :=
  { k with rateQueries := deleteQuery k.rateQueries id }

/-- How the callback settles a stake that waits for its answer, from the keeper `checked` with the
    new rate. Afterwards only the delegation of a slashed validator is queried. -/
inductive StakeSettled (ctx : LSMContext) (checked k' : LSMKeeper) (data : RateQueryData)
    (slashed : Bool) : List Mint → Prop where
  | notWaiting (hdata : data = .empty)
      (hkeeper : k' = { checked with
        hostZones := k'.hostZones
        delegationQueries := k'.delegationQueries }) :
      StakeSettled ctx checked k' data slashed []
  | failed (l : LSMLiquidStake) (hdata : data = .lsmLiquidStake l)
      (hkeeper : k' = { failLSMLiquidStake checked l with
        hostZones := k'.hostZones
        delegationQueries := k'.delegationQueries }) :
      StakeSettled ctx checked k' data slashed []
  | finished (l : LSMLiquidStake) (hdata : data = .lsmLiquidStake l) (hslashed : slashed = false)
      (hfinish : finishLSMLiquidStake ctx checked l true = .ok k') :
      StakeSettled ctx checked k' data slashed [lsmMint checked l]

namespace StakeSettled

variable (h : StakeSettled ctx checked k' data slashed mints)

include h

theorem rateQueries : k'.rateQueries = checked.rateQueries := by
  cases h with
  | notWaiting _ hkeeper => rw [hkeeper]
  | failed l _ hkeeper =>
    rw [hkeeper]
    rfl
  | finished l _ _ hfinish => rw [(finishLSMLiquidStake_ok hfinish).1.keeper]

theorem params_settings : k'.params = checked.params ∧ k'.settings = checked.settings := by
  cases h with
  | notWaiting _ hkeeper =>
    rw [hkeeper]
    exact ⟨rfl, rfl⟩
  | failed l _ hkeeper =>
    rw [hkeeper]
    exact ⟨rfl, rfl⟩
  | finished l _ _ hfinish =>
    rw [(finishLSMLiquidStake_ok hfinish).1.keeper]
    exact ⟨rfl, rfl⟩

/-- Only a waiting stake on an unslashed validator mints. -/
theorem of_mem_mints {m : Mint} (hm : m ∈ mints) :
    ∃ l, data = .lsmLiquidStake l ∧ slashed = false ∧ m = lsmMint checked l ∧
      finishLSMLiquidStake ctx checked l true = .ok k' := by
  cases h with
  | notWaiting _ _ => cases hm
  | failed _ _ _ => cases hm
  | finished l hdata hslashed hfinish =>
    exact ⟨l, hdata, hslashed, List.mem_singleton.mp hm, hfinish⟩

end StakeSettled

/-- A timeout only writes the deposits. -/
theorem rateQueryTimeout_frame (k : LSMKeeper) (data : RateQueryData) :
    rateQueryTimeout k data =
      { k with lsmTokenDeposits := (rateQueryTimeout k data).lsmTokenDeposits } := by
  cases data <;> rfl

/-- What an answer about a rate has found when its callback goes through: the zone with the new
    rate is stored, then the waiting stake is settled, and after a slash the delegation is
    queried. -/
structure RateAnswered (ctx : LSMContext) (k k' : LSMKeeper) (query : RateQuery)
    (args : QueriedValidator) (mints : List Mint) (z zone : HostZone) (v : Validator)
    (rate : LegacyDec) (slashed : Bool) : Prop where
  inTime : query.hasTimedOut ctx.blockTime = false
  stored : k.hostZones.get? query.chainId = some z
  validator : getValidatorFromAddress z.validators args.operatorAddress = some v
  current : args.tokensFromShare = .ok rate
  slash : slashed = true ↔ 0 < v.sharesToTokensRate.i ∧ v.sharesToTokensRate ≠ rate
  flags : SameUpToFlags (setSharesToTokensRate z args.operatorAddress rate) zone
  rateTable : zone.rateTable = (setSharesToTokensRate z args.operatorAddress rate).rateTable
  hostZones : ∀ c, k'.hostZones.get? c =
    if c = query.chainId then some zone else k.hostZones.get? c
  settled : StakeSettled ctx (k.withZone (setSharesToTokensRate z args.operatorAddress rate)) k'
    query.callbackData slashed mints

namespace RateAnswered

variable {zone : HostZone} {v : Validator} {rate : LegacyDec}

theorem sameHalted (h : RateAnswered ctx k k' query args mints z zone v rate slashed) :
    SameView HostZone.halted k.hostZones k'.hostZones := by
  intro c
  rw [h.hostZones]
  split
  · rename_i hc
    have hsettings : zone.settings.halted = z.settings.halted := by
      rw [h.flags.settings]
      rfl
    rw [hc, h.stored]
    exact congrArg some hsettings
  · rfl

theorem sameSettings (h : RateAnswered ctx k k' query args mints z zone v rate slashed) :
    SameView HostZone.settings k.hostZones
      (k.withZone (setSharesToTokensRate z args.operatorAddress rate)).hostZones := by
  have hid : z.chainId = query.chainId := key_of_get? h.stored
  refine (SameView.refl _ _).set (w := z) ?_ rfl
  show k.hostZones.get? z.chainId = some z
  rw [hid]
  exact h.stored

end RateAnswered

private theorem queryIfSlashed_ok {settled : LSMKeeper} {mints' : List Mint} {address : String}
    (h : (if slashed then do
        let queried ← querySlashedDelegation ctx.toContext settled z address
        return (queried, mints')
      else return (settled, mints') : Result (LSMKeeper × List Mint)) = .ok (k', mints)) :
    mints = mints' ∧
      k' = { settled with
        hostZones := k'.hostZones
        delegationQueries := k'.delegationQueries } ∧
      ∃ zone, SameUpToFlags z zone ∧ zone.rateTable = z.rateTable ∧
        (k'.hostZones = settled.hostZones ∧ zone = z ∨
          k'.hostZones = settled.hostZones.set zone) := by
  split at h
  · obtain ⟨queried, hqueried, h⟩ := bind_eq_ok.mp h
    cases h
    obtain ⟨zone, hflags, htable, hkeeper⟩ := querySlashedDelegation_ok hqueried
    exact ⟨rfl, by rw [hkeeper], zone, hflags, htable, .inr (by rw [hkeeper])⟩
  · cases h
    exact ⟨rfl, rfl, z, .refl z, rfl, .inl ⟨rfl, rfl⟩⟩

private theorem afterRateCheck_ok {address : String}
    (h : afterRateCheck ctx checked z data address slashed = .ok (k', mints)) :
    StakeSettled ctx checked k' data slashed mints ∧
      ∃ zone, SameUpToFlags z zone ∧ zone.rateTable = z.rateTable ∧
        (k'.hostZones = checked.hostZones ∧ zone = z ∨
          k'.hostZones = checked.hostZones.set zone) := by
  unfold afterRateCheck at h
  obtain ⟨hdata, heq⟩ | ⟨l, hdata, heq | ⟨hslashed, finished, hfinish, heq⟩⟩ :=
    finishWaitingStake_cases ctx checked data slashed
  · -- no stake waits for the rate
    rw [heq] at h
    obtain ⟨rfl, hkeeper, hzone⟩ := queryIfSlashed_ok h
    exact ⟨.notWaiting hdata hkeeper, hzone⟩
  · rw [heq] at h
    obtain ⟨rfl, hkeeper, hzone⟩ := queryIfSlashed_ok h
    exact ⟨.failed l hdata hkeeper, hzone⟩
  · rw [heq, hslashed] at h
    cases h
    have hkeeper := (finishLSMLiquidStake_ok hfinish).1.keeper
    exact ⟨.finished l hdata hslashed hfinish, z, .refl z, rfl, .inl ⟨by rw [hkeeper], rfl⟩⟩

/-- The callback ends a query that timed out, or it stores a rate. -/
theorem validatorSharesToTokensRateCallback_ok
    (h : validatorSharesToTokensRateCallback ctx k query args = .ok (k', mints)) :
    (k' = rateQueryTimeout k query.callbackData ∧ mints = []) ∨
    ∃ z zone v rate slashed, RateAnswered ctx k k' query args mints z zone v rate slashed := by
  unfold validatorSharesToTokensRateCallback at h
  split at h
  · cases h
  rename_i z hz
  split at h
  · -- the answer comes too late
    cases h
    exact .inl ⟨rfl, rfl⟩
  · rename_i htime
    right
    obtain ⟨⟨slashed, checked⟩, hcheck, h⟩ := bind_eq_ok.mp h
    obtain ⟨v, rate, hv, hrate, hslashed, rfl⟩ := checkIfValidatorWasSlashed_ok hcheck
    have hkey : z.chainId = query.chainId := key_of_get? hz
    have hid : (setSharesToTokensRate z args.operatorAddress rate).chainId = query.chainId := hkey
    obtain ⟨hsettled, zone, hflags, htable, hzones⟩ := afterRateCheck_ok h
    refine ⟨z, zone, v, rate, slashed, by simpa using htime, hz, hv, hrate, hslashed, hflags,
      htable, fun c => ?_, hsettled⟩
    have hchecked : (k.withZone (setSharesToTokensRate z args.operatorAddress rate)).hostZones =
      k.hostZones.set (setSharesToTokensRate z args.operatorAddress rate) := rfl
    have hzone : zone.chainId = query.chainId :=
      (HostZone.chainId_eq_of_settings hflags.settings).trans hid
    obtain ⟨heq, rfl⟩ | heq := hzones
    · rw [heq, hchecked, get?_set, hid]
    · rw [heq, hchecked, set_set _ (hid.trans hzone.symm), get?_set, hzone]

/-- **Answer about a rate**: an unknown query is ignored. Otherwise the query is taken out, and it
    is submitted again, its stake is failed, its callback runs, or nothing else happens. -/
theorem respondRate_ok {result : Option QueriedValidator}
    (h : respondRate ctx k queryId result = .ok (k', mints)) :
    (k' = k ∧ mints = []) ∨
    ∃ query, k.rateQueries.queries.get? queryId = some query ∧
      ((k' = k.withoutRateQuery queryId ∧ mints = []) ∨
      (mints = [] ∧ ∃ icq, retryICQRequest ctx.toContext
        (k.withoutRateQuery queryId).rateQueries query = .ok icq ∧
        k' = { k with rateQueries := icq }) ∨
      (k' = rateQueryTimeout (k.withoutRateQuery queryId) query.callbackData ∧ mints = []) ∨
      ∃ args z zone v rate slashed, result = some args ∧
        validatorKey ctx.toContext args.operatorAddress = .ok query.requestData ∧
        RateAnswered ctx (k.withoutRateQuery queryId) k' query args mints z zone v rate
          slashed) := by
  obtain ⟨-, hk⟩ | ⟨query, hquery, hverify, ⟨-, hk⟩ | ⟨args, hargs, ⟨-, -, hk⟩ |
    ⟨-, -, icq, hicq, hk⟩ | hcallback⟩⟩ := submitQueryResponse_ok h
  · cases hk
    exact .inl ⟨rfl, rfl⟩
  · cases hk
    exact .inr ⟨query, hquery, .inl ⟨rfl, rfl⟩⟩
  · cases hk
    exact .inr ⟨query, hquery, .inl ⟨rfl, rfl⟩⟩
  · cases hk
    exact .inr ⟨query, hquery, .inr (.inl ⟨rfl, icq, hicq, rfl⟩)⟩
  · refine .inr ⟨query, hquery, .inr (.inr ?_)⟩
    obtain htimeout | ⟨z, zone, v, rate, slashed, hanswered⟩ :=
      validatorSharesToTokensRateCallback_ok hcallback
    · exact .inl htimeout
    · refine .inr ⟨args, z, zone, v, rate, slashed, hargs, ?_, hanswered⟩
      -- the proof is one for the validator of the query
      rw [hargs] at hverify
      unfold verifyValidatorProof at hverify
      dsimp only at hverify
      split at hverify
      · assumption
      · cases hverify

/-- A key determines the address of the validator. -/
theorem validatorKey_inj {ctx : Context} {b : String} {key : List UInt8}
    (ha : validatorKey ctx a = .ok key) (hb : validatorKey ctx b = .ok key) :
    ∃ bz, ctx.decodeAndConvert a = .ok bz ∧ ctx.decodeAndConvert b = .ok bz := by
  obtain ⟨bzA, hbzA, ha⟩ := bind_eq_ok.mp ha
  obtain ⟨lenA, hlenA, ha⟩ := bind_eq_ok.mp ha
  obtain ⟨bzB, hbzB, hb⟩ := bind_eq_ok.mp hb
  obtain ⟨lenB, hlenB, hb⟩ := bind_eq_ok.mp hb
  cases ha
  obtain rfl : lenB = lenA := (List.cons.inj (Except.ok.inj hb)).2
  obtain rfl := mustLengthPrefix_inj hlenA hlenB
  exact ⟨_, decodeAddress_ok hbzA, decodeAddress_ok hbzB⟩

/-! ## Outcomes of the other functions on host zones -/

private theorem updateRedemptionRateForHostZone_ok
    (h : updateRedemptionRateForHostZone k z = .ok k') :
    ∃ z' : HostZone, z'.chainId = z.chainId ∧ z'.haltedAndRates = z.haltedAndRates ∧
      k' = { k with hostZones := k.hostZones.set z' } := by
  obtain ⟨z', hz', h⟩ := bind_eq_ok.mp h
  cases h
  refine ⟨z', ?_, ?_, rfl⟩
  · rw [updatedHostZone_ok hz']
  · rw [updatedHostZone_ok hz']
    rfl

/-- **Redemption rates**: nothing is halted, and no rate of a validator changes. -/
theorem updateRedemptionRates_ok (h : updateRedemptionRates k = .ok k') :
    SameView HostZone.haltedAndRates k.hostZones k'.hostZones ∧
      k' = { k with hostZones := k'.hostZones } := by
  refine foldlM_ok_rule
    (P := fun t => SameView HostZone.haltedAndRates k.hostZones t.hostZones ∧
      t = { k with hostZones := t.hostZones }) ?_ ⟨.refl _ _, rfl⟩ h
  rintro t z hz t' ⟨hview, hkeeper⟩ hstep
  obtain ⟨z', hchain, hz', rfl⟩ := updateRedemptionRateForHostZone_ok hstep
  -- the zone was read before the loop, and no other turn has written it
  have hstored : k.hostZones.get? z'.chainId = some z := by
    rw [hchain]
    exact mem_values_iff.mp (List.mem_filter.mp hz).1
  refine ⟨hview.set hstored hz', ?_⟩
  rw [hkeeper]

private theorem delegatorSharesUpdate_ok {ctx : Context} {query : DelegationQuery}
    {args : QueriedDelegation} (h : delegatorSharesUpdate ctx k query args = .ok k') :
    SameView HostZone.haltedAndRates k.hostZones k'.hostZones ∧
      k' = { k with
        hostZones := k'.hostZones
        delegationQueries := k'.delegationQueries } := by
  unfold delegatorSharesUpdate at h
  split at h
  · cases h
  rename_i z hz
  have hchain : z.chainId = query.chainId := key_of_get? hz
  obtain ⟨verdict, hverdict, h⟩ := bind_eq_ok.mp h
  obtain ⟨prev, v, -, -, ⟨-, rfl⟩ | ⟨-, slashed, tokens, zone, hcheck, rfl⟩⟩ :=
    delegatorSharesVerdict_ok hverdict
  · -- overlapped: nothing but the query is written
    obtain ⟨icq, -, h⟩ := bind_eq_ok.mp h
    cases h
    exact ⟨.refl _ _, rfl⟩
  · have hflags : (setSlashQueryInProgress z v.address false).rateTable = z.rateTable :=
      map_modifyValidator (f := fun v => { v with slashQueryInProgress := false })
        (fun _ => rfl) z.validators v.address
    obtain ⟨hsettings, hrates⟩ := map_checkForSlash hcheck
      (g := fun w => (w.address, w.sharesToTokensRate)) fun _ _ => rfl
    have hzone : zone.haltedAndRates = z.haltedAndRates :=
      haltedAndRates_of_settings hsettings (hrates.trans hflags)
    have hid : zone.chainId = query.chainId :=
      (HostZone.chainId_eq_of_settings hsettings).trans hchain
    cases slashed with
    | false =>
      cases h
      exact ⟨(SameView.refl _ _).set (hid ▸ hz) hzone, rfl⟩
    | true =>
      obtain ⟨slashedZone, hslash, h⟩ := bind_eq_ok.mp h
      obtain ⟨hsettings', hrates'⟩ := map_slashValidatorOnHostZone hslash
        (g := fun w => (w.address, w.sharesToTokensRate)) fun _ _ _ => rfl
      -- a slash also updates the redemption rate
      obtain ⟨updated, hchain', hupdated, rfl⟩ := updateRedemptionRateForHostZone_ok h
      have hslashed : slashedZone.haltedAndRates = z.haltedAndRates :=
        (haltedAndRates_of_settings hsettings' hrates').trans hzone
      have hid' : slashedZone.chainId = query.chainId :=
        (HostZone.chainId_eq_of_settings hsettings').trans hid
      refine ⟨(SameView.set ?_ (hid' ▸ hz) hslashed).set ?_
        (hupdated.trans hslashed), rfl⟩
      · exact .refl _ _
      · rw [hchain', hid']
        exact hz

/-- **Answer about a delegation**: nothing is halted, and no rate of a validator changes. -/
theorem delegatorSharesResponse_ok {ctx : Context} {result : Option QueriedDelegation}
    (h : delegatorSharesResponse ctx k queryId result = .ok k') :
    SameView HostZone.haltedAndRates k.hostZones k'.hostZones ∧
      k' = { k with
        hostZones := k'.hostZones
        delegationQueries := k'.delegationQueries } := by
  obtain ⟨-, rfl⟩ | ⟨query, -, -, ⟨-, rfl⟩ | ⟨args, -, ⟨-, -, rfl⟩ | ⟨-, -, icq, -, rfl⟩ |
    hcallback⟩⟩ := submitQueryResponse_ok h
  · exact ⟨.refl _ _, rfl⟩
  · exact ⟨.refl _ _, rfl⟩
  · exact ⟨.refl _ _, rfl⟩
  · exact ⟨.refl _ _, rfl⟩
  · obtain ⟨hview, hkeeper⟩ := delegatorSharesUpdate_ok
      (k := { k with delegationQueries := deleteQuery k.delegationQueries queryId }) hcallback
    exact ⟨hview, hkeeper⟩

/-- **Begin of a block**: zones with an unsafe rate are halted, and nothing else changes. -/
theorem get?_beginBlocker (k : LSMKeeper) (c : String) :
    (beginBlocker k).hostZones.get? c = (k.hostZones.get? c).map fun z : HostZone =>
      if k.rateSafe z = false then { z with halted := true } else z :=
  get?_foldl_set_values (g := fun z : HostZone => { z with halted := true })
    (fun _ => rfl) k.hostZones c

end Stride.Stakeibc
