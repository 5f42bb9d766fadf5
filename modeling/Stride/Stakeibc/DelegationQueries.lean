import Stride.InterchainQuery.Keeper
import Stride.Stakeibc.BookEffect

/-!
# Queries About Delegations

`stakeibc` has two kinds of queries about the delegation of its account to a validator. A
calibration takes the answer into the book if it is close. A delegation query, which is sent
after the rate of a validator went down, looks for a slash; while it is in progress the
validator is excluded from the flows that change delegations.

The update of the redemption rate at the end of a slash is not part of this module.

## Main results

- `SameUpToFlags`: what a change of flags leaves alone
- `delegatorSharesVerdict_ok`, `calibrateDelegationCallback_ok`
-/

namespace Stride.Stakeibc

open Lib Sdk InterchainQuery List

/-! ## Types -/

/-- Callback data of the two queries: `DelegatorSharesQueryCallback`, or no bytes. -/
inductive DelegationQueryData where
  | empty
  | delegatorShares (initialValidatorDelegation : ℤ)
  deriving DecidableEq

instance (data : DelegationQueryData) {p : ℤ → Prop} [DecidablePred p] :
    Decidable (∀ n, data = .delegatorShares n → p n) :=
  match data with
  | .empty => .isTrue fun _ h => by cases h
  | .delegatorShares n => decidable_of_iff (p n) (by simp)

/-- A `Delegation` in the staking store of the host. -/
structure QueriedDelegation where
  delegatorAddress : String
  validatorAddress : String
  shares : LegacyDec
  deriving DecidableEq

abbrev DelegationQuery := Query DelegationQueryData

theorem callbackId_of_request {q q' : DelegationQuery} {callbackId : String}
    (h : q'.request = q.request) (hq : q.callbackId = callbackId) : q'.callbackId = callbackId :=
  (congrArg (fun r => r.callbackId) h).trans hq

/-- The state that the queries of one zone read and write. -/
structure QueryKeeper where
  hostZone : HostZone
  icq : IcqKeeper DelegationQueryData

/-! ## Submission -/

def mustLengthPrefix (bz : List UInt8) : Result (List UInt8) :=
  if 255 < bz.length then
    goPanic s!"address length should be max 255 bytes, got {bz.length}: unknown address"
  else if bz = [] then .ok []
  else .ok (UInt8.ofNat bz.length :: bz)

def getDelegationKey (delegator validator : List UInt8) : Result (List UInt8) := do
  let delegator ← mustLengthPrefix delegator
  let validator ← mustLengthPrefix validator
  return 0x31 :: delegator ++ validator

/-- `bech32.DecodeAndConvert`, with the error of the callers. -/
def decodeAddress (ctx : Context) (what address : String) : Result (List UInt8) :=
  match ctx.decodeAndConvert address with
  | .ok bz => .ok bz
  | .error err =>
    wrapf .errInvalidRequest s!"invalid {what} address, could not decode ({err})"

/-- The key of a delegation of the zone in the staking store of its host. -/
def delegationKey (ctx : Context) (hostZone : HostZone) (validatorAddress : String) :
    Result (List UInt8) := do
  let validatorAddressBz ← decodeAddress ctx "validator" validatorAddress
  let delegatorAddressBz ← decodeAddress ctx "delegator" hostZone.delegationIcaAddress
  getDelegationKey delegatorAddressBz validatorAddressBz

/-- The common part of the two queries. One hour is `3600 * 10 ^ 9` nanoseconds. -/
def newDelegationQuery (hostZone : HostZone) (requestData : List UInt8) (callbackId : String)
    (callbackData : DelegationQueryData) : DelegationQuery where
  id := ""
  connectionId := hostZone.connectionId
  chainId := hostZone.chainId
  queryType := "store/staking/key"
  requestData := requestData
  callbackModule := "stakeibc"
  callbackId := callbackId
  callbackData := callbackData
  timeoutPolicy := .retryQueryRequest
  timeoutDuration := 3600 * 10 ^ 9
  timeoutTimestamp := 0
  requestSent := false
  submissionHeight := 0

def setSlashQueryInProgress (hostZone : HostZone) (address : String) (inProgress : Bool) :
    HostZone :=
  { hostZone with
    validators := modifyValidator address
      (fun v => { v with slashQueryInProgress := inProgress }) hostZone.validators }

def submitDelegationICQ (ctx : Context) (k : QueryKeeper) (validatorAddress : String) :
    Result QueryKeeper :=
  if k.hostZone.delegationIcaAddress = "" then
    wrapf .errICAAccountNotFound s!"no delegation address found for {k.hostZone.chainId}"
  else
    match getValidatorFromAddress k.hostZone.validators validatorAddress with
    | none =>
      wrapf .errValidatorNotFound s!"no registered validator for address ({validatorAddress})"
    | some validator =>
      -- only submit the query if there's not already one in progress
      if validator.slashQueryInProgress then .ok k
      else do
        let queryData ← delegationKey ctx k.hostZone validatorAddress
        let icq ← submitICQRequest ctx k.icq
          (newDelegationQuery k.hostZone queryData "delegation"
            (.delegatorShares validator.delegation)) false
        return ⟨setSlashQueryInProgress k.hostZone validatorAddress true, icq⟩

def submitCalibrationICQ (ctx : Context) (k : QueryKeeper) (validatorAddress : String) :
    Result QueryKeeper :=
  if k.hostZone.delegationIcaAddress = "" then
    wrapf .errICAAccountNotFound s!"no delegation address found for {k.hostZone.chainId}"
  else
    match getValidatorFromAddress k.hostZone.validators validatorAddress with
    | none =>
      wrapf .errValidatorNotFound s!"no registered validator for address ({validatorAddress})"
    | some _ => do
      let queryData ← delegationKey ctx k.hostZone validatorAddress
      let icq ← submitICQRequest ctx k.icq
        (newDelegationQuery k.hostZone queryData "calibrate" .empty) false
      return { k with icq := icq }

/-! ## Callbacks -/

/-- Tokens of an answer, at the rate that is stored for the validator. -/
def delegatedTokens (validator : Validator) (queriedDelegation : QueriedDelegation) : ℤ :=
  (queriedDelegation.shares.mul validator.sharesToTokensRate).truncateInt

def calibrationThreshold : ℤ := 5000

def calibrateDelegationCallback (hostZone : HostZone) (query : DelegationQuery)
    (queriedDelegation : QueriedDelegation) : Result HostZone :=
  if query.chainId ≠ hostZone.chainId then
    wrapf .errHostZoneNotFound s!"no registered zone for queried chain ID ({query.chainId})"
  else
    match getValidatorFromAddress hostZone.validators queriedDelegation.validatorAddress with
    | none =>
      wrapf .errValidatorNotFound
        s!"no registered validator for address ({queriedDelegation.validatorAddress})"
    | some validator =>
      let tokens := delegatedTokens validator queriedDelegation
      if tokens = validator.delegation then .ok hostZone
      else
        let delegationChange := validator.delegation - tokens
        -- a change above the threshold is only logged
        if calibrationThreshold < |delegationChange| then .ok hostZone
        else
          .ok { hostZone with
            validators := modifyValidator queriedDelegation.validatorAddress
              (fun v => { v with delegation := v.delegation - delegationChange })
              hostZone.validators
            totalDelegations := hostZone.totalDelegations - delegationChange }

def checkDelegationChangedDuringQuery (validator : Validator)
    (previousInternalDelegation currentInternalDelegation : ℤ) : Bool :=
  if currentInternalDelegation ≠ previousInternalDelegation then true
  else 0 < validator.delegationChangesInProgress

/-- `CheckForSlash`: whether the validator was slashed, the tokens of the answer, and the host
    zone, in which a small difference upwards has been corrected. -/
def checkForSlash (hostZone : HostZone) (validator : Validator)
    (queriedDelegation : QueriedDelegation) : Result (Bool × ℤ × HostZone) :=
  let tokens := delegatedTokens validator queriedDelegation
  if tokens = validator.delegation then .ok (false, tokens, hostZone)
  else
    let precisionError := tokens - validator.delegation
    if 0 < precisionError ∧ precisionError ≤ 1000 then
      .ok (false, tokens, { hostZone with
        validators := modifyValidator validator.address
          (fun v => { v with delegation := v.delegation + precisionError }) hostZone.validators
        totalDelegations := hostZone.totalDelegations + precisionError })
    else if validator.delegation < tokens then
      wrapf .errInvalidRequest
        s!"Validator ({validator.address}) tokens returned from query is greater than the Delegation"
    else .ok (true, tokens, hostZone)

def uint64ToInt64E (u : UInt64) : Option ℤ :=
  if 2 ^ 63 ≤ u.toNat then none else some u.toNat

/-- `Uint64` of an `Int` panics outside of the range. -/
def intUint64 (n : ℤ) : Result UInt64 :=
  if 0 ≤ n ∧ n < 2 ^ 64 then .ok (UInt64.ofNat n.toNat) else goPanic "Uint64() out of bounds"

/-- `SlashValidatorOnHostZone`, without the update of the redemption rate. -/
def slashValidatorOnHostZone (hostZone : HostZone) (validator : Validator) (tokens : ℤ) :
    Result HostZone :=
  if validator.delegation = 0 then
    wrapf .errDivisionByZero "Zero Delegation has caused division by zero from validator"
  else
    let slashAmount := validator.delegation - tokens
    match uint64ToInt64E validator.weight with
    | none =>
      wrapf .errIntCast s!"unable to convert validator weight to int64, err: overflow: unable to cast {validator.weight} of type uint64 to int64"
    | some weight => do
      let weightAdjustment ←
        (LegacyDec.fromInt tokens).quo (LegacyDec.fromInt validator.delegation)
      let weight ← intUint64 ((LegacyDec.fromInt weight).mul weightAdjustment).truncateInt
      return { hostZone with
        validators := modifyValidator validator.address
          (fun v => { v with weight := weight, delegation := v.delegation - slashAmount })
          hostZone.validators
        totalDelegations := hostZone.totalDelegations - slashAmount }

/-- What `DelegatorSharesCallback` finds. -/
inductive SharesVerdict where
  /-- an ICA may have overlapped: query again, from this delegation -/
  | overlapped (currInternalDelegation : ℤ)
  | notSlashed (hostZone : HostZone)
  | slashed (hostZone : HostZone) (validator : Validator) (delegatedTokens : ℤ)
  deriving DecidableEq

/-- `DelegatorSharesCallback` up to the call of `SlashValidatorOnHostZone`. -/
def delegatorSharesVerdict (hostZone : HostZone) (query : DelegationQuery)
    (queriedDelegation : QueriedDelegation) : Result SharesVerdict :=
  if query.chainId ≠ hostZone.chainId then
    wrapf .errHostZoneNotFound s!"no registered zone for queried chain ID ({query.chainId})"
  else
    match query.callbackData with
    | .empty => goPanic "the initial delegation is nil"
    | .delegatorShares prevInternalDelegation =>
      match getValidatorFromAddress hostZone.validators queriedDelegation.validatorAddress with
      | none =>
        wrapf .errValidatorNotFound
          s!"no registered validator for address ({queriedDelegation.validatorAddress})"
      | some validator =>
        if checkDelegationChangedDuringQuery validator prevInternalDelegation
            validator.delegation then
          .ok (.overlapped validator.delegation)
        else do
          let hostZone := setSlashQueryInProgress hostZone validator.address false
          let validator := { validator with slashQueryInProgress := false }
          let (validatorWasSlashed, tokens, hostZone) ←
            checkForSlash hostZone validator queriedDelegation
          if validatorWasSlashed then return .slashed hostZone validator tokens
          else return .notSlashed hostZone

def delegatorSharesCallback (ctx : Context) (k : QueryKeeper) (query : DelegationQuery)
    (queriedDelegation : QueriedDelegation) : Result QueryKeeper := do
  match ← delegatorSharesVerdict k.hostZone query queriedDelegation with
  | .overlapped currInternalDelegation =>
    let icq ← wrapError (retryICQRequest ctx k.icq
      { query with callbackData := .delegatorShares currInternalDelegation })
      "unable to resubmit delegator shares query"
    return { k with icq := icq }
  | .notSlashed hostZone => return { k with hostZone := hostZone }
  | .slashed hostZone validator tokens =>
    let hostZone ← slashValidatorOnHostZone hostZone validator tokens
    return { k with hostZone := hostZone }

/-- `InvokeCallback`, for the two callbacks of this module. -/
def invokeDelegationCallback (ctx : Context) (hostZone : HostZone)
    (icq : IcqKeeper DelegationQueryData) (query : DelegationQuery) (args : QueriedDelegation) :
    Result QueryKeeper :=
  if query.callbackId = "delegation" then delegatorSharesCallback ctx ⟨hostZone, icq⟩ query args
  else if query.callbackId = "calibrate" then do
    let hostZone ← calibrateDelegationCallback hostZone query args
    return ⟨hostZone, icq⟩
  else wrapf .errICQCallbackNotFound "icq callback id not found"

/-! ## Flags -/

def Validator.unflagged (v : Validator) : Validator :=
  { v with slashQueryInProgress := false }

/-- Two zones that differ in the flags of their validators only. -/
structure SameUpToFlags (z z' : HostZone) : Prop where
  settings : z'.settings = z.settings
  total : z'.totalDelegations = z.totalDelegations
  unflagged : z'.validators.map Validator.unflagged = z.validators.map Validator.unflagged

namespace SameUpToFlags

variable {z z' : HostZone}

theorem refl (z : HostZone) : SameUpToFlags z z := ⟨rfl, rfl, rfl⟩

variable (h : SameUpToFlags z z')

include h

theorem map_eq {α : Type} (g : Validator → α) (hg : ∀ v, g v.unflagged = g v) :
    z'.validators.map g = z.validators.map g := by
  have hmap := congrArg (map g) h.unflagged
  simpa [map_map, Function.comp_def, hg] using hmap

theorem addresses : z'.addresses = z.addresses :=
  h.map_eq Validator.address fun _ => rfl

private theorem get_eq (g : Validator → ℤ) (hg : ∀ v, g v.unflagged = g v) (a : String) :
    (getValidatorFromAddress z'.validators a).map g =
      (getValidatorFromAddress z.validators a).map g := by
  -- the flag plays no part in the search, so both sides look into the same list
  have hview (vals : List Validator) : (getValidatorFromAddress vals a).map g =
      (getValidatorFromAddress (vals.map Validator.unflagged) a).map g := by
    simp only [getValidatorFromAddress, find?_map, Option.map_map]
    congr 1
    funext v
    exact (hg v).symm
  rw [hview, hview z.validators, h.unflagged]

theorem recorded (a : String) : z'.recorded a = z.recorded a :=
  h.get_eq Validator.delegation (fun _ => rfl) a

theorem changes (a : String) : z'.changesInProgress a = z.changesInProgress a :=
  h.get_eq Validator.delegationChangesInProgress (fun _ => rfl) a

theorem totalConsistent (hz : z.TotalConsistent) : z'.TotalConsistent := by
  have hmap := h.map_eq Validator.delegation fun _ => rfl
  simp only [HostZone.TotalConsistent] at hz ⊢
  rw [h.total, hmap]
  exact hz

end SameUpToFlags

theorem sameUpToFlags_setSlashQueryInProgress (z : HostZone) (a : String) (b : Bool) :
    SameUpToFlags z (setSlashQueryInProgress z a b) :=
  ⟨rfl, rfl, map_modifyValidator (f := fun v => { v with slashQueryInProgress := b })
    (fun _ => rfl) z.validators a⟩

def HostZone.flags (hostZone : HostZone) : List (String × Bool) :=
  hostZone.validators.map fun v => (v.address, v.slashQueryInProgress)

variable {ctx : Context} {query : DelegationQuery} {k k' : QueryKeeper} {a address b : String}
  {args : QueriedDelegation}

/-- Only the flag of one validator is set. -/
theorem mem_flags_setSlashQueryInProgress {z : HostZone} {inProgress : Bool}
    (h : (b, true) ∈ (setSlashQueryInProgress z a inProgress).flags) (hnd : z.addresses.Nodup) :
    (b = a ∧ inProgress = true) ∨ (b ≠ a ∧ (b, true) ∈ z.flags) := by
  simp only [HostZone.flags, setSlashQueryInProgress, modifyValidator_eq_map hnd, map_map,
    mem_map, Function.comp_apply, Prod.mk.injEq] at h ⊢
  obtain ⟨v, hv, haddress, hflag⟩ := h
  by_cases hva : v.address = a
  · simp only [hva, if_true] at haddress hflag
    exact .inl ⟨haddress.symm, hflag⟩
  · simp only [hva, if_false] at haddress hflag
    exact .inr ⟨haddress ▸ hva, v, hv, haddress, hflag⟩

/-! ## Outcomes of the submissions -/

/-- A submission stores a query for the delegation to the validator and raises its flag,
    unless the flag is up already. -/
theorem submitDelegationICQ_ok (h : submitDelegationICQ ctx k address = .ok k') :
    k' = k ∨
    ∃ v key icq, getValidatorFromAddress k.hostZone.validators address = some v ∧
      delegationKey ctx k.hostZone address = .ok key ∧
      submitICQRequest ctx k.icq
        (newDelegationQuery k.hostZone key "delegation" (.delegatorShares v.delegation)) false =
        .ok icq ∧
      k' = ⟨setSlashQueryInProgress k.hostZone address true, icq⟩ := by
  unfold submitDelegationICQ at h
  split at h
  · cases h
  split at h
  · cases h
  rename_i v hv
  split at h
  · cases h
    exact .inl rfl
  · obtain ⟨key, hkey, h⟩ := bind_eq_ok.mp h
    obtain ⟨icq, hicq, h⟩ := bind_eq_ok.mp h
    cases h
    exact .inr ⟨v, key, icq, hv, hkey, hicq, rfl⟩

theorem submitCalibrationICQ_ok (h : submitCalibrationICQ ctx k address = .ok k') :
    ∃ key icq, delegationKey ctx k.hostZone address = .ok key ∧
      submitICQRequest ctx k.icq (newDelegationQuery k.hostZone key "calibrate" .empty) false =
        .ok icq ∧
      k' = { k with icq := icq } := by
  unfold submitCalibrationICQ at h
  split at h
  · cases h
  split at h
  · cases h
  obtain ⟨key, hkey, h⟩ := bind_eq_ok.mp h
  obtain ⟨icq, hicq, h⟩ := bind_eq_ok.mp h
  cases h
  exact ⟨key, icq, hkey, hicq, rfl⟩

/-! ## Outcomes of the callbacks -/

/-- The callback of a delegation query either finds a change and queries again, or clears the
    flag of the validator and looks for a slash. -/
theorem delegatorSharesVerdict_ok {z : HostZone} {verdict : SharesVerdict}
    (h : delegatorSharesVerdict z query args = .ok verdict) :
    ∃ prev v, query.callbackData = .delegatorShares prev ∧
      getValidatorFromAddress z.validators args.validatorAddress = some v ∧
      ((checkDelegationChangedDuringQuery v prev v.delegation = true ∧
        verdict = .overlapped v.delegation) ∨
      (checkDelegationChangedDuringQuery v prev v.delegation = false ∧
        ∃ slashed tokens zone,
          checkForSlash (setSlashQueryInProgress z v.address false) v.unflagged args =
            .ok (slashed, tokens, zone) ∧
          verdict = if slashed then .slashed zone v.unflagged tokens else .notSlashed zone)) := by
  unfold delegatorSharesVerdict at h
  split at h
  · cases h
  split at h
  · cases h
  rename_i prev hdata
  split at h
  · cases h
  rename_i v hv
  refine ⟨prev, v, hdata, hv, ?_⟩
  split at h
  · rename_i hchanged
    cases h
    exact .inl ⟨hchanged, rfl⟩
  · rename_i hsame
    refine .inr ⟨by simpa using hsame, ?_⟩
    obtain ⟨⟨slashed, tokens, zone⟩, hcheck, h⟩ := bind_eq_ok.mp h
    refine ⟨slashed, tokens, zone, hcheck, ?_⟩
    cases slashed <;> cases h <;> rfl

/-- The outcomes of a calibration: nothing, or the recorded delegation becomes the answer. -/
theorem calibrateDelegationCallback_ok {z z' : HostZone}
    (h : calibrateDelegationCallback z query args = .ok z') :
    ∃ v, getValidatorFromAddress z.validators args.validatorAddress = some v ∧
      (z' = z ∨
      (delegatedTokens v args ≠ v.delegation ∧
        |v.delegation - delegatedTokens v args| ≤ calibrationThreshold ∧
        z' = adjustZone z args.validatorAddress (delegatedTokens v args - v.delegation)
          (delegatedTokens v args - v.delegation) 0)) := by
  unfold calibrateDelegationCallback at h
  split at h
  · cases h
  split at h
  · cases h
  rename_i v hv
  refine ⟨v, hv, ?_⟩
  dsimp only at h
  split at h
  · -- the recorded delegation is right
    cases h
    exact .inl rfl
  · rename_i hdiffers
    split at h
    · -- the difference is beyond the threshold
      cases h
      exact .inl rfl
    · rename_i hsmall
      cases h
      refine .inr ⟨hdiffers, not_lt.mp hsmall, ?_⟩
      have hadjust : (fun w : Validator =>
          { w with delegation := w.delegation - (v.delegation - delegatedTokens v args) }) =
            Validator.adjust (delegatedTokens v args - v.delegation) 0 := by
        funext w
        simp only [Validator.adjust, add_zero]
        congr 1
        omega
      simp only [adjustZone, hadjust]
      congr 1
      omega

section Views

variable {α : Type} {z z' : HostZone} {v : Validator} {tokens : ℤ}

variable {g : Validator → α}

/-- A check only writes delegations. -/
theorem map_checkForSlash {slashed : Bool} (h : checkForSlash z v args = .ok (slashed, tokens, z'))
    (hg : ∀ w d, g { w with delegation := d } = g w) :
    z'.settings = z.settings ∧ z'.validators.map g = z.validators.map g := by
  unfold checkForSlash at h
  dsimp only at h
  split at h
  · cases h
    exact ⟨rfl, rfl⟩
  · split at h
    · cases h
      exact ⟨rfl, map_modifyValidator (f := fun w => { w with
        delegation := w.delegation + (delegatedTokens v args - v.delegation) })
        (fun w => hg w _) _ _⟩
    · split at h
      · cases h
      cases h
      exact ⟨rfl, rfl⟩

/-- A slash only writes weight and delegation. -/
theorem map_slashValidatorOnHostZone (h : slashValidatorOnHostZone z v tokens = .ok z')
    (hg : ∀ w n d, g { w with weight := n, delegation := d } = g w) :
    z'.settings = z.settings ∧ z'.validators.map g = z.validators.map g := by
  unfold slashValidatorOnHostZone at h
  split at h
  · cases h
  split at h
  · cases h
  obtain ⟨adjustment, -, h⟩ := bind_eq_ok.mp h
  obtain ⟨weight, -, h⟩ := bind_eq_ok.mp h
  cases h
  exact ⟨rfl, map_modifyValidator (f := fun w => { w with
    weight := weight, delegation := w.delegation - (v.delegation - tokens) })
    (fun w => hg w _ _) _ _⟩

end Views

/-- The callback of a delegation query either submits it again, or clears the flag of the
    validator of the answer. -/
theorem delegatorSharesCallback_ok (h : delegatorSharesCallback ctx k query args = .ok k') :
    (k'.hostZone = k.hostZone ∧ ∃ d, retryICQRequest ctx k.icq
      { query with callbackData := .delegatorShares d } = .ok k'.icq) ∨
    (args.validatorAddress ∈ k.hostZone.addresses ∧
      k'.icq = k.icq ∧ k'.hostZone.settings = k.hostZone.settings ∧
      k'.hostZone.flags =
        (setSlashQueryInProgress k.hostZone args.validatorAddress false).flags) := by
  obtain ⟨verdict, hverdict, h⟩ := bind_eq_ok.mp h
  obtain ⟨prev, v, -, hv, ⟨-, rfl⟩ | ⟨-, slashed, tokens, zone, hcheck, rfl⟩⟩ :=
    delegatorSharesVerdict_ok hverdict
  · -- overlapped: the query is submitted again
    obtain ⟨icq, hicq, h⟩ := bind_eq_ok.mp h
    cases h
    exact .inl ⟨rfl, v.delegation, wrapError_eq_ok.mp hicq⟩
  · right
    have haddress := address_of_getValidatorFromAddress hv
    rw [haddress] at hcheck
    obtain ⟨hsettings, hflags⟩ := map_checkForSlash hcheck
      (g := fun w => (w.address, w.slashQueryInProgress)) fun _ _ => rfl
    refine ⟨mem_map.mpr ⟨v, mem_of_find?_eq_some hv, haddress⟩, ?_⟩
    cases slashed with
    | false =>
      cases h
      exact ⟨rfl, hsettings, hflags⟩
    | true =>
      obtain ⟨zone', hslash, h⟩ := bind_eq_ok.mp h
      cases h
      obtain ⟨hsettings', hflags'⟩ := map_slashValidatorOnHostZone hslash
        (g := fun w => (w.address, w.slashQueryInProgress)) fun _ _ _ => rfl
      exact ⟨rfl, hsettings'.trans hsettings, hflags'.trans hflags⟩

theorem flags_of_calibrateDelegationCallback {z z' : HostZone}
    (h : calibrateDelegationCallback z query args = .ok z') :
    z'.settings = z.settings ∧ z'.flags = z.flags := by
  obtain ⟨v, -, rfl | ⟨-, -, rfl⟩⟩ := calibrateDelegationCallback_ok h
  · exact ⟨rfl, rfl⟩
  · exact ⟨rfl, map_modifyValidator (f := Validator.adjust _ 0) (fun _ => rfl) _ _⟩

/-! ## Keys -/

theorem mustLengthPrefix_inj {a b x : List UInt8} (ha : mustLengthPrefix a = .ok x)
    (hb : mustLengthPrefix b = .ok x) : a = b := by
  simp only [mustLengthPrefix] at ha hb
  split at ha
  · cases ha
  split at hb
  · cases hb
  split at ha <;> split at hb
  · simp_all
  · cases ha
    cases hb
  · cases ha
    cases hb
  · cases ha
    exact (cons.inj (Except.ok.inj hb)).2.symm

theorem decodeAddress_ok {what : String} {bz : List UInt8}
    (h : decodeAddress ctx what address = .ok bz) : ctx.decodeAndConvert address = .ok bz := by
  unfold decodeAddress at h
  split at h
  · rename_i bz' hbz
    cases h
    exact hbz
  · cases h

/-- A key determines the address of the validator. -/
theorem delegationKey_inj {z : HostZone} {key : List UInt8} (ha : delegationKey ctx z a = .ok key)
    (hb : delegationKey ctx z b = .ok key) :
    ∃ bz, ctx.decodeAndConvert a = .ok bz ∧ ctx.decodeAndConvert b = .ok bz := by
  obtain ⟨bzA, hbzA, ha⟩ := bind_eq_ok.mp ha
  obtain ⟨delA, hdelA, ha⟩ := bind_eq_ok.mp ha
  obtain ⟨lenDelA, hlenDelA, ha⟩ := bind_eq_ok.mp ha
  obtain ⟨lenA, hlenA, ha⟩ := bind_eq_ok.mp ha
  obtain ⟨bzB, hbzB, hb⟩ := bind_eq_ok.mp hb
  obtain ⟨delB, hdelB, hb⟩ := bind_eq_ok.mp hb
  obtain ⟨lenDelB, hlenDelB, hb⟩ := bind_eq_ok.mp hb
  obtain ⟨lenB, hlenB, hb⟩ := bind_eq_ok.mp hb
  -- the part of the delegator is the same, so that the parts of the validators are
  obtain rfl : delA = delB := Except.ok.inj (hdelA.symm.trans hdelB)
  obtain rfl : lenDelA = lenDelB := Except.ok.inj (hlenDelA.symm.trans hlenDelB)
  cases ha
  have hparts : 0x31 :: lenDelA ++ lenB = 0x31 :: lenDelA ++ lenA := Except.ok.inj hb
  obtain rfl : lenB = lenA := append_cancel_left hparts
  obtain rfl := mustLengthPrefix_inj hlenA hlenB
  exact ⟨_, decodeAddress_ok hbzA, decodeAddress_ok hbzB⟩

end Stride.Stakeibc
