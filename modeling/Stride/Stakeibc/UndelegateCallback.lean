import Stride.Stakeibc.Unbonding

/-!
# The Undelegate Callback

What happens on Stride when the host acknowledges a batch of undelegations.

A batch does not know which record it pays for: a successful batch is taken off the
records of its submission in a cascade, the earliest first.
-/

namespace Stride.Stakeibc

open Lib Sdk Records Records.EpochUnbondingStore List

/-! ## Model -/

/-- The outcome of an interchain account transaction. A message response is the completion
    time of its undelegation, in nanoseconds, or `none` if it cannot be decoded. -/
structure UndelegateAck where
  status : AckStatus
  msgResponses : List (Option ℤ)
  deriving DecidableEq

/-- One more answered transaction on a record. -/
def ackReceived (r : HostZoneUnbonding) : HostZoneUnbonding :=
  { r with undelegationTxsInProgress := r.undelegationTxsInProgress - 1 }

def markUndelegationAckReceived (k : UnbondingKeeper) (callback : UndelegateCallback) :
    Result UnbondingKeeper := do
  let chainId := k.hostZone.chainId
  let hostZone ← (callback.splitUndelegations.map SplitUndelegation.validator).foldlM
    decrementValidatorDelegationChangesInProgress k.hostZone
  let (_, records) ← forEachHostZoneUnbonding chainId
    (fun e => ⟨.errHostUnbondingRecordNotFound, s!"epoch number {e}, chain {chainId}"⟩)
    (fun _ _ r =>
      if r.undelegationTxsInProgress = 0 then
        wrapf .errInvalidUndelegationsInProgress
          "undelegation changes in progress is already 0 and can't be decremented"
      else .ok ((), some (ackReceived r)))
    callback.epochUnbondingRecordIds () k.epochUnbondingRecords
  return { k with hostZone := hostZone, epochUnbondingRecords := records }

/-- `HandleFailedUndelegation`: also returns the epochs of its failure event. -/
def handleFailedUndelegation (s : EpochUnbondingStore) (chainId : String)
    (epochNumbers : List ℕ) : Result (List ℕ × EpochUnbondingStore) :=
  forEachHostZoneUnbonding chainId
    (fun e => ⟨.errHostUnbondingRecordNotFound, s!"epoch number {e}, chain {chainId}"⟩)
    (fun retriedEpochs e r =>
      if r.status ≠ .unbondingInProgress then .ok (retriedEpochs, none)
      else .ok (retriedEpochs ++ [e], some { r with status := .unbondingRetryQueue }))
    epochNumbers [] s

def updateDelegationBalances (hostZone : HostZone) (callback : UndelegateCallback) :
    Result HostZone :=
  callback.splitUndelegations.foldlM
    (fun zone u => addDelegationToValidator zone u.validator (-u.nativeTokenAmount)) hostZone

def calculateTotalUnbondedInBatch (undelegations : List SplitUndelegation) : ℤ :=
  (undelegations.map SplitUndelegation.nativeTokenAmount).sum

/-- The loop of `GetLatestUnbondingCompletionTime`. -/
def latestCompletionTime : List (Option ℤ) → ℕ → Result ℕ
  | [], latest => .ok latest
  | none :: _, _ =>
    wrapf .errUnmarshalFailure "Unable to unmarshal undelegation tx response"
  | some time :: rest, latest =>
    if time < 0 then
      goPanic s!"int64 value {time} is negative and can't be converted to uint64"
    else latestCompletionTime rest (if latest < time.toNat then time.toNat else latest)

def getLatestUnbondingCompletionTime (msgResponses : List (Option ℤ)) : Result ℕ := do
  let latest ← latestCompletionTime msgResponses 0
  if latest = 0 then
    wrapf .errInvalidPacketCompletionTime "Invalid completion time 0 from txMsg"
  else return latest

/-- The running totals of the cascade. -/
structure UndelegationTally where
  totalNativeTokensUnbonded : ℤ
  totalStTokensToBurn : ℤ
  deriving DecidableEq

/-- stTokens for part of a record's native tokens, at the redemption rate implied by the
    amounts of the record. -/
def impliedStTokens (r : HostZoneUnbonding) (nativeTokensUnbonded : ℤ) : Result ℤ := do
  let impliedRedemptionRate ←
    (LegacyDec.fromInt r.nativeTokenAmount).quo (LegacyDec.fromInt r.stTokenAmount)
  let stTokens ← (LegacyDec.fromInt nativeTokensUnbonded).quo impliedRedemptionRate
  return stTokens.truncateInt

/-- stTokens burned for `nativeTokensUnbonded` of a record: the whole remainder with its
    last native token, to prevent any precision error. -/
def stTokensBurned (r : HostZoneUnbonding) (nativeTokensUnbonded : ℤ) : Result ℤ :=
  if r.nativeTokensToUnbond - nativeTokensUnbonded = 0 then .ok r.stTokensToBurn
  else impliedStTokens r nativeTokensUnbonded

/-- A record after `native` tokens of it were unbonded and `st` burned. -/
def afterUndelegation (r : HostZoneUnbonding) (native st : ℤ) (unbondingTime : ℕ) :
    HostZoneUnbonding :=
  { r with
    nativeTokensToUnbond := r.nativeTokensToUnbond - native
    stTokensToBurn := r.stTokensToBurn - st
    status :=
      if r.stTokensToBurn - st = 0 ∧ r.nativeTokensToUnbond - native = 0 then
        .exitTransferQueue
      else r.status
    unbondingTime := if r.unbondingTime < unbondingTime then unbondingTime else r.unbondingTime }

/-- One record of the cascade. -/
def undelegationBody (unbondingTime : ℕ) (tally : UndelegationTally) (_epochNumber : ℕ)
    (r : HostZoneUnbonding) : Result (UndelegationTally × Option HostZoneUnbonding) :=
  -- completed by a previous callback
  if r.status = .exitTransferQueue then .ok (tally, none)
  else
    let native := min r.nativeTokensToUnbond tally.totalNativeTokensUnbonded
    match stTokensBurned r native with
    | .error err => .error err
    | .ok st =>
      .ok (⟨tally.totalNativeTokensUnbonded - native, tally.totalStTokensToBurn + st⟩,
        some (afterUndelegation r native st unbondingTime))

/-- `UpdateHostZoneUnbondingsAfterUndelegation`. The source drops what is left of the
    native total. -/
def updateHostZoneUnbondingsAfterUndelegation (s : EpochUnbondingStore) (chainId : String)
    (epochUnbondingRecordIds : List ℕ) (totalNativeTokensUnbonded : ℤ) (unbondingTime : ℕ) :
    Result (UndelegationTally × EpochUnbondingStore) :=
  forEachHostZoneUnbonding chainId
    (fun e => ⟨.errHostUnbondingRecordNotFound,
      s!"host zone unbonding not found for epoch {e} and {chainId}"⟩)
    (undelegationBody unbondingTime) epochUnbondingRecordIds ⟨totalNativeTokensUnbonded, 0⟩ s

def burnStTokensAfterUndelegation (hostZone : HostZone) (bank : StTokenBank)
    (stTokenBurnAmount : ℤ) : Result StTokenBank := do
  let _ ← newCoin ("st" ++ hostZone.hostDenom) stTokenBurnAmount
  if bank.depositBalance < stTokenBurnAmount then
    wrapf .errInsufficientFunds "unable to send sttokens from deposit account for burning"
  else return ⟨bank.depositBalance - stTokenBurnAmount, bank.supply - stTokenBurnAmount⟩

def undelegateCallback (k : UnbondingKeeper) (callback : UndelegateCallback)
    (ack : UndelegateAck) : Result UnbondingKeeper :=
  if callback.hostZoneId ≠ k.hostZone.chainId then
    wrapf .errKeyNotFound s!"Host zone not found: {callback.hostZoneId}"
  else do
    let k ← markUndelegationAckReceived k callback
    match ack.status with
    | .timeout => return k
    | .failure =>
      let (_, records) ← handleFailedUndelegation k.epochUnbondingRecords k.hostZone.chainId
        callback.epochUnbondingRecordIds
      return { k with epochUnbondingRecords := records }
    | .success =>
      let nativeTokensUnbonded := calculateTotalUnbondedInBatch callback.splitUndelegations
      let unbondingTime ← getLatestUnbondingCompletionTime ack.msgResponses
      let hostZone ← updateDelegationBalances k.hostZone callback
      let (tally, records) ← updateHostZoneUnbondingsAfterUndelegation k.epochUnbondingRecords
        k.hostZone.chainId callback.epochUnbondingRecordIds nativeTokensUnbonded unbondingTime
      let bank ← burnStTokensAfterUndelegation hostZone k.bank tally.totalStTokensToBurn
      return { k with hostZone := hostZone, epochUnbondingRecords := records, bank := bank }

/-! ## What a callback leaves -/

def failedUndelegation (r : HostZoneUnbonding) : HostZoneUnbonding :=
  if r.status = .unbondingInProgress then { r with status := .unbondingRetryQueue } else r

variable {r r' : HostZoneUnbonding} {out recs : EpochRecords}
  {k k' : UnbondingKeeper} {ack : UndelegateAck} {callback : UndelegateCallback}
  {tally tally' : UndelegationTally} {time : ℕ}

theorem markUndelegationAckReceived_ok (hnd : callback.epochUnbondingRecordIds.Nodup)
    (h : markUndelegationAckReceived k callback = .ok k') :
    k'.hostZone.settings = k.hostZone.settings ∧
    k'.userRedemptionRecords = k.userRedemptionRecords ∧ k'.bank = k.bank ∧
    ∃ recs, recs.map Prod.fst = callback.epochUnbondingRecordIds ∧
      Fetched k.epochUnbondingRecords k.hostZone.chainId recs ∧
      (∀ p ∈ recs, p.2.undelegationTxsInProgress ≠ 0) ∧
      Fetched k'.epochUnbondingRecords k.hostZone.chainId (mapRecords ackReceived recs) ∧
      SameElsewhere k.hostZone.chainId callback.epochUnbondingRecordIds
        k.epochUnbondingRecords k'.epochUnbondingRecords := by
  obtain ⟨z, hdec, h⟩ := bind_eq_ok.mp h
  obtain ⟨⟨_, records⟩, hloop, h⟩ := bind_eq_ok.mp h
  cases h
  refine ⟨settings_foldlM
    (fun _ _ _ => settings_decrementValidatorDelegationChangesInProgress) hdec, rfl, rfl, ?_⟩
  apply forEachHostZoneUnbonding_eq_map (g := ackReceived)
    (P := fun r => r.undelegationTxsInProgress ≠ 0) (fun _ => rfl) _ hnd hloop
  intro _ _ r _ changed hb
  split at hb
  · cases hb
  rename_i htxs
  cases hb
  exact ⟨rfl, htxs⟩

private theorem handleFailedUndelegation_ok {s s' : EpochUnbondingStore} {chainId : String}
    {epochs retried : List ℕ} (hnd : epochs.Nodup)
    (h : handleFailedUndelegation s chainId epochs = .ok (retried, s')) :
    ∃ recs, recs.map Prod.fst = epochs ∧ Fetched s chainId recs ∧
      Fetched s' chainId (mapRecords failedUndelegation recs) ∧
      SameElsewhere chainId epochs s s' := by
  have hkeep (r : HostZoneUnbonding) : (failedUndelegation r).hostZoneId = r.hostZoneId := by
    unfold failedUndelegation
    split <;> rfl
  obtain ⟨recs, hfst, hrecs, -, hout, hsame⟩ :=
    forEachHostZoneUnbonding_eq_map (P := fun _ => True) hkeep (fun acc e r acc' changed hb => by
      unfold failedUndelegation
      split at hb <;> rename_i hstatus <;> cases hb
      · simp [hstatus]
      · simp [not_not.mp hstatus]) hnd h
  exact ⟨recs, hfst, hrecs, hout, hsame⟩

theorem keepsHostZoneId_undelegationBody (unbondingTime : ℕ) :
    KeepsHostZoneId (undelegationBody unbondingTime) := by
  intro tally e r tally' r' h
  unfold undelegationBody at h
  split at h
  · cases h
  dsimp only at h
  split at h
  · cases h
  cases h
  rfl

/-- How the records of a batch change with the outcome of the batch. -/
def CallbackChanges (callback : UndelegateCallback) (msgResponses : List (Option ℤ))
    (recs out : EpochRecords) : AckStatus → Prop
  | .timeout => out = mapRecords ackReceived recs
  | .failure => out = mapRecords (failedUndelegation ∘ ackReceived) recs
  | .success => ∃ unbondingTime tally,
      getLatestUnbondingCompletionTime msgResponses = .ok unbondingTime ∧
      mapAccum (recordStep (undelegationBody unbondingTime))
        ⟨calculateTotalUnbondedInBatch callback.splitUndelegations, 0⟩
        (mapRecords ackReceived recs) = .ok (tally, out)

/-- **Callback**: a callback that ends well found the records of its batch, each with a
    transaction in progress, and changed them and no other. -/
theorem undelegateCallback_spec (hnd : callback.epochUnbondingRecordIds.Nodup)
    (h : undelegateCallback k callback ack = .ok k') :
    callback.hostZoneId = k.hostZone.chainId ∧
    k'.hostZone.settings = k.hostZone.settings ∧
    k'.userRedemptionRecords = k.userRedemptionRecords ∧
    ∃ recs out, recs.map Prod.fst = callback.epochUnbondingRecordIds ∧
      out.map Prod.fst = callback.epochUnbondingRecordIds ∧
      Fetched k.epochUnbondingRecords k.hostZone.chainId recs ∧
      Fetched k'.epochUnbondingRecords k.hostZone.chainId out ∧
      (∀ p ∈ recs, p.2.undelegationTxsInProgress ≠ 0) ∧
      CallbackChanges callback ack.msgResponses recs out ack.status ∧
      SameElsewhere k.hostZone.chainId callback.epochUnbondingRecordIds
        k.epochUnbondingRecords k'.epochUnbondingRecords := by
  unfold undelegateCallback at h
  split at h
  · cases h
  rename_i hchain
  refine ⟨not_not.mp hchain, ?_⟩
  obtain ⟨k₁, hmark, h⟩ := bind_eq_ok.mp h
  obtain ⟨hset₁, husers₁, -, recs, hfst, hrecs, htxs, hmarked, hsame₁⟩ :=
    markUndelegationAckReceived_ok hnd hmark
  have hchain₁ : k₁.hostZone.chainId = k.hostZone.chainId :=
    HostZone.chainId_eq_of_settings hset₁
  have hfst₁ : (mapRecords ackReceived recs).map Prod.fst =
      callback.epochUnbondingRecordIds := by rw [map_fst_mapRecords, hfst]
  -- the ack is counted first, whatever its status
  cases hstatus : ack.status with
  | timeout =>
    simp only [hstatus] at h
    cases h
    exact ⟨hset₁, husers₁, recs, _, hfst, hfst₁, hrecs, hmarked, htxs, rfl, hsame₁⟩
  | failure =>
    simp only [hstatus] at h
    obtain ⟨⟨retried, records⟩, hfail, h⟩ := bind_eq_ok.mp h
    cases h
    rw [hchain₁] at hfail
    obtain ⟨recs₁, hfst', hrecs₁, hout, hsame₂⟩ := handleFailedUndelegation_ok hnd hfail
    -- the loop fetches what the count has written
    obtain rfl : recs₁ = mapRecords ackReceived recs :=
      hrecs₁.ext hmarked (hfst'.trans hfst₁.symm)
    have hcomp : mapRecords failedUndelegation (mapRecords ackReceived recs) =
        mapRecords (failedUndelegation ∘ ackReceived) recs := by
      simp [mapRecords, map_map, Function.comp_def]
    refine ⟨hset₁, husers₁, recs, _, hfst, ?_, hrecs, hout, htxs, hcomp, hsame₁.trans hsame₂⟩
    rw [map_fst_mapRecords, hfst₁]
  | success =>
    simp only [hstatus] at h
    obtain ⟨time, htime, h⟩ := bind_eq_ok.mp h
    obtain ⟨z, hbalances, h⟩ := bind_eq_ok.mp h
    obtain ⟨⟨tally, records⟩, hcascade, h⟩ := bind_eq_ok.mp h
    obtain ⟨bank, -, h⟩ := bind_eq_ok.mp h
    cases h
    rw [hchain₁] at hcascade
    have hz : z.settings = k₁.hostZone.settings :=
      settings_foldlM (fun _ _ _ => settings_addDelegationToValidator) hbalances
    obtain ⟨recs₁, out, hfst', hout_fst, hrecs₁, hout, hrun, hsame₂⟩ :=
      forEachHostZoneUnbonding_spec (keepsHostZoneId_undelegationBody time) hnd hcascade
    obtain rfl : recs₁ = mapRecords ackReceived recs :=
      hrecs₁.ext hmarked (hfst'.trans hfst₁.symm)
    exact ⟨hz.trans hset₁, husers₁, recs, out, hfst, hout_fst, hrecs, hout, htxs,
      ⟨time, tally, htime, hrun⟩, hsame₁.trans hsame₂⟩

/-! ## The cascade -/

/-- One step of the cascade: a completed record is skipped, any other gives up to the rest
    of the batch. -/
theorem recordStep_undelegationBody {p q : ℕ × HostZoneUnbonding}
    (h : recordStep (undelegationBody time) tally p = .ok (tally', q)) :
    (p.2.status = .exitTransferQueue ∧ tally' = tally ∧ q = p) ∨
    (p.2.status ≠ .exitTransferQueue ∧ ∃ st,
      stTokensBurned p.2 (min p.2.nativeTokensToUnbond tally.totalNativeTokensUnbonded) = .ok st ∧
      tally' = ⟨tally.totalNativeTokensUnbonded -
        min p.2.nativeTokensToUnbond tally.totalNativeTokensUnbonded,
        tally.totalStTokensToBurn + st⟩ ∧
      q = (p.1, afterUndelegation p.2
        (min p.2.nativeTokensToUnbond tally.totalNativeTokensUnbonded) st time)) := by
  unfold recordStep undelegationBody at h
  by_cases hstatus : p.2.status = .exitTransferQueue
  · simp only [hstatus, if_true, Option.getD_none] at h
    cases h
    exact .inl ⟨hstatus, rfl, rfl⟩
  · simp only [hstatus, if_false] at h
    cases hst : stTokensBurned p.2
        (min p.2.nativeTokensToUnbond tally.totalNativeTokensUnbonded) with
    | error err => simp [hst] at h
    | ok st =>
      simp only [hst, Option.getD_some] at h
      cases h
      exact .inr ⟨hstatus, st, rfl, rfl, rfl⟩

/-- **Conservation**: the cascade takes off the batch what it takes off the records. -/
theorem cascade_native
    (h : mapAccum (recordStep (undelegationBody time)) tally recs = .ok (tally', out)) :
    tally'.totalNativeTokensUnbonded - (out.map fun p => p.2.nativeTokensToUnbond).sum =
      tally.totalNativeTokensUnbonded - (recs.map fun p => p.2.nativeTokensToUnbond).sum := by
  have hsum := mapAccum_sum UndelegationTally.totalNativeTokensUnbonded
    (fun p : ℕ × HostZoneUnbonding => -p.2.nativeTokensToUnbond) (fun acc p acc' q hstep => by
      rcases recordStep_undelegationBody hstep with ⟨-, rfl, rfl⟩ | ⟨-, st, -, rfl, rfl⟩
      · rfl
      · simp only [afterUndelegation]
        ring) h
  have hneg (l : EpochRecords) :
      (l.map fun p => -p.2.nativeTokensToUnbond).sum =
        -(l.map fun p => p.2.nativeTokensToUnbond).sum := by
    induction l with
    | nil => rfl
    | cons p l ih =>
      rw [map_cons, map_cons, sum_cons, sum_cons, ih]
      ring
  rw [hneg, hneg] at hsum
  exact hsum

/-- A record that can be part of a submission: nothing is left of a completed one. -/
def CascadeReady (r : HostZoneUnbonding) : Prop :=
  0 ≤ r.nativeTokensToUnbond ∧ (r.status = .exitTransferQueue → r.nativeTokensToUnbond = 0)

section

variable (h : mapAccum (recordStep (undelegationBody time)) tally recs = .ok (tally', out))

include h

/-- Over such records the cascade keeps the amounts non-negative, and something is left of
    the batch only when nothing is left of the records. -/
theorem cascade_leftover (hready : ∀ p ∈ recs, CascadeReady p.2)
    (htally : 0 ≤ tally.totalNativeTokensUnbonded) :
    0 ≤ tally'.totalNativeTokensUnbonded ∧
      tally'.totalNativeTokensUnbonded ≤ tally.totalNativeTokensUnbonded ∧
      (∀ p ∈ out, 0 ≤ p.2.nativeTokensToUnbond) ∧
      (0 < tally'.totalNativeTokensUnbonded → ∀ p ∈ out, p.2.nativeTokensToUnbond = 0) := by
  induction recs generalizing tally out with
  | nil =>
    cases h
    exact ⟨htally, le_rfl, forall_mem_nil _, fun _ => forall_mem_nil _⟩
  | cons p recs ih =>
    obtain ⟨tally₁, q, out', hstep, hrest, rfl⟩ := mapAccum_cons_ok.mp h
    obtain ⟨hp, hready'⟩ := forall_mem_cons.mp hready
    -- the head gives all it has, or it takes the rest of the batch
    have hhead : 0 ≤ tally₁.totalNativeTokensUnbonded ∧
        tally₁.totalNativeTokensUnbonded ≤ tally.totalNativeTokensUnbonded ∧
        0 ≤ q.2.nativeTokensToUnbond ∧
        (0 < tally₁.totalNativeTokensUnbonded → q.2.nativeTokensToUnbond = 0) := by
      rcases recordStep_undelegationBody hstep with ⟨hexit, rfl, rfl⟩ | ⟨-, st, -, rfl, rfl⟩
      · exact ⟨htally, le_rfl, hp.1, fun _ => hp.2 hexit⟩
      · have hnn : 0 ≤ p.2.nativeTokensToUnbond := hp.1
        simp only [afterUndelegation]
        omega
    obtain ⟨h₁, h₂, h₃, h₄⟩ := hhead
    obtain ⟨i₁, i₂, i₃, i₄⟩ := ih hrest hready' h₁
    refine ⟨i₁, i₂.trans h₂, forall_mem_cons.mpr ⟨h₃, i₃⟩, fun hpos => ?_⟩
    exact forall_mem_cons.mpr ⟨h₄ (lt_of_lt_of_le hpos i₂), i₄ hpos⟩

/-- **No leftover**: a batch that is covered by what the records have left is taken off
    them entirely. -/
theorem cascade_of_covered (hready : ∀ p ∈ recs, CascadeReady p.2)
    (htally : 0 ≤ tally.totalNativeTokensUnbonded) (hcovered : tally.totalNativeTokensUnbonded ≤
      (recs.map fun p => p.2.nativeTokensToUnbond).sum) :
    (out.map fun p => p.2.nativeTokensToUnbond).sum =
      (recs.map fun p => p.2.nativeTokensToUnbond).sum - tally.totalNativeTokensUnbonded ∧
    ∀ p ∈ out, 0 ≤ p.2.nativeTokensToUnbond := by
  obtain ⟨hnn, -, hout, hzero⟩ := cascade_leftover h hready htally
  have hsum := cascade_native h
  have hleft : tally'.totalNativeTokensUnbonded = 0 := by
    by_contra hne
    have hall := hzero (lt_of_le_of_ne hnn (Ne.symm hne))
    have hout0 : (out.map fun p => p.2.nativeTokensToUnbond).sum = 0 := by
      apply sum_map_eq_zero
      intro p hp
      exact hall p hp
    omega
  exact ⟨by omega, hout⟩

theorem cascade_native_le (htally : 0 ≤ tally.totalNativeTokensUnbonded) :
    List.Forall₂ (AtSameEpoch fun r r' => 0 ≤ r.nativeTokensToUnbond →
      r'.nativeTokensToUnbond ≤ r.nativeTokensToUnbond) recs out := by
  refine (mapAccum_forall₂ (I := fun t => 0 ≤ t.totalNativeTokensUnbonded)
    (fun acc p acc' q hacc hstep => ?_) htally h).2
  rcases recordStep_undelegationBody hstep with ⟨-, rfl, rfl⟩ | ⟨-, st, -, rfl, rfl⟩
  · exact ⟨hacc, rfl, fun _ => le_rfl⟩
  · refine ⟨?_, rfl, fun hnn => ?_⟩
    · dsimp only
      omega
    · simp only [afterUndelegation]
      omega

end

/-- What the cascade does to a single record. -/
def CascadeStep (r r' : HostZoneUnbonding) : Prop :=
  (r.status = .exitTransferQueue ∧ r' = r) ∨
  (r.status ≠ .exitTransferQueue ∧ ∃ native st time, r' = afterUndelegation r native st time ∧
    (r.nativeTokensToUnbond - native = 0 → st = r.stTokensToBurn))

theorem cascade_forall₂
    (h : mapAccum (recordStep (undelegationBody time)) tally recs = .ok (tally', out)) :
    List.Forall₂ (AtSameEpoch CascadeStep) recs out := by
  refine (mapAccum_forall₂ (I := fun _ => True) (fun acc p acc' q _ hstep => ?_) trivial h).2
  refine ⟨trivial, ?_⟩
  rcases recordStep_undelegationBody hstep with ⟨hexit, -, rfl⟩ | ⟨hexit, st, hst, -, rfl⟩
  · exact ⟨rfl, .inl ⟨hexit, rfl⟩⟩
  · refine ⟨rfl, .inr ⟨hexit, _, st, time, rfl, fun hzero => ?_⟩⟩
    rw [stTokensBurned, if_pos hzero] at hst
    cases hst
    rfl

/-- The cascade completes a record exactly when it takes its last native token. -/
theorem CascadeStep.status_eq (h : CascadeStep r r') :
    r'.status = if r.status ≠ .exitTransferQueue ∧ r'.nativeTokensToUnbond = 0 then
      .exitTransferQueue else r.status := by
  rcases h with ⟨hexit, rfl⟩ | ⟨hexit, native, st, time, rfl, hzero⟩
  · simp [hexit]
  · simp only [afterUndelegation, ne_eq, hexit, not_false_eq_true, true_and]
    by_cases hn : r.nativeTokensToUnbond - native = 0
    · simp [hn, hzero hn]
    · simp [hn]

theorem CascadeStep.undelegationTxsInProgress_eq (h : CascadeStep r r') :
    r'.undelegationTxsInProgress = r.undelegationTxsInProgress := by
  rcases h with ⟨-, rfl⟩ | ⟨-, native, st, time, rfl, -⟩ <;> rfl

theorem CascadeStep.stTokenAmount_eq (h : CascadeStep r r') :
    r'.stTokenAmount = r.stTokenAmount := by
  rcases h with ⟨-, rfl⟩ | ⟨-, native, st, time, rfl, -⟩ <;> rfl

/-- What a callback does to a record that its batch names. -/
def CallbackStep : AckStatus → HostZoneUnbonding → HostZoneUnbonding → Prop
  | .timeout => fun r r' => r' = ackReceived r
  | .failure => fun r r' => r' = failedUndelegation (ackReceived r)
  | .success => fun r r' => CascadeStep (ackReceived r) r'

theorem CallbackChanges.forall₂ {status : AckStatus} {msgResponses : List (Option ℤ)}
    (h : CallbackChanges callback msgResponses recs out status) :
    List.Forall₂ (AtSameEpoch (CallbackStep status)) recs out := by
  cases status with
  | timeout =>
    obtain rfl : out = mapRecords ackReceived recs := h
    exact forall₂_mapRecords _ recs
  | failure =>
    obtain rfl : out = mapRecords (failedUndelegation ∘ ackReceived) recs := h
    exact forall₂_mapRecords _ recs
  | success =>
    obtain ⟨time, tally, -, hrun⟩ := h
    have hrel := cascade_forall₂ hrun
    rw [mapRecords, forall₂_map_left_iff] at hrel
    exact hrel

end Stride.Stakeibc
