import Stride.Lib.Batches
import Stride.Records.HostZoneUnbonding
import Stride.Stakeibc.BookEffect

/-!
# Submitting Undelegations

`UnbondFromHostZone` collects the queued unbonding records of a host zone, refreshes their
native amounts, spreads the total over the validators and sends the undelegations in
batches.
-/

namespace Stride.Stakeibc

open Lib Sdk Records Records.EpochUnbondingStore KeyedStore Function List

/-! ## State -/

/-- stTokens of a zone: what its deposit account holds in escrow, and the supply. -/
structure StTokenBank where
  depositBalance : ℤ
  supply : ℤ
  deriving DecidableEq

/-- What the unbonding flow of one host zone reads and writes. -/
structure UnbondingKeeper where
  hostZone : HostZone
  epochUnbondingRecords : EpochUnbondingStore
  userRedemptionRecords : UserRedemptionStore
  bank : StTokenBank

/-! ## Collecting and refreshing the records -/

/-- `GetQueuedHostZoneUnbondingRecords`: the epoch numbers with their records, earliest
    first. The source returns the epoch numbers and a map from them; the list is both. -/
def getQueuedHostZoneUnbondingRecords (s : EpochUnbondingStore) (chainId : String) :
    EpochRecords :=
  selectHostZoneUnbondings s chainId fun r =>
    r.shouldInitiateUnbonding || r.shouldRetryUnbonding

abbrev UnbondingKeeper.queuedRecords (k : UnbondingKeeper) : EpochRecords :=
  getQueuedHostZoneUnbondingRecords k.epochUnbondingRecords k.hostZone.chainId

def getTotalUnbondAmount (hostZoneUnbondingRecords : EpochRecords) : ℤ :=
  (hostZoneUnbondingRecords.map fun p => p.2.nativeTokensToUnbond).sum

/-- `RefreshUserRedemptionRecordNativeAmounts`: sets the native amount of each user record
    that exists and sums them. -/
def refreshUserRedemptionRecordNativeAmounts (redemptionRate : LegacyDec) :
    List String → ℤ → UserRedemptionStore → ℤ × UserRedemptionStore
  | [], totalNativeAmount, users => (totalNativeAmount, users)
  | id :: ids, totalNativeAmount, users =>
    match users.get? id with
    | none => refreshUserRedemptionRecordNativeAmounts redemptionRate ids totalNativeAmount users
    | some user =>
      let nativeAmount := ((LegacyDec.fromInt user.stTokenAmount).mul redemptionRate).truncateInt
      refreshUserRedemptionRecordNativeAmounts redemptionRate ids
        (totalNativeAmount + nativeAmount)
        (users.set { user with nativeTokenAmount := nativeAmount })

/-- The record that `RefreshHostZoneUnbondingNativeTokenAmount` stores. -/
def refreshedRecord (r : HostZoneUnbonding) (totalNativeAmount : ℤ) : HostZoneUnbonding :=
  { r with
    nativeTokenAmount := totalNativeAmount
    nativeTokensToUnbond := totalNativeAmount
    stTokensToBurn := r.stTokenAmount }

/-- `RefreshHostZoneUnbondingNativeTokenAmount`, up to the write of the record. -/
def refreshHostZoneUnbondingNativeTokenAmount (hostZone : HostZone)
    (users : UserRedemptionStore) (r : HostZoneUnbonding) :
    Result (UserRedemptionStore × HostZoneUnbonding) :=
  if r.hostZoneId ≠ hostZone.chainId then
    wrapf .errHostZoneNotFound s!"host zone {r.hostZoneId} not found"
  else
    let (totalNativeAmount, users) := refreshUserRedemptionRecordNativeAmounts
      hostZone.redemptionRate r.userRedemptionRecords 0 users
    .ok (users, refreshedRecord r totalNativeAmount)

/-- One record of the refresh; failed records keep their amounts. -/
def refreshBody (hostZone : HostZone) (users : UserRedemptionStore)
    (_epochNumber : ℕ) (r : HostZoneUnbonding) :
    Result (UserRedemptionStore × Option HostZoneUnbonding) :=
  if r.status ≠ .unbondingQueue then .ok (users, none)
  else
    match refreshHostZoneUnbondingNativeTokenAmount hostZone users r with
    | .error err => .error err
    | .ok (users, r') => .ok (users, some r')

def refreshUnbondingNativeTokenAmounts (k : UnbondingKeeper)
    (hostZoneUnbondings : EpochRecords) : Result UnbondingKeeper := do
  let (users, records) ← forEachFetched k.hostZone.chainId (refreshBody k.hostZone)
    hostZoneUnbondings k.userRedemptionRecords k.epochUnbondingRecords
  return { k with epochUnbondingRecords := records, userRedemptionRecords := users }

/-! ## Spreading the total over the validators -/

/-- What a validator can give up. -/
structure ValidatorUnbondCapacity where
  validatorAddress : String
  currentDelegation : ℤ
  balancedDelegation : ℤ
  capacity : ℤ
  deriving DecidableEq

def ValidatorUnbondCapacity.getBalanceRatio (c : ValidatorUnbondCapacity) : Result LegacyDec :=
  if c.currentDelegation = 0 then
    wrapf .plain "CurrentDelegation should not be 0 inside GetBalanceRatio()"
  else (LegacyDec.fromInt c.balancedDelegation).quo (LegacyDec.fromInt c.currentDelegation)

/-- The ratio that the sort reads; it drops the error. -/
def ValidatorUnbondCapacity.balanceRatio (c : ValidatorUnbondCapacity) : LegacyDec :=
  match c.getBalanceRatio with
  | .ok ratio => ratio
  | .error _ => ⟨0⟩

/-- `GetValidatorUnbondCapacity`: validators above their balanced delegation, in the order
    of the zone. -/
def getValidatorUnbondCapacity (validators : List Validator)
    (balancedDelegation : String → Option ℤ) : List ValidatorUnbondCapacity :=
  validators.filterMap fun v =>
    match balancedDelegation v.address with
    | none => none
    | some balanced =>
      if 0 < v.delegation - balanced then
        some ⟨v.address, v.delegation, balanced, v.delegation - balanced⟩
      else none

/-- Priority: balance ratio ascending, capacity descending, address ascending. -/
def unbondPriority (a b : ValidatorUnbondCapacity) : Prop :=
  if a.balanceRatio.i ≠ b.balanceRatio.i then a.balanceRatio.i < b.balanceRatio.i
  else if a.capacity ≠ b.capacity then b.capacity < a.capacity
  else a.validatorAddress ≤ b.validatorAddress

instance : DecidableRel unbondPriority := fun a b =>
  inferInstanceAs (Decidable (if a.balanceRatio.i ≠ b.balanceRatio.i then
      a.balanceRatio.i < b.balanceRatio.i
    else if a.capacity ≠ b.capacity then b.capacity < a.capacity
    else a.validatorAddress ≤ b.validatorAddress))

/-- The first error of `GetBalanceRatio` in a list. -/
def checkBalanceRatios : List ValidatorUnbondCapacity → Result Unit
  | [] => .ok ()
  | c :: rest => do
    let _ ← c.getBalanceRatio
    checkBalanceRatios rest

def sortUnbondingCapacityByPriority (capacities : List ValidatorUnbondCapacity) :
    Result (List ValidatorUnbondCapacity) := do
  checkBalanceRatios capacities
  return capacities.insertionSort unbondPriority

def undelegationSharesSafetyDivisor : ℤ := 100000000000000000

/-- `applySharesRoundingSafety`: the buffer left behind when a slashed validator is
    drained. -/
def applySharesRoundingSafety (hostZone : HostZone) (c : ValidatorUnbondCapacity)
    (unbondAmount : ℤ) : ℤ :=
  if unbondAmount ≠ c.currentDelegation then unbondAmount
  else
    match getValidatorFromAddress hostZone.validators c.validatorAddress with
    | none => unbondAmount
    | some validator =>
      if ¬ validator.sharesToTokensRate.i < LegacyDec.one.i then unbondAmount
      else
        let quotient := unbondAmount.tdiv undelegationSharesSafetyDivisor
        let buffer := if quotient = 0 then 1 else quotient
        -- never buffer the amount down to zero
        if unbondAmount ≤ buffer then unbondAmount else unbondAmount - buffer

structure SplitUndelegation where
  validator : String
  nativeTokenAmount : ℤ
  deriving DecidableEq

structure MsgUndelegate where
  delegatorAddress : String
  validatorAddress : String
  amount : String × ℤ
  deriving DecidableEq

/-- The loop of `GetUnbondingICAMessages`: as much as possible from each validator until
    nothing remains. Returns the splits and what could not be placed. -/
def unbondingSplits (hostZone : HostZone) :
    List ValidatorUnbondCapacity → ℤ → List SplitUndelegation × ℤ
  | [], remaining => ([], remaining)
  | c :: rest, remaining =>
    if remaining = 0 then ([], remaining)
    else
      let unbondAmount := if c.capacity < remaining then c.capacity else remaining
      let unbondAmount := applySharesRoundingSafety hostZone c unbondAmount
      let (splits, left) := unbondingSplits hostZone rest (remaining - unbondAmount)
      (⟨c.validatorAddress, unbondAmount⟩ :: splits, left)

def msgUndelegate (hostZone : HostZone) (u : SplitUndelegation) : Result MsgUndelegate := do
  let amount ← newCoin hostZone.hostDenom u.nativeTokenAmount
  return ⟨hostZone.delegationIcaAddress, u.validator, amount⟩

def getUnbondingICAMessages (hostZone : HostZone) (totalUnbondAmount : ℤ)
    (prioritizedUnbondCapacity : List ValidatorUnbondCapacity) :
    Result (List MsgUndelegate × List SplitUndelegation) := do
  let (unbondings, remaining) :=
    unbondingSplits hostZone prioritizedUnbondCapacity totalUnbondAmount
  let msgs ← unbondings.mapM (msgUndelegate hostZone)
  if remaining ≠ 0 then
    wrapf .plain s!"unable to unbond full amount ({totalUnbondAmount}) from {hostZone.chainId}"
  else return (msgs, unbondings)

/-- Delegations of validators without a slash query in progress. -/
def totalValidDelegation (hostZone : HostZone) : ℤ :=
  (hostZone.eligible.map Validator.delegation).sum

/-- The middle of `UnbondFromHostZone`: from the total to the messages. -/
def unbondingMessages (hostZone : HostZone) (totalNativeUnbondAmount : ℤ) :
    Result (List MsgUndelegate × List SplitUndelegation) := do
  let delegationAfterUnbonding := totalValidDelegation hostZone - totalNativeUnbondAmount
  let balanced ← getTargetValAmtsForHostZone hostZone delegationAfterUnbonding
  let capacities := getValidatorUnbondCapacity hostZone.validators balanced
  if capacities.isEmpty then
    wrapf .plain
      s!"there are no validators on {hostZone.chainId} with sufficient unbond capacity"
  else
    let prioritized ← sortUnbondingCapacityByPriority capacities
    getUnbondingICAMessages hostZone totalNativeUnbondAmount prioritized

/-! ## Sending -/

/-- Data stored for the callback of an undelegate transaction. -/
structure UndelegateCallback where
  hostZoneId : String
  splitUndelegations : List SplitUndelegation
  epochUnbondingRecordIds : List ℕ
  deriving DecidableEq

structure UndelegateTx where
  msgs : List MsgUndelegate
  callback : UndelegateCallback
  deriving DecidableEq

/-- The loop of `BatchSubmitUndelegateICAMessages` from batch `batch` on. `submitTxs`
    says which submissions the ICA controller accepts. -/
def submitUndelegateBatches (epochUnbondingRecordIds : List ℕ) (submitTxs : ℕ → Bool) :
    List (List MsgUndelegate × List SplitUndelegation) → ℕ → HostZone →
      Result (HostZone × List UndelegateTx)
  | [], _, hostZone => .ok (hostZone, [])
  | (msgs, unbondings) :: rest, batch, hostZone => do
    if ¬ submitTxs batch then
      wrapf .plain s!"unable to submit unbonding ICA for {hostZone.chainId}"
    else
      let tx : UndelegateTx :=
        ⟨msgs, ⟨hostZone.chainId, unbondings, epochUnbondingRecordIds⟩⟩
      let hostZone ← (unbondings.map SplitUndelegation.validator).foldlM
        incrementValidatorDelegationChangesInProgress hostZone
      let (hostZone, txs) ←
        submitUndelegateBatches epochUnbondingRecordIds submitTxs rest (batch + 1) hostZone
      return (hostZone, tx :: txs)

def batchSubmitUndelegateICAMessages (hostZone : HostZone) (epochUnbondingRecordIds : List ℕ)
    (msgs : List MsgUndelegate) (unbondings : List SplitUndelegation) (batchSize : ℕ+)
    (submitTxs : ℕ → Bool) : Result (HostZone × List UndelegateTx) :=
  submitUndelegateBatches epochUnbondingRecordIds submitTxs
    ((batches batchSize msgs).zip (batches batchSize unbondings)) 0 hostZone

/-- A record once its undelegations were sent. -/
def submittedRecord (numTxsSubmitted : ℕ) (r : HostZoneUnbonding) : HostZoneUnbonding :=
  { r with
    status := .unbondingInProgress
    undelegationTxsInProgress := r.undelegationTxsInProgress + numTxsSubmitted }

/-- `UnbondFromHostZone`. Returns the transactions it sent. -/
def unbondFromHostZone (k : UnbondingKeeper) (submitTxs : ℕ → Bool) :
    Result (UnbondingKeeper × List UndelegateTx) :=
  let chainId := k.hostZone.chainId
  if k.hostZone.delegationIcaAddress = "" then
    wrapf .errICAAccountNotFound s!"no delegation account found for {chainId}"
  else do
    let queued := getQueuedHostZoneUnbondingRecords k.epochUnbondingRecords chainId
    let k ← refreshUnbondingNativeTokenAmounts k queued
    let refreshed := getQueuedHostZoneUnbondingRecords k.epochUnbondingRecords chainId
    let totalNativeUnbondAmount := getTotalUnbondAmount refreshed
    if totalNativeUnbondAmount = 0 then return (k, [])
    else
      let (msgs, unbondings) ← unbondingMessages k.hostZone totalNativeUnbondAmount
      if msgs.isEmpty then
        wrapf .errInvalidRequest "Target unbonded amount was 0 for each validator"
      else
        let (hostZone, txs) ← batchSubmitUndelegateICAMessages k.hostZone
          (queued.map Prod.fst) msgs unbondings k.hostZone.maxMessagesPerIcaTx submitTxs
        let (_, records) ← forEachFetched chainId
          (fun _ _ r => .ok ((), some (submittedRecord txs.length r))) refreshed ()
          k.epochUnbondingRecords
        return ({ k with hostZone := hostZone, epochUnbondingRecords := records }, txs)

/-! ## The refresh as a function -/

def redeemedTokens (users : UserRedemptionStore) (id : String) : Option ℤ :=
  (users.get? id).map UserRedemptionRecord.stTokenAmount

/-- Native tokens for stTokens at a redemption rate. -/
def nativeAmountAt (redemptionRate : LegacyDec) (stTokenAmount : ℤ) : ℤ :=
  ((LegacyDec.fromInt stTokenAmount).mul redemptionRate).truncateInt

/-- Native tokens for the user records with the given ids. -/
def listedNativeAmount (redemptionRate : LegacyDec)
    (users : UserRedemptionStore) (ids : List String) : ℤ :=
  ((ids.filterMap (redeemedTokens users)).map (nativeAmountAt redemptionRate)).sum

/-- What the next submission has to unbond for a queued record: its user records at the current
    rate, or what is left of a submission that failed. -/
def UnbondingKeeper.nativeAmount (k : UnbondingKeeper) (r : HostZoneUnbonding) : ℤ :=
  if r.status = .unbondingQueue then
    listedNativeAmount k.hostZone.redemptionRate k.userRedemptionRecords r.userRedemptionRecords
  else r.nativeTokensToUnbond

/-- A queued record as the refresh leaves it. -/
def UnbondingKeeper.refreshed (k : UnbondingKeeper) (r : HostZoneUnbonding) : HostZoneUnbonding :=
  if r.status = .unbondingQueue then refreshedRecord r (k.nativeAmount r) else r

/-- A user record with its native amount at a redemption rate. -/
def refreshedUser (redemptionRate : LegacyDec) (user : UserRedemptionRecord) :
    UserRedemptionRecord :=
  { user with nativeTokenAmount := nativeAmountAt redemptionRate user.stTokenAmount }

/-- The native amounts of the records in `ids` are those at the rate. -/
def UsersRefreshed (redemptionRate : LegacyDec) (ids : List String)
    (users users' : UserRedemptionStore) : Prop :=
  ∀ id, users'.get? id =
    if id ∈ ids then (users.get? id).map (refreshedUser redemptionRate) else users.get? id

def refreshedIds (recs : EpochRecords) : List String :=
  recs.flatMap fun p => if p.2.status = .unbondingQueue then p.2.userRedemptionRecords else []

variable {s s' : EpochUnbondingStore} {hostZone z z' : HostZone} {r r' : HostZoneUnbonding}
  {users users₁ users₂ : UserRedemptionStore} {rate : LegacyDec}
  {recs out queue : EpochRecords} {l l' : List String}
  {msgs : List MsgUndelegate} {us : List SplitUndelegation} {txs : List UndelegateTx} {ids : List ℕ}
  {k k' : UnbondingKeeper} {submitTxs : ℕ → Bool} {n : ℕ+} {total : ℤ}

private theorem UsersRefreshed.trans (h₁ : UsersRefreshed rate l users users₁)
    (h₂ : UsersRefreshed rate l' users₁ users₂) : UsersRefreshed rate (l ++ l') users users₂ := by
  intro id
  rw [h₂ id, h₁ id]
  by_cases hid : id ∈ l <;> by_cases hid' : id ∈ l' <;> simp [hid, hid']
  rfl

/-- A refresh leaves the stTokens. -/
theorem UsersRefreshed.redeemedTokens_eq (h : UsersRefreshed rate l users users₁) :
    redeemedTokens users₁ = redeemedTokens users := by
  funext id
  rw [redeemedTokens, h id]
  split <;> simp [redeemedTokens, comp_def, refreshedUser]

theorem refreshUserRedemptionRecordNativeAmounts_eq (rate : LegacyDec) (l : List String) (total : ℤ)
    (users : UserRedemptionStore) :
    (refreshUserRedemptionRecordNativeAmounts rate l total users).1 =
        total + listedNativeAmount rate users l ∧
      UsersRefreshed rate l users
        (refreshUserRedemptionRecordNativeAmounts rate l total users).2 := by
  induction l generalizing total users with
  | nil => simp [refreshUserRedemptionRecordNativeAmounts, listedNativeAmount, UsersRefreshed]
  | cons id l ih =>
    cases hget : users.get? id with
    | none =>
      simp only [refreshUserRedemptionRecordNativeAmounts, hget]
      obtain ⟨htotal, hrefreshed⟩ := ih total users
      refine ⟨by simp [htotal, listedNativeAmount, redeemedTokens, hget], fun id' => ?_⟩
      rw [hrefreshed id']
      by_cases hid : id' = id
      · simp [hid, hget]
      · simp [hid]
    | some user =>
      simp only [refreshUserRedemptionRecordNativeAmounts, hget]
      -- the write of this record is a refresh of one id
      have hone : UsersRefreshed rate [id] users (users.set (refreshedUser rate user)) := by
        intro id'
        have hkey : user.id = id := key_of_get? hget
        replace hkey : (refreshedUser rate user).id = id := hkey
        rw [get?_set, hkey]
        by_cases hid : id' = id
        · simp [hid, hget]
        · simp [hid]
      obtain ⟨htotal, hrefreshed⟩ := ih (total + nativeAmountAt rate user.stTokenAmount)
        (users.set (refreshedUser rate user))
      refine ⟨htotal.trans ?_, hone.trans hrefreshed⟩
      rw [listedNativeAmount, hone.redeemedTokens_eq]
      simp [listedNativeAmount, redeemedTokens, hget, add_assoc]

private theorem keepsHostZoneId_refreshBody (hostZone : HostZone) :
    KeepsHostZoneId (refreshBody hostZone) := by
  intro users e r users' r' h
  unfold refreshBody at h
  split at h
  · cases h
  split at h
  · cases h
  rename_i _ _ _ _ hrefresh
  unfold refreshHostZoneUnbondingNativeTokenAmount at hrefresh
  split at hrefresh
  · cases hrefresh
  cases hrefresh
  cases h
  rfl

private theorem mapAccum_refreshBody (k : UnbondingKeeper)
    (hids : ∀ p ∈ recs, p.2.hostZoneId = k.hostZone.chainId)
    (hsame : redeemedTokens users = redeemedTokens k.userRedemptionRecords) :
    ∃ users', mapAccum (recordStep (refreshBody k.hostZone)) users recs =
        .ok (users', mapRecords k.refreshed recs) ∧
      UsersRefreshed k.hostZone.redemptionRate (refreshedIds recs) users users' := by
  induction recs generalizing users with
  | nil => exact ⟨users, rfl, fun _ => rfl⟩
  | cons p recs ih =>
    obtain ⟨hp, hids'⟩ := forall_mem_cons.mp hids
    obtain ⟨users₁, hstep, hone⟩ : ∃ users₁, recordStep (refreshBody k.hostZone) users p =
        .ok (users₁, (p.1, k.refreshed p.2)) ∧
        UsersRefreshed k.hostZone.redemptionRate (refreshedIds [p]) users users₁ := by
      by_cases hstatus : p.2.status = .unbondingQueue
      · have hrefresh := refreshUserRedemptionRecordNativeAmounts_eq k.hostZone.redemptionRate
          p.2.userRedemptionRecords 0 users
        refine ⟨_, ?_, by simpa [refreshedIds, hstatus] using hrefresh.2⟩
        simp [recordStep, refreshBody, refreshHostZoneUnbondingNativeTokenAmount, hstatus, hp,
          UnbondingKeeper.refreshed, UnbondingKeeper.nativeAmount, hrefresh.1, listedNativeAmount,
          hsame]
      · exact ⟨users, by simp [recordStep, refreshBody, hstatus, UnbondingKeeper.refreshed],
          by simp [refreshedIds, hstatus, UsersRefreshed]⟩
    -- a refresh leaves the stTokens, on which the totals depend
    obtain ⟨users', hrun, hrest⟩ := ih hids' (hone.redeemedTokens_eq.trans hsame)
    exact ⟨users', mapAccum_cons_ok.mpr ⟨_, _, _, hstep, hrun, rfl⟩,
      by simpa [refreshedIds] using hone.trans hrest⟩

/-! ## What a submission sends -/

private theorem sum_unbondingSplits (hostZone : HostZone) (caps : List ValidatorUnbondCapacity)
    (remaining : ℤ) :
    (((unbondingSplits hostZone caps remaining).1.map SplitUndelegation.nativeTokenAmount).sum +
      (unbondingSplits hostZone caps remaining).2) = remaining := by
  induction caps generalizing remaining with
  | nil => simp [unbondingSplits]
  | cons c caps ih =>
    unfold unbondingSplits
    split
    · simp
    · simp only [map_cons, sum_cons]
      have hrest := ih (remaining - applySharesRoundingSafety hostZone c
        (if c.capacity < remaining then c.capacity else remaining))
      rw [add_assoc, hrest]
      ring

private theorem mapM_msgUndelegate_ok (h : us.mapM (msgUndelegate hostZone) = .ok msgs) :
    msgs = us.map (fun u => ⟨hostZone.delegationIcaAddress, u.validator,
      hostZone.hostDenom, u.nativeTokenAmount⟩) ∧ ∀ u ∈ us, 0 ≤ u.nativeTokenAmount := by
  induction us generalizing msgs with
  | nil =>
    cases h
    exact ⟨rfl, forall_mem_nil _⟩
  | cons u us ih =>
    rw [mapM_cons] at h
    obtain ⟨m, hm, hrest⟩ := bind_eq_ok.mp h
    obtain ⟨ms, hms, hcons⟩ := bind_eq_ok.mp hrest
    cases hcons
    obtain ⟨rfl, hnn⟩ := ih hms
    -- a negative amount would have panicked in `sdk.NewCoin`
    obtain ⟨coin, hcoin, hm⟩ := bind_eq_ok.mp hm
    obtain ⟨hu, rfl⟩ := newCoin_eq_ok.mp hcoin
    cases hm
    exact ⟨rfl, forall_mem_cons.mpr ⟨hu, hnn⟩⟩

section

variable (h : unbondingMessages hostZone total = .ok (msgs, us))

include h

private theorem exists_getUnbondingICAMessages :
    ∃ prioritized targets,
      prioritized.Perm (getValidatorUnbondCapacity hostZone.validators targets) ∧
      unbondingSplits hostZone prioritized total = (us, 0) ∧
      us.mapM (msgUndelegate hostZone) = .ok msgs := by
  obtain ⟨targets, -, h⟩ := bind_eq_ok.mp h
  dsimp only at h
  split at h
  · cases h
  obtain ⟨prioritized, hsort, h⟩ := bind_eq_ok.mp h
  obtain ⟨_, -, hsort⟩ := bind_eq_ok.mp hsort
  cases hsort
  obtain ⟨msgs', hmsgs, h⟩ := bind_eq_ok.mp h
  split at h
  · cases h
  rename_i hleft
  cases h
  exact ⟨_, targets, perm_insertionSort _ _, Prod.ext rfl (not_not.mp hleft), hmsgs⟩

/-- The splits add up to the total. -/
theorem unbondingMessages_ok :
    msgs.length = us.length ∧ (∀ u ∈ us, 0 ≤ u.nativeTokenAmount) ∧
      (us.map SplitUndelegation.nativeTokenAmount).sum = total := by
  obtain ⟨prioritized, _, -, hsplits, hmsgs⟩ := exists_getUnbondingICAMessages h
  obtain ⟨rfl, hnn⟩ := mapM_msgUndelegate_ok hmsgs
  have hsum := sum_unbondingSplits hostZone prioritized total
  rw [hsplits, add_zero] at hsum
  exact ⟨length_map _, hnn, hsum⟩

theorem sum_amounts_unbondingMessages : (msgs.map fun m => m.amount.2).sum = total := by
  obtain ⟨_, _, -, -, hmsgs⟩ := exists_getUnbondingICAMessages h
  rw [← (unbondingMessages_ok h).2.2, (mapM_msgUndelegate_ok hmsgs).1, map_map]
  rfl

end

private theorem unbondingSplits_sublist (hostZone : HostZone) (caps : List ValidatorUnbondCapacity)
    (remaining : ℤ) :
    ((unbondingSplits hostZone caps remaining).1.map SplitUndelegation.validator).Sublist
      (caps.map ValidatorUnbondCapacity.validatorAddress) := by
  induction caps generalizing remaining with
  | nil => exact .slnil
  | cons c caps ih =>
    unfold unbondingSplits
    split
    · exact nil_sublist _
    · exact (ih _).cons_cons _

private theorem getValidatorUnbondCapacity_sublist (validators : List Validator)
    (targets : String → Option ℤ) : ((getValidatorUnbondCapacity validators targets).map
      ValidatorUnbondCapacity.validatorAddress).Sublist (validators.map Validator.address) := by
  unfold getValidatorUnbondCapacity
  induction validators with
  | nil => exact .slnil
  | cons v validators ih =>
    rw [filterMap_cons]
    split
    · exact ih.cons _
    · rename_i c hc
      have haddress : c.validatorAddress = v.address := by
        split at hc
        · cases hc
        split at hc
        · cases hc
          rfl
        · cases hc
      rw [map_cons, haddress]
      exact ih.cons_cons _

/-- A validator gets one message at most. -/
theorem nodup_unbondingMessages (hnd : hostZone.addresses.Nodup)
    (h : unbondingMessages hostZone total = .ok (msgs, us)) :
    (msgs.map MsgUndelegate.validatorAddress).Nodup := by
  obtain ⟨prioritized, targets, hperm, hsplits, hmsgs⟩ := exists_getUnbondingICAMessages h
  have hsublist := unbondingSplits_sublist hostZone prioritized total
  rw [hsplits] at hsublist
  rw [(mapM_msgUndelegate_ok hmsgs).1, map_map]
  refine List.Nodup.sublist hsublist ?_
  rw [(hperm.map _).nodup_iff]
  exact hnd.sublist (getValidatorUnbondCapacity_sublist _ _)

def UndelegateTx.amount (tx : UndelegateTx) : ℤ :=
  (tx.callback.splitUndelegations.map SplitUndelegation.nativeTokenAmount).sum

private theorem submitUndelegateBatches_ok {bs : List (List MsgUndelegate × List SplitUndelegation)}
    {batch : ℕ} (h : submitUndelegateBatches ids submitTxs bs batch z = .ok (z', txs)) :
    txs = bs.map (fun b => ⟨b.1, z.chainId, b.2, ids⟩) ∧ BookEffect z z' 0 0
      fun a => (((bs.flatMap Prod.snd).map SplitUndelegation.validator).count a : ℤ) := by
  induction bs generalizing batch z txs with
  | nil =>
    cases h
    exact ⟨rfl, .refl _⟩
  | cons b bs ih =>
    unfold submitUndelegateBatches at h
    split at h
    · cases h
    obtain ⟨z₁, hz₁, h⟩ := bind_eq_ok.mp h
    obtain ⟨⟨z₂, txs'⟩, hrest, h⟩ := bind_eq_ok.mp h
    cases h
    -- the counters go up by the validators of the batch
    obtain ⟨z₁', hz₁', heffect⟩ := foldlM_incrementValidatorDelegationChangesInProgress _
      (mem_of_foldlM_incrementValidatorDelegationChangesInProgress hz₁)
    obtain rfl : z₁' = z₁ := Except.ok.inj (hz₁'.symm.trans hz₁)
    obtain ⟨rfl, heffect'⟩ := ih hrest
    refine ⟨by rw [heffect.chainId]; rfl, ?_⟩
    have hboth := heffect.trans heffect'
    rw [add_zero, add_zero] at hboth
    convert hboth using 1
    funext a
    simp

/-- What is sent for a queue with the messages `msgs` and splits `us`. -/
structure PlanSent (z z' : HostZone) (queue : EpochRecords)
    (txs : List UndelegateTx) (msgs : List MsgUndelegate) (us : List SplitUndelegation) :
    Prop where
  computed : unbondingMessages z (getTotalUnbondAmount queue) = .ok (msgs, us)
  ne_nil : txs ≠ []
  splits : (txs.map fun tx => tx.callback.splitUndelegations).flatten = us
  msgs : (txs.map UndelegateTx.msgs).flatten = msgs
  named : ∀ tx ∈ txs, tx.callback.hostZoneId = z.chainId ∧
    tx.callback.epochUnbondingRecordIds = queue.map Prod.fst
  counters : BookEffect z z' 0 0 fun a => ((us.map SplitUndelegation.validator).count a : ℤ)

private theorem PlanSent.nonneg (h : PlanSent z z' queue txs msgs us) {tx : UndelegateTx}
    (htx : tx ∈ txs)
    {u : SplitUndelegation} (hu : u ∈ tx.callback.splitUndelegations) :
    0 ≤ u.nativeTokenAmount := by
  refine (unbondingMessages_ok h.computed).2.1 u (h.splits ▸ mem_flatten.mpr ⟨_, ?_, hu⟩)
  exact mem_map.mpr ⟨tx, htx, rfl⟩

/-- The part of `UnbondFromHostZone` between the two loops over the records: the zone with its
    counters, and the transactions. -/
def undelegationPlan (z : HostZone) (queue : EpochRecords)
    (submitTxs : ℕ → Bool) : Result (HostZone × List UndelegateTx) :=
  if z.delegationIcaAddress = "" then
    wrapf .errICAAccountNotFound s!"no delegation account found for {z.chainId}"
  else if getTotalUnbondAmount queue = 0 then .ok (z, [])
  else do
    let (msgs, unbondings) ← unbondingMessages z (getTotalUnbondAmount queue)
    if msgs.isEmpty then
      wrapf .errInvalidRequest "Target unbonded amount was 0 for each validator"
    else
      batchSubmitUndelegateICAMessages z (queue.map Prod.fst) msgs unbondings
        z.maxMessagesPerIcaTx submitTxs

/-- A plan has nothing to unbond, or sends batches. -/
theorem undelegationPlan_ok (h : undelegationPlan z queue submitTxs = .ok (z', txs)) :
    (getTotalUnbondAmount queue = 0 ∧ z' = z ∧ txs = []) ∨
      (getTotalUnbondAmount queue ≠ 0 ∧ ∃ msgs us, PlanSent z z' queue txs msgs us) := by
  unfold undelegationPlan at h
  split at h
  · cases h
  split at h
  · rename_i htotal
    cases h
    exact .inl ⟨htotal, rfl, rfl⟩
  rename_i htotal
  obtain ⟨⟨msgs, us⟩, hmsgs, h⟩ := bind_eq_ok.mp h
  dsimp only at h
  split at h
  · cases h
  rename_i hne
  obtain ⟨rfl, heffect⟩ := submitUndelegateBatches_ok h
  have hlength := length_batches_eq z.maxMessagesPerIcaTx (unbondingMessages_ok hmsgs).1
  have hsnd := map_snd_zip hlength.ge
  -- the batches together are the messages
  have hflat : (((batches z.maxMessagesPerIcaTx msgs).zip
      (batches z.maxMessagesPerIcaTx us)).map Prod.fst).flatten = msgs := by
    rw [map_fst_zip hlength.le, flatten_batches]
  rw [flatMap_def, hsnd, flatten_batches] at heffect
  refine .inr ⟨htotal, msgs, us, hmsgs, fun hnil => ?_, ?_, ?_, ?_, heffect⟩
  · rw [map_eq_nil_iff.mp hnil] at hflat
    exact hne (isEmpty_iff.mpr hflat.symm)
  · rw [map_map]
    exact (congrArg flatten hsnd).trans (flatten_batches _ us)
  · rw [map_map]
    exact hflat
  · intro tx htx
    obtain ⟨b, -, rfl⟩ := mem_map.mp htx
    exact ⟨rfl, rfl⟩

/-! ## The submission of a zone -/

private theorem keepsHostZoneId_submittedRecord (n : ℕ) :
    KeepsHostZoneId (σ := Unit) fun _ _ r => .ok ((), some (submittedRecord n r)) := by
  intro _ _ _ _ _ h
  cases h
  rfl

def UnbondingKeeper.refreshedQueue (k : UnbondingKeeper) : EpochRecords :=
  mapRecords k.refreshed
    k.queuedRecords

/-- A record of the queue once `numTxs` transactions were sent. -/
def unbondedAt (numTxs : ℕ) (r : HostZoneUnbonding) : HostZoneUnbonding :=
  if numTxs = 0 then r else submittedRecord numTxs r

/-- What a submission leaves of the state before it. -/
structure Unbonded (k k' : UnbondingKeeper) (z' : HostZone) (txs : List UndelegateTx) : Prop where
  zone : k'.hostZone = z'
  records : Rewrites k.hostZone.chainId
    (k.queuedRecords.map Prod.fst)
    (fun r => unbondedAt txs.length (k.refreshed r)) k.epochUnbondingRecords
    k'.epochUnbondingRecords
  users : UsersRefreshed k.hostZone.redemptionRate
    (refreshedIds k.queuedRecords)
    k.userRedemptionRecords k'.userRedemptionRecords
  bank : k'.bank = k.bank

theorem fetched_of_rewrites {c : String} {g : HostZoneUnbonding → HostZoneUnbonding}
    (h : Rewrites c (recs.map Prod.fst) g s s') (hrecs : Fetched s c recs) :
    Fetched s' c (mapRecords g recs) := by
  intro p hp
  obtain ⟨q, hq, rfl⟩ := mem_map.mp hp
  have hepoch : q.1 ∈ recs.map Prod.fst := mem_map_of_mem hq
  rw [h.view, if_pos ⟨rfl, hepoch⟩, hrecs q hq]
  rfl

private theorem refreshUnbondingNativeTokenAmounts_eq (k : UnbondingKeeper) :
    ∃ k₁, refreshUnbondingNativeTokenAmounts k k.queuedRecords = .ok k₁ ∧
      Unbonded k k₁ k.hostZone [] ∧
      getQueuedHostZoneUnbondingRecords k₁.epochUnbondingRecords k.hostZone.chainId =
        k.refreshedQueue := by
  set queue := k.queuedRecords with hqueue
  have hfetched : Fetched k.epochUnbondingRecords k.hostZone.chainId queue :=
    fetched_selectHostZoneUnbondings _ _ _
  have hnd : (queue.map Prod.fst).Nodup := nodup_selectHostZoneUnbondings _ _ _
  obtain ⟨users', hrun, husers⟩ := mapAccum_refreshBody k
    (fun p hp => hostZoneId_of_hostZoneUnbondings (hfetched p hp)) rfl
  obtain ⟨records, hloop, hout, hsame⟩ := forEachHostZoneUnbonding_of_mapAccum
    (fun _ => ⟨.plain, ""⟩) (keepsHostZoneId_refreshBody _) hnd hfetched hrun
  rw [← forEachFetched_eq_forEachHostZoneUnbonding _ (keepsHostZoneId_refreshBody _) hnd
    hfetched] at hloop
  have hrewrites := rewrites_of_mapRecords rfl hfetched hout hsame
  refine ⟨_, bind_eq_ok.mpr ⟨_, hloop, rfl⟩, ⟨rfl, ?_, husers, rfl⟩, ?_⟩
  · simpa [unbondedAt, ← hqueue] using hrewrites
  · -- both scans filter the same keys by a property that the refresh keeps
    refine (fetched_selectHostZoneUnbondings _ _ _).ext hout ?_
    rw [UnbondingKeeper.refreshedQueue, map_fst_mapRecords, UnbondingKeeper.queuedRecords,
      getQueuedHostZoneUnbondingRecords, map_fst_selectHostZoneUnbondings,
      map_fst_selectHostZoneUnbondings, hrewrites.keys]
    refine filter_congr fun e _ => ?_
    rw [hrewrites.view]
    split
    · cases hostZoneUnbondings k.epochUnbondingRecords k.hostZone.chainId e with
      | none => rfl
      | some r =>
        show ((k.refreshed r).shouldInitiateUnbonding || (k.refreshed r).shouldRetryUnbonding) = _
        unfold UnbondingKeeper.refreshed
        split <;> rfl
    · rfl

private theorem markSubmitted_eq {c : String} (n : ℕ) (hnd : (recs.map Prod.fst).Nodup)
    (hrecs : Fetched s c recs) :
    ∃ s', forEachFetched c (fun _ _ r => .ok ((), some (submittedRecord n r))) recs () s =
        .ok ((), s') ∧ Rewrites c (recs.map Prod.fst) (submittedRecord n) s s' := by
  have hrun (recs : EpochRecords) : mapAccum (recordStep (σ := Unit)
      fun _ _ r => .ok ((), some (submittedRecord n r))) () recs =
        .ok ((), mapRecords (submittedRecord n) recs) := by
    induction recs with
    | nil => rfl
    | cons p recs ih => exact mapAccum_cons_ok.mpr ⟨_, _, _, rfl, ih, rfl⟩
  obtain ⟨s', hloop, hout, hsame⟩ := forEachHostZoneUnbonding_of_mapAccum
    (fun _ => ⟨.plain, ""⟩) (keepsHostZoneId_submittedRecord n) hnd hrecs (hrun recs)
  rw [← forEachFetched_eq_forEachHostZoneUnbonding _ (keepsHostZoneId_submittedRecord n) hnd
    hrecs] at hloop
  exact ⟨s', hloop, rewrites_of_mapRecords rfl hrecs hout hsame⟩

/-- **Submission of a zone**: it fails with the plan for its refreshed records, or it leaves the
    zone of the plan and its records, refreshed and in progress if something was sent. -/
theorem unbondFromHostZone_eq (k : UnbondingKeeper) (submitTxs : ℕ → Bool) :
    match undelegationPlan k.hostZone k.refreshedQueue submitTxs with
    | .error err => unbondFromHostZone k submitTxs = .error err
    | .ok (z', txs) =>
      ∃ k', unbondFromHostZone k submitTxs = .ok (k', txs) ∧ Unbonded k k' z' txs := by
  obtain ⟨k₁, hrefresh, hunbonded, hqueue⟩ := refreshUnbondingNativeTokenAmounts_eq k
  have hids : k.queuedRecords.map Prod.fst = k.refreshedQueue.map Prod.fst :=
    (map_fst_mapRecords _ _).symm
  by_cases haddress : k.hostZone.delegationIcaAddress = ""
  · simp [undelegationPlan, unbondFromHostZone, haddress, wrapf]
  by_cases htotal : getTotalUnbondAmount k.refreshedQueue = 0
  · simp only [undelegationPlan, haddress, htotal, if_true, if_false]
    refine ⟨k₁, ?_, hunbonded⟩
    simp [unbondFromHostZone, haddress, hrefresh, hqueue, htotal, bind, Except.bind, pure,
      Except.pure]
  -- behind the refresh both sides run the plan, and the source marks the records
  have hrun : unbondFromHostZone k submitTxs =
      (undelegationPlan k.hostZone k.refreshedQueue submitTxs).bind fun plan =>
        (forEachFetched k.hostZone.chainId
          (fun _ _ r => .ok ((), some (submittedRecord plan.2.length r))) k.refreshedQueue ()
          k₁.epochUnbondingRecords).map fun marked =>
            ({ k₁ with hostZone := plan.1, epochUnbondingRecords := marked.2 }, plan.2) := by
    simp only [undelegationPlan, unbondFromHostZone, haddress, htotal, if_false, hrefresh, bind,
      Except.bind, hqueue, hids, hunbonded.zone]
    cases unbondingMessages k.hostZone (getTotalUnbondAmount k.refreshedQueue) with
    | error err => rfl
    | ok result =>
      dsimp only
      split
      · rfl
      cases batchSubmitUndelegateICAMessages k.hostZone (k.refreshedQueue.map Prod.fst) result.1
        result.2 k.hostZone.maxMessagesPerIcaTx submitTxs with
      | error err => rfl
      | ok plan =>
        cases forEachFetched k.hostZone.chainId
          (fun _ _ r => .ok ((), some (submittedRecord plan.2.length r))) k.refreshedQueue ()
          k₁.epochUnbondingRecords <;> rfl
  cases hplan : undelegationPlan k.hostZone k.refreshedQueue submitTxs with
  | error err => rw [hrun, hplan]; rfl
  | ok plan =>
    obtain ⟨z', txs⟩ := plan
    obtain ⟨hzero, -⟩ | ⟨-, _, _, hsent⟩ := undelegationPlan_ok hplan
    · exact absurd hzero htotal
    have hlength : txs.length ≠ 0 := fun h => hsent.ne_nil (length_eq_zero_iff.mp h)
    have hfetched : Fetched k₁.epochUnbondingRecords k.hostZone.chainId k.refreshedQueue := by
      rw [← hqueue]
      exact fetched_selectHostZoneUnbondings _ _ _
    obtain ⟨records, hmark, hmarked⟩ := markSubmitted_eq txs.length
      (hids ▸ nodup_selectHostZoneUnbondings _ _ _) hfetched
    refine ⟨{ k₁ with hostZone := z', epochUnbondingRecords := records }, ?_, rfl, ?_,
      hunbonded.users, hunbonded.bank⟩
    · rw [hrun, hplan, Except.bind, hmark]
      rfl
    · refine ⟨fun c e => ?_, hmarked.keys.trans hunbonded.records.keys⟩
      rw [hmarked.view, hunbonded.records.view, hids]
      split
      · simp [unbondedAt, hlength, comp_def]
      · rfl

/-- An unbonding follows its plan. -/
theorem unbondFromHostZone_ok (h : unbondFromHostZone k submitTxs = .ok (k', txs)) :
    ∃ z', undelegationPlan k.hostZone k.refreshedQueue submitTxs = .ok (z', txs) ∧
      Unbonded k k' z' txs := by
  have heq := unbondFromHostZone_eq k submitTxs
  cases hplan : undelegationPlan k.hostZone k.refreshedQueue submitTxs with
  | error err =>
    rw [hplan, h] at heq
    cases heq
  | ok plan =>
    obtain ⟨z', txs'⟩ := plan
    rw [hplan] at heq
    obtain ⟨k'', hk'', hunbonded⟩ := heq
    cases hk''.symm.trans h
    exact ⟨z', rfl, hunbonded⟩

/-! ## Non-negative amounts -/

def NonnegUsers (users : UserRedemptionStore) : Prop :=
  ∀ id user, users.get? id = some user → 0 ≤ user.stTokenAmount

theorem nonnegUsers_empty : NonnegUsers .empty := by
  intro id user h
  cases h

theorem NonnegUsers.set (husers : NonnegUsers users) {user : UserRedemptionRecord}
    (huser : 0 ≤ user.stTokenAmount) : NonnegUsers (users.set user) := by
  intro id' user' h
  rw [get?_set] at h
  split at h
  · cases h
    exact huser
  · exact husers id' user' h

/-- Redemptions of a receiver at the rate one. -/
def redemptionOf (receiver : String) (amount : ℤ) : UserRedemptionRecord :=
  ⟨receiver, receiver, amount, "uatom", "host", 1, false, amount⟩

theorem nonnegUsers_iff_redeemedTokens :
    NonnegUsers users ↔ ∀ id n, redeemedTokens users id = some n → 0 ≤ n := by
  simp [NonnegUsers, redeemedTokens]

theorem listedNativeAmount_nonneg (hrate : 0 ≤ rate.i) (husers : NonnegUsers users)
    (ids : List String) : 0 ≤ listedNativeAmount rate users ids := by
  apply sum_map_nonneg
  intro n hn
  obtain ⟨id, -, hid⟩ := mem_filterMap.mp hn
  exact LegacyDec.truncateInt_mul_nonneg (nonnegUsers_iff_redeemedTokens.mp husers id n hid) hrate

/-- A record before and after the refresh. -/
def Refreshed (r r' : HostZoneUnbonding) : Prop :=
  (r.status ≠ .unbondingQueue ∧ r' = r) ∨
    (r.status = .unbondingQueue ∧ ∃ n, 0 ≤ n ∧ r' = refreshedRecord r n)

theorem Refreshed.status_eq (h : Refreshed r r') : r'.status = r.status := by
  rcases h with ⟨-, rfl⟩ | ⟨-, n, -, rfl⟩ <;> rfl

theorem Refreshed.undelegationTxsInProgress_eq (h : Refreshed r r') :
    r'.undelegationTxsInProgress = r.undelegationTxsInProgress := by
  rcases h with ⟨-, rfl⟩ | ⟨-, n, -, rfl⟩ <;> rfl

theorem Refreshed.stTokenAmount_eq (h : Refreshed r r') : r'.stTokenAmount = r.stTokenAmount := by
  rcases h with ⟨-, rfl⟩ | ⟨-, n, -, rfl⟩ <;> rfl

/-- A record before and after a submission of `numTxs` transactions. -/
def Submitted (numTxs : ℕ) (r r' : HostZoneUnbonding) : Prop :=
  ∃ r₁, Refreshed r r₁ ∧ r' = submittedRecord numTxs r₁

/-- The queued records of a zone became the records `out`, related by `R`, and no other
    record changed. -/
structure QueuedBecame (R : HostZoneUnbonding → HostZoneUnbonding → Prop)
    (k k' : UnbondingKeeper) (out : EpochRecords) : Prop where
  related : List.Forall₂ (AtSameEpoch R)
    k.queuedRecords out
  fetched : Fetched k'.epochUnbondingRecords k.hostZone.chainId out
  same : SameElsewhere k.hostZone.chainId
    (k.queuedRecords.map Prod.fst)
    k.epochUnbondingRecords k'.epochUnbondingRecords

/-- What a submission sends: transactions that name all the queued records and add up to
    what these have left to unbond. -/
structure SendsForQueued (k : UnbondingKeeper) (out : EpochRecords)
    (txs : List UndelegateTx) : Prop where
  ne_nil : txs ≠ []
  sum_eq : (txs.map UndelegateTx.amount).sum =
    (out.map fun p => p.2.nativeTokensToUnbond).sum
  nonneg : ∀ tx ∈ txs, 0 ≤ tx.amount
  hostZoneId : ∀ tx ∈ txs, tx.callback.hostZoneId = k.hostZone.chainId
  ids : ∀ tx ∈ txs, tx.callback.epochUnbondingRecordIds =
    k.queuedRecords.map Prod.fst

private theorem queuedBecame_of_rewrites {R : HostZoneUnbonding → HostZoneUnbonding → Prop}
    {g : HostZoneUnbonding → HostZoneUnbonding} (hR : ∀ r, R r (g r))
    (h : Rewrites k.hostZone.chainId (k.queuedRecords.map Prod.fst)
      g k.epochUnbondingRecords k'.epochUnbondingRecords) :
    QueuedBecame R k k' (mapRecords g
      k.queuedRecords) where
  related := (forall₂_mapRecords g _).imp fun _ _ hpq => ⟨hpq.1, hpq.2 ▸ hR _⟩
  fetched := fetched_of_rewrites h (fetched_selectHostZoneUnbondings _ _ _)
  same := by
    refine ⟨fun e he => ?_, fun c hc => funext fun e => ?_, h.keys⟩
    · rw [h.view, if_neg fun hz => he hz.2]
    · rw [h.view, if_neg fun hz => hc hz.1]

/-- What the rest of the chain guarantees of the keepers: redeemed amounts and the
    redemption rate are non-negative. -/
structure UnbondingKeeper.WellFormed (k : UnbondingKeeper) : Prop where
  rate : 0 ≤ k.hostZone.redemptionRate.i
  users : NonnegUsers k.userRedemptionRecords

/-- **Submission**: a submission either finds nothing to unbond and leaves the queued
    records refreshed, or it leaves them in progress and sends transactions that name them
    all and carry exactly what they have left to unbond. -/
theorem unbondFromHostZone_spec (hwf : k.WellFormed)
    (h : unbondFromHostZone k submitTxs = .ok (k', txs)) :
    k'.hostZone.chainId = k.hostZone.chainId ∧ k'.WellFormed ∧ ∃ out,
      (txs = [] ∧ QueuedBecame Refreshed k k' out) ∨
      (QueuedBecame (Submitted txs.length) k k' out ∧ SendsForQueued k out txs) := by
  obtain ⟨z', hplan, hunbonded⟩ := unbondFromHostZone_ok h
  have husers : NonnegUsers k'.userRedemptionRecords := by
    rw [nonnegUsers_iff_redeemedTokens, hunbonded.users.redeemedTokens_eq,
      ← nonnegUsers_iff_redeemedTokens]
    exact hwf.users
  have hzone (hset : k'.hostZone.settings = k.hostZone.settings) :
      k'.hostZone.chainId = k.hostZone.chainId ∧ k'.WellFormed :=
    ⟨HostZone.chainId_eq_of_settings hset,
      HostZone.redemptionRate_eq_of_settings hset ▸ hwf.rate, husers⟩
  have hrefreshed (r : HostZoneUnbonding) : Refreshed r (k.refreshed r) := by
    unfold UnbondingKeeper.refreshed
    split
    · rename_i hstatus
      refine .inr ⟨hstatus, _, ?_, rfl⟩
      rw [UnbondingKeeper.nativeAmount, if_pos hstatus]
      exact listedNativeAmount_nonneg hwf.rate hwf.users _
    · rename_i hstatus
      exact .inl ⟨hstatus, rfl⟩
  obtain ⟨-, rfl, rfl⟩ | ⟨-, msgs, us, hsent⟩ := undelegationPlan_ok hplan
  · -- nothing to unbond
    obtain ⟨hchain, hwf'⟩ := hzone (by rw [hunbonded.zone])
    exact ⟨hchain, hwf', _, .inl ⟨rfl, queuedBecame_of_rewrites hrefreshed hunbonded.records⟩⟩
  obtain ⟨hchain, hwf'⟩ := hzone (hunbonded.zone ▸ hsent.counters.settings)
  refine ⟨hchain, hwf', _, .inr
    ⟨queuedBecame_of_rewrites (fun r => ?_) hunbonded.records, hsent.ne_nil, ?_, ?_,
      fun tx htx => (hsent.named tx htx).1, fun tx htx => ?_⟩⟩
  · exact ⟨_, hrefreshed r, if_neg fun hnil => hsent.ne_nil (length_eq_zero_iff.mp hnil)⟩
  · -- the splits add up to what the refreshed records have left
    have hsum := (unbondingMessages_ok hsent.computed).2.2
    rw [← hsent.splits, map_flatten, sum_flatten, map_map, map_map] at hsum
    refine Eq.trans hsum ?_
    rw [getTotalUnbondAmount, UnbondingKeeper.refreshedQueue, mapRecords, mapRecords, map_map,
      map_map]
    refine congrArg sum (map_congr_left fun p _ => ?_)
    simp only [comp, unbondedAt]
    split <;> rfl
  · intro tx htx
    exact sum_map_nonneg fun u hu => hsent.nonneg htx hu
  · rw [(hsent.named tx htx).2, UnbondingKeeper.refreshedQueue, map_fst_mapRecords]

/-- No split is negative. -/
theorem splits_nonneg_of_unbondFromHostZone (h : unbondFromHostZone k submitTxs = .ok (k', txs)) :
    ∀ tx ∈ txs, ∀ u ∈ tx.callback.splitUndelegations, 0 ≤ u.nativeTokenAmount := by
  obtain ⟨z', hplan, -⟩ := unbondFromHostZone_ok h
  obtain ⟨-, -, rfl⟩ | ⟨-, msgs, us, hsent⟩ := undelegationPlan_ok hplan
  · exact forall_mem_nil _
  · exact fun tx htx u hu => hsent.nonneg htx hu

end Stride.Stakeibc
