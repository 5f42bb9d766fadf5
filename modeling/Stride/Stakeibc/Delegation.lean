import Stride.Lib.Batches
import Stride.Records.DepositRecord
import Stride.Records.HostZoneUnbonding
import Stride.Stakeibc.BookEffect
import Stride.Stakeibc.TargetDelegations

/-!
# Staking Deposit Records

Once a stride epoch, the deposit records in DELEGATION_QUEUE are delegated on their host
zones, in one or more transactions of the delegation account.

The source stakes all records in one call and goes on to the next record after an error.
Nothing is rolled back: transactions sent before the error stay sent, and so do the writes
to the host zone. The functions here therefore return a state in every case.
-/

namespace Stride.Stakeibc

open Lib Sdk Records List

/-! ## Model -/

structure SplitDelegation where
  validator : String
  amount : ℤ
  deriving DecidableEq

structure MsgDelegate where
  delegatorAddress : String
  validatorAddress : String
  amount : String × ℤ
  deriving DecidableEq

/-- Data stored for the callback of a delegate transaction. -/
structure DelegateCallback where
  hostZoneId : String
  depositRecordId : ℕ
  splitDelegations : List SplitDelegation
  deriving DecidableEq

structure DelegateTx where
  msgs : List MsgDelegate
  callback : DelegateCallback
  deriving DecidableEq

/-- Tokens that a callback delegates. -/
def DelegateCallback.amount (callback : DelegateCallback) : ℤ :=
  (callback.splitDelegations.map SplitDelegation.amount).sum

/-- The state that the delegation of deposits reads and writes. -/
structure DelegationKeeper where
  hostZones : HostZoneStore
  depositRecords : DepositRecordStore
  depositRecordCount : ℕ
  epochUnbondingRecords : EpochUnbondingStore

/-- The next id of a deposit record is above all ids in use. -/
def DelegationKeeper.IdsBelowCount (k : DelegationKeeper) : Prop :=
  ∀ id r, k.depositRecords.get? id = some r → id < k.depositRecordCount

theorem DelegationKeeper.IdsBelowCount.get?_count {k : DelegationKeeper} (h : k.IdsBelowCount) :
    k.depositRecords.get? k.depositRecordCount = none :=
  Option.eq_none_iff_forall_ne_some.mpr fun r hr => (h _ r hr).false

/-- The positive targets, in the order of the validators. -/
def splitDelegations (validators : List Validator) (targets : String → Option ℤ) :
    List SplitDelegation :=
  validators.filterMap fun v =>
    match targets v.address with
    | none => none
    | some validatorAmount =>
      if 0 < validatorAmount then some ⟨v.address, validatorAmount⟩ else none

def msgDelegate (hostZone : HostZone) (d : SplitDelegation) : Result MsgDelegate := do
  let amount ← newCoin hostZone.hostDenom d.amount
  return ⟨hostZone.delegationIcaAddress, d.validator, amount⟩

def getDelegationICAMessages (hostZone : HostZone) (depositRecord : DepositRecord) :
    Result (List MsgDelegate × List SplitDelegation) := do
  let targets ← getTargetValAmtsForHostZone hostZone depositRecord.amount
  let delegations := splitDelegations hostZone.validators targets
  let msgs ← delegations.mapM (msgDelegate hostZone)
  if msgs.isEmpty then
    wrapf .errInvalidRequest "Target delegation amount was 0 for each validator"
  else return (msgs, delegations)

/-- The loop of `BatchSubmitDelegationICAMessages` from batch `batch` on. `submitTxs` says
    which submissions the ICA controller accepts. Returns the host zones, the transactions
    sent, and how the loop ended. -/
def submitDelegateBatches (depositRecordId : ℕ) (submitTxs : ℕ → Bool) :
    List (List MsgDelegate × List SplitDelegation) → ℕ → HostZone → HostZoneStore →
      HostZoneStore × List DelegateTx × Result Unit
  | [], _, _, hostZones => (hostZones, [], .ok ())
  | (msgs, delegations) :: rest, batch, hostZone, hostZones =>
    if ¬ submitTxs batch then
      (hostZones, [],
        wrapf .plain s!"failed to submit delegation ICAs on {hostZone.chainId}")
    else
      let tx : DelegateTx := ⟨msgs, ⟨hostZone.chainId, depositRecordId, delegations⟩⟩
      match (delegations.map SplitDelegation.validator).foldlM
          incrementValidatorDelegationChangesInProgress hostZone with
      | .error err => (hostZones, [tx], .error err)
      | .ok hostZone =>
        let (hostZones, txs, result) := submitDelegateBatches depositRecordId submitTxs rest
          (batch + 1) hostZone (hostZones.set hostZone)
        (hostZones, tx :: txs, result)

def batchSubmitDelegationICAMessages (hostZones : HostZoneStore) (hostZone : HostZone)
    (depositRecord : DepositRecord) (msgs : List MsgDelegate)
    (delegations : List SplitDelegation) (batchSize : ℕ+) (submitTxs : ℕ → Bool) :
    HostZoneStore × List DelegateTx × Result Unit :=
  submitDelegateBatches depositRecord.id submitTxs
    ((batches batchSize msgs).zip (batches batchSize delegations)) 0 hostZone hostZones

/-- A record once its delegations were sent. -/
def stakedRecord (numTxsSubmitted : ℕ) (r : DepositRecord) : DepositRecord :=
  { r with
    status := .delegationInProgress
    delegationTxsInProgress := r.delegationTxsInProgress + numTxsSubmitted }

/-- The loop body of `StakeExistingDepositsOnHostZones`. Each error is logged, and the loop
    goes on with the state as it is. -/
def stakeDepositRecord (k : DelegationKeeper) (submitTxs : ℕ → Bool) (r : DepositRecord) :
    DelegationKeeper × List DelegateTx :=
  if r.amount = 0 then (k, [])
  else
    match getActiveHostZone k.hostZones r.hostZoneId with
    | .error _ => (k, [])
    | .ok hostZone =>
      if hostZone.delegationIcaAddress = "" then (k, [])
      else
        match getDelegationICAMessages hostZone r with
        | .error _ => (k, [])
        | .ok (msgs, delegations) =>
          match batchSubmitDelegationICAMessages k.hostZones hostZone r msgs delegations
              hostZone.maxMessagesPerIcaTx submitTxs with
          | (hostZones, txs, .error _) => ({ k with hostZones := hostZones }, txs)
          | (hostZones, txs, .ok ()) =>
            ({ k with
              hostZones := hostZones
              depositRecords := k.depositRecords.set (stakedRecord txs.length r) }, txs)

/-- The records that `StakeExistingDepositsOnHostZones` takes. -/
def stakeDepositRecords (k : DelegationKeeper) (epochNumber : ℕ) : List DepositRecord :=
  k.depositRecords.values.filter fun r =>
    r.status = .delegationQueue ∧ r.depositEpochNumber < epochNumber ∧
      r.delegationTxsInProgress = 0

/-- `StakeExistingDepositsOnHostZones` on all deposit records. Also returns the transactions
    sent. `submitTxs` is asked with the record and the batch. -/
def stakeExistingDepositsOnHostZones (k : DelegationKeeper) (epochNumber : ℕ)
    (submitTxs : DepositRecord → ℕ → Bool) : DelegationKeeper × List DelegateTx :=
  (stakeDepositRecords k epochNumber).foldl
    (fun (k, sent) r =>
      let (k, txs) := stakeDepositRecord k (submitTxs r) r
      (k, sent ++ txs))
    (k, [])

/-! ## Messages -/

variable {r : DepositRecord} {hostZone : HostZone} {msgs : List MsgDelegate}
  {ds : List SplitDelegation} {validators : List Validator} {targets : String → Option ℤ}
  {submitTxs : ℕ → Bool}

private theorem mem_splitDelegations {d : SplitDelegation}
    (h : d ∈ splitDelegations validators targets) :
    0 < d.amount ∧ d.validator ∈ validators.map Validator.address := by
  obtain ⟨v, hv, hd⟩ := mem_filterMap.mp h
  split at hd
  · cases hd
  split at hd
  · rename_i hpos
    cases hd
    exact ⟨hpos, mem_map_of_mem hv⟩
  · cases hd

private theorem sum_splitDelegations {target : Validator → ℤ}
    (htarget : ∀ v ∈ eligibleValidators validators, targets v.address = some (target v))
    (hnone : ∀ v ∈ validators, v.slashQueryInProgress → targets v.address = none)
    (hnn : ∀ v, 0 ≤ target v) :
    ((splitDelegations validators targets).map SplitDelegation.amount).sum =
      ((eligibleValidators validators).map target).sum := by
  induction validators with
  | nil => rfl
  | cons v validators ih =>
    obtain ⟨hnv, hnone'⟩ := forall_mem_cons.mp hnone
    by_cases hquery : v.slashQueryInProgress
    · have heligible : eligibleValidators (v :: validators) = eligibleValidators validators := by
        simp [eligibleValidators, hquery]
      have hsplit : splitDelegations (v :: validators) targets =
          splitDelegations validators targets := by
        simp [splitDelegations, hnv hquery]
      rw [heligible] at htarget ⊢
      rw [hsplit, ih htarget hnone']
    · have heligible : eligibleValidators (v :: validators) =
          v :: eligibleValidators validators := by simp [eligibleValidators, hquery]
      rw [heligible] at htarget ⊢
      obtain ⟨hv, htarget'⟩ := forall_mem_cons.mp htarget
      rw [map_cons, sum_cons, ← ih htarget' hnone']
      have hnnv := hnn v
      -- a target of zero has no message
      by_cases hpos : 0 < target v
      · simp [splitDelegations, hv, hpos]
      · have hzero : target v = 0 := by omega
        simp [splitDelegations, hv, hzero]

private theorem mapM_msgDelegate_length (h : ds.mapM (msgDelegate hostZone) = .ok msgs) :
    msgs.length = ds.length := by
  induction ds generalizing msgs with
  | nil =>
    cases h
    rfl
  | cons d ds ih =>
    rw [mapM_cons] at h
    obtain ⟨m, -, h⟩ := bind_eq_ok.mp h
    obtain ⟨ms, hms, h⟩ := bind_eq_ok.mp h
    cases h
    rw [length_cons, length_cons, ih hms]

/-- **Messages**: positive amounts to validators of the zone, which add up to the amount of
    the record if the weights are valid. -/
theorem getDelegationICAMessages_ok (h : getDelegationICAMessages hostZone r = .ok (msgs, ds)) :
    msgs.length = ds.length ∧ ds ≠ [] ∧
      (∀ d ∈ ds, 0 < d.amount ∧ d.validator ∈ hostZone.addresses) ∧
      (hostZone.WeightsValid → (ds.map SplitDelegation.amount).sum = r.amount) := by
  obtain ⟨targets, htargets, h⟩ := bind_eq_ok.mp h
  obtain ⟨msgs', hmsgs, h⟩ := bind_eq_ok.mp h
  split at h
  · cases h
  rename_i hne
  cases h
  have hlen := mapM_msgDelegate_length hmsgs
  refine ⟨hlen, ?_, fun d hd => mem_splitDelegations hd, fun hvalid => ?_⟩
  · intro hnil
    rw [hnil, length_nil, length_eq_zero_iff] at hlen
    exact hne (by rw [hlen]; rfl)
  · -- the code has checked that the amount and the weight sum are positive
    have htargets' := htargets
    unfold getTargetValAmtsForHostZone at htargets'
    split at htargets'
    · cases htargets'
    rename_i htotal
    have htotal : 0 < r.amount := not_not.mp htotal
    dsimp only at htargets'
    split at htargets'
    · cases htargets'
    rename_i hweight
    have hsum : 0 <
        weightSum hostZone.eligible := by
      rw [← toNat_getTotalValidatorWeight hvalid.no_overflow]
      apply Nat.pos_of_ne_zero
      intro hzero
      exact hweight (UInt64.toNat_inj.mp hzero)
    obtain ⟨targets', heq, hsome, hnone⟩ :=
      getTargetValAmtsForHostZone_eq hvalid.nodup hsum hvalid.no_overflow htotal
    rw [heq] at htargets
    cases htargets
    have hnd : (hostZone.eligible.map Validator.address).Nodup :=
      hvalid.nodup.sublist (filter_sublist.map _)
    have hne : hostZone.eligible ≠ [] := by
      intro hnil
      rw [hnil] at hsum
      simp [weightSum] at hsum
    rw [sum_splitDelegations hsome _ fun v => targetDelegation_nonneg htotal.le v,
      sum_targetDelegation hnd hne]
    intro v hv hquery
    apply hnone
    intro hmem
    obtain ⟨w, hw, haddr⟩ := mem_map.mp hmem
    obtain ⟨hwMem, hwQuery⟩ := mem_filter.mp hw
    rw [inj_on_of_nodup_map hvalid.nodup hwMem hv haddr, hquery] at hwQuery
    cases hwQuery

/-! ## Submission -/

/-- The validators that a list of transactions delegates to. -/
def delegatedValidators (txs : List DelegateTx) : List String :=
  txs.flatMap fun tx => tx.callback.splitDelegations.map SplitDelegation.validator

private theorem submitDelegateBatches_ok (id : ℕ) (hall : ∀ j, submitTxs j = true)
    {bs : List (List MsgDelegate × List SplitDelegation)} (batch : ℕ) {z : HostZone}
    (zones : HostZoneStore) (hz : zones.get? z.chainId = some z)
    (hvals : ∀ b ∈ bs, ∀ d ∈ b.2, d.validator ∈ z.addresses) :
    ∃ z' zones' txs, submitDelegateBatches id submitTxs bs batch z zones = (zones', txs, .ok ()) ∧
      txs.map DelegateTx.callback = bs.map (fun b => ⟨z.chainId, id, b.2⟩) ∧
      (∀ c, zones'.get? c = if c = z.chainId then some z' else zones.get? c) ∧
      BookEffect z z' 0 0 fun a => ((delegatedValidators txs).count a : ℤ) := by
  induction bs generalizing batch z zones with
  | nil =>
    refine ⟨z, zones, [], rfl, rfl, fun c => ?_, .refl z⟩
    split
    · rename_i hc
      rw [hc, hz]
    · rfl
  | cons b bs ih =>
    obtain ⟨msgs, ds⟩ := b
    obtain ⟨hb, hrest⟩ := forall_mem_cons.mp hvals
    -- the loop goes on with the counters of this batch raised
    obtain ⟨z₁, hinc, heffect₁⟩ :=
      foldlM_incrementValidatorDelegationChangesInProgress (z := z)
        (ds.map SplitDelegation.validator) (by
          intro a ha
          obtain ⟨d, hd, rfl⟩ := mem_map.mp ha
          exact hb d hd)
    have hchain : z₁.chainId = z.chainId := heffect₁.chainId
    obtain ⟨z', zones', txs, hrun, hcallbacks, hzones, heffect⟩ :=
      ih (z := z₁) (batch + 1) (zones.set z₁)
        (by rw [KeyedStore.get?_set, if_pos rfl])
        (by rw [heffect₁.addresses]; exact hrest)
    refine ⟨z', zones', ⟨msgs, ⟨z.chainId, id, ds⟩⟩ :: txs, ?_, ?_, fun c => ?_, ?_⟩
    · unfold submitDelegateBatches
      simp only [hall, not_true_eq_false, if_false, hinc, hrun]
    · rw [map_cons, map_cons, hcallbacks, hchain]
    · rw [hzones, KeyedStore.get?_set, hchain]
      split <;> rfl
    · have hcount : (fun a => ((ds.map SplitDelegation.validator).count a : ℤ)) +
          (fun a => ((delegatedValidators txs).count a : ℤ)) = fun a =>
            ((delegatedValidators (⟨msgs, ⟨z.chainId, id, ds⟩⟩ :: txs)).count a : ℤ) := by
        funext a
        simp [delegatedValidators]
      rw [← hcount]
      exact heffect₁.trans heffect

/-- What staking a record leaves behind when all its transactions were sent. -/
structure Staked (k k' : DelegationKeeper) (r : DepositRecord) (hostZone hostZone' : HostZone)
    (txs : List DelegateTx) : Prop where
  found : k.hostZones.get? r.hostZoneId = some hostZone
  hostZones : ∀ c,
    k'.hostZones.get? c = if c = r.hostZoneId then some hostZone' else k.hostZones.get? c
  depositRecords : k'.depositRecords = k.depositRecords.set (stakedRecord txs.length r)
  depositRecordCount : k'.depositRecordCount = k.depositRecordCount
  sent : txs ≠ []
  callbacks : ∀ tx ∈ txs,
    tx.callback.hostZoneId = r.hostZoneId ∧ tx.callback.depositRecordId = r.id
  nonneg : ∀ tx ∈ txs, 0 ≤ tx.callback.amount
  sum : hostZone.WeightsValid → (txs.map fun tx => tx.callback.amount).sum = r.amount
  effect : BookEffect hostZone hostZone' 0 0 fun a => ((delegatedValidators txs).count a : ℤ)

private theorem map_snd_zip_batches {α β : Type} (n : ℕ+) {xs : List α} {ys : List β}
    (h : xs.length = ys.length) :
    ((batches n xs).zip (batches n ys)).map Prod.snd = batches n ys :=
  map_snd_zip (length_batches_eq n h).ge

private theorem staked_of_getDelegationICAMessages {k : DelegationKeeper}
    (hall : ∀ j, submitTxs j = true) (hzone : k.hostZones.get? r.hostZoneId = some hostZone)
    (hmsgs : getDelegationICAMessages hostZone r = .ok (msgs, ds)) (n : ℕ+) :
    ∃ zones txs hostZone',
      batchSubmitDelegationICAMessages k.hostZones hostZone r msgs ds n submitTxs =
        (zones, txs, .ok ()) ∧
      Staked k { k with
        hostZones := zones
        depositRecords := k.depositRecords.set (stakedRecord txs.length r) }
        r hostZone hostZone' txs := by
  have hchain : hostZone.chainId = r.hostZoneId := KeyedStore.key_of_get? hzone
  obtain ⟨hlen, hne, hds, hsum⟩ := getDelegationICAMessages_ok hmsgs
  have hsnd := map_snd_zip_batches n hlen
  have hmem : ∀ b ∈ (batches n msgs).zip (batches n ds), ∀ d ∈ b.2, d ∈ ds := by
    intro b hb d hd
    exact mem_of_mem_batches (hsnd ▸ mem_map_of_mem hb) hd
  obtain ⟨hostZone', zones, txs, hrun, hcallbacks, hzones, heffect⟩ :=
    submitDelegateBatches_ok r.id hall 0 k.hostZones
      (by rw [hchain]; exact hzone) fun b hb d hd => (hds d (hmem b hb d hd)).2
  -- each transaction carries one batch of the splits
  have hcallback : ∀ tx ∈ txs, ∃ b ∈ (batches n msgs).zip (batches n ds),
      tx.callback = ⟨hostZone.chainId, r.id, b.2⟩ := by
    intro tx htx
    have hmem := mem_map_of_mem (f := DelegateTx.callback) htx
    rw [hcallbacks] at hmem
    obtain ⟨b, hb, heq⟩ := mem_map.mp hmem
    exact ⟨b, hb, heq.symm⟩
  have hamounts : (txs.map fun tx => tx.callback.amount) =
      (batches n ds).map fun b => (b.map SplitDelegation.amount).sum := by
    have hmap := congrArg (map DelegateCallback.amount) hcallbacks
    rw [map_map, map_map] at hmap
    rw [← hsnd, map_map]
    exact hmap
  refine ⟨zones, txs, hostZone', hrun,
    { found := hzone
      hostZones := by rw [← hchain]; exact hzones
      depositRecords := rfl
      depositRecordCount := rfl
      sent := ?_
      callbacks := ?_
      nonneg := ?_
      sum := ?_
      effect := heffect }⟩
  · rintro rfl
    exact hne (batches_eq_nil_iff.mp (map_eq_nil_iff.mp hamounts.symm))
  · intro tx htx
    obtain ⟨b, -, heq⟩ := hcallback tx htx
    rw [heq]
    exact ⟨hchain, rfl⟩
  · intro tx htx
    obtain ⟨b, hb, heq⟩ := hcallback tx htx
    rw [heq]
    apply sum_map_nonneg
    intro d hd
    exact (hds d (hmem b hb d hd)).1.le
  · intro hvalid
    rw [hamounts, sum_batches, hsum hvalid]

/-- **One record**: when a submission only fails at its first transaction, either nothing
    happens or the whole record is sent. -/
theorem stakeDepositRecord_spec (hfirst : submitTxs 0 = true → ∀ j, submitTxs j = true)
    (k : DelegationKeeper) (r : DepositRecord) :
    stakeDepositRecord k submitTxs r = (k, []) ∨
      ∃ k' txs hostZone hostZone', stakeDepositRecord k submitTxs r = (k', txs) ∧
        Staked k k' r hostZone hostZone' txs := by
  unfold stakeDepositRecord
  split
  · exact .inl rfl
  · split
    · exact .inl rfl
    · rename_i hostZone hactive
      split
      · exact .inl rfl
      · split
        · exact .inl rfl
        · rename_i msgs ds hmsgs
          by_cases hsubmit : submitTxs 0 = true
          · right
            obtain ⟨zones, txs, hostZone', hrun, hstaked⟩ :=
              staked_of_getDelegationICAMessages (hfirst hsubmit)
                (get?_of_getActiveHostZone hactive) hmsgs hostZone.maxMessagesPerIcaTx
            rw [hrun]
            exact ⟨_, txs, hostZone, hostZone', rfl, hstaked⟩
          · left
            -- the first batch is rejected, and the zones are as before
            obtain ⟨hlen, hne, -⟩ := getDelegationICAMessages_ok hmsgs
            unfold batchSubmitDelegationICAMessages
            cases hbs : (batches hostZone.maxMessagesPerIcaTx msgs).zip
                (batches hostZone.maxMessagesPerIcaTx ds) with
            | nil =>
              have hsnd := map_snd_zip_batches hostZone.maxMessagesPerIcaTx hlen
              rw [hbs] at hsnd
              exact absurd (batches_eq_nil_iff.mp hsnd.symm) hne
            | cons b bs =>
              unfold submitDelegateBatches
              rw [if_pos hsubmit]
              rfl

end Stride.Stakeibc
