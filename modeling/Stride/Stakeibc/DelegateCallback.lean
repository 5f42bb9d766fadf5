import Stride.Stakeibc.Delegation

/-!
# Delegate Callback and Channel Restore

The two writers of a deposit record that has been sent: the callback of a delegate
transaction, and `RestoreInterchainAccount`, which gives up on the transactions of a closed
channel.
-/

namespace Stride.Stakeibc

open Lib Sdk Records KeyedStore

/-! ## Delegate callback -/

def delegateCallback (k : DelegationKeeper) (callback : DelegateCallback) (status : AckStatus) :
    Result DelegationKeeper :=
  match k.hostZones.get? callback.hostZoneId with
  | none => wrapf .errInvalidRequest s!"host zone not found {callback.hostZoneId}"
  | some hostZone =>
    match k.depositRecords.get? callback.depositRecordId with
    | none => wrapf .errInvalidRequest s!"deposit record not found {callback.depositRecordId}"
    | some depositRecord =>
      if depositRecord.delegationTxsInProgress = 0 then
        wrapf .errInvalidDelegationsInProgress
          "delegation changes in progress is already 0 and can't be decremented"
      else do
        let depositRecord := { depositRecord with
          delegationTxsInProgress := depositRecord.delegationTxsInProgress - 1 }
        let depositRecords := k.depositRecords.set depositRecord
        let hostZone ← (callback.splitDelegations.map SplitDelegation.validator).foldlM
          decrementValidatorDelegationChangesInProgress hostZone
        let hostZones := k.hostZones.set hostZone
        match status with
        | .timeout => return { k with hostZones := hostZones, depositRecords := depositRecords }
        | .failure =>
          return { k with
            hostZones := hostZones
            depositRecords := depositRecords.set { depositRecord with status := .delegationQueue } }
        | .success =>
          let amount := depositRecord.amount - callback.amount
          let depositRecords :=
            if amount = 0 then depositRecords.delete callback.depositRecordId
            else depositRecords.set { depositRecord with amount := amount }
          let hostZone ← callback.splitDelegations.foldlM
            (fun z d => wrapError (addDelegationToValidator z d.validator d.amount)
              "Failed to add delegation to validator") hostZone
          return { k with hostZones := hostZones.set hostZone, depositRecords := depositRecords }

/-- The record after the callback, or `none` if it was removed. -/
def ackedRecord (callback : DelegateCallback) (status : AckStatus) (r : DepositRecord) :
    Option DepositRecord :=
  let r := { r with delegationTxsInProgress := r.delegationTxsInProgress - 1 }
  match status with
  | .timeout => some r
  | .failure => some { r with status := .delegationQueue }
  | .success =>
    if r.amount - callback.amount = 0 then none
    else some { r with amount := r.amount - callback.amount }

/-- The validators of the transaction of a callback. -/
def DelegateCallback.validators (callback : DelegateCallback) : List String :=
  callback.splitDelegations.map SplitDelegation.validator

/-- What `DelegateCallback` does to the host zone. -/
def delegateZone (hostZone : HostZone) (callback : DelegateCallback) (status : AckStatus) :
    Result HostZone := do
  let hostZone ← callback.validators.foldlM decrementValidatorDelegationChangesInProgress hostZone
  match status with
  | .success =>
    callback.splitDelegations.foldlM
      (fun z d => wrapError (addDelegationToValidator z d.validator d.amount)
        "Failed to add delegation to validator") hostZone
  | _ => return hostZone

/-- The change of the book by delegations. -/
def delegationDelta (ds : List SplitDelegation) : String → ℤ :=
  (ds.map fun d => Pi.single d.validator d.amount).sum

variable {status : AckStatus} {callback : DelegateCallback} {k k' : DelegationKeeper} {z : HostZone}
  {e : SdkError}

theorem delegateZone_ok {z' : HostZone} (h : delegateZone z callback status = .ok z') :
    BookEffect z z' (if status = .success then delegationDelta callback.splitDelegations else 0)
      (if status = .success then callback.amount else 0)
      fun a => -(callback.validators.count a : ℤ) := by
  obtain ⟨z₁, hdec, h⟩ := bind_eq_ok.mp h
  have hcounters := foldlM_decrementValidatorDelegationChangesInProgress hdec
  cases status with
  | timeout =>
    cases h
    exact hcounters
  | failure =>
    cases h
    exact hcounters
  | success =>
    have hadd := BookEffect.foldlM (c := fun _ => 0)
      (fun _ _ _ _ hs => addDelegationToValidator_ok (wrapError_eq_ok.mp hs)) h
    have hboth := hcounters.trans hadd
    simpa [delegationDelta, DelegateCallback.amount] using hboth

/-- What a callback that goes through does. -/
structure Acked (k k' : DelegationKeeper) (callback : DelegateCallback) (status : AckStatus)
    (r : DepositRecord) (hostZone hostZone' : HostZone) : Prop where
  foundZone : k.hostZones.get? callback.hostZoneId = some hostZone
  foundRecord : k.depositRecords.get? callback.depositRecordId = some r
  inProgress : r.delegationTxsInProgress ≠ 0
  depositRecords : ∀ id, k'.depositRecords.get? id =
    if id = callback.depositRecordId then ackedRecord callback status r
    else k.depositRecords.get? id
  depositRecordCount : k'.depositRecordCount = k.depositRecordCount
  hostZones : ∀ c,
    k'.hostZones.get? c = if c = callback.hostZoneId then some hostZone' else k.hostZones.get? c
  zone : delegateZone hostZone callback status = .ok hostZone'

/-- **Callback**: one transaction of the record and of each validator is done. -/
theorem delegateCallback_ok (h : delegateCallback k callback status = .ok k') :
    ∃ r hostZone hostZone', Acked k k' callback status r hostZone hostZone' := by
  unfold delegateCallback at h
  split at h
  · cases h
  rename_i z hz
  split at h
  · cases h
  rename_i r hr
  split at h
  · cases h
  rename_i hpos
  have hid : r.id = callback.depositRecordId := key_of_get? hr
  have hchain : z.chainId = callback.hostZoneId := key_of_get? hz
  obtain ⟨z₁, hdec, h⟩ := bind_eq_ok.mp h
  have hchain₁ : z₁.chainId = callback.hostZoneId :=
    (foldlM_decrementValidatorDelegationChangesInProgress hdec).chainId.trans hchain
  -- timeouts and failures only touch the counters of the zone
  have hzones (c : String) : (k.hostZones.set z₁).get? c =
      if c = callback.hostZoneId then some z₁ else k.hostZones.get? c := by
    rw [get?_set, hchain₁]
  cases status with
  | timeout =>
    cases h
    refine ⟨r, z, z₁, hz, hr, hpos, fun id => ?_, rfl, hzones,
      bind_eq_ok.mpr ⟨z₁, hdec, rfl⟩⟩
    rw [← hid, get?_set]
    rfl
  | failure =>
    cases h
    refine ⟨r, z, z₁, hz, hr, hpos, fun id => ?_, rfl, hzones,
      bind_eq_ok.mpr ⟨z₁, hdec, rfl⟩⟩
    rw [← hid, get?_set, get?_set]
    split <;> rfl
  | success =>
    obtain ⟨z₂, hadd, h⟩ := bind_eq_ok.mp h
    cases h
    have hzone : delegateZone z callback .success = .ok z₂ :=
      bind_eq_ok.mpr ⟨z₁, hdec, hadd⟩
    have hchain₂ := (delegateZone_ok hzone).chainId.trans hchain
    refine ⟨r, z, z₂, hz, hr, hpos, fun id => ?_, rfl, fun c => ?_, hzone⟩
    · unfold ackedRecord
      dsimp only
      rw [← hid]
      split
      · rw [get?_delete, get?_set]
        split <;> rfl
      · rw [get?_set, get?_set]
        split <;> rfl
    · rw [get?_set, hchain₂, hzones]
      split <;> rfl

private theorem code_addDelegationToValidator {a : String} {n : ℤ}
    (h : addDelegationToValidator z a n = .error e) :
    e.code = .errValidatorNotFound ∨ e.code = .errValidatorDelegationChg := by
  obtain ⟨-, message, herr⟩ | ⟨d, -, -, -, message, herr⟩ | hok :=
    addDelegationToValidator_cases z a n
  · rw [herr] at h
    cases h
    exact .inl rfl
  · rw [herr] at h
    cases h
    exact .inr rfl
  · rw [hok] at h
    cases h

private theorem code_foldlM_addDelegationToValidator {ds : List SplitDelegation} {message : String}
    (h : ds.foldlM (fun z d => wrapError (addDelegationToValidator z d.validator d.amount)
      message) z = .error e) :
    e.code = .errValidatorNotFound ∨ e.code = .errValidatorDelegationChg := by
  induction ds generalizing z with
  | nil => cases h
  | cons d ds ih =>
    rw [List.foldlM_cons] at h
    cases hadd : addDelegationToValidator z d.validator d.amount with
    | error err =>
      rw [hadd] at h
      cases h
      exact code_addDelegationToValidator (e := err) hadd
    | ok z₁ =>
      rw [hadd] at h
      exact ih h

/-- The error is about a counter that is already 0. -/
def CounterError (e : SdkError) : Prop :=
  e.code = .errInvalidDelegationsInProgress ∨ e.code = .errInvalidValidatorDelegationUpdates

/-- **Counters**: a callback does not fail at a counter if the record counts a transaction
    in progress and each validator counts those of the callback. -/
theorem delegateCallback_error
    (hrecord : ∀ r, k.depositRecords.get? callback.depositRecordId = some r →
      r.delegationTxsInProgress ≠ 0) (hzone : ∀ z, k.hostZones.get? callback.hostZoneId = some z →
      ∀ a c, z.changesInProgress a = some c → (callback.validators.count a : ℤ) ≤ c)
    (h : delegateCallback k callback status = .error e) : ¬ CounterError e := by
  suffices hcode : e.code = .errInvalidRequest ∨ e.code = .errValidatorNotFound ∨
      e.code = .errValidatorDelegationChg by
    unfold CounterError
    rcases hcode with hcode | hcode | hcode <;> simp [hcode]
  unfold delegateCallback at h
  split at h
  · cases h
    exact .inl rfl
  · rename_i z hz
    split at h
    · cases h
      exact .inl rfl
    · rename_i r hr
      -- the counter of the record does not fail
      rw [if_neg (hrecord r hr)] at h
      cases hdec : callback.validators.foldlM decrementValidatorDelegationChangesInProgress z with
      | error err =>
        -- nor do the counters of the validators
        have hcode :=
          (foldlM_decrementValidatorDelegationChangesInProgress_error (hzone z hz) hdec).1
        unfold DelegateCallback.validators at hdec
        rw [hdec] at h
        cases h
        exact .inr (.inl hcode)
      | ok z₁ =>
        unfold DelegateCallback.validators at hdec
        rw [hdec] at h
        cases status with
        | timeout => cases h
        | failure => cases h
        | success =>
          cases hadd : callback.splitDelegations.foldlM
              (fun z d => wrapError (addDelegationToValidator z d.validator d.amount)
                "Failed to add delegation to validator") z₁ with
          | error err =>
            have hcode := code_foldlM_addDelegationToValidator hadd
            simp only [Except.bind, bind, hadd] at h
            cases h
            exact .inr hcode
          | ok z₂ =>
            simp only [Except.bind, bind, hadd] at h
            cases h

/-! ## Restoring the channel -/

/-- A zone whose validators have no change in progress. -/
def resetDelegationChanges (hostZone : HostZone) : HostZone :=
  { hostZone with
    validators := hostZone.validators.map fun v => { v with delegationChangesInProgress := 0 } }

/-- A record that is put back into the queue. -/
def revertedRecord (r : DepositRecord) : DepositRecord :=
  { r with status := .delegationQueue, delegationTxsInProgress := 0 }

/-- An unbonding whose transactions are given up. -/
def revertedHostZoneUnbonding (hzu : HostZoneUnbonding) : HostZoneUnbonding :=
  { hzu with
    undelegationTxsInProgress := 0
    status :=
      if hzu.status = .unbondingInProgress then .unbondingRetryQueue
      else if hzu.status = .exitTransferInProgress then .exitTransferQueue
      else hzu.status }

/-- The body of the loop over the epoch unbonding records. -/
def revertEpochUnbondingRecord (chainId : String) (s : EpochUnbondingStore)
    (epochUnbondingRecord : EpochUnbondingRecord) : Result EpochUnbondingStore :=
  match s.getHostZoneUnbondingByChainId epochUnbondingRecord.epochNumber chainId with
  | none => .ok s
  | some hostZoneUnbonding =>
    setHostZoneUnbondingRecord s epochUnbondingRecord.epochNumber chainId
      (revertedHostZoneUnbonding hostZoneUnbonding)

/-- `RestoreInterchainAccount` for the delegation account of `chainId`, once the new channel
    is registered. The liquid staking deposits that it also reverts are not modelled. -/
def restoreInterchainAccount (k : DelegationKeeper) (chainId : String) :
    Result DelegationKeeper :=
  match k.hostZones.get? chainId with
  | none => wrapf .errHostZoneNotFound "delegation ICA supplied, but no associated host zone"
  | some hostZone => do
    let hostZone := resetDelegationChanges hostZone
    let depositRecords := k.depositRecords.values.foldl
      (fun s r =>
        if r.hostZoneId = hostZone.chainId ∧ r.status = .delegationInProgress
        then s.set (revertedRecord r) else s)
      k.depositRecords
    let epochUnbondingRecords ← k.epochUnbondingRecords.getAllEpochUnbondingRecord.foldlM
      (revertEpochUnbondingRecord hostZone.chainId) k.epochUnbondingRecords
    return { k with
      hostZones := k.hostZones.set hostZone
      depositRecords := depositRecords
      epochUnbondingRecords := epochUnbondingRecords }

/-- What a restore does to deposit records and zones. -/
structure Restored (k k' : DelegationKeeper) (chainId : String) (hostZone hostZone' : HostZone) :
    Prop where
  foundZone : k.hostZones.get? chainId = some hostZone
  depositRecords : ∀ id, k'.depositRecords.get? id =
    (k.depositRecords.get? id).map fun r =>
      if r.hostZoneId = chainId ∧ r.status = .delegationInProgress then revertedRecord r else r
  depositRecordCount : k'.depositRecordCount = k.depositRecordCount
  hostZones : ∀ c,
    k'.hostZones.get? c = if c = chainId then some hostZone' else k.hostZones.get? c
  weights : hostZone'.weights = hostZone.weights
  changes : ∀ a, hostZone'.changesInProgress a = (hostZone.changesInProgress a).map fun _ => 0

/-- **Restore**: the records in DELEGATION_IN_PROGRESS go back to the queue with counter 0;
    a record in the queue keeps its counter. -/
theorem restoreInterchainAccount_ok {chainId : String}
    (h : restoreInterchainAccount k chainId = .ok k') :
    ∃ hostZone hostZone', Restored k k' chainId hostZone hostZone' := by
  unfold restoreInterchainAccount at h
  split at h
  · cases h
  rename_i z hz
  have hchain : z.chainId = chainId := key_of_get? hz
  obtain ⟨epochs, -, h⟩ := bind_eq_ok.mp h
  cases h
  have hchain' : (resetDelegationChanges z).chainId = chainId := hchain
  refine ⟨z, resetDelegationChanges z, hz, fun id => ?_, rfl, fun c => ?_, ?_, fun a => ?_⟩
  · rw [get?_foldl_set_values (g := revertedRecord) (fun _ => rfl), hchain']
  · rw [get?_set, hchain']
  · unfold HostZone.weights resetDelegationChanges
    rw [List.map_map]
    rfl
  · unfold HostZone.changesInProgress getValidatorFromAddress resetDelegationChanges
    rw [List.find?_map, Option.map_map, Option.map_map]
    rfl

end Stride.Stakeibc
