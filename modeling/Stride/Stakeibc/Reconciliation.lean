import Stride.Stakeibc.RedemptionRate
import Stride.Stakeibc.TotalDelegations

/-!
# Reconciling Delegations with the Host

The upgrade v33 takes the recorded delegations of some validators down to what the host has, and
credits the difference as a deposit that waits to be delegated.
-/

namespace Stride.Stakeibc

open Lib Sdk Records KeyedStore List

/-! ## Model -/

/-- `ValidatorReconciliation`. The name is only logged. -/
structure ValidatorReconciliation where
  address : String
  onChainDelegation : ℤ

def osmosisChainId : String := "osmosis-1"

/-- A turn of the loop of `ReconcileOsmosisDelegations`, on the validators and the reduction. -/
def reconcileValidator (acc : List Validator × ℤ) (reconciliation : ValidatorReconciliation) :
    List Validator × ℤ :=
  match getValidatorFromAddress acc.1 reconciliation.address with
  | none => acc
  | some validator =>
    -- a delegation is never raised
    if validator.delegation < reconciliation.onChainDelegation then acc
    else
      (modifyValidator reconciliation.address
        (fun v => { v with delegation := reconciliation.onChainDelegation }) acc.1,
        acc.2 + (validator.delegation - reconciliation.onChainDelegation))

/-- `ReconcileOsmosisDelegations`, with the number of the stride epoch if it is tracked. -/
def reconcileOsmosisDelegations (reconciliations : List ValidatorReconciliation)
    (strideEpoch : Option ℕ) (k : DelegationKeeper) : Result DelegationKeeper :=
  match k.hostZones.get? osmosisChainId with
  | none => .ok k
  | some hostZone =>
    let (validators, totalReduction) :=
      reconciliations.foldl reconcileValidator (hostZone.validators, 0)
    if totalReduction = 0 then .ok k
    else
      match strideEpoch with
      | none => wrapf .errNotFound "stride epoch tracker not found"
      | some epochNumber =>
        .ok { k with
          hostZones := k.hostZones.set { hostZone with
            validators := validators
            totalDelegations := hostZone.totalDelegations - totalReduction }
          depositRecords := k.depositRecords.set {
            id := k.depositRecordCount
            amount := totalReduction
            hostZoneId := osmosisChainId
            status := .delegationQueue
            depositEpochNumber := epochNumber
            delegationTxsInProgress := 0 }
          depositRecordCount := k.depositRecordCount + 1 }

/-! ## One validator -/

variable {v : Validator} {rs : List ValidatorReconciliation} {vals : List Validator}

/-- What the loop makes of a validator. -/
def reconciled (rs : List ValidatorReconciliation) (v : Validator) : Validator :=
  match rs.find? fun r => r.address = v.address with
  | none => v
  | some r =>
    if v.delegation < r.onChainDelegation then v else { v with delegation := r.onChainDelegation }

private theorem reconciled_cases (rs : List ValidatorReconciliation) (v : Validator) :
    reconciled rs v = v ∨ ∃ r ∈ rs, r.address = v.address ∧ r.onChainDelegation ≤ v.delegation ∧
      reconciled rs v = { v with delegation := r.onChainDelegation } := by
  unfold reconciled
  split
  · exact .inl rfl
  · rename_i r hfind
    split
    · exact .inl rfl
    · rename_i hge
      exact .inr ⟨r, mem_of_find?_eq_some hfind, by simpa using find?_some hfind, not_lt.mp hge,
        rfl⟩

private theorem reconciled_of_notMem (h : v.address ∉ rs.map ValidatorReconciliation.address) :
    reconciled rs v = v := by
  rcases reconciled_cases rs v with hsame | ⟨r, hr, haddress, -⟩
  · exact hsame
  · exact absurd (haddress ▸ mem_map_of_mem hr) h

private theorem address_reconciled (rs : List ValidatorReconciliation) (v : Validator) :
    (reconciled rs v).address = v.address := by
  rcases reconciled_cases rs v with hsame | ⟨r, -, -, -, hsame⟩ <;> rw [hsame]

/-- A second round changes nothing. -/
theorem reconciled_idem (rs : List ValidatorReconciliation) (v : Validator) :
    reconciled rs (reconciled rs v) = reconciled rs v := by
  have haddress := address_reconciled rs v
  unfold reconciled at haddress ⊢
  rw [haddress]
  cases rs.find? fun r => r.address = v.address with
  | none => rfl
  | some r =>
    dsimp only
    split
    · rfl
    · simp

/-- With one entry for each validator, the entries can be taken one by one. -/
theorem reconciled_cons {r : ValidatorReconciliation}
    (hr : r.address ∉ rs.map ValidatorReconciliation.address) (v : Validator) :
    reconciled (r :: rs) v = reconciled rs (reconciled [r] v) := by
  by_cases hv : r.address = v.address
  · rw [reconciled_of_notMem (v := reconciled [r] v) (by rwa [address_reconciled, ← hv])]
    simp [reconciled, hv]
  · simp [reconciled, hv]

/-! ## The loop -/

private theorem addresses_reconciled (rs : List ValidatorReconciliation) (vals : List Validator) :
    (vals.map (reconciled rs)).map Validator.address = vals.map Validator.address := by
  rw [map_map]
  exact map_congr_left fun v _ => address_reconciled rs v

/-- What the loop takes off. -/
def reduction (rs : List ValidatorReconciliation) (vals : List Validator) : ℤ :=
  (vals.map Validator.delegation).sum - ((vals.map (reconciled rs)).map Validator.delegation).sum

/-- One round of the loop. -/
theorem reconcileValidator_eq (hnd : (vals.map Validator.address).Nodup) (total : ℤ)
    (r : ValidatorReconciliation) :
    reconcileValidator (vals, total) r =
      (vals.map (reconciled [r]), total + reduction [r] vals) := by
  have hother {w : Validator} (hw : w.address ≠ r.address) : reconciled [r] w = w :=
    reconciled_of_notMem (by simpa using hw)
  have hskip (h : vals.map (reconciled [r]) = vals) :
      (vals, total) = (vals.map (reconciled [r]), total + reduction [r] vals) := by
    simp [reduction, h]
  unfold reconcileValidator
  split
  · -- an address that is not a validator is skipped
    rename_i hnone
    refine hskip ((map_congr_left fun w hw => hother ?_).trans (map_id vals))
    simpa using find?_eq_none.mp hnone w hw
  · rename_i validator hget
    have hown {w : Validator} (hw : w ∈ vals) (hwr : w.address = r.address) : w = validator :=
      Option.some.inj ((getValidatorFromAddress_of_mem hnd hw).symm.trans (hwr ▸ hget))
    split
    · -- so is a delegation that would grow
      rename_i hlt
      refine hskip ((map_congr_left fun w hw => ?_).trans (map_id vals))
      by_cases hwr : w.address = r.address
      · rw [← hown hw hwr] at hlt
        simp [reconciled, hwr, hlt]
      · exact hother hwr
    · rename_i hge
      have hmap : modifyValidator r.address (fun v => { v with delegation := r.onChainDelegation })
          vals = vals.map (reconciled [r]) := by
        rw [modifyValidator_eq_map hnd]
        refine map_congr_left fun w hw => ?_
        by_cases hwr : w.address = r.address
        · have hge' : ¬ w.delegation < r.onChainDelegation := hown hw hwr ▸ hge
          simp [reconciled, hwr, hge']
        · rw [if_neg hwr, hother hwr]
      have hsum := sum_delegation_modifyValidator
        (f := fun v => { v with delegation := r.onChainDelegation })
        (d := r.onChainDelegation - validator.delegation) (by simp) hget
      rw [reduction, ← hmap, hsum]
      congr 1
      ring

/-- **The loop** works on each validator by itself, and adds up what it takes off. -/
theorem foldl_reconcileValidator (hnd : (vals.map Validator.address).Nodup)
    (hrs : (rs.map ValidatorReconciliation.address).Nodup) (total : ℤ) :
    rs.foldl reconcileValidator (vals, total) =
      (vals.map (reconciled rs), total + reduction rs vals) := by
  induction rs generalizing vals total with
  | nil => simp [reduction, show reconciled [] = id from rfl]
  | cons r rs ih =>
    rw [map_cons, nodup_cons] at hrs
    have hcons : reconciled (r :: rs) = reconciled rs ∘ reconciled [r] :=
      funext (reconciled_cons hrs.1)
    rw [foldl_cons, reconcileValidator_eq hnd, ih (by rwa [addresses_reconciled]) hrs.2]
    simp only [reduction, hcons, map_map, Prod.mk.injEq, true_and]
    ring

/-! ## The rate -/

private theorem frame_reconciled (rs : List ValidatorReconciliation) (v : Validator) :
    (reconciled rs v).frame = v.frame := by
  rcases reconciled_cases rs v with hsame | ⟨r, -, -, -, hsame⟩ <;> rw [hsame]
  rfl

/-- **The numerator**: the deposit makes up for the delegations. -/
theorem nativeTokensLocked_reconciled {z z' : HostZone} {records : DepositRecordStore}
    {record : DepositRecord} (hnew : records.get? record.id = none)
    (hzone : record.hostZoneId = z.chainId) (hchain : z'.chainId = z.chainId)
    (hvals : z'.validators = z.validators.map (reconciled rs))
    (htotal : z'.totalDelegations = z.totalDelegations - record.amount)
    (deposits : LSMTokenDepositStore) :
    z'.nativeTokensLocked (records.set record).values deposits =
      z.nativeTokensLocked records.values deposits := by
  have hframe : z'.validators.map Validator.frame = z.validators.map Validator.frame := by
    rw [hvals, map_map]
    exact map_congr_left fun v _ => frame_reconciled rs v
  unfold HostZone.nativeTokensLocked
  rw [getTotalTokenizedDelegations_of_frame hchain hframe, hchain, htotal,
    getDepositAccountBalance_add_getUndelegatedBalance,
    getDepositAccountBalance_add_getUndelegatedBalance, sum_values_set, hnew, zoneAmount,
    if_pos hzone]
  simp only [LegacyDec.add, LegacyDec.fromInt, Option.elim_none, LegacyDec.mk.injEq]
  ring

/-- **Reconciliation**: the rate keeps its numerator, the total stays the sum of the delegations,
    delegations are only lowered, nothing else changes, and a second time changes nothing. -/
theorem reconciliation_keeps_rate {k k' : DelegationKeeper} {z : HostZone} {strideEpoch : Option ℕ}
    (hz : k.hostZones.get? osmosisChainId = some z) (htotal : z.TotalConsistent)
    (hnd : z.addresses.Nodup) (hrs : (rs.map ValidatorReconciliation.address).Nodup)
    (hnonneg : ∀ r ∈ rs, 0 ≤ r.onChainDelegation)
    (hids : k.IdsBelowCount)
    (h : reconcileOsmosisDelegations rs strideEpoch k = .ok k') :
    (∃ z', k'.hostZones.get? osmosisChainId = some z' ∧ z'.TotalConsistent ∧
      (∀ deposits, z'.nativeTokensLocked k'.depositRecords.values deposits =
        z.nativeTokensLocked k.depositRecords.values deposits) ∧
      List.Forall₂ (fun v v' => v' = { v with delegation := v'.delegation } ∧
        v'.delegation ≤ v.delegation ∧ (0 ≤ v.delegation → 0 ≤ v'.delegation) ∧
        (v.address ∉ rs.map ValidatorReconciliation.address → v' = v))
        z.validators z'.validators) ∧
    (∀ c, c ≠ osmosisChainId → k'.hostZones.get? c = k.hostZones.get? c) ∧ k'.IdsBelowCount ∧
    ∀ strideEpoch', reconcileOsmosisDelegations rs strideEpoch' k' = .ok k' := by
  have hid : z.chainId = osmosisChainId := key_of_get? hz
  unfold reconcileOsmosisDelegations at h
  rw [hz] at h
  dsimp only at h
  rw [foldl_reconcileValidator hnd hrs, zero_add] at h
  split at h
  · rename_i hzero
    cases h
    refine ⟨⟨z, hz, htotal, fun _ => rfl, forall₂_same.mpr fun v _ =>
      ⟨rfl, le_rfl, id, fun _ => rfl⟩⟩,
      fun _ _ => rfl, hids, fun _ => ?_⟩
    unfold reconcileOsmosisDelegations
    rw [hz]
    dsimp only
    rw [foldl_reconcileValidator hnd hrs, zero_add, if_pos hzero]
  · split at h
    · cases h
    cases h
    have hz' := (congrArg _ hid.symm).trans (get?_set_self k.hostZones { z with
      validators := z.validators.map (reconciled rs)
      totalDelegations := z.totalDelegations - reduction rs z.validators })
    refine ⟨⟨_, hz', ?_, nativeTokensLocked_reconciled hids.get?_count hid.symm rfl rfl rfl, ?_⟩,
      fun c hc => get?_set_of_ne _ _ (hid ▸ hc), fun id r hr => ?_, fun _ => ?_⟩
    · unfold HostZone.TotalConsistent at htotal ⊢
      simp only [reduction, htotal]
      ring
    · refine forall₂_map_right_iff.mpr (forall₂_same.mpr fun v _ => ?_)
      refine ⟨?_, ?_, fun hv => ?_, reconciled_of_notMem⟩ <;>
        rcases reconciled_cases rs v with hsame | ⟨r, hr, -, hle, hsame⟩ <;> rw [hsame]
      · exact hle
      · exact hv
      · exact hnonneg r hr
    · replace hr := (get?_set ..).symm.trans hr
      split at hr
      · rename_i hnew
        exact hnew ▸ Nat.lt_succ_self _
      · exact (hids id r hr).trans (Nat.lt_succ_self _)
    · -- a second time there is nothing to reduce
      unfold reconcileOsmosisDelegations
      rw [hz']
      dsimp only
      rw [foldl_reconcileValidator (by rwa [addresses_reconciled]) hrs, if_pos]
      simp [reduction, Function.comp_def, reconciled_idem]

/-- One validator is above its amount on the host, one is below, and one is not known. -/
def phantomDelegation : DelegationKeeper where
  hostZones := KeyedStore.empty.set { twoValidatorZone with chainId := osmosisChainId }
  depositRecords := .empty
  depositRecordCount := 0
  epochUnbondingRecords := .empty

theorem reconciliation_keeps_rate_phantomDelegation :
    ∃ k', reconcileOsmosisDelegations [⟨"val1", 50⟩, ⟨"val2", 300⟩, ⟨"val3", 0⟩] (some 7)
        phantomDelegation = .ok k' ∧
      (k'.depositRecords.values.map DepositRecord.amount) = [150] ∧
      ∃ z', k'.hostZones.get? osmosisChainId = some z' ∧ z'.TotalConsistent := by
  obtain ⟨k', hk, hamounts⟩ : ∃ k', reconcileOsmosisDelegations
      [⟨"val1", 50⟩, ⟨"val2", 300⟩, ⟨"val3", 0⟩] (some 7) phantomDelegation = .ok k' ∧
      (k'.depositRecords.values.map DepositRecord.amount) = [150] :=
    ⟨_, rfl, by decide +kernel⟩
  obtain ⟨⟨z', hz', htotal, -⟩, -⟩ := reconciliation_keeps_rate
    (z := { twoValidatorZone with chainId := osmosisChainId }) rfl (by decide) (by decide)
    (by decide) (by decide) (fun _ _ h => by cases h) hk
  exact ⟨k', hk, hamounts, z', hz', htotal⟩

end Stride.Stakeibc
