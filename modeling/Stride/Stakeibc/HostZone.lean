import Stride.Lib.KVStore
import Stride.Lib.Pipeline
import Stride.Sdk.Math
import Mathlib.Data.List.Sort
import Mathlib.Data.PNat.Basic
import Mathlib.Data.String.Basic

/-!
# Host Zones and Their Validators

The part of a host zone that the delegation flows of `stakeibc` read and write, and the
functions on its validators.

The source passes host zones by value but shares the validators behind them by pointer, so
that an update made in a callee is seen by the caller. The functions here return the zone
they leave.
-/

namespace Stride.Stakeibc

open Lib Sdk List

/-! ## Types -/

/-- A validator of a host zone, as recorded on Stride. -/
structure Validator where
  name : String
  address : String
  weight : UInt64
  delegation : ℤ
  sharesToTokensRate : LegacyDec
  delegationChangesInProgress : ℤ
  slashQueryInProgress : Bool
  deriving DecidableEq

/-- A host zone. A zone is registered with at least one message per ICA transaction. -/
structure HostZone where
  chainId : String
  connectionId : String
  hostDenom : String
  validators : List Validator
  delegationIcaAddress : String
  redemptionIcaAddress : String
  totalDelegations : ℤ
  redemptionRate : LegacyDec
  maxMessagesPerIcaTx : ℕ+
  halted : Bool
  deriving DecidableEq

abbrev HostZone.addresses (hostZone : HostZone) : List String :=
  hostZone.validators.map Validator.address

/-- Host zones by chain id: `GetHostZone` and `SetHostZone` are the operations of the
    store. -/
abbrev HostZoneStore := KeyedStore HostZone.chainId

def getActiveHostZone (hostZones : HostZoneStore) (chainId : String) : Result HostZone :=
  match hostZones.get? chainId with
  | none => wrapf .errHostZoneNotFound s!"host zone {chainId} not found"
  | some hostZone =>
    if hostZone.halted then wrapf .errHaltedHostZone s!"host zone {chainId} is halted"
    else .ok hostZone

variable {z z' : HostZone} {vals : List Validator} {a : String} {v : Validator}
  {f : Validator → Validator}

theorem get?_of_getActiveHostZone {hostZones : HostZoneStore} {chainId : String}
    (h : getActiveHostZone hostZones chainId = .ok z) : hostZones.get? chainId = some z := by
  unfold getActiveHostZone at h
  split at h
  · cases h
  split at h
  · cases h
  cases h
  assumption

/-- How an interchain account packet ended. -/
inductive AckStatus where
  | success
  | failure
  | timeout
  deriving DecidableEq

/-- An acknowledgement tells what the host did. -/
def answeredBy (progress : Progress) (status : AckStatus) : Prop :=
  (progress = .executed ∧ status = .success) ∨ (progress = .rejected ∧ status ≠ .success)

instance (progress : Progress) (status : AckStatus) : Decidable (answeredBy progress status) :=
  inferInstanceAs (Decidable (_ ∨ _))

/-! ## Lookup and update by address -/

/-- `GetValidatorFromAddress`: the first validator with the address. -/
def getValidatorFromAddress (validators : List Validator) (address : String) :
    Option Validator :=
  validators.find? fun v => v.address = address

/-- Writes through the pointer of the first validator with the address. -/
def modifyValidator (address : String) (f : Validator → Validator) :
    List Validator → List Validator
  | [] => []
  | v :: vs => if v.address = address then f v :: vs else v :: modifyValidator address f vs

theorem address_of_getValidatorFromAddress (h : getValidatorFromAddress vals a = some v) :
    v.address = a := by
  simpa [getValidatorFromAddress] using find?_some h

theorem getValidatorFromAddress_of_mem (hnd : (vals.map Validator.address).Nodup) (hv : v ∈ vals) :
    getValidatorFromAddress vals v.address = some v := by
  unfold getValidatorFromAddress
  induction vals with
  | nil => cases hv
  | cons w vals ih =>
    rw [map_cons, nodup_cons] at hnd
    rcases mem_cons.mp hv with rfl | hv
    · simp
    · have hne : w.address ≠ v.address := fun h => hnd.1 (h ▸ mem_map_of_mem hv)
      rw [find?_cons_of_neg (by simpa using hne)]
      exact ih hnd.2 hv

/-- **Point update**: an update is seen at its own address, and only there. -/
theorem getValidatorFromAddress_modifyValidator (hf : ∀ v, (f v).address = v.address)
    (vals : List Validator) (a b : String) :
    getValidatorFromAddress (modifyValidator a f vals) b =
      if b = a then (getValidatorFromAddress vals a).map f
      else getValidatorFromAddress vals b := by
  unfold getValidatorFromAddress
  induction vals with
  | nil => simp [modifyValidator]
  | cons v vs ih =>
    simp only [modifyValidator]
    by_cases hv : v.address = a
    · by_cases hb : b = a
      · simp [hv, hb, hf]
      · simp [hv, hb, hf, Ne.symm hb]
    · by_cases hb : b = a
      · subst hb
        simpa [hv] using ih
      · simp only [hv, if_false, find?_cons, ih, hb]

theorem modifyValidator_eq_map (hnd : (vals.map Validator.address).Nodup) (a : String) :
    modifyValidator a f vals = vals.map fun v => if v.address = a then f v else v := by
  induction vals with
  | nil => rfl
  | cons v vals ih =>
    rw [map_cons, nodup_cons] at hnd
    unfold modifyValidator
    split
    · rename_i hv
      have hrest : (vals.map fun w => if w.address = a then f w else w) = vals := by
        conv_rhs => rw [← map_id vals]
        apply map_congr_left
        intro w hw
        rw [if_neg]
        · rfl
        · intro hwa
          rw [hv, ← hwa] at hnd
          exact hnd.1 (mem_map_of_mem hw)
      rw [map_cons, if_pos hv, hrest]
    · rename_i hv
      rw [map_cons, if_neg hv, ih hnd.2]

theorem map_modifyValidator {α : Type*} {g : Validator → α} (hf : ∀ v, g (f v) = g v)
    (vals : List Validator) (a : String) : (modifyValidator a f vals).map g = vals.map g := by
  induction vals with
  | nil => rfl
  | cons v vs ih =>
    unfold modifyValidator
    split
    · simp [hf]
    · simp [ih]

/-! ## Delegations and pending changes -/

/-- `AddDelegationToValidator`: also rejects a change that would make the delegation of
    the validator or the total of the zone negative. -/
def addDelegationToValidator (hostZone : HostZone) (validatorAddress : String) (amount : ℤ) :
    Result HostZone :=
  match getValidatorFromAddress hostZone.validators validatorAddress with
  | none =>
    wrapf .errValidatorNotFound
      s!"Could not find validator {validatorAddress} on host zone {hostZone.chainId}"
  | some validator =>
    if amount < 0 ∧ validator.delegation < -amount then
      wrapf .errValidatorDelegationChg
        s!"Delegation change ({-amount}) is greater than validator ({validatorAddress}) delegation {validator.delegation}"
    else if amount < 0 ∧ hostZone.totalDelegations < -amount then
      wrapf .errValidatorDelegationChg
        s!"Delegation change ({-amount}) is greater than total delegation amount on host {hostZone.chainId} ({hostZone.totalDelegations})"
    else
      .ok { hostZone with
        validators := modifyValidator validatorAddress
          (fun v => { v with delegation := v.delegation + amount }) hostZone.validators
        totalDelegations := hostZone.totalDelegations + amount }

def incrementValidatorDelegationChangesInProgress (hostZone : HostZone)
    (validatorAddress : String) : Result HostZone :=
  match getValidatorFromAddress hostZone.validators validatorAddress with
  | none => wrapf .errValidatorNotFound s!"validator {validatorAddress} not found"
  | some _ =>
    .ok { hostZone with
      validators := modifyValidator validatorAddress
        (fun v => { v with delegationChangesInProgress := v.delegationChangesInProgress + 1 })
        hostZone.validators }

def decrementValidatorDelegationChangesInProgress (hostZone : HostZone)
    (validatorAddress : String) : Result HostZone :=
  match getValidatorFromAddress hostZone.validators validatorAddress with
  | none => wrapf .errValidatorNotFound s!"validator {validatorAddress} not found"
  | some validator =>
    if validator.delegationChangesInProgress = 0 then
      wrapf .errInvalidValidatorDelegationUpdates
        "cannot decrement the number of delegation updates if the validator has 0 updates in progress"
    else
      .ok { hostZone with
        validators := modifyValidator validatorAddress
          (fun v => { v with delegationChangesInProgress := v.delegationChangesInProgress - 1 })
          hostZone.validators }

/-- What the functions on validators leave alone. -/
def HostZone.settings (hostZone : HostZone) : HostZone :=
  { hostZone with validators := [], totalDelegations := 0 }

theorem HostZone.chainId_eq_of_settings (h : z'.settings = z.settings) :
    z'.chainId = z.chainId := by
  have hchain : z'.settings.chainId = z.settings.chainId := by rw [h]
  exact hchain

theorem HostZone.redemptionRate_eq_of_settings (h : z'.settings = z.settings) :
    z'.redemptionRate = z.redemptionRate := by
  have hrate : z'.settings.redemptionRate = z.settings.redemptionRate := by rw [h]
  exact hrate

theorem settings_addDelegationToValidator {n : ℤ} (h : addDelegationToValidator z a n = .ok z') :
    z'.settings = z.settings := by
  unfold addDelegationToValidator at h
  split at h
  · cases h
  split at h
  · cases h
  split at h
  · cases h
  cases h
  rfl

theorem settings_decrementValidatorDelegationChangesInProgress
    (h : decrementValidatorDelegationChangesInProgress z a = .ok z') :
    z'.settings = z.settings := by
  unfold decrementValidatorDelegationChangesInProgress at h
  split at h
  · cases h
  split at h
  · cases h
  cases h
  rfl

theorem settings_foldlM {α : Type} {f : HostZone → α → Result HostZone}
    (hf : ∀ z a z', f z a = .ok z' → z'.settings = z.settings) {l : List α}
    (h : l.foldlM f z = .ok z') : z'.settings = z.settings :=
  foldlM_ok_invariant (P := fun x => x.settings = z.settings)
    (fun x a x' hx hs => (hf x a x' hs).trans hx) rfl h

/-- What the targets of a zone depend on. -/
def HostZone.weights (hostZone : HostZone) : List (String × UInt64 × Bool) :=
  hostZone.validators.map fun v => (v.address, v.weight, v.slashQueryInProgress)

/-! ## Weight targets -/

/-- `GetTotalValidatorWeight`: a `uint64` sum, which wraps around. -/
def getTotalValidatorWeight (validators : List Validator) : UInt64 :=
  (validators.map Validator.weight).foldl (· + ·) 0

/-- Order of the target computation: weight ascending, then address. -/
def weightOrder (a b : Validator) : Prop :=
  if a.weight ≠ b.weight then a.weight < b.weight else a.address ≤ b.address

instance : DecidableRel weightOrder := fun a b =>
  inferInstanceAs (Decidable (if a.weight ≠ b.weight then a.weight < b.weight
    else a.address ≤ b.address))

/-- The allocation loop: floored shares, the remainder goes to the last validator. The
    result is a Go map, where a later write to an address wins. -/
def allocateTargets (totalDelegation : ℤ) (totalWeight : UInt64) :
    List Validator → ℤ → (String → Option ℤ) → (String → Option ℤ)
  | [], _, targets => targets
  | [v], totalAllocated, targets =>
    Function.update targets v.address (some (totalDelegation - totalAllocated))
  | v :: rest, totalAllocated, targets =>
    let delegateAmt := ((v.weight.toNat : ℤ) * totalDelegation).tdiv (totalWeight.toNat : ℤ)
    allocateTargets totalDelegation totalWeight rest (totalAllocated + delegateAmt)
      (Function.update targets v.address (some delegateAmt))

/-- Validators without a slash query in progress. -/
def eligibleValidators (validators : List Validator) : List Validator :=
  validators.filter fun v => !v.slashQueryInProgress

/-- The validators of a zone that take part in a split. -/
abbrev HostZone.eligible (hostZone : HostZone) : List Validator :=
  eligibleValidators hostZone.validators

def getTargetValAmtsForHostZone (hostZone : HostZone) (totalDelegation : ℤ) :
    Result (String → Option ℤ) :=
  if ¬ 0 < totalDelegation then
    wrapf .errInvalidRequest
      s!"Cannot calculate target delegation if final amount is less than or equal to zero ({totalDelegation})"
  else
    let validators := eligibleValidators hostZone.validators
    let totalWeight := getTotalValidatorWeight validators
    if totalWeight = 0 then
      wrapf .errNoValidatorWeights
        s!"No non-zero validators found for host zone {hostZone.chainId}"
    else
      .ok (allocateTargets totalDelegation totalWeight
        (validators.insertionSort weightOrder) 0 fun _ => none)

/-! ## A small zone -/

/-- Two validators, one message per transaction. -/
def twoValidatorZone : HostZone where
  chainId := "host"
  connectionId := "connection-0"
  hostDenom := "uatom"
  validators :=
    [⟨"val1", "val1", 1, 200, LegacyDec.one, 0, false⟩,
      ⟨"val2", "val2", 1, 200, LegacyDec.one, 0, false⟩]
  delegationIcaAddress := "delegation"
  redemptionIcaAddress := "redemption"
  totalDelegations := 400
  redemptionRate := LegacyDec.one
  maxMessagesPerIcaTx := 1
  halted := false

end Stride.Stakeibc
