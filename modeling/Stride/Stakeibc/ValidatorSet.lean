import Stride.Records.LSMTokenDeposit
import Stride.Stakeibc.BookEffect

/-!
# Changes of the Validator Set

Admin messages add validators to a host zone, change their weights and remove them. Removal is
guarded by the recorded delegation, the weight and the token deposits of the validator, but not
by the ICAs in progress that name it.

`CheckValidatorWeightsBelowCap` computes in floating point and only ever rejects: it is a parameter
`belowCap` on the validators.

## Main results

- `addValidatorToHostZone_ok`, `removeValidatorFromHostZone_ok`, `changeValidatorWeight_ok`:
  what each message does when it goes through
-/

namespace Stride.Stakeibc

open Sdk Records

/-! ## Messages -/

/-- The loop of `AddValidatorToHostZone` over the existing validators: the least positive
    weight, unless the address or the name is taken. -/
def minWeightOfOthers (chainId : String) (validator : Validator) :
    List Validator → UInt64 → Result UInt64
  | [], minWeight => .ok minWeight
  | existing :: rest, minWeight =>
    if existing.address = validator.address then
      wrapf .errValidatorAlreadyExists
        s!"Validator address ({validator.address}) already exists on Host Zone ({chainId})"
    else if existing.name = validator.name then
      wrapf .errValidatorAlreadyExists
        s!"Validator name ({validator.name}) already exists on Host Zone ({chainId})"
    else
      minWeightOfOthers chainId validator rest
        (if existing.weight < minWeight ∧ 0 < existing.weight then existing.weight else minWeight)

def addValidatorToHostZone (hostZone : HostZone) (validator : Validator)
    (fromGovernance : Bool) : Result HostZone := do
  -- the loop starts at `math.MaxUint64`
  let minWeight ← minWeightOfOthers hostZone.chainId validator hostZone.validators (-1)
  let valWeight := if fromGovernance then minWeight else validator.weight
  return { hostZone with
    validators := hostZone.validators ++
      [{ name := validator.name
         address := validator.address
         weight := valWeight
         delegation := 0
         sharesToTokensRate := LegacyDec.one
         delegationChangesInProgress := 0
         slashQueryInProgress := false }] }

def removeValidatorFromHostZone (hostZone : HostZone) (lsmTokenDeposits : List LSMTokenDeposit)
    (validatorAddress : String) : Result HostZone :=
  if ∃ deposit ∈ lsmTokenDeposits, deposit.validatorAddress = validatorAddress then
    wrapf .errUnableToRemoveValidator
      s!"Validator ({validatorAddress}) still has at least one LSMTokenDeposit"
  else
    match getValidatorFromAddress hostZone.validators validatorAddress with
    | none =>
      wrapf .errValidatorNotFound
        s!"Validator address ({validatorAddress}) not found on host zone ({hostZone.chainId})"
    | some val =>
      if val.delegation = 0 ∧ val.weight = 0 then
        .ok { hostZone with
          validators := hostZone.validators.eraseP fun v => v.address = validatorAddress }
      else
        .error ⟨.plain, s!"Validator ({validatorAddress}) has non-zero delegation ({val.delegation}) or weight ({val.weight})"⟩

/-- One change of `ChangeValidatorWeight`. -/
def setValidatorWeight (hostZone : HostZone) (weightChange : String × UInt64) :
    Result HostZone :=
  match getValidatorFromAddress hostZone.validators weightChange.1 with
  | none => wrapf .errValidatorNotFound "validator not found"
  | some _ =>
    .ok { hostZone with
      validators := modifyValidator weightChange.1
        (fun v => { v with weight := weightChange.2 }) hostZone.validators }

def changeValidatorWeight (belowCap : List Validator → Result Unit) (hostZone : HostZone)
    (validatorWeights : List (String × UInt64)) : Result HostZone := do
  let hostZone ← validatorWeights.foldlM setValidatorWeight hostZone
  wrapError (belowCap hostZone.validators) "unable to change validator weight"
  return hostZone

/-- `AddValidators`, without the query for the rates. -/
def addValidators (belowCap : List Validator → Result Unit) (hostZone : HostZone)
    (validators : List Validator) : Result HostZone := do
  let hostZone ← validators.foldlM (fun z v => addValidatorToHostZone z v false) hostZone
  belowCap hostZone.validators
  return hostZone

/-! ## What the messages do -/

variable {z z' : HostZone}

variable {validator : Validator}

private theorem address_of_minWeightOfOthers {chainId : String} {vals : List Validator}
    {w w' : UInt64} (h : minWeightOfOthers chainId validator vals w = .ok w') :
    validator.address ∉ vals.map Validator.address := by
  induction vals generalizing w with
  | nil => simp
  | cons existing rest ih =>
    unfold minWeightOfOthers at h
    split at h
    · cases h
    rename_i hne
    split at h
    · cases h
    simpa [Ne.symm hne] using ih h

/-- A validator is added at the end, with an address of its own and without a delegation. -/
theorem addValidatorToHostZone_ok {fromGovernance : Bool}
    (h : addValidatorToHostZone z validator fromGovernance = .ok z') :
    ∃ v : Validator, z' = { z with validators := z.validators ++ [v] } ∧
      v.address ∉ z.addresses ∧ v.delegation = 0 ∧
      v.delegationChangesInProgress = 0 ∧ v.slashQueryInProgress = false := by
  obtain ⟨minWeight, hmin, h⟩ := bind_eq_ok.mp h
  have hfresh := address_of_minWeightOfOthers hmin
  cases h
  exact ⟨_, rfl, hfresh, rfl, rfl, rfl⟩

/-- What is removed has no delegation, no weight and no token deposit. -/
theorem removeValidatorFromHostZone_ok {deposits : List LSMTokenDeposit} {a : String}
    (h : removeValidatorFromHostZone z deposits a = .ok z') :
    ∃ v before after, z.validators = before ++ v :: after ∧ v.address = a ∧
      z' = { z with validators := before ++ after } ∧
      v.delegation = 0 ∧ v.weight = 0 ∧ ∀ deposit ∈ deposits, deposit.validatorAddress ≠ a := by
  unfold removeValidatorFromHostZone at h
  split at h
  · cases h
  rename_i hdeposits
  split at h
  · cases h
  rename_i v hv
  split at h
  · rename_i hempty
    cases h
    -- the validator that was looked up is the one that is removed
    obtain ⟨before, after, hsplit, hbefore⟩ :
        ∃ before after, z.validators = before ++ v :: after ∧
          ∀ w ∈ before, w.address ≠ a := by
      obtain ⟨-, before, after, hsplit, hbefore⟩ := List.find?_eq_some_iff_append.mp hv
      exact ⟨before, after, hsplit, by simpa using hbefore⟩
    have haddress := address_of_getValidatorFromAddress hv
    refine ⟨v, before, after, hsplit, haddress, ?_, hempty.1, hempty.2, ?_⟩
    · rw [hsplit, List.eraseP_append_right _ (by simpa using hbefore), List.eraseP_cons_of_pos]
      simpa using haddress
    · intro deposit hmem heq
      exact hdeposits ⟨deposit, hmem, heq⟩
  · cases h

section

variable (hnd : z.addresses.Nodup)

include hnd

theorem addValidatorToHostZone_nodup {fromGovernance : Bool}
    (h : addValidatorToHostZone z validator fromGovernance = .ok z') : z'.addresses.Nodup := by
  obtain ⟨v, rfl, hfresh, -⟩ := addValidatorToHostZone_ok h
  rw [HostZone.addresses, List.map_append, List.nodup_append]
  refine ⟨hnd, by simp, ?_⟩
  rintro a ha b hb rfl
  obtain rfl : a = v.address := by simpa using hb
  exact hfresh ha

theorem removeValidatorFromHostZone_nodup {deposits : List LSMTokenDeposit} {a : String}
    (h : removeValidatorFromHostZone z deposits a = .ok z') : z'.addresses.Nodup := by
  obtain ⟨v, before, after, hsplit, -, rfl, -⟩ := removeValidatorFromHostZone_ok h
  rw [HostZone.addresses, hsplit] at hnd
  have hsub : (before ++ after).Sublist (before ++ v :: after) :=
    (List.Sublist.refl before).append (List.sublist_cons_self v after)
  exact hnd.sublist (hsub.map Validator.address)

end

/-- A validator apart from its weight. -/
def Validator.unweighted (v : Validator) : Validator :=
  { v with weight := 0 }

/-- Two zones that differ in the weights of their validators only. -/
structure SameUpToWeights (z z' : HostZone) : Prop where
  settings : z'.settings = z.settings
  total : z'.totalDelegations = z.totalDelegations
  unweighted : z'.validators.map Validator.unweighted = z.validators.map Validator.unweighted

theorem SameUpToWeights.map_eq (h : SameUpToWeights z z') {α : Type} (g : Validator → α)
    (hg : ∀ v, g v.unweighted = g v) : z'.validators.map g = z.validators.map g := by
  have hmap := congrArg (List.map g) h.unweighted
  simpa [List.map_map, Function.comp_def, hg] using hmap

theorem changeValidatorWeight_ok {belowCap : List Validator → Result Unit}
    {changes : List (String × UInt64)} (h : changeValidatorWeight belowCap z changes = .ok z') :
    SameUpToWeights z z' := by
  obtain ⟨z₁, hfold, h⟩ := bind_eq_ok.mp h
  obtain ⟨-, -, h⟩ := bind_eq_ok.mp h
  cases h
  refine foldlM_ok_invariant (P := SameUpToWeights z) ?_ ⟨rfl, rfl, rfl⟩ hfold
  intro x change x' hx hstep
  unfold setValidatorWeight at hstep
  split at hstep
  · cases hstep
  cases hstep
  have hmap := map_modifyValidator (f := fun v => { v with weight := change.2 })
    (g := Validator.unweighted) (fun _ => rfl) x.validators change.1
  exact ⟨hx.settings, hx.total, hmap.trans hx.unweighted⟩

end Stride.Stakeibc
