import Stride.Stakeibc.DelegationQueries
import Stride.Stakeibc.IcaBatch
import Stride.Stakeibc.ValidatorSet

/-!
# The Total Is the Sum of the Parts

Seven writers change the delegations that Stride records for the validators of a zone. Each of
them also writes `TotalDelegations`, and none of them shares code with all the others. An
operation that returns an error is rolled back with its transaction, also after a part of its
writes.
-/

namespace Stride.Stakeibc

open Sdk Records InterchainQuery List

/-! ## Operations -/

/-- The addresses with their delegations, and the total. -/
def HostZone.ledger (hostZone : HostZone) : List (String × ℤ) × ℤ :=
  (hostZone.validators.map fun v => (v.address, v.delegation), hostZone.totalDelegations)

/-- An operation on a host zone with everything it reads from elsewhere. -/
inductive ZoneOp where
  | addValidatorToHostZone (validator : Validator) (fromGovernance : Bool)
  | addValidators (belowCap : List Validator → Result Unit) (validators : List Validator)
  | removeValidatorFromHostZone (lsmTokenDeposits : List LSMTokenDeposit)
      (validatorAddress : String)
  | changeValidatorWeight (belowCap : List Validator → Result Unit)
      (validatorWeights : List (String × UInt64))
  /-- the submission of a batch that names these validators -/
  | submit (validators : List String)
  /-- delegate, undelegate, rebalance and detokenize callbacks -/
  | icaCallback (batch : IcaBatch) (status : AckStatus)
  | delegatorSharesCallback (ctx : Context) (icq : IcqKeeper DelegationQueryData)
      (query : DelegationQuery) (args : QueriedDelegation)
  | calibrateDelegationCallback (query : DelegationQuery) (args : QueriedDelegation)
  /-- any operation that does not write delegations: rates, flags, safety bounds -/
  | other (hostZone : HostZone)

/-- The zone that an operation stores, or its error. -/
def ZoneOp.apply (hostZone : HostZone) : ZoneOp → Result HostZone
  | .addValidatorToHostZone validator fromGovernance =>
    Stakeibc.addValidatorToHostZone hostZone validator fromGovernance
  | .addValidators belowCap validators => Stakeibc.addValidators belowCap hostZone validators
  | .removeValidatorFromHostZone lsmTokenDeposits validatorAddress =>
    Stakeibc.removeValidatorFromHostZone hostZone lsmTokenDeposits validatorAddress
  | .changeValidatorWeight belowCap validatorWeights =>
    Stakeibc.changeValidatorWeight belowCap hostZone validatorWeights
  | .submit validators =>
    validators.foldlM incrementValidatorDelegationChangesInProgress hostZone
  | .icaCallback batch status => batch.callback hostZone status
  | .delegatorSharesCallback ctx icq query args => do
    let k ← Stakeibc.delegatorSharesCallback ctx ⟨hostZone, icq⟩ query args
    return k.hostZone
  | .calibrateDelegationCallback query args =>
    Stakeibc.calibrateDelegationCallback hostZone query args
  | .other hostZone' =>
    if hostZone'.ledger = hostZone.ledger then .ok hostZone'
    else .error ⟨.plain, "not an operation without delegations"⟩

/-- The zone after an operation. An error rolls all the writes of the operation back. -/
def ZoneOp.run (hostZone : HostZone) (op : ZoneOp) : HostZone :=
  match op.apply hostZone with
  | .ok hostZone' => hostZone'
  | .error _ => hostZone

/-- A zone as `RegisterHostZone` stores it. -/
structure HostZone.FreshlyRegistered (hostZone : HostZone) : Prop where
  validators : hostZone.validators = []
  total : hostZone.totalDelegations = 0

/-! ## The invariant -/

/-- The total is the sum of the delegations, and the addresses are distinct. -/
structure HostZone.LedgerSound (hostZone : HostZone) : Prop where
  total : hostZone.TotalConsistent
  nodup : hostZone.addresses.Nodup

variable {z z' : HostZone}

private theorem HostZone.LedgerSound.of_ledger_eq (h : z.LedgerSound) (heq : z'.ledger = z.ledger) :
    z'.LedgerSound := by
  obtain ⟨hvals, htotal⟩ := Prod.mk.inj heq
  have haddresses := congrArg (map Prod.fst) hvals
  have hdelegations := congrArg (map Prod.snd) hvals
  simp only [map_map, Function.comp_def] at haddresses hdelegations
  refine ⟨?_, ?_⟩
  · have hz := h.total
    unfold HostZone.TotalConsistent at hz ⊢
    rw [htotal, hz]
    exact (congrArg sum hdelegations).symm
  · rw [HostZone.addresses, haddresses]
    exact h.nodup

variable {query : DelegationQuery} {args : QueriedDelegation} {a : String} {v : Validator}
  {f : Validator → Validator} {d tokens : ℤ}

theorem sum_delegation_modifyValidator (hf : (f v).delegation = v.delegation + d)
    {vals : List Validator} (hv : getValidatorFromAddress vals a = some v) :
    ((modifyValidator a f vals).map Validator.delegation).sum =
      (vals.map Validator.delegation).sum + d := by
  induction vals with
  | nil => cases hv
  | cons w vals ih =>
    unfold getValidatorFromAddress at hv
    unfold modifyValidator
    by_cases hw : w.address = a
    · rw [find?_cons_of_pos (by simpa using hw)] at hv
      cases hv
      simp only [if_pos hw, map_cons, sum_cons, hf]
      omega
    · rw [find?_cons_of_neg (by simpa using hw)] at hv
      simp only [if_neg hw, map_cons, sum_cons, ih hv]
      omega

section

variable (h : z.LedgerSound)

include h

/-- **One write**: the delegation of a validator and the total change by the same amount. -/
theorem HostZone.LedgerSound.modifyValidator (hv : getValidatorFromAddress z.validators a = some v)
    (hf : (f v).delegation = v.delegation + d) (haddr : ∀ w, (f w).address = w.address)
    (hvals : z'.validators = modifyValidator a f z.validators)
    (htotal : z'.totalDelegations = z.totalDelegations + d) : z'.LedgerSound := by
  refine ⟨?_, ?_⟩
  · unfold HostZone.TotalConsistent
    rw [htotal, hvals, sum_delegation_modifyValidator hf hv, ← h.total]
  · rw [HostZone.addresses, hvals, map_modifyValidator haddr]
    exact h.nodup

/-! ## The writers -/

private theorem HostZone.LedgerSound.addValidatorToHostZone {validator : Validator}
    {fromGovernance : Bool}
    (hop : addValidatorToHostZone z validator fromGovernance = .ok z') :
    z'.LedgerSound := by
  refine ⟨?_, addValidatorToHostZone_nodup h.nodup hop⟩
  obtain ⟨v, rfl, -, hzero, -⟩ := addValidatorToHostZone_ok hop
  have htotal := h.total
  unfold HostZone.TotalConsistent at htotal ⊢
  simp [htotal, hzero]

private theorem HostZone.LedgerSound.removeValidatorFromHostZone {deposits : List LSMTokenDeposit}
    (hop : removeValidatorFromHostZone z deposits a = .ok z') : z'.LedgerSound := by
  refine ⟨?_, removeValidatorFromHostZone_nodup h.nodup hop⟩
  obtain ⟨v, before, after, hsplit, -, rfl, hzero, -⟩ := removeValidatorFromHostZone_ok hop
  have htotal := h.total
  unfold HostZone.TotalConsistent at htotal ⊢
  rw [hsplit] at htotal
  simpa [hzero] using htotal

private theorem HostZone.LedgerSound.changeValidatorWeight {belowCap : List Validator → Result Unit}
    {changes : List (String × UInt64)}
    (hop : changeValidatorWeight belowCap z changes = .ok z') : z'.LedgerSound := by
  have hsame := changeValidatorWeight_ok hop
  apply h.of_ledger_eq
  unfold HostZone.ledger
  rw [hsame.map_eq (fun v => (v.address, v.delegation)) fun _ => rfl, hsame.total]

private theorem HostZone.LedgerSound.icaCallback {batch : IcaBatch} {status : AckStatus}
    (hop : batch.callback z status = .ok z') : z'.LedgerSound := by
  have heffect := IcaBatch.callback_ok h.nodup hop
  rw [IcaBatch.callback_eq] at hop
  obtain ⟨z₁, hdec, -⟩ := bind_eq_ok.mp hop
  -- the callback has found every validator of the batch, or it would have failed
  have hmem := mem_of_foldlM_decrementValidatorDelegationChangesInProgress hdec
  refine ⟨heffect.totalConsistent h.nodup ?_ h.total, ?_⟩
  · split
    · exact IcaBatch.sum_delta h.nodup hmem
    · simp
  · rw [heffect.addresses]
    exact h.nodup

private theorem HostZone.LedgerSound.submit {validators : List String}
    (hop : validators.foldlM incrementValidatorDelegationChangesInProgress z = .ok z') :
    z'.LedgerSound := by
  have hmem := mem_of_foldlM_incrementValidatorDelegationChangesInProgress hop
  obtain ⟨z₁, hz₁, heffect⟩ := foldlM_incrementValidatorDelegationChangesInProgress validators hmem
  obtain rfl : z₁ = z' := Except.ok.inj (hz₁.symm.trans hop)
  refine ⟨heffect.totalConsistent h.nodup (by simp) h.total, ?_⟩
  rw [heffect.addresses]
  exact h.nodup

private theorem HostZone.LedgerSound.checkForSlash {slashed : Bool}
    (hv : getValidatorFromAddress z.validators v.address = some v)
    (hop : checkForSlash z v args = .ok (slashed, tokens, z')) :
    z'.LedgerSound ∧ (slashed = true → z' = z) := by
  unfold Stakeibc.checkForSlash at hop
  dsimp only at hop
  split at hop
  · cases hop
    exact ⟨h, fun _ => rfl⟩
  · split at hop
    · cases hop
      refine ⟨?_, fun hslashed => by cases hslashed⟩
      exact h.modifyValidator
        (f := fun w => { w with
          delegation := w.delegation + (delegatedTokens v args - v.delegation) })
        hv rfl (fun _ => rfl) rfl rfl
    · split at hop
      · cases hop
      cases hop
      exact ⟨h, fun _ => rfl⟩

private theorem HostZone.LedgerSound.slashValidatorOnHostZone
    (hv : getValidatorFromAddress z.validators v.address = some v)
    (hop : slashValidatorOnHostZone z v tokens = .ok z') : z'.LedgerSound := by
  unfold Stakeibc.slashValidatorOnHostZone at hop
  split at hop
  · cases hop
  split at hop
  · cases hop
  obtain ⟨adjustment, -, hop⟩ := bind_eq_ok.mp hop
  obtain ⟨weight, -, hop⟩ := bind_eq_ok.mp hop
  cases hop
  exact h.modifyValidator
    (f := fun w => { w with
      weight := weight, delegation := w.delegation - (v.delegation - tokens) })
    hv (sub_eq_add_neg ..) (fun _ => rfl) rfl (sub_eq_add_neg ..)

end

/-- The callback of a delegation query keeps the ledger sound. -/
theorem HostZone.LedgerSound.delegatorSharesCallback {ctx : Context} {k k' : QueryKeeper}
    (h : k.hostZone.LedgerSound) (hop : delegatorSharesCallback ctx k query args = .ok k') :
    k'.hostZone.LedgerSound := by
  obtain ⟨verdict, hverdict, hop⟩ := bind_eq_ok.mp hop
  obtain ⟨prev, v, -, hv, ⟨-, rfl⟩ | ⟨-, slashed, tokens, zone, hcheck, rfl⟩⟩ :=
    delegatorSharesVerdict_ok hverdict
  · obtain ⟨icq, -, hop⟩ := bind_eq_ok.mp hop
    cases hop
    exact h
  · -- the flag is cleared first, in the copy of the zone that the two checks work on
    have haddress := address_of_getValidatorFromAddress hv
    have hclear : (setSlashQueryInProgress k.hostZone v.address false).LedgerSound :=
      h.modifyValidator (f := fun w => { w with slashQueryInProgress := false })
        (haddress ▸ hv) (add_zero _).symm (fun _ => rfl) rfl (add_zero _).symm
    have hfound : getValidatorFromAddress
        (setSlashQueryInProgress k.hostZone v.address false).validators v.unflagged.address =
          some v.unflagged := by
      unfold setSlashQueryInProgress
      rw [getValidatorFromAddress_modifyValidator
        (f := fun w => { w with slashQueryInProgress := false }) fun _ => rfl]
      show (if v.address = v.address then _ else _) = _
      rw [if_pos rfl, haddress, hv]
      rfl
    obtain ⟨hsound, hsame⟩ := hclear.checkForSlash hfound hcheck
    cases slashed with
    | false =>
      cases hop
      exact hsound
    | true =>
      obtain ⟨zone', hslash, hop⟩ := bind_eq_ok.mp hop
      cases hop
      rw [hsame rfl] at hslash
      exact hclear.slashValidatorOnHostZone hfound hslash

private theorem HostZone.LedgerSound.calibrateDelegationCallback (h : z.LedgerSound)
    (hop : calibrateDelegationCallback z query args = .ok z') : z'.LedgerSound := by
  obtain ⟨v, hv, rfl | ⟨-, -, rfl⟩⟩ := calibrateDelegationCallback_ok hop
  · exact h
  · exact h.modifyValidator
      (f := Validator.adjust (delegatedTokens v args - v.delegation) 0)
      hv rfl (fun _ => rfl) rfl rfl

/-- **Every writer** keeps the total and the addresses in order. -/
theorem ZoneOp.apply_ledgerSound {op : ZoneOp} (h : z.LedgerSound) (hop : op.apply z = .ok z') :
    z'.LedgerSound := by
  cases op with
  | addValidatorToHostZone validator fromGovernance => exact h.addValidatorToHostZone hop
  | addValidators belowCap validators =>
    obtain ⟨z₁, hfold, hop⟩ := bind_eq_ok.mp hop
    obtain ⟨-, -, hop⟩ := bind_eq_ok.mp hop
    cases hop
    exact foldlM_ok_invariant (P := HostZone.LedgerSound)
      (fun x _ x' hx hs => hx.addValidatorToHostZone hs) h hfold
  | removeValidatorFromHostZone deposits address => exact h.removeValidatorFromHostZone hop
  | changeValidatorWeight belowCap changes => exact h.changeValidatorWeight hop
  | submit validators => exact h.submit hop
  | icaCallback batch status => exact h.icaCallback hop
  | delegatorSharesCallback ctx icq query args =>
    obtain ⟨k', hk', hop⟩ := bind_eq_ok.mp hop
    cases hop
    exact HostZone.LedgerSound.delegatorSharesCallback h hk'
  | calibrateDelegationCallback query args => exact h.calibrateDelegationCallback hop
  | other hostZone =>
    dsimp only [ZoneOp.apply] at hop
    split at hop
    · rename_i hledger
      cases hop
      exact h.of_ledger_eq hledger
    · cases hop

private theorem ZoneOp.run_ledgerSound (h : z.LedgerSound) (op : ZoneOp) :
    (op.run z).LedgerSound := by
  unfold ZoneOp.run
  cases hop : op.apply z with
  | ok z' => exact ZoneOp.apply_ledgerSound h hop
  | error e => exact h

private theorem foldl_run_ledgerSound (h : z.LedgerSound) (ops : List ZoneOp) :
    (ops.foldl ZoneOp.run z).LedgerSound := by
  induction ops generalizing z with
  | nil => exact h
  | cons op ops ih => exact ih (ZoneOp.run_ledgerSound h op)

private theorem HostZone.FreshlyRegistered.ledgerSound (h : z.FreshlyRegistered) :
    z.LedgerSound := by
  refine ⟨?_, ?_⟩
  · unfold HostZone.TotalConsistent
    rw [h.total, h.validators]
    rfl
  · rw [HostZone.addresses, h.validators]
    exact nodup_nil

/-- **Total equals the sum of the parts**: after any sequence of operations on a freshly
    registered zone, with errors rolled back, the total is the sum of the delegations and the
    addresses are pairwise distinct. -/
theorem totalDelegations_eq_sum (h : z.FreshlyRegistered) (ops : List ZoneOp) :
    (ops.foldl ZoneOp.run z).totalDelegations =
        ((ops.foldl ZoneOp.run z).validators.map Validator.delegation).sum ∧
      ((ops.foldl ZoneOp.run z).addresses).Nodup := by
  have hrun := foldl_run_ledgerSound h.ledgerSound ops
  exact ⟨hrun.total, hrun.nodup⟩

/-! ## A run -/

def registeredZone : HostZone :=
  { twoValidatorZone with validators := [], totalDelegations := 0 }

/-- Two validators join and get delegations, some of which move from one to the other. An
    undelegation of more than the first one has fails after its counter was written. The first
    one is calibrated, the second one slashed, and a third one leaves. -/
def joinedAndSlashed : List ZoneOp :=
  [.addValidatorToHostZone ⟨"val1", "val1", 10, 0, LegacyDec.one, 0, false⟩ false,
    .addValidatorToHostZone ⟨"val2", "val2", 0, 0, LegacyDec.one, 0, false⟩ true,
    .addValidatorToHostZone ⟨"val3", "val3", 0, 0, LegacyDec.one, 0, false⟩ false,
    .submit ["val1", "val2"],
    .icaCallback (.delegate ⟨"host", 1, [⟨"val1", 100⟩, ⟨"val2", 60⟩]⟩) .success,
    .submit ["val1", "val2"],
    .icaCallback (.rebalance [⟨"val1", "val2", 10⟩]) .success,
    .submit ["val1"],
    .icaCallback (.undelegate ⟨"host", [⟨"val1", 500⟩], [1]⟩) .success,
    .calibrateDelegationCallback (newDelegationQuery registeredZone [] "calibrate" .empty)
      ⟨"delegation", "val1", LegacyDec.fromInt 95⟩,
    .delegatorSharesCallback ⟨0, fun _ => none, fun _ => "", fun _ => .ok []⟩ ⟨.empty, none⟩
      (newDelegationQuery registeredZone [] "delegation" (.delegatorShares 70))
      ⟨"delegation", "val2", LegacyDec.fromInt 35⟩,
    .removeValidatorFromHostZone [] "val3"]

theorem totalDelegations_eq_sum_joinedAndSlashed :
    (joinedAndSlashed.foldl ZoneOp.run registeredZone).ledger =
      ([("val1", 95), ("val2", 35)], 130) ∧
      (joinedAndSlashed.foldl ZoneOp.run registeredZone).totalDelegations =
        ((joinedAndSlashed.foldl ZoneOp.run registeredZone).validators.map
          Validator.delegation).sum :=
  ⟨by decide +kernel, (totalDelegations_eq_sum ⟨rfl, rfl⟩ joinedAndSlashed).1⟩

end Stride.Stakeibc
