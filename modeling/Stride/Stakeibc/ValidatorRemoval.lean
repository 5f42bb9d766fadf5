import Stride.Stakeibc.DelegationBook
import Stride.Stakeibc.ValidatorSet

/-!
# Removing Validators While ICAs Are in Flight

Validators join, change their weights and leave while delegations, undelegations, redelegations
and detokenizations are in flight, which are acknowledged in any order. A callback looks up
each validator that its batch names, and fails if one of them has left the zone.

`RemoveValidatorFromHostZone` checks the recorded delegation, the weight and the token deposits
of the validator. None of these tells of a first delegation in flight to a validator whose
weight has just been set to 0: only the counter `DelegationChangesInProgress` does.
-/

namespace Stride.Stakeibc

open Lib Sdk Records LSMTokenDepositStore List

/-! ## System -/

/-- The callback data of an unacknowledged ICA. -/
inductive DelegationIca where
  | delegate (callback : DelegateCallback)
  | undelegate (callback : UndelegateCallback)
  | rebalance (rebalancings : List Rebalancing)
  | detokenize (deposit : LSMTokenDeposit)
  deriving DecidableEq

/-- The batch of an ICA. The amount of a detokenization is in the response of the host. -/
def DelegationIca.batch (stakeAmount : ℤ) : DelegationIca → IcaBatch
  | .delegate callback => .delegate callback
  | .undelegate callback => .undelegate callback
  | .rebalance rebalancings => .rebalance rebalancings
  | .detokenize deposit => .detokenize deposit.validatorAddress stakeAmount

def DelegationIca.validators : DelegationIca → List String
  | .delegate callback => callback.validators
  | .undelegate callback => callback.splitUndelegations.map SplitUndelegation.validator
  | .rebalance rebalancings => rebalancedValidators rebalancings
  | .detokenize deposit => [deposit.validatorAddress]

/-- A host zone, the token deposits, and the ICAs in flight. -/
structure ValidatorSetSystem where
  zone : HostZone
  deposits : LSMTokenDepositStore
  inFlight : List DelegationIca

inductive ValidatorSetEvent where
  | addValidator (validator : Validator) (fromGovernance : Bool)
  | changeValidatorWeight (validatorWeights : List (String × UInt64))
  | removeValidator (validatorAddress : String)
  /-- a liquid stake of tokenized shares starts -/
  | deposit (deposit : LSMTokenDeposit)
  /-- a stake fails while it is pending -/
  | failDeposit (denom : String)
  /-- a stake is finished, or its transfer is submitted or acknowledged -/
  | transferDeposit (denom : String) (status : LSMTokenDepositStatus)
  | submit (ica : DelegationIca)
  | detokenize (denom : String)
  | ack (i : ℕ) (status : AckStatus) (stakeAmount : ℤ)
  deriving DecidableEq

namespace ValidatorSetSystem

def addresses (s : ValidatorSetSystem) : List String := s.zone.addresses

/-- `DetokenizeCallback` also settles the deposit, from the copy in the callback data. -/
def settleDeposit (deposits : LSMTokenDepositStore) (status : AckStatus) :
    DelegationIca → LSMTokenDepositStore
  | .detokenize deposit =>
    match status with
    | .timeout => deposits
    | .failure => deposits.updateLSMTokenDepositStatus deposit .detokenizationFailed
    | .success => deposits.removeLSMTokenDeposit deposit.chainId deposit.denom
  | _ => deposits

/-- `DetokenizeLSMDeposit` runs in the end blocker, so that an error of the last step does not
    undo the submission. -/
def detokenizeLSMDeposit (s : ValidatorSetSystem) (deposit : LSMTokenDeposit) :
    ValidatorSetSystem where
  zone :=
    match incrementValidatorDelegationChangesInProgress s.zone deposit.validatorAddress with
    | .ok zone => zone
    | .error _ => s.zone
  deposits := s.deposits.updateLSMTokenDepositStatus deposit .detokenizationInProgress
  inFlight := s.inFlight ++ [.detokenize deposit]

/-- The statuses of a deposit until its transfer has arrived. -/
def beforeArrival : List LSMTokenDepositStatus :=
  [.depositPending, .transferQueue, .transferInProgress, .transferFailed]

/-- The statuses that the stake and the transfer of a deposit lead to. -/
def afterTransferStep : List LSMTokenDepositStatus :=
  [.transferQueue, .transferInProgress, .transferFailed, .detokenizationQueue]

/-- One event. An error of a message or a callback is rolled back. -/
def step (belowCap : List Validator → Result Unit) (s : ValidatorSetSystem) :
    ValidatorSetEvent → Option ValidatorSetSystem
  | .addValidator validator fromGovernance =>
    (addValidatorToHostZone s.zone validator fromGovernance).toOption.map
      fun zone => { s with zone := zone }
  | .changeValidatorWeight validatorWeights =>
    (changeValidatorWeight belowCap s.zone validatorWeights).toOption.map
      fun zone => { s with zone := zone }
  | .removeValidator validatorAddress =>
    (removeValidatorFromHostZone s.zone s.deposits.getAllLSMTokenDeposit
      validatorAddress).toOption.map fun zone => { s with zone := zone }
  | .deposit deposit =>
    if deposit.chainId = s.zone.chainId ∧ deposit.validatorAddress ∈ s.addresses ∧
        s.deposits.getLSMTokenDeposit deposit.chainId deposit.denom = none then
      some { s with deposits := s.deposits.setLSMTokenDeposit deposit }
    else none
  | .failDeposit denom =>
    match s.deposits.getLSMTokenDeposit s.zone.chainId denom with
    | none => none
    | some deposit =>
      if deposit.status = .depositPending then
        some { s with deposits := s.deposits.removeLSMTokenDeposit s.zone.chainId denom }
      else none
  | .transferDeposit denom status =>
    match s.deposits.getLSMTokenDeposit s.zone.chainId denom with
    | none => none
    | some deposit =>
      if deposit.status ∈ beforeArrival ∧ status ∈ afterTransferStep then
        some { s with deposits := s.deposits.updateLSMTokenDepositStatus deposit status }
      else none
  | .submit ica =>
    match ica with
    | .detokenize _ => none
    | _ =>
      (ica.validators.foldlM incrementValidatorDelegationChangesInProgress s.zone).toOption.map
        fun zone => { s with zone := zone, inFlight := s.inFlight ++ [ica] }
  | .detokenize denom =>
    match s.deposits.getLSMTokenDeposit s.zone.chainId denom with
    | none => none
    | some deposit =>
      if deposit.status = .detokenizationQueue ∧ deposit.chainId = s.zone.chainId then
        some (s.detokenizeLSMDeposit deposit)
      else none
  | .ack i status stakeAmount =>
    match s.inFlight[i]? with
    | none => none
    | some ica =>
      ((ica.batch stakeAmount).callback s.zone status).toOption.map fun zone =>
        { zone := zone
          deposits := settleDeposit s.deposits status ica
          inFlight := s.inFlight.eraseIdx i }

/-- Removed validators have no pending change. -/
def RemovesIdle (s : ValidatorSetSystem) : ValidatorSetEvent → Prop
  | .removeValidator validatorAddress =>
    ∀ c, s.zone.changesInProgress validatorAddress = some c → c = 0
  | _ => True

instance (s : ValidatorSetSystem) (e : ValidatorSetEvent) : Decidable (s.RemovesIdle e) := by
  apply @ValidatorSetEvent.casesOn _ e <;> intros <;> dsimp only [RemovesIdle] <;> infer_instance

/-- Distinct validators without pending changes; every deposit of the zone is with one of
    them, and nothing is in flight. -/
structure Started (s : ValidatorSetSystem) : Prop where
  nodup : s.addresses.Nodup
  idle : ∀ v ∈ s.zone.validators, v.delegationChangesInProgress = 0
  deposits : ∀ x ∈ s.deposits.getAllLSMTokenDeposit, x.chainId = s.zone.chainId →
    x.validatorAddress ∈ s.addresses
  inFlight : s.inFlight = []

/-! ## The invariant -/

/-- How often ICAs name a validator. -/
def named (icas : List DelegationIca) (address : String) : ℤ :=
  (icas.map fun ica => (ica.validators.count address : ℤ)).sum

/-- Every validator named in flight is in the zone and counts the ICAs that name it. -/
structure Known (s : ValidatorSetSystem) : Prop where
  nodup : s.addresses.Nodup
  known : ∀ ica ∈ s.inFlight, ∀ a ∈ ica.validators, a ∈ s.addresses
  changes : ∀ a c, s.zone.changesInProgress a = some c → c = named s.inFlight a
  deposits : ∀ x ∈ s.deposits.getAllLSMTokenDeposit, x.chainId = s.zone.chainId →
    x.validatorAddress ∈ s.addresses

variable {s s' s₀ : ValidatorSetSystem}

private theorem named_append (l : List DelegationIca) (ica : DelegationIca) (a : String) :
    named (l ++ [ica]) a = named l a + (ica.validators.count a : ℤ) := by
  simp [named]

variable {ica : DelegationIca} {zone : HostZone} {x : LSMTokenDeposit} {l : List DelegationIca}
  {belowCap : List Validator → Result Unit} {chainId denom : String} {e : ValidatorSetEvent} {i : ℕ}

private theorem named_eraseIdx (h : l[i]? = some ica) (a : String) :
    named l a = (ica.validators.count a : ℤ) + named (l.eraseIdx i) a := by
  unfold named
  rw [((perm_cons_eraseIdx h).map _).sum_eq, map_cons, sum_cons]

private theorem count_le_named (h : ica ∈ l) (a : String) :
    (ica.validators.count a : ℤ) ≤ named l a := by
  obtain ⟨i, hi⟩ := mem_iff_getElem?.mp h
  rw [named_eraseIdx hi a]
  have hnonneg : 0 ≤ named (l.eraseIdx i) a := by
    apply sum_map_nonneg
    intro _ _
    exact Int.natCast_nonneg _
  omega

private theorem validators_batch (ica : DelegationIca) (stakeAmount : ℤ) :
    (ica.batch stakeAmount).validators = ica.validators := by
  cases ica <;> rfl

private theorem Started.known (h : s.Started) : s.Known where
  nodup := h.nodup
  known ica hica := by
    rw [h.inFlight] at hica
    cases hica
  changes a c hc := by
    obtain ⟨v, hv, rfl⟩ := Option.map_eq_some_iff.mp hc
    rw [h.inFlight]
    exact h.idle v (mem_of_find?_eq_some hv)
  deposits := h.deposits

/-! ## Events that keep the ICAs -/

private theorem Known.of_sameAddresses (h : s.Known) (hchain : s'.zone.chainId = s.zone.chainId)
    (haddresses : s'.addresses = s.addresses) (hdeposits : s'.deposits = s.deposits)
    (hknown : ∀ ica ∈ s'.inFlight, ∀ a ∈ ica.validators, a ∈ s.addresses)
    (hchanges : ∀ a c, s'.zone.changesInProgress a = some c → c = named s'.inFlight a) :
    s'.Known where
  nodup := haddresses ▸ h.nodup
  known := haddresses ▸ hknown
  changes := hchanges
  deposits x hx hzone := haddresses ▸ h.deposits x (hdeposits ▸ hx) (hzone.trans hchain)

private theorem Known.setDeposit (h : s.Known) (deposit : LSMTokenDeposit)
    (hval : deposit.chainId = s.zone.chainId → deposit.validatorAddress ∈ s.addresses) :
    Known { s with deposits := s.deposits.setLSMTokenDeposit deposit } where
  nodup := h.nodup
  known := h.known
  changes := h.changes
  deposits x hx hzone := by
    by_cases hkey : x.key = deposit.key
    · rw [eq_of_mem_getAll_set hx hkey] at hzone ⊢
      exact hval hzone
    · exact h.deposits x ((mem_getAll_set_of_key_ne hkey).mp hx) hzone

private theorem Known.removeDeposit (h : s.Known) (chainId denom : String) :
    Known { s with deposits := s.deposits.removeLSMTokenDeposit chainId denom } where
  nodup := h.nodup
  known := h.known
  changes := h.changes
  deposits x hx hzone := h.deposits x (mem_getAll_remove.mp hx).1 hzone

private theorem mem_of_getLSMTokenDeposit {deposits : LSMTokenDepositStore}
    (h : deposits.getLSMTokenDeposit chainId denom = some x) :
    x ∈ deposits.getAllLSMTokenDeposit := by
  rw [mem_getAll_iff, KeyedStore.key_of_get? h]
  exact h

section

variable (h : s.Known)

include h

private theorem Known.updateDeposit (hx : s.deposits.getLSMTokenDeposit chainId denom = some x)
    (status : LSMTokenDepositStatus) :
    Known { s with deposits := s.deposits.updateLSMTokenDepositStatus x status } :=
  h.setDeposit { x with status := status }
    fun hzone => h.deposits x (mem_of_getLSMTokenDeposit hx) hzone

/-! ## Events that change the validators or the ICAs -/

private theorem Known.addValidator {validator : Validator} {fromGovernance : Bool}
    (hadd : addValidatorToHostZone s.zone validator fromGovernance = .ok zone) :
    Known { s with zone := zone } := by
  have hnd := addValidatorToHostZone_nodup h.nodup hadd
  obtain ⟨v, rfl, hfresh, -, hidle, -⟩ := addValidatorToHostZone_ok hadd
  have hsub : s.addresses ⊆ (s.zone.validators ++ [v]).map Validator.address := by
    rw [map_append]
    exact subset_append_left ..
  refine ⟨hnd, fun ica hica a ha => hsub (h.known ica hica a ha), fun a c hc => ?_,
    fun x hx hzone => hsub (h.deposits x hx hzone)⟩
  obtain ⟨w, hw, rfl⟩ := Option.map_eq_some_iff.mp hc
  replace hw : (s.zone.validators ++ [v]).find? (fun v => v.address = a) = some w := hw
  rw [find?_append, Option.or_eq_some_iff] at hw
  rcases hw with hold | ⟨hnone, hnew⟩
  · exact h.changes a _ (Option.map_eq_some_iff.mpr ⟨w, hold, rfl⟩)
  · -- nothing in flight names an address that was not in the zone
    obtain ⟨rfl, rfl⟩ : v = w ∧ v.address = a := by
      have haddress := find?_some hnew
      have hmem := mem_of_find?_eq_some hnew
      simp only [mem_singleton] at hmem
      subst hmem
      exact ⟨rfl, by simpa using haddress⟩
    rw [hidle]
    symm
    apply sum_map_eq_zero
    intro ica hica
    have hnot : v.address ∉ ica.validators := fun hin => hfresh (h.known ica hica _ hin)
    simp [count_eq_zero.mpr hnot]

private theorem Known.changeWeight {weights : List (String × UInt64)}
    (hchange : changeValidatorWeight belowCap s.zone weights = .ok zone) :
    Known { s with zone := zone } := by
  have hsame := changeValidatorWeight_ok hchange
  refine h.of_sameAddresses (HostZone.chainId_eq_of_settings hsame.settings)
    (hsame.map_eq Validator.address fun _ => rfl) rfl h.known fun a c hc => h.changes a c ?_
  -- the weight plays no part in the search
  have hview (vals : List Validator) :
      (getValidatorFromAddress vals a).map Validator.delegationChangesInProgress =
        (getValidatorFromAddress (vals.map Validator.unweighted) a).map
          Validator.delegationChangesInProgress := by
    simp only [getValidatorFromAddress, find?_map, Option.map_map]
    rfl
  unfold HostZone.changesInProgress at hc ⊢
  rwa [hview, ← hsame.unweighted, ← hview]

/-- **A removal** of a validator without changes in progress. -/
theorem Known.removeValidator {a : String}
    (hidle : ∀ c, s.zone.changesInProgress a = some c → c = 0)
    (hremove : removeValidatorFromHostZone s.zone s.deposits.getAllLSMTokenDeposit a = .ok zone) :
    Known { s with zone := zone } := by
  have hnd := removeValidatorFromHostZone_nodup h.nodup hremove
  obtain ⟨v, before, after, hsplit, hva, rfl, -, -, hdeposits⟩ :=
    removeValidatorFromHostZone_ok hremove
  have hmem (b : String) (hb : b ∈ s.addresses) (hne : b ≠ a) :
      b ∈ (before ++ after).map Validator.address := by
    unfold addresses at hb
    rw [HostZone.addresses, hsplit] at hb
    simp only [map_append, map_cons, mem_append, mem_cons] at hb ⊢
    rcases hb with hb | hb | hb
    · exact .inl hb
    · exact absurd (hb.trans hva) hne
    · exact .inr hb
  -- its counter is zero, and bounds the ICAs that name it
  have hunnamed : ∀ ica ∈ s.inFlight, a ∉ ica.validators := by
    intro ica hica hin
    have hsome : (s.zone.changesInProgress a).isSome :=
      changesInProgress_isSome_iff.mpr (h.known ica hica a hin)
    obtain ⟨c, hc⟩ := Option.isSome_iff_exists.mp hsome
    have hle := count_le_named hica a
    rw [← h.changes a c hc, hidle c hc] at hle
    have hpos := count_pos_iff.mpr hin
    omega
  refine ⟨hnd, fun ica hica b hb => hmem b (h.known ica hica b hb) ?_, ?_,
    fun x hx hzone => hmem _ (h.deposits x hx hzone) (hdeposits x hx)⟩
  · rintro rfl
    exact hunnamed ica hica hb
  · intro b c hc
    apply h.changes b c
    obtain ⟨w, hw, rfl⟩ := Option.map_eq_some_iff.mp hc
    have hwmem : w ∈ before ++ after := mem_of_find?_eq_some hw
    have hwold : w ∈ s.zone.validators := by
      rw [hsplit]
      rcases mem_append.mp hwmem with hb | hb
      · exact mem_append_left _ hb
      · exact mem_append_right _ (mem_cons_of_mem _ hb)
    have hwb : w.address = b := address_of_getValidatorFromAddress hw
    rw [← hwb]
    exact (BookSystem.recorded_of_mem h.nodup hwold).2

/-- A submission that goes through counts the ICA at each validator that it names. -/
theorem Known.submit (ica : DelegationIca)
    (hinc : ica.validators.foldlM incrementValidatorDelegationChangesInProgress s.zone = .ok zone) :
    Known { s with zone := zone, inFlight := s.inFlight ++ [ica] } := by
  have hmem := mem_of_foldlM_incrementValidatorDelegationChangesInProgress hinc
  obtain ⟨zone', hzone', heffect⟩ :=
    foldlM_incrementValidatorDelegationChangesInProgress ica.validators hmem
  obtain rfl : zone' = zone := Except.ok.inj (hzone'.symm.trans hinc)
  refine h.of_sameAddresses heffect.chainId heffect.addresses rfl
    (forall_mem_concat h.known hmem) fun a c hc => ?_
  replace hc := (heffect.changes a).symm.trans hc
  obtain ⟨c₀, hc₀, rfl⟩ := Option.map_eq_some_iff.mp hc
  rw [named_append, h.changes a c₀ hc₀]

/-- The deposits are with validators of the zone, so that a detokenization is counted. -/
theorem Known.detokenize (hx : s.deposits.getLSMTokenDeposit s.zone.chainId denom = some x)
    (hzone : x.chainId = s.zone.chainId) : (s.detokenizeLSMDeposit x).Known := by
  have hval := h.deposits x (mem_of_getLSMTokenDeposit hx) hzone
  obtain ⟨zone, hinc, -⟩ := foldlM_incrementValidatorDelegationChangesInProgress
    [x.validatorAddress] (z := s.zone) fun a ha => by rw [mem_singleton.mp ha]; exact hval
  have hone : incrementValidatorDelegationChangesInProgress s.zone x.validatorAddress =
      .ok zone := by simpa using hinc
  have hmarked := h.updateDeposit hx .detokenizationInProgress
  have hsent := hmarked.submit (.detokenize x) hinc
  unfold detokenizeLSMDeposit
  rw [hone]
  exact hsent

/-- A callback keeps the validators of the ICAs that are left. -/
theorem Known.ack {status : AckStatus} {amount : ℤ} (hica : s.inFlight[i]? = some ica)
    (hcallback : (ica.batch amount).callback s.zone status = .ok zone) :
    Known
      { zone := zone
        deposits := settleDeposit s.deposits status ica
        inFlight := s.inFlight.eraseIdx i } := by
  have heffect := IcaBatch.callback_ok h.nodup hcallback
  have hmem : ica ∈ s.inFlight := mem_of_getElem? hica
  -- the deposit is settled first, for which its validator has to be known
  have hsettled : Known { s with deposits := settleDeposit s.deposits status ica } := by
    cases ica with
    | detokenize deposit =>
      cases status with
      | timeout => exact h
      | failure =>
        exact h.setDeposit { deposit with status := .detokenizationFailed }
          fun _ => h.known _ hmem _ (mem_singleton_self _)
      | success => exact h.removeDeposit _ _
    | _ => exact h
  refine hsettled.of_sameAddresses heffect.chainId heffect.addresses rfl
    (fun ica' hica' => h.known ica' ((eraseIdx_sublist _ _).subset hica')) fun a c hc => ?_
  dsimp only at hc ⊢
  rw [heffect.changes, validators_batch] at hc
  obtain ⟨c₀, hc₀, rfl⟩ := Option.map_eq_some_iff.mp hc
  rw [h.changes a c₀ hc₀, named_eraseIdx hica a]
  omega

/-- **Step**: as long as removed validators have no pending change, every validator named in
    flight stays in the zone. -/
theorem Known.step (hidle : s.RemovesIdle e) (hs : s.step belowCap e = some s') : s'.Known := by
  cases e with
  | addValidator validator fromGovernance =>
    obtain ⟨zone, hadd, rfl⟩ := toOption_map_eq_some.mp hs
    exact h.addValidator hadd
  | changeValidatorWeight weights =>
    obtain ⟨zone, hchange, rfl⟩ := toOption_map_eq_some.mp hs
    exact h.changeWeight hchange
  | removeValidator a =>
    obtain ⟨zone, hremove, rfl⟩ := toOption_map_eq_some.mp hs
    exact h.removeValidator hidle hremove
  | deposit deposit =>
    dsimp only [step] at hs
    split at hs
    · rename_i hguard
      cases hs
      exact h.setDeposit _ fun _ => hguard.2.1
    · cases hs
  | failDeposit denom =>
    dsimp only [step] at hs
    split at hs
    · cases hs
    split at hs
    · cases hs
      exact h.removeDeposit _ _
    · cases hs
  | transferDeposit denom status =>
    dsimp only [step] at hs
    split at hs
    · cases hs
    rename_i x hx
    split at hs
    · cases hs
      exact h.updateDeposit hx status
    · cases hs
  | submit ica =>
    dsimp only [step] at hs
    split at hs
    · cases hs
    obtain ⟨zone, hinc, rfl⟩ := toOption_map_eq_some.mp hs
    exact h.submit ica hinc
  | detokenize denom =>
    dsimp only [step] at hs
    split at hs
    · cases hs
    rename_i x hx
    split at hs
    · rename_i hguard
      cases hs
      exact h.detokenize hx hguard.2
    · cases hs
  | ack i status amount =>
    dsimp only [step] at hs
    split at hs
    · cases hs
    rename_i ica hica
    obtain ⟨zone, hcallback, rfl⟩ := toOption_map_eq_some.mp hs
    exact h.ack hica hcallback

end

/-- **In flight**: in every run in which removed validators have no pending change, every
    validator that an unacknowledged ICA names is in the zone, and a callback, whatever the
    outcome, fails at most because a delegation does not cover a change. -/
theorem in_flight_validators_stay {belowCap : List Validator → Result Unit} (h₀ : s₀.Started)
    (hrun : Reaches (step belowCap) RemovesIdle s₀ s) :
    (∀ ica ∈ s.inFlight, ∀ a ∈ ica.validators, a ∈ s.zone.addresses) ∧
      ∀ ica ∈ s.inFlight, ∀ status amount e,
        (ica.batch amount).callback s.zone status = .error e →
          e.code = .errValidatorDelegationChg := by
  have hknown : s.Known :=
    hrun.invariant h₀.known fun _ _ _ hi hok hs => hi.step hok hs
  refine ⟨hknown.known, ?_⟩
  intro ica hica status amount e herror
  refine IcaBatch.callback_error hknown.nodup ?_ ?_ herror
  · rw [validators_batch]
    exact hknown.known ica hica
  · intro a c hc
    rw [validators_batch, hknown.changes a c hc]
    exact count_le_named hica a

/-- In such a run a validator's counter is how often unacknowledged ICAs name it. -/
theorem counters_match (h₀ : s₀.Started)
    (hrun : Reaches (step belowCap) RemovesIdle s₀ s) :
    ∀ v ∈ s.zone.validators, v.delegationChangesInProgress = named s.inFlight v.address := by
  have hknown : s.Known := hrun.invariant h₀.known fun _ _ _ hi => hi.step
  exact fun v hv => hknown.changes _ _ (BookSystem.recorded_of_mem hknown.nodup hv).2

/-! ## Runs -/

/-- A validator without a delegation next to one that has some, and a deposit with the
    second one that waits for its detokenization. -/
def newValidatorSystem : ValidatorSetSystem where
  zone := { twoValidatorZone with
    validators :=
      [⟨"val1", "val1", 1, 400, LegacyDec.one, 0, false⟩,
        ⟨"val2", "val2", 1, 0, LegacyDec.one, 0, false⟩] }
  deposits := setLSMTokenDeposit KeyedStore.empty
    { depositOnChain10 with
      chainId := "host", validatorAddress := "val1", status := .detokenizationQueue }
  inFlight := []

private theorem newValidatorSystem_started : newValidatorSystem.Started := by
  refine ⟨by decide, by decide, by decide +kernel, rfl⟩

/-- The first delegation to the new validator. -/
private def firstDelegation : DelegationIca := .delegate ⟨"host", 1, [⟨"val2", 100⟩]⟩

private def anyWeights : List Validator → Result Unit := fun _ => .ok ()

/-- The weight of the new validator is set to 0 and it is removed, while its first delegation
    is in flight: no later callback finds it. -/
theorem removed_during_first_delegation :
    newValidatorSystem.Started ∧
      ((runSteps (step anyWeights) newValidatorSystem
        [.submit firstDelegation, .changeValidatorWeight [("val2", 0)],
          .removeValidator "val2"]).map fun s =>
        (s.addresses, s.inFlight,
          [AckStatus.success, .failure, .timeout].map fun status =>
            match (firstDelegation.batch 0).callback s.zone status with
            | .ok _ => none
            | .error e => some e.code)) =
      some (["val1"], [firstDelegation],
        [some .errValidatorNotFound, some .errValidatorNotFound, some .errValidatorNotFound]) :=
  ⟨newValidatorSystem_started, by decide +kernel⟩

/-- The removal comes after the acknowledgements, and another delegation and a detokenization
    are in flight then. -/
private def removedAfterAck : List ValidatorSetEvent :=
  [.submit firstDelegation, .changeValidatorWeight [("val2", 0)], .ack 0 .failure 0,
    .submit (.delegate ⟨"host", 2, [⟨"val1", 50⟩]⟩), .detokenize "valoper/1",
    .removeValidator "val2"]

theorem in_flight_validators_stay_removedAfterAck :
    ∃ s, Reaches (step anyWeights) RemovesIdle newValidatorSystem s ∧
      s.addresses = ["val1"] ∧ s.inFlight.length = 2 ∧
      ∀ ica ∈ s.inFlight, ∀ a ∈ ica.validators, a ∈ s.zone.addresses := by
  have hrun : Reaches (step anyWeights) RemovesIdle newValidatorSystem _ :=
    .of_get (l := removedAfterAck) (by decide +kernel)
  exact ⟨_, hrun, by decide +kernel, by decide +kernel,
    (in_flight_validators_stay newValidatorSystem_started hrun).1⟩

theorem counters_match_firstDelegation :
    ∃ s : ValidatorSetSystem, s.inFlight = [firstDelegation] ∧
      ∀ v ∈ s.zone.validators, v.delegationChangesInProgress = named s.inFlight v.address :=
  ⟨_, rfl, counters_match newValidatorSystem_started
    (.tail (.submit firstDelegation) .refl trivial (rfl : step anyWeights _ _ = _))⟩

end ValidatorSetSystem

end Stride.Stakeibc
