import Stride.Stakeibc.DelegateCallback
import Stride.Stakeibc.UndelegateCallback

/-!
# Batches That Change Delegations

Four kinds of ICA change what the delegation account has with the validators of a zone:
delegations, undelegations, redelegations and the detokenization of liquid staking shares.
Each is submitted in batches, raises a counter on the validators it names when it is sent,
and lowers it again in its callback, which also updates the recorded delegations after a
success.
-/

namespace Stride.Stakeibc

open Lib Sdk Records List

/-! ## Redelegations -/

structure Rebalancing where
  srcValidator : String
  dstValidator : String
  amt : ℤ
  deriving DecidableEq

/-- Writes to the validator that the address map of `RebalanceCallback` has for the address:
    a later validator replaces an earlier one in the map. -/
def addInAddrMap (address : String) (amt : ℤ) (validators : List Validator) : List Validator :=
  (modifyValidator address (fun v => { v with delegation := v.delegation + amt })
    validators.reverse).reverse

/-- One redelegation of `RebalanceCallback`. -/
def applyRebalancing (hostZone : HostZone) (r : Rebalancing) : Result HostZone :=
  if r.srcValidator ∉ hostZone.addresses then
    wrapf .errInvalidRequest s!"source validator not found {r.srcValidator}"
  else if r.dstValidator ∉ hostZone.addresses then
    wrapf .errInvalidRequest s!"destination validator not found {r.dstValidator}"
  else
    .ok { hostZone with
      validators := addInAddrMap r.dstValidator r.amt
        (addInAddrMap r.srcValidator (-r.amt) hostZone.validators) }

/-- The validators of the redelegations, in the order of the counter updates. -/
def rebalancedValidators (rebalancings : List Rebalancing) : List String :=
  rebalancings.flatMap fun r => [r.srcValidator, r.dstValidator]

/-- `RebalanceCallback`, once the host zone was found. It does not check that the recorded
    delegation of the source covers the amount. -/
def rebalanceCallback (hostZone : HostZone) (rebalancings : List Rebalancing)
    (status : AckStatus) : Result HostZone := do
  let hostZone ← (rebalancedValidators rebalancings).foldlM
    decrementValidatorDelegationChangesInProgress hostZone
  match status with
  | .success => rebalancings.foldlM applyRebalancing hostZone
  | _ => return hostZone

/-! ## Undelegations and detokenizations -/

/-- What `UndelegateCallback` does to the host zone. -/
def undelegateZone (hostZone : HostZone) (callback : UndelegateCallback) (status : AckStatus) :
    Result HostZone := do
  let hostZone ← (callback.splitUndelegations.map SplitUndelegation.validator).foldlM
    decrementValidatorDelegationChangesInProgress hostZone
  match status with
  | .success => updateDelegationBalances hostZone callback
  | _ => return hostZone

/-- `delegateZone` is what a delegate callback does to the zone. -/
theorem delegateCallback_zone {k k' c status} (h : delegateCallback k c status = .ok k') :
    ∃ z z', k.hostZones.get? c.hostZoneId = some z ∧ delegateZone z c status = .ok z' ∧
      k'.hostZones.get? c.hostZoneId = some z' := by
  obtain ⟨_, z, z', hacked⟩ := delegateCallback_ok h
  exact ⟨z, z', hacked.foundZone, hacked.zone, (hacked.hostZones _).trans (if_pos rfl)⟩

/-- `undelegateZone` is what an undelegate callback does to the zone. -/
theorem undelegateCallback_zone {k k' c ack} (h : undelegateCallback k c ack = .ok k') :
    undelegateZone k.hostZone c ack.status = .ok k'.hostZone := by
  obtain ⟨status, _⟩ := ack
  unfold undelegateCallback at h
  split at h
  · cases h
  obtain ⟨_, hmark, h⟩ := bind_eq_ok.mp h
  simp only [markUndelegationAckReceived, bind_eq_ok] at hmark
  obtain ⟨z, hdec, _, -, hmark⟩ := hmark
  cases hmark
  refine bind_eq_ok.mpr ⟨z, hdec, ?_⟩
  cases status <;> simp only [bind_eq_ok] at h
  · obtain ⟨_, -, _, hsub, _, -, _, -, h⟩ := h
    cases h
    exact hsub
  · obtain ⟨_, -, h⟩ := h
    cases h
    rfl
  · cases h
    rfl

/-- `DetokenizeCallback`, once the host zone was found. `stakeAmount` is the amount in the
    response of the host. The status of the token deposit is not modelled. -/
def detokenizeCallback (hostZone : HostZone) (validatorAddress : String) (stakeAmount : ℤ)
    (status : AckStatus) : Result HostZone := do
  let hostZone ← decrementValidatorDelegationChangesInProgress hostZone validatorAddress
  match status with
  | .success => addDelegationToValidator hostZone validatorAddress stakeAmount
  | _ => return hostZone

/-! ## Batches -/

/-- A batch of one of the four kinds. -/
inductive IcaBatch where
  | delegate (callback : DelegateCallback)
  | undelegate (callback : UndelegateCallback)
  | rebalance (rebalancings : List Rebalancing)
  | detokenize (validatorAddress : String) (stakeAmount : ℤ)
  deriving DecidableEq

namespace IcaBatch

/-- The validators that count the batch, with multiplicity. -/
def validators : IcaBatch → List String
  | .delegate callback => callback.validators
  | .undelegate callback => callback.splitUndelegations.map SplitUndelegation.validator
  | .rebalance rebalancings => rebalancedValidators rebalancings
  | .detokenize validatorAddress _ => [validatorAddress]

/-- What the batch does on the host. -/
def delta : IcaBatch → String → ℤ
  | .delegate callback => delegationDelta callback.splitDelegations
  | .undelegate callback =>
    (callback.splitUndelegations.map fun u => Pi.single u.validator (-u.nativeTokenAmount)).sum
  | .rebalance rebalancings =>
    (rebalancings.map fun r =>
      (Pi.single r.srcValidator (-r.amt) + Pi.single r.dstValidator r.amt : String → ℤ)).sum
  | .detokenize validatorAddress stakeAmount => Pi.single validatorAddress stakeAmount

/-- What the batch adds to all delegations together. -/
def total : IcaBatch → ℤ
  | .delegate callback => callback.amount
  | .undelegate callback => (callback.splitUndelegations.map fun u => -u.nativeTokenAmount).sum
  | .rebalance _ => 0
  | .detokenize _ stakeAmount => stakeAmount

/-- The amounts are those of coins. -/
def Valid : IcaBatch → Prop
  | .delegate callback => ∀ d ∈ callback.splitDelegations, 0 ≤ d.amount
  | .undelegate callback => ∀ u ∈ callback.splitUndelegations, 0 ≤ u.nativeTokenAmount
  | .rebalance rebalancings => ∀ r ∈ rebalancings, 0 ≤ r.amt
  | .detokenize _ stakeAmount => 0 ≤ stakeAmount

instance (b : IcaBatch) : Decidable b.Valid :=
  match b with
  | .delegate callback =>
    inferInstanceAs (Decidable (∀ d ∈ callback.splitDelegations, 0 ≤ d.amount))
  | .undelegate callback =>
    inferInstanceAs (Decidable (∀ u ∈ callback.splitUndelegations, 0 ≤ u.nativeTokenAmount))
  | .rebalance rebalancings => inferInstanceAs (Decidable (∀ r ∈ rebalancings, 0 ≤ r.amt))
  | .detokenize _ stakeAmount => inferInstanceAs (Decidable (0 ≤ stakeAmount))

/-- What the callback does to the host zone. -/
def callback (b : IcaBatch) (hostZone : HostZone) (status : AckStatus) : Result HostZone :=
  match b with
  | .delegate callback => delegateZone hostZone callback status
  | .undelegate callback => undelegateZone hostZone callback status
  | .rebalance rebalancings => rebalanceCallback hostZone rebalancings status
  | .detokenize validatorAddress stakeAmount =>
    detokenizeCallback hostZone validatorAddress stakeAmount status

/-- What the callback books after a success. -/
def book (b : IcaBatch) (hostZone : HostZone) : Result HostZone :=
  match b with
  | .delegate callback =>
    callback.splitDelegations.foldlM
      (fun z d => wrapError (addDelegationToValidator z d.validator d.amount)
        "Failed to add delegation to validator") hostZone
  | .undelegate callback => updateDelegationBalances hostZone callback
  | .rebalance rebalancings => rebalancings.foldlM applyRebalancing hostZone
  | .detokenize validatorAddress stakeAmount =>
    addDelegationToValidator hostZone validatorAddress stakeAmount

/-- The common form of the four callbacks. -/
theorem callback_eq (b : IcaBatch) (hostZone : HostZone) (status : AckStatus) :
    b.callback hostZone status = (do
      let hostZone ← b.validators.foldlM decrementValidatorDelegationChangesInProgress hostZone
      match status with
      | .success => b.book hostZone
      | _ => return hostZone) := by
  cases b with
  | detokenize validatorAddress stakeAmount =>
    have hloop : [validatorAddress].foldlM decrementValidatorDelegationChangesInProgress hostZone =
        decrementValidatorDelegationChangesInProgress hostZone validatorAddress := by simp
    rw [show (detokenize validatorAddress stakeAmount).validators = [validatorAddress] from rfl,
      hloop]
    rfl
  | _ => rfl

/-! ## What a callback does -/

private theorem addInAddrMap_eq {vals : List Validator} (hnd : (vals.map Validator.address).Nodup)
    (a : String) (n : ℤ) :
    addInAddrMap a n vals = modifyValidator a (Validator.adjust n 0) vals := by
  have hrev : (vals.reverse.map Validator.address).Nodup := by
    rw [map_reverse]
    exact nodup_reverse.mpr hnd
  unfold addInAddrMap
  rw [addDelegation_eq_adjust, modifyValidator_eq_map hrev, modifyValidator_eq_map hnd,
    map_reverse, reverse_reverse]

variable {status : AckStatus} {z z' : HostZone} {b : IcaBatch} {addresses : List String}
  {e : SdkError} {a : String}

section

variable (hnd : z.addresses.Nodup)

include hnd

private theorem applyRebalancing_ok {r : Rebalancing} (h : applyRebalancing z r = .ok z') :
    BookEffect z z' (Pi.single r.srcValidator (-r.amt) + Pi.single r.dstValidator r.amt) 0 0 := by
  unfold applyRebalancing at h
  split at h
  · cases h
  split at h
  · cases h
  have hsrc := bookEffect_adjustZone z r.srcValidator (-r.amt) 0 0
  have hdst := bookEffect_adjustZone (adjustZone z r.srcValidator (-r.amt) 0 0)
    r.dstValidator r.amt 0 0
  have hboth := hsrc.trans hdst
  have hnd' : ((modifyValidator r.srcValidator (Validator.adjust (-r.amt) 0)
      z.validators).map Validator.address).Nodup := (congrArg Nodup hsrc.addresses).mpr hnd
  rw [addInAddrMap_eq hnd, addInAddrMap_eq hnd'] at h
  cases h
  simpa [adjustZone] using hboth

private theorem book_ok (h : b.book z = .ok z') : BookEffect z z' b.delta b.total 0 := by
  cases b with
  | delegate callback =>
    have hadd := BookEffect.foldlM (c := fun _ => 0)
      (fun _ _ _ _ hs => addDelegationToValidator_ok (wrapError_eq_ok.mp hs)) h
    simpa [delta, total, delegationDelta, DelegateCallback.amount] using hadd
  | undelegate callback =>
    have hsub := BookEffect.foldlM (c := fun _ => 0)
      (fun _ _ _ _ hs => addDelegationToValidator_ok hs) h
    simpa [delta, total] using hsub
  | rebalance rebalancings =>
    have hmoves := BookEffect.foldlM (t := fun _ => 0) (c := fun _ => 0)
      (fun w r w' hw hs => applyRebalancing_ok (by rw [hw]; exact hnd) hs) h
    simpa [delta, total] using hmoves
  | detokenize validatorAddress stakeAmount => exact addDelegationToValidator_ok h

/-- **Callback**: the counters of the batch go down, and a success books its deltas. -/
theorem callback_ok (h : b.callback z status = .ok z') :
    BookEffect z z' (if status = .success then b.delta else 0)
      (if status = .success then b.total else 0) fun a => -(b.validators.count a : ℤ) := by
  rw [callback_eq] at h
  obtain ⟨z₁, hdec, h⟩ := bind_eq_ok.mp h
  have hcounters := foldlM_decrementValidatorDelegationChangesInProgress hdec
  cases status with
  | timeout =>
    cases h
    exact hcounters
  | failure =>
    cases h
    exact hcounters
  | success =>
    have hbook := book_ok (by rw [hcounters.addresses]; exact hnd) h
    simpa using hcounters.trans hbook

end

/-! ## When a callback goes through -/

section GoesThrough

variable {α : Type} {f : HostZone → α → Result HostZone} {address : α → String} {amount : α → ℤ}

variable {l : List α}

private theorem exists_foldlM_add
    (hf : ∀ z x z', addDelegationToValidator z (address x) (amount x) = .ok z' → f z x = .ok z')
    (hnn : ∀ x ∈ l, 0 ≤ amount x) (hmem : ∀ x ∈ l, address x ∈ z.addresses) :
    ∃ z', l.foldlM f z = .ok z' := by
  induction l generalizing z with
  | nil => exact ⟨z, rfl⟩
  | cons x l ih =>
    obtain ⟨hx, hnn'⟩ := forall_mem_cons.mp hnn
    obtain ⟨hxmem, hmem'⟩ := forall_mem_cons.mp hmem
    obtain ⟨hmissing, -⟩ | ⟨d, -, hneg, -⟩ | hok :=
      addDelegationToValidator_cases z (address x) (amount x)
    · exact absurd hxmem hmissing
    · omega
    · have heffect := addDelegationToValidator_ok hok
      obtain ⟨z', hz'⟩ := ih hnn' (by rw [heffect.addresses]; exact hmem')
      exact ⟨z', bind_eq_ok.mpr ⟨_, hf z x _ hok, hz'⟩⟩

private theorem sum_single_nonpos (address : α → String) (hnn : ∀ x ∈ l, amount x ≤ 0)
    (a : String) :
    (l.map fun x => (Pi.single (address x) (amount x) : String → ℤ)).sum a ≤ 0 := by
  induction l with
  | nil => exact le_rfl
  | cons x l ih =>
    obtain ⟨hx, hnn'⟩ := forall_mem_cons.mp hnn
    rw [map_cons, sum_cons, Pi.add_apply, Pi.single_apply]
    have hrest := ih hnn'
    split <;> omega

private theorem sum_map_single (hnd : addresses.Nodup) (ha : a ∈ addresses) (n : ℤ) :
    (addresses.map (Pi.single a n : String → ℤ)).sum = n := by
  have hzero : ∀ b, b ≠ a → b ∈ addresses → (Pi.single a n : String → ℤ) b = 0 :=
    fun b hb _ => by simp [hb]
  rw [sum_map_eq_nsmul_single a _ hzero, count_eq_one_of_mem hnd ha]
  simp

private theorem exists_foldlM_sub
    (hf : ∀ z x z', addDelegationToValidator z (address x) (amount x) = .ok z' → f z x = .ok z')
    (hnp : ∀ x ∈ l, amount x ≤ 0) (hnd : z.addresses.Nodup)
    (htotal : z.TotalConsistent) (hmem : ∀ x ∈ l, address x ∈ z.addresses)
    (hcover : ∀ a d, z.recorded a = some d →
      0 ≤ d + (l.map fun x => (Pi.single (address x) (amount x) : String → ℤ)).sum a) :
    ∃ z', l.foldlM f z = .ok z' := by
  induction l generalizing z with
  | nil => exact ⟨z, rfl⟩
  | cons x l ih =>
    obtain ⟨hx, hnp'⟩ := forall_mem_cons.mp hnp
    obtain ⟨hxmem, hmem'⟩ := forall_mem_cons.mp hmem
    have hrecorded (a : String) (d : ℤ) (hd : z.recorded a = some d) : 0 ≤ d := by
      have hle := hcover a d hd
      have hsum := sum_single_nonpos address hnp a
      omega
    obtain ⟨hmissing, -⟩ | ⟨d, hd, -, hshort, -⟩ | hok :=
      addDelegationToValidator_cases z (address x) (amount x)
    · exact absurd hxmem hmissing
    · -- the book covers this subtraction, and the total covers the book
      have hle := hcover (address x) d hd
      rw [map_cons, sum_cons, Pi.add_apply, Pi.single_eq_same] at hle
      have hrest := sum_single_nonpos address hnp' (address x)
      have htotal' := htotal.recorded_le hnd hrecorded hd
      omega
    · have heffect := addDelegationToValidator_ok hok
      have hnd' := hnd
      rw [← heffect.addresses] at hnd'
      obtain ⟨z', hz'⟩ := ih hnp' hnd'
        (heffect.totalConsistent hnd (sum_map_single hnd hxmem _) htotal)
        (by rw [heffect.addresses]; exact hmem')
        (fun a d hd => by
          rw [heffect.recorded] at hd
          obtain ⟨d₀, hd₀, rfl⟩ := Option.map_eq_some_iff.mp hd
          have hle := hcover a d₀ hd₀
          rw [map_cons, sum_cons, Pi.add_apply] at hle
          omega)
      exact ⟨z', bind_eq_ok.mpr ⟨_, hf z x _ hok, hz'⟩⟩

private theorem sum_map_add (addresses : List String) (d e : String → ℤ) :
    (addresses.map (d + e)).sum = (addresses.map d).sum + (addresses.map e).sum :=
  List.sum_map_add

private theorem sum_map_sum_single (hnd : addresses.Nodup) (hmem : ∀ x ∈ l, address x ∈ addresses) :
    (addresses.map (l.map fun x => (Pi.single (address x) (amount x) : String → ℤ)).sum).sum =
      (l.map amount).sum := by
  induction l with
  | nil => simp
  | cons x l ih =>
    obtain ⟨hx, hmem'⟩ := forall_mem_cons.mp hmem
    simp only [map_cons, sum_cons]
    rw [sum_map_add, sum_map_single hnd hx, ih hmem']

end GoesThrough

private theorem sum_single_of_notMem {α : Type} {address : α → String} {amount : α → ℤ} {l : List α}
    (h : ∀ x ∈ l, address x ≠ a) :
    (l.map fun x => (Pi.single (address x) (amount x) : String → ℤ)).sum a = 0 := by
  induction l with
  | nil => rfl
  | cons x l ih =>
    obtain ⟨hx, hl⟩ := forall_mem_cons.mp h
    rw [map_cons, sum_cons, Pi.add_apply, ih hl]
    simp [hx.symm]

theorem delta_of_notMem (h : a ∉ b.validators) : b.delta a = 0 := by
  have hne {α : Type} {address : α → String} {l : List α}
      (hsub : ∀ x ∈ l, address x ∈ b.validators) : ∀ x ∈ l, address x ≠ a := by
    intro x hx hxa
    exact h (hxa ▸ hsub x hx)
  cases b with
  | delegate callback => exact sum_single_of_notMem (hne fun d hd => mem_map_of_mem hd)
  | undelegate callback => exact sum_single_of_notMem (hne fun u hu => mem_map_of_mem hu)
  | rebalance rebalancings =>
    simp only [delta]
    rw [List.sum_map_add, Pi.add_apply,
      sum_single_of_notMem (hne fun r hr => mem_flatMap.mpr ⟨r, hr, by simp⟩),
      sum_single_of_notMem (hne fun r hr => mem_flatMap.mpr ⟨r, hr, by simp⟩), add_zero]
  | detokenize validatorAddress stakeAmount =>
    have hother : a ≠ validatorAddress := by simpa [validators] using h
    simp [delta, hother]

theorem sum_delta (hnd : addresses.Nodup) (hmem : ∀ a ∈ b.validators, a ∈ addresses) :
    (addresses.map b.delta).sum = b.total := by
  cases b with
  | delegate callback =>
    exact sum_map_sum_single hnd fun d hd => hmem _ (mem_map_of_mem hd)
  | undelegate callback =>
    exact sum_map_sum_single hnd fun u hu => hmem _ (mem_map_of_mem hu)
  | rebalance rebalancings =>
    have hparts : ∀ r ∈ rebalancings, r.srcValidator ∈ addresses ∧ r.dstValidator ∈ addresses := by
      intro r hr
      exact ⟨hmem _ (mem_flatMap.mpr ⟨r, hr, by simp⟩),
        hmem _ (mem_flatMap.mpr ⟨r, hr, by simp⟩)⟩
    simp only [delta, total]
    rw [List.sum_map_add, sum_map_add, sum_map_sum_single hnd fun r hr => (hparts r hr).1,
      sum_map_sum_single hnd fun r hr => (hparts r hr).2, ← List.sum_map_add]
    simp
  | detokenize validatorAddress stakeAmount =>
    exact sum_map_single hnd (hmem _ (by simp [validators])) stakeAmount

private theorem exists_decrement (hmem : ∀ a ∈ addresses, a ∈ z.addresses)
    (hcounters : ∀ a c, z.changesInProgress a = some c → (addresses.count a : ℤ) ≤ c) :
    ∃ z', addresses.foldlM decrementValidatorDelegationChangesInProgress z = .ok z' := by
  cases hdec : addresses.foldlM decrementValidatorDelegationChangesInProgress z with
  | ok z' => exact ⟨z', rfl⟩
  | error e =>
    obtain ⟨-, a, ha, hmissing⟩ :=
      foldlM_decrementValidatorDelegationChangesInProgress_error hcounters hdec
    exact absurd (hmem a ha) hmissing

private theorem exists_foldlM_applyRebalancing {rebalancings : List Rebalancing}
    (hnd : z.addresses.Nodup) (hmem : ∀ a ∈ rebalancedValidators rebalancings, a ∈ z.addresses) :
    ∃ z', rebalancings.foldlM applyRebalancing z = .ok z' := by
  induction rebalancings generalizing z with
  | nil => exact ⟨z, rfl⟩
  | cons r rebalancings ih =>
    have hsrc := hmem r.srcValidator (by simp [rebalancedValidators])
    have hdst := hmem r.dstValidator (by simp [rebalancedValidators])
    obtain ⟨z₁, hz₁⟩ : ∃ z₁, applyRebalancing z r = .ok z₁ := by
      unfold applyRebalancing
      rw [if_neg (not_not.mpr hsrc), if_neg (not_not.mpr hdst)]
      exact ⟨_, rfl⟩
    have heffect := applyRebalancing_ok hnd hz₁
    obtain ⟨z', hz'⟩ := ih (z := z₁) (by rw [heffect.addresses]; exact hnd) fun a ha => by
      rw [heffect.addresses]
      exact hmem a (mem_append_right _ ha)
    exact ⟨z', bind_eq_ok.mpr ⟨z₁, hz₁, hz'⟩⟩

section

variable (hvalid : b.Valid)
  (hnd : z.addresses.Nodup)
  (htotal : z.TotalConsistent)
  (hmem : ∀ a ∈ b.validators, a ∈ z.addresses)
include hvalid hnd htotal hmem

private theorem exists_book
    (hcover : ∀ a d, z.recorded a = some d → 0 ≤ d + b.delta a) : ∃ z', b.book z = .ok z' := by
  cases b with
  | delegate callback =>
    exact exists_foldlM_add (fun z d z' h => wrapError_eq_ok.mpr h) hvalid
      fun d hd => hmem _ (mem_map_of_mem hd)
  | undelegate callback =>
    exact exists_foldlM_sub (fun z u z' h => h)
      (fun u hu => neg_nonpos.mpr (hvalid u hu)) hnd htotal
      (fun u hu => hmem _ (mem_map_of_mem hu)) hcover
  | rebalance rebalancings => exact exists_foldlM_applyRebalancing hnd hmem
  | detokenize validatorAddress stakeAmount =>
    obtain ⟨hmissing, -⟩ | ⟨d, -, hneg, -⟩ | hok :=
      addDelegationToValidator_cases z validatorAddress stakeAmount
    · exact absurd (hmem validatorAddress (by simp [validators])) hmissing
    · exact absurd hvalid (not_le.mpr hneg)
    · exact ⟨_, hok⟩

/-- **No error**: a callback goes through if the validators count the batch and, after a
    success, the book covers its deltas. -/
theorem exists_callback
    (hcounters : ∀ a c, z.changesInProgress a = some c → (b.validators.count a : ℤ) ≤ c)
    (hcover : status = .success → ∀ a d, z.recorded a = some d → 0 ≤ d + b.delta a) :
    ∃ z', b.callback z status = .ok z' := by
  obtain ⟨z₁, hdec⟩ := exists_decrement hmem hcounters
  have heffect := foldlM_decrementValidatorDelegationChangesInProgress hdec
  rw [callback_eq]
  cases status with
  | success =>
    have hnd₁ : z₁.addresses.Nodup := by
      rw [heffect.addresses]
      exact hnd
    have htotal₁ := heffect.totalConsistent hnd (by simp) htotal
    obtain ⟨z', hz'⟩ := exists_book hvalid hnd₁ htotal₁
      (by rw [heffect.addresses]; exact hmem) (fun a d hd => by
        rw [heffect.recorded] at hd
        obtain ⟨d₀, hd₀, rfl⟩ := Option.map_eq_some_iff.mp hd
        simpa using hcover rfl a d₀ hd₀)
    exact ⟨z', bind_eq_ok.mpr ⟨z₁, hdec, hz'⟩⟩
  | _ => exact ⟨z₁, bind_eq_ok.mpr ⟨z₁, hdec, rfl⟩⟩

end

/-! ## How a callback fails -/

private theorem code_addDelegationToValidator_of_mem {n : ℤ}
    (ha : a ∈ z.addresses) (h : addDelegationToValidator z a n = .error e) :
    e.code = .errValidatorDelegationChg := by
  obtain ⟨hmissing, -⟩ | ⟨d, -, -, -, message, herr⟩ | hok :=
    addDelegationToValidator_cases z a n
  · exact absurd ha hmissing
  · rw [herr] at h
    cases h
    rfl
  · rw [hok] at h
    cases h

private theorem code_foldlM_add_of_mem {α : Type} {address : α → String} {amount : α → ℤ}
    {f : HostZone → α → Result HostZone}
    (hok : ∀ z x z', f z x = .ok z' → addDelegationToValidator z (address x) (amount x) = .ok z')
    (herr : ∀ z x e, f z x = .error e →
      ∃ e', addDelegationToValidator z (address x) (amount x) = .error e' ∧ e.code = e'.code)
    {l : List α} (hmem : ∀ x ∈ l, address x ∈ z.addresses)
    (h : l.foldlM f z = .error e) : e.code = .errValidatorDelegationChg := by
  induction l generalizing z with
  | nil => cases h
  | cons x l ih =>
    obtain ⟨hx, hmem'⟩ := forall_mem_cons.mp hmem
    rw [foldlM_cons] at h
    cases hfx : f z x with
    | error err =>
      rw [hfx] at h
      cases h
      obtain ⟨e', he', hcode⟩ := herr z x _ hfx
      rw [hcode]
      exact code_addDelegationToValidator_of_mem hx he'
    | ok z₁ =>
      rw [hfx] at h
      have heffect := addDelegationToValidator_ok (hok z x z₁ hfx)
      exact ih (by rw [heffect.addresses]; exact hmem') h

/-- **The only error**: a callback whose validators are known and count the batch fails at
    most because a delegation does not cover a change. -/
theorem callback_error (hnd : z.addresses.Nodup) (hmem : ∀ a ∈ b.validators, a ∈ z.addresses)
    (hcounters : ∀ a c, z.changesInProgress a = some c → (b.validators.count a : ℤ) ≤ c)
    (h : b.callback z status = .error e) : e.code = .errValidatorDelegationChg := by
  obtain ⟨z₁, hdec⟩ := exists_decrement hmem hcounters
  have heffect := foldlM_decrementValidatorDelegationChangesInProgress hdec
  rw [callback_eq, hdec] at h
  rw [← heffect.addresses] at hmem
  cases status with
  | timeout => cases h
  | failure => cases h
  | success =>
    cases b with
    | delegate callback =>
      refine code_foldlM_add_of_mem (fun z d z' hs => wrapError_eq_ok.mp hs) ?_
        (fun d hd => hmem _ (mem_map_of_mem hd)) h
      intro z d err hs
      cases hadd : addDelegationToValidator z d.validator d.amount with
      | ok z' =>
        rw [hadd] at hs
        cases hs
      | error e' =>
        rw [hadd] at hs
        cases hs
        exact ⟨e', rfl, rfl⟩
    | undelegate callback =>
      exact code_foldlM_add_of_mem (fun _ _ _ hs => hs) (fun _ _ err hs => ⟨err, hs, rfl⟩)
        (fun u hu => hmem _ (mem_map_of_mem hu)) h
    | rebalance rebalancings =>
      -- a rebalancing of known validators does not fail
      obtain ⟨z', hz'⟩ := exists_foldlM_applyRebalancing
        (by rw [heffect.addresses]; exact hnd) hmem
      cases hz'.symm.trans h
    | detokenize validatorAddress stakeAmount =>
      exact code_addDelegationToValidator_of_mem (hmem _ (by simp [validators])) h

end IcaBatch

end Stride.Stakeibc
