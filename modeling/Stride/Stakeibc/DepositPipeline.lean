import Stride.Stakeibc.DelegationOnce
import Stride.Stakeibc.DepositTransfer
import Stride.Stakeibc.RedemptionRate

/-!
# The Way of a Deposit

A deposit goes from a liquid stake over an IBC transfer to the delegation on the host. The
system of this module has all of it: liquid stakes, new epochs, transfers and their callbacks,
and the delegation flow of `DelegationSystem`.

A transfer is answered at most once, and the transfer module returns the coins of a transfer that
fails or times out. Channels of the delegation accounts open and close at any time.

## Main results

- `DelegationSystem.DepositsInv`
- `stakeEffect_stake`, `Acked.sum_values`: what the delegation flow does to totals over the
  deposit records
-/

namespace Stride.Stakeibc

open Lib Sdk Records KeyedStore

/-! ## System -/

structure DepositSystem where
  flow : DelegationSystem
  params : SafetyParams
  settings : String → ZoneSettings
  /-- the epoch number of the tracker of the stride epoch, if there is one -/
  strideEpoch : Option ℕ
  bank : Bank
  /-- transfers without an answer -/
  transfers : List NativeTransfer

inductive DepositEvent where
  | liquidStake (msg : MsgLiquidStake)
  | startEpoch (epochNumber : ℕ)
  /-- the transfer module refuses some records, and fails at others after it took the coins -/
  | transfer (epochNumber : ℕ) (refused failed : List ℕ)
  | transferAck (i : ℕ) (status : AckStatus)
  | stake (epochNumber : ℕ) (rejected : List (ℕ × ℕ))
  | delegateAck (i : ℕ) (status : AckStatus)
  | channel (chainId : String) (isOpen : Bool)
  deriving DecidableEq

/-- The reply of the transfer module for a record. -/
def transferReply (refused failed : List ℕ) (id : ℕ) : TransferReply :=
  if id ∈ failed then .failed else if id ∈ refused then .refused else .sent

/-- The flow with other deposit records. -/
def DelegationSystem.withDeposits (f : DelegationSystem) (records : DepositRecordStore) :
    DelegationSystem :=
  { f with keeper := { f.keeper with depositRecords := records } }

namespace DepositSystem

def hostZones (s : DepositSystem) : HostZoneStore := s.flow.keeper.hostZones

def records (s : DepositSystem) (id : ℕ) : Option DepositRecord := s.flow.records id

/-- The address belongs to the deposit account of a zone. -/
def IsDepositAccount (s : DepositSystem) (address : String) : Prop :=
  ∃ z ∈ s.hostZones.values, (s.settings z.chainId).depositAddress = address

instance (s : DepositSystem) (address : String) : Decidable (s.IsDepositAccount address) :=
  inferInstanceAs (Decidable (∃ z ∈ s.hostZones.values, _))

/-- What liquid stakes see of the system. -/
def liquidStakeKeeper (s : DepositSystem) : LiquidStakeKeeper where
  params := s.params
  hostZones := s.hostZones
  settings := s.settings
  strideEpoch := s.strideEpoch
  depositRecords := s.flow.keeper.depositRecords
  bank := s.bank

/-- What transfers see of the system. -/
def transferKeeper (s : DepositSystem) : TransferKeeper where
  hostZones := s.hostZones
  settings := s.settings
  depositRecords := s.flow.keeper.depositRecords
  bank := s.bank

/-- The system after a function that sent `transfers`. -/
def afterTransfers (s : DepositSystem) (k : TransferKeeper) (transfers : List NativeTransfer) :
    DepositSystem :=
  { s with
    flow := s.flow.withDeposits k.depositRecords
    bank := k.bank
    transfers := s.transfers ++ transfers }

/-- One event, or `none` if it cannot happen. A failed transaction changes nothing, and a deposit
    account, which belongs to the module, does not sign. -/
def step (s : DepositSystem) : DepositEvent → Option DepositSystem
  | .liquidStake msg =>
    if s.IsDepositAccount msg.creator then none
    else
      (liquidStake s.liquidStakeKeeper msg).toOption.map fun (k, _) =>
        { s with flow := s.flow.withDeposits k.depositRecords, bank := k.bank }
  | .startEpoch epochNumber =>
    some { s with
      strideEpoch := some epochNumber
      flow := { s.flow with keeper := createDepositRecordsForEpoch s.flow.keeper epochNumber } }
  | .transfer epochNumber refused failed =>
    let (k, transfers) := transferExistingDepositsToHostZones s.transferKeeper epochNumber
      (transferReply refused failed)
    some (s.afterTransfers k transfers)
  | .transferAck i status =>
    match s.transfers[i]? with
    | none => none
    | some t =>
      (transferCallback s.flow.keeper.depositRecords t.depositRecordId status).toOption.map
        fun records =>
          { s with
            flow := s.flow.withDeposits records
            bank :=
              if status = .success then s.bank else s.bank.addCoins t.msg.sender t.msg.token
            transfers := s.transfers.eraseIdx i }
  | .stake epochNumber rejected => some { s with flow := s.flow.stake epochNumber rejected }
  | .delegateAck i status => (s.flow.acknowledge i status).map fun f => { s with flow := f }
  | .channel chainId isOpen =>
    some { s with flow :=
      { s.flow with isOpen := Function.update s.flow.isOpen chainId isOpen } }

end DepositSystem

/-! ## Changes of deposit records before the delegation -/

variable {r' : DepositRecord} {f : DelegationSystem} {z z' : HostZone} {callback : DelegateCallback}
  {status : AckStatus}

namespace DepositsChange

variable {k : DelegationKeeper}

/-- A record that is not on the host is rewritten. -/
theorem set {r : DepositRecord} (hr : k.depositRecords.get? r.id = some r) (hhost : ¬ r.onHost)
    (hid : r'.id = r.id) (hzone : r'.hostZoneId = r.hostZoneId)
    (hcounter : r'.delegationTxsInProgress = r.delegationTxsInProgress) :
    DepositsChange k { k with depositRecords := k.depositRecords.set r' } where
  count := le_rfl
  kept id q q' hq hq' := by
    rw [get?_set, hid] at hq'
    split at hq'
    · rename_i heq
      cases hq'
      rw [heq, hr] at hq
      cases hq
      exact ⟨hzone, hcounter, fun hon => absurd hon hhost⟩
    · rw [hq] at hq'
      cases hq'
      exact ⟨rfl, rfl, fun _ => rfl⟩
  appended id q' hnone hq' := by
    rw [get?_set, hid] at hq'
    split at hq'
    · rename_i heq
      rw [heq, hr] at hnone
      cases hnone
    · rw [hnone] at hq'
      cases hq'

theorem delete (id : ℕ) :
    DepositsChange k { k with depositRecords := k.depositRecords.delete id } where
  count := le_rfl
  kept id' q q' hq hq' := by
    rw [get?_delete] at hq'
    split at hq'
    · cases hq'
    rw [hq] at hq'
    cases hq'
    exact ⟨rfl, rfl, fun _ => rfl⟩
  appended id' q' hnone hq' := by
    rw [get?_delete] at hq'
    split at hq'
    · cases hq'
    rw [hnone] at hq'
    cases hq'

theorem append (hids : k.IdsBelowCount) (epochNumber : ℕ) (z : HostZone) :
    DepositsChange k (appendDepositRecord epochNumber k z) where
  count := Nat.le_succ _
  kept id q q' hq hq' := by
    have hne : id ≠ (emptyDepositRecord epochNumber k.depositRecordCount z).id := (hids id q hq).ne
    replace hq' := (get?_set ..).symm.trans hq'
    rw [if_neg hne, hq] at hq'
    cases hq'
    exact ⟨rfl, rfl, fun _ => rfl⟩
  appended id q' hnone hq' := by
    replace hq' := (get?_set ..).symm.trans hq'
    split at hq'
    · rename_i heq
      cases hq'
      exact ⟨heq.ge, heq ▸ Nat.lt_succ_self _, rfl⟩
    · rw [hnone] at hq'
      cases hq'

end DepositsChange

/-! ## The invariant of the records -/

namespace DelegationSystem

/-- Amounts are not negative and cover what is on its way. Nothing is on its way for a record
    that has not reached the host. -/
structure DepositsInv (f : DelegationSystem) : Prop where
  once : f.OnceInv
  early : ∀ id r, f.records id = some r → ¬ r.onHost → r.delegationTxsInProgress = 0
  nonneg : ∀ id r, f.records id = some r → 0 ≤ r.amount
  within : ∀ id r, f.records id = some r → r.onHost → f.amountWith id none ≤ r.amount

private theorem OnceInv.amountWith_nonneg (h : f.OnceInv) (id : ℕ) (outcome : Option AckStatus) :
    0 ≤ f.amountWith id outcome := by
  apply sum_map_nonneg
  intro p hp
  split
  · exact h.nonneg p hp
  · exact le_rfl

variable {f' : DelegationSystem}

theorem StartedClean.depositsInv (h : f.StartedClean)
    (hnonneg : ∀ id r, f.records id = some r → 0 ≤ r.amount) : f.DepositsInv where
  once := h.onceInv
  early id r hr _ := h.started.counters id r hr
  nonneg := hnonneg
  within id r hr _ := by
    rw [h.onceInv.amountWith_none_eq_zero hr (h.started.counters id r hr)]
    exact hnonneg id r hr

variable {k : DelegationKeeper} {r : DepositRecord}

/-- **Before the delegation**: a change of the records keeps the invariant if what it writes is
    not negative and has nothing on its way. -/
theorem DepositsInv.change (h : f.DepositsInv) (hchange : DepositsChange f.keeper k)
    (hzones : k.hostZones = f.keeper.hostZones)
    (hwritten : ∀ id r, k.depositRecords.get? id = some r →
      f.records id = some r ∨ 0 ≤ r.amount ∧ r.delegationTxsInProgress = 0) :
    DepositsInv { f with keeper := k } := by
  have hall : f.WholeSubmissions (.environment k) :=
    ⟨hchange, fun c z hz => h.once.changes c z (hzones ▸ hz)⟩
  have honce : OnceInv { f with keeper := k } := h.once.step hall rfl
  refine ⟨honce, fun id r hr hhost => ?_, fun id r hr => ?_, fun id r hr hhost => ?_⟩
  · rcases hwritten id r hr with hold | hnew
    · exact h.early id r hold hhost
    · exact hnew.2
  · rcases hwritten id r hr with hold | hnew
    · exact h.nonneg id r hold
    · exact hnew.1
  · rcases hwritten id r hr with hold | hnew
    · exact h.within id r hold hhost
    · rw [honce.amountWith_none_eq_zero hr hnew.2]
      exact hnew.1

private theorem DepositsInv.delegatedWithin (h : f.DepositsInv) {id : ℕ}
    (hr : f.records id = some r) (hhost : r.onHost) :
    DelegatedWithin id (f.amountWith id (some .success) + r.amount) f := by
  have hle := h.within id r hr hhost
  refine ⟨h.once.counter.ids id r hr, fun q hq => ?_, ?_⟩
  · rw [hr] at hq
    cases hq
    exact ⟨hhost, rfl, hle⟩
  · unfold delegated
    omega

/-- **Delegation**: events of the flow keep the invariant if they only touch records on the
    host. -/
theorem DepositsInv.delegation (h : f.DepositsInv) {l : DelegationEvent}
    (hok : f.WholeSubmissions l) (hs : f.step l = some f')
    (htouch : ∀ id, f'.records id = f.records id ∨ ∃ r, f.records id = some r ∧ r.onHost) :
    f'.DepositsInv := by
  have honce := h.once.step hok hs
  -- a record after the event is an earlier one that has not reached the host, or one on the
  -- host within its bound
  have hrecord (id : ℕ) (r' : DepositRecord) (hr' : f'.records id = some r') :
      (f.records id = some r' ∧ ¬ r'.onHost) ∨ r'.onHost ∧ f'.amountWith id none ≤ r'.amount := by
    have hhosted (r : DepositRecord) (hr : f.records id = some r) (hhost : r.onHost) :
        r'.onHost ∧ f'.amountWith id none ≤ r'.amount := by
      obtain ⟨hhost', -, hle⟩ :=
        ((h.delegatedWithin hr hhost).step h.once hok hs).stored r' hr'
      exact ⟨hhost', hle⟩
    rcases htouch id with hsame | ⟨r, hr, hhost⟩
    · rw [hr'] at hsame
      by_cases hhost : r'.onHost
      · exact .inr (hhosted r' hsame.symm hhost)
      · exact .inl ⟨hsame.symm, hhost⟩
    · exact .inr (hhosted r hr hhost)
  refine ⟨honce, fun id r hr hhost => ?_, fun id r hr => ?_, fun id r hr hhost => ?_⟩
  · rcases hrecord id r hr with ⟨hold, -⟩ | ⟨hon, -⟩
    · exact h.early id r hold hhost
    · exact absurd hon hhost
  · rcases hrecord id r hr with ⟨hold, -⟩ | ⟨-, hle⟩
    · exact h.nonneg id r hold
    · exact (honce.amountWith_nonneg id none).trans hle
  · rcases hrecord id r hr with ⟨-, hnot⟩ | ⟨-, hle⟩
    · exact absurd hhost hnot
    · exact hle

/-! ## Totals over the delegation flow -/

def totalOf (f : DelegationSystem) (c : String) : Option ℤ :=
  (f.keeper.hostZones.get? c).map HostZone.totalDelegations

/-- What staking does to the records: those that it sends stay what they were, apart from
    status and counter. -/
structure StakeEffect (f f' : DelegationSystem) : Prop where
  records : ∀ id, f'.records id = f.records id ∨
    ∃ r r', f.records id = some r ∧ r.onHost ∧ f'.records id = some r' ∧ r'.amount = r.amount
  sums : ∀ g : DepositRecord → ℤ,
    (∀ n r, r.status = .delegationQueue → g (stakedRecord n r) = g r) →
      (f'.keeper.depositRecords.values.map g).sum = (f.keeper.depositRecords.values.map g).sum
  totals : ∀ c, f'.totalOf c = f.totalOf c

private theorem StakeEffect.refl (f : DelegationSystem) : StakeEffect f f :=
  ⟨fun _ => .inl rfl, fun _ _ => rfl, fun _ => rfl⟩

private theorem StakeEffect.sendAll {t : DelegationSystem} (h : StakeEffect f t)
    {txs : List DelegateTx} (hstaked : Staked t.keeper k r z z' txs) (hr : t.Stakeable r) :
    StakeEffect f (t.sendAll k txs) := by
  refine ⟨fun id => ?_, fun g hg => ?_, fun c => ?_⟩
  · have hafter : (t.sendAll k txs).records id =
        if id = r.id then some (stakedRecord txs.length r) else t.records id := by
      show k.depositRecords.get? id = _
      rw [hstaked.depositRecords, get?_set]
      rfl
    rw [hafter]
    split
    · rename_i hid
      subst hid
      rcases h.records r.id with hsame | ⟨q, q', hq, hhost, hq', hamount⟩
      · rw [hr.stored] at hsame
        exact .inr ⟨r, _, hsame.symm, .inl hr.status, rfl, rfl⟩
      · rw [hr.stored] at hq'
        cases hq'
        exact .inr ⟨q, _, hq, hhost, rfl, hamount⟩
    · exact h.records id
  · rw [← h.sums g hg]
    show (k.depositRecords.values.map g).sum = _
    have hstored : t.keeper.depositRecords.get? (stakedRecord txs.length r).id = some r := hr.stored
    rw [hstaked.depositRecords, sum_values_set, hstored, Option.elim_some,
      hg _ r hr.status, sub_add_cancel]
  · rw [← h.totals c]
    show (k.hostZones.get? c).map _ = (t.keeper.hostZones.get? c).map _
    rw [hstaked.hostZones]
    split
    · rename_i hc
      rw [hc, hstaked.found, Option.map_some, Option.map_some, hstaked.effect.total, add_zero]
    · rfl

/-- What staking does to totals over the records. -/
theorem stakeEffect_stake {rejected : List (ℕ × ℕ)} (hfirst : FailsFirst rejected)
    (epochNumber : ℕ) : StakeEffect f (f.stake epochNumber rejected) := by
  refine stake_rule (P := StakeEffect f) (fun t r ht _ _ hr => ?_) (.refl f)
  obtain hsame | ⟨k, txs, z, z', hstaked, heq⟩ := stakeOne_cases (s := t) hfirst r
  · rw [hsame]
    exact ht
  · rw [heq]
    exact ht.sendAll hstaked hr

end DelegationSystem

private theorem id_of_ackedRecord {r : DepositRecord}
    (h : ackedRecord callback status r = some r') :
    r'.id = r.id := by
  unfold ackedRecord at h
  cases status with
  | timeout =>
    cases h
    rfl
  | failure =>
    cases h
    rfl
  | success =>
    dsimp only at h
    split at h
    · cases h
    cases h
    rfl

section Acknowledgements

variable {k k' : DelegationKeeper} {r : DepositRecord}

/-- What a callback does to totals over the records. -/
theorem Acked.sum_values (h : Acked k k' callback status r z z') (g : DepositRecord → ℤ) :
    (k'.depositRecords.values.map g).sum =
      (k.depositRecords.values.map g).sum - g r + (ackedRecord callback status r).elim 0 g := by
  have hid : r.id = callback.depositRecordId := key_of_get? h.foundRecord
  cases hafter : ackedRecord callback status r with
  | none =>
    have hrecords : k'.depositRecords = k.depositRecords.delete callback.depositRecordId := by
      apply ext_get?
      intro id
      rw [h.depositRecords, get?_delete, hafter]
    rw [hrecords, sum_values_delete, h.foundRecord, Option.elim_some,
      Option.elim_none, add_zero]
  | some r' =>
    have hid' : r'.id = callback.depositRecordId := (id_of_ackedRecord hafter).trans hid
    have hrecords : k'.depositRecords = k.depositRecords.set r' := by
      apply ext_get?
      intro id
      rw [h.depositRecords, get?_set, hafter, hid']
    rw [hrecords, sum_values_set, hid', h.foundRecord, Option.elim_some,
      Option.elim_some]

def delegatedAmount (callback : DelegateCallback) (status : AckStatus) : ℤ :=
  if status = .success then callback.amount else 0

theorem amount_ackedRecord (callback : DelegateCallback) (status : AckStatus) (r : DepositRecord)
    (c : String) :
    (ackedRecord callback status r).elim 0 (zoneAmount c) =
      zoneAmount c r - if r.hostZoneId = c then delegatedAmount callback status else 0 := by
  unfold ackedRecord delegatedAmount zoneAmount
  cases status with
  | timeout => simp
  | failure => simp
  | success =>
    dsimp only
    split
    · rename_i hzero
      split
      · exact hzero.symm
      · rfl
    · simp only [Option.elim_some, if_true]
      split
      · rfl
      · rfl

theorem Acked.totalDelegations (h : Acked k k' callback status r z z') (c : String) :
    (k'.hostZones.get? c).map HostZone.totalDelegations =
      (k.hostZones.get? c).map fun w => w.totalDelegations +
        if callback.hostZoneId = c then delegatedAmount callback status else 0 := by
  rw [h.hostZones]
  split
  · rename_i hc
    rw [hc, h.foundZone, Option.map_some, if_pos rfl, (delegateZone_ok h.zone).total]
    rfl
  · rename_i hc
    simp [Ne.symm hc]

end Acknowledgements

end Stride.Stakeibc
