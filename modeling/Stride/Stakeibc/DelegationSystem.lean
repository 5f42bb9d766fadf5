import Stride.Lib.Runs
import Stride.Stakeibc.DelegateCallback

/-!
# The Delegation of Deposits as a System

The keepers together with every delegate transaction that was sent, and the channels of the
delegation accounts. A channel is ordered: a timeout closes it, and a new channel takes its
place when the account is restored. Transactions of a closed channel are not acknowledged
any more, but their timeout may still be delivered.

A callback that returns an error aborts the transaction that delivers the packet, so it is
not a step.
-/

namespace Stride.Stakeibc

open Lib Sdk Records KeyedStore Function List

/-! ## State -/

/-- A transaction that was sent, the channel it was sent on, and how it ended. -/
structure SentDelegation where
  tx : DelegateTx
  channel : ℕ
  outcome : Option AckStatus
  deriving DecidableEq

namespace SentDelegation

def recordId (p : SentDelegation) : ℕ := p.tx.callback.depositRecordId

def zone (p : SentDelegation) : String := p.tx.callback.hostZoneId

def amount (p : SentDelegation) : ℤ := p.tx.callback.amount

end SentDelegation

/-- The keepers, the transactions, and the latest channel to each zone. -/
structure DelegationSystem where
  keeper : DelegationKeeper
  channel : String → ℕ
  isOpen : String → Bool
  sent : List SentDelegation

inductive DelegationEvent where
  /-- `StakeExistingDepositsOnHostZones`, where the ICA controller rejects the listed pairs
      of a record and a batch. -/
  | stake (epochNumber : ℕ) (rejected : List (ℕ × ℕ))
  /-- The acknowledgement or timeout of the transaction at index `i`. -/
  | ack (i : ℕ) (status : AckStatus)
  /-- The channel to a zone is closed, by a timeout of another packet. -/
  | closeChannel (chainId : String)
  /-- `RestoreInterchainAccount`. -/
  | restore (chainId : String)
  /-- Anything else the chain does. -/
  | environment (k : DelegationKeeper)

namespace DelegationSystem

def records (s : DelegationSystem) (id : ℕ) : Option DepositRecord :=
  s.keeper.depositRecords.get? id

/-- The transaction was sent on the latest channel of its zone. -/
def OnLatestChannel (s : DelegationSystem) (p : SentDelegation) : Prop :=
  p.channel = s.channel p.zone

instance (s : DelegationSystem) (p : SentDelegation) : Decidable (s.OnLatestChannel p) :=
  inferInstanceAs (Decidable (p.channel = s.channel p.zone))

/-- The transactions of a record that were sent on the latest channel and not yet
    acknowledged or timed out. -/
def outstanding (s : DelegationSystem) (id : ℕ) : ℕ :=
  s.sent.countP fun p => p.recordId = id ∧ s.OnLatestChannel p ∧ p.outcome = none

/-! ## Steps -/

/-- The submissions of a record that the ICA controller accepts. -/
def submitTxs (s : DelegationSystem) (rejected : List (ℕ × ℕ)) (r : DepositRecord) (batch : ℕ) :
    Bool :=
  s.isOpen r.hostZoneId && (r.id, batch) ∉ rejected

/-- A transaction goes out on the latest channel of its zone. -/
def send (s : DelegationSystem) (tx : DelegateTx) : SentDelegation :=
  ⟨tx, s.channel tx.callback.hostZoneId, none⟩

/-- The system after a keeper function sent `txs`. -/
def sendAll (s : DelegationSystem) (k : DelegationKeeper) (txs : List DelegateTx) :
    DelegationSystem :=
  { s with keeper := k, sent := s.sent ++ txs.map s.send }

/-- The epoch step. -/
def stake (s : DelegationSystem) (epochNumber : ℕ) (rejected : List (ℕ × ℕ)) :
    DelegationSystem :=
  let (k, txs) := stakeExistingDepositsOnHostZones s.keeper epochNumber (s.submitTxs rejected)
  s.sendAll k txs

/-- The acknowledgement or timeout of the transaction at index `i`. -/
def acknowledge (s : DelegationSystem) (i : ℕ) (status : AckStatus) : Option DelegationSystem :=
  match s.sent[i]? with
  | none => none
  | some p =>
    if p.outcome ≠ none then none
    else if status ≠ .timeout ∧ ¬ (s.OnLatestChannel p ∧ s.isOpen p.zone) then none
    else
      match delegateCallback s.keeper p.tx.callback status with
      | .error _ => none
      | .ok k => some { s with
          keeper := k
          sent := s.sent.set i { p with outcome := some status }
          isOpen :=
            -- an ordered channel does not survive a timeout
            if status = .timeout ∧ s.OnLatestChannel p then update s.isOpen p.zone false
            else s.isOpen }

/-- The state after an event, or `none` if the event cannot happen. -/
def step (s : DelegationSystem) : DelegationEvent → Option DelegationSystem
  | .stake epochNumber rejected => some (s.stake epochNumber rejected)
  | .ack i status => s.acknowledge i status
  | .closeChannel chainId => some { s with isOpen := update s.isOpen chainId false }
  | .restore chainId =>
    if s.isOpen chainId then none
    else
      match restoreInterchainAccount s.keeper chainId with
      | .error _ => none
      | .ok k => some { s with
          keeper := k
          channel := update s.channel chainId (s.channel chainId + 1)
          isOpen := update s.isOpen chainId true }
  | .environment k => some { s with keeper := k }

end DelegationSystem

/-! ## The environment -/

/-- What the rest of the chain may do to deposit records: it appends new ones, moves a
    record through the transfer to the host, and removes records. It writes neither the
    counter nor a record that has reached the delegation account. -/
structure DepositsChange (k k' : DelegationKeeper) : Prop where
  count : k.depositRecordCount ≤ k'.depositRecordCount
  kept : ∀ id r r', k.depositRecords.get? id = some r → k'.depositRecords.get? id = some r' →
    r'.hostZoneId = r.hostZoneId ∧ r'.delegationTxsInProgress = r.delegationTxsInProgress ∧
      (r.status = .delegationQueue ∨ r.status = .delegationInProgress → r' = r)
  appended : ∀ id r', k.depositRecords.get? id = none → k'.depositRecords.get? id = some r' →
    k.depositRecordCount ≤ id ∧ id < k'.depositRecordCount ∧ r'.delegationTxsInProgress = 0

/-- A chain on which no delegation was sent yet. -/
structure DelegationSystem.Started (s : DelegationSystem) : Prop where
  sent : s.sent = []
  ids : s.keeper.IdsBelowCount
  counters : ∀ id r, s.records id = some r → r.delegationTxsInProgress = 0

/-! ## The staking loop -/

variable {r : DepositRecord} {id : ℕ}

private theorem get?_stakeDepositRecord_of_ne (k : DelegationKeeper) (submitTxs : ℕ → Bool)
    (r : DepositRecord) (hid : id ≠ r.id) :
    (stakeDepositRecord k submitTxs r).1.depositRecords.get? id = k.depositRecords.get? id := by
  unfold stakeDepositRecord
  split
  · rfl
  · split
    · rfl
    · split
      · rfl
      · split
        · rfl
        · split
          · rfl
          · rw [get?_set]
            exact if_neg hid

namespace DelegationSystem

def stakeOne (s : DelegationSystem) (rejected : List (ℕ × ℕ)) (r : DepositRecord) :
    DelegationSystem :=
  let (k, txs) := stakeDepositRecord s.keeper (s.submitTxs rejected r) r
  s.sendAll k txs

private theorem foldl_stakeOne (s : DelegationSystem) (rejected : List (ℕ × ℕ))
    (rs : List DepositRecord) (k : DelegationKeeper) (txs : List DelegateTx) :
    rs.foldl (fun t r => t.stakeOne rejected r) (s.sendAll k txs) =
      let out := rs.foldl
        (fun (k, sent) r =>
          let (k, txs) := stakeDepositRecord k (s.submitTxs rejected r) r
          (k, sent ++ txs)) (k, txs)
      s.sendAll out.1 out.2 := by
  induction rs generalizing k txs with
  | nil => rfl
  | cons r rs ih =>
    rw [foldl_cons, foldl_cons, ← ih]
    unfold sendAll
    rw [map_append, ← append_assoc]
    rfl

private theorem stake_eq_foldl (s : DelegationSystem) (epochNumber : ℕ) (rejected : List (ℕ × ℕ)) :
    s.stake epochNumber rejected =
      (stakeDepositRecords s.keeper epochNumber).foldl (fun t r => t.stakeOne rejected r) s := by
  have h := foldl_stakeOne s rejected (stakeDepositRecords s.keeper epochNumber) s.keeper []
  have hnil : s.sendAll s.keeper [] = s := by simp [sendAll]
  rw [hnil] at h
  rw [h]
  rfl

/-- What a record must be like to be staked. -/
structure Stakeable (s : DelegationSystem) (r : DepositRecord) : Prop where
  stored : s.records r.id = some r
  status : r.status = .delegationQueue
  counter : r.delegationTxsInProgress = 0

variable {s : DelegationSystem} {rejected : List (ℕ × ℕ)} {epochNumber : ℕ}

theorem stakeable_of_mem (h : r ∈ stakeDepositRecords s.keeper epochNumber) : s.Stakeable r := by
  obtain ⟨hmem, hprop⟩ := mem_filter.mp h
  obtain ⟨hstatus, -, hcounter⟩ := of_decide_eq_true hprop
  exact ⟨mem_values_iff.mp hmem, hstatus, hcounter⟩

/-- **Loop rule**: what staking one record keeps, the epoch step keeps. The records of the
    loop are read before it starts, and each of them is still as it was when its turn
    comes. -/
theorem stake_rule {P : DelegationSystem → Prop}
    (hone : ∀ t r, P t → t.channel = s.channel → t.isOpen = s.isOpen → t.Stakeable r →
      P (t.stakeOne rejected r)) (hs : P s) : P (s.stake epochNumber rejected) := by
  rw [stake_eq_foldl]
  have hnodup : ((stakeDepositRecords s.keeper epochNumber).map DepositRecord.id).Nodup :=
    (nodup_map_key_values s.keeper.depositRecords).sublist
      (filter_sublist.map _)
  refine (foldl_rule (fun t : DelegationSystem => t.keeper.depositRecords)
    (P := fun t => P t ∧ t.channel = s.channel ∧ t.isOpen = s.isOpen)
    (fun t r id hid => get?_stakeDepositRecord_of_ne t.keeper _ r hid) ?_ hnodup
    (fun r hr => (stakeable_of_mem hr).stored) ⟨hs, rfl, rfl⟩).1
  rintro t r hr ⟨ht, hchannel, hopen⟩ hstored
  have hread := stakeable_of_mem hr
  exact ⟨hone t r ht hchannel hopen ⟨hstored, hread.status, hread.counter⟩, hchannel, hopen⟩

/-- A submission only fails at its first batch. -/
def FailsFirst (rejected : List (ℕ × ℕ)) : Prop := ∀ f ∈ rejected, f.2 = 0

instance (rejected : List (ℕ × ℕ)) : Decidable (FailsFirst rejected) :=
  inferInstanceAs (Decidable (∀ f ∈ rejected, f.2 = 0))

/-- **One record**: either nothing happens, or the whole record is sent. -/
theorem stakeOne_cases (hfirst : FailsFirst rejected) (r : DepositRecord) :
    s.stakeOne rejected r = s ∨
      ∃ k txs hostZone hostZone', Staked s.keeper k r hostZone hostZone' txs ∧
        s.stakeOne rejected r = s.sendAll k txs := by
  have hall : s.submitTxs rejected r 0 = true → ∀ j, s.submitTxs rejected r j = true := by
    intro h j
    cases j with
    | zero => exact h
    | succ j =>
      obtain ⟨hopen, -⟩ := Bool.and_eq_true_iff.mp h
      refine Bool.and_eq_true_iff.mpr ⟨hopen, decide_eq_true fun hmem => ?_⟩
      exact absurd (hfirst _ hmem) (Nat.succ_ne_zero j)
  unfold stakeOne
  obtain hnone | ⟨k, txs, z, z', hrun, hstaked⟩ := stakeDepositRecord_spec hall s.keeper r
  · left
    rw [hnone]
    simp [sendAll]
  · right
    rw [hrun]
    exact ⟨k, txs, z, z', hstaked, rfl⟩

/-! ## Acknowledgements -/

/-- What an acknowledgement does. -/
structure AckedAt (s s' : DelegationSystem) (p : SentDelegation) (status : AckStatus)
    (rest : List SentDelegation) : Prop where
  pending : p.outcome = none
  before : s.sent.Perm (p :: rest)
  after : s'.sent.Perm ({ p with outcome := some status } :: rest)
  channel : s'.channel = s.channel
  onLatest : status ≠ .timeout → s.OnLatestChannel p
  callback : delegateCallback s.keeper p.tx.callback status = .ok s'.keeper

theorem acknowledge_cases {s' : DelegationSystem} {i : ℕ} {status : AckStatus}
    (h : s.acknowledge i status = some s') :
    ∃ p rest, s.sent[i]? = some p ∧ AckedAt s s' p status rest := by
  unfold acknowledge at h
  split at h
  · cases h
  rename_i p hp
  split at h
  · cases h
  rename_i hpending
  split at h
  · cases h
  rename_i hlatest
  split at h
  · cases h
  rename_i k hcallback
  cases h
  obtain ⟨hi, rfl⟩ := List.getElem?_eq_some_iff.mp hp
  refine ⟨s.sent[i], s.sent.eraseIdx i, hp, not_not.mp hpending,
    (getElem_cons_eraseIdx_perm hi).symm, set_perm_cons_eraseIdx hi _, rfl,
    fun hstatus => ?_, hcallback⟩
  by_contra hnot
  exact hlatest ⟨hstatus, fun hboth => hnot hboth.1⟩

theorem restore_cases {s' : DelegationSystem} {chainId : String}
    (h : s.step (.restore chainId) = some s') :
    ∃ k z z', Restored s.keeper k chainId z z' ∧ s' = { s with
      keeper := k
      channel := update s.channel chainId (s.channel chainId + 1)
      isOpen := update s.isOpen chainId true } := by
  simp only [step] at h
  split at h
  · cases h
  split at h
  · cases h
  rename_i k hrestore
  cases h
  obtain ⟨z, z', hrestored⟩ := restoreInterchainAccount_ok hrestore
  exact ⟨k, z, z', hrestored, rfl⟩

end DelegationSystem

/-! ## A small system -/

/-- One deposit of 200 in the queue of a zone with two validators. -/
def oneDepositQueued : DelegationSystem where
  keeper :=
    { hostZones := empty.set twoValidatorZone
      depositRecords := empty.set ⟨0, 200, "host", .delegationQueue, 1, 0⟩
      depositRecordCount := 1
      epochUnbondingRecords := EpochUnbondingStore.empty }
  channel := fun _ => 0
  isOpen := fun _ => true
  sent := []

private theorem records_oneDepositQueued (h : oneDepositQueued.records id = some r) :
    id = 0 ∧ r = ⟨0, 200, "host", .delegationQueue, 1, 0⟩ := by
  unfold DelegationSystem.records oneDepositQueued at h
  rw [get?_set] at h
  split at h
  · rename_i hid
    cases h
    exact ⟨hid, rfl⟩
  · cases h

theorem oneDepositQueued_started : oneDepositQueued.Started where
  sent := rfl
  ids id r h := by
    rw [(records_oneDepositQueued h).1]
    exact Nat.one_pos
  counters id r h := by rw [(records_oneDepositQueued h).2]

end Stride.Stakeibc
