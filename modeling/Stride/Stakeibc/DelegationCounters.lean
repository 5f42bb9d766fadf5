import Stride.Stakeibc.DelegationSystem

/-!
# The Counter of Delegations in Progress

A deposit record counts its delegate transactions in progress. The counter is raised when
the transactions are sent and lowered by each callback; a restore of the channel resets it.
This module asks when the counter is the number of transactions that are really outstanding
on the latest channel.

Three things make it wrong:

- a restore looks at the status, and leaves the counter of a record that a failed
  transaction has already put back into the queue
- the timeout of a transaction of an earlier channel lowers the counter of the transactions
  sent since the restore
- a submission that fails after its first batch leaves the sent batches uncounted
-/

namespace Stride.Stakeibc

open Lib Sdk Records Function List

namespace DelegationSystem

/-! ## The condition -/

/-- Events that keep the counters right. -/
def KeepsCounters (s : DelegationSystem) : DelegationEvent → Prop
  | .stake _ rejected => FailsFirst rejected
  | .ack i status => status = .timeout → ∀ p, s.sent[i]? = some p → ¬ s.OnLatestChannel p →
      ∀ r, s.records p.recordId = some r → r.delegationTxsInProgress = 0
  | .closeChannel _ => True
  | .restore chainId => ∀ id r, s.records id = some r → r.hostZoneId = chainId →
      r.status ≠ .delegationInProgress → r.delegationTxsInProgress = 0
  | .environment k => DepositsChange s.keeper k

/-- Every event but one of the other flows can be evaluated. -/
noncomputable instance (s : DelegationSystem) (e : DelegationEvent) :
    Decidable (s.KeepsCounters e) := by
  cases e with
  | environment k => exact Classical.propDecidable _
  | _ =>
    dsimp only [KeepsCounters, records]
    infer_instance

/-! ## The invariant -/

/-- Records and transactions agree on zones and counters. -/
structure CounterInv (s : DelegationSystem) : Prop where
  ids : s.keeper.IdsBelowCount
  sentIds : ∀ p ∈ s.sent, p.recordId < s.keeper.depositRecordCount
  channels : ∀ p ∈ s.sent, p.channel ≤ s.channel p.zone
  zones : ∀ p ∈ s.sent, ∀ r, s.records p.recordId = some r → r.hostZoneId = p.zone
  counters : ∀ id r, s.records id = some r → r.delegationTxsInProgress = s.outstanding id

variable {status : AckStatus} {l : DelegationEvent} {k : DelegationKeeper} {s s' : DelegationSystem}
  {r : DepositRecord} {z z' : HostZone}

theorem Started.counterInv (h : s.Started) : s.CounterInv where
  ids := h.ids
  sentIds p hp := by
    rw [h.sent] at hp
    cases hp
  channels p hp := by
    rw [h.sent] at hp
    cases hp
  zones p hp := by
    rw [h.sent] at hp
    cases hp
  counters id r hr := by
    rw [h.counters id r hr, outstanding, h.sent]
    rfl

/-! ### Staking -/

private theorem countP_send {txs : List DelegateTx} (h : Staked s.keeper k r z z' txs) (id : ℕ) :
    (txs.map s.send).countP
      (fun p => p.recordId = id ∧ s.OnLatestChannel p ∧ p.outcome = none) =
        if id = r.id then txs.length else 0 := by
  have hid (tx : DelegateTx) (htx : tx ∈ txs) : (s.send tx).recordId = r.id :=
    (h.callbacks tx htx).2
  rw [countP_map]
  split
  · rename_i heq
    rw [countP_eq_length]
    intro tx htx
    simpa [heq, hid tx htx] using show s.OnLatestChannel (s.send tx) ∧ (s.send tx).outcome = none
      from ⟨rfl, rfl⟩
  · rename_i hne
    rw [countP_eq_zero]
    intro tx htx
    simp [hid tx htx, Ne.symm hne]

theorem CounterInv.stakeOne (h : s.CounterInv) {rejected : List (ℕ × ℕ)}
    (hfirst : FailsFirst rejected) (hr : s.Stakeable r) : (s.stakeOne rejected r).CounterInv := by
  obtain hsame | ⟨k, txs, z, z', hstaked, heq⟩ := stakeOne_cases hfirst r
  · rw [hsame]
    exact h
  rw [heq]
  have hrecords (id : ℕ) : k.depositRecords.get? id =
      if id = r.id then some (stakedRecord txs.length r) else s.records id := by
    rw [hstaked.depositRecords, KeyedStore.get?_set]
    rfl
  have hsend : ∀ p ∈ txs.map s.send, p.recordId = r.id ∧ p.zone = r.hostZoneId ∧
      s.OnLatestChannel p := by
    intro p hp
    obtain ⟨tx, htx, rfl⟩ := mem_map.mp hp
    exact ⟨(hstaked.callbacks tx htx).2, (hstaked.callbacks tx htx).1, rfl⟩
  have hzone (id : ℕ) (q : DepositRecord) (hq : k.depositRecords.get? id = some q) :
      ∃ q', s.records id = some q' ∧ q'.hostZoneId = q.hostZoneId := by
    rw [hrecords] at hq
    split at hq
    · rename_i hid
      cases hq
      exact ⟨r, hid ▸ hr.stored, rfl⟩
    · exact ⟨q, hq, rfl⟩
  refine ⟨fun id q hq => ?_, fun p hp => ?_, fun p hp => ?_, fun p hp q hq => ?_,
    fun id q hq => ?_⟩
  · obtain ⟨q', hq', -⟩ := hzone id q hq
    exact hstaked.depositRecordCount ▸ h.ids id q' hq'
  · show p.recordId < k.depositRecordCount
    rw [hstaked.depositRecordCount]
    rcases mem_append.mp hp with hold | hnew
    · exact h.sentIds p hold
    · rw [(hsend p hnew).1]
      exact h.ids r.id r hr.stored
  · rcases mem_append.mp hp with hold | hnew
    · exact h.channels p hold
    · exact (hsend p hnew).2.2.le
  · obtain ⟨q', hq', hzoneEq⟩ := hzone p.recordId q hq
    rw [← hzoneEq]
    rcases mem_append.mp hp with hold | hnew
    · exact h.zones p hold q' hq'
    · obtain ⟨hid, hz, -⟩ := hsend p hnew
      rw [hid, hr.stored] at hq'
      cases hq'
      exact hz.symm
  · -- the record had nothing outstanding, and all of `txs` is outstanding now
    have hcount : (s.sendAll k txs).outstanding id =
        s.outstanding id + if id = r.id then txs.length else 0 := by
      rw [← countP_send hstaked id]
      exact countP_append
    rw [hcount]
    replace hq : k.depositRecords.get? id = some q := hq
    rw [hrecords] at hq
    split at hq
    · rename_i hid
      cases hq
      subst hid
      rw [if_pos rfl, ← h.counters r.id r hr.stored]
      rfl
    · rename_i hid
      rw [if_neg hid]
      exact h.counters id q hq

/-! ### Callbacks -/

private theorem ackedRecord_eq_some {callback : DelegateCallback} {r' : DepositRecord}
    (h : ackedRecord callback status r = some r') :
    r'.hostZoneId = r.hostZoneId ∧
      r'.delegationTxsInProgress = r.delegationTxsInProgress - 1 := by
  unfold ackedRecord at h
  cases status with
  | timeout =>
    cases h
    exact ⟨rfl, rfl⟩
  | failure =>
    cases h
    exact ⟨rfl, rfl⟩
  | success =>
    dsimp only at h
    split at h
    · cases h
    cases h
    exact ⟨rfl, rfl⟩

private theorem CounterInv.acked (h : s.CounterInv) {p : SentDelegation}
    {rest : List SentDelegation} (hack : AckedAt s s' p status rest)
    (hlate : ¬ s.OnLatestChannel p →
      ∀ r, s.records p.recordId = some r → r.delegationTxsInProgress = 0) : s'.CounterInv := by
  obtain ⟨r, z, z', hacked⟩ := delegateCallback_ok hack.callback
  have hlatest : s.OnLatestChannel p := by
    by_contra hnot
    exact hacked.inProgress (hlate hnot r hacked.foundRecord)
  have hmem (q : SentDelegation) (hq : q ∈ s'.sent) :
      ∃ q' ∈ s.sent, q'.recordId = q.recordId ∧ q'.zone = q.zone ∧ q'.channel = q.channel := by
    rcases mem_cons.mp (hack.after.mem_iff.mp hq) with rfl | hrest
    · exact ⟨p, hack.before.mem_iff.mpr mem_cons_self, rfl, rfl, rfl⟩
    · exact ⟨q, hack.before.mem_iff.mpr (mem_cons_of_mem _ hrest), rfl, rfl, rfl⟩
  have hrecord (id : ℕ) (q : DepositRecord) (hq : s'.records id = some q) :
      ∃ q', s.records id = some q' ∧ q'.hostZoneId = q.hostZoneId ∧
        q.delegationTxsInProgress =
          q'.delegationTxsInProgress - if id = p.recordId then 1 else 0 := by
    replace hq : (if id = p.recordId then ackedRecord p.tx.callback status r else s.records id) =
      some q := (hacked.depositRecords id).symm.trans hq
    split at hq
    · rename_i hid
      obtain ⟨hzone, hcounter⟩ := ackedRecord_eq_some hq
      refine ⟨r, hid ▸ hacked.foundRecord, hzone.symm, ?_⟩
      rw [if_pos hid, hcounter]
    · rename_i hid
      refine ⟨q, hq, rfl, ?_⟩
      rw [if_neg hid, Nat.sub_zero]
  refine ⟨fun id q hq => ?_, fun q hq => ?_, fun q hq => ?_, fun q hq t ht => ?_,
    fun id q hq => ?_⟩
  · obtain ⟨q', hq', -⟩ := hrecord id q hq
    exact hacked.depositRecordCount ▸ h.ids id q' hq'
  · obtain ⟨q', hq', hid, -⟩ := hmem q hq
    rw [hacked.depositRecordCount, ← hid]
    exact h.sentIds q' hq'
  · obtain ⟨q', hq', -, hzone, hchannel⟩ := hmem q hq
    rw [hack.channel, ← hzone, ← hchannel]
    exact h.channels q' hq'
  · obtain ⟨q', hq', hid, hzone, -⟩ := hmem q hq
    obtain ⟨t', ht', hzoneEq, -⟩ := hrecord q.recordId t ht
    rw [← hzoneEq, ← hzone]
    exact h.zones q' hq' t' (hid ▸ ht')
  · obtain ⟨q', hq', -, hcounter⟩ := hrecord id q hq
    -- the transaction is outstanding before the callback and not after it
    have hbefore : s.outstanding id = (rest.countP fun p =>
        p.recordId = id ∧ s.OnLatestChannel p ∧ p.outcome = none) +
          if id = p.recordId then 1 else 0 := by
      unfold outstanding
      rw [hack.before.countP_eq, countP_cons]
      simp [hlatest, hack.pending, eq_comm]
    have hafter : s'.outstanding id = rest.countP fun p =>
        p.recordId = id ∧ s.OnLatestChannel p ∧ p.outcome = none := by
      have hsame (q : SentDelegation) : s'.OnLatestChannel q ↔ s.OnLatestChannel q := by
        unfold OnLatestChannel
        rw [hack.channel]
      unfold outstanding
      rw [hack.after.countP_eq]
      simp [hsame]
    rw [hcounter, h.counters id q' hq', hbefore, hafter, Nat.add_sub_cancel]

/-! ### Restores and the environment -/

private theorem CounterInv.restored (h : s.CounterInv) {chainId : String}
    (hrestored : Restored s.keeper k chainId z z')
    (hqueued : ∀ id r, s.records id = some r → r.hostZoneId = chainId →
      r.status ≠ .delegationInProgress → r.delegationTxsInProgress = 0) (isOpen : String → Bool) :
    CounterInv { s with
      keeper := k
      channel := update s.channel chainId (s.channel chainId + 1)
      isOpen := isOpen } := by
  have hrecord (id : ℕ) (q : DepositRecord) (hq : k.depositRecords.get? id = some q) :
      ∃ q', s.records id = some q' ∧ q'.hostZoneId = q.hostZoneId ∧
        q.delegationTxsInProgress =
          if q.hostZoneId = chainId then 0 else q'.delegationTxsInProgress := by
    rw [hrestored.depositRecords] at hq
    obtain ⟨q', hq', hrev⟩ := Option.map_eq_some_iff.mp hq
    refine ⟨q', hq', ?_⟩
    split at hrev
    · rename_i hcond
      cases hrev
      exact ⟨rfl, (if_pos hcond.1).symm⟩
    · rename_i hcond
      cases hrev
      refine ⟨rfl, ?_⟩
      split
      · rename_i hzone
        exact hqueued id q hq' hzone fun hstatus => hcond ⟨hzone, hstatus⟩
      · rfl
  refine ⟨fun id q hq => ?_, fun p hp => ?_, fun p hp => ?_, fun p hp q hq => ?_,
    fun id q hq => ?_⟩
  · obtain ⟨q', hq', -⟩ := hrecord id q hq
    exact hrestored.depositRecordCount ▸ h.ids id q' hq'
  · exact hrestored.depositRecordCount ▸ h.sentIds p hp
  · have hle := h.channels p hp
    by_cases hz : p.zone = chainId
    · rw [hz] at hle ⊢
      dsimp only
      rw [update_self]
      omega
    · dsimp only
      rw [update_of_ne hz]
      exact hle
  · obtain ⟨q', hq', hzone, -⟩ := hrecord p.recordId q hq
    exact hzone ▸ h.zones p hp q' hq'
  · obtain ⟨q', hq', hzone, hcounter⟩ := hrecord id q hq
    rw [hcounter]
    -- a transaction of the record goes to the zone of the record
    have hsent (p : SentDelegation) (hp : p ∈ s.sent) (hid : p.recordId = id) :
        p.zone = q.hostZoneId := by
      rw [← hzone]
      exact (h.zones p hp q' (hid ▸ hq')).symm
    by_cases hz : q.hostZoneId = chainId
    · rw [if_pos hz]
      symm
      unfold outstanding OnLatestChannel
      rw [countP_eq_zero]
      intro p hp
      have hle := h.channels p hp
      rw [decide_eq_true_eq]
      rintro ⟨hid, hlatest, -⟩
      have hpz := (hsent p hp hid).trans hz
      dsimp only at hlatest
      rw [hpz, update_self] at hlatest
      rw [hpz] at hle
      omega
    · rw [if_neg hz, h.counters id q' hq']
      unfold outstanding OnLatestChannel
      apply countP_congr
      intro p hp
      simp only [decide_eq_true_eq]
      refine and_congr_right fun hid => ?_
      rw [update_of_ne]
      rw [hsent p hp hid]
      exact hz

private theorem CounterInv.changed (h : s.CounterInv) (hchange : DepositsChange s.keeper k) :
    CounterInv { s with keeper := k } := by
  have hrecord (id : ℕ) (q : DepositRecord) (hq : k.depositRecords.get? id = some q) :
      (∃ q', s.records id = some q' ∧ q'.hostZoneId = q.hostZoneId ∧
        q.delegationTxsInProgress = q'.delegationTxsInProgress) ∨
      (s.keeper.depositRecordCount ≤ id ∧ id < k.depositRecordCount ∧
        q.delegationTxsInProgress = 0) := by
    cases hold : s.records id with
    | none => exact .inr (hchange.appended id q hold hq)
    | some q' =>
      obtain ⟨hzone, hcounter, -⟩ := hchange.kept id q' q hold hq
      exact .inl ⟨q', rfl, hzone.symm, hcounter⟩
  refine ⟨fun id q hq => ?_, fun p hp => ?_, h.channels, fun p hp q hq => ?_,
    fun id q hq => ?_⟩
  · obtain ⟨q', hq', -⟩ | ⟨-, hlt, -⟩ := hrecord id q hq
    · exact lt_of_lt_of_le (h.ids id q' hq') hchange.count
    · exact hlt
  · exact lt_of_lt_of_le (h.sentIds p hp) hchange.count
  · obtain ⟨q', hq', hzone, -⟩ | ⟨hle, -⟩ := hrecord p.recordId q hq
    · exact hzone ▸ h.zones p hp q' hq'
    · exact absurd (h.sentIds p hp) (not_lt.mpr hle)
  · obtain ⟨q', hq', -, hcounter⟩ | ⟨hle, -, hzero⟩ := hrecord id q hq
    · rw [hcounter]
      exact h.counters id q' hq'
    · -- nothing was sent for a record that did not exist
      rw [hzero]
      symm
      unfold outstanding
      rw [countP_eq_zero]
      intro p hp
      rw [decide_eq_true_eq]
      rintro ⟨hid, -⟩
      exact absurd (h.sentIds p hp) (not_lt.mpr (hid ▸ hle))

/-- **Step**: the invariant is kept by every event that keeps the counters. -/
theorem CounterInv.step (h : s.CounterInv) (hok : s.KeepsCounters l) (hs : s.step l = some s') :
    s'.CounterInv := by
  cases l with
  | stake epochNumber rejected =>
    cases hs
    exact stake_rule (P := CounterInv) (fun t r ht _ _ hr => ht.stakeOne hok hr) h
  | ack i status =>
    obtain ⟨p, rest, hp, hack⟩ := acknowledge_cases hs
    refine h.acked hack fun hnot => ?_
    by_cases hstatus : status = .timeout
    · exact hok hstatus p hp hnot
    · exact absurd (hack.onLatest hstatus) hnot
  | closeChannel chainId =>
    cases hs
    exact ⟨h.ids, h.sentIds, h.channels, h.zones, h.counters⟩
  | restore chainId =>
    obtain ⟨k, z, z', hrestored, rfl⟩ := restore_cases hs
    exact h.restored hrestored hok _
  | environment k =>
    cases hs
    exact h.changed hok

/-- **Counters**: in every state of a run of such events, the counter of a stored record is
    the number of its outstanding transactions. So a record with nothing outstanding has
    counter 0, and a record that the next epoch stakes has nothing outstanding. -/
theorem counter_eq_outstanding {s₀ s : DelegationSystem} (hstart : s₀.Started)
    (hrun : Reaches step KeepsCounters s₀ s) :
    (∀ id r, s.records id = some r → r.delegationTxsInProgress = s.outstanding id) ∧
    (∀ id r, s.records id = some r → s.outstanding id = 0 → r.delegationTxsInProgress = 0) ∧
    (∀ epochNumber, ∀ r ∈ stakeDepositRecords s.keeper epochNumber, s.outstanding r.id = 0) := by
  have hinv : s.CounterInv := hrun.invariant hstart.counterInv
    fun s l s' hi hok hs => hi.step hok hs
  refine ⟨hinv.counters, fun id r hr hzero => ?_, fun epochNumber r hr => ?_⟩
  · rw [hinv.counters id r hr, hzero]
  · have hstakeable := stakeable_of_mem hr
    rw [← hinv.counters r.id r hstakeable.stored]
    exact hstakeable.counter

/-! ## Stale counters -/

/-- What a run leaves of record 0: its status, its counter and its outstanding
    transactions. -/
def countersAfter (ls : List DelegationEvent) : Option (DepositStatus × ℕ × ℕ) :=
  (runSteps step oneDepositQueued ls).bind fun s =>
    (s.records 0).map fun r => (r.status, r.delegationTxsInProgress, s.outstanding 0)

/-- The deposit goes out in two transactions. The first fails, and then the channel closes
    with the second on its way. -/
def failedThenRestored : List DelegationEvent :=
  [.stake 2 [], .ack 0 .failure, .closeChannel "host", .restore "host"]

/-- The channel closes with both transactions on their way. After the restore the deposit is
    sent again, the first transaction fails, and a timeout from the old channel arrives. -/
def lateTimeout : List DelegationEvent :=
  [.stake 2 [], .closeChannel "host", .restore "host", .stake 3 [], .ack 2 .failure,
    .ack 1 .timeout]

/-- **Stale counters**: after the restore the counter stays 1 with nothing outstanding; the
    late timeout takes it to 0 with one transaction outstanding, and the next epoch sends the
    deposit again. -/
theorem stale_counters :
    oneDepositQueued.Started ∧
    countersAfter failedThenRestored = some (.delegationQueue, 1, 0) ∧
    countersAfter lateTimeout = some (.delegationQueue, 0, 1) ∧
    countersAfter (lateTimeout ++ [.stake 4 []]) = some (.delegationInProgress, 2, 3) := by
  refine ⟨oneDepositQueued_started, ?_, ?_, ?_⟩
  · decide +kernel
  · decide +kernel
  · decide +kernel

/-- A rejected first batch, a timeout that closes the channel, a restore, and a failure
    followed by a success on the new channel. -/
def restoredInTime : List DelegationEvent :=
  [.stake 2 [(0, 0)], .stake 3 [], .ack 0 .timeout, .ack 1 .timeout, .restore "host",
    .stake 4 [], .ack 2 .failure, .closeChannel "other", .ack 3 .success]

theorem counter_eq_outstanding_restoredInTime :
    ∃ s r, runAllowed step KeepsCounters oneDepositQueued restoredInTime =
        some s ∧ s.records 0 = some r ∧ r.amount = 100 ∧ s.sent.length = 4 ∧
      r.delegationTxsInProgress = s.outstanding 0 := by
  have hend : ((runAllowed step KeepsCounters oneDepositQueued
      restoredInTime).bind fun s => (s.records 0).map fun r => (r.amount, s.sent.length)) =
        some (100, 4) := by decide +kernel
  obtain ⟨s, hs, hrecord⟩ := Option.bind_eq_some_iff.mp hend
  obtain ⟨r, hr, hvalues⟩ := Option.map_eq_some_iff.mp hrecord
  obtain ⟨hamount, hsent⟩ := Prod.mk.inj hvalues
  have hrun := Reaches.of_runAllowed hs
  exact ⟨s, r, hs, hr, hamount, hsent,
    (counter_eq_outstanding oneDepositQueued_started hrun).1 0 r hr⟩

end DelegationSystem

end Stride.Stakeibc
