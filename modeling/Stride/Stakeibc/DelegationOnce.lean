import Stride.Stakeibc.DelegationCounters

/-!
# Deposits Are Delegated Once

The delegation of a deposit record is sent in batches. If a batch is rejected after an
earlier one was accepted, the record stays in DELEGATION_QUEUE with counter 0 although
transactions of it are on their way: their callbacks fail, and the next epoch sends the
whole amount again. (The undelegation flow submits its batches in a cached context and does
not have this.)

When submissions only fail at their first batch, the amount of a record is sent once, apart
from batches that came back.
-/

namespace Stride.Stakeibc

open Lib Sdk Records KeyedStore List

namespace DelegationSystem

/-! ## Amounts -/

/-- What was sent for a record in transactions with the given outcome. -/
def amountWith (s : DelegationSystem) (id : ℕ) (outcome : Option AckStatus) : ℤ :=
  (s.sent.map fun p => if p.recordId = id ∧ p.outcome = outcome then p.amount else 0).sum

/-- What was sent for a record, apart from transactions whose failure or timeout was
    received. -/
def delegated (s : DelegationSystem) (id : ℕ) : ℤ :=
  s.amountWith id none + s.amountWith id (some .success)

/-- The pending transactions to a zone that name a validator, with multiplicity. -/
def pendingChanges (s : DelegationSystem) (chainId address : String) : ℕ :=
  (s.sent.map fun p =>
    if p.zone = chainId ∧ p.outcome = none then p.tx.callback.validators.count address
    else 0).sum

/-- The transactions sent for a record. -/
def sentFor (s : DelegationSystem) (id : ℕ) : ℕ := s.sent.countP fun p => p.recordId = id

/-! ## The condition -/

/-- Submissions only fail at their first batch, the zones have valid weights, a channel is
    only restored once all its transactions were answered, and the other flows leave each
    validator a counter that covers its pending delegations. -/
def WholeSubmissions (s : DelegationSystem) : DelegationEvent → Prop
  | .stake _ rejected =>
    FailsFirst rejected ∧ ∀ c z, s.keeper.hostZones.get? c = some z → z.WeightsValid
  | .ack _ _ => True
  | .closeChannel _ => True
  | .restore chainId => ∀ p ∈ s.sent, p.zone = chainId → p.outcome ≠ none
  | .environment k => DepositsChange s.keeper k ∧
    ∀ c z, k.hostZones.get? c = some z →
      ∀ a n, z.changesInProgress a = some n → (s.pendingChanges c a : ℤ) ≤ n

/-- Every event but one of the other flows can be evaluated. -/
noncomputable instance (s : DelegationSystem) : ∀ e, Decidable (s.WholeSubmissions e)
  | .environment _ => Classical.propDecidable _
  | .stake .. => inferInstanceAs (Decidable (_ ∧ _))
  | .restore _ => inferInstanceAs (Decidable (∀ _ ∈ s.sent, _))
  | .ack .. | .closeChannel _ => instDecidableTrue

/-- A chain on which no delegation was sent yet and no counter is negative. -/
structure StartedClean (s : DelegationSystem) : Prop where
  started : s.Started
  changes : ∀ c z, s.keeper.hostZones.get? c = some z →
    ∀ a n, z.changesInProgress a = some n → 0 ≤ n

/-! ## The invariant of the flow -/

/-- Pending transactions are on the latest channel, and every counter covers them. -/
structure OnceInv (s : DelegationSystem) : Prop where
  counter : s.CounterInv
  pending : ∀ p ∈ s.sent, p.outcome = none → s.OnLatestChannel p
  nonneg : ∀ p ∈ s.sent, 0 ≤ p.amount
  changes : ∀ c z, s.keeper.hostZones.get? c = some z →
    ∀ a n, z.changesInProgress a = some n → (s.pendingChanges c a : ℤ) ≤ n

theorem StartedClean.onceInv {s : DelegationSystem} (h : s.StartedClean) : s.OnceInv where
  counter := h.started.counterInv
  pending p hp := by
    rw [h.started.sent] at hp
    cases hp
  nonneg p hp := by
    rw [h.started.sent] at hp
    cases hp
  changes c z hz a n hn := by
    rw [pendingChanges, h.started.sent]
    exact h.changes c z hz a n hn

/-- A record with counter 0 has nothing pending. -/
theorem OnceInv.outcome_ne_none {s : DelegationSystem} (h : s.OnceInv) {id : ℕ}
    {r : DepositRecord} (hr : s.records id = some r) (hzero : r.delegationTxsInProgress = 0)
    {p : SentDelegation} (hp : p ∈ s.sent) (hid : p.recordId = id) : p.outcome ≠ none := by
  intro hnone
  have hcount := (h.counter.counters id r hr).symm.trans hzero
  have hnot := countP_eq_zero.mp hcount p hp
  exact hnot (decide_eq_true ⟨hid, h.pending p hp hnone, hnone⟩)

theorem OnceInv.amountWith_none_eq_zero {s : DelegationSystem} (h : s.OnceInv) {id : ℕ}
    {r : DepositRecord} (hr : s.records id = some r) (hzero : r.delegationTxsInProgress = 0) :
    s.amountWith id none = 0 := by
  apply sum_map_eq_zero
  intro p hp
  exact if_neg fun hcond => h.outcome_ne_none hr hzero hp hcond.1 hcond.2

variable {l : DelegationEvent} {rejected : List (ℕ × ℕ)}

private theorem OnceInv.keepsCounters {s : DelegationSystem} (h : s.OnceInv)
    (hok : s.WholeSubmissions l) {s' : DelegationSystem} (hs : s.step l = some s') :
    s.KeepsCounters l := by
  cases l with
  | stake epochNumber rejected => exact hok.1
  | ack i status =>
    intro _ p hp hnot
    obtain ⟨q, rest, hq, hack⟩ := acknowledge_cases hs
    rw [hp] at hq
    cases hq
    exact absurd (h.pending p (mem_of_getElem? hp) hack.pending) hnot
  | closeChannel chainId => trivial
  | restore chainId =>
    intro id r hr hzone _
    rw [h.counter.counters id r hr]
    unfold outstanding
    rw [countP_eq_zero]
    intro p hp
    rw [decide_eq_true_eq]
    rintro ⟨hid, -, hnone⟩
    refine hok p hp ?_ hnone
    rw [← h.counter.zones p hp r (hid ▸ hr), hzone]
  | environment k => exact hok.1

/-! ### Staking -/

section Staking

variable {s : DelegationSystem} {k : DelegationKeeper} {r : DepositRecord} {z z' : HostZone}
  {txs : List DelegateTx}

private theorem pendingChanges_sendAll (h : Staked s.keeper k r z z' txs) (c a : String) :
    (s.sendAll k txs).pendingChanges c a =
      s.pendingChanges c a + if c = r.hostZoneId then (delegatedValidators txs).count a else 0 := by
  unfold pendingChanges sendAll
  rw [map_append, sum_append, map_map]
  congr 1
  unfold delegatedValidators
  rw [count_flatMap]
  split
  · rename_i hc
    apply congrArg
    apply map_congr_left
    intro tx htx
    exact if_pos ⟨(h.callbacks tx htx).1.trans hc.symm, rfl⟩
  · rename_i hc
    apply sum_map_eq_zero
    intro tx htx
    exact if_neg fun hcond => hc (hcond.1.symm.trans (h.callbacks tx htx).1)

private theorem amountWith_sendAll (h : Staked s.keeper k r z z' txs) (id : ℕ)
    (outcome : Option AckStatus) :
    (s.sendAll k txs).amountWith id outcome = s.amountWith id outcome +
      if id = r.id ∧ outcome = none then (txs.map fun tx => tx.callback.amount).sum else 0 := by
  unfold amountWith sendAll
  rw [map_append, sum_append, map_map]
  congr 1
  split
  · rename_i hid
    apply congrArg
    apply map_congr_left
    intro tx htx
    exact if_pos ⟨(h.callbacks tx htx).2.trans hid.1.symm, hid.2.symm⟩
  · rename_i hid
    apply sum_map_eq_zero
    intro tx htx
    exact if_neg fun hcond =>
      hid ⟨hcond.1.symm.trans (h.callbacks tx htx).2, hcond.2.symm⟩

private theorem OnceInv.sendAll (hinv : s.OnceInv) (hcounter : (s.sendAll k txs).CounterInv)
    (h : Staked s.keeper k r z z' txs) : (s.sendAll k txs).OnceInv := by
  refine ⟨hcounter, fun p hp hnone => ?_, fun p hp => ?_, fun c w hw a n hn => ?_⟩
  · rcases mem_append.mp hp with hold | hnew
    · exact hinv.pending p hold hnone
    · obtain ⟨tx, -, rfl⟩ := mem_map.mp hnew
      rfl
  · rcases mem_append.mp hp with hold | hnew
    · exact hinv.nonneg p hold
    · obtain ⟨tx, htx, rfl⟩ := mem_map.mp hnew
      exact h.nonneg tx htx
  · rw [pendingChanges_sendAll h]
    replace hw := (h.hostZones c).symm.trans hw
    split at hw
    · -- counter and pending changes grow by the same batches
      rename_i hc
      cases hw
      rw [h.effect.changes] at hn
      obtain ⟨m, hm, rfl⟩ := Option.map_eq_some_iff.mp hn
      have hle := hinv.changes c z (hc ▸ h.found) a m hm
      rw [if_pos hc]
      omega
    · rename_i hc
      rw [if_neg hc]
      exact hinv.changes c w hw a n hn

end Staking

/-! ### Callbacks -/

section Callbacks

variable {s s' : DelegationSystem} {p : SentDelegation} {status : AckStatus}
  {rest : List SentDelegation}

private theorem pendingChanges_acked (h : AckedAt s s' p status rest) (c a : String) :
    s.pendingChanges c a = s'.pendingChanges c a +
      if c = p.zone then p.tx.callback.validators.count a else 0 := by
  unfold pendingChanges
  rw [(h.before.map _).sum_eq, (h.after.map _).sum_eq, map_cons, map_cons,
    sum_cons, sum_cons]
  simp only [h.pending, and_true, reduceCtorEq, and_false, if_false, zero_add]
  rw [add_comm]
  simp only [eq_comm]

private theorem amountWith_acked (h : AckedAt s s' p status rest) (id : ℕ)
    (outcome : Option AckStatus) :
    s.amountWith id outcome + (if p.recordId = id ∧ some status = outcome then p.amount else 0) =
      s'.amountWith id outcome + if p.recordId = id ∧ none = outcome then p.amount else 0 := by
  unfold amountWith
  rw [(h.before.map _).sum_eq, (h.after.map _).sum_eq, map_cons, map_cons, sum_cons, h.pending]
  have hswap (a b c : ℤ) : a + c + b = b + c + a := by omega
  exact hswap _ _ _

private theorem OnceInv.acked (hinv : s.OnceInv) (hcounter : s'.CounterInv)
    (h : AckedAt s s' p status rest) : s'.OnceInv := by
  obtain ⟨r, z, z', hacked⟩ := delegateCallback_ok h.callback
  have hmem (q : SentDelegation) (hq : q ∈ s'.sent) :
      q = { p with outcome := some status } ∨ q ∈ s.sent := by
    rcases mem_cons.mp (h.after.mem_iff.mp hq) with heq | hrest
    · exact .inl heq
    · exact .inr (h.before.mem_iff.mpr (mem_cons_of_mem _ hrest))
  refine ⟨hcounter, fun q hq hnone => ?_, fun q hq => ?_, fun c w hw a n hn => ?_⟩
  · rcases hmem q hq with rfl | hold
    · cases hnone
    · unfold OnLatestChannel
      rw [h.channel]
      exact hinv.pending q hold hnone
  · rcases hmem q hq with rfl | hold
    · exact hinv.nonneg p (h.before.mem_iff.mpr mem_cons_self)
    · exact hinv.nonneg q hold
  · have hpending := pendingChanges_acked h c a
    replace hw : (if c = p.zone then some z' else s.keeper.hostZones.get? c) = some w :=
      (hacked.hostZones c).symm.trans hw
    split at hw
    · -- both sides lose the validators of the packet
      rename_i hc
      cases hw
      rw [(delegateZone_ok hacked.zone).changes] at hn
      obtain ⟨m, hm, rfl⟩ := Option.map_eq_some_iff.mp hn
      have hle := hinv.changes c z (hc ▸ hacked.foundZone) a m hm
      rw [hpending, if_pos hc] at hle
      omega
    · rename_i hc
      have hle := hinv.changes c w hw a n hn
      rw [hpending, if_neg hc] at hle
      exact hle

end Callbacks

/-- **Step**: the invariant of the flow is kept by whole submissions. -/
theorem OnceInv.step {s s' : DelegationSystem} (h : s.OnceInv) (hok : s.WholeSubmissions l)
    (hs : s.step l = some s') : s'.OnceInv := by
  have hcounter : s'.CounterInv := h.counter.step (h.keepsCounters hok hs) hs
  cases l with
  | stake epochNumber rejected =>
    cases hs
    refine stake_rule (P := OnceInv) (fun t r ht _ _ hr => ?_) h
    have hone := ht.counter.stakeOne hok.1 hr
    obtain hsame | ⟨k, txs, z, z', hstaked, heq⟩ := stakeOne_cases (s := t) hok.1 r
    · rw [hsame]
      exact ht
    · rw [heq] at hone ⊢
      exact ht.sendAll hone hstaked
  | ack i status =>
    obtain ⟨p, rest, -, hack⟩ := acknowledge_cases hs
    exact h.acked hcounter hack
  | closeChannel chainId =>
    cases hs
    exact ⟨hcounter, h.pending, h.nonneg, h.changes⟩
  | restore chainId =>
    obtain ⟨k, z, z', hrestored, rfl⟩ := restore_cases hs
    refine ⟨hcounter, fun p hp hnone => ?_, h.nonneg, fun c w hw a n hn => ?_⟩
    · -- all transactions of the restored zone were answered
      have hne : p.zone ≠ chainId := fun hzone => hok p hp hzone hnone
      unfold OnLatestChannel
      dsimp only
      rw [Function.update_of_ne hne]
      exact h.pending p hp hnone
    · replace hw := (hrestored.hostZones c).symm.trans hw
      split at hw
      · rename_i hc
        cases hw
        rw [hrestored.changes] at hn
        obtain ⟨m, -, rfl⟩ := Option.map_eq_some_iff.mp hn
        have hzero : s.pendingChanges c a = 0 := by
          apply sum_map_eq_zero
          intro p hp
          exact if_neg fun hcond => hok p hp (hcond.1.trans hc) hcond.2
        exact (congrArg Nat.cast hzero).le
      · exact h.changes c w hw a n hn
  | environment k =>
    cases hs
    exact ⟨hcounter, h.pending, h.nonneg, hok.2⟩

/-! ## The invariant of one record -/

/-- What was sent for a record of `amount`, compared with what is left of it. -/
structure DelegatedWithin (id : ℕ) (amount : ℤ) (s : DelegationSystem) : Prop where
  known : id < s.keeper.depositRecordCount
  stored : ∀ r, s.records id = some r →
    (r.status = .delegationQueue ∨ r.status = .delegationInProgress) ∧
      s.amountWith id (some .success) + r.amount = amount ∧ s.amountWith id none ≤ r.amount
  within : s.delegated id ≤ amount

def ValidWeights (s : DelegationSystem) : Prop :=
  ∀ c z, s.keeper.hostZones.get? c = some z → z.WeightsValid

section OneRecord

variable {id : ℕ} {amount : ℤ} {s s' : DelegationSystem}

variable {status : AckStatus} {k : DelegationKeeper} {r : DepositRecord} {z z' : HostZone}
  {txs : List DelegateTx}

private theorem DelegatedWithin.sendAll (h : DelegatedWithin id amount s) (hinv : s.OnceInv)
    (hstaked : Staked s.keeper k r z z' txs) (hr : s.Stakeable r) (hvalid : z.WeightsValid) :
    DelegatedWithin id amount (s.sendAll k txs) := by
  have hamount := amountWith_sendAll hstaked id
  have hsuccess : (s.sendAll k txs).amountWith id (some .success) =
      s.amountWith id (some .success) := by
    rw [hamount, if_neg fun hcond => Option.some_ne_none _ hcond.2, add_zero]
  have hrecords (q : DepositRecord) : (s.sendAll k txs).records id = some q →
      (if id = r.id then some (stakedRecord txs.length r) else s.records id) = some q := by
    intro hq
    rw [← hq]
    unfold records DelegationSystem.sendAll
    rw [hstaked.depositRecords, get?_set]
    rfl
  have hknown : id < (s.sendAll k txs).keeper.depositRecordCount :=
    hstaked.depositRecordCount ▸ h.known
  by_cases hid : id = r.id
  · -- nothing of the record is pending, and all that is left of it is sent
    subst hid
    have hzero : s.amountWith r.id none = 0 := hinv.amountWith_none_eq_zero hr.stored hr.counter
    have hnone : (s.sendAll k txs).amountWith r.id none = r.amount := by
      rw [hamount, if_pos ⟨rfl, rfl⟩, hzero, zero_add, hstaked.sum hvalid]
    obtain ⟨-, hsum, -⟩ := h.stored r hr.stored
    refine ⟨hknown, fun q hq => ?_, ?_⟩
    · have hq := hrecords q hq
      rw [if_pos rfl] at hq
      cases hq
      refine ⟨.inr rfl, ?_, hnone.le⟩
      rw [hsuccess]
      exact hsum
    · unfold delegated
      omega
  · have hnone : (s.sendAll k txs).amountWith id none = s.amountWith id none := by
      rw [hamount, if_neg fun hcond => hid hcond.1, add_zero]
    refine ⟨hknown, fun q hq => ?_, ?_⟩
    · have hq := hrecords q hq
      rw [if_neg hid] at hq
      rw [hsuccess, hnone]
      exact h.stored q hq
    · unfold delegated
      rw [hnone, hsuccess]
      exact h.within

theorem amount_of_ackedRecord {callback : DelegateCallback} {r' : DepositRecord}
    (h : ackedRecord callback status r = some r')
    (hstatus : r.status = .delegationQueue ∨ r.status = .delegationInProgress) :
    (r'.status = .delegationQueue ∨ r'.status = .delegationInProgress) ∧
      r'.amount = r.amount - if status = .success then callback.amount else 0 := by
  unfold ackedRecord at h
  cases status with
  | timeout =>
    cases h
    exact ⟨hstatus, by simp⟩
  | failure =>
    cases h
    exact ⟨.inl rfl, by simp⟩
  | success =>
    dsimp only at h
    split at h
    · cases h
    cases h
    exact ⟨hstatus, by simp⟩

private theorem DelegatedWithin.acked (h : DelegatedWithin id amount s) (hinv : s.OnceInv)
    {p : SentDelegation} {rest : List SentDelegation} (hack : AckedAt s s' p status rest) :
    DelegatedWithin id amount s' := by
  obtain ⟨r, z, z', hacked⟩ := delegateCallback_ok hack.callback
  have hsuccess := amountWith_acked hack id (some .success)
  have hnone := amountWith_acked hack id none
  simp only [Option.some.injEq, reduceCtorEq, and_false, if_false, add_zero, and_true]
    at hsuccess hnone
  have hrecords (q : DepositRecord) (hq : s'.records id = some q) :
      (if id = p.recordId then ackedRecord p.tx.callback status r else s.records id) = some q :=
    (hacked.depositRecords id).symm.trans hq
  have hknown : id < s'.keeper.depositRecordCount := hacked.depositRecordCount ▸ h.known
  have hwithin := h.within
  -- a success moves its amount from in flight to delegated
  by_cases hid : p.recordId = id
  · simp only [hid, true_and] at hsuccess
    have hnn := hinv.nonneg p (hack.before.mem_iff.mpr mem_cons_self)
    obtain ⟨hstatus, hsum, hle⟩ := h.stored r (hid ▸ hacked.foundRecord)
    refine ⟨hknown, fun q hq => ?_, ?_⟩
    · have hq := hrecords q hq
      rw [if_pos hid.symm] at hq
      obtain ⟨hstatus', hamount'⟩ := amount_of_ackedRecord hq hstatus
      have hcallback : p.tx.callback.amount = p.amount := rfl
      refine ⟨hstatus', ?_⟩
      split at hsuccess <;> rename_i hs
      · rw [if_pos hs] at hamount'
        omega
      · rw [if_neg hs] at hamount'
        omega
    · unfold delegated
      split at hsuccess <;> omega
  · rw [if_neg hid, add_zero] at hnone
    rw [if_neg fun hcond => hid hcond.1, add_zero] at hsuccess
    refine ⟨hknown, fun q hq => ?_, ?_⟩
    · have hq := hrecords q hq
      rw [if_neg (Ne.symm hid)] at hq
      rw [← hsuccess, ← hnone]
      exact h.stored q hq
    · unfold delegated
      rw [← hsuccess, ← hnone]
      exact hwithin

private theorem DelegatedWithin.of_records (h : DelegatedWithin id amount s)
    (hsent : s'.sent = s.sent)
    (hcount : s.keeper.depositRecordCount ≤ s'.keeper.depositRecordCount)
    (hrecords : ∀ r', s'.records id = some r' → ∃ r, s.records id = some r ∧
      r'.amount = r.amount ∧ (r.status = .delegationQueue ∨ r.status = .delegationInProgress →
        r'.status = .delegationQueue ∨ r'.status = .delegationInProgress)) :
    DelegatedWithin id amount s' := by
  have hamount (outcome : Option AckStatus) :
      s'.amountWith id outcome = s.amountWith id outcome := by
    unfold amountWith
    rw [hsent]
  refine ⟨lt_of_lt_of_le h.known hcount, fun r' hr' => ?_, ?_⟩
  · obtain ⟨r, hr, heq, hstatus⟩ := hrecords r' hr'
    obtain ⟨hold, hsum, hle⟩ := h.stored r hr
    rw [hamount, hamount, heq]
    exact ⟨hstatus hold, hsum, hle⟩
  · unfold delegated
    rw [hamount, hamount]
    exact h.within

private theorem ValidWeights.sendAll (h : s.ValidWeights) (hstaked : Staked s.keeper k r z z' txs) :
    (s.sendAll k txs).ValidWeights := by
  intro c w hw
  replace hw := (hstaked.hostZones c).symm.trans hw
  split at hw
  · cases hw
    exact (h _ z hstaked.found).of_weights_eq hstaked.effect.weights
  · exact h c w hw

private theorem DelegatedWithin.stake (h : DelegatedWithin id amount s) (hinv : s.OnceInv)
    (hvalid : s.ValidWeights) (hfirst : FailsFirst rejected) (epochNumber : ℕ) :
    DelegatedWithin id amount (s.stake epochNumber rejected) := by
  -- the loop also keeps what the argument for one record needs
  refine (stake_rule (P := fun t => t.OnceInv ∧ t.ValidWeights ∧ DelegatedWithin id amount t)
    (fun t r ht _ _ hr => ?_) ⟨hinv, hvalid, h⟩).2.2
  obtain ⟨htinv, htvalid, ht⟩ := ht
  have hcounter := htinv.counter.stakeOne hfirst hr
  obtain hsame | ⟨k, txs, z, z', hstaked, heq⟩ := stakeOne_cases (s := t) hfirst r
  · rw [hsame]
    exact ⟨htinv, htvalid, ht⟩
  · rw [heq] at hcounter ⊢
    exact ⟨htinv.sendAll hcounter hstaked, htvalid.sendAll hstaked,
      ht.sendAll htinv hstaked hr (htvalid _ z hstaked.found)⟩

/-- **Step**: the bound on one record is kept by whole submissions. -/
theorem DelegatedWithin.step (h : DelegatedWithin id amount s) (hinv : s.OnceInv)
    (hok : s.WholeSubmissions l) (hs : s.step l = some s') : DelegatedWithin id amount s' := by
  cases l with
  | stake epochNumber rejected =>
    cases hs
    exact h.stake hinv hok.2 hok.1 epochNumber
  | ack i status =>
    obtain ⟨p, rest, -, hack⟩ := acknowledge_cases hs
    exact h.acked hinv hack
  | closeChannel chainId =>
    cases hs
    exact ⟨h.known, h.stored, h.within⟩
  | restore chainId =>
    obtain ⟨k, z, z', hrestored, rfl⟩ := restore_cases hs
    refine h.of_records rfl hrestored.depositRecordCount.ge fun r' hr' => ?_
    replace hr' := (hrestored.depositRecords id).symm.trans hr'
    obtain ⟨r, hr, rfl⟩ := Option.map_eq_some_iff.mp hr'
    refine ⟨r, hr, ?_⟩
    -- a record in progress returns to the queue
    split
    · exact ⟨rfl, fun _ => .inl rfl⟩
    · exact ⟨rfl, fun hstatus => hstatus⟩
  | environment k =>
    cases hs
    refine h.of_records rfl hok.1.count fun r' hr' => ?_
    cases hr : s.records id with
    | none =>
      -- ids of appended records are new
      exact absurd h.known (not_lt.mpr (hok.1.appended id r' hr hr').1)
    | some r =>
      obtain ⟨-, -, hkept⟩ := hok.1.kept id r r' hr hr'
      rw [hkept (h.stored r hr).1]
      exact ⟨r, rfl, rfl, fun hstatus => hstatus⟩

end OneRecord

/-! ## One epoch -/

/-- A record that an epoch takes is either not sent at all, or it is in
    DELEGATION_IN_PROGRESS and counts all its transactions. -/
def SentInWhole (s s' : DelegationSystem) (r : DepositRecord) : Prop :=
  s'.sentFor r.id = s.sentFor r.id ∨
    ∃ r', s'.records r.id = some r' ∧ r'.status = .delegationInProgress ∧
      s'.sentFor r.id = s.sentFor r.id + r'.delegationTxsInProgress

private theorem sentFor_sendAll {s : DelegationSystem} {k : DelegationKeeper} {r : DepositRecord}
    {z z' : HostZone} {txs : List DelegateTx} (h : Staked s.keeper k r z z' txs) (id : ℕ) :
    (s.sendAll k txs).sentFor id = s.sentFor id + if id = r.id then txs.length else 0 := by
  unfold sentFor sendAll
  rw [countP_append, countP_map]
  congr 1
  split
  · rename_i hid
    rw [countP_eq_length]
    intro tx htx
    exact decide_eq_true ((h.callbacks tx htx).2.trans hid.symm)
  · rename_i hid
    rw [countP_eq_zero]
    intro tx htx hcond
    exact hid ((of_decide_eq_true hcond).symm.trans (h.callbacks tx htx).2)

/-- **Epoch**: whole submissions leave every record of the epoch unsent or counted. -/
theorem sentInWhole_stake {s : DelegationSystem} (hfirst : FailsFirst rejected) (epochNumber : ℕ)
    (q : DepositRecord) : SentInWhole s (s.stake epochNumber rejected) q := by
  -- while the record is as it was, nothing of it has been sent
  refine (stake_rule (s := s)
    (P := fun t => SentInWhole s t q ∧
      (∀ r, t.records q.id = some r → r.status = .delegationQueue →
        t.sentFor q.id = s.sentFor q.id))
    (fun t r ht _ _ hr => ?_) ⟨.inl rfl, fun _ _ _ => rfl⟩).1
  obtain hsame | ⟨k, txs, z, z', hstaked, heq⟩ := stakeOne_cases (s := t) hfirst r
  · rw [hsame]
    exact ht
  rw [heq]
  have hsent := sentFor_sendAll hstaked q.id
  have hrecords : (t.sendAll k txs).records q.id =
      if q.id = r.id then some (stakedRecord txs.length r) else t.records q.id := by
    unfold records sendAll
    rw [hstaked.depositRecords, get?_set]
    rfl
  by_cases hid : q.id = r.id
  · rw [if_pos hid] at hsent hrecords
    have hbefore := ht.2 r (hid ▸ hr.stored) hr.status
    refine ⟨.inr ⟨_, hrecords, rfl, ?_⟩, fun r' hr' hstatus => ?_⟩
    · have hcounter : (stakedRecord txs.length r).delegationTxsInProgress = txs.length := by
        unfold stakedRecord
        rw [hr.counter, Nat.zero_add]
      rw [hsent, hbefore, hcounter]
    · rw [hrecords] at hr'
      cases hr'
      cases hstatus
  · rw [if_neg hid] at hsent
    rw [if_neg hid] at hrecords
    unfold SentInWhole
    rw [hsent, hrecords]
    exact ht

/-! ## The bound -/

/-- **Delegated once**: in a run of whole submissions, what is sent for a record from the
    queue stays within its amount, apart from batches that came back; no callback of a
    pending batch fails at a counter; and an epoch leaves every record that it takes unsent or
    in progress with all its batches counted. -/
theorem delegated_within_deposit {s₀ s₁ s : DelegationSystem} {r : DepositRecord}
    (hstart : s₀.StartedClean) (hrun₁ : Reaches step WholeSubmissions s₀ s₁)
    (hr : s₁.records r.id = some r) (hstatus : r.status = .delegationQueue)
    (hamount : 0 ≤ r.amount) (hnew : ∀ p ∈ s₁.sent, p.recordId ≠ r.id)
    (hrun : Reaches step WholeSubmissions s₁ s) :
    s.delegated r.id ≤ r.amount ∧
    (∀ p ∈ s.sent, p.outcome = none → ∀ status e,
      delegateCallback s.keeper p.tx.callback status = .error e → ¬ CounterError e) ∧
    (∀ epochNumber rejected s', s.WholeSubmissions (.stake epochNumber rejected) →
      s.step (.stake epochNumber rejected) = some s' →
      ∀ q ∈ stakeDepositRecords s.keeper epochNumber, SentInWhole s s' q) := by
  have hinv₁ : s₁.OnceInv := hrun₁.invariant hstart.onceInv
    fun s l s' hi hok hs => hi.step hok hs
  have hzero (outcome : Option AckStatus) : s₁.amountWith r.id outcome = 0 := by
    apply sum_map_eq_zero
    intro p hp
    exact if_neg fun hcond => hnew p hp hcond.1
  -- nothing was sent for the record, so all of it is left
  have hwithin₁ : DelegatedWithin r.id r.amount s₁ := by
    refine ⟨hinv₁.counter.ids r.id r hr, fun r' hr' => ?_, ?_⟩
    · rw [hr] at hr'
      cases hr'
      rw [hzero, hzero, zero_add]
      exact ⟨.inl hstatus, rfl, hamount⟩
    · unfold delegated
      rw [hzero, hzero]
      exact hamount
  obtain ⟨hinv, hwithin⟩ : s.OnceInv ∧ DelegatedWithin r.id r.amount s := by
    apply hrun.invariant
    · exact ⟨hinv₁, hwithin₁⟩
    · intro t l t' hi hok hs
      exact ⟨hi.1.step hok hs, hi.2.step hi.1 hok hs⟩
  refine ⟨hwithin.within, fun p hp hnone status e herr => ?_,
    fun epochNumber rejected s' hok hs q _ => ?_⟩
  · refine delegateCallback_error (fun q hq hcounter => ?_) (fun z hz a n hn => ?_) herr
    · exact hinv.outcome_ne_none hq hcounter hp rfl hnone
    · -- the counter covers the packets in flight, this one included
      refine le_trans ?_ (hinv.changes p.zone z hz a n hn)
      rw [Nat.cast_le]
      apply single_le_sum (fun _ _ => Nat.zero_le _)
      exact mem_map.mpr ⟨p, hp, if_pos ⟨rfl, hnone⟩⟩
  · cases hs
    exact sentInWhole_stake hok.1 epochNumber q

/-! ## A rejected second batch -/

private theorem oneDepositQueued_startedClean : oneDepositQueued.StartedClean where
  started := oneDepositQueued_started
  changes c z hz a n hn := by
    have hz' : (empty.set twoValidatorZone : HostZoneStore).get? c = some z := hz
    rw [get?_set] at hz'
    split at hz'
    · cases hz'
      obtain ⟨v, hv, rfl⟩ := Option.map_eq_some_iff.mp hn
      have hmem := mem_of_find?_eq_some hv
      have hall : ∀ v ∈ twoValidatorZone.validators, 0 ≤ v.delegationChangesInProgress := by decide
      exact hall v hmem
    · cases hz'

/-- The error of the callback of the transaction at index `i`, were it acknowledged now. -/
def callbackError (s : DelegationSystem) (i : ℕ) (status : AckStatus) : Option ErrorCode :=
  (s.sent[i]?).bind fun p =>
    match delegateCallback s.keeper p.tx.callback status with
    | .error e => some e.code
    | .ok _ => none

/-- **Sent again**: the second of two batches is rejected. The record stays in the queue with
    counter 0, so that the callback of the first batch fails, and the next epoch sends the
    whole deposit of 200 on top of the 100 that are on their way. -/
theorem partial_submission_sent_again :
    oneDepositQueued.StartedClean ∧
    ((runSteps step oneDepositQueued [.stake 2 [(0, 1)]]).bind fun s =>
      (s.records 0).map fun r =>
        (r.status, r.delegationTxsInProgress, s.sentFor 0, s.callbackError 0 .success)) =
      some (.delegationQueue, 0, 1, some .errInvalidDelegationsInProgress) ∧
    ((runSteps step oneDepositQueued [.stake 2 [(0, 1)], .stake 3 []]).bind
      fun s => (s.records 0).map fun r => (r.amount, s.delegated 0)) = some (200, 300) := by
  refine ⟨oneDepositQueued_startedClean, ?_, ?_⟩
  · decide +kernel
  · decide +kernel

/-- A rejected first batch, a failed batch, the retry of what it left, and a timeout with the
    restore that follows. -/
def retriedInWhole : List DelegationEvent :=
  [.stake 2 [(0, 0)], .stake 3 [], .ack 0 .failure, .ack 1 .success, .stake 4 [],
    .ack 2 .timeout, .ack 3 .timeout, .restore "host", .stake 5 []]

theorem delegated_within_deposit_retriedInWhole :
    ∃ s, runAllowed step WholeSubmissions oneDepositQueued
        retriedInWhole = some s ∧ s.sentFor 0 = 6 ∧ s.delegated 0 = 200 ∧ s.delegated 0 ≤ 200 := by
  refine exists_run_end (by decide +kernel) ⟨by decide +kernel, by decide +kernel, ?_⟩
  exact (delegated_within_deposit (r := ⟨0, 200, "host", .delegationQueue, 1, 0⟩)
    oneDepositQueued_startedClean .refl rfl rfl (by decide) (fun p hp => by cases hp) (.of_get _)).1

end DelegationSystem

end Stride.Stakeibc
