import Stride.Lib.Runs
import Stride.Stakeibc.RedemptionSweep

/-!
# The Unbonding of a Host Zone as a System

The keepers of one host zone together with the packets that are on their way to the host
and back. Undelegations and redemption sweeps use the same ordered channel of the
delegation account; `inFlight` lists its packets in the order they were sent, so that an
acknowledgement in channel order is one at index `0`.

A keeper function that returns an error discards its writes, so an event whose keeper
function fails is not a step.

The submissions and the completed sweeps are history: no step depends on them.
-/

namespace Stride.Stakeibc

open Lib Sdk Records

/-! ## State -/

/-- A packet on the channel of the delegation account. An undelegation is tagged with the
    submission it belongs to, a sweep with the native amount it moves for each record. -/
inductive Packet where
  | undelegate (submission : ℕ) (tx : UndelegateTx)
  | redemption (tx : RedemptionTx) (amounts : List (ℕ × ℤ))
  deriving DecidableEq

/-- History of one submission: the records it still answers for, and the transactions of
    it that failed and were not submitted again. -/
structure Submission where
  records : List ℕ
  failed : List UndelegateTx
  deriving DecidableEq

/-- The keepers, the packets in flight, and the history. -/
structure UnbondingSystem where
  keeper : UnbondingKeeper
  inFlight : List Packet
  submissions : List Submission
  swept : List (List (ℕ × ℤ))

inductive UnbondingEvent where
  /-- `UnbondFromHostZone` at a day epoch. -/
  | submit (submitTxs : ℕ → Bool)
  /-- `SweepUnbondedTokensForHostZone` at a stride epoch. -/
  | sweep (hostBlockTime : ℕ) (submitTxs : Bool)
  /-- The acknowledgement or timeout of the packet at index `i`. -/
  | ack (i : ℕ) (ack : UndelegateAck)
  /-- Anything else the chain does. -/
  | environment (k : UnbondingKeeper)

def UnbondingKeeper.view (k : UnbondingKeeper) : ℕ → Option HostZoneUnbonding :=
  hostZoneUnbondings k.epochUnbondingRecords k.hostZone.chainId

/-- The epochs that the next submission takes. -/
def UnbondingKeeper.queuedEpochs (k : UnbondingKeeper) : List ℕ :=
  k.queuedRecords.map Prod.fst

/-! ## Steps -/

/-- A submission that shares a record with a later one hands over what had failed. -/
def Submission.handOver (taken : List ℕ) (sub : Submission) : Submission :=
  if sub.records.any (· ∈ taken) then ⟨sub.records.filter (· ∉ taken), []⟩ else sub

/-- A failed transaction is remembered until its records are submitted again. -/
def Submission.acked (tx : UndelegateTx) (status : AckStatus) (sub : Submission) : Submission :=
  if status = .failure then { sub with failed := tx :: sub.failed } else sub

namespace UnbondingSystem

/-- History of a submission that sent `txs`. -/
def afterSubmit (s : UnbondingSystem) (k : UnbondingKeeper) (txs : List UndelegateTx) :
    UnbondingSystem :=
  if txs = [] then { s with keeper := k }
  else
    { s with
      keeper := k
      inFlight := s.inFlight ++ txs.map (Packet.undelegate s.submissions.length)
      submissions := s.submissions.map (Submission.handOver s.keeper.queuedEpochs) ++
        [⟨s.keeper.queuedEpochs, []⟩] }

/-- A sweep marks its records, and its transaction is in flight. -/
def afterSweep (s : UnbondingSystem) (tx : RedemptionTx) (swept : EpochRecords)
    (records : EpochUnbondingStore) : UnbondingSystem :=
  { s with
    keeper := { s.keeper with epochUnbondingRecords := records }
    inFlight := s.inFlight ++ [.redemption tx (swept.map fun p => (p.1, p.2.nativeTokenAmount))] }

/-- A sweep is acknowledged, which leaves the keepers `k`. -/
def afterSweepAck (s : UnbondingSystem) (i : ℕ) (amounts : List (ℕ × ℤ)) (status : AckStatus)
    (k : UnbondingKeeper) : UnbondingSystem :=
  { s with
    keeper := k
    inFlight := s.inFlight.eraseIdx i
    swept := if status = .success then s.swept ++ [amounts] else s.swept }

/-- The acknowledgement of the packet at index `i`. -/
def acknowledge (s : UnbondingSystem) (i : ℕ) (ack : UndelegateAck) : Option UnbondingSystem :=
  match s.inFlight[i]? with
  | none => none
  | some (.undelegate j tx) =>
    match undelegateCallback s.keeper tx.callback ack with
    | .error _ => none
    | .ok k => some { s with
        keeper := k
        inFlight := s.inFlight.eraseIdx i
        submissions := s.submissions.modify j (Submission.acked tx ack.status) }
  | some (.redemption tx amounts) =>
    match redemptionCallback s.keeper tx.callback ack.status with
    | .error _ => none
    | .ok k => some (s.afterSweepAck i amounts ack.status k)

/-- The state after an event, or `none` if the event cannot happen. -/
def step (s : UnbondingSystem) : UnbondingEvent → Option UnbondingSystem
  | .submit submitTxs =>
    match unbondFromHostZone s.keeper submitTxs with
    | .error _ => none
    | .ok (k, txs) => some (s.afterSubmit k txs)
  | .sweep hostBlockTime submitTxs =>
    match sweepUnbondedTokensForHostZone s.keeper hostBlockTime submitTxs with
    | .error _ => none
    | .ok (k, none) => some { s with keeper := k }
    | .ok (k, some tx) => some { s with
        keeper := k
        inFlight := s.inFlight ++ [.redemption tx
          ((sweptRecords s.keeper.epochUnbondingRecords s.keeper.hostZone.chainId
            hostBlockTime).map fun p => (p.1, p.2.nativeTokenAmount))] }
  | .ack i ack => s.acknowledge i ack
  | .environment k => some { s with keeper := k }

end UnbondingSystem

/-! ## The environment -/

/-- The environment may create records, redeem into queued ones, pay out claims, and change
    the validators and settings of the zone. It does not touch a record that has left the
    queue, apart from its claimable amount. -/
structure EnvironmentChange (k k' : UnbondingKeeper) : Prop where
  chainId : k'.hostZone.chainId = k.hostZone.chainId
  wellFormed : k'.WellFormed
  kept : ∀ e r, k.view e = some r → r.status ≠ .unbondingQueue →
    ∃ claimable, k'.view e = some { r with claimableNativeTokens := claimable }
  queued : ∀ e r', k'.view e = some r' →
    (∀ r, k.view e = some r → r.status = .unbondingQueue) →
    r'.status = .unbondingQueue ∧ r'.undelegationTxsInProgress = 0

/-- Events the environment may bring about. -/
def UnbondingSystem.Allowed (s : UnbondingSystem) : UnbondingEvent → Prop
  | .environment k => EnvironmentChange s.keeper k
  | _ => True

noncomputable instance (s : UnbondingSystem) (l : UnbondingEvent) : Decidable (s.Allowed l) :=
  match l with
  | .environment _ => Classical.propDecidable _
  | .submit _ | .sweep _ _ | .ack _ _ => instDecidableTrue

/-! ## Inversion of a step -/

variable {l : UnbondingEvent}

/-- **Step inversion**: what each event does, with the keeper function behind it. -/
theorem UnbondingSystem.step_cases {s s' : UnbondingSystem} (h : s.step l = some s') :
    (∃ submitTxs k txs, l = .submit submitTxs ∧
      unbondFromHostZone s.keeper submitTxs = .ok (k, txs) ∧ s' = s.afterSubmit k txs) ∨
    (∃ hostBlockTime submitTxs k sent, l = .sweep hostBlockTime submitTxs ∧
      sweepUnbondedTokensForHostZone s.keeper hostBlockTime submitTxs = .ok (k, sent) ∧
      (sent = none ∧ s' = s ∨ ∃ tx swept records, sent = some tx ∧
        Sweeps s.keeper hostBlockTime tx swept records ∧ s' = s.afterSweep tx swept records)) ∨
    (∃ i ack j tx k, l = .ack i ack ∧ s.inFlight[i]? = some (.undelegate j tx) ∧
      undelegateCallback s.keeper tx.callback ack = .ok k ∧
      s' = { s with
        keeper := k
        inFlight := s.inFlight.eraseIdx i
        submissions := s.submissions.modify j (Submission.acked tx ack.status) }) ∨
    (∃ i ack tx amounts k, l = .ack i ack ∧ s.inFlight[i]? = some (.redemption tx amounts) ∧
      redemptionCallback s.keeper tx.callback ack.status = .ok k ∧
      s' = s.afterSweepAck i amounts ack.status k) ∨
    (∃ k, l = .environment k ∧ s' = { s with keeper := k }) := by
  cases l with
  | submit submitTxs =>
    left
    simp only [step] at h
    split at h
    · cases h
    rename_i k txs hsubmit
    cases h
    exact ⟨submitTxs, k, txs, rfl, hsubmit, rfl⟩
  | sweep hostBlockTime submitTxs =>
    right; left
    simp only [step] at h
    split at h
    · cases h
    · rename_i k hsweep
      cases h
      obtain ⟨-, rfl⟩ | ⟨_, _, _, hsent, -⟩ := sweepUnbondedTokensForHostZone_spec hsweep
      · exact ⟨hostBlockTime, submitTxs, s.keeper, none, rfl, hsweep, .inl ⟨rfl, rfl⟩⟩
      · cases hsent
    · rename_i k tx hsweep
      cases h
      obtain ⟨hnone, -⟩ | ⟨_, swept, records, hsent, rfl, hsweeps⟩ :=
        sweepUnbondedTokensForHostZone_spec hsweep
      · cases hnone
      · cases hsent
        refine ⟨hostBlockTime, submitTxs, _, some tx, rfl, hsweep, .inr ⟨tx, swept, records, rfl,
          hsweeps, ?_⟩⟩
        -- the event marks the records that are ready
        rw [afterSweep, hsweeps.ready]
  | ack i ack =>
    right; right
    simp only [step, acknowledge] at h
    split at h
    · cases h
    · rename_i j tx hpacket
      split at h
      · cases h
      rename_i k hcallback
      cases h
      exact .inl ⟨i, ack, j, tx, k, rfl, hpacket, hcallback, rfl⟩
    · rename_i tx amounts hpacket
      split at h
      · cases h
      rename_i k hcallback
      cases h
      exact .inr (.inl ⟨i, ack, tx, amounts, k, rfl, hpacket, hcallback, rfl⟩)
  | environment k =>
    cases h
    exact .inr (.inr (.inr (.inr ⟨k, rfl, rfl⟩)))

theorem UnbondingSystem.step_undelegateAck {s s' : UnbondingSystem} {i j : ℕ}
    {ack : UndelegateAck} {tx : UndelegateTx} (hpacket : s.inFlight[i]? = some (.undelegate j tx))
    (h : s.step (.ack i ack) = some s') :
    ∃ k, undelegateCallback s.keeper tx.callback ack = .ok k ∧ s'.keeper = k := by
  simp only [step, acknowledge, hpacket] at h
  split at h
  · cases h
  rename_i k hcallback
  cases h
  exact ⟨k, hcallback, rfl⟩

/-! ## The records of the zone -/

section Records

variable {k k' : UnbondingKeeper} {e : ℕ}

theorem UnbondingKeeper.view_eq (hchain : k'.hostZone.chainId = k.hostZone.chainId) (e : ℕ) :
    k'.view e = hostZoneUnbondings k'.epochUnbondingRecords k.hostZone.chainId e := by
  rw [view, hchain]

theorem view_of_rewrites {records : EpochUnbondingStore} {epochs : List ℕ}
    {g : HostZoneUnbonding → HostZoneUnbonding}
    (h : Rewrites k.hostZone.chainId epochs g k.epochUnbondingRecords records) (e : ℕ) :
    UnbondingKeeper.view { k with epochUnbondingRecords := records } e =
      if e ∈ epochs then (k.view e).map g else k.view e := by
  simpa [UnbondingKeeper.view] using h.view k.hostZone.chainId e

/-- Only the queued records change. -/
theorem view_of_queuedBecame {R : HostZoneUnbonding → HostZoneUnbonding → Prop}
    {out : EpochRecords} (h : QueuedBecame R k k' out)
    (hchain : k'.hostZone.chainId = k.hostZone.chainId) (e : ℕ) :
    (e ∉ k.queuedEpochs ∧ k'.view e = k.view e) ∨
      (e ∈ k.queuedEpochs ∧ ∃ r r', k.view e = some r ∧ k'.view e = some r' ∧ R r r') := by
  rw [UnbondingKeeper.view_eq hchain]
  by_cases he : e ∈ k.queuedEpochs
  · obtain ⟨p, hp, rfl⟩ := List.mem_map.mp he
    obtain ⟨q, hq, hepoch, hpq⟩ := forall₂_exists_right h.related hp
    have hq' := h.fetched q hq
    rw [← hepoch] at hq'
    exact .inr ⟨he, p.2, q.2, (mem_selectHostZoneUnbondings.mp hp).1, hq', hpq⟩
  · exact .inl ⟨he, h.same.epoch e he⟩

end Records

/-! ## A small system -/

/-- A queued record of 100 stTokens of one user. -/
def queuedRecord (epochNumber : ℕ) (user : String) : EpochUnbondingRecord :=
  ⟨epochNumber, [⟨100, 0, 0, 0, 0, 0, "uatom", "host", 0, .unbondingQueue, [user]⟩]⟩

def twoRecordsQueued : UnbondingSystem where
  keeper :=
    { hostZone := twoValidatorZone
      epochUnbondingRecords := (EpochUnbondingStore.empty.setEpochUnbondingRecord
        (queuedRecord 1 "a")).setEpochUnbondingRecord (queuedRecord 2 "b")
      userRedemptionRecords :=
        (KeyedStore.empty.set (redemptionOf "a" 100)).set (redemptionOf "b" 100)
      bank := ⟨200, 400⟩ }
  inFlight := []
  submissions := []
  swept := []

theorem twoRecordsQueued_wellFormed : twoRecordsQueued.keeper.WellFormed :=
  ⟨by decide, (nonnegUsers_empty.set (by decide)).set (by decide)⟩

/-- A successful acknowledgement of the oldest packet; undelegations complete at time 5. -/
def successAck : UnbondingEvent := .ack 0 ⟨.success, [some 5]⟩

def failureAck : UnbondingEvent := .ack 0 ⟨.failure, []⟩

/-- The first batch succeeds, the second fails and is submitted again. -/
def retriedRun : List UnbondingEvent :=
  [.submit fun _ => true, successAck, failureAck, .submit fun _ => true]

end Stride.Stakeibc
