import Stride.Stakeibc.SweepOnce
import Mathlib.Algebra.BigOperators.Group.Finset.Piecewise
import Mathlib.Algebra.Order.BigOperators.Group.Finset

/-!
# Sweeps Spend Matured Undelegations

A successful batch of undelegations carries the time at which the host will release its tokens.
Batches are not tied to records: the cascade takes a batch off the earliest records that have
something left, and raises the unbonding time of every record of the submission that was not
complete, whether it got tokens of the batch or not. So the unbonding time of a record is at least
the completion time of each batch that paid for it.

For every time, what records with an earlier unbonding time have been paid is at most what
undelegations with an earlier completion time have released. This is the invariant; a sweep only
takes complete records with an unbonding time before the time of the light client.
-/

namespace Stride.Stakeibc

open Lib Sdk Records List UnbondingSystem Packet

/-! ## History -/

namespace UnbondingSystem

/-- The undelegations that an event completes, with the completion times of the host. -/
def completed (s : UnbondingSystem) : UnbondingEvent → List (SplitUndelegation × Option ℤ)
  | .ack i ack =>
    match s.inFlight[i]? with
    | some (.undelegate _ tx) =>
      if ack.status = .success then tx.callback.splitUndelegations.zip ack.msgResponses else []
    | _ => []
  | _ => []

/-- The sweep that an event sends, with the time of the light client. -/
def sweepSent (s : UnbondingSystem) : UnbondingEvent → Option (ℕ × RedemptionTx)
  | .sweep hostBlockTime submitTxs =>
    match sweepUnbondedTokensForHostZone s.keeper hostBlockTime submitTxs with
    | .ok (_, some tx) => some (hostBlockTime, tx)
    | _ => none
  | _ => none

/-- The sweep whose failure an event acknowledges. -/
def sweepFailed (s : UnbondingSystem) : UnbondingEvent → Option RedemptionTx
  | .ack i ack =>
    match s.inFlight[i]? with
    | some (.redemption tx _) => if ack.status = .failure then some tx else none
    | _ => none
  | _ => none

end UnbondingSystem

/-- The unbonding of a zone with the history of what was undelegated and swept. -/
structure SweepLedger where
  system : UnbondingSystem
  /-- the undelegations that succeeded, with their completion times -/
  undelegations : List (SplitUndelegation × Option ℤ)
  /-- the total of the sweeps that were sent and have not failed -/
  sweptAmount : ℤ
  /-- the time of the light client at the latest sweep that was sent -/
  lastSweep : ℕ

/-- What undelegations that complete before a time release. -/
def maturedAmount (time : ℕ) (undelegations : List (SplitUndelegation × Option ℤ)) : ℤ :=
  ((undelegations.filter fun u => u.2.any fun completionTime : ℤ => completionTime < time).map
    fun u => u.1.nativeTokenAmount).sum

namespace SweepLedger

/-- One event, with its history. -/
def step (s : SweepLedger) (l : UnbondingEvent) : Option SweepLedger :=
  (s.system.step l).map fun system =>
    { system := system
      undelegations := s.undelegations ++ s.system.completed l
      sweptAmount := s.sweptAmount + (s.system.sweepSent l).elim 0 (fun sent => sent.2.amount.2) -
        (s.system.sweepFailed l).elim 0 (fun tx => tx.amount.2)
      lastSweep := (s.system.sweepSent l).elim s.lastSweep Prod.fst }

/-- What the host and the light client guarantee: no packet times out, a success carries the
    completion time of each of its undelegations, the time of the light client does not go back. -/
def HostAnswers (s : SweepLedger) : UnbondingEvent → Prop
  | .sweep hostBlockTime _ => s.lastSweep ≤ hostBlockTime
  | .ack i ack => ack.status ≠ .timeout ∧ ∀ j tx,
      s.system.inFlight[i]? = some (.undelegate j tx) → ack.status = .success →
        ack.msgResponses.length = tx.callback.splitUndelegations.length
  | _ => True

/-- The events of a run: those the chain and the host allow, where no batch is acknowledged as a
    success after a sweep of one of its records. -/
def Orderly (s : SweepLedger) (l : UnbondingEvent) : Prop :=
  s.system.Allowed l ∧ s.system.lateSuccess l = false ∧ s.HostAnswers l

instance (o : Option Packet) {p : ℕ → UndelegateTx → Prop} [∀ j tx, Decidable (p j tx)] :
    Decidable (∀ j tx, o = some (.undelegate j tx) → p j tx) :=
  match o with
  | some (.undelegate j tx) => decidable_of_iff (p j tx) (by simp)
  | some (.redemption _ _) | none => .isTrue (by simp)

instance (s : SweepLedger) (l : UnbondingEvent) : Decidable (s.HostAnswers l) := by
  apply @UnbondingEvent.casesOn _ l <;> intros <;> dsimp only [HostAnswers] <;> infer_instance

noncomputable instance (s : SweepLedger) (l : UnbondingEvent) : Decidable (s.Orderly l) :=
  inferInstanceAs (Decidable (_ ∧ _))

structure NothingSubmitted (s : SweepLedger) : Prop where
  wellFormed : s.system.keeper.WellFormed
  records : ∀ e r, s.system.keeper.view e = some r →
    r.status = .unbondingQueue ∧ r.undelegationTxsInProgress = 0
  inFlight : s.system.inFlight = []
  swept : s.system.swept = []
  undelegations : s.undelegations = []
  sweptAmount : s.sweptAmount = 0

/-! ## Invariant -/

end SweepLedger

/-- Where a record is in its life, as far as the sweeps depend on it. -/
structure Progressed (lastSweep : ℕ) (r : HostZoneUnbonding) : Prop where
  queued : r.status = .unbondingQueue → r.undelegationTxsInProgress = 0
  nonneg : r.status ≠ .unbondingQueue → 0 ≤ r.nativeTokensToUnbond
  le : r.status ≠ .unbondingQueue → r.nativeTokensToUnbond ≤ r.nativeTokenAmount
  complete : 2 ≤ stage r.status → r.nativeTokensToUnbond = 0
  matured : 3 ≤ stage r.status → r.unbondingTime < lastSweep

/-- What was unbonded for a record with an unbonding time before `time`. -/
def unbondedBefore (time : ℕ) : Option HostZoneUnbonding → ℤ
  | none => 0
  | some r =>
    if r.status ≠ .unbondingQueue ∧ r.unbondingTime < time then
      r.nativeTokenAmount - r.nativeTokensToUnbond
    else 0

variable {r r' : HostZoneUnbonding} {responses : List (Option ℤ)}
  {out recs : EpochRecords} {subs : List Submission}
  {o o' : Option HostZoneUnbonding} {l : UnbondingEvent} {k k' : UnbondingKeeper}
  {ack : UndelegateAck} {callback : UndelegateCallback} {tx : UndelegateTx}
  {i j lastSweep lastSweep' latest time : ℕ}

private theorem stage_unbondingQueue {n : ℕ} (hstage : n < stage r.status) :
    r.status ≠ .unbondingQueue := by
  intro hqueue
  rw [hqueue] at hstage
  exact absurd hstage (Nat.not_lt_zero n)

private theorem unbondedBefore_nonneg (h : ∀ r, o = some r → Progressed lastSweep r) (time : ℕ) :
    0 ≤ unbondedBefore time o := by
  cases o with
  | none => exact le_rfl
  | some r =>
    simp only [unbondedBefore]
    split
    · rename_i hcond
      exact sub_nonneg.mpr ((h r rfl).le hcond.1)
    · exact le_rfl

/-- What a record can become in a step that unbonds nothing: it is in the queue, it was just
    submitted, or it has the amounts and the unbonding time it had. -/
def Carries (lastSweep : ℕ) (o o' : Option HostZoneUnbonding) : Prop :=
  ∀ r', o' = some r' →
    (r'.status = .unbondingQueue ∧ r'.undelegationTxsInProgress = 0) ∨
    (stage r'.status = 1 ∧ 0 ≤ r'.nativeTokenAmount ∧
      r'.nativeTokensToUnbond = r'.nativeTokenAmount) ∨
    ∃ r, o = some r ∧ r.status ≠ .unbondingQueue ∧ r'.status ≠ .unbondingQueue ∧
      r'.nativeTokenAmount = r.nativeTokenAmount ∧
      r'.nativeTokensToUnbond = r.nativeTokensToUnbond ∧ r'.unbondingTime = r.unbondingTime ∧
      (2 ≤ stage r'.status → 2 ≤ stage r.status) ∧
      (3 ≤ stage r'.status → 3 ≤ stage r.status ∨ r.unbondingTime < lastSweep)

private theorem carries_refl (h : ∀ r, o = some r → Progressed lastSweep r) :
    Carries lastSweep' o o := by
  intro r hr
  by_cases hqueue : r.status = .unbondingQueue
  · exact .inl ⟨hqueue, (h r hr).queued hqueue⟩
  · exact .inr (.inr ⟨r, hr, hqueue, hqueue, rfl, rfl, rfl, id, Or.inl⟩)

private theorem Carries.progressed (hcarries : Carries lastSweep' o o')
    (hle : lastSweep ≤ lastSweep')
    (h : ∀ r, o = some r → Progressed lastSweep r) :
    ∀ r', o' = some r' → Progressed lastSweep' r' := by
  intro r' hr'
  rcases hcarries r' hr' with ⟨hqueue, htxs⟩ | ⟨hstage, hnonneg, hfull⟩ |
    ⟨r, hr, hne, hne', hnative, hleft, htime, hcomplete, hmatured⟩
  · -- still queued
    have hstage : stage r'.status = 0 := by rw [hqueue]; rfl
    exact ⟨fun _ => htxs, fun hne => absurd hqueue hne, fun hne => absurd hqueue hne,
      fun h2 => by omega, fun h3 => by omega⟩
  · -- just submitted
    exact ⟨fun hqueue => absurd hqueue (stage_unbondingQueue (n := 0) (by omega)),
      fun _ => hfull ▸ hnonneg, fun _ => hfull.le, fun h2 => by omega, fun h3 => by omega⟩
  · -- as far as before, or swept since
    have hp := h r hr
    refine ⟨fun hqueue => absurd hqueue hne', fun _ => ?_, fun _ => ?_, fun h2 => ?_, fun h3 => ?_⟩
    · rw [hleft]
      exact hp.nonneg hne
    · rw [hleft, hnative]
      exact hp.le hne
    · rw [hleft]
      exact hp.complete (hcomplete h2)
    · rw [htime]
      rcases hmatured h3 with h3' | hlt
      · exact (hp.matured h3').trans_le hle
      · exact hlt

private theorem Carries.unbondedBefore_le (hcarries : Carries lastSweep' o o')
    (h : ∀ r, o = some r → Progressed lastSweep r) (time : ℕ) :
    unbondedBefore time o' ≤ unbondedBefore time o := by
  have hnonneg := unbondedBefore_nonneg h time
  cases o' with
  | none => exact hnonneg
  | some r' =>
    rcases hcarries r' rfl with ⟨hqueue, -⟩ | ⟨-, -, hfull⟩ |
      ⟨r, rfl, hne, hne', hnative, hleft, htime, -, -⟩
    · simpa [unbondedBefore, hqueue] using hnonneg
    · refine le_trans (le_of_eq ?_) hnonneg
      simp only [unbondedBefore, hfull, sub_self, ite_self]
    · refine le_of_eq ?_
      simp only [unbondedBefore, hnative, hleft, htime, ne_eq, hne, hne', not_false_eq_true]

namespace SweepLedger

/-- The sweeps and their records, and what was unbonded against what has matured. -/
structure Matured (s : SweepLedger) : Prop where
  sweeps : s.system.SweepInv
  splits : ∀ j tx, .undelegate j tx ∈ s.system.inFlight →
    ∀ u ∈ tx.callback.splitUndelegations, 0 ≤ u.nativeTokenAmount
  amounts : ∀ tx amounts, .redemption tx amounts ∈ s.system.inFlight →
    tx.amount.2 = (amounts.map Prod.snd).sum
  total : s.sweptAmount = ((s.system.swept.flatten ++
    s.system.inFlight.flatMap sweptAmounts).map Prod.snd).sum
  records : ∀ e r, s.system.keeper.view e = some r → Progressed s.lastSweep r
  unbonded : ∀ (time : ℕ) (epochs : Finset ℕ),
    ∑ e ∈ epochs, unbondedBefore time (s.system.keeper.view e) ≤
      maturedAmount time s.undelegations

variable {s s' : SweepLedger}

private theorem NothingSubmitted.matured (h : s.NothingSubmitted) : s.Matured where
  sweeps := BeforeSweeps.sweepInv
    ⟨h.wellFormed, h.swept, by simp [h.inFlight], by simp [h.inFlight]⟩
  splits := by simp [h.inFlight]
  amounts := by simp [h.inFlight]
  total := by simp [h.sweptAmount, h.swept, h.inFlight]
  records e r hr := by
    obtain ⟨hqueue, htxs⟩ := h.records e r hr
    exact ⟨fun _ => htxs, by simp [hqueue], by simp [hqueue], by simp [hqueue, stage],
      by simp [hqueue, stage]⟩
  unbonded time epochs := by
    rw [h.undelegations]
    apply le_of_eq
    apply Finset.sum_eq_zero
    intro e _
    cases hr : s.system.keeper.view e with
    | none => rfl
    | some r => simp [unbondedBefore, (h.records e r hr).1]

/-- **Steps that unbond nothing.** -/
theorem Matured.of_carries (h : s.Matured) {system : UnbondingSystem} {sweptAmount : ℤ}
    (hsweeps : system.SweepInv) (hsplits : ∀ j tx, .undelegate j tx ∈ system.inFlight →
      ∀ u ∈ tx.callback.splitUndelegations, 0 ≤ u.nativeTokenAmount)
    (hamounts : ∀ tx amounts, .redemption tx amounts ∈ system.inFlight →
      tx.amount.2 = (amounts.map Prod.snd).sum) (htotal : sweptAmount = ((system.swept.flatten ++
      system.inFlight.flatMap sweptAmounts).map Prod.snd).sum)
    (hle : s.lastSweep ≤ lastSweep)
    (hcarries : ∀ e, Carries lastSweep (s.system.keeper.view e) (system.keeper.view e)) :
    Matured ⟨system, s.undelegations, sweptAmount, lastSweep⟩ where
  sweeps := hsweeps
  splits := hsplits
  amounts := hamounts
  total := htotal
  records e := (hcarries e).progressed hle (h.records e)
  unbonded time epochs := by
    refine le_trans (Finset.sum_le_sum fun e _ => ?_) (h.unbonded time epochs)
    exact (hcarries e).unbondedBefore_le (h.records e) time

/-! ## Steps -/

private theorem carries_of_queuedBecame {R : HostZoneUnbonding → HostZoneUnbonding → Prop}
    (hbecame : QueuedBecame R k k' out) (hchain : k'.hostZone.chainId = k.hostZone.chainId)
    (hrecords : ∀ e r, k.view e = some r → Progressed lastSweep r)
    (hR : ∀ r r', Progressed lastSweep r → R r r' → Carries lastSweep (some r) (some r')) (e : ℕ) :
    Carries lastSweep (k.view e) (k'.view e) := by
  rcases view_of_queuedBecame hbecame hchain e with ⟨-, hsame⟩ | ⟨-, r, r', hr, hr', hrel⟩
  · rw [hsame]
    exact carries_refl (hrecords e)
  · rw [hr, hr']
    exact hR r r' (hrecords e r hr) hrel

private theorem carries_of_refreshed (hp : Progressed lastSweep r) (h : Refreshed r r') :
    Carries lastSweep (some r) (some r') := by
  rcases h with ⟨hne, rfl⟩ | ⟨hqueue, n, hn, rfl⟩
  · exact carries_refl fun r hr => by cases hr; exact hp
  · intro r' hr'
    cases hr'
    exact .inl ⟨hqueue, hp.queued hqueue⟩

private theorem carries_of_submitted {numTxs : ℕ} (h : Submitted numTxs r r') :
    Carries lastSweep (some r) (some r') := by
  obtain ⟨r₁, hrefreshed, rfl⟩ := h
  intro r' hr'
  cases hr'
  right
  rcases hrefreshed with ⟨hne, rfl⟩ | ⟨hqueue, n, hn, rfl⟩
  · have hstage : stage (submittedRecord numTxs r₁).status = 1 := rfl
    exact .inr ⟨r₁, rfl, hne, by simp [submittedRecord], rfl, rfl, rfl, fun h2 => by omega,
      fun h3 => by omega⟩
  · exact .inl ⟨rfl, hn, rfl⟩

private theorem Matured.submit (h : s.Matured) {submitTxs : ℕ → Bool} {txs : List UndelegateTx}
    (hsubmit : unbondFromHostZone s.system.keeper submitTxs = .ok (k, txs))
    (hsweeps : (s.system.afterSubmit k txs).SweepInv) :
    Matured { s with system := s.system.afterSubmit k txs } := by
  obtain ⟨hchain, -, out, hcases⟩ := unbondFromHostZone_spec h.sweeps.wellFormed hsubmit
  have hcarries : ∀ e, Carries s.lastSweep (s.system.keeper.view e) (k.view e) := by
    rcases hcases with ⟨-, hbecame⟩ | ⟨hbecame, -⟩
    · exact carries_of_queuedBecame hbecame hchain h.records fun r r' => carries_of_refreshed
    · exact carries_of_queuedBecame hbecame hchain h.records fun r r' _ => carries_of_submitted
  have hsplits := splits_nonneg_of_unbondFromHostZone hsubmit
  by_cases htxs : txs = []
  · rw [afterSubmit, if_pos htxs] at hsweeps ⊢
    exact h.of_carries hsweeps h.splits h.amounts h.total le_rfl hcarries
  · rw [afterSubmit, if_neg htxs] at hsweeps ⊢
    refine h.of_carries hsweeps (fun j tx hp => ?_)
      (fun tx amounts hp => h.amounts tx amounts (by simpa using hp)) ?_ le_rfl hcarries
    · rcases mem_append.mp hp with hp | hp
      · exact h.splits j tx hp
      · obtain ⟨tx', htx', heq⟩ := mem_map.mp hp
        cases heq
        exact hsplits tx htx'
    · have hnil : txs.flatMap (fun _ => ([] : List (ℕ × ℤ))) = [] := by simp
      simpa [flatMap_map, sweptAmounts, hnil] using h.total

private theorem Matured.environment (h : s.Matured) (henv : EnvironmentChange s.system.keeper k)
    (hsweeps : SweepInv { s.system with keeper := k }) :
    Matured { s with system := { s.system with keeper := k } } := by
  refine h.of_carries hsweeps h.splits h.amounts h.total le_rfl fun e r' hr' => ?_
  by_cases hleft : ∃ r, s.system.keeper.view e = some r ∧ r.status ≠ .unbondingQueue
  · obtain ⟨r, hr, hne⟩ := hleft
    obtain ⟨claimable, hkept⟩ := henv.kept e r hr hne
    obtain rfl := Option.some.inj (hkept.symm.trans hr')
    exact .inr (.inr ⟨r, hr, hne, hne, rfl, rfl, rfl, id, Or.inl⟩)
  · -- a record that did not leave the queue is in the queue
    refine .inl (henv.queued e r' hr' fun r hr => ?_)
    by_contra hne
    exact hleft ⟨r, hr, hne⟩

/-- **A sweep** takes records that have matured. -/
theorem Matured.sweep (h : s.Matured) {hostBlockTime : ℕ} {tx : RedemptionTx}
    {records : EpochUnbondingStore} {swept : EpochRecords}
    (htime : s.lastSweep ≤ hostBlockTime)
    (hsweep : Sweeps s.system.keeper hostBlockTime tx swept records)
    (hsweeps : (s.system.afterSweep tx swept records).SweepInv) :
    Matured ⟨s.system.afterSweep tx swept records, s.undelegations, s.sweptAmount + tx.amount.2,
      hostBlockTime⟩ := by
  unfold afterSweep at hsweeps ⊢
  have hsum : ((swept.map fun p => (p.1, p.2.nativeTokenAmount)).map Prod.snd).sum =
      tx.amount.2 := by
    rw [hsweep.amount, map_map]
    rfl
  refine h.of_carries hsweeps (fun j tx' hp => h.splits j tx' (by simpa using hp))
    (fun tx' amounts hp => ?_) ?_ htime fun e r' hr' => ?_
  · rcases mem_append.mp hp with hp | hp
    · exact h.amounts tx' amounts hp
    · cases mem_singleton.mp hp
      exact hsum.symm
  · rw [flatMap_append, ← append_assoc, map_append, sum_append, ← h.total]
    simp only [flatMap_cons, flatMap_nil, append_nil, sweptAmounts, hsum]
  · rw [view_of_rewrites hsweep.marked] at hr'
    split at hr'
    · rename_i he
      obtain ⟨p, hp, rfl⟩ := mem_map.mp he
      -- the records of the sweep have matured
      obtain ⟨hr, hstatus, hbefore⟩ := of_mem_sweptRecords (hsweep.ready ▸ hp)
      replace hr : s.system.keeper.view p.1 = some p.2 := hr
      rw [hr] at hr'
      cases hr'
      exact .inr (.inr ⟨p.2, hr, by simp [hstatus], by simp, rfl, rfl, rfl,
        fun _ => by simp [hstatus, stage], fun _ => .inr hbefore⟩)
    · exact carries_refl (h.records e) r' hr'

/-- **A sweep is answered**: what failed does not count as swept. -/
theorem Matured.redemptionAck (h : s.Matured) {tx : RedemptionTx} {amounts : List (ℕ × ℤ)}
    {status : AckStatus} (hpacket : s.system.inFlight[i]? = some (.redemption tx amounts))
    (htimeout : status ≠ .timeout)
    (hcallback : redemptionCallback s.system.keeper tx.callback status = .ok k)
    (hsweeps : (s.system.afterSweepAck i amounts status k).SweepInv) :
    Matured ⟨s.system.afterSweepAck i amounts status k, s.undelegations,
      s.sweptAmount - (if status = .failure then some tx else none).elim 0
        (fun tx => tx.amount.2), s.lastSweep⟩ := by
  unfold afterSweepAck at hsweeps ⊢
  have hmem := mem_of_getElem? hpacket
  have hflat : (s.system.inFlight.flatMap sweptAmounts).Perm
      (amounts ++ (s.system.inFlight.eraseIdx i).flatMap sweptAmounts) :=
    (perm_cons_eraseIdx hpacket).flatMap_right sweptAmounts
  have hamounts := h.amounts tx amounts hmem
  have htotal := h.total
  rw [map_append, sum_append, (hflat.map Prod.snd).sum_eq, map_append,
    sum_append] at htotal
  have hnames := h.sweeps.sweep tx amounts hmem
  have hnd : tx.callback.epochUnbondingRecordIds.Nodup := by
    rw [hnames]
    have honce := ((Perm.append_left s.system.swept.flatten hflat).map Prod.fst).nodup_iff.mp
      h.sweeps.once
    rw [map_append, map_append] at honce
    exact (nodup_append.mp (nodup_append.mp honce).2.1).1
  obtain ⟨records, rfl, hrewrites⟩ := redemptionCallback_spec hnd hcallback
  rw [hnames] at hrewrites
  refine h.of_carries hsweeps (fun j tx' hp => h.splits j tx' (mem_of_mem_eraseIdx hp))
    (fun tx' am hp => h.amounts tx' am (mem_of_mem_eraseIdx hp)) ?_ le_rfl fun e r' hr' => ?_
  · cases status with
    | timeout => exact absurd rfl htimeout
    | failure =>
      simp only [if_true, Option.elim_some, reduceCtorEq, if_false, map_append,
        sum_append]
      omega
    | success =>
      simp only [if_true, Option.elim_none, reduceCtorEq, if_false, flatten_append,
        flatten_singleton, map_append, sum_append]
      omega
  · rw [view_of_rewrites hrewrites] at hr'
    split at hr'
    · -- the records of a sweep in flight are in progress
      rename_i he
      obtain ⟨p, hp, rfl⟩ := mem_map.mp he
      obtain ⟨r, hr, hstatus, -⟩ := h.sweeps.pending p (hflat.mem_iff.mpr
        (mem_append_left _ hp))
      rw [hr] at hr'
      cases hr'
      have hstage : stage r.status = 3 := by rw [hstatus]; rfl
      refine .inr (.inr ⟨r, hr, by simp [hstatus], ?_⟩)
      cases status with
      | timeout => exact absurd rfl htimeout
      | failure => simp [sweepOutcome, hstage]
      | success => simp [sweepOutcome, markClaimable, hstage]
    · exact carries_refl (h.records e) r' hr'

/-- **A failed batch** pays nothing. -/
theorem Matured.undelegateFailure (h : s.Matured)
    (hpacket : s.system.inFlight[i]? = some (.undelegate j tx)) (hack : ack.status = .failure)
    (hcallback : undelegateCallback s.system.keeper tx.callback ack = .ok k)
    (hsweeps : SweepInv ⟨k, s.system.inFlight.eraseIdx i, subs, s.system.swept⟩) :
    Matured { s with system := ⟨k, s.system.inFlight.eraseIdx i, subs, s.system.swept⟩ } := by
  have hflat : (s.system.inFlight.flatMap sweptAmounts).Perm
      ((s.system.inFlight.eraseIdx i).flatMap sweptAmounts) :=
    (perm_cons_eraseIdx hpacket).flatMap_right sweptAmounts
  obtain ⟨-, hset, -, recs, out, hfst, -, hrecs, hout, -, hchanges, hsame⟩ :=
    undelegateCallback_spec (h.sweeps.nodup j tx (mem_of_getElem? hpacket)) hcallback
  rw [hack] at hchanges
  obtain rfl : out = mapRecords (failedUndelegation ∘ ackReceived) recs := hchanges
  have hview := (rewrites_of_mapRecords hfst hrecs hout hsame).view
  refine h.of_carries hsweeps (fun j' tx' hp => h.splits j' tx' (mem_of_mem_eraseIdx hp))
    (fun tx' am hp => h.amounts tx' am (mem_of_mem_eraseIdx hp)) ?_ le_rfl fun e r' hr' => ?_
  · rw [h.total]
    exact ((Perm.append_left _ hflat).map Prod.snd).sum_eq
  · rw [UnbondingKeeper.view_eq (HostZone.chainId_eq_of_settings hset), hview] at hr'
    split at hr'
    · obtain ⟨r, hr, rfl⟩ := Option.map_eq_some_iff.mp hr'
      -- a queued record stays queued
      by_cases hqueue : r.status = .unbondingQueue
      · have htxs := (h.records e r hr).queued hqueue
        exact .inl (by simp [failedUndelegation, ackReceived, hqueue, htxs])
      · refine .inr (.inr ⟨r, hr, hqueue, ?_⟩)
        by_cases hprogress : r.status = .unbondingInProgress
        · simp [failedUndelegation, ackReceived, hprogress, stage]
        · simp only [Function.comp_apply, failedUndelegation, ackReceived, hprogress, if_false]
          exact ⟨hqueue, trivial, trivial, trivial, id, Or.inl⟩
    · exact carries_refl (h.records e) r' hr'

end SweepLedger

/-! ## A successful batch -/

/-- What a successful batch does to a record: nothing if it is complete, otherwise it takes some
    of what is left and raises the unbonding time. -/
def PaidByBatch (time : ℕ) (r r' : HostZoneUnbonding) : Prop :=
  (r.status = .exitTransferQueue ∧ r' = r) ∨
  (r.status ≠ .exitTransferQueue ∧ r'.nativeTokenAmount = r.nativeTokenAmount ∧
    (0 ≤ r.nativeTokensToUnbond →
      0 ≤ r'.nativeTokensToUnbond ∧ r'.nativeTokensToUnbond ≤ r.nativeTokensToUnbond) ∧
    r'.unbondingTime = max r.unbondingTime time ∧
    r'.status = if r'.nativeTokensToUnbond = 0 then .exitTransferQueue else r.status)

private theorem cascade_paidByBatch {tally tally' : UndelegationTally}
    (h : mapAccum (recordStep (undelegationBody time)) tally recs = .ok (tally', out))
    (htally : 0 ≤ tally.totalNativeTokensUnbonded) :
    Forall₂ (AtSameEpoch (PaidByBatch time)) recs out := by
  refine (mapAccum_forall₂ (I := fun t => 0 ≤ t.totalNativeTokensUnbonded)
    (fun acc p acc' q hacc hstep => ?_) htally h).2
  rcases recordStep_undelegationBody hstep with ⟨hexit, rfl, rfl⟩ | ⟨hexit, st, hst, rfl, rfl⟩
  · exact ⟨hacc, rfl, .inl ⟨hexit, rfl⟩⟩
  · refine ⟨?_, rfl, .inr ⟨hexit, rfl, fun hnonneg => ?_, ?_, ?_⟩⟩
    · dsimp only
      omega
    · simp only [afterUndelegation]
      omega
    · simp only [afterUndelegation]
      split <;> omega
    · -- with the last native token all stTokens of the record are burned
      simp only [afterUndelegation]
      by_cases hzero : p.2.nativeTokensToUnbond -
          min p.2.nativeTokensToUnbond acc.totalNativeTokensUnbonded = 0
      · rw [stTokensBurned, if_pos hzero] at hst
        cases hst
        simp [hzero]
      · simp [hzero]

private theorem le_of_latestCompletionTime {start : ℕ}
    (h : latestCompletionTime responses start = .ok latest) :
    start ≤ latest ∧ ∀ response ∈ responses, ∃ time : ℤ, response = some time ∧ time ≤ latest := by
  induction responses generalizing start with
  | nil =>
    cases h
    exact ⟨le_rfl, forall_mem_nil _⟩
  | cons response responses ih =>
    cases response with
    | none => cases h
    | some time =>
      unfold latestCompletionTime at h
      split at h
      · cases h
      obtain ⟨hstart, hrest⟩ := ih h
      split at hstart
      · exact ⟨by omega, forall_mem_cons.mpr ⟨⟨time, rfl, by omega⟩, hrest⟩⟩
      · exact ⟨hstart, forall_mem_cons.mpr ⟨⟨time, rfl, by omega⟩, hrest⟩⟩

private theorem maturedAmount_append (time : ℕ) (us vs : List (SplitUndelegation × Option ℤ)) :
    maturedAmount time (us ++ vs) = maturedAmount time us + maturedAmount time vs := by
  unfold maturedAmount
  rw [filter_append, map_append, sum_append]

/-- A batch has matured as a whole after its latest completion time. -/
theorem maturedAmount_batch {splits : List SplitUndelegation}
    (hlatest : ∀ response ∈ responses, ∃ t : ℤ, response = some t ∧ t ≤ latest)
    (hlength : responses.length = splits.length) (hbefore : latest < time) :
    maturedAmount time (splits.zip responses) = calculateTotalUnbondedInBatch splits := by
  unfold maturedAmount calculateTotalUnbondedInBatch
  have hfst : (splits.zip responses).map (fun u => u.1.nativeTokenAmount) =
      splits.map SplitUndelegation.nativeTokenAmount := by
    conv_rhs => rw [← map_fst_zip hlength.ge, map_map]
    rfl
  rw [filter_eq_self.mpr, hfst]
  intro u hu
  obtain ⟨t, ht, hle⟩ := hlatest u.2 (of_mem_zip hu).2
  rw [ht]
  simp only [Option.any_some, decide_eq_true_eq]
  omega

private theorem maturedAmount_nonneg {us : List (SplitUndelegation × Option ℤ)}
    (h : ∀ u ∈ us, 0 ≤ u.1.nativeTokenAmount) : 0 ≤ maturedAmount time us := by
  apply sum_map_nonneg
  intro u hu
  exact h u (mem_of_mem_filter hu)

def leftToUnbond (o : Option HostZoneUnbonding) : ℤ :=
  o.elim 0 HostZoneUnbonding.nativeTokensToUnbond

private theorem sum_leftToUnbond {s : EpochUnbondingStore} {chainId : String}
    (hrecs : Fetched s chainId recs) :
    ((recs.map Prod.fst).map fun e => leftToUnbond (hostZoneUnbondings s chainId e)).sum =
      (recs.map fun p => p.2.nativeTokensToUnbond).sum := by
  rw [map_map]
  congr 1
  apply map_congr_left
  intro p hp
  rw [Function.comp_apply, hrecs p hp]
  rfl

section

variable (h : PaidByBatch latest (ackReceived r) r')
  (hp : Progressed lastSweep r)
  (hne : r.status ≠ .unbondingQueue)
include h hp hne

/-- One record: what it is paid counts only after the completion time of the batch. -/
theorem PaidByBatch.unbondedBefore_le (time : ℕ) :
    unbondedBefore time (some r') ≤ unbondedBefore time (some r) +
      if latest < time then r.nativeTokensToUnbond - r'.nativeTokensToUnbond else 0 := by
  have hold := unbondedBefore_nonneg (o := some r) (fun r hr => by cases hr; exact hp) time
  rcases h with ⟨-, rfl⟩ | ⟨-, hnative, hleft, htime, hstatus⟩
  · simp only [ackReceived, sub_self, ite_self, add_zero]
    exact le_rfl
  · obtain ⟨hnonneg, hle⟩ := hleft (hp.nonneg hne)
    have hnative' : r'.nativeTokenAmount = r.nativeTokenAmount := hnative
    have hle' : r'.nativeTokensToUnbond ≤ r.nativeTokensToUnbond := hle
    have htime' : r'.unbondingTime = max r.unbondingTime latest := htime
    have hne' : r'.status ≠ .unbondingQueue := by
      rw [hstatus]
      split
      · decide
      · exact hne
    simp only [unbondedBefore, ne_eq, hne, hne', not_false_eq_true, true_and, htime', hnative',
      max_lt_iff] at hold ⊢
    split_ifs at hold ⊢ <;> omega

private theorem PaidByBatch.progressed (hstage : stage r.status < 3) : Progressed lastSweep r' := by
  rcases h with ⟨-, rfl⟩ | ⟨-, hnative, hleft, -, hstatus⟩
  · exact ⟨fun hqueue => absurd hqueue hne, hp.nonneg, hp.le, hp.complete, hp.matured⟩
  · obtain ⟨hnonneg, hle⟩ := hleft (hp.nonneg hne)
    have hnative' : r'.nativeTokenAmount = r.nativeTokenAmount := hnative
    have hle' : r'.nativeTokensToUnbond ≤ r.nativeTokensToUnbond := hle
    have hcap := hp.le hne
    by_cases hzero : r'.nativeTokensToUnbond = 0
    · rw [if_pos hzero] at hstatus
      have hstage' : stage r'.status = 2 := by rw [hstatus]; rfl
      exact ⟨fun hqueue => absurd (hstatus.symm.trans hqueue) (by decide), fun _ => hnonneg,
        fun _ => by omega, fun _ => hzero, fun h3 => by omega⟩
    · rw [if_neg hzero] at hstatus
      have hstatus' : r'.status = r.status := hstatus
      refine ⟨fun hqueue => absurd (hstatus' ▸ hqueue) hne, fun _ => hnonneg, fun _ => by omega,
        fun h2 => ?_, fun h3 => ?_⟩
      · have hleft := hp.complete (hstatus' ▸ h2)
        omega
      · rw [hstatus'] at h3
        omega

end

/-- **Successful batch**: the records that the batch names are paid by it, all together no more
    than the batch, and no other record changes. -/
structure PaysBatch (k k' : UnbondingKeeper) (callback : UndelegateCallback) (latest : ℕ) :
    Prop where
  others : ∀ e ∉ callback.epochUnbondingRecordIds, k'.view e = k.view e
  named : ∀ e ∈ callback.epochUnbondingRecordIds, ∃ r r', k.view e = some r ∧
    k'.view e = some r' ∧ r.undelegationTxsInProgress ≠ 0 ∧
      PaidByBatch latest (ackReceived r) r'
  total : (callback.epochUnbondingRecordIds.map fun e =>
    leftToUnbond (k.view e) - leftToUnbond (k'.view e)).sum ≤
      calculateTotalUnbondedInBatch callback.splitUndelegations

/-- The callback of a successful batch pays its records. -/
theorem paysBatch_of_undelegateCallback (hnd : callback.epochUnbondingRecordIds.Nodup)
    (hack : ack.status = .success) (h : undelegateCallback k callback ack = .ok k')
    (hbatch : 0 ≤ calculateTotalUnbondedInBatch callback.splitUndelegations)
    (hready : ∀ e r, k.view e = some r → r.undelegationTxsInProgress ≠ 0 → CascadeReady r) :
    ∃ latest, getLatestUnbondingCompletionTime ack.msgResponses = .ok latest ∧
      PaysBatch k k' callback latest := by
  obtain ⟨-, hset, -, recs, out, hfst, hfstOut, hrecs, hout, htxs, hchanges, hsame⟩ :=
    undelegateCallback_spec hnd h
  rw [hack] at hchanges
  obtain ⟨latest, tally, hlatest, hrun⟩ := hchanges
  have hchain := HostZone.chainId_eq_of_settings hset
  have hview' (e : ℕ) : k'.view e =
      hostZoneUnbondings k'.epochUnbondingRecords k.hostZone.chainId e := by
    unfold UnbondingKeeper.view
    rw [hchain]
  have hpaid := cascade_paidByBatch hrun hbatch
  rw [mapRecords, forall₂_map_left_iff] at hpaid
  refine ⟨latest, hlatest, fun e he => ?_, fun e he => ?_, ?_⟩
  · rw [hview']
    exact hsame.epoch e he
  · rw [← hfst] at he
    obtain ⟨p, hp, rfl⟩ := mem_map.mp he
    obtain ⟨q, hq, hpq⟩ := forall₂_exists_right hpaid hp
    have hpq1 : p.1 = q.1 := hpq.1
    refine ⟨p.2, q.2, hrecs p hp, ?_, htxs p hp, hpq.2⟩
    rw [hview', hpq1]
    exact hout q hq
  · -- the cascade takes off the batch what it takes off the records
    have hcascade : ∀ p ∈ mapRecords ackReceived recs, CascadeReady p.2 := by
      intro q hq
      obtain ⟨p, hp, rfl⟩ := mem_map.mp hq
      exact hready p.1 p.2 (hrecs p hp) (htxs p hp)
    have hnative := cascade_native hrun
    have htally := (cascade_leftover hrun hcascade hbatch).1
    have hmarked : ((mapRecords ackReceived recs).map fun p => p.2.nativeTokensToUnbond).sum =
        (recs.map fun p => p.2.nativeTokensToUnbond).sum := by
      rw [mapRecords, map_map]
      rfl
    have hbefore : (callback.epochUnbondingRecordIds.map fun e => leftToUnbond (k.view e)).sum =
        (recs.map fun p => p.2.nativeTokensToUnbond).sum := hfst ▸ sum_leftToUnbond hrecs
    have hafter : (callback.epochUnbondingRecordIds.map fun e => leftToUnbond (k'.view e)).sum =
        (out.map fun p => p.2.nativeTokensToUnbond).sum := by
      rw [funext hview', ← hfstOut]
      exact sum_leftToUnbond hout
    dsimp only at hnative
    have hsplit := Multiset.sum_map_sub (m := (callback.epochUnbondingRecordIds : Multiset ℕ))
      (f := fun e => leftToUnbond (k.view e)) (g := fun e => leftToUnbond (k'.view e))
    simp only [Multiset.map_coe, Multiset.sum_coe] at hsplit
    omega

/-- Sums over any set grow by no more than what is handed out. -/
private theorem sum_le_of_handed_out {f f' paid : ℕ → ℤ} {ids : List ℕ} (hnd : ids.Nodup)
    (hpoint : ∀ e, f' e ≤ f e + if e ∈ ids then paid e else 0) (hpaid : ∀ e ∈ ids, 0 ≤ paid e)
    (epochs : Finset ℕ) : ∑ e ∈ epochs, f' e ≤ ∑ e ∈ epochs, f e + (ids.map paid).sum := by
  calc ∑ e ∈ epochs, f' e
      ≤ ∑ e ∈ epochs, (f e + if e ∈ ids.toFinset then paid e else 0) := by
        apply Finset.sum_le_sum
        intro e _
        simpa only [mem_toFinset] using hpoint e
    _ = ∑ e ∈ epochs, f e + ∑ e ∈ epochs ∩ ids.toFinset, paid e := by
        rw [Finset.sum_add_distrib, Finset.sum_ite_mem]
    _ ≤ ∑ e ∈ epochs, f e + ∑ e ∈ ids.toFinset, paid e := by
        apply add_le_add_right
        apply Finset.sum_le_sum_of_subset_of_nonneg Finset.inter_subset_right
        intro e he _
        exact hpaid e (mem_toFinset.mp he)
    _ = ∑ e ∈ epochs, f e + (ids.map paid).sum := by rw [sum_toFinset _ hnd]

namespace SweepLedger

variable {s s' : SweepLedger}

/-- **Unbonded and matured**: a successful batch adds to what records are paid, and once its
    latest completion time has passed at least as much to what has matured. -/
theorem Matured.unbonded_le_matured (h : s.Matured)
    (hpays : PaysBatch s.system.keeper k callback latest)
    (hnd : callback.epochUnbondingRecordIds.Nodup)
    (hlatest : getLatestUnbondingCompletionTime responses = .ok latest)
    (hlength : responses.length = callback.splitUndelegations.length)
    (hsplits : ∀ u ∈ callback.splitUndelegations, 0 ≤ u.nativeTokenAmount) (time : ℕ)
    (epochs : Finset ℕ) :
    ∑ e ∈ epochs, unbondedBefore time (k.view e) ≤
      maturedAmount time (s.undelegations ++ callback.splitUndelegations.zip responses) := by
  have hleftQueue {e : ℕ} {r : HostZoneUnbonding} (hr : s.system.keeper.view e = some r)
      (htxs : r.undelegationTxsInProgress ≠ 0) : r.status ≠ .unbondingQueue :=
    fun hqueue => htxs ((h.records e r hr).queued hqueue)
  -- a payment counts once the batch has matured
  let paid (e : ℕ) : ℤ := if latest < time then
    leftToUnbond (s.system.keeper.view e) - leftToUnbond (k.view e) else 0
  have hpoint (e : ℕ) : unbondedBefore time (k.view e) ≤
      unbondedBefore time (s.system.keeper.view e) +
        if e ∈ callback.epochUnbondingRecordIds then paid e else 0 := by
    by_cases he : e ∈ callback.epochUnbondingRecordIds
    · obtain ⟨r, r', hr, hr', htxs, hrel⟩ := hpays.named e he
      rw [if_pos he]
      simp only [paid, hr, hr', leftToUnbond, Option.elim_some]
      exact hrel.unbondedBefore_le (h.records e r hr) (hleftQueue hr htxs) time
    · rw [if_neg he, add_zero, hpays.others e he]
  have hpaid : ∀ e ∈ callback.epochUnbondingRecordIds, 0 ≤ paid e := by
    intro e he
    obtain ⟨r, r', hr, hr', htxs, hrel⟩ := hpays.named e he
    simp only [paid, hr, hr', leftToUnbond, Option.elim_some]
    rcases hrel with ⟨-, rfl⟩ | ⟨-, -, hleft, -⟩
    · simp [ackReceived]
    · have hle : r'.nativeTokensToUnbond ≤ r.nativeTokensToUnbond :=
        (hleft ((h.records e r hr).nonneg (hleftQueue hr htxs))).2
      split <;> omega
  have hbatch : (callback.epochUnbondingRecordIds.map paid).sum ≤
      maturedAmount time (callback.splitUndelegations.zip responses) := by
    by_cases hbefore : latest < time
    · have hresponses : ∀ response ∈ responses, ∃ t : ℤ, response = some t ∧ t ≤ latest := by
        obtain ⟨latest', hloop, hcheck⟩ := bind_eq_ok.mp hlatest
        split at hcheck
        · cases hcheck
        cases hcheck
        exact (le_of_latestCompletionTime hloop).2
      rw [maturedAmount_batch hresponses hlength hbefore]
      simpa only [paid, hbefore, if_true] using hpays.total
    · have hzero : (callback.epochUnbondingRecordIds.map paid).sum = 0 := by
        simp [paid, hbefore]
      rw [hzero]
      apply maturedAmount_nonneg
      intro u hu
      exact hsplits u.1 (of_mem_zip hu).1
  rw [maturedAmount_append]
  exact (sum_le_of_handed_out hnd hpoint hpaid epochs).trans
    (add_le_add (h.unbonded time epochs) hbatch)

/-- **A successful batch**: what it pays is unbonded no earlier than the batch matures. -/
theorem Matured.undelegateSuccess (h : s.Matured)
    (hpacket : s.system.inFlight[i]? = some (.undelegate j tx)) (hack : ack.status = .success)
    (hlength : ack.msgResponses.length = tx.callback.splitUndelegations.length)
    (hlate : s.system.lateSuccess (.ack i ack) = false)
    (hcallback : undelegateCallback s.system.keeper tx.callback ack = .ok k)
    (hsweeps : SweepInv ⟨k, s.system.inFlight.eraseIdx i, subs, s.system.swept⟩) :
    Matured ⟨⟨k, s.system.inFlight.eraseIdx i, subs, s.system.swept⟩,
      s.undelegations ++ tx.callback.splitUndelegations.zip ack.msgResponses, s.sweptAmount,
      s.lastSweep⟩ := by
  have hmem := mem_of_getElem? hpacket
  have hflat : (s.system.inFlight.flatMap sweptAmounts).Perm
      ((s.system.inFlight.eraseIdx i).flatMap sweptAmounts) :=
    (perm_cons_eraseIdx hpacket).flatMap_right sweptAmounts
  have hnd := h.sweeps.nodup j tx hmem
  have hsplits := h.splits j tx hmem
  have hbatch : 0 ≤ calculateTotalUnbondedInBatch tx.callback.splitUndelegations := by
    apply sum_map_nonneg
    intro u hu
    exact hsplits u hu
  have hready : ∀ e r, s.system.keeper.view e = some r → r.undelegationTxsInProgress ≠ 0 →
      CascadeReady r := by
    intro e r hr htxs
    have hp := h.records e r hr
    refine ⟨hp.nonneg fun hqueue => htxs (hp.queued hqueue), fun hexit => hp.complete ?_⟩
    rw [hexit]
    exact le_rfl
  obtain ⟨latest, hlatest, hpays⟩ :=
    paysBatch_of_undelegateCallback hnd hack hcallback hbatch hready
  refine ⟨hsweeps, fun j' tx' hp => h.splits j' tx' (mem_of_mem_eraseIdx hp),
    fun tx' am hp => h.amounts tx' am (mem_of_mem_eraseIdx hp), ?_, fun e r' hr' => ?_,
    h.unbonded_le_matured hpays hnd hlatest hlength hsplits⟩
  · rw [h.total]
    exact ((Perm.append_left _ hflat).map Prod.snd).sum_eq
  · by_cases he : e ∈ tx.callback.epochUnbondingRecordIds
    · -- the batch is no late success: none of its records was swept
      obtain ⟨r, r₁, hr, hr₁, htxs, hrel⟩ := hpays.named e he
      obtain rfl := Option.some.inj (hr₁.symm.trans hr')
      have hp := h.records e r hr
      exact hrel.progressed hp (fun hqueue => htxs (hp.queued hqueue))
        (s.system.stage_lt_of_not_lateSuccess hlate hpacket hack he hr)
    · exact h.records e r' ((hpays.others e he).symm.trans hr')

/-! ## Runs -/

/-- **Step**: every orderly event keeps the invariant. -/
theorem Matured.step (h : s.Matured) (hok : s.Orderly l) (hstep : s.step l = some s') :
    s'.Matured := by
  obtain ⟨system, hsystem, rfl⟩ := Option.map_eq_some_iff.mp hstep
  obtain ⟨hallowed, hlate, hanswers⟩ := hok
  have hsweeps := h.sweeps.step hallowed hlate hsystem
  rcases step_cases hsystem with ⟨f, k, txs, rfl, hsubmit, rfl⟩ |
    ⟨t, b, k, sent, rfl, hsweep, hsent⟩ | ⟨i, ack, j, tx, k, rfl, hpacket, hcallback, rfl⟩ |
    ⟨i, ack, tx, amounts, k, rfl, hpacket, hcallback, rfl⟩ | ⟨k, rfl, rfl⟩
  · simpa [completed, sweepSent, sweepFailed] using h.submit hsubmit hsweeps
  · have htime : s.lastSweep ≤ t := hanswers
    rcases hsent with ⟨rfl, rfl⟩ | ⟨tx, swept, records, rfl, hsent, rfl⟩
    · simpa [completed, sweepSent, sweepFailed, hsweep] using h
    · simpa [completed, sweepSent, sweepFailed, hsweep] using h.sweep htime hsent hsweeps
  · obtain ⟨htimeout, hlength⟩ := hanswers
    cases hack : ack.status with
    | timeout => exact absurd hack htimeout
    | failure =>
      have hnext := h.undelegateFailure hpacket hack hcallback hsweeps
      simpa [completed, sweepSent, sweepFailed, hpacket, hack] using hnext
    | success =>
      have hnext := h.undelegateSuccess hpacket hack (hlength j tx hpacket hack) hlate hcallback
        hsweeps
      simpa [completed, sweepSent, sweepFailed, hpacket, hack] using hnext
  · have hnext := h.redemptionAck hpacket hanswers.1 hcallback hsweeps
    simpa [completed, sweepSent, sweepFailed, hpacket] using hnext
  · simpa [completed, sweepSent, sweepFailed] using h.environment hallowed hsweeps

/-- The sweeps take what was unbonded for their records, which are complete and matured. -/
theorem Matured.sweptAmount_le (h : s.Matured) :
    s.sweptAmount ≤ maturedAmount s.lastSweep s.undelegations := by
  let entries := s.system.swept.flatten ++ s.system.inFlight.flatMap sweptAmounts
  -- what was swept of a record has matured in full
  have hentry : ∀ p ∈ entries,
      unbondedBefore s.lastSweep (s.system.keeper.view p.1) = p.2 := by
    intro p hp
    obtain ⟨r, hr, hstage, hnative⟩ : ∃ r, s.system.keeper.view p.1 = some r ∧
        3 ≤ stage r.status ∧ r.nativeTokenAmount = p.2 := by
      rcases mem_append.mp hp with hp | hp
      · obtain ⟨r, hr, hstatus, hnative⟩ := h.sweeps.done p hp
        exact ⟨r, hr, by rw [hstatus]; decide, hnative⟩
      · obtain ⟨r, hr, hstatus, hnative⟩ := h.sweeps.pending p hp
        exact ⟨r, hr, by rw [hstatus]; decide, hnative⟩
    have hrecord := h.records p.1 r hr
    rw [hr, unbondedBefore, if_pos ⟨stage_unbondingQueue (n := 0) (by omega),
      hrecord.matured hstage⟩, hrecord.complete (by omega), sub_zero, hnative]
  have hsum : s.sweptAmount =
      ∑ e ∈ (entries.map Prod.fst).toFinset,
        unbondedBefore s.lastSweep (s.system.keeper.view e) := by
    rw [h.total, sum_toFinset _ h.sweeps.once, map_map]
    congr 1
    apply map_congr_left
    intro p hp
    exact (hentry p hp).symm
  rw [hsum]
  exact h.unbonded s.lastSweep _

/-- **Sweeps spend matured unbondings**: at every moment of a run the sweeps that were sent and
    have not failed take no more than the undelegations whose completion time was before the time
    of the light client at the latest sweep. -/
theorem sweeps_within_matured {s₀ : SweepLedger} (hstart : s₀.NothingSubmitted)
    (hrun : Reaches step Orderly s₀ s) :
    s.sweptAmount ≤ maturedAmount s.lastSweep s.undelegations := by
  have hi : s.Matured := hrun.invariant (I := Matured) hstart.matured
    fun _ _ _ h hok hstep => h.step hok hstep
  exact hi.sweptAmount_le

/-! ## A run -/

def twoRecordsLedger : SweepLedger := ⟨twoRecordsQueued, [], 0, 0⟩

private theorem twoRecordsLedger_nothingSubmitted : twoRecordsLedger.NothingSubmitted := by
  refine ⟨twoRecordsQueued_wellFormed, fun e r hr => ?_, rfl, rfl, rfl, rfl⟩
  have hmem : (e, r) ∈ selectHostZoneUnbondings
      twoRecordsQueued.keeper.epochUnbondingRecords "host" fun _ => true :=
    mem_selectHostZoneUnbondings.mpr ⟨hr, rfl⟩
  have hall : ∀ p ∈ selectHostZoneUnbondings
      twoRecordsQueued.keeper.epochUnbondingRecords "host" fun _ => true,
      p.2.status = .unbondingQueue ∧ p.2.undelegationTxsInProgress = 0 := by
    decide +kernel
  exact hall (e, r) hmem

/-- The second batch fails and is retried, so that the two records have the unbonding times 5
    and 7. The sweep at time 6 takes the first record only. It fails, and the sweep at time 12
    takes that record again. -/
def sweptRun : List UnbondingEvent :=
  retriedRun ++ [.ack 0 ⟨.success, [some 7]⟩, .sweep 6 true, .sweep 10 true, failureAck,
    .sweep 12 true]

theorem sweeps_within_matured_retried : ∃ s, Reaches step Orderly twoRecordsLedger s ∧
    s.sweptAmount = 200 ∧ s.lastSweep = 12 ∧
    s.sweptAmount ≤ maturedAmount s.lastSweep s.undelegations := by
  have hrun : Reaches step Orderly twoRecordsLedger _ := .of_get (l := sweptRun) (by decide +kernel)
  exact ⟨_, hrun, by decide +kernel, by decide +kernel,
    sweeps_within_matured twoRecordsLedger_nothingSubmitted hrun⟩

end SweepLedger

end Stride.Stakeibc
