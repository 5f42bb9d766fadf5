import Stride.Stakeibc.UnbondingSystem

/-!
# Swept Records Stay Swept

All batches of a submission name all of its records. A record can therefore be completed,
swept and even claimable while later batches of its submission are still in flight. The
cascade skips records in EXIT_TRANSFER_QUEUE only: a late successful batch puts a record
that is already in EXIT_TRANSFER_IN_PROGRESS or CLAIMABLE back into the queue, and the next
sweep takes its native amount a second time.
-/

namespace Stride.Stakeibc

open Lib Sdk Records List UnbondingSystem Packet

/-! ## Property -/

/-- Position of a status in the life of a record; failed batches are retried. -/
def stage : UnbondingStatus → ℕ
  | .unbondingQueue => 0
  | .unbondingInProgress => 1
  | .unbondingRetryQueue => 1
  | .exitTransferQueue => 2
  | .exitTransferInProgress => 3
  | .claimable => 4

/-- Native tokens that successful sweeps have moved for the record of epoch `e`. -/
def UnbondingSystem.sweptFor (s : UnbondingSystem) (e : ℕ) : ℤ :=
  ((s.swept.flatten.filter fun p => p.1 = e).map Prod.snd).sum

/-- A late success: a successful undelegation is acknowledged while a record that it names
    has been swept. -/
def UnbondingSystem.lateSuccess (s : UnbondingSystem) : UnbondingEvent → Bool
  | .ack i ack =>
    match s.inFlight[i]? with
    | some (.undelegate _ tx) =>
      ack.status = .success && tx.callback.epochUnbondingRecordIds.any fun e =>
        (s.keeper.view e).any fun r => 3 ≤ stage r.status
    | _ => false
  | _ => false

variable {r : HostZoneUnbonding} {l : UnbondingEvent} {ack : UndelegateAck} {tx : UndelegateTx}
  {e i j : ℕ}

theorem UnbondingSystem.stage_lt_of_not_lateSuccess {s : UnbondingSystem}
    (h : s.lateSuccess (.ack i ack) = false) (hpacket : s.inFlight[i]? = some (.undelegate j tx))
    (hack : ack.status = .success) (he : e ∈ tx.callback.epochUnbondingRecordIds)
    (hr : s.keeper.view e = some r) : stage r.status < 3 := by
  simp only [lateSuccess, hpacket, hack, decide_true, Bool.true_and, any_eq_false] at h
  simpa [hr] using h e he

/-- A start of a run: nothing was swept, no sweep is in flight, and the undelegations in
    flight, if any, name each record once. -/
structure UnbondingSystem.BeforeSweeps (s : UnbondingSystem) : Prop where
  wellFormed : s.keeper.WellFormed
  swept : s.swept = []
  noSweep : ∀ tx amounts, .redemption tx amounts ∉ s.inFlight
  nodup : ∀ j tx, .undelegate j tx ∈ s.inFlight → tx.callback.epochUnbondingRecordIds.Nodup

/-! ## Invariant -/

/-- Amounts a packet will have moved when it succeeds. -/
def Packet.sweptAmounts : Packet → List (ℕ × ℤ)
  | .undelegate _ _ => []
  | .redemption _ amounts => amounts

/-- The chain sees a record of epoch `p.1` with native amount `p.2` in `status`. -/
def SeenAs (k : UnbondingKeeper) (status : UnbondingStatus) (p : ℕ × ℤ) : Prop :=
  ∃ r, k.view p.1 = some r ∧ r.status = status ∧ r.nativeTokenAmount = p.2

/-- Every record is in at most one sweep that succeeded or is in flight, and its status
    says in which. -/
structure UnbondingSystem.SweepInv (s : UnbondingSystem) : Prop where
  wellFormed : s.keeper.WellFormed
  nodup : ∀ j tx, .undelegate j tx ∈ s.inFlight → tx.callback.epochUnbondingRecordIds.Nodup
  sweep : ∀ tx amounts, .redemption tx amounts ∈ s.inFlight →
    tx.callback = ⟨s.keeper.hostZone.chainId, amounts.map Prod.fst⟩
  once : ((s.swept.flatten ++ s.inFlight.flatMap sweptAmounts).map Prod.fst).Nodup
  done : ∀ p ∈ s.swept.flatten, SeenAs s.keeper .claimable p
  pending : ∀ p ∈ s.inFlight.flatMap sweptAmounts,
    SeenAs s.keeper .exitTransferInProgress p

namespace UnbondingSystem

variable {s s' : UnbondingSystem}

theorem BeforeSweeps.sweepInv (h : s.BeforeSweeps) : s.SweepInv := by
  have hpending : s.inFlight.flatMap sweptAmounts = [] := by
    rw [flatMap_eq_nil_iff]
    intro p hp
    cases p with
    | undelegate j tx => rfl
    | redemption tx amounts => exact absurd hp (h.noSweep tx amounts)
  refine ⟨h.wellFormed, h.nodup, ?_, ?_, ?_, ?_⟩
  · intro tx amounts hp
    exact absurd hp (h.noSweep tx amounts)
  · simp [h.swept, hpending]
  · simp [h.swept]
  · simp [hpending]

variable {subs : List Submission} {k k' : UnbondingKeeper}

/-- What every step other than a sweep and its acknowledgement does: it leaves the records
    that were swept, and the sweeps. -/
private theorem SweepInv.of_same_swept (hi : s.SweepInv) {packets : List Packet}
    (hwf : k.WellFormed) (hchain : k.hostZone.chainId = s.keeper.hostZone.chainId)
    (hkept : ∀ e r, s.keeper.view e = some r → 3 ≤ stage r.status →
      ∃ r', k.view e = some r' ∧ r'.status = r.status ∧
        r'.nativeTokenAmount = r.nativeTokenAmount)
    (hundelegate : ∀ j tx, .undelegate j tx ∈ packets →
      tx.callback.epochUnbondingRecordIds.Nodup)
    (hredemption : ∀ tx amounts, .redemption tx amounts ∈ packets →
      .redemption tx amounts ∈ s.inFlight) (hamounts : (packets.flatMap sweptAmounts).Perm
      (s.inFlight.flatMap sweptAmounts)) : SweepInv ⟨k, packets, subs, s.swept⟩ := by
  -- the sweeps only mention records that were swept
  have hseen {status : UnbondingStatus} {p : ℕ × ℤ} (hstage : 3 ≤ stage status)
      (h : SeenAs s.keeper status p) : SeenAs k status p := by
    obtain ⟨r, hr, hstatus, hnative⟩ := h
    obtain ⟨r', hr', hstatus', hnative'⟩ := hkept p.1 r hr (hstatus ▸ hstage)
    exact ⟨r', hr', hstatus'.trans hstatus, hnative'.trans hnative⟩
  refine ⟨hwf, hundelegate, ?_, ?_, ?_, ?_⟩
  · intro tx amounts hp
    rw [hi.sweep tx amounts (hredemption tx amounts hp), hchain]
  · have hperm := (List.Perm.append_left s.swept.flatten hamounts).map Prod.fst
    exact hperm.nodup_iff.mpr hi.once
  · intro p hp
    exact hseen (by decide) (hi.done p hp)
  · intro p hp
    exact hseen (by decide) (hi.pending p (hamounts.mem_iff.mp hp))

/-! ## Steps -/

private theorem stage_of_queued (he : e ∈ k.queuedEpochs) (hr : k.view e = some r) :
    stage r.status < 2 := by
  obtain ⟨p, hp, rfl⟩ := mem_map.mp he
  obtain ⟨hview, hqueued⟩ := mem_selectHostZoneUnbondings.mp hp
  have hpr : p.2 = r := Option.some.inj (hview.symm.trans hr)
  rw [hpr] at hqueued
  simp only [HostZoneUnbonding.shouldInitiateUnbonding, HostZoneUnbonding.shouldRetryUnbonding,
    Bool.or_eq_true, Bool.and_eq_true, decide_eq_true_eq] at hqueued
  rcases hqueued with ⟨hstatus, -⟩ | ⟨⟨-, hstatus⟩, -⟩ <;> rw [hstatus] <;> decide

/-- An undelegate callback that is no late success keeps the status and the native amount
    of the records that were swept. -/
private theorem view_of_undelegateCallback {callback : UndelegateCallback}
    (hnd : callback.epochUnbondingRecordIds.Nodup) (h : undelegateCallback k callback ack = .ok k')
    (hlate : ack.status = .success → ∀ e ∈ callback.epochUnbondingRecordIds, ∀ r,
      k.view e = some r → stage r.status < 3)
    (hr : k.view e = some r) (hstage : 3 ≤ stage r.status) :
    ∃ r', k'.view e = some r' ∧ r'.status = r.status ∧
      r'.nativeTokenAmount = r.nativeTokenAmount := by
  obtain ⟨-, hset, -, recs, out, hfst, -, hrecs, hout, -, hchanges, hsame⟩ :=
    undelegateCallback_spec hnd h
  unfold UnbondingKeeper.view
  rw [HostZone.chainId_eq_of_settings hset]
  rw [← hfst] at hsame
  rcases view_of_forall₂ hchanges.forall₂ hrecs hout hsame hr with ⟨-, hr'⟩ | ⟨he, r', hr', hstep⟩
  · exact ⟨r, hr', rfl, rfl⟩
  · refine ⟨r', hr', ?_⟩
    cases hstatus : ack.status with
    | timeout =>
      rw [hstatus] at hstep
      obtain rfl : r' = ackReceived r := hstep
      exact ⟨rfl, rfl⟩
    | failure =>
      rw [hstatus] at hstep
      have hstep' : r' = failedUndelegation (ackReceived r) := hstep
      -- only records in progress go to the retry queue
      have hne : (ackReceived r).status ≠ .unbondingInProgress := by
        intro heq
        have hrs : r.status = .unbondingInProgress := heq
        rw [hrs] at hstage
        exact absurd hstage (by decide)
      rw [failedUndelegation, if_neg hne] at hstep'
      subst hstep'
      exact ⟨rfl, rfl⟩
    | success =>
      have hlt := hlate hstatus e (hfst ▸ he) r hr
      omega

variable (hi : s.SweepInv)

include hi

private theorem SweepInv.submit {submitTxs : ℕ → Bool} {txs : List UndelegateTx}
    (h : unbondFromHostZone s.keeper submitTxs = .ok (k, txs)) :
    (s.afterSubmit k txs).SweepInv := by
  obtain ⟨hchain, hwf, out, hcases⟩ := unbondFromHostZone_spec hi.wellFormed h
  have hkept : ∀ e r, s.keeper.view e = some r → 3 ≤ stage r.status →
      ∃ r', k.view e = some r' ∧ r'.status = r.status ∧
        r'.nativeTokenAmount = r.nativeTokenAmount := by
    intro e r hr hstage
    have hsame : k.view e = s.keeper.view e := by
      rcases hcases with ⟨-, hbecame⟩ | ⟨hbecame, -⟩ <;>
        rcases view_of_queuedBecame hbecame hchain e with ⟨-, hsame⟩ | ⟨he, -⟩
      all_goals first | exact hsame | have := stage_of_queued he hr; omega
    exact ⟨r, hsame.trans hr, rfl, rfl⟩
  unfold afterSubmit
  split
  · exact hi.of_same_swept hwf hchain hkept hi.nodup (fun _ _ hp => hp) (.refl _)
  · rename_i hne
    obtain ⟨-, hsends⟩ := hcases.resolve_left fun hnil => hne hnil.1
    apply hi.of_same_swept hwf hchain hkept
    · intro j tx hp
      rcases mem_append.mp hp with hp | hp
      · exact hi.nodup j tx hp
      · obtain ⟨tx', htx', heq⟩ := mem_map.mp hp
        cases heq
        rw [hsends.ids tx htx']
        exact nodup_selectHostZoneUnbondings _ _ _
    · intro tx amounts hp
      rcases mem_append.mp hp with hp | hp
      · exact hp
      · obtain ⟨_, _, heq⟩ := mem_map.mp hp
        cases heq
    · -- undelegations carry no swept amounts
      have hnil : (txs.map (undelegate s.submissions.length)).flatMap
          sweptAmounts = [] := by
        rw [flatMap_eq_nil_iff]
        intro p hp
        obtain ⟨_, _, rfl⟩ := mem_map.mp hp
        rfl
      rw [flatMap_append, hnil, append_nil]

private theorem SweepInv.undelegateAck (hpacket : s.inFlight[i]? = some (.undelegate j tx))
    (h : undelegateCallback s.keeper tx.callback ack = .ok k)
    (hlate : s.lateSuccess (.ack i ack) = false) :
    SweepInv ⟨k, s.inFlight.eraseIdx i, subs, s.swept⟩ := by
  have hnd := hi.nodup j tx (mem_of_getElem? hpacket)
  obtain ⟨-, hset, husers, -⟩ := undelegateCallback_spec hnd h
  apply hi.of_same_swept _ (HostZone.chainId_eq_of_settings hset)
  · intro e r hr hstage
    apply view_of_undelegateCallback hnd h _ hr hstage
    exact fun hack e he r hr => stage_lt_of_not_lateSuccess hlate hpacket hack he hr
  · exact fun j' tx' hp => hi.nodup j' tx' (mem_of_mem_eraseIdx hp)
  · exact fun tx' amounts hp => mem_of_mem_eraseIdx hp
  · exact ((perm_cons_eraseIdx hpacket).flatMap_right sweptAmounts).symm
  · exact ⟨HostZone.redemptionRate_eq_of_settings hset ▸ hi.wellFormed.rate,
      husers ▸ hi.wellFormed.users⟩

private theorem SweepInv.environment (h : EnvironmentChange s.keeper k) :
    SweepInv { s with keeper := k } := by
  apply hi.of_same_swept h.wellFormed h.chainId _ hi.nodup (fun _ _ hp => hp) (.refl _)
  intro e r hr hstage
  have hne : r.status ≠ .unbondingQueue := fun heq => by
    rw [heq] at hstage
    exact absurd hstage (by decide)
  obtain ⟨claimable, hr'⟩ := h.kept e r hr hne
  exact ⟨_, hr', rfl, rfl⟩

private theorem SweepInv.not_exitTransferQueue {p : ℕ × ℤ}
    (hp : p ∈ s.swept.flatten ++ s.inFlight.flatMap sweptAmounts)
    (hr : s.keeper.view p.1 = some r) : r.status ≠ .exitTransferQueue := by
  intro heq
  rcases mem_append.mp hp with hp | hp
  · obtain ⟨r', hr', hstatus, -⟩ := hi.done p hp
    rw [hr, Option.some.injEq] at hr'
    subst hr'
    exact absurd (heq.symm.trans hstatus) (by decide)
  · obtain ⟨r', hr', hstatus, -⟩ := hi.pending p hp
    rw [hr, Option.some.injEq] at hr'
    subst hr'
    exact absurd (heq.symm.trans hstatus) (by decide)

private theorem SweepInv.sweep_some {hostBlockTime : ℕ} {tx : RedemptionTx}
    {records : EpochUnbondingStore} {swept : EpochRecords}
    (hsweeps : Sweeps s.keeper hostBlockTime tx swept records) :
    (s.afterSweep tx swept records).SweepInv := by
  unfold afterSweep
  have hfst : (swept.map fun p => (p.1, p.2.nativeTokenAmount)).map Prod.fst =
      swept.map Prod.fst := by simp
  have hview := view_of_rewrites hsweeps.marked
  -- the records of earlier sweeps are not in the queue, so this sweep does not take them
  have hfresh {p : ℕ × ℤ}
      (hp : p ∈ s.swept.flatten ++ s.inFlight.flatMap sweptAmounts) :
      p.1 ∉ swept.map Prod.fst := by
    intro hmem
    obtain ⟨q, hq, hqp⟩ := mem_map.mp hmem
    obtain ⟨hr, hstatus, -⟩ := of_mem_sweptRecords (hsweeps.ready ▸ hq)
    exact hi.not_exitTransferQueue hp (hqp ▸ hr) hstatus
  have hseen {status : UnbondingStatus} {p : ℕ × ℤ}
      (hp : p ∈ s.swept.flatten ++ s.inFlight.flatMap sweptAmounts)
      (h : SeenAs s.keeper status p) :
      SeenAs { s.keeper with epochUnbondingRecords := records } status p := by
    obtain ⟨r, hr, hrest⟩ := h
    exact ⟨r, by rw [hview, if_neg (hfresh hp), hr], hrest⟩
  have hflat : (s.inFlight ++
      [redemption tx (swept.map fun p => (p.1, p.2.nativeTokenAmount))]).flatMap
        sweptAmounts = s.inFlight.flatMap sweptAmounts ++
          swept.map fun p => (p.1, p.2.nativeTokenAmount) := by
    simp [sweptAmounts]
  refine ⟨⟨hi.wellFormed.rate, hi.wellFormed.users⟩, ?_, ?_, ?_, ?_, ?_⟩
  · exact fun j tx' hp => hi.nodup j tx' (by simpa using hp)
  · intro tx' amounts hp
    rcases mem_append.mp hp with hp | hp
    · exact hi.sweep tx' amounts hp
    · cases mem_singleton.mp hp
      rw [hsweeps.callback, hfst]
  · rw [hflat, ← append_assoc, map_append, hfst]
    refine hi.once.append (hsweeps.ready ▸ nodup_selectHostZoneUnbondings _ _ _) fun e he he' => ?_
    obtain ⟨p, hp, rfl⟩ := mem_map.mp he
    exact hfresh hp he'
  · exact fun p hp => hseen (mem_append_left _ hp) (hi.done p hp)
  · intro p hp
    rw [hflat] at hp
    rcases mem_append.mp hp with hp | hp
    · exact hseen (mem_append_right _ hp) (hi.pending p hp)
    · obtain ⟨q, hq, rfl⟩ := mem_map.mp hp
      have hr : s.keeper.view q.1 = some q.2 := (of_mem_sweptRecords (hsweeps.ready ▸ hq)).1
      refine ⟨{ q.2 with status := .exitTransferInProgress }, ?_, rfl, rfl⟩
      rw [hview, if_pos (mem_map_of_mem hq), hr]
      rfl

private theorem SweepInv.redemptionAck {tx : RedemptionTx} {amounts : List (ℕ × ℤ)}
    {status : AckStatus} (hpacket : s.inFlight[i]? = some (.redemption tx amounts))
    (h : redemptionCallback s.keeper tx.callback status = .ok k) :
    (s.afterSweepAck i amounts status k).SweepInv := by
  unfold afterSweepAck
  have hcallback := hi.sweep tx amounts (mem_of_getElem? hpacket)
  have hflat : (s.inFlight.flatMap sweptAmounts).Perm
      (amounts ++ (s.inFlight.eraseIdx i).flatMap sweptAmounts) :=
    (perm_cons_eraseIdx hpacket).flatMap_right sweptAmounts
  have honce := ((List.Perm.append_left s.swept.flatten hflat).map Prod.fst).nodup_iff.mp hi.once
  -- the other sweeps do not name the records of this one
  have happart := ((perm_append_comm_assoc s.swept.flatten amounts _).map
    Prod.fst).nodup_iff.mp honce
  rw [map_append] at happart
  obtain ⟨hnd, hrest, hdisjoint⟩ := nodup_append.mp happart
  obtain ⟨records, rfl, hrewrites⟩ := redemptionCallback_spec (by rw [hcallback]; exact hnd) h
  rw [hcallback] at hrewrites
  have hview := view_of_rewrites hrewrites
  have hseen {status : UnbondingStatus} {p : ℕ × ℤ} (hp : p ∈ s.swept.flatten ++
      (s.inFlight.eraseIdx i).flatMap sweptAmounts) (h : SeenAs s.keeper status p) :
      SeenAs { s.keeper with epochUnbondingRecords := records } status p := by
    obtain ⟨r, hr, hrest⟩ := h
    have hnot : p.1 ∉ amounts.map Prod.fst :=
      fun hmem => hdisjoint _ hmem _ (mem_map_of_mem hp) rfl
    exact ⟨r, by rw [hview, if_neg hnot, hr], hrest⟩
  refine ⟨⟨hi.wellFormed.rate, hi.wellFormed.users⟩,
    fun j tx' hp => hi.nodup j tx' (mem_of_mem_eraseIdx hp),
    fun tx' am hp => hi.sweep tx' am (mem_of_mem_eraseIdx hp), ?_, ?_, ?_⟩
  · split
    · simpa using honce
    · exact hrest
  · intro p hp
    split at hp
    · rename_i hsuccess
      rw [flatten_append, flatten_singleton] at hp
      rcases mem_append.mp hp with hp | hp
      · exact hseen (mem_append_left _ hp) (hi.done p hp)
      · -- the amounts of the sweep are those of the records it named
        obtain ⟨r, hr, -, hnative⟩ := hi.pending p (hflat.mem_iff.mpr (mem_append_left _ hp))
        refine ⟨markClaimable r, ?_, rfl, hnative⟩
        rw [hview, if_pos (mem_map_of_mem hp), hr, hsuccess]
        rfl
    · exact hseen (mem_append_left _ hp) (hi.done p hp)
  · intro p hp
    exact hseen (mem_append_right _ hp)
      (hi.pending p (hflat.mem_iff.mpr (mem_append_right _ hp)))

/-- **Step**: the invariant survives every allowed event that is no late success. -/
theorem SweepInv.step (hallowed : s.Allowed l) (hlate : s.lateSuccess l = false)
    (h : s.step l = some s') : s'.SweepInv := by
  rcases step_cases h with ⟨f, k, txs, rfl, hsubmit, rfl⟩ |
    ⟨t, b, k, sent, rfl, -, ⟨-, rfl⟩ | ⟨tx, swept, records, -, hsweeps, rfl⟩⟩ |
    ⟨i, ack, j, tx, k, rfl, hpacket, hcallback, rfl⟩ |
    ⟨i, ack, tx, amounts, k, rfl, hpacket, hcallback, rfl⟩ | ⟨k, rfl, rfl⟩
  · exact hi.submit hsubmit
  · exact hi
  · exact hi.sweep_some hsweeps
  · exact hi.undelegateAck hpacket hcallback hlate
  · exact hi.redemptionAck hpacket hcallback
  · exact hi.environment hallowed

end UnbondingSystem

/-! ## Runs -/

private theorem UnbondingSystem.SweepInv.sweptFor_le {s : UnbondingSystem} (hi : s.SweepInv)
    (hr : s.keeper.view e = some r) (hnn : 0 ≤ r.nativeTokenAmount) :
    s.sweptFor e ≤ r.nativeTokenAmount := by
  have hnd : (s.swept.flatten.map Prod.fst).Nodup := by
    have honce := hi.once
    rw [map_append] at honce
    exact (nodup_append.mp honce).1
  unfold sweptFor
  by_cases hswept : ∃ p ∈ s.swept.flatten, p.1 = e
  · obtain ⟨p, hp, rfl⟩ := hswept
    obtain ⟨r', hr', -, hnative⟩ := hi.done p hp
    rw [hr, Option.some.injEq] at hr'
    rw [KeyedStore.filter_of_nodup_map hnd hp, hr', hnative]
    simp
  · have hnil : s.swept.flatten.filter (fun p => p.1 = e) = [] :=
      filter_eq_nil_iff.mpr fun p hp hpe => hswept ⟨p, hp, of_decide_eq_true hpe⟩
    simpa [hnil] using hnn

/-- **Swept at most once**: in a run without late successes, no undelegate callback moves a
    record back that has reached EXIT_TRANSFER_IN_PROGRESS or CLAIMABLE, and successful
    sweeps never move more for a record than its native amount. -/
theorem swept_at_most_once {s₀ s : UnbondingSystem} (hstart : s₀.BeforeSweeps)
    (hrun : Reaches step (fun s l => s.Allowed l ∧ s.lateSuccess l = false)
      s₀ s) :
    (∀ i ack j tx s', s.inFlight[i]? = some (.undelegate j tx) →
      s.lateSuccess (.ack i ack) = false → s.step (.ack i ack) = some s' →
      ∀ e r, s.keeper.view e = some r → 3 ≤ stage r.status →
        ∃ r', s'.keeper.view e = some r' ∧ stage r.status ≤ stage r'.status) ∧
    (∀ e r, s.keeper.view e = some r → 0 ≤ r.nativeTokenAmount →
      s.sweptFor e ≤ r.nativeTokenAmount) := by
  have hi : s.SweepInv := hrun.invariant hstart.sweepInv
    fun s l s' hi hok hs => hi.step hok.1 hok.2 hs
  refine ⟨?_, fun e r hr hnn => hi.sweptFor_le hr hnn⟩
  intro i ack j tx s' hpacket hlate hs e r hr hstage
  obtain ⟨k, hcallback, rfl⟩ := step_undelegateAck hpacket hs
  obtain ⟨r', hr', hstatus, -⟩ := view_of_undelegateCallback
    (hi.nodup j tx (mem_of_getElem? hpacket)) hcallback
    (fun hack e he r hr => s.stage_lt_of_not_lateSuccess hlate hpacket hack he hr) hr hstage
  exact ⟨r', hr', hstatus ▸ le_rfl⟩

/-! ## A late success -/

private theorem twoRecordsQueued_beforeSweeps : twoRecordsQueued.BeforeSweeps := by
  refine ⟨twoRecordsQueued_wellFormed, rfl, ?_, ?_⟩
  · intro tx amounts h
    cases h
  · intro j tx h
    cases h

/-- The submission goes out in two transactions. The first completes record 1, which is
    swept before the second is acknowledged. All acknowledgements are in channel order. -/
def lateSuccessRun : List UnbondingEvent :=
  [.submit fun _ => true, successAck, .sweep 10 true, successAck, .sweep 10 true,
    successAck, successAck]

/-- **Late success**: the second batch moves record 1 from EXIT_TRANSFER_IN_PROGRESS back
    to EXIT_TRANSFER_QUEUE, and two sweeps succeed for its native amount of 100. -/
theorem late_success_sweeps_twice :
    twoRecordsQueued.BeforeSweeps ∧
    ((runSteps step twoRecordsQueued (lateSuccessRun.take 3)).bind
      fun s => (s.keeper.view 1).map HostZoneUnbonding.status) =
        some .exitTransferInProgress ∧
    ((runSteps step twoRecordsQueued (lateSuccessRun.take 4)).bind
      fun s => (s.keeper.view 1).map HostZoneUnbonding.status) = some .exitTransferQueue ∧
    ((runSteps step twoRecordsQueued lateSuccessRun).bind
      fun s => (s.keeper.view 1).map fun r => (r.nativeTokenAmount, s.sweptFor 1)) =
        some (100, 200) := by
  refine ⟨twoRecordsQueued_beforeSweeps, ?_, ?_, ?_⟩
  · decide +kernel
  · decide +kernel
  · decide +kernel

/-- The same submission with both batches acknowledged before the sweep. -/
def timelyRun : List UnbondingEvent :=
  [.submit fun _ => true, successAck, successAck, .sweep 10 true, successAck]

theorem swept_at_most_once_timelyRun :
    ∃ s r, runAllowed step (fun s l => s.Allowed l ∧ s.lateSuccess l = false)
        twoRecordsQueued timelyRun = some s ∧ s.keeper.view 1 = some r ∧ s.sweptFor 1 = 100 ∧
      s.sweptFor 1 ≤ r.nativeTokenAmount := by
  have hend : ((runAllowed step
      (fun s l => s.Allowed l ∧ s.lateSuccess l = false) twoRecordsQueued
      timelyRun).bind fun s => (s.keeper.view 1).map fun r =>
        (r.nativeTokenAmount, s.sweptFor 1)) = some (100, 100) := by decide +kernel
  obtain ⟨s, hs, hview⟩ := Option.bind_eq_some_iff.mp hend
  obtain ⟨r, hr, hvalues⟩ := Option.map_eq_some_iff.mp hview
  obtain ⟨hnative, hswept⟩ := Prod.mk.inj hvalues
  refine ⟨s, r, hs, hr, hswept, ?_⟩
  exact (swept_at_most_once twoRecordsQueued_beforeSweeps (Reaches.of_runAllowed hs)).2 1 r hr
    (by omega)

end Stride.Stakeibc
