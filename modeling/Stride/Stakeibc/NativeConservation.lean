import Stride.Stakeibc.UnbondingSystem

/-!
# Conservation of the Native Amounts to Unbond

A submission hands the native amounts of its records over to transactions that do not know
which record they pay for. Acknowledgements in any order, failures and retries keep one
equation for each submission: what its records have left to unbond is what its transactions
carry that have not succeeded.
-/

namespace Stride.Stakeibc

open Lib Sdk Records List Packet UnbondingSystem

/-! ## Amounts of a submission -/

/-- What the record of an epoch has left to unbond. -/
def UnbondingKeeper.nativeLeft (k : UnbondingKeeper) (e : ℕ) : ℤ :=
  (k.view e).elim 0 HostZoneUnbonding.nativeTokensToUnbond

def Packet.isOf (j : ℕ) : Packet → Bool
  | .undelegate j' _ => j' = j
  | .redemption _ _ => false

/-- What a packet undelegates for submission `j`. -/
def Packet.amountOf (j : ℕ) : Packet → ℤ
  | .undelegate j' tx => if j' = j then tx.amount else 0
  | .redemption _ _ => 0

/-- The record has left the undelegation: it waits for its sweep, is swept, or claimable. -/
def exited (status : UnbondingStatus) : Bool :=
  status = .exitTransferQueue || status = .exitTransferInProgress || status = .claimable

/-- A record of a submission with `n` transactions in flight. -/
structure Owned (n : ℕ) (r : HostZoneUnbonding) : Prop where
  nonneg : 0 ≤ r.nativeTokensToUnbond
  txs : r.undelegationTxsInProgress = n
  stTokens : 0 < r.stTokenAmount
  status : r.status = .unbondingInProgress ∨ r.status = .unbondingRetryQueue ∨
    (exited r.status = true ∧ r.nativeTokensToUnbond = 0)

/-- The records of submission `j` and their transactions. -/
structure SubmissionInv (k : UnbondingKeeper) (packets : List Packet) (j : ℕ)
    (sub : Submission) : Prop where
  nodup : sub.records.Nodup
  owned : ∀ e ∈ sub.records, ∃ r, k.view e = some r ∧ Owned (packets.countP (isOf j)) r
  retry : ∀ e ∈ sub.records, ∀ e' ∈ sub.records, ∀ r r', k.view e = some r →
    k.view e' = some r' → r.status = .unbondingRetryQueue → r'.status ≠ .unbondingInProgress
  failed : ∀ tx ∈ sub.failed, 0 ≤ tx.amount
  sum : (sub.records.map k.nativeLeft).sum =
    (packets.map (amountOf j)).sum + (sub.failed.map UndelegateTx.amount).sum

/-- Every record that left the queue is in at most one submission, a record in none is not
    in progress, and the packets in flight name the records of their submission. -/
structure UnbondingSystem.NativeInv (s : UnbondingSystem) : Prop where
  wellFormed : s.keeper.WellFormed
  submission : ∀ (j : ℕ) (sub : Submission), s.submissions[j]? = some sub →
    SubmissionInv s.keeper s.inFlight j sub
  disjoint : ∀ (i j : ℕ) (a b : Submission), s.submissions[i]? = some a →
    s.submissions[j]? = some b → ∀ e ∈ a.records, e ∈ b.records → i = j
  free : ∀ e r, s.keeper.view e = some r →
    (∀ (j : ℕ) (sub : Submission), s.submissions[j]? = some sub → e ∉ sub.records) →
    r.status ≠ .unbondingInProgress ∧ r.status ≠ .unbondingRetryQueue ∧
      (r.status = .unbondingQueue → r.undelegationTxsInProgress = 0)
  packet : ∀ j tx, .undelegate j tx ∈ s.inFlight → ∃ sub, s.submissions[j]? = some sub ∧
    tx.callback.epochUnbondingRecordIds = sub.records ∧ 0 ≤ tx.amount
  sweep : ∀ tx amounts, .redemption tx amounts ∈ s.inFlight →
    tx.callback.hostZoneId = s.keeper.hostZone.chainId ∧
    tx.callback.epochUnbondingRecordIds.Nodup ∧
    ∀ e ∈ tx.callback.epochUnbondingRecordIds,
      ∃ r, s.keeper.view e = some r ∧ exited r.status = true

variable {r r' : HostZoneUnbonding} {recs : EpochRecords} {packets : List Packet}
  {sub : Submission} {k : UnbondingKeeper} {e j n : ℕ}

private theorem nativeLeft_of_view (h : k.view e = some r) :
    k.nativeLeft e = r.nativeTokensToUnbond := by
  simp [UnbondingKeeper.nativeLeft, h]

private theorem sum_nativeLeft_of_fetched {chainId : String} (hchain : k.hostZone.chainId = chainId)
    (h : Fetched k.epochUnbondingRecords chainId recs) :
    ((recs.map Prod.fst).map k.nativeLeft).sum =
      (recs.map fun p => p.2.nativeTokensToUnbond).sum := by
  subst hchain
  rw [map_map]
  congr 1
  apply map_congr_left
  intro p hp
  exact nativeLeft_of_view (h p hp)

private theorem Owned.not_queued (h : Owned n r) : r.status ≠ .unbondingQueue := by
  intro heq
  have hstatus := h.status
  simp [heq, exited] at hstatus

/-- A record that has left the undelegation has nothing left to unbond. -/
theorem Owned.left_eq_zero (h : Owned n r) (hex : exited r.status = true) :
    r.nativeTokensToUnbond = 0 := by
  rcases h.status with hs | hs | ⟨-, hzero⟩
  · simp [hs, exited] at hex
  · simp [hs, exited] at hex
  · exact hzero

private theorem sum_amountOf_eq_zero (h : ∀ p ∈ packets, isOf j p = false) :
    (packets.map (amountOf j)).sum = 0 := by
  apply sum_map_eq_zero
  intro p hp
  have hother := h p hp
  cases p with
  | undelegate j' tx => exact if_neg (of_decide_eq_false hother)
  | redemption tx amounts => rfl

/-! ## Steps that leave the submissions alone -/

/-- A record that moves at most between the exited statuses. -/
structure SameProgress (r r' : HostZoneUnbonding) : Prop where
  native : r'.nativeTokensToUnbond = r.nativeTokensToUnbond
  txs : r'.undelegationTxsInProgress = r.undelegationTxsInProgress
  stTokens : r'.stTokenAmount = r.stTokenAmount
  status : r'.status = r.status ∨ (exited r.status = true ∧ exited r'.status = true)

private theorem SameProgress.refl (r : HostZoneUnbonding) : SameProgress r r :=
  ⟨rfl, rfl, rfl, .inl rfl⟩

private theorem SameProgress.owned (h : SameProgress r r') (ho : Owned n r) : Owned n r' := by
  refine ⟨h.native ▸ ho.nonneg, h.txs.trans ho.txs, h.stTokens ▸ ho.stTokens, ?_⟩
  rw [h.native]
  rcases h.status with hs | ⟨hr, hr'⟩
  · rw [hs]
    exact ho.status
  · exact .inr (.inr ⟨hr', ho.left_eq_zero hr⟩)

private theorem SameProgress.status_eq_of_not_exited (h : SameProgress r r')
    (hr' : exited r'.status = false) : r'.status = r.status := by
  rcases h.status with hs | ⟨-, hexited⟩
  · exact hs
  · rw [hr'] at hexited
    cases hexited

/-- A submission whose records keep their progress. -/
theorem SubmissionInv.of_sameProgress {k' : UnbondingKeeper} {packets' : List Packet}
    (h : SubmissionInv k packets j sub) (hview : ∀ e ∈ sub.records, ∀ r, k.view e = some r →
      ∃ r', k'.view e = some r' ∧ SameProgress r r')
    (hcount : packets'.countP (isOf j) = packets.countP (isOf j))
    (hamount : (packets'.map (amountOf j)).sum = (packets.map (amountOf j)).sum) :
    SubmissionInv k' packets' j sub := by
  -- every record of the submission was there before
  have hback {e : ℕ} (he : e ∈ sub.records) {r' : HostZoneUnbonding}
      (hr' : k'.view e = some r') : ∃ r, k.view e = some r ∧ SameProgress r r' := by
    obtain ⟨r, hr, -⟩ := h.owned e he
    obtain ⟨r'', hr'', hsame⟩ := hview e he r hr
    rw [hr', Option.some.injEq] at hr''
    exact ⟨r, hr, hr'' ▸ hsame⟩
  refine ⟨h.nodup, ?_, ?_, h.failed, ?_⟩
  · intro e he
    obtain ⟨r, hr, ho⟩ := h.owned e he
    obtain ⟨r', hr', hsame⟩ := hview e he r hr
    rw [hcount]
    exact ⟨r', hr', hsame.owned ho⟩
  · intro e he e' he' r₁' r₂' hr₁' hr₂' hretry hin
    obtain ⟨r₁, hr₁, hsame₁⟩ := hback he hr₁'
    obtain ⟨r₂, hr₂, hsame₂⟩ := hback he' hr₂'
    have h₁ : r₁.status = .unbondingRetryQueue :=
      (hsame₁.status_eq_of_not_exited (by rw [hretry]; rfl)).symm.trans hretry
    have h₂ : r₂.status = .unbondingInProgress :=
      (hsame₂.status_eq_of_not_exited (by rw [hin]; rfl)).symm.trans hin
    exact h.retry e he e' he' r₁ r₂ hr₁ hr₂ h₁ h₂
  · rw [hamount, ← h.sum]
    congr 1
    apply map_congr_left
    intro e he
    obtain ⟨r, hr, -⟩ := h.owned e he
    obtain ⟨r', hr', hsame⟩ := hview e he r hr
    rw [nativeLeft_of_view hr, nativeLeft_of_view hr', hsame.native]

private theorem SubmissionInv.owned_of_view (h : SubmissionInv k packets j sub)
    (he : e ∈ sub.records)
    (hr : k.view e = some r) : Owned (packets.countP (isOf j)) r := by
  obtain ⟨r', hr', ho⟩ := h.owned e he
  rwa [Option.some.inj (hr.symm.trans hr')]

/-- A change of the keepers in which no record of a submission makes progress. -/
structure QuietChange (k k' : UnbondingKeeper) : Prop where
  wellFormed : k'.WellFormed
  chainId : k'.hostZone.chainId = k.hostZone.chainId
  kept : ∀ e r, k.view e = some r → r.status ≠ .unbondingQueue →
    ∃ r', k'.view e = some r' ∧ SameProgress r r'
  fresh : ∀ e r', k'.view e = some r' →
    (∀ r, k.view e = some r → r.status = .unbondingQueue) →
    r'.status = .unbondingQueue ∧ (r'.undelegationTxsInProgress = 0 ∨
      ∃ r, k.view e = some r ∧ r'.undelegationTxsInProgress = r.undelegationTxsInProgress)

namespace UnbondingSystem

variable {s s' : UnbondingSystem}

/-- A queued record is in no submission, so no transaction is in progress for it. -/
theorem NativeInv.txs_of_queued (hi : s.NativeInv) (hr : s.keeper.view e = some r)
    (hstatus : r.status = .unbondingQueue) :
    (∀ (j : ℕ) (sub : Submission), s.submissions[j]? = some sub → e ∉ sub.records) ∧
      r.undelegationTxsInProgress = 0 := by
  have hnot : ∀ (j : ℕ) (sub : Submission), s.submissions[j]? = some sub →
      e ∉ sub.records := by
    intro j sub hsub he
    exact ((hi.submission j sub hsub).owned_of_view he hr).not_queued hstatus
  exact ⟨hnot, (hi.free e r hr hnot).2.2 hstatus⟩

variable {records : EpochUnbondingStore} {swept : List (List (ℕ × ℤ))}
  {out : EpochRecords} {amounts : List (ℕ × ℤ)} {subs : List Submission}
  {txs : List UndelegateTx} {tx : UndelegateTx} {i : ℕ}

/-- **Quiet steps** keep the invariant. -/
theorem NativeInv.quiet (hi : s.NativeInv) (hq : QuietChange s.keeper k)
    (hpackets : ∀ j tx, .undelegate j tx ∈ packets → .undelegate j tx ∈ s.inFlight)
    (hcount : ∀ j, packets.countP (isOf j) = s.inFlight.countP (isOf j))
    (hamount : ∀ j, (packets.map (amountOf j)).sum =
      (s.inFlight.map (amountOf j)).sum)
    (hsweep : ∀ tx amounts, .redemption tx amounts ∈ packets →
      tx.callback.hostZoneId = s.keeper.hostZone.chainId ∧
      tx.callback.epochUnbondingRecordIds.Nodup ∧
      ∀ e ∈ tx.callback.epochUnbondingRecordIds,
        ∃ r, s.keeper.view e = some r ∧ exited r.status = true) :
    NativeInv ⟨k, packets, s.submissions, swept⟩ := by
  refine ⟨hq.wellFormed, ?_, hi.disjoint, ?_, ?_, ?_⟩
  · intro j sub hsub
    apply (hi.submission j sub hsub).of_sameProgress _ (hcount j) (hamount j)
    intro e he r hr
    exact hq.kept e r hr ((hi.submission j sub hsub).owned_of_view he hr).not_queued
  · intro e r' hr' hnot
    -- outside the submissions a record was there before, or is queued
    by_cases hold : ∃ r, s.keeper.view e = some r ∧ r.status ≠ .unbondingQueue
    · obtain ⟨r, hr, hne⟩ := hold
      obtain ⟨r'', hr'', hsame⟩ := hq.kept e r hr hne
      rw [hr', Option.some.injEq] at hr''
      subst hr''
      obtain ⟨hin, hretry, -⟩ := hi.free e r hr hnot
      rcases hsame.status with hs | ⟨-, hexited⟩
      · rw [hs]
        exact ⟨hin, hretry, fun h => absurd h hne⟩
      · refine ⟨?_, ?_, ?_⟩ <;> intro h <;> rw [h] at hexited <;> exact absurd hexited (by decide)
    · have hqueued : ∀ r, s.keeper.view e = some r → r.status = .unbondingQueue :=
        fun r hr => not_not.mp fun hne => hold ⟨r, hr, hne⟩
      obtain ⟨hstatus, htxs⟩ := hq.fresh e r' hr' hqueued
      refine ⟨by rw [hstatus]; decide, by rw [hstatus]; decide, fun _ => ?_⟩
      rcases htxs with hzero | ⟨r, hr, heq⟩
      · exact hzero
      · rw [heq]
        exact (hi.free e r hr hnot).2.2 (hqueued r hr)
  · exact fun j tx hp => hi.packet j tx (hpackets j tx hp)
  · intro tx amounts hp
    obtain ⟨hid, hnd, hall⟩ := hsweep tx amounts hp
    refine ⟨hid.trans hq.chainId.symm, hnd, ?_⟩
    intro e he
    obtain ⟨r, hr, hexited⟩ := hall e he
    have hne : r.status ≠ .unbondingQueue := fun heq => by simp [heq, exited] at hexited
    obtain ⟨r', hr', hsame⟩ := hq.kept e r hr hne
    refine ⟨r', hr', ?_⟩
    rcases hsame.status with hs | ⟨-, hexited'⟩
    · rw [hs]
      exact hexited
    · exact hexited'

private theorem NativeInv.environment (hi : s.NativeInv) (h : EnvironmentChange s.keeper k) :
    NativeInv { s with keeper := k } := by
  apply hi.quiet _ (fun _ _ hp => hp) (fun _ => rfl) (fun _ => rfl) hi.sweep
  refine ⟨h.wellFormed, h.chainId, ?_, ?_⟩
  · intro e r hr hne
    obtain ⟨claimable, hr'⟩ := h.kept e r hr hne
    exact ⟨_, hr', ⟨rfl, rfl, rfl, .inl rfl⟩⟩
  · intro e r' hr' hqueued
    obtain ⟨hstatus, htxs⟩ := h.queued e r' hr' hqueued
    exact ⟨hstatus, .inl htxs⟩

private theorem quietChange_of_exited {g : HostZoneUnbonding → HostZoneUnbonding}
    {epochs : List ℕ} (hwf : k.WellFormed)
    (hrewrites : Rewrites k.hostZone.chainId epochs g k.epochUnbondingRecords records)
    (hexited : ∀ e ∈ epochs, ∃ r, k.view e = some r ∧ exited r.status = true)
    (hg : ∀ r, exited r.status = true → SameProgress r (g r)) :
    QuietChange k { k with epochUnbondingRecords := records } := by
  have hview := view_of_rewrites hrewrites
  refine ⟨⟨hwf.rate, hwf.users⟩, rfl, fun e r hr _ => ?_, fun e r' hr' hqueued => ?_⟩
  · rw [hview, hr]
    split
    · rename_i he
      obtain ⟨r', hr', hex⟩ := hexited e he
      obtain rfl := Option.some.inj (hr.symm.trans hr')
      exact ⟨g r, rfl, hg r hex⟩
    · exact ⟨r, rfl, .refl r⟩
  · rw [hview] at hr'
    split at hr'
    · rename_i he
      obtain ⟨r, hr, hex⟩ := hexited e he
      rw [hqueued r hr] at hex
      cases hex
    · exact ⟨hqueued r' hr', .inr ⟨r', hr', rfl⟩⟩

private theorem NativeInv.sweep_some (hi : s.NativeInv) {hostBlockTime : ℕ} {tx : RedemptionTx}
    {swept : EpochRecords}
    (hsweeps : Sweeps s.keeper hostBlockTime tx swept records) :
    (s.afterSweep tx swept records).NativeInv := by
  have hready : ∀ e ∈ swept.map Prod.fst,
      ∃ r, s.keeper.view e = some r ∧ exited r.status = true := by
    intro e he
    obtain ⟨p, hp, rfl⟩ := mem_map.mp he
    obtain ⟨hr, hstatus, -⟩ := of_mem_sweptRecords (hsweeps.ready ▸ hp)
    exact ⟨p.2, hr, by rw [hstatus]; rfl⟩
  apply hi.quiet
  · exact quietChange_of_exited hi.wellFormed hsweeps.marked hready
      fun r hr => ⟨rfl, rfl, rfl, .inr ⟨hr, rfl⟩⟩
  · exact fun j tx' hp => by simpa using hp
  · simp [countP_append, isOf]
  · simp [amountOf]
  · intro tx' amounts' hp
    rcases mem_append.mp hp with hp | hp
    · exact hi.sweep tx' amounts' hp
    · cases mem_singleton.mp hp
      rw [hsweeps.callback]
      exact ⟨rfl, hsweeps.ready ▸ nodup_selectHostZoneUnbondings _ _ _, hready⟩

private theorem sameProgress_sweepOutcome (status : AckStatus) (hr : exited r.status = true) :
    SameProgress r (sweepOutcome status r) := by
  cases status with
  | timeout => exact .refl r
  | _ => exact ⟨rfl, rfl, rfl, .inr ⟨hr, rfl⟩⟩

private theorem NativeInv.redemptionAck (hi : s.NativeInv) {tx : RedemptionTx} {status : AckStatus}
    (hpacket : s.inFlight[i]? = some (.redemption tx amounts))
    (h : redemptionCallback s.keeper tx.callback status = .ok k) :
    (s.afterSweepAck i amounts status k).NativeInv := by
  have hperm := perm_cons_eraseIdx hpacket
  obtain ⟨hchain, hnd, hexited⟩ := hi.sweep tx amounts (mem_of_getElem? hpacket)
  obtain ⟨records, rfl, hrewrites⟩ := redemptionCallback_spec hnd h
  rw [hchain] at hrewrites
  apply hi.quiet
  · exact quietChange_of_exited hi.wellFormed hrewrites hexited
      fun r hr => sameProgress_sweepOutcome status hr
  · exact fun _ _ hp => mem_of_mem_eraseIdx hp
  · simp [hperm.countP_eq, isOf]
  · simp [(hperm.map _).sum_eq, amountOf]
  · exact fun tx' amounts' hp => hi.sweep tx' amounts' (mem_of_mem_eraseIdx hp)

/-! ## Acknowledgements of undelegations -/

/-- The records that an acknowledged batch leaves, with `n` transactions still in flight. -/
private structure AckedRecords (n : ℕ) (recs out : EpochRecords) : Prop where
  owned : ∀ p ∈ out, Owned n p.2
  retry : ∀ p ∈ out, ∀ q ∈ out, p.2.status = .unbondingRetryQueue →
    q.2.status ≠ .unbondingInProgress
  exited : Forall₂
    (AtSameEpoch fun r r' => exited r.status = true → exited r'.status = true) recs out

private theorem NativeInv.acked (hi : s.NativeInv) (failed : List UndelegateTx)
    (hpacket : s.inFlight[i]? = some (.undelegate j tx)) (hsub : s.submissions[j]? = some sub)
    (hwf : k.WellFormed) (hchain : k.hostZone.chainId = s.keeper.hostZone.chainId)
    (hfst : recs.map Prod.fst = sub.records) (hfst' : out.map Prod.fst = sub.records)
    (hrecs : Fetched s.keeper.epochUnbondingRecords s.keeper.hostZone.chainId recs)
    (hout : Fetched k.epochUnbondingRecords s.keeper.hostZone.chainId out)
    (hsame : SameElsewhere s.keeper.hostZone.chainId sub.records
      s.keeper.epochUnbondingRecords k.epochUnbondingRecords)
    (hacked : AckedRecords ((s.inFlight.eraseIdx i).countP (isOf j)) recs out)
    (hfailed : ∀ tx ∈ failed, 0 ≤ tx.amount)
    (hsum : (out.map fun p => p.2.nativeTokensToUnbond).sum =
      ((s.inFlight.eraseIdx i).map (amountOf j)).sum +
        (failed.map UndelegateTx.amount).sum) (hsubs : ∀ j' : ℕ, subs[j']? =
      if j' = j then some { sub with failed := failed } else s.submissions[j']?) :
    NativeInv ⟨k, s.inFlight.eraseIdx i, subs, swept⟩ := by
  have hperm := perm_cons_eraseIdx hpacket
  have hother {e : ℕ} (he : e ∉ sub.records) : k.view e = s.keeper.view e :=
    (UnbondingKeeper.view_eq hchain e).trans (hsame.epoch e he)
  have hview {p : ℕ × HostZoneUnbonding} (hp : p ∈ out) : k.view p.1 = some p.2 :=
    (UnbondingKeeper.view_eq hchain p.1).trans (hout p hp)
  have hmem {e : ℕ} (he : e ∈ sub.records) {r : HostZoneUnbonding} (hr : k.view e = some r) :
      (e, r) ∈ out := by
    rw [← hfst'] at he
    obtain ⟨p, hp, rfl⟩ := mem_map.mp he
    rw [hview hp, Option.some.injEq] at hr
    rw [← hr]
    exact hp
  -- which submission an index stands for now, and that its records are the same
  have hrecords {j' : ℕ} {sub' : Submission} (h : subs[j']? = some sub') :
      ∃ sub₀, s.submissions[j']? = some sub₀ ∧ sub'.records = sub₀.records := by
    rw [hsubs] at h
    split at h
    · rename_i hj
      cases h
      exact ⟨sub, hj ▸ hsub, rfl⟩
    · exact ⟨sub', h, rfl⟩
  have hstays {j' : ℕ} {sub₀ : Submission} (h : s.submissions[j']? = some sub₀) :
      ∃ sub', subs[j']? = some sub' ∧ sub'.records = sub₀.records := by
    rw [hsubs]
    split
    · rename_i hj
      rw [hj, hsub] at h
      cases h
      exact ⟨_, rfl, rfl⟩
    · exact ⟨sub₀, h, rfl⟩
  refine ⟨hwf, ?_, ?_, ?_, ?_, ?_⟩
  · intro j' sub' h
    by_cases hj : j' = j
    · subst hj
      rw [hsubs, if_pos rfl] at h
      cases h
      refine ⟨(hi.submission j' sub hsub).nodup, ?_, ?_, hfailed, ?_⟩
      · intro e he
        have he' : e ∈ out.map Prod.fst := hfst' ▸ he
        obtain ⟨p, hp, rfl⟩ := mem_map.mp he'
        exact ⟨p.2, hview hp, hacked.owned p hp⟩
      · intro e he e' he' r r' hr hr' hretry
        exact hacked.retry _ (hmem he hr) _ (hmem he' hr') hretry
      · have hleft := sum_nativeLeft_of_fetched hchain hout
        rw [hfst'] at hleft
        exact hleft.trans hsum
    · -- another submission: none of its records or packets changes
      rw [hsubs, if_neg hj] at h
      apply (hi.submission j' sub' h).of_sameProgress
      · intro e he r hr
        have hnot : e ∉ sub.records := fun he' => hj (hi.disjoint j' j sub' sub h hsub e he he')
        exact ⟨r, (hother hnot).trans hr, .refl r⟩
      · simp [hperm.countP_eq, isOf, Ne.symm hj]
      · rw [(hperm.map (amountOf j')).sum_eq]
        simp [amountOf, Ne.symm hj]
  · intro a b sub₁ sub₂ h₁ h₂ e he₁ he₂
    obtain ⟨sub₁', h₁', hrec₁⟩ := hrecords h₁
    obtain ⟨sub₂', h₂', hrec₂⟩ := hrecords h₂
    exact hi.disjoint a b sub₁' sub₂' h₁' h₂' e (hrec₁ ▸ he₁) (hrec₂ ▸ he₂)
  · intro e r hr hnot
    have hnot' (j' : ℕ) (sub' : Submission) (h : s.submissions[j']? = some sub') :
        e ∉ sub'.records := by
      obtain ⟨sub'', h', hrec⟩ := hstays h
      exact hrec ▸ hnot j' sub'' h'
    exact hi.free e r ((hother (hnot' j sub hsub)).symm.trans hr) hnot'
  · intro j' tx' hp
    obtain ⟨sub', h, hids, hnn⟩ := hi.packet j' tx' (mem_of_mem_eraseIdx hp)
    obtain ⟨sub'', h', hrec⟩ := hstays h
    exact ⟨sub'', h', hids.trans hrec.symm, hnn⟩
  · intro tx' amounts hp
    obtain ⟨hid, hnd, hexited⟩ := hi.sweep tx' amounts (mem_of_mem_eraseIdx hp)
    refine ⟨hid.trans hchain.symm, hnd, ?_⟩
    intro e he
    obtain ⟨r, hr, hex⟩ := hexited e he
    by_cases he' : e ∈ sub.records
    · rw [← hfst] at he'
      obtain ⟨p, hp', rfl⟩ := mem_map.mp he'
      obtain ⟨q, hq, hpq⟩ := forall₂_exists_right hacked.exited hp'
      have hpr : p.2 = r := Option.some.inj ((hrecs p hp').symm.trans hr)
      rw [hpq.1]
      exact ⟨q.2, hview hq, hpq.2 (by rw [hpr]; exact hex)⟩
    · exact ⟨r, (hother he').trans hr, hex⟩

private theorem owned_ackReceived (h : Owned (n + 1) r) : Owned n (ackReceived r) := by
  refine ⟨h.nonneg, ?_, h.stTokens, h.status⟩
  show r.undelegationTxsInProgress - 1 = n
  rw [h.txs, Nat.add_sub_cancel]

private theorem ackedRecords_failure (h : ∀ p ∈ recs, Owned (n + 1) p.2) :
    AckedRecords n recs (mapRecords (failedUndelegation ∘ ackReceived) recs) := by
  -- a failure leaves no record in progress
  have hnot (r : HostZoneUnbonding) : (failedUndelegation r).status ≠ .unbondingInProgress := by
    unfold failedUndelegation
    split
    · exact fun h => UnbondingStatus.noConfusion h
    · assumption
  refine ⟨?_, ?_, ?_⟩
  · intro q hq
    obtain ⟨p, hp, rfl⟩ := mem_map.mp hq
    have ho := owned_ackReceived (h p hp)
    show Owned n (failedUndelegation (ackReceived p.2))
    unfold failedUndelegation
    split
    · exact ⟨ho.nonneg, ho.txs, ho.stTokens, .inr (.inl rfl)⟩
    · exact ho
  · intro _ _ q hq _
    obtain ⟨p, hp, rfl⟩ := mem_map.mp hq
    exact hnot _
  · refine (forall₂_mapRecords (failedUndelegation ∘ ackReceived) recs).imp
      fun p q hpq => ⟨hpq.1, fun hex => ?_⟩
    have hne : p.2.status ≠ .unbondingInProgress := fun heq => by simp [heq, exited] at hex
    rw [hpq.2]
    simpa [failedUndelegation, ackReceived, hne] using hex

private theorem cascadeReady_of_owned (h : Owned n r) : CascadeReady r := by
  exact ⟨h.nonneg, fun hexit => h.left_eq_zero (by simp [hexit, exited])⟩

private theorem owned_of_cascadeStep (h : CascadeStep r r') (ho : Owned n r)
    (hnn : 0 ≤ r'.nativeTokensToUnbond) (hle : r'.nativeTokensToUnbond ≤ r.nativeTokensToUnbond) :
    Owned n r' := by
  refine ⟨hnn, h.undelegationTxsInProgress_eq.trans ho.txs, h.stTokenAmount_eq ▸ ho.stTokens, ?_⟩
  rw [h.status_eq]
  split
  · rename_i hzero
    exact .inr (.inr ⟨rfl, hzero.2⟩)
  · rcases ho.status with hs | hs | ⟨hex, hzero⟩
    · exact .inl hs
    · exact .inr (.inl hs)
    · exact .inr (.inr ⟨hex, by omega⟩)

private theorem ackedRecords_success {time : ℕ} {tally tally' : UndelegationTally}
    (h : ∀ p ∈ recs, Owned (n + 1) p.2)
    (hretry : ∀ p ∈ recs, ∀ q ∈ recs, p.2.status = .unbondingRetryQueue →
      q.2.status ≠ .unbondingInProgress)
    (hrun : mapAccum (recordStep (undelegationBody time)) tally (mapRecords ackReceived recs) =
      .ok (tally', out)) (htally : 0 ≤ tally.totalNativeTokensUnbonded)
    (hout : ∀ p ∈ out, 0 ≤ p.2.nativeTokensToUnbond) : AckedRecords n recs out := by
  have hsteps := cascade_forall₂ hrun
  have hles := cascade_native_le hrun htally
  rw [mapRecords, forall₂_map_left_iff] at hsteps hles
  have hstatus : Forall₂ (AtSameEpoch fun r r' =>
      r'.status = r.status ∨ r'.status = .exitTransferQueue) recs out :=
    hsteps.imp fun p q hpq => ⟨hpq.1, by
      show q.2.status = p.2.status ∨ q.2.status = .exitTransferQueue
      rw [CascadeStep.status_eq hpq.2]
      split
      · exact .inr rfl
      · exact .inl rfl⟩
  refine ⟨?_, ?_, ?_⟩
  · intro q hq
    -- both relations hold between the record at the same position and `q`
    have hboth : Forall₂ (fun p q : ℕ × HostZoneUnbonding =>
        CascadeStep (ackReceived p.2) q.2 ∧
        (0 ≤ p.2.nativeTokensToUnbond → q.2.nativeTokensToUnbond ≤ p.2.nativeTokensToUnbond))
        recs out := by
      rw [forall₂_iff_get] at hsteps hles ⊢
      exact ⟨hsteps.1, fun i h₁ h₂ => ⟨(hsteps.2 i h₁ h₂).2, (hles.2 i h₁ h₂).2⟩⟩
    obtain ⟨p, hp, hstep, hle⟩ := forall₂_exists_left hboth hq
    exact owned_of_cascadeStep hstep (owned_ackReceived (h p hp)) (hout q hq) (hle (h p hp).nonneg)
  · intro q₁ hq₁ q₂ hq₂ hs₁ hs₂
    obtain ⟨p₁, hp₁, -, hst₁⟩ := forall₂_exists_left hstatus hq₁
    obtain ⟨p₂, hp₂, -, hst₂⟩ := forall₂_exists_left hstatus hq₂
    rcases hst₁ with heq₁ | heq₁
    · rcases hst₂ with heq₂ | heq₂
      · exact hretry p₁ hp₁ p₂ hp₂ (heq₁ ▸ hs₁) (heq₂ ▸ hs₂)
      · exact absurd (heq₂.symm.trans hs₂) (by decide)
    · exact absurd (heq₁.symm.trans hs₁) (by decide)
  · refine hstatus.imp fun p q hpq => ⟨hpq.1, fun hex => ?_⟩
    rcases hpq.2 with heq | heq
    · rw [heq]
      exact hex
    · rw [heq]
      rfl

private theorem NativeInv.amount_nonneg (hi : s.NativeInv) (hsub : ∀ p ∈ packets, p ∈ s.inFlight)
    (j : ℕ) : 0 ≤ (packets.map (amountOf j)).sum := by
  apply sum_map_nonneg
  intro p hp
  cases p with
  | undelegate j' tx =>
    obtain ⟨-, -, -, hnn⟩ := hi.packet j' tx (hsub _ hp)
    show 0 ≤ if j' = j then tx.amount else 0
    split
    · exact hnn
    · exact le_rfl
  | redemption tx amounts => exact le_rfl

private theorem getElem?_acked (hsub : s.submissions[j]? = some sub) (status : AckStatus) (j' : ℕ) :
    (s.submissions.modify j (Submission.acked tx status))[j']? =
      if j' = j then some (sub.acked tx status) else s.submissions[j']? := by
  by_cases hj : j' = j
  · subst hj
    simp [hsub]
  · simp [hj, Ne.symm hj]

/-- **Acknowledgement**: it keeps the invariant, and a success takes the whole amount of
    the batch off the records it names. -/
theorem NativeInv.undelegateAck (hi : s.NativeInv) {ack : UndelegateAck}
    (hack : ack.status ≠ .timeout) (hpacket : s.inFlight[i]? = some (.undelegate j tx))
    (h : undelegateCallback s.keeper tx.callback ack = .ok k) :
    NativeInv { s with
      keeper := k
      inFlight := s.inFlight.eraseIdx i
      submissions := s.submissions.modify j (Submission.acked tx ack.status) } ∧
    (ack.status = .success →
      (tx.callback.epochUnbondingRecordIds.map k.nativeLeft).sum =
        (tx.callback.epochUnbondingRecordIds.map s.keeper.nativeLeft).sum - tx.amount) := by
  have hperm := perm_cons_eraseIdx hpacket
  obtain ⟨sub, hsub, hids, hnn⟩ := hi.packet j tx (mem_of_getElem? hpacket)
  have hsi := hi.submission j sub hsub
  have hcount : s.inFlight.countP (isOf j) =
      (s.inFlight.eraseIdx i).countP (isOf j) + 1 := by
    simp [hperm.countP_eq, isOf]
  have hamount : (s.inFlight.map (amountOf j)).sum =
      tx.amount + ((s.inFlight.eraseIdx i).map (amountOf j)).sum := by
    rw [(hperm.map (amountOf j)).sum_eq]
    simp [amountOf]
  obtain ⟨-, hset, husers, recs, out, hfst, hfst', hrecs, hout, -, hchanges, hsame⟩ :=
    undelegateCallback_spec (hids ▸ hsi.nodup) h
  have hchain := HostZone.chainId_eq_of_settings hset
  have hwf : k.WellFormed := ⟨HostZone.redemptionRate_eq_of_settings hset ▸ hi.wellFormed.rate,
    husers ▸ hi.wellFormed.users⟩
  have howned : ∀ p ∈ recs,
      Owned ((s.inFlight.eraseIdx i).countP (isOf j) + 1) p.2 := by
    intro p hp
    have hmem : p.1 ∈ sub.records := by
      rw [← hids, ← hfst]
      exact mem_map_of_mem hp
    rw [← hcount]
    exact hsi.owned_of_view hmem (hrecs p hp)
  have hleft := sum_nativeLeft_of_fetched rfl hrecs
  have hsum := hsi.sum
  rw [hids] at hfst hfst' hsame
  rw [hfst] at hleft
  rw [hamount] at hsum
  cases hstatus : ack.status with
  | timeout => exact absurd hstatus hack
  | failure =>
    rw [hstatus] at hchanges
    obtain rfl : out = mapRecords (failedUndelegation ∘ ackReceived) recs := hchanges
    refine ⟨?_, fun habs => absurd habs (by decide)⟩
    apply hi.acked (tx :: sub.failed) hpacket hsub hwf hchain hfst hfst' hrecs hout
      hsame (ackedRecords_failure howned)
    · exact forall_mem_cons.mpr ⟨hnn, hsi.failed⟩
    · -- a failed batch leaves the records' amounts and moves its own to the failed ones
      have hsameNative : ((mapRecords (failedUndelegation ∘ ackReceived) recs).map
          fun p => p.2.nativeTokensToUnbond) = recs.map fun p => p.2.nativeTokensToUnbond := by
        rw [mapRecords, map_map]
        apply map_congr_left
        intro p _
        show (failedUndelegation (ackReceived p.2)).nativeTokensToUnbond = _
        unfold failedUndelegation
        split <;> rfl
      rw [hsameNative, ← hleft, hsum, map_cons, sum_cons]
      ring
    · exact getElem?_acked hsub .failure
  | success =>
    rw [hstatus] at hchanges
    obtain ⟨time, tally', -, hrun⟩ := hchanges
    have hmapNative : ((mapRecords ackReceived recs).map fun p => p.2.nativeTokensToUnbond) =
        recs.map fun p => p.2.nativeTokensToUnbond := by
      rw [mapRecords, map_map]
      rfl
    have hready : ∀ p ∈ mapRecords ackReceived recs, CascadeReady p.2 := by
      intro q hq
      obtain ⟨p, hp, rfl⟩ := mem_map.mp hq
      exact cascadeReady_of_owned (owned_ackReceived (howned p hp))
    have hrest := hi.amount_nonneg (fun p (hp : p ∈ s.inFlight.eraseIdx i) =>
      mem_of_mem_eraseIdx hp) j
    have hfailed : 0 ≤ (sub.failed.map UndelegateTx.amount).sum := sum_map_nonneg hsi.failed
    have hcovered : tx.amount ≤
        ((mapRecords ackReceived recs).map fun p => p.2.nativeTokensToUnbond).sum := by
      rw [hmapNative, ← hleft]
      omega
    obtain ⟨hsumOut, hnnOut⟩ := cascade_of_covered hrun hready hnn hcovered
    have hsumOut' : (out.map fun p => p.2.nativeTokensToUnbond).sum =
        (sub.records.map s.keeper.nativeLeft).sum - tx.amount := by
      rw [hleft, ← hmapNative]
      exact hsumOut
    have hretry : ∀ p ∈ recs, ∀ q ∈ recs, p.2.status = .unbondingRetryQueue →
        q.2.status ≠ .unbondingInProgress := by
      intro p hp q hq
      have hmem {x : ℕ × HostZoneUnbonding} (hx : x ∈ recs) : x.1 ∈ sub.records := by
        rw [← hfst]
        exact mem_map_of_mem hx
      exact hsi.retry p.1 (hmem hp) q.1 (hmem hq) p.2 q.2 (hrecs p hp) (hrecs q hq)
    refine ⟨?_, fun _ => ?_⟩
    · apply hi.acked sub.failed hpacket hsub hwf hchain hfst hfst' hrecs hout hsame
        (ackedRecords_success howned hretry hrun hnn hnnOut) hsi.failed
      · rw [hsumOut', hsum]
        ring
      · exact getElem?_acked hsub .success
    · have hleft' := sum_nativeLeft_of_fetched hchain hout
      rw [hfst'] at hleft'
      rw [hids, hleft', hsumOut']

/-! ## Submissions -/

/-- What a submission takes: queued records, and failed ones with nothing in flight. -/
theorem NativeInv.taken (hi : s.NativeInv) (he : e ∈ s.keeper.queuedEpochs) :
    ∃ r, s.keeper.view e = some r ∧ r.undelegationTxsInProgress = 0 ∧ 0 < r.stTokenAmount ∧
      (r.status = .unbondingQueue ∨ r.status = .unbondingRetryQueue) := by
  obtain ⟨p, hp, rfl⟩ := mem_map.mp he
  obtain ⟨hview, hqueued⟩ := mem_selectHostZoneUnbondings.mp hp
  simp only [HostZoneUnbonding.shouldInitiateUnbonding, HostZoneUnbonding.shouldRetryUnbonding,
    Bool.or_eq_true, Bool.and_eq_true, decide_eq_true_eq] at hqueued
  refine ⟨p.2, hview, ?_⟩
  rcases hqueued with ⟨hstatus, hst⟩ | ⟨⟨hst, hstatus⟩, htxs⟩
  · exact ⟨(hi.txs_of_queued hview hstatus).2, hst, .inl hstatus⟩
  · exact ⟨htxs, hst, .inr hstatus⟩

private theorem mem_queuedEpochs (hr : k.view e = some r)
    (hstatus : r.status = .unbondingRetryQueue) (hst : 0 < r.stTokenAmount)
    (htxs : r.undelegationTxsInProgress = 0) : e ∈ k.queuedEpochs := by
  have hmem : (e, r) ∈ k.queuedRecords := by
    apply mem_selectHostZoneUnbondings.mpr
    refine ⟨hr, ?_⟩
    simp [HostZoneUnbonding.shouldRetryUnbonding, hstatus, hst, htxs]
  exact mem_map_of_mem (f := Prod.fst) hmem

private theorem NativeInv.taken_not_in_flight (hi : s.NativeInv) (he : e ∈ s.keeper.queuedEpochs)
    (hp : .undelegate j tx ∈ s.inFlight) : e ∉ tx.callback.epochUnbondingRecordIds := by
  intro hmem
  obtain ⟨sub, hsub, hids, -⟩ := hi.packet j tx hp
  obtain ⟨r, hr, htxs, -⟩ := hi.taken he
  have ho := (hi.submission j sub hsub).owned_of_view (hids ▸ hmem) hr
  rw [ho.txs, countP_eq_zero] at htxs
  exact htxs _ hp (by simp [isOf])

/-- When a submission takes a record of an earlier one, this has nothing in flight, and
    whatever it keeps has nothing left to unbond. -/
private theorem NativeInv.handedOver (hi : s.NativeInv) (hsub : s.submissions[j]? = some sub)
    (htaken : ∃ e ∈ sub.records, e ∈ s.keeper.queuedEpochs) :
    s.inFlight.countP (isOf j) = 0 ∧
      ∀ e ∈ sub.records, e ∉ s.keeper.queuedEpochs →
        ∃ r, s.keeper.view e = some r ∧ Owned 0 r ∧ exited r.status = true := by
  obtain ⟨e₀, he₀, htaken₀⟩ := htaken
  have hsi := hi.submission j sub hsub
  obtain ⟨r₀, hr₀, htxs₀, -, hstatus₀⟩ := hi.taken htaken₀
  have ho₀ := hsi.owned_of_view he₀ hr₀
  have hcount : s.inFlight.countP (isOf j) = 0 := ho₀.txs.symm.trans htxs₀
  have hretry₀ : r₀.status = .unbondingRetryQueue :=
    hstatus₀.resolve_left ho₀.not_queued
  refine ⟨hcount, fun e he hnot => ?_⟩
  obtain ⟨r, hr, ho⟩ := hsi.owned e he
  rw [hcount] at ho
  refine ⟨r, hr, ho, ?_⟩
  rcases ho.status with hin | hretry | ⟨hex, -⟩
  · exact absurd hin (hsi.retry e₀ he₀ e he r₀ r hr₀ hr hretry₀)
  · exact absurd (mem_queuedEpochs hr hretry ho.stTokens ho.txs) hnot
  · exact hex

private theorem getElem?_map_append {f : Submission → Submission} {x sub' : Submission}
    (h : (subs.map f ++ [x])[j]? = some sub') :
    (∃ sub, subs[j]? = some sub ∧ sub' = f sub) ∨ (j = subs.length ∧ sub' = x) := by
  by_cases hj : j < subs.length
  · left
    rw [getElem?_append_left (by simpa using hj), getElem?_map] at h
    obtain ⟨sub, hsub, heq⟩ := Option.map_eq_some_iff.mp h
    exact ⟨sub, hsub, heq.symm⟩
  · right
    rw [getElem?_append_right (by simpa using hj), length_map] at h
    by_cases hlen : j = subs.length
    · subst hlen
      simp at h
      exact ⟨rfl, h.symm⟩
    · have hpos : ∃ n, j - subs.length = n + 1 := ⟨j - subs.length - 1, by omega⟩
      obtain ⟨n, hn⟩ := hpos
      rw [hn] at h
      simp at h

private theorem mem_records_handOver {taken : List ℕ} :
    e ∈ (sub.handOver taken).records ↔ e ∈ sub.records ∧ e ∉ taken := by
  unfold Submission.handOver
  split
  · simp
  · simp_all

private theorem NativeInv.handOver (hi : s.NativeInv) (hsub : s.submissions[j]? = some sub)
    (hview : ∀ e, e ∉ s.keeper.queuedEpochs → k.view e = s.keeper.view e)
    (hcount : packets.countP (isOf j) = s.inFlight.countP (isOf j))
    (hamount : (packets.map (amountOf j)).sum =
      (s.inFlight.map (amountOf j)).sum) :
    SubmissionInv k packets j (sub.handOver s.keeper.queuedEpochs) := by
  have hsi := hi.submission j sub hsub
  unfold Submission.handOver
  split
  · -- some were taken over: the others have exited
    rename_i hany
    obtain ⟨e₀, he₀, hmem₀⟩ := any_eq_true.mp hany
    obtain ⟨hzero, hkeep⟩ := hi.handedOver hsub ⟨e₀, he₀, of_decide_eq_true hmem₀⟩
    have hrec {e : ℕ} (he : e ∈ sub.records.filter (· ∉ s.keeper.queuedEpochs)) :
        ∃ r, k.view e = some r ∧ Owned 0 r ∧ exited r.status = true := by
      obtain ⟨he, hnot⟩ := mem_filter.mp he
      rw [hview e (of_decide_eq_true hnot)]
      exact hkeep e he (of_decide_eq_true hnot)
    have hamountZero : (s.inFlight.map (amountOf j)).sum = 0 :=
      sum_amountOf_eq_zero fun p hp => by simpa using countP_eq_zero.mp hzero p hp
    refine ⟨hsi.nodup.filter _, ?_, ?_, forall_mem_nil _, ?_⟩
    · intro e he
      obtain ⟨r, hr, ho, -⟩ := hrec he
      rw [hcount, hzero]
      exact ⟨r, hr, ho⟩
    · intro e he e' he' r r' hr hr' hretry
      obtain ⟨r₁, hr₁, -, hex⟩ := hrec he
      obtain rfl := Option.some.inj (hr.symm.trans hr₁)
      simp [hretry, exited] at hex
    · rw [hamount, hamountZero, map_nil, sum_nil]
      apply sum_map_eq_zero
      intro e he
      obtain ⟨r, hr, ho, hex⟩ := hrec he
      rw [nativeLeft_of_view hr, ho.left_eq_zero hex]
  · rename_i hany
    have hnone : ∀ e ∈ sub.records, e ∉ s.keeper.queuedEpochs := by
      intro e he hmem
      exact hany (any_eq_true.mpr ⟨e, he, decide_eq_true hmem⟩)
    apply hsi.of_sameProgress _ hcount hamount
    intro e he r hr
    exact ⟨r, (hview e (hnone e he)).trans hr, .refl r⟩

private theorem NativeInv.refreshOnly (hi : s.NativeInv) (hwf : k.WellFormed)
    (hchain : k.hostZone.chainId = s.keeper.hostZone.chainId)
    (hbecame : QueuedBecame Refreshed s.keeper k out) : NativeInv { s with keeper := k } := by
  have hview := view_of_queuedBecame hbecame hchain
  apply hi.quiet _ (fun _ _ hp => hp) (fun _ => rfl) (fun _ => rfl) hi.sweep
  refine ⟨hwf, hchain, fun e r hr hne => ?_, fun e r' hr' hqueued => ?_⟩
  · rcases hview e with ⟨-, hsame⟩ | ⟨-, r₀, r', hr₀, hr', hrefreshed⟩
    · exact ⟨r, hsame.trans hr, .refl r⟩
    · obtain rfl := Option.some.inj (hr.symm.trans hr₀)
      rcases hrefreshed with ⟨-, rfl⟩ | ⟨hq, -⟩
      · exact ⟨r', hr', .refl r'⟩
      · exact absurd hq hne
  · rcases hview e with ⟨-, hsame⟩ | ⟨-, r₀, r₁, hr₀, hr₁, hrefreshed⟩
    · rw [hsame] at hr'
      exact ⟨hqueued r' hr', .inr ⟨r', hr', rfl⟩⟩
    · obtain rfl := Option.some.inj (hr'.symm.trans hr₁)
      exact ⟨hrefreshed.status_eq.trans (hqueued r₀ hr₀),
        .inr ⟨r₀, hr₀, hrefreshed.undelegationTxsInProgress_eq⟩⟩

private theorem nonneg_of_refreshed (h : Refreshed r r')
    (hretry : r.status = .unbondingRetryQueue → 0 ≤ r.nativeTokensToUnbond)
    (hstatus : r.status = .unbondingQueue ∨ r.status = .unbondingRetryQueue) :
    0 ≤ r'.nativeTokensToUnbond := by
  rcases h with ⟨hne, rfl⟩ | ⟨-, n, hn, rfl⟩
  · exact hretry (hstatus.resolve_left hne)
  · exact hn

/-- A failed record belongs to a submission, so its amount is not negative. -/
private theorem NativeInv.nonneg_of_retry (hi : s.NativeInv) (hr : s.keeper.view e = some r)
    (hstatus : r.status = .unbondingRetryQueue) : 0 ≤ r.nativeTokensToUnbond := by
  by_contra hneg
  refine (hi.free e r hr ?_).2.1 hstatus
  intro j sub hsub he
  exact hneg ((hi.submission j sub hsub).owned_of_view he hr).nonneg

private theorem NativeInv.newSubmission (hi : s.NativeInv)
    (hchain : k.hostZone.chainId = s.keeper.hostZone.chainId)
    (hbecame : QueuedBecame (Submitted txs.length) s.keeper k out)
    (hsends : SendsForQueued s.keeper out txs) :
    SubmissionInv k (s.inFlight ++ txs.map (undelegate s.submissions.length))
      s.submissions.length ⟨s.keeper.queuedEpochs, []⟩ := by
  have hfst := map_fst_eq_of_atSameEpoch hbecame.related
  -- no older packet carries the new number
  have hold : ∀ p ∈ s.inFlight, isOf s.submissions.length p = false := by
    intro p hp
    cases p with
    | undelegate j tx =>
      obtain ⟨sub, hsub, -⟩ := hi.packet j tx hp
      have hlt := (List.getElem?_eq_some_iff.mp hsub).1
      simp [isOf, hlt.ne]
    | redemption tx amounts => rfl
  have hcount : (s.inFlight ++ txs.map (undelegate s.submissions.length)).countP
      (isOf s.submissions.length) = txs.length := by
    rw [countP_append, countP_eq_zero.mpr fun p hp => by simp [hold p hp]]
    simp [Function.comp_def, isOf]
  have hamount : ((s.inFlight ++ txs.map (undelegate s.submissions.length)).map
      (amountOf s.submissions.length)).sum = (txs.map UndelegateTx.amount).sum := by
    rw [map_append, sum_append, map_map]
    rw [sum_amountOf_eq_zero hold, zero_add]
    congr 1
    apply map_congr_left
    simp [amountOf]
  have hrec {e : ℕ} (he : e ∈ s.keeper.queuedEpochs) :
      ∃ r', k.view e = some r' ∧ Owned txs.length r' ∧ r'.status = .unbondingInProgress := by
    obtain ⟨r, hr, htxs, hst, hstatus⟩ := hi.taken he
    rcases view_of_queuedBecame hbecame hchain e with ⟨hnot, -⟩ | ⟨-, r', _, hr₀, hr', r₁,
      hrefreshed, rfl⟩
    · exact absurd he hnot
    · obtain rfl := Option.some.inj (hr.symm.trans hr₀)
      refine ⟨submittedRecord txs.length r₁, hr', ⟨?_, ?_, ?_, .inl rfl⟩, rfl⟩
      · show 0 ≤ r₁.nativeTokensToUnbond
        exact nonneg_of_refreshed hrefreshed (hi.nonneg_of_retry hr) hstatus
      · show r₁.undelegationTxsInProgress + txs.length = txs.length
        rw [hrefreshed.undelegationTxsInProgress_eq, htxs, Nat.zero_add]
      · show 0 < r₁.stTokenAmount
        rw [hrefreshed.stTokenAmount_eq]
        exact hst
  refine ⟨nodup_selectHostZoneUnbondings _ _ _, ?_, ?_, forall_mem_nil _, ?_⟩
  · intro e he
    obtain ⟨r', hr', ho, -⟩ := hrec he
    rw [hcount]
    exact ⟨r', hr', ho⟩
  · intro e he _ _ r _ hr _ hretry
    obtain ⟨r', hr', -, hstatus⟩ := hrec he
    rw [hr, Option.some.injEq] at hr'
    rw [hr', hstatus] at hretry
    cases hretry
  · have hleft := sum_nativeLeft_of_fetched hchain hbecame.fetched
    rw [← hfst] at hleft
    rw [hamount, map_nil, sum_nil, add_zero, hsends.sum_eq]
    exact hleft

private theorem NativeInv.submit (hi : s.NativeInv) {submitTxs : ℕ → Bool}
    (h : unbondFromHostZone s.keeper submitTxs = .ok (k, txs)) :
    (s.afterSubmit k txs).NativeInv := by
  obtain ⟨hchain, hwf, out, hcases⟩ := unbondFromHostZone_spec hi.wellFormed h
  unfold afterSubmit
  split
  · rename_i hnil
    rcases hcases with ⟨-, hbecame⟩ | ⟨-, hsends⟩
    · exact hi.refreshOnly hwf hchain hbecame
    · exact absurd hnil hsends.ne_nil
  · rename_i hne
    obtain ⟨hbecame, hsends⟩ := hcases.resolve_left fun hnil => hne hnil.1
    have hview : ∀ e, e ∉ s.keeper.queuedEpochs → k.view e = s.keeper.view e :=
      fun e he => (UnbondingKeeper.view_eq hchain e).trans (hbecame.same.epoch e he)
    have hat {j : ℕ} {sub : Submission} (hsub : s.submissions[j]? = some sub) :
        (s.submissions.map (Submission.handOver s.keeper.queuedEpochs) ++
          [⟨s.keeper.queuedEpochs, []⟩])[j]? = some (sub.handOver s.keeper.queuedEpochs) := by
      have hlt := (List.getElem?_eq_some_iff.mp hsub).1
      rw [getElem?_append_left (by simpa using hlt), getElem?_map, hsub]
      rfl
    refine ⟨hwf, ?_, ?_, ?_, ?_, ?_⟩
    · intro j sub' hsub'
      rcases getElem?_map_append hsub' with ⟨sub, hsub, rfl⟩ | ⟨rfl, rfl⟩
      · have hlt : j ≠ s.submissions.length := (List.getElem?_eq_some_iff.mp hsub).1.ne
        apply hi.handOver hsub hview
        · simp [countP_append, countP_map, Function.comp_def, isOf, Ne.symm hlt]
        · simp [Function.comp_def, amountOf, Ne.symm hlt]
      · exact hi.newSubmission hchain hbecame hsends
    · intro i j a b ha hb e hea heb
      rcases getElem?_map_append ha with ⟨a', ha', rfl⟩ | ⟨rfl, rfl⟩
      · obtain ⟨hea', hnot⟩ := mem_records_handOver.mp hea
        rcases getElem?_map_append hb with ⟨b', hb', rfl⟩ | ⟨rfl, rfl⟩
        · exact hi.disjoint i j a' b' ha' hb' e hea' (mem_records_handOver.mp heb).1
        · exact absurd heb hnot
      · rcases getElem?_map_append hb with ⟨b', hb', rfl⟩ | ⟨rfl, rfl⟩
        · exact absurd hea (mem_records_handOver.mp heb).2
        · rfl
    · intro e r hr hnot
      have hnew : e ∉ s.keeper.queuedEpochs := by
        apply hnot s.submissions.length ⟨s.keeper.queuedEpochs, []⟩
        simp
      apply hi.free e r ((hview e hnew).symm.trans hr)
      intro j sub hsub he
      refine hnot j (sub.handOver s.keeper.queuedEpochs) ?_ ?_
      · exact hat hsub
      · exact mem_records_handOver.mpr ⟨he, hnew⟩
    · intro j tx hp
      rcases mem_append.mp hp with hp | hp
      · -- a submission with packets in flight is not handed over
        obtain ⟨sub, hsub, hids, hnn⟩ := hi.packet j tx hp
        have hkeep : sub.handOver s.keeper.queuedEpochs = sub := by
          unfold Submission.handOver
          rw [if_neg]
          intro hany
          obtain ⟨e, he, hmem⟩ := any_eq_true.mp hany
          exact hi.taken_not_in_flight (of_decide_eq_true hmem) hp (hids ▸ he)
        exact ⟨sub, (hat hsub).trans (congrArg some hkeep), hids, hnn⟩
      · obtain ⟨tx', htx', heq⟩ := mem_map.mp hp
        cases heq
        refine ⟨⟨s.keeper.queuedEpochs, []⟩, ?_, hsends.ids tx htx', hsends.nonneg tx htx'⟩
        simp
    · intro tx amounts hp
      rcases mem_append.mp hp with hp | hp
      · obtain ⟨hid, hnd, hexited⟩ := hi.sweep tx amounts hp
        refine ⟨hid.trans hchain.symm, hnd, fun e he => ?_⟩
        obtain ⟨r, hr, hex⟩ := hexited e he
        refine ⟨r, (hview e ?_).trans hr, hex⟩
        intro hmem
        obtain ⟨r', hr', -, -, hstatus⟩ := hi.taken hmem
        obtain rfl := Option.some.inj (hr.symm.trans hr')
        rcases hstatus with hs | hs <;> simp [hs, exited] at hex
      · obtain ⟨_, _, heq⟩ := mem_map.mp hp
        cases heq

/-! ## Runs -/

/-- An acknowledgement is a success or a failure: the channel does not close. -/
def noTimeout : UnbondingEvent → Bool
  | .ack _ ack => ack.status ≠ .timeout
  | _ => true

/-- **Step**: the invariant survives every allowed event. -/
theorem NativeInv.step (hi : s.NativeInv) {l : UnbondingEvent} (hallowed : s.Allowed l)
    (hack : noTimeout l = true) (h : s.step l = some s') : s'.NativeInv := by
  rcases step_cases h with ⟨f, k, txs, rfl, hsubmit, rfl⟩ |
    ⟨t, b, k, sent, rfl, -, ⟨-, rfl⟩ | ⟨tx, swept, records, -, hsweeps, rfl⟩⟩ |
    ⟨i, ack, j, tx, k, rfl, hpacket, hcallback, rfl⟩ |
    ⟨i, ack, tx, amounts, k, rfl, hpacket, hcallback, rfl⟩ | ⟨k, rfl, rfl⟩
  · exact hi.submit hsubmit
  · exact hi
  · exact hi.sweep_some hsweeps
  · exact (hi.undelegateAck (of_decide_eq_true hack) hpacket hcallback).1
  · exact hi.redemptionAck hpacket hcallback
  · exact hi.environment hallowed

end UnbondingSystem

/-- A zone before its first submission: nothing is in flight, and no record is in progress
    or waits for a retry. -/
structure UnbondingSystem.BeforeSubmissions (s : UnbondingSystem) : Prop where
  wellFormed : s.keeper.WellFormed
  inFlight : s.inFlight = []
  submissions : s.submissions = []
  records : ∀ e r, s.keeper.view e = some r → r.status ≠ .unbondingInProgress ∧
    r.status ≠ .unbondingRetryQueue ∧
    (r.status = .unbondingQueue → r.undelegationTxsInProgress = 0)

private theorem UnbondingSystem.BeforeSubmissions.nativeInv {s : UnbondingSystem}
    (h : s.BeforeSubmissions) : s.NativeInv := by
  refine ⟨h.wellFormed, ?_, ?_, fun e r hr _ => h.records e r hr, ?_, ?_⟩
  · intro j sub hsub
    simp [h.submissions] at hsub
  · intro i j a b ha
    simp [h.submissions] at ha
  · intro j tx hp
    simp [h.inFlight] at hp
  · intro tx amounts hp
    simp [h.inFlight] at hp

/-- **Native amounts are conserved**: in every state of every run,

    - for each submission, what its records have left to unbond is what its transactions
      carry that are in flight, or failed and were not submitted again;
    - a successful transaction is taken off the records it names entirely;
    - a submission takes a record only when no transaction is in progress for it, and no
      transaction in flight names the record. -/
theorem native_amounts_conserved {s₀ s : UnbondingSystem} (hstart : s₀.BeforeSubmissions)
    (hrun : Reaches step
      (fun s l => s.Allowed l ∧ noTimeout l = true) s₀ s) :
    (∀ (j : ℕ) (sub : Submission), s.submissions[j]? = some sub →
      (sub.records.map s.keeper.nativeLeft).sum =
        (s.inFlight.map (amountOf j)).sum + (sub.failed.map UndelegateTx.amount).sum) ∧
    (∀ i ack j tx s', s.inFlight[i]? = some (.undelegate j tx) → ack.status = .success →
      s.step (.ack i ack) = some s' →
      (tx.callback.epochUnbondingRecordIds.map s'.keeper.nativeLeft).sum =
        (tx.callback.epochUnbondingRecordIds.map s.keeper.nativeLeft).sum - tx.amount) ∧
    (∀ e ∈ s.keeper.queuedEpochs,
      (∃ r, s.keeper.view e = some r ∧ r.undelegationTxsInProgress = 0) ∧
      ∀ j tx, .undelegate j tx ∈ s.inFlight → e ∉ tx.callback.epochUnbondingRecordIds) := by
  have hi : s.NativeInv := hrun.invariant hstart.nativeInv
    fun s l s' hi hok hs => hi.step hok.1 hok.2 hs
  refine ⟨fun j sub hsub => (hi.submission j sub hsub).sum, ?_, ?_⟩
  · intro i ack j tx s' hpacket hack hs
    obtain ⟨k, hcallback, rfl⟩ := step_undelegateAck hpacket hs
    exact (hi.undelegateAck (by rw [hack]; decide) hpacket hcallback).2 hack
  · intro e he
    obtain ⟨r, hr, htxs, -⟩ := hi.taken he
    exact ⟨⟨r, hr, htxs⟩, fun j tx hp => hi.taken_not_in_flight he hp⟩

private theorem twoRecordsQueued_beforeSubmissions : twoRecordsQueued.BeforeSubmissions := by
  refine ⟨twoRecordsQueued_wellFormed, rfl, rfl, ?_⟩
  intro e r hr
  have hqueued : r.status = .unbondingQueue ∧ r.undelegationTxsInProgress = 0 := by
    obtain ⟨eur, heur, hfind⟩ := Option.bind_eq_some_iff.mp hr
    have hmem := KVStore.mem_toList_iff.mpr heur
    have hall : ∀ p ∈ twoRecordsQueued.keeper.epochUnbondingRecords.store.toList,
        ∀ h ∈ p.2.hostZoneUnbondings,
          h.status = .unbondingQueue ∧ h.undelegationTxsInProgress = 0 := by decide
    exact hall _ hmem r (mem_of_find?_eq_some hfind)
  rw [hqueued.1]
  exact ⟨by decide, by decide, fun _ => hqueued.2⟩

theorem native_amounts_conserved_retriedRun :
    ∃ s sub, runAllowed step
        (fun s l => s.Allowed l ∧ noTimeout l = true) twoRecordsQueued
        retriedRun = some s ∧
      s.submissions[1]? = some sub ∧ sub.records = [2] ∧
      (sub.records.map s.keeper.nativeLeft).sum =
        (s.inFlight.map (amountOf 1)).sum + (sub.failed.map UndelegateTx.amount).sum := by
  have hend : ((runAllowed step
      (fun s l => s.Allowed l ∧ noTimeout l = true) twoRecordsQueued
      retriedRun).bind fun s => s.submissions[1]?) = some ⟨[2], []⟩ := by decide +kernel
  obtain ⟨s, hs, hsub⟩ := Option.bind_eq_some_iff.mp hend
  refine ⟨s, ⟨[2], []⟩, hs, hsub, rfl, ?_⟩
  exact (native_amounts_conserved twoRecordsQueued_beforeSubmissions
    (Reaches.of_runAllowed hs)).1 1 _ hsub

end Stride.Stakeibc
