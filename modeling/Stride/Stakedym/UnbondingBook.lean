import Stride.Stakedym.System

/-!
# The Book of Unbondings

An unbonding record and its redemption records are written by different functions: redemptions
add to both, freezing a record recomputes the native amounts of both, and paying it out removes
both. This module follows the two stores and the escrow account through all of them.
-/

namespace Stride.Stakedym

open Lib Sdk KeyedStore List Keeper

/-! ## Definitions -/

/-- The place of a status in the life of a record. -/
def UnbondingRecordStatus.stage : UnbondingRecordStatus → ℕ
  | .accumulatingRedemptions => 0
  | .unbondingQueue => 1
  | .unbondingInProgress => 2
  | .unbonded => 3
  | .claimable => 4
  | .claimed => 5

namespace Keeper

/-- A sum over the redemption records of the unbonding record `id`. -/
def redemptionTotal (k : Keeper) (f : RedemptionRecord → ℤ) (id : ℕ) : ℤ :=
  ((k.getRedemptionRecordsFromUnbondingId id).map f).sum

/-- Unbondings whose stTokens are still in escrow. -/
def InEscrow (r : UnbondingRecord) : Prop :=
  r.status = .accumulatingRedemptions ∨ r.status = .unbondingQueue

instance : DecidablePred InEscrow := fun r =>
  inferInstanceAs (Decidable (r.status = .accumulatingRedemptions ∨ r.status = .unbondingQueue))

/-- A sum over the unbonding records with the property `p`. -/
def recordTotal (p : UnbondingRecord → Prop) [DecidablePred p] (f : UnbondingRecord → ℤ)
    (records : UnbondingRecordStore) : ℤ :=
  ((records.values.filter fun r => p r).map f).sum

/-- The stTokens of the records in ACCUMULATING_REDEMPTIONS and UNBONDING_QUEUE. -/
def escrowedStTokens (records : UnbondingRecordStore) : ℤ :=
  recordTotal InEscrow (·.stTokenAmount) records

def claimableTokens (records : UnbondingRecordStore) : ℤ :=
  recordTotal (fun r => r.status = .claimable) (·.nativeAmount) records

/-- The status of an unbonding record, active or archived. -/
def statusOf (k : Keeper) (id : ℕ) : Option UnbondingRecordStatus :=
  ((k.unbondingRecords.get? id).or (k.archivedUnbondingRecords.get? id)).map (·.status)

/-- No record is lost or goes back in its life. -/
def MovesForward (k k' : Keeper) : Prop :=
  ∀ id status, k.statusOf id = some status →
    ∃ status', k'.statusOf id = some status' ∧ status.stage ≤ status'.stage

end Keeper

/-- The redemption records add up to their unbonding records, and what was paid is gone. -/
structure BookInv (k : Keeper) (lastEpoch : ℕ) (payments : List Payment) : Prop where
  accumulating : ∃ r, k.getAllUnbondingRecordsByStatus .accumulatingRedemptions = [r]
  ids : ∀ id r, k.unbondingRecords.get? id = some r → id ≤ lastEpoch
  archivedIds : ∀ id r, k.archivedUnbondingRecords.get? id = some r → id ≤ lastEpoch
  redemptions : ∀ key rr, k.redemptionRecords.get? key = some rr →
    rr.unbondingRecordId ≤ lastEpoch ∧ 0 ≤ rr.stTokenAmount
  sums : ∀ id r, k.unbondingRecords.get? id = some r →
    r.stTokenAmount = k.redemptionTotal (·.stTokenAmount) id ∧
      r.nativeAmount = k.redemptionTotal (·.nativeAmount) id
  /-- The redemptions of a record that was frozen are all valued at one rate. -/
  rates : ∀ id r, k.unbondingRecords.get? id = some r → r.status ≠ .accumulatingRedemptions →
    ∃ rate, ∀ rr ∈ k.getRedemptionRecordsFromUnbondingId id,
      rr.nativeAmount = nativeTokensAt rate rr.stTokenAmount
  /-- A record that was paid out is not active any more. -/
  paidGone : ∀ p ∈ payments, p.unbondingRecordId ≤ lastEpoch ∧
    k.unbondingRecords.get? p.unbondingRecordId = none
  paidOnce : (payments.map paymentKey).Nodup

/-! ## General facts -/

variable {r r' : UnbondingRecord}

namespace Keeper

variable {accounts : Accounts} {k k' : Keeper}

/-- There is exactly one open record. -/
theorem accumulating_iff :
    k.getAllUnbondingRecordsByStatus .accumulatingRedemptions = [r] ↔
      k.unbondingRecords.get? r.id = some r ∧ r.status = .accumulatingRedemptions ∧
        ∀ id r', k.unbondingRecords.get? id = some r' → r'.status = .accumulatingRedemptions →
          id = r.id :=
  filter_values_eq_singleton
    (p := fun r : UnbondingRecord => r.status = .accumulatingRedemptions)

section Totals

variable (p : UnbondingRecord → Prop) [DecidablePred p] (f : UnbondingRecord → ℤ)

def partOf (r : UnbondingRecord) : ℤ := if p r then f r else 0

private theorem recordTotal_set (records : UnbondingRecordStore) (r : UnbondingRecord) :
    recordTotal p f (records.set r) =
      recordTotal p f records - (records.get? r.id).elim 0 (partOf p f) + partOf p f r :=
  sum_filter_set (p := p) f records r

private theorem recordTotal_delete (records : UnbondingRecordStore) (id : ℕ) :
    recordTotal p f (records.delete id) =
      recordTotal p f records - (records.get? id).elim 0 (partOf p f) :=
  sum_filter_delete (p := p) f records id

/-- A rewritten record, and a total over the records. -/
theorem recordTotal_set_of_get? {records : UnbondingRecordStore}
    (hr : records.get? r'.id = some r) :
    recordTotal p f (records.set r') =
      recordTotal p f records - partOf p f r + partOf p f r' := by
  rw [recordTotal_set, hr, Option.elim_some]

end Totals

private theorem redemptionTotal_congr (h : k'.redemptionRecords = k.redemptionRecords)
    (f : RedemptionRecord → ℤ) (id : ℕ) : k'.redemptionTotal f id = k.redemptionTotal f id := by
  unfold redemptionTotal getRedemptionRecordsFromUnbondingId
  rw [h]

private theorem redemptionTotal_set {r : RedemptionRecord} {f : RedemptionRecord → ℤ} {c : ℤ}
    (h : k'.redemptionRecords = k.redemptionRecords.set r)
    (hc : f r = (k.redemptionRecords.get? r.key).elim 0 f + c) (id : ℕ) :
    k'.redemptionTotal f id =
      k.redemptionTotal f id + if id = r.unbondingRecordId then c else 0 := by
  unfold redemptionTotal getRedemptionRecordsFromUnbondingId
  rw [h, sum_filter_set (p := fun r : RedemptionRecord => r.unbondingRecordId = id)]
  by_cases hid : id = r.unbondingRecordId
  · subst hid
    rw [if_pos rfl, hc]
    cases hold : k.redemptionRecords.get? r.key with
    | none => simp
    | some old =>
      -- what was under the key belongs to the same unbonding record
      have hsame : old.unbondingRecordId = r.unbondingRecordId :=
        (ids_of_get?_redemptionRecords hold).1
      simp only [Option.elim_some, hsame, if_true]
      omega
  · rw [if_neg hid, if_neg (Ne.symm hid)]
    cases hold : k.redemptionRecords.get? r.key with
    | none => simp
    | some old =>
      have hsame : old.unbondingRecordId = r.unbondingRecordId :=
        (ids_of_get?_redemptionRecords hold).1
      simp [hsame, Ne.symm hid]

theorem MovesForward.of_same (hrecords : k'.unbondingRecords = k.unbondingRecords)
    (harchived : k'.archivedUnbondingRecords = k.archivedUnbondingRecords) : MovesForward k k' := by
  intro id status h
  refine ⟨status, ?_, le_rfl⟩
  unfold statusOf at h ⊢
  rw [hrecords, harchived]
  exact h

/-- A rewritten record whose status moves on. -/
theorem MovesForward.of_set (hr : k.unbondingRecords.get? r'.id = some r)
    (hstage : r.status.stage ≤ r'.status.stage)
    (hrecords : k'.unbondingRecords = k.unbondingRecords.set r')
    (harchived : k'.archivedUnbondingRecords = k.archivedUnbondingRecords) : MovesForward k k' := by
  intro id status h
  unfold statusOf at h ⊢
  rw [hrecords, harchived]
  by_cases hid : id = r'.id
  · subst hid
    rw [hr] at h
    rw [get?_set_self]
    cases h
    exact ⟨_, rfl, hstage⟩
  · rw [get?_set_of_ne _ _ hid]
    exact ⟨status, h, le_rfl⟩

private theorem redeemedRecord_ids (k : Keeper) (id : ℕ) (redeemer : String) (st tokens : ℤ) :
    (k.redeemedRecord id redeemer st tokens).unbondingRecordId = id ∧
      (k.redeemedRecord id redeemer st tokens).redeemer = redeemer := by
  unfold redeemedRecord
  split
  · rename_i r hr
    have hids : r.unbondingRecordId = id ∧ r.redeemer = redeemer :=
      ids_of_get?_redemptionRecords hr
    exact hids
  · exact ⟨rfl, rfl⟩

private theorem redeemedRecord_amounts (k : Keeper) (id : ℕ) (redeemer : String) (st tokens : ℤ) :
    (k.redeemedRecord id redeemer st tokens).stTokenAmount =
        (k.redemptionRecords.get? (k.redeemedRecord id redeemer st tokens).key).elim 0
          (·.stTokenAmount) + st ∧
      (k.redeemedRecord id redeemer st tokens).nativeAmount =
        (k.redemptionRecords.get? (k.redeemedRecord id redeemer st tokens).key).elim 0
          (·.nativeAmount) + tokens := by
  have hkey : (k.redeemedRecord id redeemer st tokens).key = redemptionRecordKey id redeemer := by
    unfold RedemptionRecord.key
    rw [(redeemedRecord_ids k id redeemer st tokens).1,
      (redeemedRecord_ids k id redeemer st tokens).2]
  rw [hkey]
  unfold redeemedRecord
  split
  · rename_i r hr
    have hr' : k.redemptionRecords.get? (redemptionRecordKey id redeemer) = some r := hr
    simp [hr']
  · rename_i hr
    have hr' : k.redemptionRecords.get? (redemptionRecordKey id redeemer) = none := hr
    simp [hr']

variable {l : List RedemptionRecord} {id : ℕ}

private theorem unbondingRecordId_refreshedRecord (rate : LegacyDec) (id : ℕ)
    (r : RedemptionRecord) :
    (refreshedRecord rate id r).unbondingRecordId = r.unbondingRecordId := by
  unfold refreshedRecord
  split <;> rfl

namespace PreparedUndelegation

variable {epochNumber : ℕ} {record : UnbondingRecord}

variable (h : PreparedUndelegation k k' epochNumber record)

include h

private theorem ne_of_fresh : epochNumber ≠ record.id := by
  intro heq
  have hfresh := h.fresh
  rw [heq, (accumulating_iff.mp h.accumulating).1] at hfresh
  cases hfresh

private theorem get?_opened :
    k'.unbondingRecords.get? epochNumber = some (openedRecord epochNumber) := by
  rcases h.records with ⟨hrecords, -⟩ | ⟨hrecords, -⟩
  · rw [hrecords, get?_delete_of_ne _ h.ne_of_fresh]
    exact get?_set_self k.unbondingRecords (openedRecord epochNumber)
  · have hne : epochNumber ≠ (k.frozenAtRate record).id := h.ne_of_fresh
    rw [hrecords, get?_set_of_ne _ _ hne]
    exact get?_set_self k.unbondingRecords (openedRecord epochNumber)

private theorem get?_frozen :
    (k'.unbondingRecords.get? record.id = none ∧
        k'.archivedUnbondingRecords.get? record.id = some record) ∨
      k'.unbondingRecords.get? record.id = some (k.frozenAtRate record) := by
  rcases h.records with ⟨hrecords, harchived⟩ | ⟨hrecords, -⟩
  · rw [hrecords, harchived]
    exact .inl ⟨get?_delete_self _ _, get?_set_self _ _⟩
  · rw [hrecords]
    exact .inr (get?_set_self _ (k.frozenAtRate record))

private theorem get?_other (hepoch : id ≠ epochNumber) (hrecord : id ≠ record.id) :
    k'.unbondingRecords.get? id = k.unbondingRecords.get? id ∧
      k'.archivedUnbondingRecords.get? id = k.archivedUnbondingRecords.get? id := by
  have hset := get?_set_of_ne k.unbondingRecords (openedRecord epochNumber) hepoch
  rcases h.records with ⟨hrecords, harchived⟩ | ⟨hrecords, harchived⟩
  · rw [hrecords, harchived, get?_delete_of_ne _ hrecord,
      get?_set_of_ne _ _ hrecord]
    exact ⟨hset, rfl⟩
  · have hne : id ≠ (k.frozenAtRate record).id := hrecord
    rw [hrecords, harchived, get?_set_of_ne _ _ hne]
    exact ⟨hset, rfl⟩

/-- Afterwards a record is new, frozen, or as before. -/
theorem of_get? (hr : k'.unbondingRecords.get? id = some r) :
    id = epochNumber ∧ r = openedRecord epochNumber ∨
      id = record.id ∧ r = k.frozenAtRate record ∨
      id ≠ epochNumber ∧ id ≠ record.id ∧ k.unbondingRecords.get? id = some r := by
  by_cases hepoch : id = epochNumber
  · subst hepoch
    rw [h.get?_opened] at hr
    exact .inl ⟨rfl, (Option.some.inj hr).symm⟩
  · by_cases hrecord : id = record.id
    · subst hrecord
      rcases h.get?_frozen with ⟨hnone, -⟩ | hfrozen
      · rw [hnone] at hr
        cases hr
      · rw [hfrozen] at hr
        exact .inr (.inl ⟨rfl, (Option.some.inj hr).symm⟩)
    · rw [(h.get?_other hepoch hrecord).1] at hr
      exact .inr (.inr ⟨hepoch, hrecord, hr⟩)

/-- The redemptions of the frozen record are refreshed. -/
theorem redemptions (id : ℕ) :
    k'.getRedemptionRecordsFromUnbondingId id =
      (k.getRedemptionRecordsFromUnbondingId id).map
        (refreshedRecord k.hostZone.redemptionRate record.id) := by
  unfold getRedemptionRecordsFromUnbondingId
  rw [h.redemptionRecords, values_mapValues, filter_map]
  simp only [Function.comp_def, unbondingRecordId_refreshedRecord]

private theorem stTotal (id : ℕ) :
    k'.redemptionTotal (·.stTokenAmount) id = k.redemptionTotal (·.stTokenAmount) id := by
  unfold redemptionTotal
  rw [h.redemptions, map_map]
  congr 2
  funext r
  simp only [Function.comp_apply, refreshedRecord]
  split <;> rfl

private theorem nativeTotal (id : ℕ) :
    k'.redemptionTotal (·.nativeAmount) id =
      if id = record.id then k.refreshedTotal k.hostZone.redemptionRate record.id
      else k.redemptionTotal (·.nativeAmount) id := by
  unfold redemptionTotal
  rw [h.redemptions, map_map]
  split
  · rename_i hid
    subst hid
    congr 1
    apply map_congr_left
    intro r hr
    simp [refreshedRecord, (mem_getRedemptionRecordsFromUnbondingId.mp hr).2]
  · rename_i hid
    congr 1
    apply map_congr_left
    intro r hr
    simp [refreshedRecord, (mem_getRedemptionRecordsFromUnbondingId.mp hr).2, hid]

theorem movesForward {lastEpoch : ℕ}
    (hids : ∀ id r, k.archivedUnbondingRecords.get? id = some r → id ≤ lastEpoch)
    (hlt : lastEpoch < epochNumber) : MovesForward k k' := by
  obtain ⟨hstored, hstatus, -⟩ := accumulating_iff.mp h.accumulating
  intro id status hold
  unfold statusOf at hold ⊢
  by_cases hepoch : id = epochNumber
  · -- no record had the id of the new epoch
    subst hepoch
    rw [h.fresh] at hold
    cases harchived : k.archivedUnbondingRecords.get? id with
    | none => simp [harchived] at hold
    | some r => exact absurd (hids id r harchived) (by omega)
  · by_cases hrecord : id = record.id
    · subst hrecord
      rw [hstored] at hold
      cases hold
      rcases h.get?_frozen with ⟨hnone, harchived⟩ | hfrozen
      · rw [hnone, harchived]
        exact ⟨_, rfl, le_rfl⟩
      · rw [hfrozen]
        refine ⟨_, rfl, ?_⟩
        show record.status.stage ≤ _
        rw [hstatus]
        exact Nat.zero_le _
    · rw [(h.get?_other hepoch hrecord).1, (h.get?_other hepoch hrecord).2]
      exact ⟨status, hold, le_rfl⟩

/-- A total over the records after an unbonding is prepared. -/
theorem recordTotal_eq (p : UnbondingRecord → Prop) [DecidablePred p] (f : UnbondingRecord → ℤ) :
    recordTotal p f k'.unbondingRecords =
        recordTotal p f k.unbondingRecords + partOf p f (openedRecord epochNumber) -
          partOf p f record ∨
      recordTotal p f k'.unbondingRecords =
        recordTotal p f k.unbondingRecords + partOf p f (openedRecord epochNumber) -
          partOf p f record + partOf p f (k.frozenAtRate record) := by
  have hstored := (accumulating_iff.mp h.accumulating).1
  have hopened : recordTotal p f (k.unbondingRecords.set (openedRecord epochNumber)) =
      recordTotal p f k.unbondingRecords + partOf p f (openedRecord epochNumber) := by
    have hfresh : k.unbondingRecords.get? (openedRecord epochNumber).id = none := h.fresh
    rw [recordTotal_set, hfresh, Option.elim_none, sub_zero]
  -- the opened record is another than the frozen one
  have hstill : (k.unbondingRecords.set (openedRecord epochNumber)).get? record.id =
      some record := by
    have hne : record.id ≠ (openedRecord epochNumber).id := h.ne_of_fresh.symm
    rw [get?_set_of_ne _ _ hne]
    exact hstored
  rcases h.records with ⟨hrecords, -⟩ | ⟨hrecords, -⟩
  · left
    rw [hrecords, recordTotal_delete, hstill, hopened, Option.elim_some]
  · right
    have hstill' : (k.unbondingRecords.set (openedRecord epochNumber)).get?
        (k.frozenAtRate record).id = some record := hstill
    rw [hrecords, recordTotal_set_of_get? p f hstill', hopened]

/-- No more stTokens need to be in escrow. -/
theorem escrowedStTokens_le (hnonneg : 0 ≤ record.stTokenAmount) :
    escrowedStTokens k'.unbondingRecords ≤ escrowedStTokens k.unbondingRecords := by
  have hstatus := (accumulating_iff.mp h.accumulating).2.1
  have hopened : partOf InEscrow (·.stTokenAmount) (openedRecord epochNumber) = 0 :=
    if_pos (.inl rfl)
  have hrecord : partOf InEscrow (·.stTokenAmount) record = record.stTokenAmount :=
    if_pos (.inl hstatus)
  have hfrozen : partOf InEscrow (·.stTokenAmount) (k.frozenAtRate record) =
      record.stTokenAmount := if_pos (.inr rfl)
  unfold escrowedStTokens
  rcases h.recordTotal_eq InEscrow (·.stTokenAmount) with htotal | htotal
  · omega
  · omega

theorem claimableTokens_eq :
    claimableTokens k'.unbondingRecords = claimableTokens k.unbondingRecords := by
  have hstatus := (accumulating_iff.mp h.accumulating).2.1
  have hopened : partOf (fun r => r.status = .claimable) (·.nativeAmount)
      (openedRecord epochNumber) = 0 := if_neg (by simp [openedRecord])
  have hrecord : partOf (fun r => r.status = .claimable) (·.nativeAmount) record = 0 :=
    if_neg (by simp [hstatus])
  have hfrozen : partOf (fun r => r.status = .claimable) (·.nativeAmount)
      (k.frozenAtRate record) = 0 := if_neg (by simp [frozenAtRate, frozenRecord])
  unfold claimableTokens
  rcases h.recordTotal_eq (fun r => r.status = .claimable) (·.nativeAmount) with htotal | htotal
  · rw [htotal, hopened, hrecord, add_zero, sub_zero]
  · rw [htotal, hopened, hrecord, hfrozen, add_zero, sub_zero, add_zero]

end PreparedUndelegation

/-! ### The hourly check -/

theorem amounts_finishedRecord (now : ℤ) (r : UnbondingRecord) :
    (finishedRecord now r).stTokenAmount = r.stTokenAmount ∧
      (finishedRecord now r).nativeAmount = r.nativeAmount := by
  unfold finishedRecord
  split <;> exact ⟨rfl, rfl⟩

theorem status_finishedRecord (now : ℤ) (r : UnbondingRecord) :
    (finishedRecord now r).status = r.status ∨
      r.status = .unbondingInProgress ∧ (finishedRecord now r).status = .unbonded := by
  unfold finishedRecord
  split
  · rename_i h
    exact .inr ⟨h.1, rfl⟩
  · exact .inl rfl

private theorem inEscrow_finishedRecord (now : ℤ) (r : UnbondingRecord) :
    InEscrow (finishedRecord now r) ↔ InEscrow r := by
  unfold InEscrow
  rcases status_finishedRecord now r with hsame | ⟨hold, hnew⟩
  · rw [hsame]
  · simp [hold, hnew]

private theorem recordTotal_finished {p : UnbondingRecord → Prop} [DecidablePred p]
    {f : UnbondingRecord → ℤ} {now : ℤ} (hp : ∀ r, p (finishedRecord now r) ↔ p r)
    (hf : ∀ r, f (finishedRecord now r) = f r) (k : Keeper) :
    recordTotal p f (k.markFinishedUnbondings now).unbondingRecords =
      recordTotal p f k.unbondingRecords := by
  rw [markFinishedUnbondings_eq]
  unfold recordTotal
  rw [values_mapValues, filter_map, map_map]
  simp only [Function.comp_def, hp, hf]

theorem escrowedStTokens_finished (k : Keeper) (now : ℤ) :
    escrowedStTokens (k.markFinishedUnbondings now).unbondingRecords =
      escrowedStTokens k.unbondingRecords :=
  recordTotal_finished (inEscrow_finishedRecord now) (fun r => (amounts_finishedRecord now r).1) k

theorem claimableTokens_finished (k : Keeper) (now : ℤ) :
    claimableTokens (k.markFinishedUnbondings now).unbondingRecords =
      claimableTokens k.unbondingRecords := by
  refine recordTotal_finished (fun r => ?_) (fun r => (amounts_finishedRecord now r).2) k
  rcases status_finishedRecord now r with hsame | ⟨hold, hnew⟩
  · rw [hsame]
  · simp [hold, hnew]

theorem movesForward_finished (k : Keeper) (now : ℤ) :
    MovesForward k (k.markFinishedUnbondings now) := by
  intro id status hold
  rw [markFinishedUnbondings_eq]
  unfold statusOf at hold ⊢
  rw [get?_mapValues]
  cases hget : k.unbondingRecords.get? id with
  | none =>
    rw [hget] at hold
    exact ⟨status, hold, le_rfl⟩
  | some r =>
    rw [hget] at hold
    cases hold
    refine ⟨(finishedRecord now r).status, rfl, ?_⟩
    show r.status.stage ≤ _
    rcases status_finishedRecord now r with hsame | ⟨hinProgress, hunbonded⟩
    · rw [hsame]
    · rw [hinProgress, hunbonded]
      decide

/-! ### Payments -/

private theorem map_paymentKey {paid : List Payment} (h : Forall₂ (Pays accounts) l paid) :
    paid.map paymentKey = l.map RedemptionRecord.key := by
  induction h with
  | nil => rfl
  | cons hpays _ ih => rw [map_cons, map_cons, hpays.key, ih]

/-- Payments add up to the redemptions. -/
theorem sum_amounts {paid : List Payment} (h : Forall₂ (Pays accounts) l paid) :
    (paid.map (·.amount)).sum = (l.map (·.nativeAmount)).sum := by
  induction h with
  | nil => rfl
  | cons hpays _ ih =>
    rw [map_cons, map_cons, sum_cons, sum_cons, hpays.amount, ih]

theorem receivedBy_nonneg {paid : List Payment} (h : Forall₂ (Pays accounts) l paid)
    (a : String) : 0 ≤ receivedBy a paid := by
  unfold receivedBy
  induction h with
  | nil => exact le_rfl
  | @cons rr p _ _ hpays _ ih =>
    have hamount : 0 ≤ p.amount := hpays.amount ▸ hpays.nonneg
    rw [filter_cons]
    split
    · rw [map_cons, sum_cons]
      omega
    · exact ih

private theorem nodup_keys_flatMap (k : Keeper) {records : List UnbondingRecord}
    (hnd : (records.map (·.id)).Nodup) :
    ((records.flatMap fun r => k.getRedemptionRecordsFromUnbondingId r.id).map
      RedemptionRecord.key).Nodup := by
  rw [map_flatMap, nodup_flatMap]
  constructor
  · intro r _
    exact k.redemptionRecords.nodup_map_key_values.sublist (filter_sublist.map _)
  · refine (pairwise_map.mp hnd).imp ?_
    intro r r' hne key hkey hkey'
    obtain ⟨rr, hrr, rfl⟩ := mem_map.mp hkey
    obtain ⟨rr', hrr', hsame⟩ := mem_map.mp hkey'
    have hid := (redemptionRecordKey_inj.mp hsame).1
    rw [(mem_getRedemptionRecordsFromUnbondingId.mp hrr).2,
      (mem_getRedemptionRecordsFromUnbondingId.mp hrr').2] at hid
    exact hne hid.symm

private theorem mem_claimable_ids :
    id ∈ (k.getAllUnbondingRecordsByStatus .claimable).map (·.id) ↔
      ∃ r, k.unbondingRecords.get? id = some r ∧ r.status = .claimable := by
  rw [mem_map]
  constructor
  · rintro ⟨r, hr, rfl⟩
    exact ⟨r, mem_getAllUnbondingRecordsByStatus.mp hr⟩
  · rintro ⟨r, hr, hstatus⟩
    have hid : r.id = id := key_of_get? hr
    subst hid
    exact ⟨r, mem_getAllUnbondingRecordsByStatus.mpr ⟨hr, hstatus⟩, rfl⟩

private theorem notMem_claimable_ids (hr : k.unbondingRecords.get? id = some r)
    (hstatus : r.status ≠ .claimable) :
    id ∉ (k.getAllUnbondingRecordsByStatus .claimable).map (·.id) := by
  intro hmem
  obtain ⟨r', hr', hclaimable⟩ := mem_claimable_ids.mp hmem
  rw [hr] at hr'
  cases hr'
  exact hstatus hclaimable

namespace PaidRecords

variable {denom claimAccount : String} {records : List UnbondingRecord} {paid : List Payment}

private theorem map_id_claimedRecord (records : List UnbondingRecord) :
    (records.map claimedRecord).map (·.id) = records.map (·.id) := by
  rw [map_map]
  rfl

section

variable (h : PaidRecords accounts denom claimAccount k k' records paid)
include h

private theorem get?_unbondingRecords (id : ℕ) : k'.unbondingRecords.get? id =
      if id ∈ records.map (·.id) then none else k.unbondingRecords.get? id := by
  rw [h.keeper, get?_foldl_delete]

/-- Exactly what is paid is removed. -/
theorem get?_redemptionRecords (key : ℕ ×ₗ List UInt8) : k'.redemptionRecords.get? key =
      if key ∈ paid.map paymentKey then none else k.redemptionRecords.get? key := by
  rw [h.keeper, get?_foldl_delete]
  congr

private theorem get?_archived_of_mem (hnd : (records.map (·.id)).Nodup) (hr : r ∈ records) :
    k'.archivedUnbondingRecords.get? r.id = some (claimedRecord r) := by
  rw [h.keeper]
  exact get?_foldl_set_of_mem ((map_id_claimedRecord records).symm ▸ hnd)
    (mem_map_of_mem hr) k.archivedUnbondingRecords

private theorem get?_archived_of_notMem (hid : id ∉ records.map (·.id)) :
    k'.archivedUnbondingRecords.get? id = k.archivedUnbondingRecords.get? id := by
  rw [h.keeper]
  exact get?_foldl_set_of_notMem ((map_id_claimedRecord records).symm ▸ hid) _

end

variable (h : PaidRecords accounts denom claimAccount k k'
  (k.getAllUnbondingRecordsByStatus .claimable) paid)

include h

theorem of_get? (hr : k'.unbondingRecords.get? id = some r) :
    id ∉ (k.getAllUnbondingRecordsByStatus .claimable).map (·.id) ∧
      k.unbondingRecords.get? id = some r := by
  rw [h.get?_unbondingRecords] at hr
  split at hr
  · cases hr
  rename_i hid
  exact ⟨hid, hr⟩

private theorem get?_of_ne_claimable (hr : k.unbondingRecords.get? id = some r)
    (hstatus : r.status ≠ .claimable) : k'.unbondingRecords.get? id = some r := by
  rw [h.get?_unbondingRecords, if_neg (notMem_claimable_ids hr hstatus), hr]

private theorem claimable_of_mem {p : Payment} (hp : p ∈ paid) :
    p.unbondingRecordId ∈ (k.getAllUnbondingRecordsByStatus .claimable).map (·.id) := by
  obtain ⟨r, hr, rr, hrr, hpays⟩ := h.exists_of_mem hp
  rw [hpays.record, (mem_getRedemptionRecordsFromUnbondingId.mp hrr).2]
  exact mem_map_of_mem hr

theorem escrowedStTokens_eq :
    escrowedStTokens k'.unbondingRecords = escrowedStTokens k.unbondingRecords := by
  unfold escrowedStTokens recordTotal
  rw [h.keeper, values_foldl_delete, filter_filter]
  congr 2
  apply filter_congr
  intro r hr
  by_cases hescrow : InEscrow r
  · -- a record in escrow is not claimable, so it was not removed
    have hstatus : r.status ≠ .claimable := by
      rcases hescrow with h | h <;> simp [h]
    simp [hescrow, notMem_claimable_ids (mem_values_iff.mp hr) hstatus]
  · simp [hescrow]

/-- Nothing stays claimable. -/
theorem claimableTokens_eq_zero : claimableTokens k'.unbondingRecords = 0 := by
  have hnone : k'.unbondingRecords.values.filter (fun r => r.status = .claimable) = [] := by
    apply filter_eq_nil_iff.mpr
    intro r hr
    obtain ⟨hnot, hold⟩ := h.of_get? (mem_values_iff.mp hr)
    have hstatus : r.status ≠ .claimable :=
      fun hstatus => hnot (mem_claimable_ids.mpr ⟨r, hold, hstatus⟩)
    simpa using hstatus
  unfold claimableTokens recordTotal
  rw [hnone]
  rfl

theorem movesForward : MovesForward k k' := by
  intro id status hold
  unfold statusOf at hold ⊢
  by_cases hmem : id ∈ (k.getAllUnbondingRecordsByStatus .claimable).map (·.id)
  · obtain ⟨r, hr, rfl⟩ := mem_map.mp hmem
    obtain ⟨hstored, hclaimable⟩ := mem_getAllUnbondingRecordsByStatus.mp hr
    rw [hstored] at hold
    cases hold
    rw [h.get?_unbondingRecords, if_pos hmem,
      h.get?_archived_of_mem (nodup_ids_getAllUnbondingRecordsByStatus k .claimable) hr]
    refine ⟨.claimed, rfl, ?_⟩
    show r.status.stage ≤ _
    rw [hclaimable]
    decide
  · rw [h.get?_unbondingRecords, if_neg hmem, h.get?_archived_of_notMem hmem]
    exact ⟨status, hold, le_rfl⟩

end PaidRecords

private theorem redemptionTotal_eq_zero (f : RedemptionRecord → ℤ)
    (h : ∀ key r, k.redemptionRecords.get? key = some r → r.unbondingRecordId ≠ id) :
    k.redemptionTotal f id = 0 := by
  have hnil : k.getRedemptionRecordsFromUnbondingId id = [] := by
    apply filter_eq_nil_iff.mpr
    intro r hr
    simpa using h r.key r (mem_values_iff.mp hr)
  unfold redemptionTotal
  rw [hnil]
  rfl

end Keeper

/-! ## Steps -/

namespace BookInv

variable {accounts : Accounts} {k k' : Keeper} {lastEpoch : ℕ} {payments : List Payment}

theorem nonneg (h : BookInv k lastEpoch payments) (id : ℕ) (r : UnbondingRecord)
    (hr : k.unbondingRecords.get? id = some r) : 0 ≤ r.stTokenAmount := by
  rw [(h.sums id r hr).1]
  exact sum_map_nonneg fun rr hrr =>
    (h.redemptions _ rr (mem_getRedemptionRecordsFromUnbondingId.mp hrr).1).2

/-- **No redemption is negative** that belongs to a frozen record with a positive amount. -/
theorem nativeAmount_nonneg (h : BookInv k lastEpoch payments) {id : ℕ}
    (hr : k.unbondingRecords.get? id = some r) (hfrozen : r.status ≠ .accumulatingRedemptions)
    (hpositive : 0 < r.nativeAmount) :
    ∀ rr ∈ k.getRedemptionRecordsFromUnbondingId id, 0 ≤ rr.nativeAmount := by
  obtain ⟨rate, hrate⟩ := h.rates id r hr hfrozen
  have hst : ∀ rr ∈ k.getRedemptionRecordsFromUnbondingId id, 0 ≤ rr.stTokenAmount :=
    fun rr hrr => (h.redemptions _ rr (mem_getRedemptionRecordsFromUnbondingId.mp hrr).1).2
  rcases le_total 0 rate.i with hpos | hneg
  · intro rr hrr
    rw [hrate rr hrr]
    exact LegacyDec.truncateInt_mul_nonneg (hst rr hrr) hpos
  · -- at a negative rate the amounts would not add up to a positive one
    have htotal : r.nativeAmount ≤ 0 := by
      rw [(h.sums id r hr).2]
      refine (sum_le_card_nsmul _ 0 fun amount hamount => ?_).trans_eq (by simp)
      obtain ⟨rr, hrr, rfl⟩ := mem_map.mp hamount
      rw [hrate rr hrr]
      exact LegacyDec.truncateInt_mul_nonpos (hst rr hrr) hneg
    exact absurd htotal (not_le.mpr hpositive)

/-- What the book reads of an unbonding record. -/
def view (r : UnbondingRecord) : ℤ × ℤ × Bool :=
  (r.stTokenAmount, r.nativeAmount, r.status = .accumulatingRedemptions)

/-- The book reads no more than the view of a record. -/
theorem of_sameView (h : BookInv k lastEpoch payments)
    (hrecords : SameView view k.unbondingRecords k'.unbondingRecords)
    (harchived : k'.archivedUnbondingRecords = k.archivedUnbondingRecords)
    (hredemptions : k'.redemptionRecords = k.redemptionRecords) :
    BookInv k' lastEpoch payments := by
  have hview {r r' : UnbondingRecord} (heq : view r = view r') :
      r.stTokenAmount = r'.stTokenAmount ∧ r.nativeAmount = r'.nativeAmount ∧
        (r.status = .accumulatingRedemptions ↔ r'.status = .accumulatingRedemptions) := by
    unfold view at heq
    simpa using heq
  constructor
  case accumulating =>
    obtain ⟨r, hr⟩ := h.accumulating
    obtain ⟨hstored, hstatus, hone⟩ := accumulating_iff.mp hr
    -- the accumulating record is still stored, and still the only one
    have hsome := hrecords.isSome r.id
    rw [hstored] at hsome
    obtain ⟨r', hr'⟩ := Option.isSome_iff_exists.mp hsome
    obtain ⟨w, hw, hvw⟩ := hrecords.get? hr'
    rw [hstored] at hw
    cases hw
    have hid : r'.id = r.id := key_of_get? hr'
    refine ⟨r', accumulating_iff.mpr ⟨hid ▸ hr', (hview hvw).2.2.mp hstatus, ?_⟩⟩
    intro id r'' hr'' hacc
    obtain ⟨w, hw, hvw⟩ := hrecords.get? hr''
    rw [hid]
    exact hone id w hw ((hview hvw).2.2.mpr hacc)
  case ids =>
    intro id r hr
    obtain ⟨w, hw, -⟩ := hrecords.get? hr
    exact h.ids id w hw
  case archivedIds =>
    rw [harchived]
    exact h.archivedIds
  case redemptions =>
    rw [hredemptions]
    exact h.redemptions
  case sums =>
    intro id r hr
    obtain ⟨w, hw, hvw⟩ := hrecords.get? hr
    obtain ⟨hst, hnative, -⟩ := hview hvw
    rw [redemptionTotal_congr hredemptions, redemptionTotal_congr hredemptions,
      ← hst, ← hnative]
    exact h.sums id w hw
  case rates =>
    intro id r hr hfrozen
    obtain ⟨w, hw, hvw⟩ := hrecords.get? hr
    unfold getRedemptionRecordsFromUnbondingId
    rw [hredemptions]
    exact h.rates id w hw fun hacc => hfrozen ((hview hvw).2.2.mp hacc)
  case paidGone =>
    intro p hp
    obtain ⟨hle, hnone⟩ := h.paidGone p hp
    refine ⟨hle, ?_⟩
    have hsome := hrecords.isSome p.unbondingRecordId
    rw [hnone] at hsome
    exact Option.not_isSome_iff_eq_none.mp (by simpa using hsome)
  case paidOnce => exact h.paidOnce

variable {e : Event} {claimAccount escrowAccount : String} {s s' : System}
  {record : UnbondingRecord} {recordId : ℕ}

section

variable (h : BookInv k lastEpoch payments)

include h

private theorem paid_ne {p : Payment} {id : ℕ} (hp : p ∈ payments)
    (hr : k.unbondingRecords.get? id = some r) : p.unbondingRecordId ≠ id := by
  rintro rfl
  rw [(h.paidGone p hp).2] at hr
  cases hr

/-- **Redemptions** add to one unbonding record and to one of its redemption records. -/
theorem redeemed {redeemer account : String} {amount : ℤ}
    (hr : RedeemedStake accounts k k' redeemer amount escrowAccount account record) :
    BookInv k' lastEpoch payments := by
  obtain ⟨hstored, hstatus, hone⟩ := accumulating_iff.mp hr.accumulating
  set tokens := nativeTokensAt k.hostZone.redemptionRate amount with hnative
  set record' : UnbondingRecord := { record with
    stTokenAmount := record.stTokenAmount + amount
    nativeAmount := record.nativeAmount + tokens } with hrecord'
  set rr := k.redeemedRecord record.id redeemer amount tokens with hrr
  have hkeeper := hr.keeper
  generalize k'.bank = bank at hkeeper
  subst hkeeper
  have hrrId : rr.unbondingRecordId = record.id := (redeemedRecord_ids ..).1
  have hamounts := redeemedRecord_amounts k record.id redeemer amount tokens
  -- what is stored under an id now
  have hget : ∀ id r, (k.unbondingRecords.set record').get? id = some r →
      id = record.id ∧ r = record' ∨ id ≠ record.id ∧ k.unbondingRecords.get? id = some r := by
    intro id r hid
    rw [get?_set] at hid
    split at hid
    · rename_i heq
      cases hid
      exact .inl ⟨heq, rfl⟩
    · rename_i hne
      exact .inr ⟨hne, hid⟩
  constructor
  case accumulating =>
    refine ⟨record', accumulating_iff.mpr ⟨get?_set_self _ _, hstatus, ?_⟩⟩
    intro id r hid hacc
    rcases hget id r hid with ⟨rfl, -⟩ | ⟨-, hold⟩
    · rfl
    · exact hone id r hold hacc
  case ids =>
    intro id r hid
    rcases hget id r hid with ⟨rfl, -⟩ | ⟨-, hold⟩
    · exact h.ids _ record hstored
    · exact h.ids id r hold
  case archivedIds => exact h.archivedIds
  case redemptions =>
    intro key r hkey
    rw [get?_set] at hkey
    split at hkey
    · cases hkey
      rw [hrrId, hamounts.1]
      refine ⟨h.ids _ record hstored, add_nonneg ?_ hr.nonneg⟩
      cases hold : k.redemptionRecords.get? rr.key with
      | none => exact le_rfl
      | some old => exact (h.redemptions _ old hold).2
    · exact h.redemptions key r hkey
  case sums =>
    intro id r hid
    rw [redemptionTotal_set rfl hamounts.1, redemptionTotal_set rfl hamounts.2, hrrId]
    rcases hget id r hid with ⟨rfl, rfl⟩ | ⟨hne, hold⟩
    · obtain ⟨hst, hnat⟩ := h.sums _ record hstored
      rw [if_pos rfl, if_pos rfl, ← hst, ← hnat]
      exact ⟨rfl, rfl⟩
    · rw [if_neg hne, if_neg hne, add_zero, add_zero]
      exact h.sums id r hold
  case rates =>
    intro id r hid hfrozen
    rcases hget id r hid with ⟨-, rfl⟩ | ⟨hne, hold⟩
    · exact absurd hstatus hfrozen
    · obtain ⟨rate, hrate⟩ := h.rates id r hold hfrozen
      refine ⟨rate, fun q hq => ?_⟩
      obtain ⟨hq, hqId⟩ := mem_getRedemptionRecordsFromUnbondingId.mp hq
      rcases mem_values_set (mem_values_iff.mpr hq) with rfl | hq
      · exact absurd (hqId.symm.trans hrrId) hne
      · exact hrate q (mem_getRedemptionRecordsFromUnbondingId.mpr ⟨mem_values_iff.mp hq, hqId⟩)
  case paidGone =>
    intro p hp
    obtain ⟨hle, hnone⟩ := h.paidGone p hp
    rw [get?_set_of_ne _ record' (h.paid_ne hp hstored)]
    exact ⟨hle, hnone⟩
  case paidOnce => exact h.paidOnce

/-- **Freezing** the accumulating record opens a new one. -/
theorem prepared {epochNumber : ℕ} (hp : PreparedUndelegation k k' epochNumber record)
    (hlt : lastEpoch < epochNumber) : BookInv k' epochNumber payments := by
  obtain ⟨hstored, hstatus, hone⟩ := accumulating_iff.mp hp.accumulating
  constructor
  case accumulating =>
    refine ⟨openedRecord epochNumber,
      accumulating_iff.mpr ⟨hp.get?_opened, rfl, ?_⟩⟩
    intro id r hr hacc
    rcases hp.of_get? hr with ⟨rfl, -⟩ | ⟨-, rfl⟩ | ⟨-, hne, hold⟩
    · rfl
    · cases hacc
    · exact absurd (hone id r hold hacc) hne
  case ids =>
    intro id r hr
    rcases hp.of_get? hr with ⟨rfl, -⟩ | ⟨rfl, -⟩ | ⟨-, -, hold⟩
    · exact le_rfl
    · exact (h.ids _ record hstored).trans hlt.le
    · exact (h.ids id r hold).trans hlt.le
  case archivedIds =>
    intro id r hr
    rcases hp.records with ⟨-, harchived⟩ | ⟨-, harchived⟩
    · rw [harchived, get?_set] at hr
      split at hr
      · rename_i heq
        rw [heq]
        exact (h.ids _ record hstored).trans hlt.le
      · exact (h.archivedIds id r hr).trans hlt.le
    · rw [harchived] at hr
      exact (h.archivedIds id r hr).trans hlt.le
  case redemptions =>
    intro key r hr
    rw [hp.redemptionRecords, get?_mapValues] at hr
    obtain ⟨r₀, hr₀, rfl⟩ := Option.map_eq_some_iff.mp hr
    obtain ⟨hle, hst⟩ := h.redemptions key r₀ hr₀
    unfold refreshedRecord
    split <;> exact ⟨hle.trans hlt.le, hst⟩
  case sums =>
    intro id r hr
    rw [hp.stTotal, hp.nativeTotal]
    rcases hp.of_get? hr with ⟨rfl, rfl⟩ | ⟨rfl, rfl⟩ | ⟨-, hne, hold⟩
    · -- nobody has redeemed in the new record
      have hnone : ∀ key r, k.redemptionRecords.get? key = some r → r.unbondingRecordId ≠ id := by
        intro key r hr
        have hle := (h.redemptions key r hr).1
        omega
      rw [if_neg hp.ne_of_fresh, redemptionTotal_eq_zero _ hnone,
        redemptionTotal_eq_zero _ hnone]
      exact ⟨rfl, rfl⟩
    · rw [if_pos rfl]
      exact ⟨(h.sums _ record hstored).1, rfl⟩
    · rw [if_neg hne]
      exact h.sums id r hold
  case rates =>
    intro id r hr hfrozen
    rw [hp.redemptions]
    rcases hp.of_get? hr with ⟨-, rfl⟩ | ⟨rfl, -⟩ | ⟨-, hne, hold⟩
    · exact absurd rfl hfrozen
    · refine ⟨k.hostZone.redemptionRate, forall_mem_map.mpr fun rr hrr => ?_⟩
      simp [refreshedRecord, (mem_getRedemptionRecordsFromUnbondingId.mp hrr).2]
    · obtain ⟨rate, hrate⟩ := h.rates id r hold hfrozen
      refine ⟨rate, forall_mem_map.mpr fun rr hrr => ?_⟩
      have hother := (mem_getRedemptionRecordsFromUnbondingId.mp hrr).2.trans_ne hne
      simpa [refreshedRecord, hother] using hrate rr hrr
  case paidGone =>
    intro p hpaid
    obtain ⟨hle, hnone⟩ := h.paidGone p hpaid
    rw [(hp.get?_other (by omega) (h.paid_ne hpaid hstored)).1]
    exact ⟨hle.trans hlt.le, hnone⟩
  case paidOnce => exact h.paidOnce

/-- **The hourly check** changes no amount. -/
theorem finished (now : ℤ) : BookInv (k.markFinishedUnbondings now) lastEpoch payments := by
  rw [markFinishedUnbondings_eq]
  refine h.of_sameView ?_ rfl rfl
  intro id
  rw [get?_mapValues, Option.map_map]
  congr 1
  funext r
  obtain ⟨hst, hnative⟩ := amounts_finishedRecord now r
  rcases status_finishedRecord now r with hsame | ⟨hold, hnew⟩
  · simp [view, hst, hnative, hsame]
  · simp [view, hst, hnative, hold, hnew]

/-- **Payments** remove an unbonding record together with its redemption records. -/
theorem paid {denom : String} {paid : List Payment}
    (hp : PaidRecords accounts denom claimAccount k k'
      (k.getAllUnbondingRecordsByStatus .claimable) paid) :
    BookInv k' lastEpoch (payments ++ paid) := by
  constructor
  case accumulating =>
    obtain ⟨r, hr⟩ := h.accumulating
    obtain ⟨hstored, hstatus, hone⟩ := accumulating_iff.mp hr
    refine ⟨r, accumulating_iff.mpr
      ⟨hp.get?_of_ne_claimable hstored (by rw [hstatus]; decide), hstatus, ?_⟩⟩
    intro id r' hr'
    exact hone id r' (hp.of_get? hr').2
  case ids =>
    intro id r hr
    exact h.ids id r (hp.of_get? hr).2
  case archivedIds =>
    intro id r hr
    by_cases hmem : id ∈ (k.getAllUnbondingRecordsByStatus .claimable).map (·.id)
    · obtain ⟨r', hr', -⟩ := mem_claimable_ids.mp hmem
      exact h.ids id r' hr'
    · rw [hp.get?_archived_of_notMem hmem] at hr
      exact h.archivedIds id r hr
  case redemptions =>
    intro key r hr
    rw [hp.get?_redemptionRecords] at hr
    split at hr
    · cases hr
    exact h.redemptions key r hr
  case sums =>
    intro id r hr
    obtain ⟨hnot, hold⟩ := hp.of_get? hr
    have htotal (f : RedemptionRecord → ℤ) : k'.redemptionTotal f id = k.redemptionTotal f id := by
      unfold redemptionTotal
      rw [hp.redemptions_of_notMem hnot]
    rw [htotal, htotal]
    exact h.sums id r hold
  case rates =>
    intro id r hr hfrozen
    obtain ⟨hnot, hold⟩ := hp.of_get? hr
    rw [hp.redemptions_of_notMem hnot]
    exact h.rates id r hold hfrozen
  case paidGone =>
    intro p hmem
    rw [hp.get?_unbondingRecords]
    rcases mem_append.mp hmem with hold | hnew
    · obtain ⟨hle, hnone⟩ := h.paidGone p hold
      refine ⟨hle, ?_⟩
      split
      · rfl
      · exact hnone
    · have hclaimable := hp.claimable_of_mem hnew
      obtain ⟨r, hr, -⟩ := mem_claimable_ids.mp hclaimable
      exact ⟨h.ids _ r hr, if_pos hclaimable⟩
  case paidOnce =>
    rw [map_append, nodup_append]
    refine ⟨h.paidOnce, ?_, ?_⟩
    · rw [map_paymentKey hp.pays]
      exact nodup_keys_flatMap k
        (nodup_ids_getAllUnbondingRecordsByStatus k .claimable)
    · -- a record that was paid before is not active, and one that is paid now is
      intro key hold key' hnew heq
      subst heq
      obtain ⟨p, hp₁, rfl⟩ := mem_map.mp hold
      obtain ⟨q, hq, hsame⟩ := mem_map.mp hnew
      obtain ⟨r, hr, -⟩ := mem_claimable_ids.mp (hp.claimable_of_mem hq)
      exact h.paid_ne hp₁ hr (redemptionRecordKey_inj.mp hsame).1.symm

end

/-- Events without unbondings keep the book. -/
theorem quiet (h : BookInv s.keeper s.lastEpoch s.payments)
    (hq : System.QuietStep accounts s s' e) :
    BookInv s'.keeper s'.lastEpoch s'.payments := by
  rw [hq.lastEpoch, hq.payments]
  refine h.of_sameView ?_ hq.unbondings.archived hq.unbondings.redemptions
  rw [hq.unbondings.records]
  exact .refl view s.keeper.unbondingRecords

/-- **A confirmed undelegation** changes a status only. -/
theorem undelegated (h : BookInv k lastEpoch payments)
    (hc : ConfirmedUndelegation accounts k k' recordId escrowAccount record) :
    BookInv k' lastEpoch payments := by
  obtain ⟨txHash, time, hkeeper⟩ := hc.keeper
  generalize k'.bank = bank at hkeeper
  subst hkeeper
  have hid : record.id = recordId := key_of_get? hc.stored
  refine h.of_sameView ?_ rfl rfl
  exact (SameView.refl view k.unbondingRecords).set (hid ▸ hc.stored)
    (by simp [view, hc.queued])

/-- **A confirmed sweep** changes a status only. -/
theorem swept (h : BookInv k lastEpoch payments)
    (hc : ConfirmedSweep accounts k k' recordId claimAccount record) :
    BookInv k' lastEpoch payments := by
  obtain ⟨txHash, hkeeper⟩ := hc.keeper
  subst hkeeper
  have hid : record.id = recordId := key_of_get? hc.stored
  refine h.of_sameView ?_ rfl rfl
  exact (SameView.refl view k.unbondingRecords).set (hid ▸ hc.stored)
    (by simp [view, hc.unbonded])

/-- **Every event** keeps the books right. -/
theorem effect (h : BookInv s.keeper s.lastEpoch s.payments) (he : System.Effect accounts s e s') :
    BookInv s'.keeper s'.lastEpoch s'.payments := by
  cases he with
  | quiet hq => exact h.quiet hq.quietStep
  | redeemed hr => exact h.redeemed hr
  | prepared hlt hp => exact h.prepared hp hlt
  | undelegated hc => exact h.undelegated hc
  | finished now => exact h.finished now
  | swept hc => exact h.swept hc
  | paid _ hp => exact h.paid hp

/-- Records are the sums of their redemptions. -/
theorem sum_redemptions (h : BookInv k lastEpoch payments) {records : List UnbondingRecord}
    (hstored : ∀ r ∈ records, k.unbondingRecords.get? r.id = some r) :
    ((records.flatMap fun r => k.getRedemptionRecordsFromUnbondingId r.id).map
      (·.nativeAmount)).sum = (records.map (·.nativeAmount)).sum := by
  induction records with
  | nil => rfl
  | cons r records ih =>
    obtain ⟨hr, hrest⟩ := forall_mem_cons.mp hstored
    rw [flatMap_cons, map_append, sum_append, ih hrest, map_cons, (h.sums r.id r hr).2]
    rfl

end BookInv

end Stride.Stakedym
