import Stride.Stakeibc.DepositPipeline

/-!
# Value Locked by Deposits

The numerator of the redemption rate counts deposits in four statuses and the delegations of the
zone. On its way a deposit moves between them and between accounts, but its value is counted
throughout: the numerator only grows, by liquid stakes.

The amounts of the records do not stay non-negative. When the second batch of a delegation is
rejected after the first was sent, the next epoch sends the whole record again, and the callbacks
of both submissions are taken off its amount. (This is the submission of `DelegationOnce`.)
-/

namespace Stride.Stakeibc

open Lib Sdk Records KeyedStore List

/-! ## Property -/

variable {l : DepositEvent} {c : String}

namespace DepositSystem

/-- The numerator of the redemption rate of a zone without tokenized shares. -/
def nativeTokensLocked (s : DepositSystem) (c : String) : LegacyDec :=
  let depositRecords := s.flow.keeper.depositRecords.values
  ((getDepositAccountBalance c depositRecords).add (getUndelegatedBalance c depositRecords)).add
    (LegacyDec.fromInt ((s.flow.totalOf c).getD 0))

/-- The records of a zone in TRANSFER_QUEUE. -/
def queued (s : DepositSystem) (c : String) : ℤ :=
  sumDepositAmounts c (fun status => status = .transferQueue) s.flow.keeper.depositRecords.values

/-- The amount that an event stakes with a zone. -/
def stakedBy (s : DepositSystem) : DepositEvent → String → ℤ
  | .liquidStake msg, c =>
    match getHostZoneFromHostDenom s.hostZones msg.hostDenom with
    | some hostZone => if hostZone.chainId = c then msg.amount else 0
    | none => 0
  | _, _ => 0

/-- The amount of a record that an event reports as delegated. -/
def delegatedBy (s : DepositSystem) : DepositEvent → ℕ → ℤ
  | .delegateAck i status, id =>
    match s.flow.sent[i]? with
    | some p => if p.recordId = id then delegatedAmount p.tx.callback status else 0
    | none => 0
  | _, _ => 0

/-- An event adds what it stakes, and a record disappears when nothing is left of it. -/
structure Conserves (s : DepositSystem) (l : DepositEvent) (s' : DepositSystem) : Prop where
  locked : ∀ c, s'.nativeTokensLocked c =
    (s.nativeTokensLocked c).add (LegacyDec.fromInt (s.stakedBy l c))
  removed : ∀ id r, s.records id = some r → s'.records id = none →
    r.amount - s.delegatedBy l id = 0

/-- Delegations are sent in whole, and the transfer module does not fail after it has taken the
    coins. -/
def SubmitsWhole (s : DepositSystem) : DepositEvent → Prop
  | .stake epochNumber rejected => s.flow.WholeSubmissions (.stake epochNumber rejected)
  | .transfer _ _ failed => failed = []
  | _ => True

noncomputable instance (s : DepositSystem) (e : DepositEvent) : Decidable (s.SubmitsWhole e) := by
  apply @DepositEvent.casesOn _ e <;> intros <;> dsimp only [SubmitsWhole] <;> infer_instance

/-- The zone is registered. -/
def Registered (s : DepositSystem) (c : String) : Prop := (s.hostZones.get? c).isSome = true

/-- The deposit account of a zone holds what is queued. -/
def Funded (s : DepositSystem) (c : String) : Prop :=
  s.queued c ≤ s.bank.balance (s.settings c).depositAddress (s.settings c).ibcDenom

/-- Each zone has a deposit account of its own. -/
def OwnAccounts (s : DepositSystem) : Prop :=
  ∀ c c', s.Registered c → s.Registered c' →
    (s.settings c).depositAddress = (s.settings c').depositAddress → c = c'

/-- Nothing is on its way, and deposits are backed. -/
structure Started (s : DepositSystem) : Prop where
  flow : s.flow.StartedClean
  nonneg : ∀ id r, s.records id = some r → 0 ≤ r.amount
  transfers : s.transfers = []
  funded : ∀ c, s.Registered c → s.Funded c
  accounts : s.OwnAccounts

/-! ## Totals -/

/-- The amounts of the records of a zone. -/
def depositsOf (s : DepositSystem) (c : String) : ℤ :=
  (s.flow.keeper.depositRecords.values.map (zoneAmount c)).sum

private theorem nativeTokensLocked_eq (s : DepositSystem) (c : String) :
    s.nativeTokensLocked c = LegacyDec.fromInt (s.depositsOf c + (s.flow.totalOf c).getD 0) := by
  unfold nativeTokensLocked
  dsimp only
  rw [getDepositAccountBalance_add_getUndelegatedBalance, LegacyDec.fromInt_add]
  rfl

variable {status : AckStatus} {s' : DepositSystem} {t : NativeTransfer} {i : ℕ}

private theorem locked_of_sum {s : DepositSystem} {n : ℤ}
    (h : s'.depositsOf c + (s'.flow.totalOf c).getD 0 =
      s.depositsOf c + (s.flow.totalOf c).getD 0 + n) :
    s'.nativeTokensLocked c = (s.nativeTokensLocked c).add (LegacyDec.fromInt n) := by
  rw [nativeTokensLocked_eq, nativeTokensLocked_eq, LegacyDec.fromInt_add, h]

/-- What a record counts for the queue. -/
def queuedAmount (c : String) : DepositRecord → ℤ :=
  countedAmount c fun status => status = .transferQueue

private theorem queued_eq (s : DepositSystem) (c : String) :
    s.queued c = (s.flow.keeper.depositRecords.values.map (queuedAmount c)).sum :=
  sumDepositAmounts_eq c _ _

private theorem queuedAmount_of_status_ne {r : DepositRecord} (h : r.status ≠ .transferQueue) :
    queuedAmount c r = 0 := by
  simp [queuedAmount, countedAmount, h]

private theorem queuedAmount_of_onHost {r : DepositRecord} (h : r.onHost) :
    queuedAmount c r = 0 := by
  apply queuedAmount_of_status_ne
  rcases h with h | h <;> simp [h]

private theorem queuedAmount_of_status {r : DepositRecord} (h : r.status = .transferQueue) :
    queuedAmount c r = zoneAmount c r := by
  simp [queuedAmount, countedAmount, zoneAmount, h]

/-- Value is moved between records, accounts and the host, but not changed, and only empty
    records disappear. -/
structure Rearranged (s s' : DepositSystem) : Prop where
  deposits : ∀ c, s'.depositsOf c = s.depositsOf c
  totals : ∀ c, s'.flow.totalOf c = s.flow.totalOf c
  amounts : ∀ id n, (s.records id).map DepositRecord.amount = some n →
    n = 0 ∨ (s'.records id).map DepositRecord.amount = some n

private theorem Rearranged.refl (s : DepositSystem) : Rearranged s s :=
  ⟨fun _ => rfl, fun _ => rfl, fun _ _ h => .inr h⟩

private theorem Rearranged.trans {s t u : DepositSystem} (h : Rearranged s t)
    (h' : Rearranged t u) :
    Rearranged s u where
  deposits c := (h'.deposits c).trans (h.deposits c)
  totals c := (h'.totals c).trans (h.totals c)
  amounts id n hn := by
    rcases h.amounts id n hn with hzero | hsame
    · exact .inl hzero
    · exact h'.amounts id n hsame

private theorem Rearranged.of_flow {s t : DepositSystem} (h : Rearranged s t)
    (hflow : s'.flow = t.flow) :
    Rearranged s s' where
  deposits c := by
    unfold depositsOf
    rw [hflow]
    exact h.deposits c
  totals c := by
    rw [hflow]
    exact h.totals c
  amounts id n hn := by
    unfold records
    rw [hflow]
    exact h.amounts id n hn

private theorem Rearranged.conserves {s : DepositSystem} (h : Rearranged s s')
    (hstaked : ∀ c, s.stakedBy l c = 0) (hdelegated : ∀ id, s.delegatedBy l id = 0) :
    Conserves s l s' where
  locked c := by
    apply locked_of_sum
    rw [h.deposits, h.totals, hstaked, add_zero]
  removed id r hr hnone := by
    rw [hdelegated, sub_zero]
    rcases h.amounts id r.amount (by rw [hr, Option.map_some]) with hzero | hsame
    · exact hzero
    · rw [hnone] at hsame
      cases hsame

/-! ## Invariant -/

/-- The record of a transfer without an answer waits for it, and the transfer has its coins. -/
def Transferring (s : DepositSystem) (t : NativeTransfer) : Prop :=
  ∃ r, s.records t.depositRecordId = some r ∧ r.status = .transferInProgress ∧
    t.msg.sender = (s.settings r.hostZoneId).depositAddress ∧
    t.msg.token = ((s.settings r.hostZoneId).ibcDenom, r.amount)

structure Inv (s : DepositSystem) : Prop where
  deposits : s.flow.DepositsInv
  transferring : ∀ t ∈ s.transfers, s.Transferring t
  distinct : (s.transfers.map NativeTransfer.depositRecordId).Nodup
  funded : ∀ c, s.Registered c → s.Funded c
  accounts : s.OwnAccounts

private theorem Started.inv {s : DepositSystem} (h : s.Started) : s.Inv where
  deposits := h.flow.depositsInv h.nonneg
  transferring t ht := by
    rw [h.transfers] at ht
    cases ht
  distinct := by
    rw [h.transfers]
    exact nodup_nil
  funded := h.funded
  accounts := h.accounts

/-! ### Writing a record -/

/-- The system with a record rewritten. -/
def setRecord (s : DepositSystem) (r : DepositRecord) : DepositSystem :=
  { s with flow := s.flow.withDeposits (s.flow.keeper.depositRecords.set r) }

section SetRecord

variable {s : DepositSystem} {r r' : DepositRecord}

private theorem records_setRecord (s : DepositSystem) (r' : DepositRecord) (id : ℕ) :
    (s.setRecord r').records id = if id = r'.id then some r' else s.records id :=
  get?_set ..

private theorem sum_setRecord (hr : s.records r.id = some r) (hid : r'.id = r.id)
    (g : DepositRecord → ℤ) :
    ((s.setRecord r').flow.keeper.depositRecords.values.map g).sum =
      (s.flow.keeper.depositRecords.values.map g).sum - g r + g r' := by
  have hstored : s.flow.keeper.depositRecords.get? r'.id = some r := hid ▸ hr
  show ((s.flow.keeper.depositRecords.set r').values.map g).sum = _
  rw [sum_values_set, hstored, Option.elim_some]

private theorem depositsOf_setRecord (hr : s.records r.id = some r) (r' : DepositRecord)
    (hid : r'.id = r.id) (c : String) :
    (s.setRecord r').depositsOf c = s.depositsOf c - zoneAmount c r + zoneAmount c r' :=
  sum_setRecord hr hid _

private theorem queued_setRecord (hr : s.records r.id = some r) (r' : DepositRecord)
    (hid : r'.id = r.id) (c : String) :
    (s.setRecord r').queued c = s.queued c - queuedAmount c r + queuedAmount c r' := by
  rw [queued_eq, queued_eq]
  exact sum_setRecord hr hid _

private theorem Inv.depositsInv_setRecord (h : s.Inv) (hr : s.records r.id = some r)
    (hhost : ¬ r.onHost)
    (r' : DepositRecord) (hid : r'.id = r.id) (hzone : r'.hostZoneId = r.hostZoneId)
    (hcounter : r'.delegationTxsInProgress = r.delegationTxsInProgress) (hamount : 0 ≤ r'.amount) :
    (s.setRecord r').flow.DepositsInv := by
  refine h.deposits.change (.set hr hhost hid hzone hcounter) rfl fun id q hq => ?_
  replace hq := (get?_set ..).symm.trans hq
  split at hq
  · cases hq
    exact .inr ⟨hamount, hcounter.trans (h.deposits.early r.id r hr hhost)⟩
  · exact .inl hq

private theorem Transferring.setRecord (h : s.Transferring t) (hne : t.depositRecordId ≠ r'.id) :
    (s.setRecord r').Transferring t := by
  obtain ⟨q, hq, hrest⟩ := h
  refine ⟨q, ?_, hrest⟩
  rw [records_setRecord, if_neg hne]
  exact hq

private theorem Inv.depositRecordId_ne (h : s.Inv) (hr : s.records r.id = some r)
    (hstatus : r.status ≠ .transferInProgress) (ht : t ∈ s.transfers) :
    t.depositRecordId ≠ r.id := by
  intro heq
  obtain ⟨q, hq, hq', -⟩ := h.transferring t ht
  rw [heq, hr] at hq
  cases hq
  exact hstatus hq'

private theorem rearranged_setRecord (hr : s.records r.id = some r) (r' : DepositRecord)
    (hid : r'.id = r.id)
    (hzone : r'.hostZoneId = r.hostZoneId) (hamount : r'.amount = r.amount) :
    Rearranged s (s.setRecord r') where
  deposits c := by
    rw [depositsOf_setRecord hr r' hid]
    unfold zoneAmount
    rw [hzone, hamount, sub_add_cancel]
  totals _ := rfl
  amounts id n hn := by
    right
    rw [records_setRecord]
    split
    · rename_i heq
      rw [heq, hid, hr] at hn
      rw [Option.map_some, hamount]
      exact hn
    · exact hn

end SetRecord

private theorem not_onHost_of_status {r : DepositRecord} (h : r.status = .transferQueue ∨
    r.status = .transferInProgress) : ¬ r.onHost := by
  unfold DepositRecord.onHost
  rcases h with h | h <;> simp [h]

/-! ### Liquid stakes -/

section LiquidStakes

variable {s : DepositSystem} {msg : MsgLiquidStake} {k : LiquidStakeKeeper} {coin : String × ℤ}
  {z : HostZone} {r : DepositRecord}

private theorem depositAddress_ne {address : String} (h : ¬ s.IsDepositAccount address)
    (hc : s.Registered c) : (s.settings c).depositAddress ≠ address := by
  intro heq
  obtain ⟨z, hz⟩ := Option.isSome_iff_exists.mp hc
  have hchain : z.chainId = c := key_of_get? hz
  exact h ⟨z, mem_values_iff.mpr (hchain ▸ hz), hchain ▸ heq⟩

private theorem Inv.liquidStake (h : s.Inv) (haccount : ¬ s.IsDepositAccount msg.creator)
    (hs : LiquidStaked s.liquidStakeKeeper k msg coin z r) :
    Inv { s.setRecord (stakedDeposit r msg.amount) with bank := k.bank } := by
  have hr : s.records r.id = some r := hs.record
  have hhost : ¬ r.onHost := not_onHost_of_status (.inl hs.recordStatus)
  refine ⟨?_, fun t ht => ?_, h.distinct, fun c hc => ?_, h.accounts⟩
  · have hnonneg := h.deposits.nonneg r.id r hr
    exact h.depositsInv_setRecord hr hhost (stakedDeposit r msg.amount) rfl rfl rfl
      (add_nonneg hnonneg hs.nonneg)
  · have hstatus : r.status ≠ .transferInProgress := by simp [hs.recordStatus]
    have hne := h.depositRecordId_ne hr hstatus ht
    exact (h.transferring t ht).setRecord hne
  · -- the queue grows by the amount, and so does the balance of its account
    have hqueued : (s.setRecord (stakedDeposit r msg.amount)).queued c =
        s.queued c + if z.chainId = c then msg.amount else 0 := by
      rw [queued_setRecord hr (stakedDeposit r msg.amount) rfl,
        queuedAmount_of_status hs.recordStatus,
        queuedAmount_of_status (r := stakedDeposit r msg.amount) hs.recordStatus]
      unfold zoneAmount stakedDeposit
      dsimp only
      rw [hs.recordZone]
      split <;> omega
    have hfunded : s.queued c ≤ _ := h.funded c hc
    have hbalance := hs.balance (s.settings c).depositAddress (s.settings c).ibcDenom
    rw [if_neg fun hcond => depositAddress_ne haccount hc hcond.1, sub_zero] at hbalance
    have hst : 0 ≤ if (s.settings c).depositAddress = msg.creator ∧
        (s.settings c).ibcDenom = coin.1 then coin.2 else 0 := by
      split
      · exact hs.stNonneg
      · exact le_rfl
    show (s.setRecord (stakedDeposit r msg.amount)).queued c ≤
      k.bank.balance (s.settings c).depositAddress (s.settings c).ibcDenom
    rw [hqueued, hbalance]
    by_cases hz : z.chainId = c
    · rw [if_pos hz, hz, if_pos ⟨rfl, rfl⟩]
      exact (add_le_add_left hfunded _).trans (le_add_of_nonneg_right hst)
    · rw [if_neg hz, add_zero]
      refine hfunded.trans ((le_add_of_nonneg_right ?_).trans (le_add_of_nonneg_right hst))
      split
      · exact hs.nonneg
      · exact le_rfl

private theorem conserves_liquidStake
    (hs : LiquidStaked s.liquidStakeKeeper k msg coin z r) :
    Conserves s (.liquidStake msg) { s.setRecord (stakedDeposit r msg.amount) with
      bank := k.bank } where
  locked c := by
    have hr : s.records r.id = some r := hs.record
    have hzone : getHostZoneFromHostDenom s.hostZones msg.hostDenom = some z := hs.zone
    apply locked_of_sum
    show (s.setRecord (stakedDeposit r msg.amount)).depositsOf c + (s.flow.totalOf c).getD 0 = _
    rw [depositsOf_setRecord hr (stakedDeposit r msg.amount) rfl]
    unfold stakedBy zoneAmount stakedDeposit
    simp only [hzone, hs.recordZone]
    split <;> omega
  removed id q hq hnone := by
    replace hnone := (records_setRecord s (stakedDeposit r msg.amount) id).symm.trans hnone
    split at hnone
    · cases hnone
    rw [hq] at hnone
    cases hnone

end LiquidStakes

/-! ### New epochs -/

section NewEpochs

variable {s : DepositSystem}

/-- The system with the empty record of a zone. -/
def appendRecord (s : DepositSystem) (epochNumber : ℕ) (z : HostZone) : DepositSystem :=
  { s with flow := { s.flow with keeper := appendDepositRecord epochNumber s.flow.keeper z } }

private theorem records_appendRecord (epochNumber : ℕ) (z : HostZone) (id : ℕ) :
    (s.appendRecord epochNumber z).records id =
      if id = s.flow.keeper.depositRecordCount then
        some (emptyDepositRecord epochNumber s.flow.keeper.depositRecordCount z)
      else s.records id :=
  get?_set ..

private theorem sum_appendRecord (h : s.Inv) (epochNumber : ℕ) (z : HostZone)
    {g : DepositRecord → ℤ} (hg : ∀ r, r.amount = 0 → g r = 0) :
    ((s.appendRecord epochNumber z).flow.keeper.depositRecords.values.map g).sum =
      (s.flow.keeper.depositRecords.values.map g).sum := by
  show ((s.flow.keeper.depositRecords.set
    (emptyDepositRecord epochNumber s.flow.keeper.depositRecordCount z)).values.map g).sum = _
  have hnone : s.flow.keeper.depositRecords.get?
      (emptyDepositRecord epochNumber s.flow.keeper.depositRecordCount z).id = none :=
    h.deposits.once.counter.ids.get?_count
  rw [sum_values_set, hnone, Option.elim_none, sub_zero, hg _ rfl, add_zero]

private theorem Inv.appendRecord (h : s.Inv) (epochNumber : ℕ) (z : HostZone) :
    (s.appendRecord epochNumber z).Inv ∧ Rearranged s (s.appendRecord epochNumber z) := by
  -- the new record has a new id
  have hkept (id : ℕ) (r : DepositRecord) (hr : s.records id = some r) :
      (s.appendRecord epochNumber z).records id = some r := by
    rw [records_appendRecord, if_neg (h.deposits.once.counter.ids id r hr).ne]
    exact hr
  constructor
  · refine ⟨?_, fun t ht => ?_, h.distinct, fun c hc => ?_, h.accounts⟩
    · refine h.deposits.change (.append h.deposits.once.counter.ids epochNumber z) rfl
        fun id r hr => ?_
      replace hr := (records_appendRecord epochNumber z id).symm.trans hr
      split at hr
      · cases hr
        exact .inr ⟨le_rfl, rfl⟩
      · exact .inl hr
    · obtain ⟨r, hr, hrest⟩ := h.transferring t ht
      exact ⟨r, hkept _ r hr, hrest⟩
    · show (s.appendRecord epochNumber z).queued c ≤ _
      rw [queued_eq, sum_appendRecord h epochNumber z, ← queued_eq]
      · exact h.funded c hc
      · intro r hr
        unfold queuedAmount countedAmount
        rw [hr, ite_self]
  · refine ⟨fun c => ?_, fun c => rfl, fun id n hn => ?_⟩
    · apply sum_appendRecord h epochNumber z
      intro r hr
      unfold zoneAmount
      rw [hr, ite_self]
    · obtain ⟨r, hr, rfl⟩ := Option.map_eq_some_iff.mp hn
      right
      rw [hkept id r hr, Option.map_some]

private theorem Inv.createDepositRecords (h : s.Inv) (epochNumber : ℕ) :
    let s' := { s with flow :=
      { s.flow with keeper := createDepositRecordsForEpoch s.flow.keeper epochNumber } }
    s'.Inv ∧ Rearranged s s' := by
  refine foldlRecOn (motive := fun k =>
    Inv { s with flow := { s.flow with keeper := k } } ∧
      Rearranged s { s with flow := { s.flow with keeper := k } })
    (getAllActiveHostZone s.flow.keeper.hostZones) (appendDepositRecord epochNumber)
    ⟨h, .refl s⟩ ?_
  rintro k ⟨hinv, hrearranged⟩ z -
  obtain ⟨hinv', hrearranged'⟩ := hinv.appendRecord epochNumber z
  exact ⟨hinv', hrearranged.trans hrearranged'⟩

end NewEpochs

/-! ### Transfers -/

section Transfers

variable {s : DepositSystem} {r : DepositRecord}

private theorem Inv.deleteEmpty (h : s.Inv) (hr : s.records r.id = some r)
    (hstatus : r.status = .transferQueue) (hempty : r.amount ≤ 0) :
    let s' := { s with flow :=
      s.flow.withDeposits (s.flow.keeper.depositRecords.delete r.id) }
    s'.Inv ∧ Rearranged s s' := by
  have hzero : r.amount = 0 := le_antisymm hempty (h.deposits.nonneg r.id r hr)
  have hrecords (id : ℕ) : (s.flow.keeper.depositRecords.delete r.id).get? id =
      if id = r.id then none else s.records id := get?_delete ..
  have hsum {g : DepositRecord → ℤ} (hg : g r = 0) :
      ((s.flow.keeper.depositRecords.delete r.id).values.map g).sum =
        (s.flow.keeper.depositRecords.values.map g).sum := by
    have hstored : s.flow.keeper.depositRecords.get? r.id = some r := hr
    rw [sum_values_delete, hstored, Option.elim_some, hg, sub_zero]
  have hzone (c : String) : zoneAmount c r = 0 := by
    unfold zoneAmount
    rw [hzero, ite_self]
  constructor
  · refine ⟨?_, fun t ht => ?_, h.distinct, fun c hc => ?_, h.accounts⟩
    · refine h.deposits.change (.delete r.id) rfl fun id q hq => ?_
      replace hq := (hrecords id).symm.trans hq
      split at hq
      · cases hq
      exact .inl hq
    · -- a queued record is in no transfer
      have hne := h.depositRecordId_ne hr (by simp [hstatus]) ht
      obtain ⟨q, hq, hrest⟩ := h.transferring t ht
      refine ⟨q, ?_, hrest⟩
      exact (hrecords _).trans ((if_neg hne).trans hq)
    · have hfunded : s.queued c ≤ _ := h.funded c hc
      unfold Funded
      rw [queued_eq] at hfunded ⊢
      exact (hsum ((queuedAmount_of_status hstatus).trans (hzone c))).le.trans hfunded
  · refine ⟨fun c => hsum (hzone c), fun c => rfl, fun id n hn => ?_⟩
    by_cases hid : id = r.id
    · rw [hid, hr, Option.map_some, hzero] at hn
      exact .inl (Option.some.inj hn).symm
    · right
      rw [← hn]
      exact congrArg (Option.map DepositRecord.amount) ((hrecords id).trans (if_neg hid))

private theorem Inv.sendTransfer (h : s.Inv) (hr : s.records r.id = some r)
    (hstatus : r.status = .transferQueue) {z : HostZone}
    (hz : s.hostZones.get? r.hostZoneId = some z) :
    let msg := depositTransferMsg (s.settings r.hostZoneId) z r
    let s' := { s.setRecord (transferredRecord r) with
      bank := takeCoins s.bank msg
      transfers := s.transfers ++ [⟨msg, r.id⟩] }
    s'.Inv ∧ Rearranged s s' := by
  have hhost : ¬ r.onHost := not_onHost_of_status (.inl hstatus)
  have hregistered : s.Registered r.hostZoneId := Option.isSome_iff_exists.mpr ⟨z, hz⟩
  have hne {t : NativeTransfer} (ht : t ∈ s.transfers) : t.depositRecordId ≠ r.id :=
    h.depositRecordId_ne hr (by simp [hstatus]) ht
  refine ⟨⟨?_, fun t ht => ?_, ?_, fun c hc => ?_, h.accounts⟩, ?_⟩
  · exact h.depositsInv_setRecord hr hhost (transferredRecord r) rfl rfl rfl
      (h.deposits.nonneg r.id r hr)
  · rcases mem_append.mp ht with hold | hnew
    · exact (h.transferring t hold).setRecord (hne hold)
    · rw [mem_singleton.mp hnew]
      refine ⟨transferredRecord r, ?_, rfl, rfl, rfl⟩
      exact (records_setRecord ..).trans (if_pos rfl)
  · rw [map_append, map_singleton, ← concat_eq_append, nodup_concat]
    refine ⟨fun hmem => ?_, h.distinct⟩
    obtain ⟨t, ht, heq⟩ := mem_map.mp hmem
    exact hne ht heq
  · -- the record leaves the queue with the coins that leave the account
    have hqueued : (s.setRecord (transferredRecord r)).queued c =
        s.queued c - zoneAmount c r := by
      rw [queued_setRecord hr (transferredRecord r) rfl, queuedAmount_of_status hstatus,
        queuedAmount_of_status_ne (by simp [transferredRecord]), add_zero]
    have hfunded : s.queued c ≤ _ := h.funded c hc
    show (s.setRecord (transferredRecord r)).queued c ≤
      (takeCoins s.bank (depositTransferMsg (s.settings r.hostZoneId) z r)).balance
        (s.settings c).depositAddress (s.settings c).ibcDenom
    unfold takeCoins
    rw [hqueued, Bank.balance_addCoins]
    unfold zoneAmount
    by_cases hcr : r.hostZoneId = c
    · rw [if_pos hcr, hcr, if_pos ⟨rfl, rfl⟩]
      exact sub_le_sub_right hfunded _
    · have haddress : (s.settings c).depositAddress ≠ (s.settings r.hostZoneId).depositAddress :=
        fun heq => hcr (h.accounts c _ hc hregistered heq).symm
      rw [if_neg hcr, if_neg fun hcond => haddress hcond.1, sub_zero, add_zero]
      exact hfunded
  · exact (rearranged_setRecord hr (transferredRecord r) rfl rfl rfl).of_flow rfl

private theorem Inv.transfer (h : s.Inv) (epochNumber : ℕ) (refused : List ℕ) :
    let out := transferExistingDepositsToHostZones s.transferKeeper epochNumber
      (transferReply refused [])
    (s.afterTransfers out.1 out.2).Inv ∧ Rearranged s (s.afterTransfers out.1 out.2) := by
  have hnodup : ((transferDepositRecords s.transferKeeper.depositRecords epochNumber).map
      DepositRecord.id).Nodup :=
    (nodup_map_key_values _).sublist (filter_sublist.map _)
  have hread : ∀ r ∈ transferDepositRecords s.transferKeeper.depositRecords epochNumber,
      s.transferKeeper.depositRecords.get? r.id = some r ∧ r.status = .transferQueue := by
    intro r hr
    obtain ⟨hmem, hprop⟩ := mem_filter.mp hr
    exact ⟨mem_values_iff.mp hmem, (of_decide_eq_true hprop).1⟩
  have hnil : s.afterTransfers s.transferKeeper [] = s := by
    unfold afterTransfers
    rw [append_nil]
    rfl
  -- one turn at a time, on the records as the turns before left them
  refine (foldl_rule (fun p : TransferKeeper × List NativeTransfer => p.1.depositRecords)
    (f := fun p r =>
      let out := transferDepositRecord p.1 epochNumber (transferReply refused [] r.id) r
      (out.1, p.2 ++ out.2))
    (P := fun p => (p.1.hostZones = s.hostZones ∧ p.1.settings = s.settings) ∧
      (s.afterTransfers p.1 p.2).Inv ∧ Rearranged s (s.afterTransfers p.1 p.2))
    (fun p r id hid => get?_transferDepositRecord_of_ne p.1 epochNumber _ r hid) ?_ hnodup
    (s := (s.transferKeeper, [])) (fun r hr => (hread r hr).1) ⟨⟨rfl, rfl⟩, ?_⟩).2
  · rintro ⟨k, transfers⟩ r hr ⟨⟨hzones, hsettings⟩, hinv, hrearranged⟩ hstored
    dsimp only at hzones hsettings hinv hrearranged hstored ⊢
    have hreply : transferReply refused [] r.id ≠ .failed := by
      unfold transferReply
      split
      · rename_i hmem
        cases hmem
      · split <;> simp
    have hstatus := (hread r hr).2
    obtain heq | ⟨hempty, heq⟩ | ⟨z, hz, heq⟩ :=
      transferDepositRecord_cases k epochNumber hreply r
    · rw [heq, append_nil]
      exact ⟨⟨hzones, hsettings⟩, hinv, hrearranged⟩
    · rw [heq, append_nil]
      obtain ⟨hinv', hrearranged'⟩ := hinv.deleteEmpty hstored hstatus hempty
      exact ⟨⟨hzones, hsettings⟩, hinv', hrearranged.trans hrearranged'⟩
    · rw [hzones] at hz
      obtain ⟨hinv', hrearranged'⟩ := hinv.sendTransfer hstored hstatus hz
      rw [hsettings] at heq
      rw [heq]
      unfold afterTransfers at hinv' hrearranged' ⊢
      rw [← append_assoc]
      exact ⟨⟨hzones, rfl⟩, hinv', hrearranged.trans hrearranged'⟩
  · rw [hnil]
    exact ⟨h, .refl s⟩

private theorem Inv.transferAck (h : s.Inv) (ht : s.transfers[i]? = some t)
    {records : DepositRecordStore}
    (hcallback : transferCallback s.flow.keeper.depositRecords t.depositRecordId status =
      .ok records) : let s' := { s with
      flow := s.flow.withDeposits records
      bank := if status = .success then s.bank else s.bank.addCoins t.msg.sender t.msg.token
      transfers := s.transfers.eraseIdx i }
    s'.Inv ∧ Rearranged s s' := by
  obtain ⟨hi, rfl⟩ := List.getElem?_eq_some_iff.mp ht
  obtain ⟨r, hr, hstatus, hsender, htoken⟩ := h.transferring _ (getElem_mem hi)
  have hid : r.id = s.transfers[i].depositRecordId := key_of_get? hr
  have hstored : s.flow.keeper.depositRecords.get? s.transfers[i].depositRecordId = some r := hr
  unfold transferCallback at hcallback
  rw [hstored] at hcallback
  cases hcallback
  rw [← hid] at hr
  have hhost : ¬ r.onHost := not_onHost_of_status (.inr hstatus)
  have hperm := getElem_cons_eraseIdx_perm hi
  have hdistinct := (hperm.map NativeTransfer.depositRecordId).nodup_iff.mpr h.distinct
  rw [map_cons, nodup_cons] at hdistinct
  refine ⟨⟨?_, fun u hu => ?_, hdistinct.2, fun c hc => ?_, h.accounts⟩, ?_⟩
  · exact h.depositsInv_setRecord hr hhost { r with status := statusAfterTransfer status } rfl rfl
      rfl (h.deposits.nonneg r.id r hr)
  · have hne : u.depositRecordId ≠ r.id := by
      rw [hid]
      exact fun heq => hdistinct.1 (heq ▸ mem_map_of_mem hu)
    exact (h.transferring u (mem_of_mem_eraseIdx hu)).setRecord hne
  · -- a record that comes back to the queue comes with its coins
    have hqueued := queued_setRecord hr { r with status := statusAfterTransfer status } rfl c
    rw [queuedAmount_of_status_ne (by simp [hstatus]), sub_zero] at hqueued
    have hfunded : s.queued c ≤ _ := h.funded c hc
    show (s.setRecord { r with status := statusAfterTransfer status }).queued c ≤
      (if status = .success then s.bank
        else s.bank.addCoins s.transfers[i].msg.sender s.transfers[i].msg.token).balance
        (s.settings c).depositAddress (s.settings c).ibcDenom
    rw [hqueued]
    by_cases hsuccess : status = .success
    · rw [if_pos hsuccess, queuedAmount_of_status_ne (by simp [hsuccess, statusAfterTransfer]),
        add_zero]
      exact hfunded
    · have hback : statusAfterTransfer status = .transferQueue := by
        cases status with
        | success => exact absurd rfl hsuccess
        | failure => rfl
        | timeout => rfl
      rw [if_neg hsuccess, queuedAmount_of_status (r := { r with
        status := statusAfterTransfer status }) hback, Bank.balance_addCoins, hsender, htoken]
      apply add_le_add hfunded
      unfold zoneAmount
      have hnonneg := h.deposits.nonneg r.id r hr
      by_cases hcr : r.hostZoneId = c
      · rw [if_pos hcr, hcr, if_pos ⟨rfl, rfl⟩]
      · rw [if_neg hcr]
        split
        · exact hnonneg
        · exact le_rfl
  · exact (rearranged_setRecord hr { r with status := statusAfterTransfer status } rfl rfl
      rfl).of_flow rfl

end Transfers

/-! ### Delegations -/

section Delegations

variable {s : DepositSystem} {f : DelegationSystem}

private theorem Inv.withFlow (h : s.Inv) (hdeposits : f.DepositsInv)
    (htouch : ∀ id, f.records id = s.records id ∨ ∃ r, s.records id = some r ∧ r.onHost)
    (hqueued : ∀ c, (f.keeper.depositRecords.values.map (queuedAmount c)).sum = s.queued c)
    (hzones : ∀ c, (f.keeper.hostZones.get? c).isSome = (s.hostZones.get? c).isSome) :
    Inv { s with flow := f } := by
  have hregistered (c : String) (hc : Registered { s with flow := f } c) : s.Registered c :=
    (hzones c).symm.trans hc
  refine ⟨hdeposits, fun t ht => ?_, h.distinct, fun c hc => ?_, fun c c' hc hc' => ?_⟩
  · obtain ⟨r, hr, hstatus, hrest⟩ := h.transferring t ht
    rcases htouch t.depositRecordId with hsame | ⟨q, hq, hhost⟩
    · exact ⟨r, hsame.trans hr, hstatus, hrest⟩
    · rw [hr] at hq
      cases hq
      exact absurd hhost (not_onHost_of_status (.inr hstatus))
  · unfold Funded
    rw [queued_eq]
    exact (hqueued c).le.trans (h.funded c (hregistered c hc))
  · exact h.accounts c c' (hregistered c hc) (hregistered c' hc')

private theorem Inv.stake (h : s.Inv) {epochNumber : ℕ} {rejected : List (ℕ × ℕ)}
    (hok : s.flow.WholeSubmissions (.stake epochNumber rejected)) :
    let s' := { s with flow := s.flow.stake epochNumber rejected }
    s'.Inv ∧ Rearranged s s' := by
  have heffect := DelegationSystem.stakeEffect_stake (f := s.flow) hok.1 epochNumber
  -- only records on the host are staked
  have htouch (id : ℕ) : (s.flow.stake epochNumber rejected).records id = s.records id ∨
      ∃ r, s.records id = some r ∧ r.onHost := by
    rcases heffect.records id with hsame | ⟨r, -, hr, hhost, -⟩
    · exact .inl hsame
    · exact .inr ⟨r, hr, hhost⟩
  constructor
  · refine h.withFlow (h.deposits.delegation hok rfl htouch) htouch (fun c => ?_) fun c => ?_
    · rw [queued_eq]
      apply heffect.sums
      intro n r hstatus
      rw [queuedAmount_of_onHost (.inl hstatus), queuedAmount_of_onHost (.inr rfl)]
    · have htotal := congrArg Option.isSome (heffect.totals c)
      simpa [DelegationSystem.totalOf, hostZones] using htotal
  · refine ⟨fun c => heffect.sums _ fun n r _ => rfl, heffect.totals, fun id n hn => .inr ?_⟩
    rw [← hn]
    rcases heffect.records id with hsame | ⟨r, r', hr, -, hr', hamount⟩
    · exact congrArg _ hsame
    · show (DelegationSystem.records _ id).map _ = (s.flow.records id).map _
      rw [hr, hr', Option.map_some, Option.map_some, hamount]

private theorem Inv.delegateAck (h : s.Inv) (hack : s.flow.acknowledge i status = some f) :
    Inv { s with flow := f } ∧ Conserves s (.delegateAck i status) { s with flow := f } := by
  obtain ⟨p, rest, hp, hat⟩ := DelegationSystem.acknowledge_cases hack
  obtain ⟨r, z, z', hacked⟩ := delegateCallback_ok hat.callback
  have hr : s.records p.recordId = some r := hacked.foundRecord
  have hmem : p ∈ s.flow.sent := mem_of_getElem? hp
  have hzone : r.hostZoneId = p.zone := h.deposits.once.counter.zones p hmem r hr
  have hhost : r.onHost := by
    by_contra hnot
    exact hacked.inProgress (h.deposits.early p.recordId r hr hnot)
  have hrecords (id : ℕ) : f.records id =
      if id = p.recordId then ackedRecord p.tx.callback status r else s.records id :=
    hacked.depositRecords id
  have htouch (id : ℕ) : f.records id = s.records id ∨ ∃ r, s.records id = some r ∧ r.onHost := by
    rw [hrecords]
    split
    · rename_i hid
      exact .inr ⟨r, hid ▸ hr, hhost⟩
    · exact .inl rfl
  have hafter {q : DepositRecord} (hq : ackedRecord p.tx.callback status r = some q) :
      q.onHost := (DelegationSystem.amount_of_ackedRecord hq hhost).1
  constructor
  · have hdeposits : f.DepositsInv :=
      h.deposits.delegation (l := .ack i status) trivial hack htouch
    refine h.withFlow hdeposits htouch (fun c => ?_) fun c => ?_
    · rw [hacked.sum_values, queuedAmount_of_onHost hhost, sub_zero, queued_eq]
      cases hq : ackedRecord p.tx.callback status r with
      | none => rw [Option.elim_none, add_zero]
      | some q => rw [Option.elim_some, queuedAmount_of_onHost (hafter hq), add_zero]
    · have htotal := congrArg Option.isSome (hacked.totalDelegations c)
      simpa [hostZones] using htotal
  · refine ⟨fun c => ?_, fun id q hq hnone => ?_⟩
    · -- what leaves the records of the zone is what its delegations gain
      apply locked_of_sum
      have hdeposits : depositsOf { s with flow := f } c =
          s.depositsOf c -
            if r.hostZoneId = c then delegatedAmount p.tx.callback status else 0 := by
        have hsum := hacked.sum_values (zoneAmount c)
        rw [amount_ackedRecord] at hsum
        show (f.keeper.depositRecords.values.map (zoneAmount c)).sum = _
        unfold depositsOf
        omega
      have htotal : (f.totalOf c).getD 0 = (s.flow.totalOf c).getD 0 +
          if r.hostZoneId = c then delegatedAmount p.tx.callback status else 0 := by
        have htotals : f.totalOf c = _ := hacked.totalDelegations c
        rw [htotals, hzone]
        unfold DelegationSystem.totalOf
        cases hget : s.flow.keeper.hostZones.get? c with
        | some w => rfl
        | none =>
          have hne : p.zone ≠ c := by
            rintro rfl
            have hfound : s.flow.keeper.hostZones.get? p.zone = some z := hacked.foundZone
            rw [hget] at hfound
            cases hfound
          rw [if_neg hne]
          rfl
      have hstaked : s.stakedBy (.delegateAck i status) c = 0 := rfl
      rw [htotal]
      omega
    · replace hnone : f.records id = none := hnone
      rw [hrecords] at hnone
      have hdelegated : s.delegatedBy (.delegateAck i status) id =
          if p.recordId = id then delegatedAmount p.tx.callback status else 0 := by
        simp only [delegatedBy, hp]
      rw [hdelegated]
      split at hnone
      · rename_i hid
        rw [hid, hr] at hq
        cases hq
        rw [if_pos hid.symm]
        have hamount := amount_ackedRecord p.tx.callback status r r.hostZoneId
        rw [hnone, zoneAmount, if_pos rfl, if_pos rfl] at hamount
        exact hamount.symm
      · rw [hq] at hnone
        cases hnone

end Delegations

/-! ## Conservation -/

/-- **Step**: every event keeps the invariant and conserves value. -/
theorem Inv.step {s : DepositSystem} (h : s.Inv) (hok : s.SubmitsWhole l)
    (hs : s.step l = some s') :
    s'.Inv ∧ Conserves s l s' := by
  -- all events but two stake nothing and delegate nothing
  have hquiet (hboth : s'.Inv ∧ Rearranged s s') (hstaked : ∀ c, s.stakedBy l c = 0)
      (hdelegated : ∀ id, s.delegatedBy l id = 0) : s'.Inv ∧ Conserves s l s' :=
    ⟨hboth.1, hboth.2.conserves hstaked hdelegated⟩
  cases l with
  | liquidStake msg =>
    dsimp only [step] at hs
    split at hs
    · cases hs
    rename_i haccount
    obtain ⟨⟨k, coin⟩, hliquid, rfl⟩ := toOption_map_eq_some.mp hs
    obtain ⟨z, r, hstaked⟩ := liquidStake_ok hliquid
    have hrecords : k.depositRecords =
        s.flow.keeper.depositRecords.set (stakedDeposit r msg.amount) :=
      congrArg LiquidStakeKeeper.depositRecords hstaked.keeper
    rw [hrecords]
    exact ⟨h.liquidStake haccount hstaked, conserves_liquidStake hstaked⟩
  | startEpoch epochNumber =>
    cases hs
    obtain ⟨hinv, hrearranged⟩ := h.createDepositRecords epochNumber
    exact hquiet ⟨⟨hinv.deposits, hinv.transferring, hinv.distinct, hinv.funded, hinv.accounts⟩,
      ⟨hrearranged.deposits, hrearranged.totals, hrearranged.amounts⟩⟩ (fun _ => rfl) fun _ => rfl
  | transfer epochNumber refused failed =>
    have hfailed : failed = [] := hok
    subst hfailed
    cases hs
    exact hquiet (h.transfer epochNumber refused) (fun _ => rfl) fun _ => rfl
  | transferAck i status =>
    dsimp only [step] at hs
    split at hs
    · cases hs
    rename_i t ht
    obtain ⟨records, hcallback, rfl⟩ := toOption_map_eq_some.mp hs
    exact hquiet (h.transferAck ht hcallback) (fun _ => rfl) fun _ => rfl
  | stake epochNumber rejected =>
    cases hs
    exact hquiet (h.stake hok) (fun _ => rfl) fun _ => rfl
  | delegateAck i status =>
    obtain ⟨f, hack, rfl⟩ := Option.map_eq_some_iff.mp hs
    exact h.delegateAck hack
  | channel chainId isOpen =>
    cases hs
    have honce := h.deposits.once
    have hcounter : DelegationSystem.CounterInv
        { s.flow with isOpen := Function.update s.flow.isOpen chainId isOpen } :=
      ⟨honce.counter.ids, honce.counter.sentIds, honce.counter.channels, honce.counter.zones,
        honce.counter.counters⟩
    refine hquiet ⟨⟨⟨⟨hcounter, honce.pending, honce.nonneg, honce.changes⟩, h.deposits.early,
      h.deposits.nonneg, h.deposits.within⟩, h.transferring, h.distinct, h.funded, h.accounts⟩,
      ⟨fun _ => rfl, fun _ => rfl, fun _ _ hn => .inr hn⟩⟩ (fun _ => rfl) fun _ => rfl

/-- **Value locked**: in every run without partial submissions, no record has a negative amount,
    the deposit accounts hold what is queued for transfer, and every further event adds what it
    stakes to the value locked, and removes a record only when nothing is left of it. -/
theorem value_locked_conserved {s₀ s : DepositSystem} (hstart : s₀.Started)
    (hrun : Reaches step SubmitsWhole s₀ s) :
    (∀ id r, s.records id = some r → 0 ≤ r.amount) ∧
    (∀ c z, s.hostZones.get? c = some z →
      s.queued c ≤ s.bank.balance (s.settings c).depositAddress (s.settings c).ibcDenom) ∧
    (∀ l s', s.SubmitsWhole l → s.step l = some s' → Conserves s l s') := by
  have hinv : s.Inv := hrun.invariant hstart.inv fun _ _ _ hi hok hs => (hi.step hok hs).1
  refine ⟨hinv.deposits.nonneg, fun c z hz => ?_, fun l s' hok hs => (hinv.step hok hs).2⟩
  exact hinv.funded c (Option.isSome_iff_exists.mpr ⟨z, hz⟩)

/-! ## A deposit that is sent again -/

end DepositSystem

/-- Two validators with weights 3 and 1. -/
def tiltedZone : HostZone :=
  { twoValidatorZone with
    validators :=
      [⟨"val1", "val1", 3, 200, LegacyDec.one, 0, false⟩,
        ⟨"val2", "val2", 1, 200, LegacyDec.one, 0, false⟩] }

/-- No deposits, and a user with 1000 native tokens. -/
def noDeposits : DepositSystem where
  flow :=
    { keeper :=
        { hostZones := empty.set tiltedZone
          depositRecords := empty
          depositRecordCount := 0
          epochUnbondingRecords := EpochUnbondingStore.empty }
      channel := fun _ => 0
      isOpen := fun _ => true
      sent := [] }
  params := ⟨90, 150⟩
  settings := fun _ => plainSettings "cosmos" "deposit"
  strideEpoch := none
  bank := ⟨fun a d => if a = "user" ∧ d = "ibc/uatom" then 1000 else 0, fun _ => 400⟩
  transfers := []

private theorem get?_noDeposits {z : HostZone} (h : noDeposits.hostZones.get? c = some z) :
    c = "host" ∧ z = tiltedZone := by
  have hget : (empty.set tiltedZone : HostZoneStore).get? c = some z := h
  rw [get?_set] at hget
  split at hget
  · rename_i hc
    cases hget
    exact ⟨hc, rfl⟩
  · cases hget

private theorem noDeposits_started : noDeposits.Started where
  flow :=
    { started :=
        { sent := rfl
          ids := fun _ _ h => by cases h
          counters := fun _ _ h => by cases h }
      changes := by
        intro c z hz a n hn
        obtain ⟨-, rfl⟩ := get?_noDeposits hz
        obtain ⟨v, hv, rfl⟩ := Option.map_eq_some_iff.mp hn
        have hall : ∀ v ∈ tiltedZone.validators, 0 ≤ v.delegationChangesInProgress := by decide
        exact hall v (mem_of_find?_eq_some hv) }
  nonneg _ _ h := by cases h
  transfers := rfl
  funded _ _ := le_rfl
  accounts c c' hc hc' _ := by
    obtain ⟨z, hz⟩ := Option.isSome_iff_exists.mp hc
    obtain ⟨z', hz'⟩ := Option.isSome_iff_exists.mp hc'
    exact (get?_noDeposits hz).1.trans (get?_noDeposits hz').1.symm

namespace DepositSystem

/-- A deposit of 200 reaches the host. The second batch of its delegation is rejected, and the
    next epoch sends both batches again. Then both submissions of the first batch succeed. -/
def resentDeposit : List DepositEvent :=
  [.startEpoch 1, .liquidStake ⟨"user", 200, "uatom"⟩, .transfer 2 [] [], .transferAck 0 .success,
    .stake 2 [(0, 1)], .stake 3 [], .delegateAck 0 .success, .delegateAck 1 .success]

/-- **Negative amount**: the first batch of 150 is taken off the deposit of 200 twice. -/
theorem resent_deposit_negative :
    noDeposits.Started ∧
    ((runSteps step noDeposits resentDeposit).bind fun s =>
      (s.records 0).map fun r => (r.amount, r.status)) = some (-100, .delegationInProgress) := by
  refine ⟨noDeposits_started, ?_⟩
  decide +kernel

/-- A transfer that is refused, one that times out, one that arrives, and a delegation of which
    one batch fails and is sent again after the other was delegated. -/
def retriedDeposit : List DepositEvent :=
  [.startEpoch 1, .liquidStake ⟨"user", 200, "uatom"⟩, .transfer 2 [0] [], .startEpoch 2,
    .transfer 3 [] [], .startEpoch 3, .transferAck 0 .timeout,
    .liquidStake ⟨"user", 40, "uatom"⟩,
    .transfer 4 [] [], .transferAck 0 .success, .stake 4 [(0, 0)], .stake 5 [],
    .delegateAck 0 .failure, .delegateAck 1 .success, .stake 6 []]

theorem value_locked_conserved_retriedDeposit :
    ∃ s, runAllowed step SubmitsWhole noDeposits retriedDeposit = some s ∧
      s.flow.sent.length = 4 ∧ s.queued "host" = 0 ∧
      s.nativeTokensLocked "host" = LegacyDec.fromInt 640 ∧
      (∀ id r, s.records id = some r → 0 ≤ r.amount) ∧
      Conserves s (.channel "host" false)
        { s with flow :=
          { s.flow with isOpen := Function.update s.flow.isOpen "host" false } } := by
  refine exists_run_end (by decide +kernel) ⟨by decide +kernel, by decide +kernel,
    by decide +kernel, ?_⟩
  obtain ⟨hnonneg, -, hstep⟩ := value_locked_conserved noDeposits_started (.of_get _)
  exact ⟨hnonneg, hstep (.channel "host" false) _ trivial rfl⟩

end DepositSystem

end Stride.Stakeibc
