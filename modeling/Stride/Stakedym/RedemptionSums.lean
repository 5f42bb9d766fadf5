import Stride.Stakedym.UnbondingBook

/-!
# Redemptions Add Up

Along every run of the stakedym module the redemption records add up to their unbonding
records, and the escrow account holds the stTokens of the unbondings that are not confirmed.

A redemption moves stTokens from the redeemer to the escrow account, and nothing compares the
two accounts: for a redemption by the escrow account itself the records grow, but the escrow
account does not. All runs without such a redemption keep the invariant.
-/

namespace Stride.Stakedym

open Lib Sdk KeyedStore Keeper

namespace System

/-! ## Definitions -/

/-- The state in which the module starts: a single accumulating record, which is empty. The ids
    of the records are epochs that are over. -/
structure EmptyStart (s : System) : Prop where
  record : ∃ r, s.keeper.unbondingRecords.values = [r] ∧ r.status = .accumulatingRedemptions ∧
    r.stTokenAmount = 0 ∧ r.nativeAmount = 0 ∧ r.id ≤ s.lastEpoch
  archived : ∀ id r, s.keeper.archivedUnbondingRecords.get? id = some r → id ≤ s.lastEpoch
  redemptions : s.keeper.redemptionRecords.values = []
  payments : s.payments = []
  packets : s.NativePackets
  balances : ∀ a d, 0 ≤ s.keeper.bank.balance a d
  delegated : 0 ≤ s.keeper.hostZone.delegatedBalance

/-- The escrow account is neither the redeemer nor the sender of coins. -/
def EscrowUntouched (accounts : Accounts) (s : System) : Event → Prop
  | .redeemStake redeemer _ => ∀ a, accounts.accAddressFromBech32 redeemer = .ok a →
      accounts.accAddressFromBech32 s.keeper.hostZone.redemptionAddress ≠ .ok a
  | .send sender _ _ =>
      accounts.accAddressFromBech32 s.keeper.hostZone.redemptionAddress ≠ .ok sender
  | _ => True

instance (accounts : Accounts) (s : System) (e : Event) :
    Decidable (EscrowUntouched accounts s e) := by
  apply @Event.casesOn _ e <;> intros <;> dsimp only [EscrowUntouched] <;> infer_instance

/-- The books are right, and if `held`, the escrow account holds what they say. -/
structure SumsInv (accounts : Accounts) (held : Prop) (s : System) : Prop where
  book : BookInv s.keeper s.lastEpoch s.payments
  packets : s.NativePackets
  escrow : held → ∀ a, accounts.accAddressFromBech32 s.keeper.hostZone.redemptionAddress = .ok a →
    escrowedStTokens s.keeper.unbondingRecords ≤
      s.keeper.bank.balance a s.keeper.hostZone.stDenom
  delegated : 0 ≤ s.keeper.hostZone.delegatedBalance

/-- The payments `paid` of one step: each is for a redemption record, which is then gone, and no
    other record goes. -/
structure PaysExactly (accounts : Accounts) (s s' : System) (paid : List Payment) : Prop where
  log : s'.payments = s.payments ++ paid
  records : ∀ p ∈ paid, ∃ r, s.keeper.redemptionRecords.get? (paymentKey p) = some r ∧
    Pays accounts r p
  removed : ∀ key r, s.keeper.redemptionRecords.get? key = some r →
    (s'.keeper.redemptionRecords.get? key = none ↔ key ∈ paid.map paymentKey)
  out : paid ≠ [] → ∃ claimAccount,
    accounts.accAddressFromBech32 s.keeper.hostZone.claimAddress = .ok claimAccount ∧
    PaidOut s.keeper.hostZone.nativeTokenIbcDenom claimAccount s.keeper.bank
      s'.keeper.bank paid

/-- What one event keeps, moves and pays. -/
structure SumsStep (accounts : Accounts) (held : Prop) (s s' : System) : Prop where
  inv : SumsInv accounts held s'
  forward : MovesForward s.keeper s'.keeper
  pays : ∃ paid, PaysExactly accounts s s' paid

variable {accounts : Accounts} {s s' : System} {held : Prop}

/-! ## The events -/

private theorem PaysExactly.of_keeps (hlog : s'.payments = s.payments)
    (hkeeps : ∀ key r, s.keeper.redemptionRecords.get? key = some r →
      s'.keeper.redemptionRecords.get? key ≠ none) : PaysExactly accounts s s' [] where
  log := by rw [hlog, List.append_nil]
  records := by simp
  removed := by
    intro key r hr
    simpa using hkeeps key r hr
  out := fun h => absurd rfl h

private theorem PaysExactly.of_same (hlog : s'.payments = s.payments)
    (hsame : s'.keeper.redemptionRecords = s.keeper.redemptionRecords) :
    PaysExactly accounts s s' [] := by
  refine .of_keeps hlog ?_
  intro key r hr
  rw [hsame, hr]
  exact Option.some_ne_none r

private theorem stDenom_of_setup {hostZone hostZone' : HostZone}
    (h : hostZone'.setup = hostZone.setup) :
    hostZone'.stDenom = hostZone.stDenom := by
  have hdenom : hostZone'.nativeTokenDenom = hostZone.nativeTokenDenom :=
    congrArg ZoneSetup.nativeTokenDenom h
  unfold HostZone.stDenom
  rw [hdenom]

theorem bookInv_of_emptyStart (h : EmptyStart s) : BookInv s.keeper s.lastEpoch s.payments := by
  obtain ⟨r, hvalues, hstatus, hst, hnative, hid⟩ := h.record
  -- at the start there is one record, and no redemption
  have hget : ∀ id r', s.keeper.unbondingRecords.get? id = some r' → r' = r ∧ id = r.id := by
    intro id r' hr'
    have hkey : r'.id = id := key_of_get? hr'
    subst hkey
    have hmem : r' ∈ s.keeper.unbondingRecords.values := mem_values_iff.mpr hr'
    rw [hvalues, List.mem_singleton] at hmem
    exact ⟨hmem, congrArg UnbondingRecord.id hmem⟩
  have htotal (f : RedemptionRecord → ℤ) (id : ℕ) : s.keeper.redemptionTotal f id = 0 := by
    unfold redemptionTotal getRedemptionRecordsFromUnbondingId
    rw [h.redemptions]
    rfl
  constructor
  case accumulating =>
    refine ⟨r, ?_⟩
    unfold getAllUnbondingRecordsByStatus
    rw [hvalues]
    simp [hstatus]
  case ids =>
    intro id r' hr'
    rw [(hget id r' hr').2]
    exact hid
  case archivedIds => exact h.archived
  case redemptions =>
    intro key rr hrr
    have hkey : rr.key = key := key_of_get? hrr
    subst hkey
    have hmem := mem_values_iff.mpr hrr
    rw [h.redemptions] at hmem
    cases hmem
  case sums =>
    intro id r' hr'
    rw [htotal, htotal, (hget id r' hr').1]
    exact ⟨hst, hnative⟩
  case rates =>
    intro id r' hr' hfrozen
    rw [(hget id r' hr').1] at hfrozen
    exact absurd hstatus hfrozen
  case paidGone =>
    rw [h.payments]
    simp
  case paidOnce =>
    rw [h.payments]
    exact List.nodup_nil

variable {e : Event} {lastEpoch : ℕ} {amount : ℤ}

namespace SumsInv

variable {k' : Keeper}

private theorem of_emptyStart (h : EmptyStart s) : SumsInv accounts held s := by
  refine ⟨bookInv_of_emptyStart h, h.packets, ?_, h.delegated⟩
  intro _ a _
  obtain ⟨r, hvalues, hstatus, hst, -⟩ := h.record
  have hzero : escrowedStTokens s.keeper.unbondingRecords = 0 := by
    unfold escrowedStTokens recordTotal
    rw [hvalues]
    simp [InEscrow, hstatus, hst]
  rw [hzero]
  exact h.balances a _

private theorem of_parts (h : SumsInv accounts held s) {payments : List Payment}
    (hsetup : k'.hostZone.setup = s.keeper.hostZone.setup) (hbook : BookInv k' lastEpoch payments)
    (hescrow : held → ∀ a,
      accounts.accAddressFromBech32 s.keeper.hostZone.redemptionAddress = .ok a →
      escrowedStTokens k'.unbondingRecords ≤
        k'.bank.balance a s.keeper.hostZone.stDenom)
    (hdelegated : 0 ≤ k'.hostZone.delegatedBalance) :
    SumsInv accounts held
      { s with keeper := k', lastEpoch := lastEpoch, payments := payments } where
  book := hbook
  packets := by
    intro packet hp
    show packet.token.1 = k'.hostZone.setup.nativeTokenIbcDenom
    rw [hsetup]
    exact h.packets packet hp
  escrow := by
    have haddress : k'.hostZone.redemptionAddress = s.keeper.hostZone.redemptionAddress :=
      congrArg ZoneSetup.redemptionAddress hsetup
    rw [haddress, stDenom_of_setup hsetup]
    exact hescrow
  delegated := hdelegated

variable {claimAccount escrowAccount : String} {record record' : UnbondingRecord} {recordId : ℕ}

private theorem escrowedStTokens_set {records : UnbondingRecordStore}
    (hstored : records.get? record'.id = some record) :
    escrowedStTokens (records.set record') = escrowedStTokens records -
      partOf InEscrow (·.stTokenAmount) record +
        partOf InEscrow (·.stTokenAmount) record' :=
  recordTotal_set_of_get? InEscrow (·.stTokenAmount) hstored

section

variable (h : SumsInv accounts held s)

include h

/-- **A redemption**: records and escrow account grow by the same amount. -/
theorem redeemed {redeemer account : String}
    (hr : RedeemedStake accounts s.keeper k' redeemer amount escrowAccount account record)
    (hne : held → account ≠ escrowAccount) : SumsStep accounts held s { s with keeper := k' } := by
  obtain ⟨hstored, hstatus, -⟩ := accumulating_iff.mp hr.accumulating
  have hkeeper := hr.keeper
  generalize k'.bank = bank at hkeeper
  set record' : UnbondingRecord := { record with
    stTokenAmount := record.stTokenAmount + amount
    nativeAmount := record.nativeAmount +
      nativeTokensAt s.keeper.hostZone.redemptionRate amount } with hrecord'
  subst hkeeper
  have hstored' : s.keeper.unbondingRecords.get? record'.id = some record := hstored
  refine ⟨h.of_parts rfl (h.book.redeemed hr) ?_ h.delegated, .of_set hstored' le_rfl rfl rfl, [],
    .of_keeps rfl ?_⟩
  · intro hheld a ha
    obtain rfl : escrowAccount = a := Except.ok.inj (hr.escrow.symm.trans ha)
    -- both sides grow by the amount that was redeemed
    have hold : partOf InEscrow (·.stTokenAmount) record = record.stTokenAmount :=
      if_pos (.inl hstatus)
    have hnew : partOf InEscrow (·.stTokenAmount) record' =
        record.stTokenAmount + amount := if_pos (.inl hstatus)
    have hbound := h.escrow hheld escrowAccount ha
    rw [escrowedStTokens_set hstored', hnew, Bank.balance_sendCoins hr.sent, if_neg (fun
      heq => hne hheld heq.1.symm), if_pos ⟨rfl, rfl⟩]
    omega
  · intro key rr hrr
    rw [get?_set]
    split
    · exact Option.some_ne_none _
    · rw [hrr]
      exact Option.some_ne_none _

private theorem prepared {epochNumber : ℕ}
    (hp : PreparedUndelegation s.keeper k' epochNumber record)
    (hlt : s.lastEpoch < epochNumber) :
    SumsStep accounts held s { s with keeper := k', lastEpoch := epochNumber } := by
  obtain ⟨hstored, -, -⟩ := accumulating_iff.mp hp.accumulating
  have hzone : k'.hostZone = s.keeper.hostZone := by rw [hp.frame]
  have hbank : k'.bank = s.keeper.bank := by rw [hp.frame]
  refine ⟨h.of_parts (by rw [hzone]) (h.book.prepared hp hlt) ?_ (by rw [hzone]; exact h.delegated),
    hp.movesForward h.book.archivedIds hlt, [], .of_keeps rfl ?_⟩
  · intro hheld a ha
    rw [hbank]
    exact (hp.escrowedStTokens_le (h.book.nonneg _ record hstored)).trans (h.escrow hheld a ha)
  · intro key rr hrr
    rw [hp.redemptionRecords, get?_mapValues, hrr]
    exact Option.some_ne_none _

/-- **A confirmed unbonding** burns what its record had in escrow. -/
theorem confirmedUndelegation
    (hc : ConfirmedUndelegation accounts s.keeper k' recordId escrowAccount record) :
    SumsStep accounts held s { s with keeper := k' } := by
  obtain ⟨txHash, time, hkeeper⟩ := hc.keeper
  generalize k'.bank = bank at hkeeper
  set record' : UnbondingRecord := { record with
    undelegationTxHash := txHash
    status := .unbondingInProgress
    unbondingCompletionTimeSeconds := time } with hrecord'
  subst hkeeper
  have hid : record.id = recordId := key_of_get? hc.stored
  have hstored : s.keeper.unbondingRecords.get? record'.id = some record := hid ▸ hc.stored
  refine ⟨h.of_parts rfl (h.book.undelegated hc) ?_ hc.delegated,
    .of_set hstored (by rw [hc.queued]; exact Nat.le_succ 1) rfl rfl, [], .of_same rfl rfl⟩
  intro hheld a ha
  obtain rfl : escrowAccount = a := Except.ok.inj (hc.escrow.symm.trans ha)
  -- the tokens of the record are burned, and it is not counted any more
  have hold : partOf InEscrow (·.stTokenAmount) record = record.stTokenAmount :=
    if_pos (.inr hc.queued)
  have hnew : partOf InEscrow (·.stTokenAmount) record' = 0 :=
    if_neg (by simp [InEscrow, record'])
  rw [escrowedStTokens_set hstored, hold, hnew, hc.balance, if_pos ⟨rfl, rfl⟩, add_zero]
  exact sub_le_sub_right (h.escrow hheld escrowAccount ha) _

private theorem confirmedSweep
    (hc : ConfirmedSweep accounts s.keeper k' recordId claimAccount record) :
    SumsStep accounts held s { s with keeper := k' } := by
  obtain ⟨txHash, hkeeper⟩ := hc.keeper
  set record' : UnbondingRecord := { record with
    status := .claimable
    unbondedTokenSweepTxHash := txHash } with hrecord'
  subst hkeeper
  have hid : record.id = recordId := key_of_get? hc.stored
  have hstored : s.keeper.unbondingRecords.get? record'.id = some record := hid ▸ hc.stored
  refine ⟨h.of_parts rfl (h.book.swept hc) ?_ h.delegated,
    .of_set hstored (by rw [hc.unbonded]; exact Nat.le_succ 3) rfl rfl, [], .of_same rfl rfl⟩
  intro hheld a ha
  have hold : partOf InEscrow (·.stTokenAmount) record = 0 :=
    if_neg (by simp [InEscrow, hc.unbonded])
  have hnew : partOf InEscrow (·.stTokenAmount) record' = 0 :=
    if_neg (by simp [InEscrow, record'])
  rw [escrowedStTokens_set hstored, hold, hnew, sub_zero, add_zero]
  exact h.escrow hheld a ha

private theorem finished (now : ℤ) :
    SumsStep accounts held s { s with keeper := s.keeper.markFinishedUnbondings now } := by
  have hkeeper := markFinishedUnbondings_eq s.keeper now
  have hzone : (s.keeper.markFinishedUnbondings now).hostZone = s.keeper.hostZone := by
    rw [hkeeper]
  have hbank : (s.keeper.markFinishedUnbondings now).bank = s.keeper.bank := by rw [hkeeper]
  refine ⟨h.of_parts (by rw [hzone]) (h.book.finished now) ?_ (by rw [hzone]; exact h.delegated),
    movesForward_finished s.keeper now, [], .of_same rfl (by rw [hkeeper])⟩
  intro hheld a ha
  rw [escrowedStTokens_finished, hbank]
  exact h.escrow hheld a ha

end

private theorem paysExactly_paid {paid : List Payment}
    (hclaim : accounts.accAddressFromBech32 s.keeper.hostZone.claimAddress = .ok claimAccount)
    (hp : PaidRecords accounts s.keeper.hostZone.nativeTokenIbcDenom claimAccount s.keeper
      k' (s.keeper.getAllUnbondingRecordsByStatus .claimable) paid) :
    PaysExactly accounts s { s with keeper := k', payments := s.payments ++ paid } paid where
  log := rfl
  records := by
    intro p hmem
    obtain ⟨r, -, rr, hrr, hpays⟩ := hp.exists_of_mem hmem
    refine ⟨rr, ?_, hpays⟩
    rw [hpays.key]
    exact (mem_getRedemptionRecordsFromUnbondingId.mp hrr).1
  removed := by
    intro key r hr
    rw [hp.get?_redemptionRecords, hr]
    simp
  out := fun _ => ⟨claimAccount, hclaim, hp.out⟩

section

variable (h : SumsInv accounts held s)
include h

private theorem paid {paid : List Payment}
    (hclaim : accounts.accAddressFromBech32 s.keeper.hostZone.claimAddress = .ok claimAccount)
    (hp : PaidRecords accounts s.keeper.hostZone.nativeTokenIbcDenom claimAccount s.keeper
      k' (s.keeper.getAllUnbondingRecordsByStatus .claimable) paid) :
    SumsStep accounts held s { s with keeper := k', payments := s.payments ++ paid } := by
  have hzone : k'.hostZone = s.keeper.hostZone := by rw [hp.keeper]
  refine ⟨h.of_parts (by rw [hzone]) (h.book.paid hp) ?_ (by rw [hzone]; exact h.delegated),
    hp.movesForward, paid, paysExactly_paid hclaim hp⟩
  intro hheld a ha
  -- what is paid is native tokens
  have hdenom := s.keeper.hostZone.stDenom_ne_ibcDenom
  rw [hp.escrowedStTokens_eq, hp.out a, if_neg (fun heq => hdenom heq.2), if_neg hdenom, sub_zero,
    add_zero]
  exact h.escrow hheld a ha

/-- Only the escrow account itself could take stTokens from the escrow account. -/
theorem not_takes (hok : EscrowUntouched accounts s e)
    (hstep : step accounts s e = some s') {a : String}
    (ha : accounts.accAddressFromBech32 s.keeper.hostZone.redemptionAddress = .ok a) :
    ¬ e.Takes accounts s a s.keeper.hostZone.stDenom := by
  have hdenom := s.keeper.hostZone.stDenom_ne_ibcDenom
  intro htakes
  cases e with
  | liquidStake _ _ => exact hdenom htakes.2
  | prepareDelegation _ _ => exact hdenom htakes.2
  | transferAck packet _ =>
    simp only [step] at hstep
    split at hstep
    · rename_i hmem
      -- transfers carry native tokens
      exact hdenom (htakes.2.trans (h.packets packet hmem))
    · cases hstep
  | transferTimeout packet =>
    simp only [step] at hstep
    split at hstep
    · rename_i hmem
      exact hdenom (htakes.2.trans (h.packets packet hmem))
    · cases hstep
  | send sender recipient coin =>
    obtain ⟨rfl, -⟩ := htakes
    exact hok ha
  | _ => exact htakes

private theorem quiet (hok : held → EscrowUntouched accounts s e)
    (hstep : step accounts s e = some s') (hq : QuietStep accounts s s' e) :
    SumsStep accounts held s s' := by
  have hsame := hq.unbondings
  refine ⟨?_, .of_same hsame.records hsame.archived, [], .of_same hq.payments hsame.redemptions⟩
  constructor
  case book => exact h.book.quiet hq
  case packets => exact nativePackets_of_step hstep h.packets hsame.setup
  case escrow =>
    have haddress : s'.keeper.hostZone.redemptionAddress = s.keeper.hostZone.redemptionAddress :=
      congrArg ZoneSetup.redemptionAddress hsame.setup
    rw [haddress, stDenom_of_setup hsame.setup, hsame.records]
    intro hheld a ha
    exact (h.escrow hheld a ha).trans (hq.coins a _ (h.not_takes (hok hheld) hstep ha))
  case delegated => exact hq.delegated h.delegated

/-- **One event** of the module. -/
theorem step (hok : held → EscrowUntouched accounts s e)
    (hstep : step accounts s e = some s') : SumsStep accounts held s s' := by
  cases effect_of_step hstep with
  | quiet hq => exact h.quiet hok hstep hq.quietStep
  | redeemed hr =>
    refine h.redeemed hr fun hheld => ?_
    rintro rfl
    exact hok hheld _ hr.account hr.escrow
  | prepared hlt hp => exact h.prepared hp hlt
  | undelegated hc => exact h.confirmedUndelegation hc
  | finished now => exact h.finished now
  | swept hc => exact h.confirmedSweep hc
  | paid hclaim hp => exact h.paid hclaim hp

end

/-- **A whole run** keeps the invariant. -/
theorem of_reaches {ok : System → Event → Prop} {s₀ : System}
    (hrun : Reaches (System.step accounts) ok s₀ s)
    (hok : ∀ s e, ok s e → held → EscrowUntouched accounts s e) (h₀ : EmptyStart s₀) :
    SumsInv accounts held s :=
  hrun.invariant (of_emptyStart h₀) fun s e _ h hs hstep => (h.step (hok s e hs) hstep).inv

end SumsInv

/-! ## Main result -/

/-- **Redemptions add up** in every state that is reached, and each further event moves records
    forward and pays redemption records in full. The escrow account holds the stTokens of the
    records if it was never the redeemer or the sender itself. -/
theorem redemption_records_add_up {s₀ : System} (h₀ : EmptyStart s₀)
    (hrun : Reaches (step accounts) (fun _ _ => True) s₀ s) :
    (∃ r, s.keeper.getAllUnbondingRecordsByStatus .accumulatingRedemptions = [r]) ∧
      (∀ id r, s.keeper.unbondingRecords.get? id = some r →
        r.stTokenAmount = s.keeper.redemptionTotal (·.stTokenAmount) id ∧
          r.nativeAmount = s.keeper.redemptionTotal (·.nativeAmount) id) ∧
      (Reaches (step accounts) (EscrowUntouched accounts) s₀ s →
        ∀ a, accounts.accAddressFromBech32 s.keeper.hostZone.redemptionAddress = .ok a →
          escrowedStTokens s.keeper.unbondingRecords ≤
            s.keeper.bank.balance a s.keeper.hostZone.stDenom) ∧
      0 ≤ s.keeper.hostZone.delegatedBalance ∧
      (s.payments.map paymentKey).Nodup ∧
      ∀ e s', step accounts s e = some s' →
        MovesForward s.keeper s'.keeper ∧ ∃ paid, PaysExactly accounts s s' paid := by
  have hinv : SumsInv accounts False s := .of_reaches hrun (fun _ _ _ => False.elim) h₀
  refine ⟨hinv.book.accumulating, hinv.book.sums, fun huntouched => ?_, hinv.delegated,
    hinv.book.paidOnce, ?_⟩
  · have hheld : SumsInv accounts True s := .of_reaches huntouched (fun _ _ hok _ => hok) h₀
    exact hheld.escrow trivial
  · intro e s' hstep
    have hone := hinv.step False.elim hstep
    exact ⟨hone.forward, hone.pays⟩

theorem emptyStart_genesis (hamount : 0 ≤ amount) (hepoch : 1 ≤ lastEpoch) :
    EmptyStart (genesis (userBank amount) lastEpoch) where
  record := ⟨_, rfl, rfl, rfl, rfl, hepoch⟩
  archived := fun _ _ h => by cases h
  redemptions := rfl
  payments := rfl
  packets := by
    intro packet hmem
    cases hmem
  balances := by
    intro a d
    show (0 : ℤ) ≤ if a = userAddress ∧ d = dymensionNativeTokenIBCDenom then amount else 0
    split <;> omega
  delegated := le_rfl

/-- A stake of 300000 that is delegated, and the redemption of a third of it. -/
def redeemedInFull : List Event :=
  [.liquidStake userAddress 300000, .prepareDelegation 2 (some 7),
    .transferAck (depositTransfer defaultHostZone 7 (dymensionNativeTokenIBCDenom, 300000))
      (.ok true),
    .confirmDelegation operatorAddressOnStride 2 "delegated", .redeemStake userAddress 100000,
    .prepareUndelegation 4,
    .confirmUndelegation operatorAddressOnStride 1 "undelegated" 0,
    .markFinishedUnbondings (21 * 24 * 60 * 60 + 1),
    .arrive claimAddress (dymensionNativeTokenIBCDenom, 100000),
    .confirmUnbondedTokenSweep operatorAddressOnStride 1 "swept", .distributeClaims]

theorem redemption_records_add_up_redeemedInFull :
    ∃ s, runAllowed (step knownAccounts) (EscrowUntouched knownAccounts)
        (genesis (userBank 300000) 1) redeemedInFull = some s ∧
      s.keeper.bank.balance userAddress dymensionNativeTokenIBCDenom = 100000 ∧
      (∃ r, s.keeper.getAllUnbondingRecordsByStatus .accumulatingRedemptions = [r]) ∧
      (s.payments.map paymentKey).Nodup := by
  have hrun : Reaches (step knownAccounts) (EscrowUntouched knownAccounts)
      (genesis (userBank 300000) 1) _ := .of_get (l := redeemedInFull) (by decide +kernel)
  obtain ⟨hone, -, -, -, honce, -⟩ :=
    redemption_records_add_up (emptyStart_genesis (by decide) le_rfl)
      (hrun.mono fun _ _ _ => trivial)
  exact exists_run_end (by decide +kernel) ⟨by decide +kernel, hone, honce⟩

/-- An empty accumulating record on a chain where stTokens were sent to the escrow account. -/
def fundedEscrow : System :=
  let bank : Bank :=
    { balance := fun a d => if a = redemptionAddress ∧ d = "stadym" then 100000 else 0
      supply := fun d => if d = "stadym" then 300000 else 0 }
  { genesis bank 1 with
    keeper := { defaultGenesis bank with
      hostZone := { defaultHostZone with delegatedBalance := 300000 } } }

/-- **The escrow account redeems from itself**, twice: the record grows to 200000 stTokens, while
    the account still holds 100000. -/
theorem escrow_redeems_itself :
    EmptyStart fundedEscrow ∧
      (runSteps (step knownAccounts) fundedEscrow
        [.redeemStake redemptionAddress 100000, .redeemStake redemptionAddress 100000]).map
        (fun s => (escrowedStTokens s.keeper.unbondingRecords,
          s.keeper.bank.balance redemptionAddress s.keeper.hostZone.stDenom)) =
        some (200000, 100000) := by
  refine ⟨?_, by decide +kernel⟩
  exact
    { record := ⟨_, rfl, rfl, rfl, rfl, le_rfl⟩
      archived := fun _ _ h => by cases h
      redemptions := rfl
      payments := rfl
      packets := fun packet hmem => by cases hmem
      balances := by
        intro a d
        show (0 : ℤ) ≤ if a = redemptionAddress ∧ d = "stadym" then 100000 else 0
        split <;> decide
      delegated := by decide }

end System

end Stride.Stakedym
