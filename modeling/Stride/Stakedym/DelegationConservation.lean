import Stride.Stakedym.System

/-!
# Delegations Conserve the Native Tokens

The redemption rate is computed from the native tokens in the deposit account, in the active
delegation records and in the delegated balance. A deposit passes through all three, and in
between it is in a packet; the callback of the packet finds its record through an index.

Along every run of liquid stakes, transfers, callbacks and confirmations the sum of the three
grows by what is staked, and by nothing else. A stake of the deposit account itself is the one
exception: its tokens were counted before.
-/

namespace Stride.Stakedym

open Lib Sdk KeyedStore

/-! ## Definitions -/

namespace Keeper

/-- The delegation records in TRANSFER_IN_PROGRESS. -/
def recordsInTransfer (k : Keeper) : List DelegationRecord :=
  k.delegationRecords.values.filter fun r => r.status = .transferInProgress

/-- Records that count for the redemption rate. -/
def IsActive (r : DelegationRecord) : Prop :=
  r.status = .transferInProgress ∨ r.status = .delegationQueue

instance : DecidablePred IsActive := fun r =>
  inferInstanceAs (Decidable (r.status = .transferInProgress ∨ r.status = .delegationQueue))

def activeTokens (records : DelegationRecordStore) : ℤ :=
  ((records.values.filter fun r => IsActive r).map (·.nativeAmount)).sum

end Keeper

namespace System

/-- Either no transfer is in flight, or one, and the index leads to its record. -/
inductive Flight (s : System) : Prop
  | idle : s.transfers = [] → s.keeper.transferInProgress = .empty →
      s.keeper.recordsInTransfer = [] → Flight s
  | busy (packet : TransferPacket) (r : DelegationRecord) : s.transfers = [packet] →
      s.keeper.transferInProgress =
        KVStore.empty.set (transferInProgressRecordKey packet.sourceChannel packet.sequence) r.id →
      s.keeper.recordsInTransfer = [r] →
      packet.token = (s.keeper.hostZone.nativeTokenIbcDenom, r.nativeAmount) →
      packet.sender = s.keeper.hostZone.depositAddress → Flight s

structure NoTransfers (s : System) : Prop where
  transfers : s.transfers = []
  index : s.keeper.transferInProgress = .empty
  records : s.keeper.recordsInTransfer = []

/-- The events of the delegation cycle, with stakes of other accounts than the deposit account,
    and the events that have nothing to do with its tokens. -/
def DelegationOnly (accounts : Accounts) (s : System) : Event → Prop
  | .liquidStake staker _ => ∀ a, accounts.accAddressFromBech32 staker = .ok a →
      accounts.accAddressFromBech32 s.keeper.hostZone.depositAddress ≠ .ok a
  | .confirmUndelegation .. => False
  | .adjustDelegatedBalance .. => False
  | .distributeClaims => False
  | .send .. => False
  | .arrive .. => False
  | _ => True

instance (accounts : Accounts) (s : System) (e : Event) :
    Decidable (DelegationOnly accounts s e) := by
  apply @Event.casesOn _ e <;> intros <;> dsimp only [DelegationOnly] <;> infer_instance

/-- What one event does: if it is of the `cycle`, the sum grows by what is staked. -/
structure Conserves (accounts : Accounts) (cycle : Prop) (s s' : System) (amount : ℤ) :
    Prop where
  flight : s'.Flight
  locked : cycle → ∀ a, accounts.accAddressFromBech32 s.keeper.hostZone.depositAddress = .ok a →
    s'.keeper.nativeTokensLocked a = s.keeper.nativeTokensLocked a + amount

variable {accounts : Accounts} {cycle : Prop} {s s' : System}

/-! ## Records -/

private theorem nativeTokensLocked_eq (k : Keeper) (a : String) :
    k.nativeTokensLocked a = k.bank.balance a k.hostZone.nativeTokenIbcDenom +
      Keeper.activeTokens k.delegationRecords + k.hostZone.delegatedBalance := by
  rfl

private theorem activeTokens_set (records : DelegationRecordStore) (r : DelegationRecord) :
    Keeper.activeTokens (records.set r) = Keeper.activeTokens records -
      (records.get? r.id).elim 0 (fun r => if Keeper.IsActive r then r.nativeAmount else 0) +
        if Keeper.IsActive r then r.nativeAmount else 0 :=
  sum_filter_set (p := Keeper.IsActive) (·.nativeAmount) records r

variable {r : DelegationRecord} {e : Event} {k : Keeper}

private theorem activeTokens_delete {records : DelegationRecordStore} {id : ℕ}
    (hr : records.get? id = some r) (hactive : Keeper.IsActive r) :
    Keeper.activeTokens (records.delete r.id) = Keeper.activeTokens records - r.nativeAmount := by
  have hid : r.id = id := key_of_get? hr
  refine (sum_filter_delete (p := Keeper.IsActive) (·.nativeAmount) records r.id).trans
    ?_
  rw [hid, hr, Option.elim_some, if_pos hactive]
  rfl

private theorem recordsInTransfer_eq_nil : k.recordsInTransfer = [] ↔
    ∀ id r, k.delegationRecords.get? id = some r → r.status ≠ .transferInProgress :=
  filter_values_eq_nil (p := fun r : DelegationRecord => r.status = .transferInProgress)

private theorem recordsInTransfer_eq_singleton :
    k.recordsInTransfer = [r] ↔
      k.delegationRecords.get? r.id = some r ∧ r.status = .transferInProgress ∧
        ∀ id r', k.delegationRecords.get? id = some r' → r'.status = .transferInProgress →
          id = r.id :=
  filter_values_eq_singleton (p := fun r : DelegationRecord => r.status = .transferInProgress)

/-! ## The events -/

namespace Flight

private theorem of_same (h : s.Flight) (htransfers : s'.transfers = s.transfers)
    (hindex : s'.keeper.transferInProgress = s.keeper.transferInProgress)
    (hrecords : s'.keeper.recordsInTransfer = s.keeper.recordsInTransfer)
    (hsetup : s'.keeper.hostZone.setup = s.keeper.hostZone.setup) : s'.Flight := by
  have hdenom : s'.keeper.hostZone.nativeTokenIbcDenom = s.keeper.hostZone.nativeTokenIbcDenom :=
    congrArg ZoneSetup.nativeTokenIbcDenom hsetup
  have hdeposit : s'.keeper.hostZone.depositAddress = s.keeper.hostZone.depositAddress :=
    congrArg ZoneSetup.depositAddress hsetup
  cases h with
  | idle hnone hempty hidle =>
    exact .idle (htransfers.trans hnone) (hindex.trans hempty) (hrecords.trans hidle)
  | busy packet r hone hentry hbusy htoken hsender =>
    exact .busy packet r (htransfers.trans hone) (hindex.trans hentry) (hrecords.trans hbusy)
      (hdenom ▸ htoken) (hdeposit ▸ hsender)

variable {k' : Keeper} {depositAccount : String} {packet : TransferPacket} {lastEpoch : ℕ}
  {amount : ℤ}

/-- What a keeper has of delegations beside the coins. -/
def delegations (k : Keeper) :=
  (k.transferInProgress, k.delegationRecords, k.hostZone.setup, k.hostZone.delegatedBalance)

private theorem conserves_of_same (h : s.Flight) (hsame : delegations k' = delegations s.keeper)
    (hbalance : cycle → ∀ a,
      accounts.accAddressFromBech32 s.keeper.hostZone.depositAddress = .ok a →
      k'.bank.balance a s.keeper.hostZone.nativeTokenIbcDenom =
        s.keeper.bank.balance a s.keeper.hostZone.nativeTokenIbcDenom + amount) :
    Conserves accounts cycle s { s with keeper := k', lastEpoch := lastEpoch } amount := by
  simp only [delegations, Prod.mk.injEq] at hsame
  obtain ⟨hindex, hrecords, hsetup, hdelegated⟩ := hsame
  have hdenom : k'.hostZone.nativeTokenIbcDenom = s.keeper.hostZone.nativeTokenIbcDenom :=
    congrArg ZoneSetup.nativeTokenIbcDenom hsetup
  refine ⟨h.of_same rfl hindex ?_ hsetup, ?_⟩
  · unfold Keeper.recordsInTransfer
    rw [hrecords]
  · intro hcycle a ha
    rw [nativeTokensLocked_eq, nativeTokensLocked_eq, hdenom, hrecords, hdelegated,
      hbalance hcycle a ha]
    omega

private theorem conserves_of_quiet (h : s.Flight) (hsame : delegations k' = delegations s.keeper)
    (hbank : k'.bank = s.keeper.bank) :
    Conserves accounts cycle s { s with keeper := k', lastEpoch := lastEpoch } 0 := by
  refine h.conserves_of_same hsame ?_
  intro _ a _
  rw [hbank, add_zero]

/-- **A stake** adds its coins to the deposit account. -/
theorem staked (h : s.Flight) {liquidStaker staker : String} {stAmount : ℤ}
    (hst : Keeper.LiquidStaked accounts s.keeper k' liquidStaker amount staker depositAccount
      stAmount) (hne : cycle → staker ≠ depositAccount) :
    Conserves accounts cycle s { s with keeper := k' } amount := by
  have hdenom := s.keeper.hostZone.stDenom_ne_ibcDenom
  refine h.conserves_of_same (by rw [hst.keeper]; rfl) ?_
  intro hcycle a ha
  rw [hst.deposit] at ha
  cases ha
  rw [hst.balance, if_neg (fun heq => hne hcycle heq.1.symm), if_pos ⟨rfl, rfl⟩,
    if_neg (fun heq => hdenom heq.2.symm), sub_zero, add_zero]

/-- **A new transfer** takes the coins of the deposit account into a record. -/
theorem prepared (h : s.Flight) {epochNumber : ℕ} {nextSequence : ℕ}
    (hp : Keeper.PreparedDelegation accounts s.keeper k' epochNumber depositAccount packet amount) :
    Conserves accounts cycle s
      { s with
        keeper := k'
        transfers := s.transfers ++ [packet]
        nextSequence := nextSequence } 0 := by
  have hkeeper := hp.keeper
  subst hkeeper
  -- the guard excludes that another transfer is in flight
  have hidle : ∀ id r, s.keeper.delegationRecords.get? id = some r →
      r.status ≠ .transferInProgress := by
    intro id r hr hstatus
    refine hp.idle r ?_ hstatus
    have hid : r.id = id := key_of_get? hr
    subst hid
    exact List.mem_filter.mpr ⟨mem_values_iff.mpr hr, by simp [hstatus]⟩
  obtain ⟨hnone, hempty⟩ : s.transfers = [] ∧ s.keeper.transferInProgress = .empty := by
    cases h with
    | idle hnone hempty _ => exact ⟨hnone, hempty⟩
    | busy _ r _ _ hbusy _ _ =>
      obtain ⟨hstored, hstatus, -⟩ := recordsInTransfer_eq_singleton.mp hbusy
      exact absurd hstatus (hidle _ r hstored)
  have hcontents := hp.contents
  refine ⟨.busy packet _ ?_ ?_ (recordsInTransfer_eq_singleton.mpr
    ⟨get?_set_self _ _, rfl, fun id r hr hstatus => ?_⟩) ?_ ?_, ?_⟩
  · rw [hnone]
    rfl
  · rw [hcontents, hempty]
    rfl
  · rw [get?_set] at hr
    split at hr
    · assumption
    · exact absurd hstatus (hidle id r hr)
  · rw [hcontents]
    rfl
  · rw [hcontents]
    rfl
  · intro _ a ha
    rw [hp.deposit] at ha
    cases ha
    rw [nativeTokensLocked_eq, nativeTokensLocked_eq, activeTokens_set, hp.fresh,
      Bank.balance_addCoins, if_pos ⟨rfl, rfl⟩, if_pos (.inl rfl), Option.elim_none]
    dsimp only
    omega

/-- The packet in flight settles the one record in transfer. -/
theorem settled {delivered : Bool} (hentry : k.transferInProgress =
      KVStore.empty.set (transferInProgressRecordKey packet.sourceChannel packet.sequence) r.id)
    (hbusy : k.recordsInTransfer = [r])
    (h : Keeper.TransferSettled k packet.sourceChannel packet.sequence delivered k') :
    (delivered = true ∧
        k'.delegationRecords = k.delegationRecords.set { r with status := .delegationQueue } ∨
      delivered = false ∧ k'.delegationRecords = k.delegationRecords.delete r.id) ∧
      k'.transferInProgress = .empty ∧ k'.bank = k.bank ∧ k'.hostZone = k.hostZone := by
  have hstored := (recordsInTransfer_eq_singleton.mp hbusy).1
  have hfound : k.transferInProgress.get?
      (transferInProgressRecordKey packet.sourceChannel packet.sequence) = some r.id := by
    rw [hentry, KVStore.get?_set, if_pos rfl]
  have hremoved : k.transferInProgress.delete
      (transferInProgressRecordKey packet.sourceChannel packet.sequence) = .empty := by
    rw [hentry]
    exact KVStore.delete_set_empty _ _
  cases h with
  | unknown hnone _ =>
    -- the index has an entry for the packet
    cases hfound.symm.trans hnone
  | lost recordId hindex hlost _ =>
    cases hfound.symm.trans hindex
    cases hstored.symm.trans hlost
  | queued recordId record hindex hrecord hdelivered heq =>
    cases hfound.symm.trans hindex
    cases hstored.symm.trans hrecord
    rw [heq]
    exact ⟨.inl ⟨hdelivered, rfl⟩, hremoved, rfl, rfl⟩
  | archived recordId record hindex hrecord hdelivered heq =>
    cases hfound.symm.trans hindex
    cases hstored.symm.trans hrecord
    rw [heq]
    exact ⟨.inr ⟨hdelivered, rfl⟩, hremoved, rfl, rfl⟩

/-- **The end of a transfer**: the record waits for its delegation, or it is archived and the coins
    come back. -/
theorem closed (h : s.Flight) (hmem : packet ∈ s.transfers)
    (hclosed : TransferClosed accounts s.keeper packet k') :
    Conserves accounts cycle s
      { s with keeper := k', transfers := s.transfers.erase packet } 0 := by
  cases h with
  | idle hnone _ _ =>
    rw [hnone] at hmem
    cases hmem
  | busy packet' r hone hentry hbusy htoken hsender =>
    rw [hone, List.mem_singleton] at hmem
    subst hmem
    obtain ⟨hstored, hstatus, honly⟩ := recordsInTransfer_eq_singleton.mp hbusy
    have herase : s.transfers.erase packet = [] := by
      rw [hone]
      simp
    have hactive : Keeper.IsActive r := .inl hstatus
    cases hclosed with
    | delivered hsettled =>
      obtain ⟨hrecords | ⟨hfalse, -⟩, hindex, hbank, hzone⟩ := settled hentry hbusy hsettled
      · obtain ⟨-, hrecords⟩ := hrecords
        set r' : DelegationRecord := { r with status := .delegationQueue } with hr'
        have hstored' : s.keeper.delegationRecords.get? r'.id = some r := hstored
        refine ⟨.idle herase hindex ?_, ?_⟩
        · refine recordsInTransfer_eq_nil.mpr ?_
          intro id w hw hwstatus
          have hw' : k'.delegationRecords.get? id = some w := hw
          rw [hrecords, get?_set] at hw'
          split at hw'
          · cases hw'
            cases hwstatus
          · rename_i hne
            exact hne (honly id w hw' hwstatus)
        · intro _ a _
          have hsame : Keeper.activeTokens k'.delegationRecords =
              Keeper.activeTokens s.keeper.delegationRecords := by
            rw [hrecords, activeTokens_set, hstored', Option.elim_some, if_pos hactive]
            exact sub_add_cancel _ _
          rw [nativeTokensLocked_eq, nativeTokensLocked_eq, hbank, hzone, hsame, add_zero]
      · cases hfalse
    | returned k₁ sender hsettled hdecode hkeeper =>
      obtain ⟨⟨htrue, -⟩ | hrecords, hindex, hbank, hzone⟩ := settled hentry hbusy hsettled
      · cases htrue
      · obtain ⟨-, hrecords⟩ := hrecords
        subst hkeeper
        refine ⟨.idle herase hindex ?_, ?_⟩
        · refine recordsInTransfer_eq_nil.mpr ?_
          intro id w hw hwstatus
          have hw' : k₁.delegationRecords.get? id = some w := hw
          rw [hrecords, get?_delete] at hw'
          split at hw'
          · cases hw'
          rename_i hne
          exact hne (honly id w hw' hwstatus)
        · intro _ a ha
          rw [hsender, ha] at hdecode
          cases hdecode
          -- the record leaves the sum, and its coins are back in the deposit account
          have hless := activeTokens_delete hstored hactive
          have hbalance : (k₁.bank.addCoins sender packet.token).balance sender
              s.keeper.hostZone.nativeTokenIbcDenom =
                s.keeper.bank.balance sender s.keeper.hostZone.nativeTokenIbcDenom +
                  r.nativeAmount := by
            rw [Bank.balance_addCoins, htoken, if_pos ⟨rfl, rfl⟩, hbank]
          rw [nativeTokensLocked_eq, nativeTokensLocked_eq]
          rw [hzone, hrecords, hbalance]
          omega

/-- **A confirmation** moves the tokens of a record into the delegated balance. -/
theorem confirmed (h : s.Flight) {recordId : ℕ} {record : DelegationRecord}
    (hc : Keeper.ConfirmedDelegation s.keeper k' recordId record) :
    Conserves accounts cycle s { s with keeper := k' } 0 := by
  have hkeeper := hc.keeper
  generalize k'.archivedDelegationRecords = archived at hkeeper
  subst hkeeper
  have hid : record.id = recordId := key_of_get? hc.stored
  have hstored : s.keeper.delegationRecords.get? record.id = some record := hid ▸ hc.stored
  refine ⟨h.of_same rfl rfl ?_ rfl, ?_⟩
  · -- the record was not in transfer
    unfold Keeper.recordsInTransfer
    rw [values_delete, List.filter_filter]
    apply List.filter_congr
    intro r hr
    by_cases hstatus : r.status = .transferInProgress
    · have hne : r.id ≠ record.id := by
        intro heq
        have hget := mem_values_iff.mp hr
        rw [heq, hstored] at hget
        cases hget
        rw [hc.queued] at hstatus
        cases hstatus
      simp [hstatus, hne]
    · simp [hstatus]
  · intro _ a _
    have hless := activeTokens_delete hstored (.inr hc.queued)
    rw [nativeTokensLocked_eq, nativeTokensLocked_eq]
    dsimp only
    omega

/-- An event that has nothing to do with unbondings. -/
theorem quiet (h : s.Flight) (hq : QuietEffect accounts s e s') :
    Conserves accounts (DelegationOnly accounts s e) s s' e.stakedAmount := by
  cases hq with
  | staked hst =>
    refine h.staked hst fun hok => ?_
    rintro rfl
    exact hok _ hst.account hst.deposit
  | transferred hp => exact h.prepared hp
  | acked hmem hclosed => exact h.closed hmem hclosed
  | timedOut hmem hclosed => exact h.closed hmem hclosed
  | delegated hc => exact h.confirmed hc
  | adjusted _ => exact ⟨h.of_same rfl rfl rfl rfl, False.elim⟩
  | tuned hnone hsetup hdelegated =>
    rw [hnone]
    refine h.conserves_of_quiet ?_ rfl
    rw [delegations, hsetup, hdelegated]
    rfl
  | sent _ _ => exact ⟨h.of_same rfl rfl rfl rfl, False.elim⟩
  | arrived _ => exact ⟨h.of_same rfl rfl rfl rfl, False.elim⟩

/-- **Any event** leaves at most one transfer in flight, and one of the delegation cycle conserves
    the tokens. -/
theorem step (h : s.Flight) (hstep : step accounts s e = some s') :
    Conserves accounts (DelegationOnly accounts s e) s s' e.stakedAmount := by
  cases effect_of_step hstep with
  | quiet hq => exact h.quiet hq
  | redeemed hr =>
    have hdenom := s.keeper.hostZone.stDenom_ne_ibcDenom
    refine h.conserves_of_same (by rw [hr.keeper]; rfl) ?_
    intro _ a _
    -- only stTokens move
    rw [Bank.balance_sendCoins hr.sent, if_neg (fun heq => hdenom heq.2.symm),
      if_neg (fun heq => hdenom heq.2.symm), sub_zero]
    rfl
  | prepared _ hp => exact h.conserves_of_quiet (by rw [hp.frame]; rfl) (by rw [hp.frame])
  | undelegated hc =>
    obtain ⟨_, _, hkeeper⟩ := hc.keeper
    refine ⟨h.of_same rfl ?_ ?_ ?_, False.elim⟩ <;> rw [hkeeper] <;> rfl
  | finished now =>
    have hkeeper := Keeper.markFinishedUnbondings_eq s.keeper now
    exact h.conserves_of_quiet (by rw [hkeeper]; rfl) (by rw [hkeeper])
  | swept hc =>
    obtain ⟨txHash, hkeeper⟩ := hc.keeper
    exact h.conserves_of_quiet (by rw [hkeeper]; rfl) (by rw [hkeeper])
  | paid _ hp =>
    exact ⟨h.of_same rfl (by rw [hp.keeper]) (by rw [hp.keeper]; rfl) (by rw [hp.keeper]),
      False.elim⟩

private theorem of_reaches {s₀ : System}
    (hrun : Reaches (System.step accounts) (fun _ _ => True) s₀ s)
    (h₀ : NoTransfers s₀) : s.Flight :=
  hrun.invariant (.idle h₀.transfers h₀.index h₀.records) fun _ _ _ h _ hstep =>
    (h.step hstep).flight

end Flight

/-! ## Main result -/

/-- **Delegations conserve the native tokens**: in every state that is reached, an event of the
    delegation cycle adds what it stakes to the sum behind the redemption rate, and at most one
    record is in transfer, the one that the only entry of the index names. -/
theorem delegation_conserves_tokens {s₀ : System} (h₀ : NoTransfers s₀)
    (hrun : Reaches (step accounts) (fun _ _ => True) s₀ s) :
    (∀ e s', DelegationOnly accounts s e → step accounts s e = some s' →
        ∀ a, accounts.accAddressFromBech32 s.keeper.hostZone.depositAddress = .ok a →
          s'.keeper.nativeTokensLocked a = s.keeper.nativeTokensLocked a + e.stakedAmount) ∧
      (s.keeper.recordsInTransfer = [] ∧ s.keeper.transferInProgress.toList = [] ∨
        ∃ r channelId sequence, s.keeper.recordsInTransfer = [r] ∧
          s.keeper.transferInProgress.toList =
            [(transferInProgressRecordKey channelId sequence, r.id)]) := by
  have hflight := Flight.of_reaches hrun h₀
  refine ⟨fun e s' hok hstep => (hflight.step hstep).locked hok, ?_⟩
  cases hflight with
  | idle _ hempty hidle => exact .inl ⟨hidle, by rw [hempty]; rfl⟩
  | busy packet r _ hentry hbusy _ _ =>
    exact .inr ⟨r, packet.sourceChannel, packet.sequence, hbusy, by rw [hentry]; rfl⟩

/-- The transfer of 300000 with a sequence. -/
def stakedTransfer (sequence : ℕ) : TransferPacket :=
  Keeper.depositTransfer defaultHostZone sequence (dymensionNativeTokenIBCDenom, 300000)

/-- A stake whose first transfer times out, and which is sent again. -/
def sentAgain : List Event :=
  [.liquidStake userAddress 300000, .prepareDelegation 2 (some 7),
    .transferTimeout (stakedTransfer 7), .prepareDelegation 3 (some 8)]

theorem delegation_conserves_tokens_sentAgain :
    ∃ s s', runAllowed (step knownAccounts) (DelegationOnly knownAccounts)
        (genesis (userBank 300000) 1) sentAgain = some s ∧
      step knownAccounts s (.transferAck (stakedTransfer 8) (.ok true)) = some s' ∧
      s.keeper.nativeTokensLocked depositAddress = 300000 ∧
      s'.keeper.nativeTokensLocked depositAddress = 300000 := by
  have hend : ((runAllowed (step knownAccounts) (DelegationOnly knownAccounts)
      (genesis (userBank 300000) 1) sentAgain).bind fun s =>
        (step knownAccounts s (.transferAck (stakedTransfer 8) (.ok true))).map fun _ =>
          (s.keeper.nativeTokensLocked depositAddress,
            (knownAccounts.accAddressFromBech32 s.keeper.hostZone.depositAddress).toOption)) =
        some (300000, some depositAddress) := by
    decide +kernel
  obtain ⟨s, hs, hnext⟩ := Option.bind_eq_some_iff.mp hend
  obtain ⟨s', hs', hvalues⟩ := Option.map_eq_some_iff.mp hnext
  obtain ⟨hlocked, hdeposit⟩ := Prod.mk.inj hvalues
  have hrun := (Reaches.of_runAllowed hs).mono fun _ _ _ => trivial
  have hkept := (delegation_conserves_tokens ⟨rfl, rfl, rfl⟩ hrun).1
    (.transferAck (stakedTransfer 8) (.ok true)) s' trivial hs' depositAddress
    (toOption_eq_some.mp hdeposit)
  refine ⟨s, s', hs, hs', hlocked, ?_⟩
  rw [hkept, hlocked]
  rfl

def depositBank : Bank where
  balance := fun a d =>
    if a = depositAddress ∧ d = dymensionNativeTokenIBCDenom then 100000 else 0
  supply := fun _ => 0

/-- **A stake of the deposit account**: its coins go from the account to itself, and the sum stays
    at 100000, although 100000 are staked. -/
theorem deposit_stakes_itself :
    NoTransfers (genesis depositBank 1) ∧
      (genesis depositBank 1).keeper.nativeTokensLocked depositAddress = 100000 ∧
      (step knownAccounts (genesis depositBank 1) (.liquidStake depositAddress 100000)).map
        (fun s => (s.keeper.nativeTokensLocked depositAddress,
          s.keeper.bank.balance depositAddress "stadym")) = some (100000, 100000) := by
  refine ⟨⟨rfl, rfl, rfl⟩, ?_, ?_⟩
  · decide +kernel
  · decide +kernel

end System

end Stride.Stakedym
