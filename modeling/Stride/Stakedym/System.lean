import Stride.Lib.Runs
import Stride.Stakedym.Delegation
import Stride.Stakedym.Unbonding

/-!
# The Stakedym System

The module with the packets of its transfers that are in flight, and everything that happens to
it: messages of users, operators and admins, the work of the epochs, the callbacks of transfers,
and coins that move without the module. A message that fails leaves nothing behind, so that it
is an event that cannot happen.
-/

namespace Stride.Stakedym

open Lib Sdk Keeper

/-! ## Model -/

/-- The chain as the module sees it. -/
structure System where
  keeper : Keeper
  /-- a bound on the sequences that the transfer channel has used -/
  nextSequence : ℕ
  /-- transfers of the module without an acknowledgement or timeout -/
  transfers : List TransferPacket
  /-- the last day epoch in which unbondings were frozen -/
  lastEpoch : ℕ
  payments : List Payment

inductive Event where
  | liquidStake (staker : String) (amount : ℤ)
  | redeemStake (redeemer : String) (amount : ℤ)
  | confirmDelegation (operator : String) (recordId : ℕ) (txHash : String)
  | confirmUndelegation (operator : String) (recordId : ℕ) (txHash : String) (now : ℤ)
  | confirmUnbondedTokenSweep (operator : String) (recordId : ℕ) (txHash : String)
  | adjustDelegatedBalance (safe : String) (offset : ℤ)
  | updateInnerRedemptionRateBounds (minInnerBound maxInnerBound : LegacyDec)
  | resumeHostZone
  | beginBlock
  | updateRedemptionRate
  | prepareDelegation (epochNumber : ℕ) (reply : Option ℕ)
  | prepareUndelegation (epochNumber : ℕ)
  | markFinishedUnbondings (now : ℤ)
  | distributeClaims
  | transferAck (packet : TransferPacket) (ack : Result Bool)
  | transferTimeout (packet : TransferPacket)
  /-- A bank send between two accounts. -/
  | send (sender recipient : String) (coin : String × ℤ)
  /-- Coins that come in by IBC. -/
  | arrive (recipient : String) (coin : String × ℤ)

def Event.stakedAmount : Event → ℤ
  | .liquidStake _ amount => amount
  | _ => 0

/-- Events that have nothing to do with unbondings can take coins of the denom `d` from the
    account `a`: by a stake, by the transfer of the deposits, or by a send. The refund of a transfer
    gives coins, if its amount is not negative. -/
def Event.Takes (accounts : Accounts) (s : System) (a d : String) : Event → Prop
  | .liquidStake staker _ => accounts.accAddressFromBech32 staker = .ok a ∧
      d = s.keeper.hostZone.nativeTokenIbcDenom
  | .prepareDelegation .. =>
      accounts.accAddressFromBech32 s.keeper.hostZone.depositAddress = .ok a ∧
        d = s.keeper.hostZone.nativeTokenIbcDenom
  | .transferAck packet _ => packet.token.2 < 0 ∧ d = packet.token.1
  | .transferTimeout packet => packet.token.2 < 0 ∧ d = packet.token.1
  | .send sender _ coin => sender = a ∧ d = coin.1
  | _ => False

namespace System

/-- The transfer module returns the coins of a transfer that failed. -/
def refund (accounts : Accounts) (k : Keeper) (packet : TransferPacket) : Result Keeper := do
  let sender ← accounts.accAddressFromBech32 packet.sender
  return { k with bank := k.bank.addCoins sender packet.token }

/-- The acknowledgement of a transfer: first the module, then the transfer module. -/
def transferAck (accounts : Accounts) (k : Keeper) (packet : TransferPacket) (ack : Result Bool) :
    Result Keeper := do
  let k ← k.onAcknowledgementPacket packet.sourceChannel packet.sequence ack
  let success ← ack
  if success then return k else refund accounts k packet

def transferTimeout (accounts : Accounts) (k : Keeper) (packet : TransferPacket) :
    Result Keeper := do
  let k ← k.onTimeoutPacket packet.sourceChannel packet.sequence
  refund accounts k packet

/-- The keeper after an event of the keeper alone. -/
def withKeeper (s : System) (result : Result Keeper) : Option System :=
  result.toOption.map fun k => { s with keeper := k }

/-- What an event does, if it can happen. -/
def step (accounts : Accounts) (s : System) : Event → Option System
  | .liquidStake staker amount =>
    if minThreshold ≤ amount then
      s.withKeeper do
        let (k, _) ← s.keeper.liquidStake accounts staker amount
        return k
    else none
  | .redeemStake redeemer amount =>
    if minThreshold ≤ amount then
      s.withKeeper do
        let (k, _) ← s.keeper.redeemStake accounts redeemer amount
        return k
    else none
  | .confirmDelegation operator recordId txHash =>
    s.withKeeper do
      checkIsSafeOrOperatorAddress s.keeper.hostZone operator
      s.keeper.confirmDelegation recordId txHash
  | .confirmUndelegation operator recordId txHash now =>
    s.withKeeper do
      checkIsSafeOrOperatorAddress s.keeper.hostZone operator
      s.keeper.confirmUndelegation accounts recordId txHash now
  | .confirmUnbondedTokenSweep operator recordId txHash =>
    s.withKeeper do
      checkIsSafeOrOperatorAddress s.keeper.hostZone operator
      s.keeper.confirmUnbondedTokenSweep accounts recordId txHash
  | .adjustDelegatedBalance safe offset =>
    s.withKeeper do
      checkIsSafeAddress s.keeper.hostZone safe
      s.keeper.adjustDelegatedBalance offset
  | .updateInnerRedemptionRateBounds minInnerBound maxInnerBound =>
    s.withKeeper (s.keeper.updateInnerRedemptionRateBounds minInnerBound maxInnerBound)
  | .resumeHostZone => s.withKeeper s.keeper.resumeHostZone
  | .beginBlock => some { s with keeper := s.keeper.beginBlocker }
  | .updateRedemptionRate => s.withKeeper (s.keeper.updateRedemptionRate accounts)
  | .prepareDelegation epochNumber reply =>
    -- the sequences of a channel grow
    if ∀ sequence ∈ reply, s.nextSequence ≤ sequence then
      (s.keeper.prepareDelegation accounts epochNumber reply).toOption.map fun (k, sent) =>
        { s with
          keeper := k
          transfers := s.transfers ++ sent.toList
          nextSequence := sent.elim s.nextSequence fun packet => packet.sequence + 1 }
    else none
  | .prepareUndelegation epochNumber =>
    if s.lastEpoch < epochNumber then
      (s.keeper.prepareUndelegation epochNumber).toOption.map fun k =>
        { s with keeper := k, lastEpoch := epochNumber }
    else none
  | .markFinishedUnbondings now => some { s with keeper := s.keeper.markFinishedUnbondings now }
  | .distributeClaims =>
    (s.keeper.distributeClaims accounts).toOption.map fun (k, paid) =>
      { s with keeper := k, payments := s.payments ++ paid }
  | .transferAck packet ack =>
    if packet ∈ s.transfers then
      (transferAck accounts s.keeper packet ack).toOption.map fun k =>
        { s with keeper := k, transfers := s.transfers.erase packet }
    else none
  | .transferTimeout packet =>
    if packet ∈ s.transfers then
      (transferTimeout accounts s.keeper packet).toOption.map fun k =>
        { s with keeper := k, transfers := s.transfers.erase packet }
    else none
  | .send sender recipient coin =>
    if 0 ≤ coin.2 then
      s.withKeeper do
        let bank ← s.keeper.bank.sendCoins sender recipient coin
        return { s.keeper with bank := bank }
    else none
  | .arrive recipient coin =>
    if 0 ≤ coin.2 then
      some { s with
        keeper := { s.keeper with bank := s.keeper.bank.addCoins recipient coin } }
    else none

/-! ### The hook of the epochs module -/

def dayEpoch : String := "day"

def hourEpoch : String := "hour"

/-- Work that leaves nothing behind when it fails. -/
def attempt (accounts : Accounts) (s : System) (e : Event) : System :=
  (step accounts s e).getD s

/-- `BeforeEpochStart` at the block time `now`. The fees of the mint epoch are liquid staked by
    an account of the module, as by any other account. -/
def beforeEpochStart (accounts : Accounts) (s : System) (identifier : String) (epochNumber : ℕ)
    (now : ℤ) (reply : Option ℕ) : System :=
  if identifier = dayEpoch then
    match step accounts s .updateRedemptionRate with
    | none => s
    | some s =>
      let s := attempt accounts s (.prepareDelegation epochNumber reply)
      if epochNumber % 4 = 0 then attempt accounts s (.prepareUndelegation epochNumber) else s
  else if identifier = hourEpoch then
    attempt accounts (attempt accounts s (.markFinishedUnbondings now)) .distributeClaims
  else s

/-! ## Events -/

variable {accounts : Accounts} {s s' : System}

variable {e : Event} {k k' : Keeper} {result : Result Keeper} {packet : TransferPacket}

private theorem withKeeper_eq_some :
    s.withKeeper result = some s' ↔ ∃ k, result = .ok k ∧ { s with keeper := k } = s' :=
  toOption_map_eq_some

/-- What is attempted happens or changes nothing. -/
theorem reaches_attempt {ok : System → Event → Prop} {s₀ : System} {e : Event}
    (hrun : Reaches (step accounts) ok s₀ s) (hok : ok s e) :
    Reaches (step accounts) ok s₀ (attempt accounts s e) := by
  unfold attempt
  cases hstep : step accounts s e with
  | none => exact hrun
  | some s' => exact .tail e hrun hok hstep

/-- **The hook is a run**: each epoch only does work that the events describe. -/
theorem reaches_beforeEpochStart {ok : System → Event → Prop} {s₀ : System} {identifier : String}
    {epochNumber : ℕ} {now : ℤ} {reply : Option ℕ} (hrun : Reaches (step accounts) ok s₀ s)
    (hday : ∀ t, ok t .updateRedemptionRate ∧ ok t (.prepareDelegation epochNumber reply) ∧
      ok t (.prepareUndelegation epochNumber))
    (hhour : ∀ t, ok t (.markFinishedUnbondings now) ∧ ok t .distributeClaims) :
    Reaches (step accounts) ok s₀
      (beforeEpochStart accounts s identifier epochNumber now reply) := by
  unfold beforeEpochStart
  split
  · split
    · exact hrun
    · rename_i s₁ hrate
      have hprepared := reaches_attempt (.tail _ hrun (hday s).1 hrate) (hday s₁).2.1
      split
      · exact reaches_attempt hprepared (hday _).2.2
      · exact hprepared
  · split
    · exact reaches_attempt (reaches_attempt hrun (hhour s).1) (hhour _).2
    · exact hrun

/-- Nothing of the unbondings changes. -/
structure SameUnbondings (k k' : Keeper) : Prop where
  records : k'.unbondingRecords = k.unbondingRecords
  archived : k'.archivedUnbondingRecords = k.archivedUnbondingRecords
  redemptions : k'.redemptionRecords = k.redemptionRecords
  setup : k'.hostZone.setup = k.hostZone.setup

private theorem SameUnbondings.refl (k : Keeper) : SameUnbondings k k := ⟨rfl, rfl, rfl, rfl⟩

private theorem settled_frame {channelId : String} {sequence : ℕ} {delivered : Bool}
    (h : TransferSettled k channelId sequence delivered k') :
    SameUnbondings k k' ∧ k'.hostZone = k.hostZone ∧ k'.bank = k.bank := by
  cases h with
  | unknown _ heq =>
    subst heq
    exact ⟨.refl _, rfl, rfl⟩
  | lost _ _ _ heq =>
    subst heq
    exact ⟨.refl _, rfl, rfl⟩
  | queued _ _ _ _ _ heq =>
    rw [heq]
    exact ⟨⟨rfl, rfl, rfl, rfl⟩, rfl, rfl⟩
  | archived _ _ _ _ _ heq =>
    rw [heq]
    exact ⟨⟨rfl, rfl, rfl, rfl⟩, rfl, rfl⟩

/-- A transfer that is over: its callback ran, and the coins came back if it failed. -/
inductive TransferClosed (accounts : Accounts) (k : Keeper) (packet : TransferPacket)
    (k' : Keeper) : Prop
  | delivered : TransferSettled k packet.sourceChannel packet.sequence true k' →
      TransferClosed accounts k packet k'
  | returned (k₁ : Keeper) (sender : String) :
      TransferSettled k packet.sourceChannel packet.sequence false k₁ →
      accounts.accAddressFromBech32 packet.sender = .ok sender →
      k' = { k₁ with bank := k₁.bank.addCoins sender packet.token } →
      TransferClosed accounts k packet k'

private theorem refund_ok (h : refund accounts k packet = .ok k') :
    ∃ sender, accounts.accAddressFromBech32 packet.sender = .ok sender ∧
      k' = { k with bank := k.bank.addCoins sender packet.token } := by
  obtain ⟨sender, hsender, h⟩ := bind_eq_ok.mp h
  cases h
  exact ⟨sender, hsender, rfl⟩

private theorem transferAck_ok {ack : Result Bool}
    (h : transferAck accounts k packet ack = .ok k') :
    TransferClosed accounts k packet k' := by
  obtain ⟨k₁, hcallback, h⟩ := bind_eq_ok.mp h
  obtain ⟨success, hack, h⟩ := bind_eq_ok.mp h
  have hsettled :
      TransferSettled k packet.sourceChannel packet.sequence success k₁ := by
    rcases onAcknowledgementPacket_ok hcallback with ⟨hnone, rfl⟩ | ⟨success', hack', hs⟩
    · exact .unknown hnone rfl
    · rw [hack] at hack'
      cases hack'
      exact hs
  cases success with
  | true =>
    cases h
    exact .delivered hsettled
  | false =>
    obtain ⟨sender, hsender, hkeeper⟩ := refund_ok h
    exact .returned k₁ sender hsettled hsender hkeeper

private theorem transferTimeout_ok (h : transferTimeout accounts k packet = .ok k') :
    TransferClosed accounts k packet k' := by
  obtain ⟨k₁, hcallback, h⟩ := bind_eq_ok.mp h
  obtain ⟨sender, hsender, hkeeper⟩ := refund_ok h
  exact .returned k₁ sender (onTimeoutPacket_ok hcallback) hsender hkeeper

/-- What an event that has nothing to do with unbondings leaves alone. -/
structure QuietStep (accounts : Accounts) (s s' : System) (e : Event) : Prop where
  unbondings : SameUnbondings s.keeper s'.keeper
  lastEpoch : s'.lastEpoch = s.lastEpoch
  payments : s'.payments = s.payments
  delegated : 0 ≤ s.keeper.hostZone.delegatedBalance → 0 ≤ s'.keeper.hostZone.delegatedBalance
  coins : ∀ a d, ¬ e.Takes accounts s a d → s.keeper.bank.balance a d ≤ s'.keeper.bank.balance a d

private theorem closed_quiet (h : TransferClosed accounts s.keeper packet k')
    (htakes : ∀ a, packet.token.2 < 0 → e.Takes accounts s a packet.token.1) :
    QuietStep accounts s { s with keeper := k', transfers := s.transfers.erase packet } e := by
  cases h with
  | delivered hsettled =>
    obtain ⟨hsame, hzone, hbank⟩ := settled_frame hsettled
    refine ⟨hsame, rfl, rfl, ?_, ?_⟩
    · intro hnonneg
      rw [hzone]
      exact hnonneg
    · intro a d _
      rw [hbank]
  | returned k₁ sender hsettled _ hkeeper =>
    obtain ⟨hsame, hzone, hbank⟩ := settled_frame hsettled
    subst hkeeper
    refine ⟨⟨hsame.records, hsame.archived, hsame.redemptions, hsame.setup⟩, rfl, rfl, ?_, ?_⟩
    · intro hnonneg
      rw [hzone]
      exact hnonneg
    · intro a d hnot
      rw [Bank.balance_addCoins, hbank]
      split
      · -- a refund only takes coins if its amount is negative
        rename_i heq
        have hnonneg : ¬ packet.token.2 < 0 := fun hneg => hnot (heq.2 ▸ htakes a hneg)
        omega
      · omega

/-- What an event did that has nothing to do with unbondings. -/
inductive QuietEffect (accounts : Accounts) (s : System) : Event → System → Prop
  | staked {liquidStaker staker depositAccount : String} {amount stAmount : ℤ} {k' : Keeper} :
      LiquidStaked accounts s.keeper k' liquidStaker amount staker depositAccount stAmount →
      QuietEffect accounts s (.liquidStake liquidStaker amount) { s with keeper := k' }
  | transferred {epochNumber nextSequence : ℕ} {reply : Option ℕ} {k' : Keeper}
      {depositAccount : String} {packet : TransferPacket} {amount : ℤ} :
      PreparedDelegation accounts s.keeper k' epochNumber depositAccount packet amount →
      QuietEffect accounts s (.prepareDelegation epochNumber reply)
        { s with
          keeper := k'
          transfers := s.transfers ++ [packet]
          nextSequence := nextSequence }
  | acked {packet : TransferPacket} {ack : Result Bool} {k' : Keeper} : packet ∈ s.transfers →
      TransferClosed accounts s.keeper packet k' →
      QuietEffect accounts s (.transferAck packet ack)
        { s with keeper := k', transfers := s.transfers.erase packet }
  | timedOut {packet : TransferPacket} {k' : Keeper} : packet ∈ s.transfers →
      TransferClosed accounts s.keeper packet k' →
      QuietEffect accounts s (.transferTimeout packet)
        { s with keeper := k', transfers := s.transfers.erase packet }
  | delegated {operator txHash : String} {recordId : ℕ} {k' : Keeper}
      {record : DelegationRecord} : ConfirmedDelegation s.keeper k' recordId record →
      QuietEffect accounts s (.confirmDelegation operator recordId txHash) { s with keeper := k' }
  | adjusted {safe : String} {offset balance : ℤ} : 0 ≤ balance →
      QuietEffect accounts s (.adjustDelegatedBalance safe offset)
        { s with keeper.hostZone.delegatedBalance := balance }
  /-- the rate, its bounds or the halt may change -/
  | tuned {e : Event} {z : HostZone} : e.stakedAmount = 0 → z.setup = s.keeper.hostZone.setup →
      z.delegatedBalance = s.keeper.hostZone.delegatedBalance →
      QuietEffect accounts s e { s with keeper.hostZone := z }
  | sent {sender recipient : String} {coin : String × ℤ} {bank : Bank} : 0 ≤ coin.2 →
      s.keeper.bank.sendCoins sender recipient coin = .ok bank →
      QuietEffect accounts s (.send sender recipient coin) { s with keeper.bank := bank }
  | arrived {recipient : String} {coin : String × ℤ} : 0 ≤ coin.2 →
      QuietEffect accounts s (.arrive recipient coin)
        { s with keeper.bank := s.keeper.bank.addCoins recipient coin }

theorem QuietEffect.quietStep (h : QuietEffect accounts s e s') : QuietStep accounts s s' e := by
  cases h with
  | @staked _ account _ _ _ _ hst =>
    refine ⟨?_, rfl, rfl, ?_, ?_⟩
    · rw [hst.keeper]
      exact ⟨rfl, rfl, rfl, rfl⟩
    · rw [hst.keeper]
      exact id
    · intro a d hnot
      have hother : ¬ (a = account ∧ d = s.keeper.hostZone.nativeTokenIbcDenom) :=
        fun heq => hnot ⟨heq.1 ▸ hst.account, heq.2⟩
      have hamount := hst.nonneg
      have hnonneg := hst.stNonneg
      rw [hst.balance a, if_neg hother]
      split <;> split <;> omega
  | @transferred _ _ _ _ depositAccount _ _ hp =>
    rw [hp.keeper]
    refine ⟨⟨rfl, rfl, rfl, rfl⟩, rfl, rfl, id, ?_⟩
    intro a d hnot
    have hother : ¬ (a = depositAccount ∧ d = s.keeper.hostZone.nativeTokenIbcDenom) :=
      fun heq => hnot ⟨heq.1 ▸ hp.deposit, heq.2⟩
    rw [Bank.balance_addCoins, if_neg hother, add_zero]
  | acked _ hclosed => exact closed_quiet hclosed fun _ hneg => ⟨hneg, rfl⟩
  | timedOut _ hclosed => exact closed_quiet hclosed fun _ hneg => ⟨hneg, rfl⟩
  | @delegated _ _ _ _ record hc =>
    have hpositive := hc.positive
    rw [hc.keeper]
    refine ⟨⟨rfl, rfl, rfl, rfl⟩, rfl, rfl, ?_, fun _ _ _ => le_rfl⟩
    intro hnonneg
    show 0 ≤ s.keeper.hostZone.delegatedBalance + record.nativeAmount
    omega
  | adjusted hnonneg =>
    exact ⟨⟨rfl, rfl, rfl, rfl⟩, rfl, rfl, fun _ => hnonneg, fun _ _ _ => le_rfl⟩
  | tuned _ hsetup hdelegated =>
    exact ⟨⟨rfl, rfl, rfl, hsetup⟩, rfl, rfl, hdelegated.symm.le.trans', fun _ _ _ => le_rfl⟩
  | @sent sender _ coin _ hnonneg hsend =>
    refine ⟨⟨rfl, rfl, rfl, rfl⟩, rfl, rfl, id, ?_⟩
    intro a d hnot
    have hother : ¬ (a = sender ∧ d = coin.1) := fun heq => hnot ⟨heq.1.symm, heq.2⟩
    rw [Bank.balance_sendCoins hsend, if_neg hother]
    split <;> omega
  | arrived hnonneg =>
    refine ⟨⟨rfl, rfl, rfl, rfl⟩, rfl, rfl, id, ?_⟩
    intro a d _
    rw [Bank.balance_addCoins]
    split <;> omega

/-- What an event did: one of the steps of an unbonding, or something quiet. -/
inductive Effect (accounts : Accounts) (s : System) : Event → System → Prop
  | quiet {e : Event} {s' : System} : QuietEffect accounts s e s' → Effect accounts s e s'
  | redeemed {redeemer : String} {amount : ℤ} {k' : Keeper}
      {escrowAccount redeemerAccount : String} {record : UnbondingRecord} :
      RedeemedStake accounts s.keeper k' redeemer amount escrowAccount redeemerAccount
        record →
      Effect accounts s (.redeemStake redeemer amount) { s with keeper := k' }
  | prepared {epochNumber : ℕ} {k' : Keeper} {record : UnbondingRecord} :
      s.lastEpoch < epochNumber →
      PreparedUndelegation s.keeper k' epochNumber record →
      Effect accounts s (.prepareUndelegation epochNumber)
        { s with keeper := k', lastEpoch := epochNumber }
  | undelegated {operator txHash : String} {recordId : ℕ} {now : ℤ} {k' : Keeper}
      {escrowAccount : String} {record : UnbondingRecord} :
      ConfirmedUndelegation accounts s.keeper k' recordId escrowAccount record →
      Effect accounts s (.confirmUndelegation operator recordId txHash now)
        { s with keeper := k' }
  | finished (now : ℤ) :
      Effect accounts s (.markFinishedUnbondings now)
        { s with keeper := s.keeper.markFinishedUnbondings now }
  | swept {operator txHash : String} {recordId : ℕ} {k' : Keeper} {claimAccount : String}
      {record : UnbondingRecord} :
      ConfirmedSweep accounts s.keeper k' recordId claimAccount record →
      Effect accounts s (.confirmUnbondedTokenSweep operator recordId txHash)
        { s with keeper := k' }
  | paid {k' : Keeper} {claimAccount : String} {paid : List Payment} :
      accounts.accAddressFromBech32 s.keeper.hostZone.claimAddress = .ok claimAccount →
      PaidRecords accounts s.keeper.hostZone.nativeTokenIbcDenom claimAccount s.keeper k'
        (s.keeper.getAllUnbondingRecordsByStatus .claimable) paid →
      Effect accounts s .distributeClaims
        { s with keeper := k', payments := s.payments ++ paid }

/-- **Every event** that can happen has one of the effects. -/
theorem effect_of_step (h : step accounts s e = some s') : Effect accounts s e s' := by
  cases e with
  | liquidStake staker amount =>
    simp only [step] at h
    split at h
    · obtain ⟨k, hk, rfl⟩ := withKeeper_eq_some.mp h
      obtain ⟨⟨k₁, stToken⟩, hstake, hk⟩ := bind_eq_ok.mp hk
      cases hk
      obtain ⟨account, depositAccount, stAmount, hst⟩ := liquidStake_ok hstake
      exact .quiet (.staked hst)
    · cases h
  | redeemStake redeemer amount =>
    simp only [step] at h
    split at h
    · obtain ⟨k, hk, rfl⟩ := withKeeper_eq_some.mp h
      obtain ⟨⟨k₁, token⟩, hredeem, hk⟩ := bind_eq_ok.mp hk
      cases hk
      obtain ⟨escrowAccount, account, record, hr⟩ := redeemStake_ok hredeem
      exact .redeemed hr
    · cases h
  | confirmDelegation operator recordId txHash =>
    obtain ⟨k, hk, rfl⟩ := withKeeper_eq_some.mp h
    obtain ⟨_, _, hk⟩ := bind_eq_ok.mp hk
    obtain ⟨record, hc⟩ := confirmDelegation_ok hk
    exact .quiet (.delegated hc)
  | confirmUndelegation operator recordId txHash now =>
    obtain ⟨k, hk, rfl⟩ := withKeeper_eq_some.mp h
    obtain ⟨_, _, hk⟩ := bind_eq_ok.mp hk
    obtain ⟨escrowAccount, record, hc⟩ := confirmUndelegation_ok hk
    exact .undelegated hc
  | confirmUnbondedTokenSweep operator recordId txHash =>
    obtain ⟨k, hk, rfl⟩ := withKeeper_eq_some.mp h
    obtain ⟨_, _, hk⟩ := bind_eq_ok.mp hk
    obtain ⟨claimAccount, record, hc⟩ := confirmUnbondedTokenSweep_ok hk
    exact .swept hc
  | prepareUndelegation epochNumber =>
    simp only [step] at h
    split at h
    · rename_i hlt
      obtain ⟨k, hk, rfl⟩ := toOption_map_eq_some.mp h
      obtain ⟨record, hp⟩ := prepareUndelegation_ok hk
      exact .prepared hlt hp
    · cases h
  | markFinishedUnbondings now =>
    cases h
    exact .finished now
  | distributeClaims =>
    obtain ⟨⟨k, paid⟩, hk, rfl⟩ := toOption_map_eq_some.mp h
    obtain ⟨claimAccount, hclaim, hp⟩ := distributeClaims_ok hk
    exact .paid hclaim hp
  | adjustDelegatedBalance _ offset =>
    obtain ⟨k, hk, rfl⟩ := withKeeper_eq_some.mp h
    obtain ⟨_, _, hk⟩ := bind_eq_ok.mp hk
    obtain ⟨_, hnonneg, hk⟩ := bind_eq_ok.mp hk
    cases hk
    exact .quiet (.adjusted (require_eq_ok.mp hnonneg))
  | updateInnerRedemptionRateBounds _ _ =>
    obtain ⟨k, hk, rfl⟩ := withKeeper_eq_some.mp h
    obtain ⟨_, _, hk⟩ := bind_eq_ok.mp hk
    obtain ⟨_, _, hk⟩ := bind_eq_ok.mp hk
    cases hk
    exact .quiet (.tuned rfl rfl rfl)
  | resumeHostZone =>
    obtain ⟨k, hk, rfl⟩ := withKeeper_eq_some.mp h
    obtain ⟨_, _, hk⟩ := bind_eq_ok.mp hk
    cases hk
    exact .quiet (.tuned rfl rfl rfl)
  | beginBlock =>
    cases h
    unfold beginBlocker
    split
    · exact .quiet (.tuned (z := s.keeper.hostZone) rfl rfl rfl)
    · exact .quiet (.tuned rfl rfl rfl)
  | updateRedemptionRate =>
    obtain ⟨k, hk, rfl⟩ := withKeeper_eq_some.mp h
    unfold updateRedemptionRate at hk
    dsimp only at hk
    split at hk
    · cases hk
      exact .quiet (.tuned (z := s.keeper.hostZone) rfl rfl rfl)
    · obtain ⟨_, _, hk⟩ := bind_eq_ok.mp hk
      obtain ⟨_, _, hk⟩ := bind_eq_ok.mp hk
      obtain ⟨_, _, hk⟩ := bind_eq_ok.mp hk
      cases hk
      exact .quiet (.tuned rfl rfl rfl)
  | prepareDelegation epochNumber reply =>
    simp only [step] at h
    split at h
    · obtain ⟨⟨k, sent⟩, hk, rfl⟩ := toOption_map_eq_some.mp h
      rcases prepareDelegation_ok hk with
        ⟨rfl, rfl⟩ | ⟨depositAccount, packet, amount, -, rfl, hp⟩
      · -- nothing to transfer
        show Effect accounts s _ { s with transfers := s.transfers ++ [] }
        rw [List.append_nil]
        exact .quiet (.tuned (z := s.keeper.hostZone) rfl rfl rfl)
      · exact .quiet (.transferred hp)
    · cases h
  | transferAck packet ack =>
    simp only [step] at h
    split at h
    · rename_i hmem
      obtain ⟨k, hk, rfl⟩ := toOption_map_eq_some.mp h
      exact .quiet (.acked hmem (transferAck_ok hk))
    · cases h
  | transferTimeout packet =>
    simp only [step] at h
    split at h
    · rename_i hmem
      obtain ⟨k, hk, rfl⟩ := toOption_map_eq_some.mp h
      exact .quiet (.timedOut hmem (transferTimeout_ok hk))
    · cases h
  | send sender recipient coin =>
    simp only [step] at h
    split at h
    · obtain ⟨k, hk, rfl⟩ := withKeeper_eq_some.mp h
      obtain ⟨bank, hsend, hk⟩ := bind_eq_ok.mp hk
      cases hk
      exact .quiet (.sent (by assumption) hsend)
    · cases h
  | arrive recipient coin =>
    simp only [step] at h
    split at h
    · cases h
      exact .quiet (.arrived (by assumption))
    · cases h

/-! ## Transfers in flight -/

/-- Transfers carry the native token. -/
def NativePackets (s : System) : Prop :=
  ∀ packet ∈ s.transfers, packet.token.1 = s.keeper.hostZone.nativeTokenIbcDenom

private theorem mem_transfers_of_effect (h : Effect accounts s e s')
    (hmem : packet ∈ s'.transfers) :
    packet ∈ s.transfers ∨ packet.token.1 = s.keeper.hostZone.nativeTokenIbcDenom := by
  cases h with
  | quiet hquiet =>
    cases hquiet with
    | transferred hp =>
      rcases List.mem_append.mp hmem with hold | hnew
      · exact .inl hold
      · rw [List.mem_singleton.mp hnew, hp.contents]
        exact .inr rfl
    | acked _ _ => exact .inl (List.mem_of_mem_erase hmem)
    | timedOut _ _ => exact .inl (List.mem_of_mem_erase hmem)
    | _ => exact .inl hmem
  | _ => exact .inl hmem

theorem nativePackets_of_step (h : step accounts s e = some s') (hpackets : s.NativePackets)
    (hsetup : s'.keeper.hostZone.setup = s.keeper.hostZone.setup) : s'.NativePackets := by
  intro packet hmem
  have hdenom : s'.keeper.hostZone.nativeTokenIbcDenom =
      s.keeper.hostZone.nativeTokenIbcDenom := congrArg ZoneSetup.nativeTokenIbcDenom hsetup
  rw [hdenom]
  exact (mem_transfers_of_effect (effect_of_step h) hmem).elim (hpackets packet) id

/-! ## A chain with one user -/

def userAddress : String := "stride1g7yxhuppp5x3yqkah5mw29eqq5s4sv2f222xmk"

/-- The accounts of the module and of a user, under their addresses. -/
def knownAccounts : Accounts where
  accAddressFromBech32 := fun address =>
    if address ∈ [userAddress, depositAddress, redemptionAddress, claimAddress,
        safeAddressOnStride, operatorAddressOnStride] then .ok address
    else wrapf .plain s!"decoding bech32 failed: {address}"
  blockedAddr := fun address => address = moduleName

def userBank (amount : ℤ) : Bank where
  balance := fun a d =>
    if a = userAddress ∧ d = dymensionNativeTokenIBCDenom then amount else 0
  supply := fun _ => 0

/-- The default genesis, in an epoch `lastEpoch`, with the balances of `bank`. -/
def genesis (bank : Bank) (lastEpoch : ℕ) : System where
  keeper := defaultGenesis bank
  nextSequence := 1
  transfers := []
  lastEpoch := lastEpoch
  payments := []

end System

end Stride.Stakedym
