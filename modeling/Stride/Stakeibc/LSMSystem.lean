import Stride.Stakeibc.LSMTransfer
import Stride.Stakeibc.QuerySystem

/-!
# The System of LSM Liquid Stakes

LSM liquid stakes with everything that happens beside them: native liquid stakes, queries for
rates and delegations with their answers, updates of the redemption rates, begin-block checks,
transfers of LSM tokens and their redemption on the host.

A transfer or ICA is answered at most once, in any order, and the transfer module returns the coins
of a transfer that fails or times out. A failed transaction changes nothing.
-/

namespace Stride.Stakeibc

open Lib Sdk Records InterchainQuery

structure LSMSystem where
  ctx : LSMContext
  keeper : LSMKeeper
  /-- transfers without an answer -/
  transfers : List LSMTransfer
  /-- deposits of the ICAs without an answer -/
  detokenizations : List LSMTokenDeposit
  mints : List Mint
  /-- deposits that were detokenized, with the amounts that the host has redeemed -/
  redeemed : List (LSMTokenDeposit × ℤ)

inductive LSMEvent where
  /-- the next block starts, with the check of the redemption rates -/
  | beginBlock (blockTime blockHeight : ℤ) (latestHeight : String → Option (String × ℕ))
  | lsmLiquidStake (msg : MsgLSMLiquidStake)
  | liquidStake (msg : MsgLiquidStake)
  /-- a user sends coins -/
  | send (sender recipient : String) (coin : String × ℤ)
  | queryRate (chainId validatorAddress : String)
  | respondRate (queryId : String) (result : Option QueriedValidator)
  | respondDelegation (queryId : String) (result : Option QueriedDelegation)
  | updateRedemptionRates
  | transfer (replies : List UInt8 → TransferReply)
  | transferAck (i : ℕ) (status : AckStatus)
  | detokenize (closed : List String) (rejected : List (List UInt8))
  | detokenizeAck (i : ℕ) (status : AckStatus) (msgResponses : List ℤ)

/-- The address belongs to the deposit account of a zone. -/
def LSMKeeper.IsDepositAccount (k : LSMKeeper) (address : String) : Prop :=
  ∃ c ∈ chainIds k.hostZones, (k.settings c).depositAddress = address

instance (k : LSMKeeper) (address : String) : Decidable (k.IsDepositAccount address) :=
  inferInstanceAs (Decidable (∃ c ∈ chainIds k.hostZones, _))

/-- A native liquid stake, with what it minted. -/
def LSMKeeper.stakeNative (k : LSMKeeper) (msg : MsgLiquidStake) :
    Result (LSMKeeper × List Mint) := do
  let (staked, stCoin) ← liquidStake k.toLiquidStakeKeeper msg
  let chainIds := (getHostZoneFromHostDenom k.hostZones msg.hostDenom).map HostZone.chainId
  return ({ k with toLiquidStakeKeeper := staked },
    chainIds.toList.map fun c => ⟨k.hostZones, c, stCoin, none⟩)

namespace LSMSystem

/-- The keeper after a function that minted `mints`. -/
def after (s : LSMSystem) (out : LSMKeeper × List Mint) : LSMSystem :=
  { s with keeper := out.1, mints := s.mints ++ out.2 }

/-- One event, or `none` if it cannot happen. A deposit account, which belongs to the module,
    does not sign. -/
def step (s : LSMSystem) : LSMEvent → Option LSMSystem
  | .beginBlock blockTime blockHeight latestHeight =>
    if s.ctx.blockTime ≤ blockTime then
      some { s with
        ctx := { s.ctx with
          blockTime := blockTime, blockHeight := blockHeight, latestHeight := latestHeight }
        keeper := beginBlocker s.keeper }
    else none
  | .lsmLiquidStake msg =>
    if s.keeper.IsDepositAccount msg.creator then none
    else (lsmLiquidStake s.ctx s.keeper msg).toOption.map s.after
  | .liquidStake msg =>
    if s.keeper.IsDepositAccount msg.creator then none
    else (s.keeper.stakeNative msg).toOption.map s.after
  | .send sender recipient coin =>
    if s.keeper.IsDepositAccount sender ∨ coin.2 < 0 then none
    else
      (s.keeper.bank.sendCoins sender recipient coin).toOption.map fun bank =>
        { s with keeper := { s.keeper with bank := bank } }
  | .queryRate chainId validatorAddress =>
    (queryValidatorSharesToTokensRate s.ctx.toContext s.keeper chainId
      validatorAddress).toOption.map fun k => { s with keeper := k }
  | .respondRate queryId result =>
    (respondRate s.ctx s.keeper queryId result).toOption.map s.after
  | .respondDelegation queryId result =>
    (delegatorSharesResponse s.ctx.toContext s.keeper queryId result).toOption.map fun k =>
      { s with keeper := k }
  | .updateRedemptionRates =>
    (updateRedemptionRates s.keeper).toOption.map fun k => { s with keeper := k }
  | .transfer replies =>
    let (k, sent) := transferAllLSMDeposits s.keeper replies
    some { s with keeper := k, transfers := s.transfers ++ sent }
  | .transferAck i status =>
    match s.transfers[i]? with
    | none => none
    | some t =>
      let k := lsmTransferCallback s.keeper t.deposit status
      some { s with
        keeper := { k with
          bank := if status = .success then k.bank else k.bank.addCoins t.msg.sender t.msg.token }
        transfers := s.transfers.eraseIdx i }
  | .detokenize closed rejected =>
    let (k, sent) := detokenizeAllLSMDeposits s.keeper closed rejected
    some { s with keeper := k, detokenizations := s.detokenizations ++ sent }
  | .detokenizeAck i status msgResponses =>
    match s.detokenizations[i]? with
    | none => none
    | some deposit =>
      (s.keeper.detokenizeCallback deposit status msgResponses).toOption.map fun k =>
        { s with
          keeper := k
          detokenizations := s.detokenizations.eraseIdx i
          redeemed := s.redeemed ++
            if status = .success then msgResponses.map (deposit, ·) else [] }

/-- A stored query has a stake waiting for its answer. -/
def Waits (s : LSMSystem) (id : String) (l : LSMLiquidStake) : Prop :=
  ∃ query, s.keeper.rateQueries.queries.get? id = some query ∧
    query.callbackData = .lsmLiquidStake l

instance (s : LSMSystem) {p : String → LSMLiquidStake → Prop} [∀ id l, Decidable (p id l)] :
    Decidable (∀ id l, s.Waits id l → p id l) :=
  decidable_of_iff (∀ id query, s.keeper.rateQueries.queries.get? id = some query →
      ∀ l, query.callbackData = .lsmLiquidStake l → p id l) <| by
    unfold Waits
    grind

end LSMSystem

theorem stakeNative_frame {k k' : LSMKeeper} {msg : MsgLiquidStake} {mints : List Mint}
    (h : k.stakeNative msg = .ok (k', mints)) :
    k' = { k with bank := k'.bank, depositRecords := k'.depositRecords } ∧
      ∀ m ∈ mints, m.stake = none := by
  obtain ⟨⟨staked, stCoin⟩, hstake, h⟩ := bind_eq_ok.mp h
  cases h
  obtain ⟨z, r, hstaked⟩ := liquidStake_ok hstake
  constructor
  · have hkeeper := hstaked.keeper
    rw [hkeeper]
  · intro m hm
    obtain ⟨c, -, rfl⟩ := List.mem_map.mp hm
    rfl

/-! ## Quiet events -/

/-- Keepers that agree on all that minting depends on, up to the redemption rates. -/
structure LSMKeeper.SameMinting (k k' : LSMKeeper) : Prop where
  params : k'.params = k.params
  settings : k'.settings = k.settings
  rateQueries : k'.rateQueries = k.rateQueries
  hostZones : KeyedStore.SameView HostZone.haltedAndRates k.hostZones k'.hostZones

/-- The answers about delegations, the updates of the redemption rates, and everything that moves
    coins and deposits without minting. -/
def LSMEvent.IsQuiet : LSMEvent → Prop
  | .send .. | .respondDelegation .. | .updateRedemptionRates | .transfer .. | .transferAck ..
  | .detokenize .. | .detokenizeAck .. => True
  | _ => False

/-- **Quiet events** mint nothing, halt nothing, and touch neither the rates of validators nor
    their queries. -/
theorem LSMSystem.step_of_isQuiet {s s' : LSMSystem} {e : LSMEvent}
    (h : s.step e = some s') (hquiet : e.IsQuiet) :
    s'.ctx = s.ctx ∧ s.keeper.SameMinting s'.keeper ∧ s'.mints = s.mints := by
  cases e with
  | send sender recipient coin =>
    dsimp only [step] at h
    split at h
    · cases h
    obtain ⟨bank, -, rfl⟩ := toOption_map_eq_some.mp h
    exact ⟨rfl, ⟨rfl, rfl, rfl, .refl _ _⟩, rfl⟩
  | respondDelegation queryId result =>
    obtain ⟨k, hk, rfl⟩ := toOption_map_eq_some.mp h
    obtain ⟨hview, hkeeper⟩ := delegatorSharesResponse_ok hk
    exact ⟨rfl, ⟨by rw [hkeeper], by rw [hkeeper], by rw [hkeeper], hview⟩, rfl⟩
  | updateRedemptionRates =>
    obtain ⟨k, hk, rfl⟩ := toOption_map_eq_some.mp h
    obtain ⟨hview, hkeeper⟩ := updateRedemptionRates_ok hk
    exact ⟨rfl, ⟨by rw [hkeeper], by rw [hkeeper], by rw [hkeeper], hview⟩, rfl⟩
  | transfer replies =>
    cases h
    have hsame : s.keeper.SameMinting (transferAllLSMDeposits s.keeper replies).1 := by
      rw [transferAllLSMDeposits_frame]
      exact ⟨rfl, rfl, rfl, .refl _ _⟩
    exact ⟨rfl, hsame, rfl⟩
  | transferAck i status =>
    dsimp only [step] at h
    split at h
    · cases h
    cases h
    exact ⟨rfl, ⟨rfl, rfl, rfl, .refl _ _⟩, rfl⟩
  | detokenize closed rejected =>
    cases h
    obtain ⟨hview, hframe⟩ := detokenizeAllLSMDeposits_frame s.keeper closed rejected
    have hsame : s.keeper.SameMinting (detokenizeAllLSMDeposits s.keeper closed rejected).1 :=
      ⟨by rw [hframe], by rw [hframe], by rw [hframe], hview⟩
    exact ⟨rfl, hsame, rfl⟩
  | detokenizeAck i status msgResponses =>
    dsimp only [step] at h
    split at h
    · cases h
    obtain ⟨k, hk, rfl⟩ := toOption_map_eq_some.mp h
    obtain ⟨hview, hkeeper⟩ := LSMKeeper.detokenizeCallback_frame hk
    exact ⟨rfl, ⟨by rw [hkeeper], by rw [hkeeper], by rw [hkeeper], hview⟩, rfl⟩
  | beginBlock _ _ _ | lsmLiquidStake _ | liquidStake _ | queryRate _ _ | respondRate _ _ =>
    cases hquiet

/-! ## A small system -/

/-- Two LSM tokens of `val1` are known to the transfer module. -/
def lsmContext : LSMContext where
  toContext := QuerySystem.smallContext
  blockHeight := 1
  parseHexHash hexHash := .ok (bytes hexHash)
  getDenom hash :=
    if hash = bytes "VAL1" then some ⟨"val1/7", [⟨"transfer", "channel-0"⟩]⟩
    else if hash = bytes "VAL1B" then some ⟨"val1/8", [⟨"transfer", "channel-0"⟩]⟩
    else none

/-- A zone of two validators, and a staker with LSM tokens of the first one. The next stake of
    10 or more reaches its checkpoint. -/
def lsmHub : LSMSystem where
  ctx := lsmContext
  keeper :=
    { params := ⟨90, 150⟩
      hostZones := KeyedStore.empty.set twoValidatorZone
      settings := fun _ => plainSettings "val" "deposit"
      strideEpoch := none
      depositRecords := KeyedStore.empty
      bank := ⟨fun a d => if a = "staker" ∧ (d = "ibc/VAL1" ∨ d = "ibc/VAL1B") then 100 else 0,
        fun d => if d = "stuatom" then 400 else 0⟩
      validatorSlashQueryThreshold := 25
      slashQueryProgress := fun _ a => if a = "val1" then ⟨90, 100⟩ else ⟨0, 0⟩
      lsmTokenDeposits := KeyedStore.empty
      rateQueries := ⟨KeyedStore.empty, none⟩
      delegationQueries := ⟨KeyedStore.empty, none⟩ }
  transfers := []
  detokenizations := []
  mints := []
  redeemed := []

end Stride.Stakeibc
