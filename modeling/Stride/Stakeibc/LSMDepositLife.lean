import Stride.Stakeibc.LSMDeposits

/-!
# Runs with LSM Deposits

Every event of the system keeps the invariant of the deposits and has one of five effects on them.
Over a whole run, each mint is accounted for by a detokenization or by a stored deposit.
-/

namespace Stride.Stakeibc

open Lib Sdk Records InterchainQuery KeyedStore List LSMSystem

namespace LSMSystem

variable {e : LSMEvent} {key : List UInt8}

/-- The transfer module does not fail after it has taken the coins. -/
def TransfersWhole (s : LSMSystem) : LSMEvent → Prop
  | .transfer replies => ∀ key d, s.deposit? key = some d → replies key ≠ .failed
  | _ => True

instance (s : LSMSystem) (e : LSMEvent) : Decidable (s.TransfersWhole e) := by
  apply @LSMEvent.casesOn _ e <;> intros <;> dsimp only [TransfersWhole, deposit?] <;>
    infer_instance

namespace DepositInv

variable {s s' : LSMSystem} {held : Prop}

/-! ## One event -/

private theorem relabelled_of_deposits {nativeMints : List Mint}
    (hdeposits : s'.keeper.lsmTokenDeposits = s.keeper.lsmTokenDeposits)
    (hmints : s'.mints = s.mints ++ nativeMints) (hnative : ∀ m ∈ nativeMints, m.stake = none)
    (hredeemed : s'.redeemed = s.redeemed) : Relabelled s s' := by
  refine ⟨fun key => .inl ?_, ⟨nativeMints, hmints, hnative⟩, hredeemed⟩
  unfold deposit?
  rw [hdeposits]

/-- **An event beside the deposits**. -/
theorem unmoved (hi : s.DepositInv held) {nativeMints : List Mint} (hzones : SameZones s s')
    (hloss : NoLoss s s') (hdeposits : s'.keeper.lsmTokenDeposits = s.keeper.lsmTokenDeposits)
    (hwaits : ∀ id l, s'.Waits id l → s.Waits id l) (htransfers : s'.transfers = s.transfers)
    (hdetokenizations : s'.detokenizations = s.detokenizations)
    (hmints : s'.mints = s.mints ++ nativeMints) (hnative : ∀ m ∈ nativeMints, m.stake = none)
    (hredeemed : s'.redeemed = s.redeemed) : s'.DepositInv held ∧ DepositEffect s e s' :=
  ⟨hi.of_noLoss hzones hloss hdeposits hwaits (htransfers ▸ .refl _) (hdetokenizations ▸ .refl _),
    .relabelled (relabelled_of_deposits hdeposits hmints hnative hredeemed)⟩

variable {k : LSMKeeper} {l : LSMLiquidStake} {mints : List Mint} {query : RateQuery}
  {queryId : String}

/-- **Finish**: a stake whose staker is not a deposit account is minted. -/
theorem minted_of_finished {k₁ : LSMKeeper} (h : FinishedLSMLiquidStake k₁ k l)
    (hbank : k₁.bank = s.keeper.bank) (hsettings : k₁.settings = s.keeper.settings)
    (hothers : ∀ key, key ≠ l.deposit.key → k₁.lsmTokenDeposits.get? key = s.deposit? key)
    (hzone : l.hostZone.chainId = l.deposit.chainId) (hpending : l.deposit.status = .depositPending)
    (hbefore : s.deposit? l.deposit.key = none ∨ s.deposit? l.deposit.key = some l.deposit)
    (horigin : s.origin l.deposit.ibcDenom = some (l.deposit.chainId, l.deposit.denom))
    (hstaker : ¬s.keeper.IsDepositAccount l.deposit.stakerAddress) :
    Minted s (s.after (k, [lsmMint k₁ l])) l := by
  have hdeposits : k.lsmTokenDeposits =
      k₁.lsmTokenDeposits.set { l.deposit with status := .transferQueue } := by
    rw [h.keeper]
  have hmem : l.deposit.chainId ∈ chainIds s.keeper.hostZones := mem_of_lsmOrigin horigin
  refine ⟨hbefore, hpending, ?_, fun key hkey => ?_, h.nonneg,
    fun heq => hstaker ⟨_, hmem, heq.symm⟩, fun a d => ?_, fun d => ?_, ⟨_, rfl, rfl, rfl⟩, rfl⟩
  · show k.lsmTokenDeposits.get? _ = _
    rw [hdeposits]
    exact get?_set_self k₁.lsmTokenDeposits { l.deposit with status := .transferQueue }
  · show k.lsmTokenDeposits.get? _ = _
    rw [hdeposits]
    exact (get?_set_of_ne k₁.lsmTokenDeposits
      { l.deposit with status := .transferQueue } hkey).trans (hothers key hkey)
  · have hbalance := h.balance a d
    rw [hbank, hsettings, hzone] at hbalance
    exact hbalance
  · have hsupply := h.supply d
    rw [hbank] at hsupply
    exact hsupply

/-- **An LSM stake** waits for a query or is minted at once. -/
theorem lsmLiquidStake (hi : s.DepositInv held) {msg : MsgLSMLiquidStake}
    (hsigner : ¬s.keeper.IsDepositAccount msg.creator)
    (h : lsmLiquidStake s.ctx s.keeper msg = .ok (k, mints)) :
    (s.after (k, mints)).DepositInv held ∧
      DepositEffect s (.lsmLiquidStake msg) (s.after (k, mints)) := by
  obtain ⟨started, l, hstart, hcases⟩ := lsmLiquidStake_ok h
  obtain ⟨hvalid, -, hfree, -, rfl⟩ := startLSMLiquidStake_ok hstart
  obtain ⟨rfl, hkeeper, query, hdata, -, -, hqueries⟩ | ⟨rfl, hfinish⟩ := hcases
  · -- the rate is queried first, and the deposit waits
    generalize k.rateQueries = icq at hkeeper hqueries
    subst hkeeper
    exact ⟨hi.park hvalid hsigner hfree hdata hqueries, .parked l.deposit
      ⟨hfree, get?_set_self _ _, hvalid.status, fun key hkey => get?_set_of_ne _ _ hkey, rfl,
        append_nil _, rfl⟩⟩
  · obtain ⟨hfinished, -⟩ := finishLSMLiquidStake_ok hfinish
    have hstaker : ¬s.keeper.IsDepositAccount l.deposit.stakerAddress := by
      have heq : l.deposit.stakerAddress = msg.creator :=
        congrArg MsgLSMLiquidStake.creator hvalid.msg
      rw [heq]
      exact hsigner
    have horigin : s.origin l.deposit.ibcDenom = some (l.deposit.chainId, l.deposit.denom) := by
      have heq : l.deposit.ibcDenom = msg.lsmTokenIbcDenom :=
        congrArg MsgLSMLiquidStake.lsmTokenIbcDenom hvalid.msg
      rw [heq]
      exact hvalid.origin
    have hminted : Minted s (s.after (k, [lsmMint _ l])) l :=
      minted_of_finished hfinished rfl rfl (fun key hkey => get?_set_of_ne _ _ hkey)
        hvalid.chainId hvalid.status (.inl hfree) horigin hstaker
    have hkeeper := hfinished.keeper
    generalize k.bank = bank, k.slashQueryProgress = progress at hkeeper
    subst hkeeper
    refine ⟨hi.mint ⟨rfl, rfl, rfl⟩ hminted horigin hstaker (fun id l' hl => ?_) rfl rfl,
      .minted l hminted⟩
    exact ⟨hl, hi.parked_ne (fun d hd => by cases hfree.symm.trans hd) hl⟩

private theorem waits_delete (queryId : String)
    (h : s'.keeper.rateQueries = deleteQuery s.keeper.rateQueries queryId) (id : String)
    (l : LSMLiquidStake) (hl : s'.Waits id l) : s.Waits id l ∧ id ≠ queryId := by
  obtain ⟨query, hget, hdata⟩ := hl
  rw [h] at hget
  replace hget := (get?_delete ..).symm.trans hget
  split at hget
  · cases hget
  rename_i hid
  exact ⟨⟨query, hget, hdata⟩, hid⟩

section

variable (hi : s.DepositInv held)
include hi

/-- **A failed stake** loses its deposit. -/
theorem failed (hl : s.Waits queryId l) (hzones : SameZones s s')
    (hdeposits : s'.keeper.lsmTokenDeposits =
      s.keeper.lsmTokenDeposits.removeLSMTokenDeposit l.deposit.chainId l.deposit.denom)
    (hbank : s'.keeper.bank = s.keeper.bank)
    (hwaits : ∀ id l', s'.Waits id l' → s.Waits id l' ∧ id ≠ queryId)
    (htransfers : s'.transfers = s.transfers)
    (hdetokenizations : s'.detokenizations = s.detokenizations) (hmints : s'.mints = s.mints)
    (hredeemed : s'.redeemed = s.redeemed) : s'.DepositInv held ∧ DepositEffect s e s' := by
  obtain ⟨hstored, hpending, -, -⟩ := hi.parked queryId l hl
  have hdropped : Dropped s s' l.deposit := by
    refine ⟨hstored, hpending, ?_, fun key hkey => ?_, hbank, hmints, hredeemed⟩
    · unfold deposit?
      rw [hdeposits]
      exact get?_delete_self ..
    · unfold deposit?
      rw [hdeposits]
      exact get?_delete_of_ne _ hkey
  exact ⟨hi.drop hl hzones hdropped hwaits htransfers hdetokenizations, .dropped _ hdropped⟩

/-- **A retried query**: the same stake waits for it. -/
theorem retry {icq : IcqKeeper RateQueryData}
    (hquery : s.keeper.rateQueries.queries.get? queryId = some query)
    (hretry : retryICQRequest s.ctx.toContext (deleteQuery s.keeper.rateQueries queryId) query =
      .ok icq) :
    ({ s with keeper := { s.keeper with rateQueries := icq } } : LSMSystem).DepositInv held := by
  obtain ⟨query', -, hrequest, hqueries, -⟩ := retryICQRequest_ok hretry
  obtain ⟨hdata, -, -⟩ := rateQuery_of_request hrequest
  -- a stake that waits has waited before, for the query that was taken out if its id is new
  have hwaits {id : String} {l : LSMLiquidStake}
      (hl : ({ s with keeper := { s.keeper with rateQueries := icq } } : LSMSystem).Waits id l) :
      id = query'.id ∧ s.Waits queryId l ∨ id ≠ query'.id ∧ id ≠ queryId ∧ s.Waits id l := by
    obtain ⟨q, hget, hdata'⟩ := hl
    rw [hqueries, get?_set] at hget
    split at hget
    · rename_i hid
      cases hget
      exact .inl ⟨hid, query, hquery, hdata.symm.trans hdata'⟩
    · rename_i hid
      rw [get?_delete] at hget
      split at hget
      · cases hget
      replace hget := (get?_delete ..).symm.trans hget
      split at hget
      · cases hget
      rename_i hne
      exact .inr ⟨hid, hne, q, hget, hdata'⟩
  have hzones : SameZones s { s with keeper := { s.keeper with rateQueries := icq } } :=
    ⟨rfl, rfl, rfl⟩
  refine hi.of_write hzones ∅ (fun key _ => rfl) (fun key d hkey => hkey.elim)
    ⟨fun _ _ _ _ h => h, hi.funds⟩ (fun id l hl => .inl ⟨Set.notMem_empty _, ?_⟩)
    (fun id id' l l' hl hl' hkey => ?_) (fun t ht => .inl ⟨Set.notMem_empty _, ht⟩) hi.sentOnce
    (fun d hd => .inl ⟨Set.notMem_empty _, hd⟩) hi.redeemingOnce
  · obtain ⟨-, hl⟩ | ⟨-, -, hl⟩ := hwaits hl
    · exact hi.parked queryId l hl
    · exact hi.parked id l hl
  · obtain ⟨hid, hold⟩ | ⟨-, hne, hold⟩ := hwaits hl
    · obtain ⟨hid', -⟩ | ⟨-, hne', hold'⟩ := hwaits hl'
      · exact hid.trans hid'.symm
      · exact absurd (hi.parkedOnce _ _ _ _ hold hold' hkey).symm hne'
    · obtain ⟨-, hold'⟩ | ⟨-, -, hold'⟩ := hwaits hl'
      · exact absurd (hi.parkedOnce _ _ _ _ hold hold' hkey) hne
      · exact hi.parkedOnce _ _ _ _ hold hold' hkey

/-- **An answer**: a stake that waited is minted or dropped. -/
theorem answered
    (hquery : s.keeper.rateQueries.queries.get? queryId = some query) {args : QueriedValidator}
    {z zone : HostZone} {v : Validator} {rate : LegacyDec} {slashed : Bool} (e : LSMEvent)
    (h : RateAnswered s.ctx (s.keeper.withoutRateQuery queryId) k query args mints z zone v rate
      slashed) : (s.after (k, mints)).DepositInv held ∧ DepositEffect s e (s.after (k, mints)) := by
  have hview := h.sameHalted
  obtain ⟨-, hsettings⟩ := h.settled.params_settings
  have hqueries := h.settled.rateQueries
  have hzones : SameZones s (s.after (k, mints)) := .of_sameView hview rfl hsettings
  have hwaits : ∀ id l, (s.after (k, mints)).Waits id l → s.Waits id l ∧ id ≠ queryId :=
    waits_delete queryId hqueries
  have hsettled := h.settled
  cases hsettled with
  | notWaiting hdata hkeeper =>
    generalize k.hostZones = zones, k.delegationQueries = queries at hkeeper
    subst hkeeper
    exact hi.unmoved hzones (.of_bank rfl) rfl (fun id l hl => (hwaits id l hl).1) rfl rfl rfl
      (by simp) rfl
  | failed l hdata hkeeper =>
    have hl : s.Waits queryId l := ⟨query, hquery, hdata⟩
    generalize k.hostZones = zones, k.delegationQueries = queries at hkeeper
    subst hkeeper
    exact hi.failed hl hzones rfl rfl hwaits rfl rfl (append_nil _) rfl
  | finished l hdata hslashed hfinish =>
    have hl : s.Waits queryId l := ⟨query, hquery, hdata⟩
    obtain ⟨hstored, hpending, hzone, hstaker⟩ := hi.parked queryId l hl
    obtain ⟨hfinished, -⟩ := finishLSMLiquidStake_ok hfinish
    have horigin := (hi.deposits _ _ hstored).origin
    have hminted := minted_of_finished (s := s) hfinished rfl rfl (fun _ _ => rfl) hzone hpending
      (.inr hstored) horigin hstaker
    refine ⟨hi.mint hzones hminted horigin hstaker (fun id l' hl' => ?_) rfl rfl,
      .minted l hminted⟩
    -- no other query waits for this deposit
    obtain ⟨hl', hid⟩ := hwaits id l' hl'
    exact ⟨hl', fun hkey => hid (hi.parkedOnce _ _ _ _ hl' hl hkey)⟩

private theorem respondRate {result : Option QueriedValidator}
    (h : respondRate s.ctx s.keeper queryId result = .ok (k, mints)) :
    (s.after (k, mints)).DepositInv held ∧
      DepositEffect s (.respondRate queryId result) (s.after (k, mints)) := by
  obtain ⟨rfl, rfl⟩ | ⟨query, hquery, ⟨rfl, rfl⟩ | ⟨rfl, icq, hretry, rfl⟩ | ⟨rfl, rfl⟩ |
    ⟨args, z, zone, v, rate, slashed, -, -, hanswered⟩⟩ := respondRate_ok h
  · exact hi.unmoved ⟨rfl, rfl, rfl⟩ (.of_bank rfl) rfl (fun _ _ h => h) rfl rfl rfl (by simp) rfl
  · -- an answer without content: the stake does not wait any more, and its deposit stays
    exact hi.unmoved ⟨rfl, rfl, rfl⟩ (.of_bank rfl) rfl
      (fun id l hl => (waits_delete queryId rfl id l hl).1) rfl rfl rfl (by simp) rfl
  · have hinv := hi.retry hquery hretry
    refine ⟨?_, .relabelled (relabelled_of_deposits rfl rfl (by simp) rfl)⟩
    exact hinv.of_noLoss ⟨rfl, rfl, rfl⟩ (.of_bank rfl) rfl (fun _ _ h => h) (.refl _) (.refl _)
  · cases hdata : query.callbackData with
    | empty =>
      exact hi.unmoved ⟨rfl, rfl, rfl⟩ (.of_bank rfl) rfl
        (fun id l hl => (waits_delete queryId rfl id l hl).1) rfl rfl rfl (by simp) rfl
    | lsmLiquidStake l =>
      have hl : s.Waits queryId l := ⟨query, hquery, hdata⟩
      exact hi.failed hl ⟨rfl, rfl, rfl⟩ rfl rfl
        (waits_delete queryId rfl) rfl rfl (append_nil _) rfl
  · exact hi.answered hquery _ hanswered

end

private theorem noLoss_of_send {bank : Bank} {sender recipient : String} {coin : String × ℤ}
    (hsender : ¬s.keeper.IsDepositAccount sender) (hcoin : 0 ≤ coin.2)
    (h : s.keeper.bank.sendCoins sender recipient coin = .ok bank) :
    NoLoss s { s with keeper := { s.keeper with bank := bank } } := by
  intro c hc denom
  have hne : (s.keeper.settings c).depositAddress ≠ sender := fun heq => hsender ⟨c, hc, heq⟩
  rw [Bank.balance_sendCoins h, if_neg fun h => hne h.1]
  split <;> omega

/-- **A native stake** leaves the deposits as they are. -/
theorem liquidStake (hi : s.DepositInv held) {msg : MsgLiquidStake}
    (hsigner : ¬s.keeper.IsDepositAccount msg.creator)
    (h : s.keeper.stakeNative msg = .ok (k, mints)) :
    (s.after (k, mints)).DepositInv held ∧
      DepositEffect s (.liquidStake msg) (s.after (k, mints)) := by
  obtain ⟨hkeeper, hnative⟩ := stakeNative_frame h
  obtain ⟨⟨staked, stCoin⟩, hstake, h⟩ := bind_eq_ok.mp h
  obtain ⟨z, r, hstaked⟩ := liquidStake_ok hstake
  have hloss : NoLoss s (s.after (k, mints)) := by
    intro c hc denom
    have hne : (s.keeper.settings c).depositAddress ≠ msg.creator :=
      fun heq => hsigner ⟨c, hc, heq⟩
    have hbank : k.bank = staked.bank := by cases h; rfl
    have hnonneg := hstaked.nonneg
    show _ ≤ k.bank.balance _ _
    rw [hbank, hstaked.balance]
    simp only [hne, false_and, if_false, sub_zero, add_zero]
    split <;> omega
  generalize k.bank = bank, k.depositRecords = records at hkeeper
  subst hkeeper
  exact hi.unmoved ⟨rfl, rfl, rfl⟩ hloss rfl (fun _ _ h => h) rfl rfl rfl hnative rfl

private theorem ofZones (hi : s.DepositInv held) {α : Type*} (view : HostZone → α) (e : LSMEvent)
    (hview : SameView view s.keeper.hostZones k.hostZones) (hkeeper : k = { s.keeper with
      hostZones := k.hostZones
      delegationQueries := k.delegationQueries }) (ctx : LSMContext)
    (hctx : lsmOrigin ctx = lsmOrigin s.ctx) :
    ({ s with ctx := ctx, keeper := k } : LSMSystem).DepositInv held ∧
      DepositEffect s e { s with ctx := ctx, keeper := k } := by
  generalize k.hostZones = zones, k.delegationQueries = queries at hkeeper hview
  subst hkeeper
  exact hi.unmoved (.of_sameView hview hctx rfl) (.of_bank rfl) rfl (fun _ _ h => h) rfl rfl
    (append_nil _).symm (by simp) rfl

/-- **Preservation**: every event keeps the invariant, and its effect on the deposits is one of
    the five. -/
theorem step (hi : s.DepositInv held) (hwhole : held → s.TransfersWhole e)
    (h : s.step e = some s') :
    s'.DepositInv held ∧ DepositEffect s e s' := by
  cases e with
  | beginBlock blockTime blockHeight latestHeight =>
    dsimp only [step] at h
    split at h
    · cases h
      refine hi.ofZones HostZone.chainId (k := beginBlocker s.keeper) _ (fun c => ?_) rfl
        _ rfl
      rw [get?_beginBlocker, Option.map_map]
      congr 1
      funext z
      dsimp only [Function.comp_apply]
      split <;> rfl
    · cases h
  | lsmLiquidStake msg =>
    dsimp only [step] at h
    split at h
    · cases h
    rename_i hsigner
    obtain ⟨⟨k, mints⟩, hk, rfl⟩ := toOption_map_eq_some.mp h
    exact hi.lsmLiquidStake hsigner hk
  | liquidStake msg =>
    dsimp only [step] at h
    split at h
    · cases h
    rename_i hsigner
    obtain ⟨⟨k, mints⟩, hk, rfl⟩ := toOption_map_eq_some.mp h
    exact hi.liquidStake hsigner hk
  | send sender recipient coin =>
    dsimp only [step] at h
    split at h
    · cases h
    rename_i hsender
    push Not at hsender
    obtain ⟨bank, hbank, rfl⟩ := toOption_map_eq_some.mp h
    exact hi.unmoved ⟨rfl, rfl, rfl⟩ (noLoss_of_send hsender.1 hsender.2 hbank) rfl (fun _ _ h => h)
      rfl rfl (append_nil _).symm (by simp) rfl
  | queryRate chainId validatorAddress =>
    obtain ⟨k, hk, rfl⟩ := toOption_map_eq_some.mp h
    obtain ⟨hkeeper, query, hdata, -, -, hqueries⟩ := submitValidatorSharesToTokensRateICQ_ok hk
    generalize k.rateQueries = icq at hkeeper hqueries
    subst hkeeper
    refine hi.unmoved ⟨rfl, rfl, rfl⟩ (.of_bank rfl) rfl (fun id l hl => ?_) rfl rfl
      (append_nil _).symm (by simp) rfl
    -- nothing waits for a query by hand
    obtain ⟨query', hget, hdata'⟩ := hl
    rw [hqueries, get?_set] at hget
    split at hget
    · cases hget
      rw [hdata] at hdata'
      cases hdata'
    · exact ⟨query', hget, hdata'⟩
  | respondRate queryId result =>
    obtain ⟨⟨k, mints⟩, hk, rfl⟩ := toOption_map_eq_some.mp h
    exact hi.respondRate hk
  | respondDelegation queryId result =>
    obtain ⟨k, hk, rfl⟩ := toOption_map_eq_some.mp h
    obtain ⟨hview, hkeeper⟩ := delegatorSharesResponse_ok hk
    exact hi.ofZones _ _ hview hkeeper s.ctx rfl
  | updateRedemptionRates =>
    obtain ⟨k, hk, rfl⟩ := toOption_map_eq_some.mp h
    obtain ⟨hview, hkeeper⟩ := updateRedemptionRates_ok hk
    exact hi.ofZones _ _ hview (by rw [hkeeper]) s.ctx rfl
  | transfer replies =>
    cases h
    obtain ⟨hinv, hlabels⟩ := hi.transferAll replies hwhole
    exact ⟨hinv, .relabelled hlabels⟩
  | transferAck i status =>
    dsimp only [step] at h
    split at h
    · cases h
    rename_i t ht
    cases h
    obtain ⟨hinv, hlabels⟩ := hi.transferAck ht status
    exact ⟨hinv, .relabelled hlabels⟩
  | detokenize closed rejected =>
    cases h
    obtain ⟨hinv, hlabels⟩ := hi.detokenizeAll closed rejected
    exact ⟨hinv, .relabelled hlabels⟩
  | detokenizeAck i status msgResponses =>
    dsimp only [step] at h
    split at h
    · cases h
    rename_i copy hcopy
    obtain ⟨k, hk, rfl⟩ := toOption_map_eq_some.mp h
    exact hi.detokenizeAck hcopy hk

end DepositInv

/-! ## Whole runs -/

/-- How often stTokens were minted for a deposit with this key. -/
def mintsFor (s : LSMSystem) (key : List UInt8) : ℕ :=
  s.mints.countP fun m => m.stake.map (fun l => l.deposit.key) = some key

/-- How often a deposit with this key was detokenized. -/
def redeemedFor (s : LSMSystem) (key : List UInt8) : ℕ :=
  s.redeemed.countP fun r => r.1.key = key

/-- One if the deposit under the key was minted. -/
def outstanding (s : LSMSystem) (key : List UInt8) : ℕ :=
  match s.deposit? key with
  | some deposit => if deposit.status = .depositPending then 0 else 1
  | none => 0

/-- Each mint is accounted for by a detokenization or by the deposit that is stored. -/
def MintedOnce (s : LSMSystem) : Prop :=
  ∀ key, s.mintsFor key = s.redeemedFor key + s.outstanding key

/-- The deposits of a zone, in one voucher, that the deposit account has to hold. -/
def unsent (s : LSMSystem) (chainId ibcDenom : String) : List LSMTokenDeposit :=
  s.keeper.lsmTokenDeposits.values.filter fun d => d.chainId = chainId ∧ d.ibcDenom = ibcDenom ∧
    (d.status = .transferQueue ∨ d.status = .transferFailed)

/-- Deposit accounts hold what was not sent. -/
def Backed (s : LSMSystem) : Prop :=
  ∀ c ∈ chainIds s.keeper.hostZones, ∀ ibcDenom,
    ((s.unsent c ibcDenom).map LSMTokenDeposit.amount).sum ≤
      s.keeper.bank.balance (s.keeper.settings c).depositAddress ibcDenom

private theorem outstanding_of_some {s : LSMSystem} {d : LSMTokenDeposit}
    (h : s.deposit? key = some d) :
    s.outstanding key = if d.status = .depositPending then 0 else 1 := by
  unfold outstanding
  rw [h]

private theorem outstanding_of_none {s : LSMSystem} (h : s.deposit? key = none) :
    s.outstanding key = 0 := by
  unfold outstanding
  rw [h]

private theorem outstanding_congr {s s' : LSMSystem} (h : s'.deposit? key = s.deposit? key) :
    s'.outstanding key = s.outstanding key := by
  unfold outstanding
  rw [h]

/-- Each of the five effects accounts for its mints. -/
theorem MintedOnce.effect {s s' : LSMSystem} (hm : s.MintedOnce) (h : DepositEffect s e s') :
    s'.MintedOnce := by
  intro key
  have hkey := hm key
  cases h with
  | relabelled h =>
    obtain ⟨nativeMints, hmints, hnative⟩ := h.mints
    -- the mints of native stakes are for no deposit
    have hnone :
        nativeMints.countP (fun m => m.stake.map (fun l => l.deposit.key) = some key) = 0 := by
      rw [countP_eq_zero]
      intro m hm
      rw [hnative m hm]
      simp
    have hout : s'.outstanding key = s.outstanding key := by
      rcases h.deposits key with heq | ⟨d, status, hd, hpast, hstatus, heq⟩
      · exact outstanding_congr heq
      · rw [outstanding_of_some heq, outstanding_of_some hd, if_neg hpast, if_neg hstatus]
    unfold mintsFor redeemedFor at hkey ⊢
    rw [hmints, countP_append, hnone, h.redeemed, hout]
    exact hkey
  | parked d h =>
    have hout : s'.outstanding key = s.outstanding key := by
      by_cases hd : key = d.key
      · rw [hd, outstanding_of_some h.stored, outstanding_of_none h.free, if_pos h.pending]
      · exact outstanding_congr (h.others key hd)
    unfold mintsFor redeemedFor at hkey ⊢
    rw [h.mints, h.redeemed, hout]
    exact hkey
  | dropped d h =>
    have hout : s'.outstanding key = s.outstanding key := by
      by_cases hd : key = d.key
      · rw [hd, outstanding_of_none h.removed, outstanding_of_some h.stored, if_pos h.pending]
      · exact outstanding_congr (h.others key hd)
    unfold mintsFor redeemedFor at hkey ⊢
    rw [h.mints, h.redeemed, hout]
    exact hkey
  | minted l h =>
    obtain ⟨m, hstake, -, hmints⟩ := h.mints
    have hcount : s'.mintsFor key = s.mintsFor key + if key = l.deposit.key then 1 else 0 := by
      unfold mintsFor
      rw [hmints, countP_append, countP_singleton, hstake]
      simp [eq_comm]
    have hredeemed : s'.redeemedFor key = s.redeemedFor key := by
      unfold redeemedFor
      rw [h.redeemed]
    rw [hcount, hredeemed, hkey]
    by_cases hd : key = l.deposit.key
    · -- the deposit was absent or pending, neither of which counts
      have hbefore : s.outstanding key = 0 := by
        rw [hd]
        rcases h.before with hnone | hsome
        · exact outstanding_of_none hnone
        · rw [outstanding_of_some hsome, if_pos h.pending]
      have hafter : s'.outstanding key = 1 := by
        rw [hd, outstanding_of_some h.stored]
        rfl
      rw [if_pos hd, hbefore, hafter]
    · rw [if_neg hd, outstanding_congr (h.others key hd), Nat.add_zero]
  | redeemed d amount h =>
    obtain ⟨copy, hcopy, hredeemed⟩ := h.redeemed
    have hcount : s'.redeemedFor key = s.redeemedFor key + if key = d.key then 1 else 0 := by
      unfold redeemedFor
      rw [hredeemed, countP_append, ← hcopy]
      simp [eq_comm]
    have hmints : s'.mintsFor key = s.mintsFor key := by
      unfold mintsFor
      rw [h.mints]
    rw [hcount, hmints, hkey]
    by_cases hd : key = d.key
    · -- from now on the redemption counts in its place
      obtain ⟨i, copy', -, -, hstatus⟩ := h.event
      have hbefore : s.outstanding key = 1 := by
        rw [hd, outstanding_of_some h.stored, hstatus]
        rfl
      rw [if_pos hd, hbefore, hd, outstanding_of_none h.removed]
    · rw [if_neg hd, outstanding_congr (h.others key hd), Nat.add_zero]

/-- A voucher has one deposit, so there is one summand at most. -/
theorem DepositInv.backed {s : LSMSystem} (hi : s.DepositInv True) : s.Backed := by
  intro c hc ibcDenom
  have hmem {d : LSMTokenDeposit} (hd : d ∈ s.unsent c ibcDenom) :
      s.deposit? d.key = some d ∧ d.chainId = c ∧ d.ibcDenom = ibcDenom ∧
        (d.status = .transferQueue ∨ d.status = .transferFailed) := by
    obtain ⟨hvalue, hfields⟩ := mem_filter.mp hd
    exact ⟨mem_values_iff.mp hvalue, by simpa using hfields⟩
  have hnd : ((s.unsent c ibcDenom).map LSMTokenDeposit.key).Nodup :=
    (nodup_map_key_values _).sublist (filter_sublist.map _)
  cases hunsent : s.unsent c ibcDenom with
  | nil => simpa using hi.funds c hc ibcDenom
  | cons d rest =>
    have hd : d ∈ s.unsent c ibcDenom := by simp [hunsent]
    obtain ⟨hstored, rfl, rfl, hstatus⟩ := hmem hd
    -- a voucher has one origin, so there is no second deposit
    have hrest : rest = [] := by
      cases rest with
      | nil => rfl
      | cons d' rest =>
        have hd' : d' ∈ s.unsent d.chainId d.ibcDenom := by simp [hunsent]
        obtain ⟨hstored', -, hdenom, -⟩ := hmem hd'
        have hkey := hi.eq_of_ibcDenom hstored hstored' hdenom.symm
        rw [hunsent] at hnd
        simp [hkey] at hnd
    have hheld : d.amount ≤
        s.keeper.bank.balance (s.keeper.settings d.chainId).depositAddress d.ibcDenom :=
      (hi.deposits _ d hstored).escrowed trivial hstatus
    rw [hrest]
    simpa using hheld

/-- **Life of a deposit**: in every state that is reached there is one deposit per chain and denom,
    and every mint is accounted for by a detokenization or by a stored deposit. Every further event
    has one of five effects, of which only one mints and only one removes a deposit that was minted.
    Deposit accounts hold what was not sent if no transfer has failed after taking the coins. -/
theorem deposits_minted_once_and_backed {s₀ s : LSMSystem} (hstart : s₀.NoDeposits)
    (hrun : Reaches step (fun _ _ => True) s₀ s) :
    (∀ d ∈ s.keeper.lsmTokenDeposits.values, ∀ d' ∈ s.keeper.lsmTokenDeposits.values,
      d.chainId = d'.chainId → d.denom = d'.denom → d = d') ∧
    s.MintedOnce ∧ (∀ e s', s.step e = some s' → DepositEffect s e s') ∧
    (Reaches step TransfersWhole s₀ s → s.Backed) := by
  have hinit : s₀.MintedOnce := by
    intro key
    have hnone : s₀.deposit? key = none := by
      unfold deposit?
      rw [hstart.deposits]
      rfl
    rw [outstanding_of_none hnone]
    unfold mintsFor redeemedFor
    rw [hstart.mints, hstart.redeemed]
    rfl
  obtain ⟨hinv, honce⟩ : s.DepositInv False ∧ s.MintedOnce := by
    refine hrun.invariant (I := fun s => s.DepositInv False ∧ s.MintedOnce)
      ⟨hstart.depositInv, hinit⟩ ?_
    intro t e t' hi _ hs
    obtain ⟨hinv, heffect⟩ := hi.1.step False.elim hs
    exact ⟨hinv, hi.2.effect heffect⟩
  refine ⟨fun d hd d' hd' hchain hdenom => ?_, honce,
    fun e s' hs => (hinv.step False.elim hs).2, fun hwhole => ?_⟩
  · have hget := mem_values_iff.mp hd
    have hget' := mem_values_iff.mp hd'
    have hkey : d.key = d'.key := by
      unfold LSMTokenDeposit.key
      rw [hchain, hdenom]
    rw [hkey, hget'] at hget
    exact (Option.some.inj hget).symm
  · -- only then do the accounts hold what was not sent
    have hheld : s.DepositInv True := hwhole.invariant (I := fun s => s.DepositInv True)
      hstart.depositInv fun t e t' hi hok hs => (hi.step (fun _ => hok) hs).1
    exact hheld.backed

/-! ## A deposit that goes all the way -/

private theorem lsmHub_noDeposits : lsmHub.NoDeposits where
  deposits := rfl
  queries := rfl
  transfers := rfl
  detokenizations := rfl
  mints := rfl
  redeemed := rfl
  funds c _ denom := by
    show 0 ≤ if "deposit" = "staker" ∧ (denom = "ibc/VAL1" ∨ denom = "ibc/VAL1B") then (100 : ℤ)
      else 0
    simp

/-- One stake is parked, minted, sent twice and detokenized. Another one is minted at once, and its
    transfer fails. -/
def redeemedStake : List LSMEvent :=
  [.lsmLiquidStake ⟨"staker", 50, "ibc/VAL1"⟩,
    .respondRate (lsmContext.sha256 (bigEndian 8 1)) (some ⟨"val1", 200, 200 * 10 ^ 18⟩),
    .lsmLiquidStake ⟨"staker", 5, "ibc/VAL1B"⟩, .transfer fun _ => .sent,
    .transferAck 0 .timeout, .transferAck 0 .failure, .transfer fun _ => .sent,
    .transferAck 0 .success, .detokenize [] [], .detokenizeAck 0 .success [50]]

theorem deposits_minted_once_and_backed_redeemedStake :
    ∃ s, runAllowed step TransfersWhole lsmHub redeemedStake = some s ∧
      s.mints.map Mint.stToken = [("stuatom", 50), ("stuatom", 5)] ∧
      s.keeper.lsmTokenDeposits.values.map (fun d => (d.denom, d.status)) =
        [("val1/8", .transferFailed)] ∧
      s.delegationOf "host" "val1" = some 250 ∧ s.MintedOnce ∧ s.Backed := by
  have hrun : Reaches step TransfersWhole lsmHub _ :=
    .of_get (l := redeemedStake) (by decide +kernel)
  obtain ⟨-, honce, -, hbacked⟩ := deposits_minted_once_and_backed lsmHub_noDeposits
    (hrun.mono fun _ _ _ => trivial)
  exact exists_run_end (by decide +kernel) ⟨by decide +kernel, by decide +kernel,
    by decide +kernel, honce, hbacked hrun⟩

/-- The transfer module fails after it has taken the coins: the deposit is kept as failed, and
    nobody holds its tokens. -/
theorem failed_transfer_not_backed :
    ∃ s, runAllowed step (fun _ _ => True) lsmHub
        [.lsmLiquidStake ⟨"staker", 5, "ibc/VAL1B"⟩, .transfer fun _ => .failed] = some s ∧
      (s.unsent "host" "ibc/VAL1B").map (fun d => (d.amount, d.status)) = [(5, .transferFailed)] ∧
      s.keeper.bank.balance "deposit" "ibc/VAL1B" = 0 ∧ s.transfers.length = 0 ∧ ¬s.Backed := by
  refine exists_run_end (by decide +kernel) ⟨by decide +kernel, by decide +kernel,
    by decide +kernel, fun hbacked => ?_⟩
  have hheld := hbacked "host" (by decide +kernel) "ibc/VAL1B"
  exact absurd hheld (by decide +kernel)

end LSMSystem

end Stride.Stakeibc
