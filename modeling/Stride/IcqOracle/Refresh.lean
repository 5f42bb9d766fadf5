import Stride.IcqOracle.Keeper
import Stride.Lib.Runs

/-!
# Refreshing Prices

Two prices of one pool with the same two denoms share a query id, so that the second query of a
block takes the place of the first. When the registered prices have different requests, each of
them is refreshed by its own query.
-/

namespace Stride.IcqOracle

open Lib Sdk InterchainQuery KeyedStore

/-! ## The system -/

/-- The keeper with the block around it. `answers` are the records that were delivered, with
    the block time. -/
structure PriceSystem where
  ctx : Context
  keeper : Keeper
  answers : List (ℤ × OsmosisTwapRecord)

inductive PriceEvent where
  | register (msg : MsgRegisterTokenPriceQuery)
  | nextBlock (blockTime : ℤ) (latestHeight : String → Option (String × ℕ))
  | respond (queryId : String) (record : OsmosisTwapRecord)

namespace PriceSystem

def step (s : PriceSystem) : PriceEvent → Option PriceSystem
  | .register msg =>
    (registerTokenPriceQuery s.keeper msg).toOption.map fun k => { s with keeper := k }
  | .nextBlock blockTime latestHeight =>
    let ctx := { s.ctx with blockTime := blockTime, latestHeight := latestHeight }
    (beginBlocker ctx s.keeper).toOption.map fun k => { s with ctx := ctx, keeper := k }
  | .respond queryId record =>
    (submitPriceResponse s.ctx s.keeper queryId record).toOption.map fun k =>
      { s with keeper := k, answers := (s.ctx.blockTime, record) :: s.answers }

/-- Nothing is registered, and nothing is pending. -/
structure Started (s : PriceSystem) : Prop where
  tokenPrices : ∀ key, s.keeper.tokenPrices.get? key = none
  queries : ∀ id, s.keeper.icq.queries.get? id = none

/-- Block times do not decrease, answers come before their timeout, and a new price asks for a
    record that no other price asks for. -/
def OwnRequests (s : PriceSystem) : PriceEvent → Prop
  | .register msg => ∀ p ∈ s.keeper.tokenPrices.values, p.twapKey ≠ msg.tokenPrice.twapKey
  | .nextBlock blockTime _ => s.ctx.blockTime ≤ blockTime
  | .respond queryId _ => ∀ query ∈ s.keeper.icq.queries.get? queryId,
      query.hasTimedOut s.ctx.blockTime = false

instance (s : PriceSystem) (e : PriceEvent) : Decidable (s.OwnRequests e) :=
  match e with
  | .register _ => inferInstanceAs (Decidable (∀ _ ∈ _, _))
  | .nextBlock _ _ => inferInstanceAs (Decidable (_ ≤ _))
  | .respond queryId _ =>
    inferInstanceAs (Decidable (∀ _ ∈ s.keeper.icq.queries.get? queryId, _))

end PriceSystem

/-- The spot price of the record's pool, in the direction of the token price. -/
def OsmosisTwapRecord.Prices (record : OsmosisTwapRecord) (p : TokenPrice) (price : LegacyDec) :
    Prop :=
  record.poolId = p.osmosisPoolId ∧
    ((record.asset0Denom = p.osmosisQuoteDenom ∧ record.asset1Denom = p.osmosisBaseDenom ∧
        price = record.p0LastSpotPrice) ∨
      (record.asset0Denom = p.osmosisBaseDenom ∧ record.asset1Denom = p.osmosisQuoteDenom ∧
        price = record.p1LastSpotPrice))

/-- The price was answered after its last request, by a record of its own pool. -/
def TokenPrice.Refreshed (p : TokenPrice) (answers : List (ℤ × OsmosisTwapRecord)) : Prop :=
  p.lastRequestTime ≤ p.lastResponseTime ∧
    ∃ record, (p.lastResponseTime, record) ∈ answers ∧ record.Prices p p.spotPrice

/-- Prices whose query is out have a pending query of their own, which any proven answer in
    time completes. The others have been refreshed since their last request. -/
structure PriceSystem.OwnQueries (s : PriceSystem) : Prop where
  pending : ∀ p ∈ s.keeper.tokenPrices.values, p.queryInProgress = true →
    ∃ query, s.keeper.icq.queries.get? query.id = some query ∧ query.callbackData.key = p.key ∧
      ∀ record : OsmosisTwapRecord, record.IsUnder query.requestData →
        query.hasTimedOut s.ctx.blockTime = false →
        ∃ s' p', s.step (.respond query.id record) = some s' ∧ p' ∈ s'.keeper.tokenPrices.values ∧
          p'.key = p.key ∧ p'.queryInProgress = false
  refreshed : ∀ p ∈ s.keeper.tokenPrices.values, p.queryInProgress = false →
    p.lastRequestTime ≠ zeroTime → p.Refreshed s.answers

/-! ## The invariant -/

/-- The id under which the query of a price is stored. -/
def priceQueryId (ctx : Context) (params : Params) (p : TokenPrice) : String :=
  ctx.sha256 (queryKey (priceQuery params p 0))

variable {ctx : Context} {k k' : Keeper} {p p' tokenPrice : TokenPrice} {query : Query TokenPrice}
  {answers : List (ℤ × OsmosisTwapRecord)} {record : OsmosisTwapRecord}

private theorem twapKey_of_priceQueryId (hsha : Function.Injective ctx.sha256) {params : Params}
    (h : priceQueryId ctx params p = priceQueryId ctx params p') : p.twapKey = p'.twapKey :=
  List.append_cancel_left (hsha h)

structure Inv (ctx : Context) (k : Keeper) (answers : List (ℤ × OsmosisTwapRecord)) : Prop where
  distinct : ∀ p p', k.tokenPrices.get? p.key = some p → k.tokenPrices.get? p'.key = some p' →
    p.twapKey = p'.twapKey → p.key = p'.key
  own : ∀ id query, k.icq.queries.get? id = some query →
    ∃ p, k.tokenPrices.get? p.key = some p ∧ query.callbackData.key = p.key ∧
      query.requestData = p.twapKey ∧ id = priceQueryId ctx k.params p
  inProgress : ∀ p, k.tokenPrices.get? p.key = some p →
    (p.queryInProgress = true ↔
      ∃ query, k.icq.queries.get? (priceQueryId ctx k.params p) = some query)
  requested : ∀ p, k.tokenPrices.get? p.key = some p → p.lastRequestTime ≠ zeroTime →
    p.lastRequestTime ≤ ctx.blockTime
  refreshed : ∀ p, k.tokenPrices.get? p.key = some p → p.queryInProgress = false →
    p.lastRequestTime ≠ zeroTime → p.Refreshed answers

private theorem priceQueryId_congr (params : Params) (h : p.twapKey = p'.twapKey) :
    priceQueryId ctx params p = priceQueryId ctx params p' := by
  simp only [priceQueryId, queryKey, priceQuery, h]

private theorem getTokenPrice_eq_ok :
    getTokenPrice k p.baseDenom p.quoteDenom p.osmosisPoolId = .ok p' ↔
      k.tokenPrices.get? p.key = some p' := by
  unfold getTokenPrice TokenPrice.key
  split <;> simp_all [wrapf]

/-- **Refresh**: nothing happens, or the query of the price is stored and the price is marked. -/
theorem refreshTokenPrice_ok {n : ℕ} (h : refreshTokenPrice ctx k tokenPrice n = .ok k') :
    k' = k ∨ ∃ p query, k.tokenPrices.get? tokenPrice.key = some p ∧
      query.id = priceQueryId ctx k.params tokenPrice ∧ query.callbackData = tokenPrice ∧
      query.requestData = tokenPrice.twapKey ∧
      k'.params = k.params ∧ k'.icq.queries = k.icq.queries.set query ∧
      k'.tokenPrices = k.tokenPrices.set { p with
        queryInProgress := true
        lastRequestTime := ctx.blockTime } := by
  obtain ⟨interval, -, h⟩ := bind_eq_ok.mp h
  dsimp only at h
  split at h
  · cases h
    exact .inl rfl
  obtain ⟨timeout, -, h⟩ := bind_eq_ok.mp (wrapError_eq_ok.mp h)
  obtain ⟨icq, hicq, h⟩ := bind_eq_ok.mp h
  obtain ⟨p, hp, h⟩ := bind_eq_ok.mp (wrapError_eq_ok.mp h)
  cases h
  obtain ⟨query, hid, hrequest, hqueries, -⟩ := submitICQRequest_ok (wrapError_eq_ok.mp hicq)
  have hdata := congrArg Query.callbackData hrequest
  have hkey := congrArg Query.requestData hrequest
  exact .inr ⟨p, query, getTokenPrice_eq_ok.mp hp, hid, hdata, hkey, rfl, hqueries, rfl⟩

private theorem unmarshalSpotPrice_of_isUnder (h : record.IsUnder p.twapKey) :
    ∃ price, unmarshalSpotPriceFromOsmosis p record = .ok price ∧ record.Prices p price := by
  obtain ⟨hpool, hassets⟩ := h.eq
  have hmatch : assertTwapAssetsMatchTokenPrice record p = .ok () := require_eq_ok.mpr hassets
  unfold unmarshalSpotPriceFromOsmosis
  rw [hmatch]
  by_cases hquote : record.asset0Denom = p.osmosisQuoteDenom
  · refine ⟨record.p0LastSpotPrice, if_pos hquote, hpool, .inl ⟨hquote, ?_, rfl⟩⟩
    rcases hassets with ⟨h0, h1⟩ | ⟨-, h1⟩
    · rw [h1, ← hquote, h0]
    · exact h1
  · refine ⟨record.p1LastSpotPrice, if_neg hquote, hpool, .inr ?_⟩
    rcases hassets with ⟨h0, h1⟩ | ⟨h0, -⟩
    · exact ⟨h0, h1, rfl⟩
    · exact absurd h0 hquote

/-! ## The steps -/

section

variable (h : Inv ctx k answers)
include h

private theorem Inv.other (hp : k.tokenPrices.get? p.key = some p) :
    ∀ q, k.tokenPrices.get? q.key = some q → (q.twapKey = p.twapKey ↔ q.key = p.key) := by
  refine fun q hq => ⟨h.distinct q p hq hp, fun hkey => ?_⟩
  rw [hkey, hp] at hq
  rw [Option.some.inj hq]

private theorem Inv.answer (answer : ℤ × OsmosisTwapRecord) :
    Inv ctx k (answer :: answers) :=
  { h with
    refreshed := fun p hp hdone hne => by
      obtain ⟨hle, record, hmem, hprices⟩ := h.refreshed p hp hdone hne
      exact ⟨hle, record, List.mem_cons_of_mem _ hmem, hprices⟩ }

variable (hsha : Function.Injective ctx.sha256)
include hsha

/-- **Update**: a price is written together with the query that has its id, where no other price
    has its request. -/
theorem Inv.update
    (hother : ∀ q, k.tokenPrices.get? q.key = some q → (q.twapKey = p.twapKey ↔ q.key = p.key))
    (hparams : k'.params = k.params) (hprices : k'.tokenPrices = k.tokenPrices.set p)
    (hqueries : ∀ id ≠ priceQueryId ctx k.params p,
      k'.icq.queries.get? id = k.icq.queries.get? id)
    (hquery : ∀ query, k'.icq.queries.get? (priceQueryId ctx k.params p) = some query →
      query.callbackData.key = p.key ∧ query.requestData = p.twapKey)
    (hprogress : p.queryInProgress = true ↔
      ∃ query, k'.icq.queries.get? (priceQueryId ctx k.params p) = some query)
    (hrequested : p.lastRequestTime ≠ zeroTime → p.lastRequestTime ≤ ctx.blockTime)
    (hrefreshed : p.queryInProgress = false → p.lastRequestTime ≠ zeroTime →
      p.Refreshed answers) : Inv ctx k' answers := by
  -- a price of the new store is the written one, or an old one with another request
  have hcases {q : TokenPrice} (hq : k'.tokenPrices.get? q.key = some q) :
      q = p ∨ k.tokenPrices.get? q.key = some q ∧ q.twapKey ≠ p.twapKey := by
    rw [hprices, get?_set] at hq
    split at hq
    · exact .inl (Option.some.inj hq).symm
    · rename_i hne
      exact .inr ⟨hq, fun heq => hne ((hother q hq).mp heq)⟩
  constructor
  · intro q q' hq hq' htwap
    rcases hcases hq with rfl | ⟨hq, hne⟩
    · rcases hcases hq' with rfl | ⟨-, hne⟩
      · rfl
      · exact absurd htwap.symm hne
    · rcases hcases hq' with rfl | ⟨hq', -⟩
      · exact absurd htwap hne
      · exact h.distinct q q' hq hq' htwap
  · intro id query hget
    rw [hparams, hprices]
    by_cases hid : id = priceQueryId ctx k.params p
    · obtain ⟨hkey, hrequest⟩ := hquery query (hid ▸ hget)
      exact ⟨p, get?_set_self _ _, hkey, hrequest, hid⟩
    · rw [hqueries id hid] at hget
      obtain ⟨q, hq, hkey, hrequest, rfl⟩ := h.own id query hget
      refine ⟨q, ?_, hkey, hrequest, rfl⟩
      rw [get?_set_of_ne]
      · exact hq
      · exact fun heq => hid (priceQueryId_congr k.params ((hother q hq).mpr heq))
  · intro q hq
    rw [hparams]
    rcases hcases hq with rfl | ⟨hq, hne⟩
    · exact hprogress
    · rw [hqueries _ fun heq => hne (twapKey_of_priceQueryId hsha heq)]
      exact h.inProgress q hq
  · intro q hq
    rcases hcases hq with rfl | ⟨hq, -⟩
    · exact hrequested
    · exact h.requested q hq
  · intro q hq
    rcases hcases hq with rfl | ⟨hq, -⟩
    · exact hrefreshed
    · exact h.refreshed q hq

/-- **A refresh** submits the request of one price. -/
theorem Inv.refresh
    (hp : k.tokenPrices.get? tokenPrice.key = some p) (htwap : p.twapKey = tokenPrice.twapKey)
    {n : ℕ} (hk : refreshTokenPrice ctx k tokenPrice n = .ok k') :
    Inv ctx k' answers ∧
      SameView TokenPrice.twapKey k.tokenPrices k'.tokenPrices := by
  obtain rfl | ⟨_, query, hp', hid, hdata, hrequest, hparams, hqueries, hprices⟩ :=
    refreshTokenPrice_ok hk
  · exact ⟨h, .refl _ _⟩
  cases hp.symm.trans hp'
  have hkey : p.key = tokenPrice.key := key_of_get? hp
  rw [← hkey] at hp
  rw [← priceQueryId_congr k.params htwap] at hid
  have hget : k'.icq.queries.get? (priceQueryId ctx k.params p) = some query := by
    rw [hqueries, ← hid, get?_set_self]
  have hother := h.other hp
  refine ⟨h.update hsha ?_ hparams hprices ?_ ?_ ?_ (fun _ => le_rfl) nofun, ?_⟩
  · exact hother
  · intro id hne
    rw [hqueries, get?_set_of_ne _ _ (hid ▸ hne)]
  · intro query' hquery'
    cases hget.symm.trans hquery'
    exact ⟨hdata ▸ hkey.symm, hrequest.trans htwap.symm⟩
  · exact ⟨fun _ => ⟨query, hget⟩, fun _ => rfl⟩
  · rw [hprices]
    exact SameView.set (.refl _ _) hp rfl

private theorem Inv.beginBlocker
    (hk : beginBlocker ctx k = .ok k') : Inv ctx k' answers := by
  refine (foldlM_ok_rule (P := fun k₁ => Inv ctx k₁ answers ∧
    SameView TokenPrice.twapKey k.tokenPrices k₁.tokenPrices) ?_
    ⟨h, .refl _ _⟩ hk).1
  rintro k₁ tokenPrice hmem k₂ ⟨h₁, hview⟩ hturn
  have hlisted := (hview tokenPrice.key).trans
    (congrArg (Option.map TokenPrice.twapKey) (mem_values_iff.mp hmem))
  obtain ⟨p, hp, htwap⟩ := Option.map_eq_some_iff.mp hlisted
  split at hturn
  · rename_i k₃ hrefresh
    cases hturn
    obtain ⟨h₂, hview'⟩ := h₁.refresh hsha hp htwap hrefresh
    exact ⟨h₂, hview.trans hview'⟩
  · split at hturn
    · cases hturn
    · cases hturn
      exact ⟨h₁, hview⟩

/-- **Response**: in time, a proven answer to a stored query completes its price. -/
theorem Inv.respond
    (hquery : k.icq.queries.get? query.id = some query)
    (hunder : record.IsUnder query.requestData)
    (htime : query.hasTimedOut ctx.blockTime = false) :
    ∃ k' p', submitPriceResponse ctx k query.id record = .ok k' ∧
      Inv ctx k' ((ctx.blockTime, record) :: answers) ∧ k'.tokenPrices.get? p'.key = some p' ∧
      p'.key = query.callbackData.key ∧ p'.queryInProgress = false := by
  obtain ⟨p, hp, hdata, hrequest, hid⟩ := h.own query.id query hquery
  obtain ⟨price, hprice, hprices⟩ := unmarshalSpotPrice_of_isUnder (hrequest ▸ hunder)
  -- a stored query is that of a price in progress
  have hprogress : p.queryInProgress = true := (h.inProgress p hp).mpr ⟨query, hid ▸ hquery⟩
  let p' : TokenPrice := { p with
    spotPrice := price
    queryInProgress := false
    lastResponseTime := ctx.blockTime }
  let k' : Keeper := { k with
    icq := deleteQuery k.icq query.id
    tokenPrices := k.tokenPrices.set p' }
  have hget : getTokenPrice { k with icq := deleteQuery k.icq query.id }
      query.callbackData.baseDenom query.callbackData.quoteDenom query.callbackData.osmosisPoolId =
        .ok p := by
    rw [getTokenPrice_eq_ok, hdata]
    exact hp
  refine ⟨k', p', ?_, ?_, get?_set_self _ _, hdata.symm, rfl⟩
  · simp [submitPriceResponse, submitQueryResponse, hquery, hunder, htime, require,
      osmosisPriceCallback, hget, hprogress, hprice, wrapError, Except.mapError, bind, Except.bind,
      pure, Except.pure, setQueryComplete, setTokenPrice, k', p']
  · -- the query is gone, so the price is no longer in progress
    have hgone : k'.icq.queries.get? (priceQueryId ctx k.params p) = none := by
      rw [← hid]
      exact get?_delete_self _ _
    have hother := h.other hp
    refine (h.answer _).update hsha (p := p') hother rfl rfl ?_ ?_ ?_ (h.requested p hp) ?_
    · intro id hne
      exact get?_delete_of_ne _ (hid ▸ hne)
    · intro query hquery
      cases hgone.symm.trans hquery
    · refine ⟨fun hfalse => absurd hfalse Bool.false_ne_true, ?_⟩
      rintro ⟨query, hquery⟩
      cases hgone.symm.trans hquery
    · intro _ hne
      exact ⟨h.requested p hp hne, record, List.mem_cons_self, hprices⟩

/-- **A new price** has a request of its own. -/
theorem Inv.register
    {msg : MsgRegisterTokenPriceQuery}
    (hown : ∀ p ∈ k.tokenPrices.values, p.twapKey ≠ msg.tokenPrice.twapKey)
    (hk : registerTokenPriceQuery k msg = .ok k') : Inv ctx k' answers := by
  unfold registerTokenPriceQuery at hk
  split at hk
  · cases hk
  rename_i e hnone
  cases hk
  have hfresh : k.tokenPrices.get? msg.tokenPrice.key = none := by
    by_contra hsome
    obtain ⟨q, hq⟩ := Option.ne_none_iff_exists'.mp hsome
    cases hnone.symm.trans (getTokenPrice_eq_ok (p := msg.tokenPrice).mpr hq)
  have hnew : ∀ q, k.tokenPrices.get? q.key = some q → q.twapKey ≠ msg.tokenPrice.twapKey :=
    fun q hq => hown q (mem_values_iff.mpr hq)
  -- no price asks for the record of the new one, so that no query is pending for it
  have hidle : ∀ query,
      k.icq.queries.get? (priceQueryId ctx k.params msg.tokenPrice) ≠ some query := by
    intro query hquery
    obtain ⟨q, hq, -, -, hid⟩ := h.own _ query hquery
    exact hnew q hq (twapKey_of_priceQueryId hsha hid).symm
  refine h.update hsha ?_ rfl rfl (fun _ _ => rfl) (fun query hquery => (hidle query hquery).elim)
    ⟨nofun, fun ⟨query, hquery⟩ => (hidle query hquery).elim⟩ (fun hne => (hne rfl).elim)
    fun _ hne => (hne rfl).elim
  intro q hq
  refine ⟨fun htwap => (hnew q hq htwap).elim, fun hkey => ?_⟩
  rw [hkey, hfresh] at hq
  cases hq

end

/-! ## Every run -/

namespace PriceSystem

variable {s₀ s s' : PriceSystem} {e : PriceEvent}

private theorem inv_step (h : Inv s.ctx s.keeper s.answers) (hsha : Function.Injective s.ctx.sha256)
    (hok : s.OwnRequests e) (hs : s.step e = some s') :
    Inv s'.ctx s'.keeper s'.answers ∧ s'.ctx.sha256 = s.ctx.sha256 := by
  cases e with
  | register msg =>
    obtain ⟨k, hk, rfl⟩ := toOption_map_eq_some.mp hs
    exact ⟨h.register hsha hok hk, rfl⟩
  | nextBlock blockTime latestHeight =>
    obtain ⟨k, hk, rfl⟩ := toOption_map_eq_some.mp hs
    -- what was requested before stays in the past
    have hlater : Inv { s.ctx with blockTime := blockTime, latestHeight := latestHeight } s.keeper
        s.answers :=
      { h with requested := fun p hp hne => (h.requested p hp hne).trans hok }
    exact ⟨hlater.beginBlocker hsha hk, rfl⟩
  | respond queryId record =>
    obtain ⟨k, hk, rfl⟩ := toOption_map_eq_some.mp hs
    refine ⟨?_, rfl⟩
    cases hquery : s.keeper.icq.queries.get? queryId with
    | none =>
      rw [submitPriceResponse, submitQueryResponse, hquery] at hk
      cases hk
      exact h.answer (s.ctx.blockTime, record)
    | some query =>
      obtain rfl : query.id = queryId := key_of_get? hquery
      by_cases hunder : record.IsUnder query.requestData
      · obtain ⟨k', p, hk', hinv, -⟩ := h.respond hsha hquery hunder (hok query hquery)
        cases hk'.symm.trans hk
        exact hinv
      · -- a record under another key is not proven
        simp [submitPriceResponse, submitQueryResponse, hquery, require, hunder, wrapf, bind,
          Except.bind] at hk

/-- **Own queries**: when no two registered prices ask for the same record, each price is
    refreshed by its own query. -/
theorem refreshed_by_own_query (hsha : Function.Injective s₀.ctx.sha256) (hstart : s₀.Started)
    (hrun : Reaches step OwnRequests s₀ s) : s.OwnQueries := by
  have hinit : Inv s₀.ctx s₀.keeper s₀.answers := by
    constructor <;> simp [hstart.tokenPrices, hstart.queries]
  obtain ⟨hinv, hsha⟩ : Inv s.ctx s.keeper s.answers ∧ Function.Injective s.ctx.sha256 := by
    refine hrun.invariant (I := fun s => Inv s.ctx s.keeper s.answers ∧
      Function.Injective s.ctx.sha256) ⟨hinit, hsha⟩ ?_
    rintro s e s' ⟨h, hsha⟩ hok hs
    obtain ⟨h', heq⟩ := inv_step h hsha hok hs
    exact ⟨h', heq ▸ hsha⟩
  constructor
  · intro p hp hprogress
    rw [mem_values_iff] at hp
    obtain ⟨query, hquery⟩ := (hinv.inProgress p hp).mp hprogress
    obtain ⟨q, hq, hdata, hrequest, hid⟩ := hinv.own _ query hquery
    -- no other price has this request, so the query is its own
    have hkey : query.callbackData.key = p.key :=
      hdata.trans ((hinv.other hp q hq).mp (twapKey_of_priceQueryId hsha hid).symm)
    rw [← key_of_get? hquery] at hquery
    refine ⟨query, hquery, hkey, fun record hunder htime => ?_⟩
    obtain ⟨k, p', hk, -, hp', hkey', hdone⟩ := hinv.respond hsha hquery hunder htime
    exact ⟨_, p', toOption_map_eq_some.mpr ⟨k, hk, rfl⟩, mem_values_iff.mpr hp',
      hkey'.trans hkey, hdone⟩
  · intro p hp
    exact hinv.refreshed p (mem_values_iff.mp hp)

/-! ## Two prices of one pool -/

/-- A chain without prices. Hashes are the bytes themselves. -/
def noPrices : PriceSystem where
  ctx :=
    { blockTime := 0
      latestHeight := fun _ => some ("07-tendermint-0", 5)
      sha256 := fun bz => String.ofList (bz.map fun b => Char.ofNat b.toNat)
      decodeAndConvert := fun address => .ok (bytes address) }
  keeper := ⟨⟨"osmosis-1", "connection-2", 300, 600⟩, .empty, ⟨.empty, none⟩⟩
  answers := []

/-- The price of OSMO in STRD and the price of STRD in OSMO, both from pool 1. -/
def osmoInStrd : MsgRegisterTokenPriceQuery := ⟨"ibc/osmo", "ustrd", 1, "uosmo", "ibc/strd"⟩

def strdInOsmo : MsgRegisterTokenPriceQuery := ⟨"ustrd", "ibc/osmo", 1, "ibc/strd", "uosmo"⟩

/-- The price of STRD in OSMO from pool 2. -/
def strdInOsmo2 : MsgRegisterTokenPriceQuery := { strdInOsmo with osmosisPoolId := 2 }

def queryIdOf (msg : MsgRegisterTokenPriceQuery) : String :=
  priceQueryId noPrices.ctx noPrices.keeper.params msg.tokenPrice

/-- The record of a pool in which one OSMO is worth two STRD. -/
def recordOf (poolId : UInt64) : OsmosisTwapRecord :=
  ⟨poolId, "ibc/strd", "uosmo", .fromInt 2, ⟨5 * 10 ^ 17⟩⟩

def minute : ℤ := 60 * 10 ^ 9

/-- **A lost query**: the query of the second price takes the place of the first one. When
    every query has been answered, the first price still waits. -/
theorem opposite_prices_share_a_query :
    (runSteps step noPrices [.register osmoInStrd, .register strdInOsmo,
        .nextBlock minute noPrices.ctx.latestHeight,
        .respond (queryIdOf osmoInStrd) (recordOf 1)]).map (fun s =>
      (s.keeper.icq.queries.values.length, s.keeper.tokenPrices.values.map fun p =>
        (p.baseDenom, p.lastRequestTime, p.lastResponseTime, p.queryInProgress))) =
      some (0, [("ibc/osmo", minute, zeroTime, true), ("ustrd", minute, minute, false)]) := by
  decide +kernel

theorem refreshed_by_own_query_twoPools :
    ∃ s, runAllowed step OwnRequests noPrices [.register osmoInStrd,
        .register strdInOsmo2, .nextBlock minute noPrices.ctx.latestHeight,
        .respond (queryIdOf strdInOsmo2) (recordOf 2),
        .respond (queryIdOf osmoInStrd) (recordOf 1)] = some s ∧
      s.keeper.tokenPrices.values.map (fun p => (p.baseDenom, p.spotPrice, p.lastResponseTime)) =
        [("ibc/osmo", .fromInt 2, minute), ("ustrd", ⟨5 * 10 ^ 17⟩, minute)] ∧ s.OwnQueries := by
  exact exists_run_end (by decide +kernel) ⟨by decide +kernel,
    refreshed_by_own_query chars_injective ⟨fun _ => rfl, fun _ => rfl⟩ (.of_get _)⟩

end PriceSystem

end Stride.IcqOracle
