import Stride.Stakeibc.LSMSystem

/-!
# The Rate at Which LSM Tokens Are Taken

The stTokens of an LSM liquid stake are computed when it is started. If the stake is parked, the
answer to its query is compared with the rate that is stored when the answer arrives, and not
with the rate of the start. An answer to another query can have changed the stored rate in
between.
-/

namespace Stride.Stakeibc

open Lib Sdk Records InterchainQuery KeyedStore List

/-- The rate that is stored for a validator of a zone. -/
def storedRate (hostZones : HostZoneStore) (chainId address : String) : Option LegacyDec :=
  (hostZones.get? chainId).bind fun hostZone => hostZone.rateOf address

/-- A stake carries a copy of its validator, and its stTokens were computed with the rate of the
    copy. When they are minted, this is still the rate that is stored. -/
def Mint.AtStartRate (m : Mint) : Prop :=
  ∀ l, m.stake = some l → calculateLSMStToken l.deposit.amount l = .ok l.deposit.stToken ∧
    storedRate m.hostZones l.deposit.chainId l.deposit.validatorAddress =
      some l.validator.sharesToTokensRate

/-! ## Rates in the store -/

private theorem storedRate_of_sameView {hostZones hostZones' : HostZoneStore}
    (h : SameView HostZone.rateTable hostZones hostZones') (c a : String) :
    storedRate hostZones' c a = storedRate hostZones c a := by
  have hrate (z : HostZone) : z.rateOf a = (z.rateTable.find? fun p => p.1 = a).map Prod.snd :=
    rateOf_eq_find? z a
  have hview := congrArg (Option.bind · fun table : List (String × LegacyDec) =>
    (table.find? fun p => p.1 = a).map Prod.snd) (h c)
  simp only [Option.bind_map, Function.comp_def, ← hrate] at hview
  exact hview

variable {ctx : LSMContext} {k : LSMKeeper} {rate : LegacyDec} {msg : MsgLSMLiquidStake}
  {args : QueriedValidator}

private theorem storedRate_of_valid {l : LSMLiquidStake} (h : ValidLSMLiquidStake ctx k msg l) :
    storedRate k.hostZones l.deposit.chainId l.deposit.validatorAddress =
      some l.validator.sharesToTokensRate := by
  unfold storedRate HostZone.rateOf
  rw [h.zone, Option.bind_some, h.validator, Option.map_some]

private theorem tokensFromShare_nonneg (h : args.tokensFromShare = .ok rate) : 0 ≤ rate.i := by
  unfold QueriedValidator.tokensFromShare at h
  by_cases hshares : args.delegatorShares = 0
  · rw [hshares] at h
    cases h
  · rw [LegacyDec.fromInt_natCast, LegacyDec.quo_natCast _ _ (Nat.pos_of_ne_zero hshares)] at h
    cases h
    exact Int.natCast_nonneg _

namespace LSMSystem

/-! ## Parked stakes -/

/-- An answer with another rate than the stored one only arrives while no other stake waits on
    the validator. -/
def NoOvertaking (s : LSMSystem) : LSMEvent → Prop
  | .respondRate queryId (some args) =>
    ∀ query rate, s.keeper.rateQueries.queries.get? queryId = some query →
      args.tokensFromShare = .ok rate →
      storedRate s.keeper.hostZones query.chainId args.operatorAddress ≠ some rate →
      ∀ id l, s.Waits id l → l.deposit.chainId = query.chainId →
        l.deposit.validatorAddress = args.operatorAddress → id = queryId
  | _ => True

instance (s : LSMSystem) (e : LSMEvent) : Decidable (s.NoOvertaking e) := by
  unfold NoOvertaking
  split <;> infer_instance

/-- Rates are not negative, and the addresses of the validators of a zone decode to different
    bytes. -/
structure ValidRates (s : LSMSystem) : Prop where
  nonneg : ∀ c a rate, storedRate s.keeper.hostZones c a = some rate → 0 ≤ rate.i
  decodes : ∀ c a b bz, (storedRate s.keeper.hostZones c a).isSome →
    (storedRate s.keeper.hostZones c b).isSome → s.ctx.decodeAndConvert a = .ok bz →
    s.ctx.decodeAndConvert b = .ok bz → a = b

/-- No stake waits and nothing was minted. -/
structure RatesStarted (s : LSMSystem) : Prop extends ValidRates s where
  queries : s.keeper.rateQueries.queries = .empty
  mints : s.mints = []

/-- A query with a waiting stake is for the validator of the stake, whose stored rate is the one
    of the start. -/
structure WaitsAtStartRate (ctx : Context) (hostZones : HostZoneStore) (query : RateQuery)
    (l : LSMLiquidStake) : Prop where
  computed : calculateLSMStToken l.deposit.amount l = .ok l.deposit.stToken
  chainId : query.chainId = l.deposit.chainId
  key : validatorKey ctx l.deposit.validatorAddress = .ok query.requestData
  known : l.validator.sharesToTokensRate.i ≠ 0
  rate : storedRate hostZones l.deposit.chainId l.deposit.validatorAddress =
    some l.validator.sharesToTokensRate

structure RateInv (s : LSMSystem) : Prop extends ValidRates s where
  waiting : ∀ id query l, s.keeper.rateQueries.queries.get? id = some query →
    query.callbackData = .lsmLiquidStake l →
    WaitsAtStartRate s.ctx.toContext s.keeper.hostZones query l
  mints : ∀ m ∈ s.mints, m.AtStartRate

private theorem RatesStarted.rateInv {s : LSMSystem} (h : s.RatesStarted) : s.RateInv where
  waiting id query l hquery := by
    rw [h.queries] at hquery
    cases hquery
  toValidRates := h.toValidRates
  mints m hm := by simp [h.mints] at hm

variable {e : LSMEvent}

namespace RateInv

variable {s s' : LSMSystem}

private theorem of_sameRates (hi : s.RateInv)
    (hdecode : s'.ctx.decodeAndConvert = s.ctx.decodeAndConvert)
    (hview : SameView HostZone.rateTable s.keeper.hostZones s'.keeper.hostZones)
    (hqueries : ∀ id query l, s'.keeper.rateQueries.queries.get? id = some query →
      query.callbackData = .lsmLiquidStake l →
      WaitsAtStartRate s.ctx.toContext s.keeper.hostZones query l)
    (hmints : ∀ m ∈ s'.mints, m.AtStartRate) : s'.RateInv := by
  have hrate := storedRate_of_sameView hview
  refine ⟨⟨fun c a rate h => ?_, fun c a b bz ha hb => ?_⟩, fun id query l hquery hdata => ?_,
    hmints⟩
  · rw [hrate] at h
    exact hi.nonneg c a rate h
  · rw [hrate] at ha hb
    rw [hdecode]
    exact hi.decodes c a b bz ha hb
  · obtain ⟨hcomputed, hchain, hkey, hknown, hstored⟩ := hqueries id query l hquery hdata
    refine ⟨hcomputed, hchain, ?_, hknown, (hrate _ _).trans hstored⟩
    rw [← hkey]
    unfold validatorKey decodeAddress
    rw [hdecode]

private theorem of_sameMinting (hi : s.RateInv) (hctx : s'.ctx = s.ctx)
    (hsame : s.keeper.SameMinting s'.keeper) (hmints : s'.mints = s.mints) : s'.RateInv := by
  refine hi.of_sameRates (by rw [hctx]) (hsame.hostZones.comp Prod.snd)
    (fun id query l hquery => ?_) ?_
  · rw [hsame.rateQueries] at hquery
    exact hi.waiting id query l hquery
  · rw [hmints]
    exact hi.mints

/-! ## One event -/

variable {slashed : Bool} {z zone : HostZone} {k' : LSMKeeper} {mints : List Mint}
  {query : RateQuery} {queryId : String} {v : Validator}

/-- **A stake** is priced at the stored rate, or it waits for the rate of the host. -/
theorem lsmLiquidStake (hi : s.RateInv)
    (h : lsmLiquidStake s.ctx s.keeper msg = .ok (k, mints)) :
    (s.after (k, mints)).RateInv := by
  obtain ⟨started, l, hstart, hcases⟩ := lsmLiquidStake_ok h
  obtain ⟨hvalid, -, -, hcomputed, hstarted⟩ := startLSMLiquidStake_ok hstart
  have hrate := storedRate_of_valid hvalid
  have haddress : l.validator.address = l.deposit.validatorAddress :=
    address_of_getValidatorFromAddress hvalid.validator
  have hzones : started.hostZones = s.keeper.hostZones := by rw [hstarted]
  have hqueries : started.rateQueries = s.keeper.rateQueries := by rw [hstarted]
  obtain ⟨rfl, hkeeper, query, hdata, hchain, hkey, hset⟩ | ⟨rfl, hfinish⟩ := hcases
  · -- the stake is parked, with the rate of this moment
    have hview : k.hostZones = s.keeper.hostZones := by rw [hkeeper, hzones]
    refine hi.of_sameRates rfl ?_ (fun id query' l' hget hdata' => ?_) ?_
    · show SameView _ s.keeper.hostZones k.hostZones
      rw [hview]
      exact .refl _ _
    · replace hget : k.rateQueries.queries.get? id = some query' := hget
      rw [hset, get?_set] at hget
      split at hget
      · cases hget
        obtain rfl : l = l' := RateQueryData.lsmLiquidStake.inj (hdata.symm.trans hdata')
        exact ⟨hcomputed, hchain.trans hvalid.chainId, haddress ▸ hkey, hvalid.known, hrate⟩
      · exact hi.waiting id query' l' hget hdata'
    · intro m hm
      have hmem : m ∈ s.mints := by simpa [after] using hm
      exact hi.mints m hmem
  · -- the stake is finished at once
    have hframe := (finishLSMLiquidStake_ok hfinish).1.keeper
    have hview : k.hostZones = s.keeper.hostZones := by rw [hframe, hzones]
    refine hi.of_sameRates rfl ?_ (fun id query l' hget hdata => ?_) fun m hm => ?_
    · show SameView _ s.keeper.hostZones k.hostZones
      rw [hview]
      exact .refl _ _
    · replace hget : k.rateQueries.queries.get? id = some query := hget
      have hsame : k.rateQueries = s.keeper.rateQueries := by rw [hframe, hqueries]
      rw [hsame] at hget
      exact hi.waiting id query l' hget hdata
    · rcases mem_append.mp hm with hm | hm
      · exact hi.mints m hm
      · obtain rfl := mem_singleton.mp hm
        rintro l' hl'
        obtain rfl : l = l' := Option.some.inj hl'
        refine ⟨hcomputed, ?_⟩
        show storedRate started.hostZones _ _ = _
        rw [hzones]
        exact hrate

private theorem storedRate_answered
    (h : RateAnswered ctx k k' query args mints z zone v rate slashed) (c a : String) :
    storedRate k'.hostZones c a =
        (if c = query.chainId ∧ a = args.operatorAddress then some rate
          else storedRate k.hostZones c a) ∧
      storedRate k.hostZones query.chainId args.operatorAddress = some v.sharesToTokensRate := by
  have hbefore : z.rateOf args.operatorAddress = some v.sharesToTokensRate := by
    unfold HostZone.rateOf
    rw [h.validator, Option.map_some]
  constructor
  · unfold storedRate
    rw [h.hostZones]
    by_cases hc : c = query.chainId
    · have hzone :
          zone.rateOf a = (setSharesToTokensRate z args.operatorAddress rate).rateOf a := by
        rw [rateOf_eq_find?, h.rateTable, ← rateOf_eq_find?]
      rw [if_pos hc, Option.bind_some, hzone, rateOf_setSharesToTokensRate, hc, h.stored, hbefore]
      simp
    · simp [hc]
  · unfold storedRate
    rw [h.stored, Option.bind_some, hbefore]

private theorem storedRate_withZone
    (h : RateAnswered ctx k k' query args mints z zone v rate slashed) :
    storedRate (k.withZone (setSharesToTokensRate z args.operatorAddress rate)).hostZones
      query.chainId args.operatorAddress = some rate := by
  have hkey : z.chainId = query.chainId := key_of_get? h.stored
  have hid : (setSharesToTokensRate z args.operatorAddress rate).chainId = query.chainId := hkey
  unfold storedRate LSMKeeper.withZone
  rw [get?_set, if_pos hid.symm, Option.bind_some, rateOf_setSharesToTokensRate,
    if_pos rfl]
  unfold HostZone.rateOf
  rw [h.validator, Option.map_some, Option.map_some]

/-- **Answer**: the stake that waits for it is only finished if the rate is the one of its start,
    and the other stakes on the validator keep theirs. -/
private theorem answered (hi : s.RateInv) (hok : s.NoOvertaking (.respondRate queryId (some args)))
    (hquery : s.keeper.rateQueries.queries.get? queryId = some query)
    (htaken : ∀ {id q}, (s.keeper.withoutRateQuery queryId).rateQueries.queries.get? id = some q →
      id ≠ queryId ∧ s.keeper.rateQueries.queries.get? id = some q)
    (hproof : validatorKey s.ctx.toContext args.operatorAddress = .ok query.requestData)
    (h : RateAnswered s.ctx (s.keeper.withoutRateQuery queryId) k query args mints z zone v rate
      slashed) : (s.after (k, mints)).RateInv := by
  have hrates (c a : String) : storedRate k.hostZones c a =
      if c = query.chainId ∧ a = args.operatorAddress then some rate
      else storedRate s.keeper.hostZones c a := (storedRate_answered h c a).1
  have hbefore : storedRate s.keeper.hostZones query.chainId args.operatorAddress =
      some v.sharesToTokensRate := (storedRate_answered h "" "").2
  refine ⟨⟨fun c a r hr => ?_, fun c a b bz ha hb => ?_⟩, fun id q l hget hdata => ?_,
    fun m hm => ?_⟩
  · replace hr : storedRate k.hostZones c a = some r := hr
    rw [hrates] at hr
    split at hr
    · cases hr
      exact tokensFromShare_nonneg h.current
    · exact hi.nonneg c a r hr
  · -- no validator was added
    have hsome {x : String} (hx : (storedRate k.hostZones c x).isSome) :
        (storedRate s.keeper.hostZones c x).isSome := by
      rw [hrates] at hx
      split at hx
      · rename_i hsame
        rw [hsame.1, hsame.2]
        exact Option.isSome_iff_exists.mpr ⟨_, hbefore⟩
      · exact hx
    exact hi.decodes c a b bz (hsome ha) (hsome hb)
  · -- a stake that goes on waiting
    have hqueries : k.rateQueries = (s.keeper.withoutRateQuery queryId).rateQueries :=
      h.settled.rateQueries
    replace hget : k.rateQueries.queries.get? id = some q := hget
    rw [hqueries] at hget
    obtain ⟨hne, hget⟩ := htaken hget
    obtain ⟨hcomputed, hchain, hkey, hknown, hrate⟩ := hi.waiting id q l hget hdata
    refine ⟨hcomputed, hchain, hkey, hknown, ?_⟩
    show storedRate k.hostZones _ _ = _
    rw [hrates]
    split
    · rename_i hsame
      by_contra hchanged
      refine hne (hok query rate hquery h.current ?_ id l ⟨q, hget, hdata⟩ hsame.1 hsame.2)
      rw [← hsame.1, ← hsame.2, hrate]
      exact fun heq => hchanged heq.symm
    · exact hrate
  · rcases mem_append.mp hm with hm | hm
    · exact hi.mints m hm
    -- only an answer that finds no slash mints
    obtain ⟨l, hdata, hnot, rfl, -⟩ := h.settled.of_mem_mints hm
    obtain ⟨hcomputed, hchain, hkey, hknown, hrate⟩ := hi.waiting queryId query l hquery hdata
    rintro l' hl'
    obtain rfl : l = l' := Option.some.inj hl'
    refine ⟨hcomputed, ?_⟩
    -- the answer is about the validator of the stake
    obtain ⟨bz, hbz, hbz'⟩ := validatorKey_inj hkey hproof
    have haddress : l.deposit.validatorAddress = args.operatorAddress := by
      refine hi.decodes l.deposit.chainId _ _ bz ?_ ?_ hbz hbz'
      · rw [hrate]
        rfl
      · rw [← hchain, hbefore]
        rfl
    have hstart : l.validator.sharesToTokensRate = v.sharesToTokensRate := by
      rw [← hchain, haddress, hbefore] at hrate
      exact (Option.some.inj hrate).symm
    -- its rate was known, so that it is the one of the answer
    have hpos : 0 < v.sharesToTokensRate.i := by
      have hnonneg := hi.nonneg _ _ _ hbefore
      rw [hstart] at hknown
      omega
    have hsame : v.sharesToTokensRate = rate := by
      by_contra hne
      have htrue := h.slash.mpr ⟨hpos, hne⟩
      rw [hnot] at htrue
      cases htrue
    have hmint := storedRate_withZone h
    rw [← hchain, haddress, hstart, hsame]
    exact hmint

/-- **An answer** stores the rate and prices the stake that waits for it. -/
theorem respondRate (hi : s.RateInv) {result : Option QueriedValidator}
    (hok : s.NoOvertaking (.respondRate queryId result))
    (h : respondRate s.ctx s.keeper queryId result = .ok (k, mints)) :
    (s.after (k, mints)).RateInv := by
  have hnothing (hmints : mints = []) : ∀ m ∈ s.mints ++ mints, m.AtStartRate := by
    rw [hmints, append_nil]
    exact hi.mints
  obtain ⟨rfl, hmints⟩ | ⟨query, hquery, hcases⟩ := respondRate_ok h
  · exact hi.of_sameRates rfl (.refl _ _) hi.waiting (hnothing hmints)
  -- the query of the answer is gone in all the other cases
  have htaken {id : String} {q : RateQuery}
      (hget : (s.keeper.withoutRateQuery queryId).rateQueries.queries.get? id = some q) :
      id ≠ queryId ∧ s.keeper.rateQueries.queries.get? id = some q := by
    replace hget := (get?_delete ..).symm.trans hget
    split at hget
    · cases hget
    rename_i hne
    exact ⟨hne, hget⟩
  obtain ⟨rfl, hmints⟩ | ⟨hmints, icq, hretry, rfl⟩ | ⟨rfl, hmints⟩ |
    ⟨args, z, zone, v, rate, slashed, rfl, hproof, hanswered⟩ := hcases
  · exact hi.of_sameRates rfl (.refl _ _)
      (fun id q l hget => hi.waiting id q l (htaken hget).2) (hnothing hmints)
  · refine hi.of_sameRates rfl (.refl _ _) (fun id q l hget hdata => ?_) (hnothing hmints)
    obtain ⟨query', -, hrequest, hqueries, -⟩ := retryICQRequest_ok hretry
    obtain ⟨hdata', hchain', hrequest'⟩ := rateQuery_of_request hrequest
    replace hget : icq.queries.get? id = some q := hget
    rw [hqueries, get?_set] at hget
    split at hget
    · cases hget
      obtain ⟨hcomputed, hchain, hkey, hknown, hrate⟩ :=
        hi.waiting queryId query l hquery (hdata'.symm.trans hdata)
      exact ⟨hcomputed, hchain'.trans hchain, hrequest' ▸ hkey, hknown, hrate⟩
    · rw [get?_delete] at hget
      split at hget
      · cases hget
      exact hi.waiting id q l (htaken hget).2 hdata
  · have hframe := rateQueryTimeout_frame (s.keeper.withoutRateQuery queryId) query.callbackData
    refine hi.of_sameRates rfl ?_ (fun id q l hget => ?_) (hnothing hmints)
    · rw [hframe]
      exact .refl _ _
    · rw [hframe] at hget
      exact hi.waiting id q l (htaken hget).2
  · exact hi.answered hok hquery htaken hproof hanswered

/-- **Preservation**: every event that overtakes no stake keeps the invariant. -/
theorem step (hi : s.RateInv) (hok : s.NoOvertaking e) (h : s.step e = some s') : s'.RateInv := by
  cases e with
  | beginBlock blockTime blockHeight latestHeight =>
    dsimp only [step] at h
    split at h
    · cases h
      refine hi.of_sameRates rfl (fun c => ?_) hi.waiting hi.mints
      rw [get?_beginBlocker, Option.map_map]
      congr 1
      funext z
      dsimp only [Function.comp_apply]
      split <;> rfl
    · cases h
  | lsmLiquidStake msg =>
    dsimp only [step] at h
    split at h
    · cases h
    obtain ⟨⟨k, mints⟩, hk, rfl⟩ := toOption_map_eq_some.mp h
    exact hi.lsmLiquidStake hk
  | liquidStake msg =>
    dsimp only [step] at h
    split at h
    · cases h
    obtain ⟨⟨k, mints⟩, hk, rfl⟩ := toOption_map_eq_some.mp h
    obtain ⟨hframe, hmints⟩ := stakeNative_frame hk
    have hzones : k.hostZones = s.keeper.hostZones := by rw [hframe]
    have hqueries : k.rateQueries = s.keeper.rateQueries := by rw [hframe]
    refine hi.of_sameRates rfl ?_ (fun id query l hget => ?_) fun m hm => ?_
    · show SameView _ s.keeper.hostZones k.hostZones
      rw [hzones]
      exact .refl _ _
    · replace hget : k.rateQueries.queries.get? id = some query := hget
      rw [hqueries] at hget
      exact hi.waiting id query l hget
    · rcases mem_append.mp hm with hm | hm
      · exact hi.mints m hm
      · -- a native stake has no validator
        intro l hl
        rw [hmints m hm] at hl
        cases hl
  | queryRate chainId validatorAddress =>
    obtain ⟨k, hk, rfl⟩ := toOption_map_eq_some.mp h
    obtain ⟨hkeeper, query, hdata, -, -, hset⟩ := submitValidatorSharesToTokensRateICQ_ok hk
    refine hi.of_sameRates rfl ?_ (fun id query' l hget hdata' => ?_) hi.mints
    · rw [hkeeper]
      exact .refl _ _
    · -- nothing waits for a query by hand
      rw [hset, get?_set] at hget
      split at hget
      · cases hget
        rw [hdata] at hdata'
        cases hdata'
      · exact hi.waiting id query' l hget hdata'
  | respondRate queryId result =>
    obtain ⟨⟨k, mints⟩, hk, rfl⟩ := toOption_map_eq_some.mp h
    exact hi.respondRate hok hk
  | send _ _ _ | respondDelegation _ _ | updateRedemptionRates | transfer _ | transferAck _ _
  | detokenize _ _ | detokenizeAck _ _ _ =>
    obtain ⟨hctx, hsame, hmints⟩ := step_of_isQuiet h trivial
    exact hi.of_sameMinting hctx hsame hmints

end RateInv

/-- **Rate of the start**: in a run in which no stake is overtaken by a change of the rate, every
    LSM liquid stake is minted at the rate that its stTokens were computed with. -/
theorem minted_at_start_rate {s₀ s : LSMSystem} (hstart : s₀.RatesStarted)
    (hrun : Reaches step NoOvertaking s₀ s) : ∀ m ∈ s.mints, m.AtStartRate :=
  (hrun.invariant hstart.rateInv fun _ _ _ hi hok hs => hi.step hok hs).mints

/-! ## An overtaken stake -/

/-- The answer of the host about `val1` after a slash of 5 percent. -/
def slashedVal1 : QueriedValidator := ⟨"val1", 190, 200 * 10 ^ 18⟩

/-- A stake of 50 is parked. A query by hand finds the slash, the delegation is queried and
    corrected, and then the query of the stake is answered. -/
def overtakenStake : List LSMEvent :=
  [.lsmLiquidStake ⟨"staker", 50, "ibc/VAL1"⟩, .queryRate "host" "val1",
    .respondRate (lsmContext.sha256 (bigEndian 8 2)) (some slashedVal1),
    .respondDelegation (QuerySystem.smallQueryId "delegation" "val1")
      (some ⟨"delegation", "val1", LegacyDec.fromInt 200⟩),
    .respondRate (lsmContext.sha256 (bigEndian 8 1)) (some slashedVal1)]

private theorem lsmHub_ratesStarted : lsmHub.RatesStarted where
  queries := rfl
  mints := rfl
  nonneg c a rate h := by
    -- both validators have the rate 1
    obtain ⟨z, hz, hrate⟩ := Option.bind_eq_some_iff.mp h
    have hzone : (empty.set twoValidatorZone).get? c = some z := hz
    rw [get?_set] at hzone
    split at hzone
    · cases hzone
      obtain ⟨v, hv, rfl⟩ := Option.map_eq_some_iff.mp hrate
      have hmem := mem_of_find?_eq_some hv
      have hrates : ∀ v ∈ twoValidatorZone.validators, 0 ≤ v.sharesToTokensRate.i := by decide
      exact hrates v hmem
    · cases hzone
  decodes c a b bz _ _ ha hb := by
    have hbytes : bytes a = bytes b := Except.ok.inj (ha.trans hb.symm)
    exact bytes_inj.mp hbytes

/-- **Overtaken**: the stake is minted at the rate 1, though the slash is recorded. -/
theorem overtaken_stake_minted :
    lsmHub.RatesStarted ∧
    ((runSteps step lsmHub overtakenStake).map fun s => s.mints.map fun m =>
      (m.stToken, m.stake.map fun l => l.validator.sharesToTokensRate,
        storedRate m.hostZones "host" "val1")) =
      some [(("stuatom", 50), some LegacyDec.one, some ⟨95 * 10 ^ 16⟩)] := by
  refine ⟨lsmHub_ratesStarted, ?_⟩
  decide +kernel

/-- A parked stake is answered before the slash is found, and the next stake is started after
    the slash is recorded. -/
def stakesAroundSlash : List LSMEvent :=
  [.lsmLiquidStake ⟨"staker", 50, "ibc/VAL1"⟩,
    .respondRate (lsmContext.sha256 (bigEndian 8 1)) (some ⟨"val1", 200, 200 * 10 ^ 18⟩),
    .queryRate "host" "val1",
    .respondRate (lsmContext.sha256 (bigEndian 8 2)) (some slashedVal1),
    .respondDelegation (QuerySystem.smallQueryId "delegation" "val1")
      (some ⟨"delegation", "val1", LegacyDec.fromInt 200⟩),
    .lsmLiquidStake ⟨"staker", 40, "ibc/VAL1B"⟩]

theorem minted_at_start_rate_stakesAroundSlash :
    ∃ s, runAllowed step NoOvertaking lsmHub stakesAroundSlash = some s ∧
      s.mints.map (fun m => (m.stToken, m.stake.map fun l => l.validator.sharesToTokensRate)) =
        [(("stuatom", 50), some LegacyDec.one), (("stuatom", 39), some ⟨95 * 10 ^ 16⟩)] ∧
      ∀ m ∈ s.mints, m.AtStartRate := by
  exact exists_run_end (by decide +kernel) ⟨by decide +kernel,
    minted_at_start_rate lsmHub_ratesStarted (.of_get _)⟩

end LSMSystem

end Stride.Stakeibc
