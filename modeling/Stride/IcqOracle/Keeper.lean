import Stride.InterchainQuery.Keeper

/-!
# Price Oracle

The `icqoracle` module keeps the prices of token pairs. At the start of a block, each price
whose update interval has passed gets a query for the TWAP record of its Osmosis pool, and the
callback of the query stores the spot price.

The query id is the hash of the request, while the callback data name the price.
-/

namespace Stride.IcqOracle

open Lib Sdk InterchainQuery List

/-! ## Types -/

structure Params where
  osmosisChainId : String
  osmosisConnectionId : String
  updateIntervalSec : ℕ
  priceExpirationTimeoutSec : ℕ
  deriving DecidableEq

/-- `TokenPrice`. Times are in Unix nanoseconds. -/
structure TokenPrice where
  baseDenom : String
  quoteDenom : String
  osmosisBaseDenom : String
  osmosisQuoteDenom : String
  osmosisPoolId : UInt64
  spotPrice : LegacyDec
  lastRequestTime : ℤ
  lastResponseTime : ℤ
  queryInProgress : Bool
  deriving DecidableEq

/-- The fields of `OsmosisTwapRecord` that are read. -/
structure OsmosisTwapRecord where
  poolId : UInt64
  asset0Denom : String
  asset1Denom : String
  p0LastSpotPrice : LegacyDec
  p1LastSpotPrice : LegacyDec
  deriving DecidableEq

/-- `time.Time{}`: the first of January of the year one. -/
def zeroTime : ℤ := -62135596800 * 10 ^ 9

def uintToInt (u : ℕ) : Result ℤ :=
  if u < 2 ^ 63 then .ok u else goPanic s!"uint64 value {u} too large for int64"

/-- `time.Second * time.Duration(n)`, an `int64`. -/
def seconds (n : ℤ) : ℤ := (n * 10 ^ 9).bmod (2 ^ 64)

def tokenPriceKey (baseDenom quoteDenom : String) (poolId : UInt64) : List UInt8 :=
  bytes (baseDenom ++ "|" ++ quoteDenom ++ "|" ++ toString poolId)

def TokenPrice.key (p : TokenPrice) : List UInt8 :=
  tokenPriceKey p.baseDenom p.quoteDenom p.osmosisPoolId

structure Keeper where
  params : Params
  tokenPrices : KeyedStore TokenPrice.key
  icq : IcqKeeper TokenPrice

/-! ## The TWAP key of a pool -/

/-- The last `len` decimal digits of `n`. -/
def decimalDigits : ℕ → ℕ → List UInt8
  | 0, _ => []
  | len + 1, n => decimalDigits len (n / 10) ++ [UInt8.ofNat (48 + n % 10)]

def sortDenoms (denom1 denom2 : String) : String × String :=
  if bytes denom2 < bytes denom1 then (denom2, denom1) else (denom1, denom2)

/-- `FormatOsmosisMostRecentTWAPKey`. The pool id has twenty digits, and `|` is byte 124. -/
def formatOsmosisMostRecentTWAPKey (poolId : UInt64) (denom1 denom2 : String) : List UInt8 :=
  bytes "recent_twap|" ++ (decimalDigits 20 poolId.toNat ++
    124 :: (bytes (sortDenoms denom1 denom2).1 ++ 124 :: bytes (sortDenoms denom1 denom2).2))

def TokenPrice.twapKey (p : TokenPrice) : List UInt8 :=
  formatOsmosisMostRecentTWAPKey p.osmosisPoolId p.osmosisBaseDenom p.osmosisQuoteDenom

/-! ## Prices -/

def getTokenPrice (k : Keeper) (baseDenom quoteDenom : String) (poolId : UInt64) :
    Result TokenPrice :=
  match k.tokenPrices.get? (tokenPriceKey baseDenom quoteDenom poolId) with
  | none =>
    wrapf .plain s!"token price not found for baseDenom='{baseDenom}' quoteDenom='{quoteDenom}' poolId='{poolId}'"
  | some price => .ok price

def setTokenPrice (k : Keeper) (price : TokenPrice) : Keeper :=
  { k with tokenPrices := k.tokenPrices.set price }

structure MsgRegisterTokenPriceQuery where
  baseDenom : String
  quoteDenom : String
  osmosisPoolId : UInt64
  osmosisBaseDenom : String
  osmosisQuoteDenom : String
  deriving DecidableEq

/-- The price that a message registers. -/
def MsgRegisterTokenPriceQuery.tokenPrice (msg : MsgRegisterTokenPriceQuery) : TokenPrice where
  baseDenom := msg.baseDenom
  quoteDenom := msg.quoteDenom
  osmosisPoolId := msg.osmosisPoolId
  osmosisBaseDenom := msg.osmosisBaseDenom
  osmosisQuoteDenom := msg.osmosisQuoteDenom
  lastRequestTime := zeroTime
  lastResponseTime := zeroTime
  spotPrice := ⟨0⟩
  queryInProgress := false

def registerTokenPriceQuery (k : Keeper) (msg : MsgRegisterTokenPriceQuery) : Result Keeper :=
  match getTokenPrice k msg.baseDenom msg.quoteDenom msg.osmosisPoolId with
  | .ok _ =>
    wrapf .errTokenPriceAlreadyExists
      s!"token price BaseDenom='{msg.baseDenom}' QuoteDenom='{msg.quoteDenom}' OsmosisPoolId='{msg.osmosisPoolId}'"
  | .error _ => .ok (setTokenPrice k msg.tokenPrice)

def setQueryInProgress (ctx : Context) (k : Keeper) (baseDenom quoteDenom : String)
    (poolId : UInt64) : Result Keeper := do
  let tokenPrice ← getTokenPrice k baseDenom quoteDenom poolId
  return setTokenPrice k { tokenPrice with
    queryInProgress := true
    lastRequestTime := ctx.blockTime }

def setQueryComplete (ctx : Context) (k : Keeper) (tokenPrice : TokenPrice)
    (newSpotPrice : LegacyDec) : Keeper :=
  setTokenPrice k { tokenPrice with
    spotPrice := newSpotPrice
    queryInProgress := false
    lastResponseTime := ctx.blockTime }

/-! ## Queries -/

def priceQuery (params : Params) (tokenPrice : TokenPrice) (timeoutDuration : ℤ) :
    Query TokenPrice where
  id := ""
  chainId := params.osmosisChainId
  connectionId := params.osmosisConnectionId
  queryType := "store/twap/key"
  requestData := tokenPrice.twapKey
  callbackModule := "icqoracle"
  callbackId := "osmosisprice"
  callbackData := tokenPrice
  timeoutDuration := timeoutDuration
  timeoutPolicy := .rejectQueryResponse
  timeoutTimestamp := 0
  requestSent := false
  submissionHeight := 0

def submitOsmosisPriceICQ (ctx : Context) (k : Keeper) (tokenPrice : TokenPrice) :
    Result Keeper := do
  let interval ← uintToInt k.params.updateIntervalSec
  let icq ← wrapError
    (submitICQRequest ctx k.icq (priceQuery k.params tokenPrice (seconds interval)) false)
    "Error submitting OsmosisPrice ICQ"
  wrapError (setQueryInProgress ctx { k with icq := icq } tokenPrice.baseDenom
    tokenPrice.quoteDenom tokenPrice.osmosisPoolId)
    "Error updating token price query to in progress"

/-- `RefreshTokenPrice`. The difference of two times is an `int64`, and stops at its bounds. -/
def refreshTokenPrice (ctx : Context) (k : Keeper) (tokenPrice : TokenPrice)
    (updateIntervalSec : ℕ) : Result Keeper := do
  let interval ← uintToInt updateIntervalSec
  let elapsed := max (-2 ^ 63) (min (ctx.blockTime - tokenPrice.lastRequestTime) (2 ^ 63 - 1))
  if tokenPrice.lastRequestTime ≠ zeroTime ∧ elapsed < seconds interval then return k
  else
    wrapError (submitOsmosisPriceICQ ctx k tokenPrice)
      s!"failed to submit Osmosis CL pool ICQ baseToken='{tokenPrice.baseDenom}' quoteToken='{tokenPrice.quoteDenom}' poolId='{tokenPrice.osmosisPoolId}'"

/-- `BeginBlocker`. An error of one price is logged; it has written nothing, since the price
    that `setQueryInProgress` reads is there. A panic stops the chain. -/
def beginBlocker (ctx : Context) (k : Keeper) : Result Keeper :=
  k.tokenPrices.values.foldlM (fun k tokenPrice =>
    match refreshTokenPrice ctx k tokenPrice k.params.updateIntervalSec with
    | .ok k => .ok k
    | .error e => if e.code = .panic then .error e else .ok k) k

/-! ## Responses -/

def assertTwapAssetsMatchTokenPrice (twapRecord : OsmosisTwapRecord) (tokenPrice : TokenPrice) :
    Result Unit :=
  require
    ((twapRecord.asset0Denom = tokenPrice.osmosisBaseDenom ∧
        twapRecord.asset1Denom = tokenPrice.osmosisQuoteDenom) ∨
      (twapRecord.asset0Denom = tokenPrice.osmosisQuoteDenom ∧
        twapRecord.asset1Denom = tokenPrice.osmosisBaseDenom)) .plain
    s!"Assets in query response ({twapRecord.asset0Denom}, {twapRecord.asset1Denom}) do not match denom's from token price ({tokenPrice.osmosisBaseDenom}, {tokenPrice.osmosisQuoteDenom})"

/-- `UnmarshalSpotPriceFromOsmosis`, on a decoded record. -/
def unmarshalSpotPriceFromOsmosis (tokenPrice : TokenPrice) (twapRecord : OsmosisTwapRecord) :
    Result LegacyDec := do
  assertTwapAssetsMatchTokenPrice twapRecord tokenPrice
  if twapRecord.asset0Denom = tokenPrice.osmosisQuoteDenom then
    return twapRecord.p0LastSpotPrice
  else
    return twapRecord.p1LastSpotPrice

def osmosisPriceCallback (ctx : Context) (k : Keeper) (args : OsmosisTwapRecord)
    (query : Query TokenPrice) : Result Keeper := do
  let data := query.callbackData
  let tokenPrice ← wrapError (getTokenPrice k data.baseDenom data.quoteDenom data.osmosisPoolId)
    "Error getting current spot price"
  if tokenPrice.queryInProgress then
    let newSpotPrice ← wrapError (unmarshalSpotPriceFromOsmosis tokenPrice args)
      "Error determining spot price from query response"
    return setQueryComplete ctx k tokenPrice newSpotPrice
  else return k

/-- A record that Osmosis keeps under a key. Its denoms do not contain the separator. -/
def OsmosisTwapRecord.IsUnder (record : OsmosisTwapRecord) (key : List UInt8) : Prop :=
  formatOsmosisMostRecentTWAPKey record.poolId record.asset0Denom record.asset1Denom = key ∧
    124 ∉ bytes record.asset0Denom ∧ 124 ∉ bytes record.asset1Denom

instance (record : OsmosisTwapRecord) (key : List UInt8) : Decidable (record.IsUnder key) :=
  inferInstanceAs (Decidable (_ ∧ _))

/-- `SubmitQueryResponse` for a price query. The proof shows what Osmosis stores. -/
def submitPriceResponse (ctx : Context) (k : Keeper) (queryId : String)
    (record : OsmosisTwapRecord) : Result Keeper :=
  submitQueryResponse ctx k.icq (fun icq => { k with icq := icq })
    (fun icq query args => osmosisPriceCallback ctx { k with icq := icq } args query)
    (fun query => require (record.IsUnder query.requestData) .errInvalidICQProof
      "Proof failed to verify")
    queryId (some record)

/-! ## Keys -/

private theorem length_decimalDigits (len n : ℕ) : (decimalDigits len n).length = len := by
  induction len generalizing n with
  | zero => rfl
  | succ len ih => simp [decimalDigits, ih]

private theorem decimalDigits_inj {len m n : ℕ} (hm : m < 10 ^ len) (hn : n < 10 ^ len)
    (h : decimalDigits len m = decimalDigits len n) : m = n := by
  induction len generalizing m n with
  | zero =>
    omega
  | succ len ih =>
    obtain ⟨hhigh, hlow⟩ := append_inj h (by simp [length_decimalDigits])
    have hdiv : m / 10 = n / 10 := ih (by omega) (by omega) hhigh
    have hmod : m % 10 = n % 10 := by
      simp only [cons.injEq, and_true, ← UInt8.toNat_inj, UInt8.toNat_ofNat'] at hlow
      omega
    omega

private theorem sortDenoms_eq (denom1 denom2 : String) :
    sortDenoms denom1 denom2 = (denom1, denom2) ∨ sortDenoms denom1 denom2 = (denom2, denom1) := by
  unfold sortDenoms
  split <;> simp

/-- **TWAP keys**: pool and denoms can be read off the key of a record. -/
theorem OsmosisTwapRecord.IsUnder.eq {record : OsmosisTwapRecord} {poolId : UInt64}
    {denom1 denom2 : String}
    (h : record.IsUnder (formatOsmosisMostRecentTWAPKey poolId denom1 denom2)) :
    record.poolId = poolId ∧ ((record.asset0Denom = denom1 ∧ record.asset1Denom = denom2) ∨
      (record.asset0Denom = denom2 ∧ record.asset1Denom = denom1)) := by
  obtain ⟨hkey, h0, h1⟩ := h
  obtain ⟨hpool, hdenoms⟩ := append_inj (append_cancel_left hkey)
    (by simp only [length_decimalDigits])
  have hlt (u : UInt64) : u.toNat < 10 ^ 20 := by
    have := u.toNat_lt
    omega
  refine ⟨UInt64.toNat_inj.mp (decimalDigits_inj (hlt _) (hlt _) hpool), ?_⟩
  rw [cons.injEq] at hdenoms
  -- the separator is where the first denom of the record ends
  obtain hsort | hsort := sortDenoms_eq record.asset0Denom record.asset1Denom <;>
    obtain hsort' | hsort' := sortDenoms_eq denom1 denom2 <;>
    rw [hsort, append_cons_inj_of_notMem (by assumption) (by assumption)] at hdenoms <;>
    simp_all

end Stride.IcqOracle
