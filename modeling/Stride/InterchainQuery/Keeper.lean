import Stride.Lib.KVStore
import Stride.Sdk.Bytes
import Stride.Sdk.Math

/-!
# Interchain Queries

The `interchainquery` module stores queries until a relayer delivers the answer of the other
chain. A response is checked against a proof, takes its query out of the store, and then runs
the callback of the query.

Callback data is a type parameter `D`, and the decoded value under a key of the other chain is a
parameter `R`.
-/

namespace Stride.InterchainQuery

open Lib Sdk

/-! ## Types -/

inductive TimeoutPolicy where
  | rejectQueryResponse
  | retryQueryRequest
  | executeQueryCallback
  deriving DecidableEq

/-- `Query`. Durations and timestamps are in nanoseconds. -/
structure Query (D : Type) where
  id : String
  connectionId : String
  chainId : String
  queryType : String
  requestData : List UInt8
  callbackModule : String
  callbackId : String
  callbackData : D
  timeoutPolicy : TimeoutPolicy
  timeoutDuration : ℤ
  timeoutTimestamp : ℕ
  requestSent : Bool
  submissionHeight : ℕ
  deriving DecidableEq

/-- The keeper: the queries by id, and the counter of unique ids once it is set. -/
structure IcqKeeper (D : Type) where
  queries : KeyedStore (Query.id : Query D → String)
  queryCounter : Option ℕ

/-- What the keepers read from the chain around them: the block time in Unix nanoseconds, the
    client of a connection with its latest height, and two functions of libraries. -/
structure Context where
  blockTime : ℤ
  latestHeight : String → Option (String × ℕ)
  sha256 : List UInt8 → String
  decodeAndConvert : String → Except String (List UInt8)

/-- The callback ids that the modules register. -/
def icqCallbacks : List (String × List String) :=
  [("icqoracle", ["osmosisprice"]),
    ("stakeibc", ["withdrawalbalance", "feebalance", "delegation", "validator", "calibrate",
      "communitypoolicabalance", "withdrawalrewardbalance", "tradeconvertedbalance"])]

variable {D R σ : Type}

/-! ## Submission -/

/-- `GetQueryUID`: the counter, which starts at 1 and is a `uint64`, as eight bytes. -/
def getQueryUID (k : IcqKeeper D) : List UInt8 × IcqKeeper D :=
  let uid := k.queryCounter.getD 1
  (bigEndian 8 uid, { k with queryCounter := some ((uid + 1) % 2 ^ 64) })

/-- The request of a query as bytes. -/
def queryKey (query : Query D) : List UInt8 :=
  bytes (query.callbackModule ++ query.connectionId ++ query.chainId ++ query.queryType ++
    query.callbackId) ++ query.requestData

def getQueryId (ctx : Context) (k : IcqKeeper D) (query : Query D) (forceUnique : Bool) :
    String × IcqKeeper D :=
  if forceUnique then
    let (uid, k) := getQueryUID k
    (ctx.sha256 uid, k)
  else (ctx.sha256 (queryKey query), k)

def validateQuery (query : Query D) : Result Unit :=
  if query.chainId = "" then wrapf .errInvalidICQRequest "chain-id cannot be empty"
  else if query.connectionId = "" then wrapf .errInvalidICQRequest "connection-id cannot be empty"
  else if ¬ (bytes "connection-").isPrefixOf (bytes query.connectionId) then
    wrapf .errInvalidICQRequest s!"invalid connection-id ({query.connectionId})"
  else if query.queryType = "" then wrapf .errInvalidICQRequest "query type cannot be empty"
  else if query.callbackModule = "" then
    wrapf .errInvalidICQRequest "callback module must be specified"
  else if query.callbackId = "" then wrapf .errInvalidICQRequest "callback-id cannot be empty"
  else if query.timeoutDuration = 0 then wrapf .errInvalidICQRequest "timeout duration must be set"
  else
    match icqCallbacks.lookup query.callbackModule with
    | none =>
      wrapf .errInvalidICQRequest
        s!"no callback handler registered for module ({query.callbackModule})"
    | some callbacks =>
      if query.callbackId ∉ callbacks then
        wrapf .errInvalidRequest
          s!"callback-id ({query.callbackId}) is not registered for module ({query.callbackModule})"
      else .ok ()

def intToUint (i : ℤ) : Result ℕ :=
  if i < 0 then goPanic s!"int64 value {i} is negative and can't be converted to uint64"
  else .ok i.toNat

/-- `SubmitICQRequest`. The sum of the block time and the duration is an `int64`. -/
def submitICQRequest (ctx : Context) (k : IcqKeeper D) (query : Query D) (forceUnique : Bool) :
    Result (IcqKeeper D) := do
  validateQuery query
  let timeoutTimestamp ← intToUint ((ctx.blockTime + query.timeoutDuration).bmod (2 ^ 64))
  let (id, k) := getQueryId ctx k query forceUnique
  match ctx.latestHeight query.connectionId with
  | none => wrapf .errConnectionNotFound query.connectionId
  | some (clientId, latestHeight) =>
    if latestHeight = 0 then wrapf .errClientNotFound clientId
    else
      return { k with
        queries := k.queries.set { query with
          id := id
          timeoutTimestamp := timeoutTimestamp
          requestSent := false
          submissionHeight := latestHeight } }

def deleteQuery (k : IcqKeeper D) (id : String) : IcqKeeper D :=
  { k with queries := k.queries.delete id }

def retryICQRequest (ctx : Context) (k : IcqKeeper D) (query : Query D) : Result (IcqKeeper D) :=
  wrapError (submitICQRequest ctx (deleteQuery k query.id) query true) "failed to retry query"

/-! ## Responses -/

/-- `HasTimedOut`. The block time is not before 1970. -/
def Query.hasTimedOut (query : Query D) (blockTime : ℤ) : Bool :=
  (query.timeoutTimestamp : ℤ) < blockTime

/-- `SubmitQueryResponse`. `verifyKeyProof` checks the proof against the query. An empty
    result is `none`. The callback `invokeCallback` gets the keeper without the query, and
    returns a state of its own into which `done` embeds the keeper. -/
def submitQueryResponse (ctx : Context) (k : IcqKeeper D) (done : IcqKeeper D → σ)
    (invokeCallback : IcqKeeper D → Query D → R → Result σ)
    (verifyKeyProof : Query D → Result Unit) (queryId : String) (result : Option R) : Result σ :=
  match k.queries.get? queryId with
  -- a response to a query that does not exist is ignored
  | none => .ok (done k)
  | some query => do
    verifyKeyProof query
    let k := deleteQuery k query.id
    match result with
    | none => return done k
    | some args =>
      if query.hasTimedOut ctx.blockTime then
        -- `HandleQueryTimeout`
        match query.timeoutPolicy with
        | .rejectQueryResponse => return done k
        | .retryQueryRequest =>
          let k ← retryICQRequest ctx k query
          return done k
        | .executeQueryCallback => invokeCallback k query args
      else invokeCallback k query args

/-! ## What a submission does -/

/-- A query apart from what a submission sets. -/
def Query.request (query : Query D) : Query D :=
  { query with id := "", timeoutTimestamp := 0, requestSent := false, submissionHeight := 0 }

/-- The id of a new query: the hash of its request, or of the counter. -/
def newId (ctx : Context) (k : IcqKeeper D) (query : Query D) (forceUnique : Bool) : String :=
  if forceUnique then ctx.sha256 (bigEndian 8 (k.queryCounter.getD 1))
  else ctx.sha256 (queryKey query)

variable {forceUnique : Bool} {ctx : Context} {query : Query D}

/-- **Submission**: one query enters the store under a new id, in place of the query that had
    this id. -/
theorem submitICQRequest_ok {k k' : IcqKeeper D}
    (h : submitICQRequest ctx k query forceUnique = .ok k') :
    ∃ query', query'.id = newId ctx k query forceUnique ∧ query'.request = query.request ∧
      k'.queries = k.queries.set query' ∧
      k'.queryCounter =
        if forceUnique then some ((k.queryCounter.getD 1 + 1) % 2 ^ 64) else k.queryCounter := by
  obtain ⟨-, -, h⟩ := bind_eq_ok.mp h
  obtain ⟨timestamp, -, h⟩ := bind_eq_ok.mp h
  dsimp only at h
  split at h
  · cases h
  rename_i clientId latestHeight hheight
  split at h
  · cases h
  cases h
  refine ⟨{ query with
    id := newId ctx k query forceUnique
    timeoutTimestamp := timestamp
    requestSent := false
    submissionHeight := latestHeight }, rfl, rfl, ?_, ?_⟩
  · cases forceUnique <;> rfl
  · cases forceUnique <;> rfl

/-- **Retry**: the query is replaced by one with a unique id. -/
theorem retryICQRequest_ok {k k' : IcqKeeper D} (h : retryICQRequest ctx k query = .ok k') :
    ∃ query', query'.id = ctx.sha256 (bigEndian 8 (k.queryCounter.getD 1)) ∧
      query'.request = query.request ∧
      k'.queries = (k.queries.delete query.id).set query' ∧
      k'.queryCounter = some ((k.queryCounter.getD 1 + 1) % 2 ^ 64) :=
  submitICQRequest_ok (wrapError_eq_ok.mp h)

/-- All stored queries have a property. -/
def IcqKeeper.Forall (P : Query D → Prop) (k : IcqKeeper D) : Prop :=
  ∀ id query, k.queries.get? id = some query → P query

namespace IcqKeeper.Forall

variable {P : Query D → Prop} {k k' : IcqKeeper D}

theorem deleteQuery (h : k.Forall P) (id : String) : (deleteQuery k id).Forall P := by
  intro id' query hquery
  simp only [InterchainQuery.deleteQuery, KeyedStore.get?_delete] at hquery
  split at hquery
  · cases hquery
  exact h id' query hquery

theorem set (h : k.Forall P) (hquery : P query) (hk : k'.queries = k.queries.set query) :
    k'.Forall P := by
  intro id query' hget
  rw [hk, KeyedStore.get?_set] at hget
  split at hget
  · cases hget
    exact hquery
  · exact h id query' hget

theorem submit (h : k.Forall P) (hP : ∀ q q' : Query D, q'.request = q.request → P q → P q')
    (hquery : P query) (hk : submitICQRequest ctx k query forceUnique = .ok k') : k'.Forall P := by
  obtain ⟨query', -, hrequest, hqueries, -⟩ := submitICQRequest_ok hk
  exact h.set (hP query query' hrequest hquery) hqueries

theorem retry (h : k.Forall P) (hP : ∀ q q' : Query D, q'.request = q.request → P q → P q')
    (hquery : P query) (hk : retryICQRequest ctx k query = .ok k') : k'.Forall P :=
  (h.deleteQuery query.id).submit hP hquery (wrapError_eq_ok.mp hk)

end IcqKeeper.Forall

/-! ## What a response does -/

/-- **Response**: a response to a stored query deletes it. An empty result and a rejected
    timeout end there; otherwise the query is submitted again or its callback runs. -/
theorem submitQueryResponse_ok {k : IcqKeeper D} {done : IcqKeeper D → σ}
    {invokeCallback : IcqKeeper D → Query D → R → Result σ} {verifyKeyProof : Query D → Result Unit}
    {queryId : String} {result : Option R} {s : σ}
    (h : submitQueryResponse ctx k done invokeCallback verifyKeyProof queryId result = .ok s) :
    (k.queries.get? queryId = none ∧ s = done k) ∨
    ∃ query, k.queries.get? queryId = some query ∧ verifyKeyProof query = .ok () ∧
      ((result = none ∧ s = done (deleteQuery k queryId)) ∨
      ∃ args, result = some args ∧
        ((query.hasTimedOut ctx.blockTime = true ∧ query.timeoutPolicy = .rejectQueryResponse ∧
          s = done (deleteQuery k queryId)) ∨
        (query.hasTimedOut ctx.blockTime = true ∧ query.timeoutPolicy = .retryQueryRequest ∧
          ∃ k', retryICQRequest ctx (deleteQuery k queryId) query = .ok k' ∧ s = done k') ∨
        invokeCallback (deleteQuery k queryId) query args = .ok s)) := by
  unfold submitQueryResponse at h
  split at h
  · rename_i hnone
    cases h
    exact .inl ⟨hnone, rfl⟩
  · rename_i query hquery
    have hid : query.id = queryId := KeyedStore.key_of_get? hquery
    obtain ⟨_, hverify, h⟩ := bind_eq_ok.mp h
    refine .inr ⟨query, hquery, hverify, ?_⟩
    rw [hid] at h
    cases result with
    | none =>
      cases h
      exact .inl ⟨rfl, rfl⟩
    | some args =>
      refine .inr ⟨args, rfl, ?_⟩
      dsimp only at h
      split at h
      · rename_i htimeout
        split at h
        · rename_i hpolicy
          cases h
          exact .inl ⟨htimeout, hpolicy, rfl⟩
        · rename_i hpolicy
          obtain ⟨k', hretry, h⟩ := bind_eq_ok.mp h
          cases h
          exact .inr (.inl ⟨htimeout, hpolicy, k', hretry, rfl⟩)
        · -- the third policy leaves the timeout to the callback
          exact .inr (.inr h)
      · exact .inr (.inr h)

end Stride.InterchainQuery
