import Stride.InterchainQuery.Keeper
import Stride.Lib.Pipeline
import Stride.Lib.Runs

/-!
# Ids of Queries

A query is stored under the hash of its request, or under the hash of a counter if its id is
forced to be unique. The request is hashed as its six fields without separators, so that two
requests can read the same.

## Main definitions

- `QueryHistory`: the keeper with all submissions so far
- `Query.Canonical`: a request whose fields can be told apart
- `QueryHistory.Canonical`: the events that submit such requests
-/

namespace Stride.InterchainQuery

open Lib Sdk KeyedStore List

variable {D : Type}

/-- What is asked, and who hears the answer. -/
def Query.fields (query : Query D) : String × String × String × String × String × List UInt8 :=
  (query.callbackModule, query.connectionId, query.chainId, query.queryType, query.callbackId,
    query.requestData)

/-- The query types of the modules. -/
def storeQueryTypes : List String := ["store/staking/key", "store/bank/key", "store/twap/key"]

def isDigit (b : UInt8) : Bool := 48 ≤ b && b ≤ 57

/-- `/` -/
def slash : UInt8 := 47

/-- A request with a generated connection id and one of the query types, to a chain whose id does
    not start with a digit and has no slash. -/
structure Query.Canonical (query : Query D) : Prop where
  connectionId : ((bytes query.connectionId).drop 11).all isDigit
  chainId : (bytes query.chainId).head?.any isDigit = false
  noSlash : slash ∉ bytes query.chainId
  queryType : query.queryType ∈ storeQueryTypes

instance Query.decidableCanonical (query : Query D) : Decidable query.Canonical :=
  decidable_of_iff (_ ∧ _ ∧ _ ∧ _) ⟨fun ⟨h₁, h₂, h₃, h₄⟩ => ⟨h₁, h₂, h₃, h₄⟩,
    fun ⟨h₁, h₂, h₃, h₄⟩ => ⟨h₁, h₂, h₃, h₄⟩⟩

/-- `EndBlocker`: the queries are emitted for the relayers, once each. -/
def endBlocker (k : IcqKeeper D) : IcqKeeper D :=
  { k with
    queries := k.queries.values.foldl (fun queries query =>
      if query.requestSent = false then queries.set { query with requestSent := true }
      else queries) k.queries }

/-- A call of `SubmitICQRequest` and the id that it generated. -/
structure Submission (D : Type) where
  query : Query D
  forceUnique : Bool
  id : String

/-- Two submissions that are to have different ids have different ids. -/
def Submission.Distinct (a b : Submission D) : Prop :=
  a.forceUnique = true ∨ b.forceUnique = true ∨ a.query.fields ≠ b.query.fields → a.id ≠ b.id

/-- The keeper, with the submissions so far. -/
structure QueryHistory (D : Type) where
  keeper : IcqKeeper D
  submissions : List (Submission D)

/-- `RetryICQRequest` is a deletion and a submission. -/
inductive QueryIdEvent (D : Type) where
  | submit (ctx : Context) (query : Query D) (forceUnique : Bool)
  | delete (id : String)
  | endBlock

namespace QueryHistory

def start : QueryHistory D := ⟨⟨.empty, none⟩, []⟩

def uniqueIds (s : QueryHistory D) : ℕ := s.submissions.countP Submission.forceUnique

/-- Blocks have different contexts, but the hash function is always the same. -/
def step (sha256 : List UInt8 → String) (s : QueryHistory D) :
    QueryIdEvent D → Option (QueryHistory D)
  | .submit ctx query forceUnique =>
    let ctx := { ctx with sha256 := sha256 }
    (submitICQRequest ctx s.keeper query forceUnique).toOption.map fun k =>
      ⟨k, s.submissions ++ [⟨query, forceUnique, (getQueryId ctx s.keeper query forceUnique).1⟩]⟩
  | .delete id => some { s with keeper := deleteQuery s.keeper id }
  | .endBlock => some { s with keeper := endBlocker s.keeper }

/-- A request that is hashed is canonical, and the counter of the unique ids has not come back to
    its start. -/
def Canonical (s : QueryHistory D) : QueryIdEvent D → Prop
  | .submit _ query false => query.Canonical
  | .submit _ _ true => s.uniqueIds < 2 ^ 64
  | _ => True

instance decidableCanonical (s : QueryHistory D) : ∀ e, Decidable (s.Canonical e)
  | .submit _ query false => inferInstanceAs (Decidable query.Canonical)
  | .submit _ _ true => inferInstanceAs (Decidable (s.uniqueIds < 2 ^ 64))
  | .delete _ | .endBlock => .isTrue trivial

end QueryHistory

/-! ## Hashed bytes -/

variable {q q' query : Query D} {a b : Submission D} {sha256 : List UInt8 → String}
  {s s' : QueryHistory D} {ctx : Context} {forceUnique : Bool}

private theorem fields_of_request (h : q.request = query.request) : q.fields = query.fields := by
  simp only [Query.request, Query.mk.injEq] at h
  simp [Query.fields, h]

/-- What is known about the fields of a query that is submitted. -/
theorem validateQuery_ok (h : validateQuery query = .ok ()) :
    query.chainId ≠ "" ∧ bytes "connection-" <+: bytes query.connectionId ∧
      ∃ callbacks, (query.callbackModule, callbacks) ∈ icqCallbacks ∧
        query.callbackId ∈ callbacks := by
  unfold validateQuery at h
  split_ifs at h with hchain _ hconnection
  any_goals cases h
  split at h
  · cases h
  rename_i callbacks hlookup
  split at h
  · cases h
  rename_i hcallback
  obtain ⟨before, after, hmem, -⟩ := lookup_eq_some_iff.mp hlookup
  exact ⟨hchain, isPrefixOf_iff_prefix.mp hconnection, callbacks, by simp [hmem],
    not_not.mp hcallback⟩

/-- The bytes of a request are more than those of a counter. -/
theorem queryKey_ne_bigEndian (h : validateQuery query = .ok ()) (uid : ℕ) :
    queryKey query ≠ bigEndian 8 uid := by
  intro heq
  have hlength := congrArg length heq
  have hle := (validateQuery_ok h).2.1.length_le
  have hconnection : (bytes "connection-").length = 11 := by decide
  simp only [queryKey, bytes_append, length_append, length_bigEndian] at hlength
  omega

section

variable (hq : q.Canonical) (hq' : q'.Canonical)
include hq hq'

/-- The number of a connection ends where the chain id starts. -/
theorem connectionId_of_append {bz bz' : List UInt8}
    (hvalid : validateQuery q = .ok ()) (hvalid' : validateQuery q' = .ok ())
    (h : bytes q.connectionId ++ (bytes q.chainId ++ bz) =
      bytes q'.connectionId ++ (bytes q'.chainId ++ bz')) :
    bytes q.connectionId = bytes q'.connectionId ∧
      bytes q.chainId ++ bz = bytes q'.chainId ++ bz' := by
  have hsplit {q : Query D} (hq : q.Canonical) (hvalid : validateQuery q = .ok ())
      (bz : List UInt8) : ∃ number, bytes q.connectionId = bytes "connection-" ++ number ∧
        (∀ b ∈ number, isDigit b) ∧ ∀ b ∈ (bytes q.chainId ++ bz).head?, ¬ isDigit b := by
    obtain ⟨hchain, ⟨number, hnumber⟩, -⟩ := validateQuery_ok hvalid
    have hdigits := hq.connectionId
    rw [← hnumber, drop_left' (by decide)] at hdigits
    have hne : bytes q.chainId ≠ [] := fun hnil => hchain (bytes_injective hnil)
    rw [head?_append_of_ne_nil _ hne]
    refine ⟨number, hnumber.symm, all_eq_true.mp hdigits, fun b hb => ?_⟩
    have hfirst := hq.chainId
    rwa [hb, Option.any_some, ← Bool.not_eq_true] at hfirst
  obtain ⟨number, hnumber, hdigits, hstop⟩ := hsplit hq hvalid bz
  obtain ⟨number', hnumber', hdigits', hstop'⟩ := hsplit hq' hvalid' bz'
  rw [hnumber, hnumber', append_assoc, append_assoc, append_cancel_left_eq] at h
  obtain ⟨rfl, hrest⟩ := append_inj_of_stop hdigits hdigits' hstop hstop' h
  exact ⟨hnumber.trans hnumber'.symm, hrest⟩

/-- A chain id ends before the first slash, which is the one of `store/`. -/
theorem chainId_of_append {bz bz' : List UInt8} (h : bytes q.chainId ++ (bytes q.queryType ++ bz) =
      bytes q'.chainId ++ (bytes q'.queryType ++ bz')) :
    bytes q.chainId = bytes q'.chainId ∧ bytes q.queryType ++ bz = bytes q'.queryType ++ bz' := by
  have hsplit {q : Query D} (hq : q.Canonical) : (∃ key, bytes q.queryType =
      bytes "store" ++ slash :: key) ∧ ∀ b ∈ bytes q.chainId ++ bytes "store", b != slash := by
    have htypes : ∀ t ∈ storeQueryTypes, bytes "store" ++ [slash] <+: bytes t := by decide
    obtain ⟨key, hkey⟩ := htypes _ hq.queryType
    have hstore : slash ∉ bytes "store" := by decide
    refine ⟨⟨key, by simpa using hkey.symm⟩, fun b hb => ?_⟩
    rw [bne_iff_ne]
    rintro rfl
    exact (mem_append.mp hb).elim hq.noSlash hstore
  obtain ⟨⟨key, hkey⟩, hbefore⟩ := hsplit hq
  obtain ⟨⟨key', hkey'⟩, hbefore'⟩ := hsplit hq'
  have hparts : (bytes q.chainId ++ bytes "store") ++ slash :: (key ++ bz) =
      (bytes q'.chainId ++ bytes "store") ++ slash :: (key' ++ bz') := by
    simpa [hkey, hkey'] using h
  obtain ⟨hchain, -⟩ := append_inj_of_stop hbefore hbefore' (by simp) (by simp) hparts
  have hchain := append_cancel_right hchain
  rw [hchain] at h
  exact ⟨hchain, append_cancel_left h⟩

/-- **Hashed bytes** of a canonical request determine its fields: the modules, the query types and
    the callback ids of a module are prefix-free. -/
theorem Query.Canonical.fields_of_queryKey
    (hvalid : validateQuery q = .ok ()) (hvalid' : validateQuery q' = .ok ())
    (h : queryKey q = queryKey q') : q.fields = q'.fields := by
  have hmodules : PrefixFree (icqCallbacks.map fun p => bytes p.1) := by decide +kernel
  have htypes : PrefixFree (storeQueryTypes.map bytes) := by decide +kernel
  have hcallbacks : PrefixFree ((icqCallbacks.flatMap Prod.snd).map bytes) := by decide +kernel
  obtain ⟨-, -, callbacks, hmem, hcallback⟩ := validateQuery_ok hvalid
  obtain ⟨-, -, callbacks', hmem', hcallback'⟩ := validateQuery_ok hvalid'
  -- the fields are read one after the other
  simp only [queryKey, bytes_append, append_assoc] at h
  obtain ⟨hmodule, h⟩ := hmodules.append_inj (mem_map_of_mem hmem) (mem_map_of_mem hmem') h
  obtain ⟨hconnection, h⟩ := connectionId_of_append hq hq' hvalid hvalid' h
  obtain ⟨hchain, h⟩ := chainId_of_append hq hq' h
  obtain ⟨htype, h⟩ := htypes.append_inj (mem_map_of_mem hq.queryType)
    (mem_map_of_mem hq'.queryType) h
  obtain ⟨hid, hdata⟩ := hcallbacks.append_inj
    (mem_map_of_mem (mem_flatMap_of_mem hmem hcallback))
    (mem_map_of_mem (mem_flatMap_of_mem hmem' hcallback')) h
  replace hmodule : q.callbackModule = q'.callbackModule := bytes_injective hmodule
  simp only [Query.fields, hmodule, bytes_injective hconnection,
    bytes_injective hchain, bytes_injective htype, bytes_injective hid, hdata]

end

namespace QueryHistory

/-! ## Submissions -/

/-- The id of a submission, given the number of unique ids before it. -/
def IdAfter (sha256 : List UInt8 → String) (n : ℕ) (a : Submission D) : Prop :=
  if a.forceUnique then a.id = sha256 (bigEndian 8 ((1 + n) % 2 ^ 64))
  else a.id = sha256 (queryKey a.query) ∧ validateQuery a.query = .ok () ∧ a.query.Canonical

/-- The ids are those of their submissions, and every stored query has been submitted. -/
structure Inv (sha256 : List UInt8 → String) (s : QueryHistory D) : Prop where
  counter : s.keeper.queryCounter.getD 1 = (1 + s.uniqueIds) % 2 ^ 64
  ids : ∀ a ∈ s.submissions, ∃ n, (a.forceUnique = true → n < s.uniqueIds) ∧ IdAfter sha256 n a
  stored : s.keeper.Forall fun q => ∃ a ∈ s.submissions, a.id = q.id ∧ a.query.fields = q.fields
  distinct : s.submissions.Pairwise Submission.Distinct

/-- Ids of two submissions, the second with `n` unique ids before it. -/
theorem IdAfter.distinct (hhash : Function.Injective sha256) {m n : ℕ} (ha : IdAfter sha256 m a)
    (hb : IdAfter sha256 n b) (hm : a.forceUnique = true → m < n)
    (hn : b.forceUnique = true → n < 2 ^ 64) : a.Distinct b := by
  intro h heq
  unfold IdAfter at ha hb
  split at ha <;> split at hb
  · -- two counters that are less than one round apart
    rename_i hforced hforced'
    rw [ha, hb] at heq
    have hinj := bigEndian_inj (by omega) (by omega) (hhash heq)
    specialize hm hforced
    specialize hn hforced'
    omega
  · rw [ha, hb.1] at heq
    exact queryKey_ne_bigEndian hb.2.1 _ (hhash heq).symm
  · rw [ha.1, hb] at heq
    exact queryKey_ne_bigEndian ha.2.1 _ (hhash heq)
  · rename_i hforced hforced'
    rw [ha.1, hb.1] at heq
    have hfields := ha.2.2.fields_of_queryKey hb.2.2 ha.2.1 hb.2.1 (hhash heq)
    exact h.elim hforced fun h => h.elim hforced' (absurd hfields)

/-- **One submission** gets an id unlike those of other requests. -/
theorem Inv.submit (hi : s.Inv sha256) (hhash : Function.Injective sha256)
    (hok : s.Canonical (.submit ctx query forceUnique))
    (h : s.step sha256 (.submit ctx query forceUnique) = some s') : s'.Inv sha256 := by
  obtain ⟨k, hk, rfl⟩ := toOption_map_eq_some.mp h
  obtain ⟨⟨⟩, hvalid, -⟩ := bind_eq_ok.mp hk
  obtain ⟨query', hid, hrequest, hqueries, hcounter⟩ := submitICQRequest_ok hk
  have hid' : (getQueryId { ctx with sha256 := sha256 } s.keeper query forceUnique).1 =
      query'.id := by
    rw [hid]
    cases forceUnique <;> rfl
  rw [hid']
  have hnew : IdAfter sha256 s.uniqueIds ⟨query, forceUnique, query'.id⟩ := by
    rw [hid]
    cases forceUnique with
    | false => exact ⟨rfl, hvalid, hok⟩
    | true => exact congrArg (fun uid => sha256 (bigEndian 8 uid)) hi.counter
  have huniqueIds : uniqueIds ⟨k, s.submissions ++ [⟨query, forceUnique, query'.id⟩]⟩ =
      s.uniqueIds + if forceUnique then 1 else 0 := by
    simp [uniqueIds, countP_append, countP_cons]
  refine ⟨?_, ?_, ?_, ?_⟩
  · rw [huniqueIds, hcounter]
    have hold := hi.counter
    cases forceUnique with
    | false => exact hold
    | true =>
      simp only [if_true, Option.getD_some, hold]
      omega
  · rw [huniqueIds]
    refine forall_mem_concat (fun a ha => ?_) ⟨_, fun hforced => ?_, hnew⟩
    · obtain ⟨n, hn, ha'⟩ := hi.ids a ha
      exact ⟨n, fun hforced => (hn hforced).trans_le (Nat.le_add_right _ _), ha'⟩
    · rw [if_pos hforced]
      exact Nat.lt_succ_self _
  · refine IcqKeeper.Forall.set (fun id q hq => ?_) ?_ hqueries
    · obtain ⟨a, ha, hfields⟩ := hi.stored id q hq
      exact ⟨a, mem_append_left _ ha, hfields⟩
    · exact ⟨_, mem_concat_self, rfl, (fields_of_request hrequest).symm⟩
  · -- an earlier unique id has a smaller counter
    refine pairwise_append.mpr ⟨hi.distinct, pairwise_singleton _ _, fun a ha b hb => ?_⟩
    obtain rfl := mem_singleton.mp hb
    obtain ⟨m, hm, ha'⟩ := hi.ids a ha
    refine ha'.distinct hhash hnew hm fun hforced => ?_
    cases hforced
    exact hok

/-- **Step**: the invariant survives every canonical event. -/
theorem Inv.step (hi : s.Inv sha256) (hhash : Function.Injective sha256) {e : QueryIdEvent D}
    (hok : s.Canonical e) (h : s.step sha256 e = some s') : s'.Inv sha256 := by
  cases e with
  | submit ctx query forceUnique => exact hi.submit hhash hok h
  | delete id =>
    cases h
    exact ⟨hi.counter, hi.ids, hi.stored.deleteQuery id, hi.distinct⟩
  | endBlock =>
    cases h
    refine ⟨hi.counter, hi.ids, fun id q hq => ?_, hi.distinct⟩
    obtain ⟨q₀, hq₀, rfl⟩ := Option.map_eq_some_iff.mp
      ((get?_foldl_set_values (by intro _; rfl) _ _).symm.trans hq)
    obtain ⟨a, ha, hid, hfields⟩ := hi.stored id q₀ hq₀
    refine ⟨a, ha, ?_⟩
    split <;> exact ⟨hid, hfields⟩

/-! ## Runs -/

/-- **Ids of queries**: if the requests are canonical, then different requests have different ids,
    a unique id differs from all others, and a pending query is only replaced by the same
    request. -/
theorem query_ids_distinct (hhash : Function.Injective sha256)
    (hrun : Reaches (step sha256) Canonical start s) :
    s.submissions.Pairwise Submission.Distinct ∧
    ∀ ctx query forceUnique s' old, s.Canonical (.submit ctx query forceUnique) →
      s.step sha256 (.submit ctx query forceUnique) = some s' →
      s.keeper.queries.get? (newId { ctx with sha256 := sha256 } s.keeper query forceUnique) =
        some old → forceUnique = false ∧ old.fields = query.fields := by
  have hstart : (start : QueryHistory D).Inv sha256 :=
    ⟨rfl, forall_mem_nil _, (fun _ _ h => by cases h), .nil⟩
  have hinv := hrun.invariant hstart fun _ _ _ hi hok hs => hi.step hhash hok hs
  refine ⟨hinv.distinct, fun ctx query forceUnique s' old hok hs hold => ?_⟩
  obtain ⟨k, hk, rfl⟩ := toOption_map_eq_some.mp hs
  obtain ⟨a, ha, hid, hfields⟩ := hinv.stored _ old hold
  have hdistinct := (pairwise_append.mp (hinv.submit hhash hok hs).distinct).2.2 a ha _
    (mem_singleton_self _)
  have hsame : a.id = (getQueryId { ctx with sha256 := sha256 } s.keeper query forceUnique).1 := by
    rw [hid, key_of_get? hold]
    cases forceUnique <;> rfl
  -- otherwise the two submissions would be distinct
  by_contra hnot
  refine hdistinct ?_ hsame
  rw [hfields]
  cases forceUnique with
  | false => exact .inr (.inr fun heq => hnot ⟨rfl, heq⟩)
  | true => exact .inr (.inl rfl)

/-! ## Requests that read the same -/

def rateQuery (connectionId chainId : String) : Query Unit where
  id := ""
  connectionId := connectionId
  chainId := chainId
  queryType := "store/staking/key"
  requestData := [0x21, 1, 7]
  callbackModule := "stakeibc"
  callbackId := "validator"
  callbackData := ()
  timeoutPolicy := .rejectQueryResponse
  timeoutDuration := 3600 * 10 ^ 9
  timeoutTimestamp := 0
  requestSent := false
  submissionHeight := 0

def someBlock : Context where
  blockTime := 10 ^ 9
  latestHeight _ := some ("07-tendermint-0", 5)
  sha256 bz := .ofList (bz.map fun b => Char.ofNat b.toNat)
  decodeAndConvert a := .ok (bytes a)

/-- Two zones are queried, the first one again under a unique id. -/
def threeQueries : List (QueryIdEvent Unit) :=
  [.submit someBlock (rateQuery "connection-1" "host-1") false, .endBlock,
    .submit someBlock (rateQuery "connection-10" "host-1") false,
    .submit someBlock (rateQuery "connection-1" "host-1") true]

theorem query_ids_distinct_threeQueries :
    ∃ s, runAllowed (step someBlock.sha256) Canonical start threeQueries = some s ∧
      s.keeper.queries.values.length = 3 ∧ s.submissions.Pairwise Submission.Distinct := by
  exact exists_run_end (by decide +kernel) ⟨by decide +kernel,
    (query_ids_distinct chars_injective (.of_get _)).1⟩

/-- **Replaced**: the query of one zone is replaced by the query of another one. -/
theorem requests_share_id :
    Function.Injective someBlock.sha256 ∧
    (rateQuery "connection-1" "0host-1").fields ≠ (rateQuery "connection-10" "host-1").fields ∧
    ((runSteps (step someBlock.sha256) start
      [.submit someBlock (rateQuery "connection-1" "0host-1") false,
        .submit someBlock (rateQuery "connection-10" "host-1") false]).map fun s =>
      ((s.submissions.map Submission.id).dedup.length, s.keeper.queries.values.map Query.chainId)) =
      some (1, ["host-1"]) := by
  refine ⟨chars_injective, ?_, ?_⟩
  · decide
  · decide +kernel

end QueryHistory

end Stride.InterchainQuery
