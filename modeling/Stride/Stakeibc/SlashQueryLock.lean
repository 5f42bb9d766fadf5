import Stride.Stakeibc.QuerySystem

/-!
# The Lock of the Slash Query

A validator with a delegation query in progress is excluded from the flows that change
delegations, until the callback of the query clears its flag. The flag is a field of the
validator, the query is stored in another module.

An answer that is proven empty deletes the query without a callback, and nothing else clears
the flag. Apart from that, every flag has its query.

## Main results

- `QuerySystem.HasQuery.set`, `QuerySystem.HasQuery.delete`: how a pending query survives
- `QuerySystem.LockInv.respond`
- `QuerySystem.flagged_has_query`
- `QuerySystem.empty_answer_locks`
-/

namespace Stride.Stakeibc

open Lib Sdk InterchainQuery KeyedStore List

namespace QuerySystem

/-! ## Queries of the zone -/

def HasQuery (ctx : Context) (hostZone : HostZone) (icq : IcqKeeper DelegationQueryData)
    (address : String) : Prop :=
  ∃ id query, icq.queries.get? id = some query ∧ query.callbackId = "delegation" ∧
    delegationKey ctx hostZone address = .ok query.requestData

/-- The two kinds of queries of a zone. -/
structure OfZone (hostZone : HostZone) (query : DelegationQuery) : Prop where
  callbackModule : query.callbackModule = "stakeibc"
  connectionId : query.connectionId = hostZone.connectionId
  chainId : query.chainId = hostZone.chainId
  queryType : query.queryType = "store/staking/key"
  timeoutPolicy : query.timeoutPolicy = .retryQueryRequest
  callbackId : query.callbackId = "delegation" ∨ query.callbackId = "calibrate"

/-- The id of a stored query is the hash of its request, or of a counter that has been used. -/
def GoodId (ctx : Context) (icq : IcqKeeper DelegationQueryData) (query : DelegationQuery) : Prop :=
  query.id = ctx.sha256 (queryKey query) ∨
    ∃ uid < icq.queryCounter.getD 1, query.id = ctx.sha256 (bigEndian 8 uid)

variable {q q' query' : DelegationQuery} {z z' : HostZone} {e : QueryEvent} {k : QueryKeeper}
  {s : QuerySystem} {a address queryId : String} {ctx : Context}
  {icq icq' : IcqKeeper DelegationQueryData}

private theorem fields_of_request (h : q'.request = q.request) :
    q'.callbackModule = q.callbackModule ∧ q'.connectionId = q.connectionId ∧
      q'.chainId = q.chainId ∧ q'.queryType = q.queryType ∧
      q'.timeoutPolicy = q.timeoutPolicy ∧ q'.callbackId = q.callbackId ∧
      q'.requestData = q.requestData := by
  simp only [Query.request, Query.mk.injEq] at h
  obtain ⟨-, hconnection, hchain, htype, hdata, hmodule, hcallback, -, hpolicy, -⟩ := h
  exact ⟨hmodule, hconnection, hchain, htype, hpolicy, hcallback, hdata⟩

private theorem OfZone.of_request (h : q'.request = q.request) (hq : OfZone z q) : OfZone z q' := by
  obtain ⟨hmodule, hconnection, hchain, htype, hpolicy, hcallback, -⟩ := fields_of_request h
  exact ⟨hmodule.trans hq.callbackModule, hconnection.trans hq.connectionId,
    hchain.trans hq.chainId, htype.trans hq.queryType, hpolicy.trans hq.timeoutPolicy,
    hcallback ▸ hq.callbackId⟩

private theorem queryKey_of_request (h : q'.request = q.request) : queryKey q' = queryKey q := by
  obtain ⟨hmodule, hconnection, hchain, htype, -, hcallback, hdata⟩ := fields_of_request h
  simp only [queryKey, hmodule, hconnection, hchain, htype, hcallback, hdata]

private theorem OfZone.queryKey_inj (hq : OfZone z q) (hq' : OfZone z q')
    (h : queryKey q = queryKey q') :
    q.callbackId = q'.callbackId ∧ q.requestData = q'.requestData := by
  simp only [queryKey, bytes_append, append_assoc, hq.callbackModule, hq.connectionId,
    hq.chainId, hq.queryType, hq'.callbackModule, hq'.connectionId, hq'.chainId,
    hq'.queryType, append_cancel_left_eq] at h
  have hfree : PrefixFree [bytes "delegation", bytes "calibrate"] := by decide
  have hmem {q : DelegationQuery} (hq : OfZone z q) :
      bytes q.callbackId ∈ [bytes "delegation", bytes "calibrate"] := by
    simpa using hq.callbackId
  obtain ⟨hid, hdata⟩ := hfree.append_inj (hmem hq) (hmem hq') h
  exact ⟨bytes_injective hid, hdata⟩

/-- The bytes of a request are no counter. -/
private theorem OfZone.queryKey_ne (hq : OfZone z q) (uid : ℕ) : queryKey q ≠ bigEndian 8 uid := by
  intro h
  have hlength := congrArg length h
  have hmodule : (bytes "stakeibc").length = 8 := by decide
  have htype : (bytes "store/staking/key").length = 17 := by decide
  simp only [queryKey, bytes_append, length_append, hq.callbackModule, hq.queryType, hmodule,
    htype, length_bigEndian] at hlength
  omega

/-! ## Pending queries -/

/-- A query that is stored under a new id replaces at most the same request. -/
theorem HasQuery.set (h : HasQuery ctx z icq address) (hset : icq'.queries = icq.queries.set query')
    (hsame : ∀ query, icq.queries.get? query'.id = some query →
      query.callbackId = "delegation" →
      query'.callbackId = "delegation" ∧ query'.requestData = query.requestData) :
    HasQuery ctx z icq' address := by
  obtain ⟨id, query, hget, hcallback, hkey⟩ := h
  by_cases hid : id = query'.id
  · obtain ⟨hcallback', hdata⟩ := hsame query (hid ▸ hget) hcallback
    refine ⟨id, query', ?_, hcallback', hdata ▸ hkey⟩
    rw [hset, get?_set, if_pos hid]
  · refine ⟨id, query, ?_, hcallback, hkey⟩
    rw [hset, get?_set, if_neg hid]
    exact hget

private theorem HasQuery.delete (h : HasQuery ctx z icq address)
    (hother : ∀ query, icq.queries.get? queryId = some query →
      query.callbackId = "delegation" → delegationKey ctx z address ≠ .ok query.requestData) :
    HasQuery ctx z (deleteQuery icq queryId) address := by
  obtain ⟨id, query, hget, hcallback, hkey⟩ := h
  refine ⟨id, query, ?_, hcallback, hkey⟩
  have hid : id ≠ queryId := by
    rintro rfl
    exact hother query hget hcallback hkey
  simp only [deleteQuery, get?_delete, if_neg hid]
  exact hget

/-! ## Good stores -/

/-- All stored queries are queries of the zone with good ids. -/
structure GoodStore (ctx : Context) (z : HostZone) (icq : IcqKeeper DelegationQueryData) :
    Prop where
  ofZone : icq.Forall (OfZone z)
  goodIds : icq.Forall (GoodId ctx icq)

namespace GoodStore

private theorem delete (h : GoodStore ctx z icq) (id : String) :
    GoodStore ctx z (deleteQuery icq id) :=
  ⟨h.ofZone.deleteQuery id, h.goodIds.deleteQuery id⟩

private theorem fresh (h : GoodStore ctx z icq) (hhash : Function.Injective ctx.sha256)
    (hcounter : icq.queryCounter.getD 1 < 2 ^ 64) :
    icq.queries.get? (ctx.sha256 (bigEndian 8 (icq.queryCounter.getD 1))) = none := by
  by_contra hsome
  obtain ⟨query, hquery⟩ := Option.ne_none_iff_exists'.mp hsome
  have hid : query.id = ctx.sha256 (bigEndian 8 (icq.queryCounter.getD 1)) :=
    key_of_get? hquery
  rcases h.goodIds _ query hquery with hkey | ⟨uid, huid, hkey⟩
  · exact (h.ofZone _ query hquery).queryKey_ne _ (hhash (hkey.symm.trans hid))
  · have hbytes := hhash (hkey.symm.trans hid)
    have heq := bigEndian_inj (by omega) (by omega) hbytes
    omega

variable {query : DelegationQuery}

section

variable (h : GoodStore ctx z icq)
include h

/-- A query under the hash of its request replaces at most the same request. -/
theorem sameRequest (hhash : Function.Injective ctx.sha256)
    (hquery : OfZone z query)
    (hget : icq.queries.get? (ctx.sha256 (queryKey query)) = some query') :
    query.callbackId = query'.callbackId ∧ query.requestData = query'.requestData := by
  have hid : query'.id = ctx.sha256 (queryKey query) := key_of_get? hget
  have hquery' := h.ofZone _ query' hget
  rcases h.goodIds _ query' hget with hkey | ⟨uid, -, hkey⟩
  · exact hquery.queryKey_inj hquery' (hhash (hid.symm.trans hkey))
  · exact absurd (hhash (hid.symm.trans hkey)) (hquery.queryKey_ne uid)

private theorem stored (hquery : OfZone z query)
    (hrequest : query'.request = query.request) (hid : GoodId ctx icq' query')
    (hset : icq'.queries = icq.queries.set query')
    (hcounter : icq.queryCounter.getD 1 ≤ icq'.queryCounter.getD 1) : GoodStore ctx z icq' := by
  refine ⟨h.ofZone.set (hquery.of_request hrequest) hset, ?_⟩
  refine IcqKeeper.Forall.set (k := icq) (fun id query₁ hget => ?_) hid hset
  rcases h.goodIds id query₁ hget with hkey | ⟨uid, huid, hkey⟩
  · exact .inl hkey
  · exact .inr ⟨uid, huid.trans_le hcounter, hkey⟩

/-- **Submission**: no other pending query is lost, and the new query is pending. -/
theorem submit (hhash : Function.Injective ctx.sha256)
    (hquery : OfZone z query) (hk : submitICQRequest ctx icq query false = .ok icq') :
    GoodStore ctx z icq' ∧ (∀ a, HasQuery ctx z icq a → HasQuery ctx z icq' a) ∧
      (query.callbackId = "delegation" → ∀ a,
        delegationKey ctx z a = .ok query.requestData → HasQuery ctx z icq' a) := by
  obtain ⟨query', hid, hrequest, hset, hcounter⟩ := submitICQRequest_ok hk
  obtain ⟨-, -, -, -, -, hcallback, hdata⟩ := fields_of_request hrequest
  replace hid : query'.id = ctx.sha256 (queryKey query) := hid
  replace hcounter : icq'.queryCounter = icq.queryCounter := hcounter
  refine ⟨h.stored hquery hrequest (.inl ?_) hset (by rw [hcounter]), fun a ha => ?_,
    fun hdelegation a hkey => ?_⟩
  · rw [hid, queryKey_of_request hrequest]
  · refine ha.set hset fun query₁ hget hcallback₁ => ?_
    rw [hid] at hget
    obtain ⟨hsame, hsameData⟩ := h.sameRequest hhash hquery hget
    exact ⟨hcallback.trans (hsame.trans hcallback₁), hdata.trans hsameData⟩
  · refine ⟨query'.id, query', ?_, hcallback.trans hdelegation, hdata ▸ hkey⟩
    rw [hset, get?_set, if_pos rfl]

/-- **Retry**: the query that is submitted again takes the place of the one that was
    answered. -/
theorem retried (hhash : Function.Injective ctx.sha256)
    (hbound : icq.queryCounter.getD 1 + 1 < 2 ^ 64) (hget : icq.queries.get? queryId = some query)
    {data : DelegationQueryData}
    (hk : retryICQRequest ctx (deleteQuery icq queryId) { query with callbackData := data } =
      .ok icq') : GoodStore ctx z icq' ∧ ∀ a, HasQuery ctx z icq a → HasQuery ctx z icq' a := by
  have hquery : OfZone z { query with callbackData := data } :=
    let hz := h.ofZone queryId query hget
    ⟨hz.callbackModule, hz.connectionId, hz.chainId, hz.queryType, hz.timeoutPolicy,
      hz.callbackId⟩
  have hqueryId : query.id = queryId := key_of_get? hget
  obtain ⟨query', hid, hrequest, hset, hcounter⟩ := retryICQRequest_ok hk
  obtain ⟨-, -, -, -, -, hcallback, hdata⟩ := fields_of_request hrequest
  replace hid : query'.id = ctx.sha256 (bigEndian 8 (icq.queryCounter.getD 1)) := hid
  replace hcounter : icq'.queryCounter.getD 1 = icq.queryCounter.getD 1 + 1 := by
    rw [hcounter]
    exact Nat.mod_eq_of_lt hbound
  have hgood := (h.delete queryId).delete query.id
  refine ⟨hgood.stored hquery hrequest (.inr ⟨_, by omega, hid⟩) hset ?_, ?_⟩
  · show icq.queryCounter.getD 1 ≤ icq'.queryCounter.getD 1
    omega
  · rintro a ⟨id, query₁, hget₁, hcallback₁, hkey⟩
    by_cases hold : id = queryId
    · -- the answered query: the new one asks for the same delegation
      obtain rfl : query₁ = query := Option.some.inj (hget₁.symm.trans (hold ▸ hget))
      refine ⟨query'.id, query', ?_, hcallback.trans hcallback₁, hdata ▸ hkey⟩
      rw [hset, get?_set, if_pos rfl]
    · refine ⟨id, query₁, ?_, hcallback₁, hkey⟩
      have hnew : id ≠ query'.id := by
        rintro rfl
        rw [hid, h.fresh hhash (by omega)] at hget₁
        cases hget₁
      rw [hset, get?_set, if_neg hnew]
      simp only [deleteQuery, get?_delete, hqueryId, if_neg hold]
      exact hget₁

end

end GoodStore

/-! ## Invariant -/

/-- Every validator with its flag up has a query. -/
structure LockInv (s : QuerySystem) : Prop where
  nodup : s.keeper.hostZone.addresses.Nodup
  decodes : ∀ a ∈ s.keeper.hostZone.addresses,
    ∀ b ∈ s.keeper.hostZone.addresses, ∀ bz,
      s.ctx.decodeAndConvert a = .ok bz → s.ctx.decodeAndConvert b = .ok bz → a = b
  hash : Function.Injective s.ctx.sha256
  store : GoodStore s.ctx s.keeper.hostZone s.keeper.icq
  flagged : ∀ a, (a, true) ∈ s.keeper.hostZone.flags →
    HasQuery s.ctx s.keeper.hostZone s.keeper.icq a

/-- No delegation query is answered with an empty result, and the counter of unique ids does
    not run over. -/
def NoEmptyAnswer (s : QuerySystem) : QueryEvent → Prop
  | .respond queryId result =>
    s.keeper.icq.queryCounter.getD 1 + 1 < 2 ^ 64 ∧
    ∀ query, s.keeper.icq.queries.get? queryId = some query →
      query.callbackId = "delegation" → result ≠ none
  | _ => True

instance (s : QuerySystem) (e : QueryEvent) : Decidable (s.NoEmptyAnswer e) := by
  apply @QueryEvent.casesOn _ e <;> intros <;> dsimp only [NoEmptyAnswer] <;> infer_instance

private theorem GoodStore.of_settings (h : GoodStore ctx z icq) (hz : z'.settings = z.settings) :
    GoodStore ctx z' icq := by
  have hconnection : z'.settings.connectionId = z.settings.connectionId := by rw [hz]
  have hchain : z'.settings.chainId = z.settings.chainId := by rw [hz]
  refine ⟨fun id query hget => ?_, h.goodIds⟩
  have hq := h.ofZone id query hget
  exact ⟨hq.callbackModule, hq.connectionId.trans hconnection.symm,
    hq.chainId.trans hchain.symm, hq.queryType, hq.timeoutPolicy, hq.callbackId⟩

private theorem HasQuery.of_settings (h : HasQuery ctx z icq a) (hz : z'.settings = z.settings) :
    HasQuery ctx z' icq a := by
  have hsettings : z'.settings.delegationIcaAddress = z.settings.delegationIcaAddress := by rw [hz]
  replace hsettings : z'.delegationIcaAddress = z.delegationIcaAddress := hsettings
  simpa only [HasQuery, delegationKey, hsettings] using h

private theorem mem_addresses_of_flags {b : Bool} (h : (a, b) ∈ z.flags) : a ∈ z.addresses := by
  obtain ⟨v, hv, hpair⟩ := mem_map.mp h
  exact mem_map.mpr ⟨v, hv, (Prod.mk.inj hpair).1⟩

private theorem addresses_of_flags (h : z'.flags = z.flags) : z'.addresses = z.addresses := by
  have hmap := congrArg (map Prod.fst) h
  simpa [HostZone.flags, map_map, Function.comp_def] using hmap

private theorem addresses_setSlashQueryInProgress (z : HostZone) (a : String) (b : Bool) :
    (setSlashQueryInProgress z a b).addresses =
      z.addresses :=
  (sameUpToFlags_setSlashQueryInProgress z a b).addresses

private theorem LockInv.withKeeper (hi : s.LockInv) (haddresses : k.hostZone.addresses =
      s.keeper.hostZone.addresses)
    (hsettings : k.hostZone.settings = s.keeper.hostZone.settings)
    (hstore : GoodStore s.ctx s.keeper.hostZone k.icq)
    (hflagged : ∀ a, (a, true) ∈ k.hostZone.flags →
      HasQuery s.ctx s.keeper.hostZone k.icq a) : (s.withKeeper k).LockInv := by
  refine ⟨?_, ?_, hi.hash, hstore.of_settings hsettings,
    fun a ha => (hflagged a ha).of_settings hsettings⟩
  · show k.hostZone.addresses.Nodup
    rw [haddresses]
    exact hi.nodup
  · show ∀ a ∈ k.hostZone.addresses,
      ∀ b ∈ k.hostZone.addresses, _
    rw [haddresses]
    exact hi.decodes

/-- **Response**: the flag of the answered query is cleared, or the query is replaced. -/
theorem LockInv.respond (hi : s.LockInv) {result : Option QueriedDelegation}
    (hok : s.NoEmptyAnswer (.respond queryId result)) (hk : s.respond queryId result = .ok k) :
    (s.withKeeper k).LockInv := by
  obtain ⟨hbound, hnotEmpty⟩ := hok
  obtain ⟨-, rfl⟩ | ⟨query, hquery, hproof, hrest⟩ := submitQueryResponse_ok hk
  · exact hi.withKeeper rfl rfl hi.store hi.flagged
  · have hdelete := hi.store.delete queryId
    have hzone := hi.store.ofZone queryId query hquery
    obtain ⟨hresult, rfl⟩ | ⟨args, rfl, ⟨-, hpolicy, -⟩ | ⟨-, -, icq, hretry, rfl⟩ | hinvoke⟩ :=
      hrest
    · -- an empty answer: the query was a calibration
      refine hi.withKeeper rfl rfl hdelete fun a ha => (hi.flagged a ha).delete ?_
      intro query₁ hget hcallback
      exact absurd hresult (hnotEmpty query₁ hget hcallback)
    · rw [hzone.timeoutPolicy] at hpolicy
      cases hpolicy
    · obtain ⟨hgood, hpending⟩ := hi.store.retried hi.hash hbound hquery hretry
      exact hi.withKeeper rfl rfl hgood fun a ha => hpending a (hi.flagged a ha)
    · simp only [invokeDelegationCallback] at hinvoke
      split at hinvoke
      · obtain ⟨hsame, d, hretry⟩ | ⟨hmem, hicq, hsettings, hflags⟩ :=
          delegatorSharesCallback_ok hinvoke
        · obtain ⟨hgood, hpending⟩ := hi.store.retried hi.hash hbound hquery hretry
          refine hi.withKeeper (by rw [hsame]) (by rw [hsame]) hgood fun a ha => ?_
          exact hpending a (hi.flagged a (hsame ▸ ha))
        · -- the flag of the validator in the answer is cleared; the proof says that it is the
          -- validator of the query
          have haddresses := (addresses_of_flags hflags).trans
            (addresses_setSlashQueryInProgress s.keeper.hostZone args.validatorAddress false)
          refine hi.withKeeper haddresses hsettings (hicq ▸ hdelete) fun a ha => ?_
          rw [hflags] at ha
          obtain ⟨-, hfalse⟩ | ⟨hne, ha⟩ := mem_flags_setSlashQueryInProgress ha hi.nodup
          · cases hfalse
          · rw [hicq]
            refine (hi.flagged a ha).delete fun query₁ hget _ hkey => hne ?_
            obtain rfl : query₁ = query := Option.some.inj (hget.symm.trans hquery)
            simp only [verifyDelegationProof] at hproof
            split at hproof
            · rename_i hkey'
              obtain ⟨bz, hbz, hbz'⟩ := delegationKey_inj hkey hkey'
              exact hi.decodes a (mem_addresses_of_flags ha) _ hmem bz hbz hbz'
            · cases hproof
      · split at hinvoke
        · rename_i hother _
          obtain ⟨z, hz, hinvoke⟩ := bind_eq_ok.mp hinvoke
          cases hinvoke
          obtain ⟨hsettings, hflags⟩ := flags_of_calibrateDelegationCallback hz
          refine hi.withKeeper (addresses_of_flags hflags) hsettings hdelete fun a ha => ?_
          refine (hi.flagged a (hflags ▸ ha)).delete fun query₁ hget hcallback => ?_
          obtain rfl : query₁ = query := Option.some.inj (hget.symm.trans hquery)
          exact absurd hcallback hother
        · cases hinvoke

/-- **Step**: one event. -/
theorem LockInv.step {s' : QuerySystem} (hi : s.LockInv) (hok : s.NoEmptyAnswer e)
    (h : s.step e = some s') : s'.LockInv := by
  cases e with
  | ica e =>
    obtain ⟨b, hb, rfl⟩ := Option.map_eq_some_iff.mp h
    obtain ⟨hsettings, hframe, -⟩ := book_step hi.nodup hb
    have hflags : b.zone.flags = s.keeper.hostZone.flags := by
      have hmap := congrArg (map fun v => (v.address, v.slashQueryInProgress)) hframe
      simpa [HostZone.flags, map_map, Function.comp_def, Validator.frame, book] using hmap
    have haddresses := addresses_of_flags hflags
    refine ⟨?_, ?_, hi.hash, hi.store.of_settings hsettings,
      fun a ha => (hi.flagged a (hflags ▸ ha)).of_settings hsettings⟩
    · rw [haddresses]
      exact hi.nodup
    · rw [haddresses]
      exact hi.decodes
  | submitDelegationQuery address =>
    obtain ⟨k, hk, rfl⟩ := toOption_map_eq_some.mp h
    obtain rfl | ⟨v, key, icq, -, hkey, hicq, rfl⟩ := submitDelegationICQ_ok hk
    · exact hi.withKeeper rfl rfl hi.store hi.flagged
    · obtain ⟨hgood, hkeeps, hnew⟩ :=
        hi.store.submit hi.hash ⟨rfl, rfl, rfl, rfl, rfl, .inl rfl⟩ hicq
      refine hi.withKeeper (addresses_setSlashQueryInProgress _ _ _) rfl hgood fun a ha => ?_
      obtain ⟨rfl, -⟩ | ⟨-, ha⟩ := mem_flags_setSlashQueryInProgress ha hi.nodup
      · exact hnew rfl a hkey
      · exact hkeeps a (hi.flagged a ha)
  | submitCalibrationQuery address =>
    obtain ⟨k, hk, rfl⟩ := toOption_map_eq_some.mp h
    obtain ⟨key, icq, -, hicq, rfl⟩ := submitCalibrationICQ_ok hk
    obtain ⟨hgood, hkeeps, -⟩ :=
      hi.store.submit hi.hash ⟨rfl, rfl, rfl, rfl, rfl, .inr rfl⟩ hicq
    exact hi.withKeeper rfl rfl hgood fun a ha => hkeeps a (hi.flagged a ha)
  | answer queryId address =>
    simp only [step] at h
    split at h
    · cases h
    split at h
    · cases h
      exact ⟨hi.nodup, hi.decodes, hi.hash, hi.store, hi.flagged⟩
    · cases h
  | nextBlock blockTime latestHeight =>
    simp only [step] at h
    split at h
    · cases h
      -- neither the hash nor the addresses depend on the block
      exact ⟨hi.nodup, hi.decodes, hi.hash, ⟨hi.store.ofZone, hi.store.goodIds⟩, hi.flagged⟩
    · cases h
  | respond queryId result =>
    obtain ⟨k, hk, rfl⟩ := toOption_map_eq_some.mp h
    exact hi.respond hok hk

/-- No query and no flag. The addresses of validators decode to different bytes. -/
structure Unqueried (s : QuerySystem) : Prop where
  nodup : s.keeper.hostZone.addresses.Nodup
  decodes : ∀ a ∈ s.keeper.hostZone.addresses,
    ∀ b ∈ s.keeper.hostZone.addresses, ∀ bz,
      s.ctx.decodeAndConvert a = .ok bz → s.ctx.decodeAndConvert b = .ok bz → a = b
  queries : s.keeper.icq.queries = .empty
  flags : ∀ v ∈ s.keeper.hostZone.validators, v.slashQueryInProgress = false

private theorem Unqueried.lockInv (h : s.Unqueried) (hhash : Function.Injective s.ctx.sha256) :
    s.LockInv := by
  have hempty {P : DelegationQuery → Prop} : s.keeper.icq.Forall P := by
    intro id query hget
    rw [h.queries] at hget
    cases hget
  refine ⟨h.nodup, h.decodes, hhash, ⟨hempty, hempty⟩, fun a ha => ?_⟩
  obtain ⟨v, hv, hpair⟩ := mem_map.mp ha
  have hflag := (Prod.mk.inj hpair).2
  rw [h.flags v hv] at hflag
  cases hflag

/-- **No lock**: in a run without empty answers to delegation queries, every validator with
    its flag up has a delegation query in the store. -/
theorem flagged_has_query {s₀ s : QuerySystem} (hhash : Function.Injective s₀.ctx.sha256)
    (hstart : s₀.Unqueried) (hrun : Reaches step NoEmptyAnswer s₀ s) :
    ∀ v ∈ s.keeper.hostZone.validators, v.slashQueryInProgress = true →
      HasQuery s.ctx s.keeper.hostZone s.keeper.icq v.address := by
  have hinv : s.LockInv := hrun.invariant (hstart.lockInv hhash)
    fun _ _ _ hi hok hs => hi.step hok hs
  intro v hv hflag
  exact hinv.flagged v.address (mem_map.mpr ⟨v, hv, by rw [hflag]⟩)

/-! ## An empty answer -/

private theorem smallContext_sha256_injective : Function.Injective smallContext.sha256 :=
  chars_injective

private theorem twoValidatorQueries_unqueried : twoValidatorQueries.Unqueried where
  nodup := by decide
  decodes a _ b _ bz ha hb := by
    have hbytes : bytes a = bytes b := (Except.ok.inj ha).trans (Except.ok.inj hb).symm
    exact bytes_inj.mp hbytes
  queries := rfl
  flags := by decide

/-- The undelegation of everything that is delegated to a validator is executed while a
    delegation query is in flight. -/
def undelegatedDuringQuery : List QueryEvent :=
  [.ica (.send (.undelegate ⟨"host", [⟨"val1", 200⟩], [1]⟩)), .submitDelegationQuery "val1",
    .ica (.execute 0), .answer (smallQueryId "delegation" "val1") "val1",
    .respond (smallQueryId "delegation" "val1") none, .ica (.ack 0 .success)]

/-- **Locked**: the host has no entry for the delegation any more. The proven empty answer
    deletes the query, and the flag of the validator stays up without a query. -/
theorem empty_answer_locks :
    Function.Injective twoValidatorQueries.ctx.sha256 ∧ twoValidatorQueries.Unqueried ∧
    ((runAllowed step HonestInOrder twoValidatorQueries
      undelegatedDuringQuery).map fun s =>
      (s.keeper.hostZone.flags, s.keeper.icq.queries.values.length, s.inFlight.length)) =
      some ([("val1", true), ("val2", false)], 0, 0) := by
  refine ⟨smallContext_sha256_injective, twoValidatorQueries_unqueried, ?_⟩
  decide +kernel

/-- A response after the timeout, and one that arrives while an ICA is in progress. -/
def timedOutAndOverlapped : List QueryEvent :=
  [.submitDelegationQuery "val1", .submitCalibrationQuery "val1",
    .nextBlock (3600 * 10 ^ 9 + 1) smallContext.latestHeight,
    .respond (smallQueryId "delegation" "val1")
      (some ⟨"delegation", "val1", LegacyDec.fromInt 200⟩),
    .ica (.send (.undelegate ⟨"host", [⟨"val1", 50⟩], [1]⟩)),
    .respond (smallContext.sha256 (bigEndian 8 1))
      (some ⟨"delegation", "val1", LegacyDec.fromInt 200⟩)]

theorem flagged_has_query_timedOutAndOverlapped :
    ∃ s, runAllowed step NoEmptyAnswer twoValidatorQueries
        timedOutAndOverlapped = some s ∧
      s.keeper.hostZone.flags = [("val1", true), ("val2", false)] ∧
      ∀ v ∈ s.keeper.hostZone.validators, v.slashQueryInProgress = true →
        HasQuery s.ctx s.keeper.hostZone s.keeper.icq v.address := by
  exact exists_run_end (by decide +kernel) ⟨by decide +kernel,
    flagged_has_query smallContext_sha256_injective twoValidatorQueries_unqueried (.of_get _)⟩

end QuerySystem

end Stride.Stakeibc
