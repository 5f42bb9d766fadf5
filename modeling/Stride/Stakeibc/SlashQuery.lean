import Stride.Stakeibc.QuerySystem

/-!
# The Slash Query

A delegation query looks for a slash by comparing the answer of the host with the recorded
delegation. To keep ICAs out of the comparison, its callback queries again if the recorded
delegation is not the one at the submission of the query, or if an ICA on the validator is in
progress.

Two ICAs that cancel each other escape that check: both are acknowledged while the query is in
flight, and the host answers between their executions.
-/

namespace Stride.Stakeibc

open Lib Sdk InterchainQuery

namespace QuerySystem

/-! ## Runs in which overlaps are seen -/

/-- What the callback of a delegation query looks at before it compares: the recorded
    delegation has changed since the submission, or an ICA is in progress. -/
def ChangeSeen (s : QuerySystem) (query : DelegationQuery) (address : String) : Prop :=
  ∀ v prev, getValidatorFromAddress s.keeper.hostZone.validators address = some v →
    query.callbackData = .delegatorShares prev →
    v.delegation ≠ prev ∨ 0 < v.delegationChangesInProgress

/-- Delegation queries are the only queries, they are answered by the host, and an overlapped
    answer is only delivered while the overlap can be seen. -/
def SeesOverlaps (s : QuerySystem) : QueryEvent → Prop
  | .submitCalibrationQuery _ => False
  | .respond queryId result => ∀ query, s.keeper.icq.queries.get? queryId = some query →
    ∃ a ∈ s.answers, a.queryId = queryId ∧ result = s.resultOf a ∧
      (a.overlapped = true → s.ChangeSeen query a.validator)
  | _ => True

instance (s : QuerySystem) (query : DelegationQuery) (address : String) :
    Decidable (s.ChangeSeen query address) := by
  unfold ChangeSeen
  infer_instance

instance (s : QuerySystem) (e : QueryEvent) : Decidable (s.SeesOverlaps e) := by
  apply @QueryEvent.casesOn _ e <;> intros <;> dsimp only [SeesOverlaps] <;> infer_instance

/-- The book follows the host, and every stored query looks for a slash. -/
structure SlashQueryInv (s : QuerySystem) : Prop where
  tracks : s.Tracks
  delegationQueries : s.keeper.icq.Forall fun query => query.callbackId = "delegation"

variable {e : QueryEvent} {s : QuerySystem}

private theorem Started.slashQueryInv (h : s.Started) : s.SlashQueryInv where
  tracks := h.tracks
  delegationQueries id query hquery := by
    rw [h.queries] at hquery
    cases hquery

/-- **Verdict**: an answer that is not overlapped equals what is recorded, so that the
    callback either queries again or only clears the flag. -/
theorem verdict_of_guarded (hi : s.Tracks) {query : DelegationQuery} {a : Answer}
    (ha : a ∈ s.answers) (hseen : a.overlapped = true → s.ChangeSeen query a.validator)
    {args : QueriedDelegation} (hargs : s.resultOf a = some args) {verdict : SharesVerdict}
    (h : delegatorSharesVerdict s.keeper.hostZone query args = .ok verdict) :
    (∃ d, verdict = .overlapped d) ∨
      verdict = .notSlashed
        (setSlashQueryInProgress s.keeper.hostZone args.validatorAddress false) := by
  obtain ⟨prev, v, hdata, hv, ⟨-, rfl⟩ | ⟨hunchanged, slashed, tokens, zone, hcheck, rfl⟩⟩ :=
    delegatorSharesVerdict_ok h
  · exact .inl ⟨_, rfl⟩
  · right
    obtain ⟨hvalidator, htokens⟩ := hi.delegatedTokens_eq hargs hv
    have haddress : v.address = args.validatorAddress := address_of_getValidatorFromAddress hv
    -- nothing was seen, so that the answer is not overlapped
    have hover : a.overlapped = false := by
      by_contra hover
      have hchange := hseen (by simpa using hover) v prev (hvalidator ▸ hv) hdata
      simp only [checkDelegationChangedDuringQuery] at hunchanged
      rcases hchange with hne | hpos
      · simp [hne] at hunchanged
      · split at hunchanged
        · cases hunchanged
        simp [hpos] at hunchanged
    have hrecorded : s.keeper.hostZone.recorded a.validator = some v.delegation := by
      simp [HostZone.recorded, ← hvalidator, hv]
    have hequal : delegatedTokens v.unflagged args = v.unflagged.delegation :=
      htokens.trans (hi.answers a ha hover _ hrecorded).symm
    simp only [checkForSlash, hequal, if_true] at hcheck
    cases hcheck
    rw [haddress]
    rfl

/-- **Response**: with every overlap seen, a response changes flags only. -/
theorem SlashQueryInv.respond (hi : s.SlashQueryInv) {queryId : String}
    {result : Option QueriedDelegation} (hok : s.SeesOverlaps (.respond queryId result))
    {k : QueryKeeper} (hk : s.respond queryId result = .ok k) :
    SameUpToFlags s.keeper.hostZone k.hostZone ∧
      k.icq.Forall fun query => query.callbackId = "delegation" := by
  obtain ⟨-, rfl⟩ | ⟨query, hquery, -, hrest⟩ := submitQueryResponse_ok hk
  · exact ⟨.refl _, hi.delegationQueries⟩
  · have hcallback := hi.delegationQueries queryId query hquery
    have hdelete := hi.delegationQueries.deleteQuery queryId
    obtain ⟨-, rfl⟩ | ⟨args, rfl, ⟨-, -, rfl⟩ | ⟨-, -, icq, hretry, rfl⟩ | hinvoke⟩ := hrest
    · exact ⟨.refl _, hdelete⟩
    · exact ⟨.refl _, hdelete⟩
    · exact ⟨.refl _, hdelete.retry (fun _ _ => callbackId_of_request) hcallback hretry⟩
    · obtain ⟨a, ha, -, hresult, hseen⟩ := hok query hquery
      simp only [invokeDelegationCallback, hcallback, if_true] at hinvoke
      obtain ⟨verdict, hverdict, hinvoke⟩ := bind_eq_ok.mp hinvoke
      -- a query that sees overlaps finds no slash
      obtain ⟨d, rfl⟩ | rfl := verdict_of_guarded hi.tracks ha hseen hresult.symm hverdict
      · obtain ⟨icq, hretry, hinvoke⟩ := bind_eq_ok.mp hinvoke
        cases hinvoke
        refine ⟨.refl _, hdelete.retry (fun _ _ => callbackId_of_request) ?_
          (wrapError_eq_ok.mp hretry)⟩
        exact hcallback
      · cases hinvoke
        exact ⟨sameUpToFlags_setSlashQueryInProgress _ _ _, hdelete⟩

/-- **Step**: one event of such a run. -/
theorem SlashQueryInv.step {s' : QuerySystem} (hi : s.SlashQueryInv) (hok : s.SeesOverlaps e)
    (h : s.step e = some s') : s'.SlashQueryInv := by
  cases e with
  | ica e =>
    refine ⟨hi.tracks.ica h, ?_⟩
    obtain ⟨b, -, rfl⟩ := Option.map_eq_some_iff.mp h
    exact hi.delegationQueries
  | submitDelegationQuery address =>
    obtain ⟨k, hk, rfl⟩ := toOption_map_eq_some.mp h
    obtain rfl | ⟨v, key, icq, -, -, hicq, rfl⟩ := submitDelegationICQ_ok hk
    · exact ⟨hi.tracks.withKeeper (.refl _), hi.delegationQueries⟩
    · exact ⟨hi.tracks.withKeeper (sameUpToFlags_setSlashQueryInProgress _ _ _),
        hi.delegationQueries.submit (fun _ _ => callbackId_of_request) rfl hicq⟩
  | submitCalibrationQuery address => exact hok.elim
  | answer queryId address =>
    obtain ⟨answers, rfl, htracks⟩ := hi.tracks.answer h
    exact ⟨htracks, hi.delegationQueries⟩
  | nextBlock blockTime latestHeight =>
    obtain ⟨ctx, rfl, htracks⟩ := hi.tracks.nextBlock h
    exact ⟨htracks, hi.delegationQueries⟩
  | respond queryId result =>
    obtain ⟨k, hk, rfl⟩ := toOption_map_eq_some.mp h
    obtain ⟨hsame, hqueries⟩ := hi.respond hok hk
    exact ⟨hi.tracks.withKeeper hsame, hqueries⟩

/-- **No slash**: if every overlap can be seen when its answer is delivered, the callback
    never comes to a slash, and a response changes no recorded delegation and no weight. -/
theorem slash_query_never_slashes {s₀ s : QuerySystem} (hstart : s₀.Started)
    (hrun : Reaches step SeesOverlaps s₀ s) :
    (∀ queryId query args, s.keeper.icq.queries.get? queryId = some query →
      s.SeesOverlaps (.respond queryId (some args)) → ∀ zone v tokens,
        delegatorSharesVerdict s.keeper.hostZone query args ≠ .ok (.slashed zone v tokens)) ∧
    (∀ queryId result s', s.SeesOverlaps (.respond queryId result) →
      s.step (.respond queryId result) = some s' →
      (s'.keeper.hostZone.validators.map fun v => (v.address, v.weight, v.delegation)) =
        s.keeper.hostZone.validators.map fun v => (v.address, v.weight, v.delegation)) := by
  have hinv : s.SlashQueryInv := hrun.invariant hstart.slashQueryInv
    fun _ _ _ hi hok hs => hi.step hok hs
  refine ⟨fun queryId query args hquery hok zone v tokens hslash => ?_,
    fun queryId result s' hok hs => ?_⟩
  · obtain ⟨a, ha, -, hresult, hseen⟩ := hok query hquery
    obtain ⟨d, hd⟩ | hkept := verdict_of_guarded hinv.tracks ha hseen hresult.symm hslash
    · cases hd
    · cases hkept
  · obtain ⟨k, hk, rfl⟩ := toOption_map_eq_some.mp hs
    exact (hinv.respond hok hk).1.map_eq _ fun _ => rfl

/-! ## Two ICAs that cancel each other -/

/-- An undelegation and a delegation of the same amount are sent before the query. The host
    answers between their executions, and both are acknowledged before the response. -/
def cancellingIcas : List QueryEvent :=
  [.ica (.send (.undelegate ⟨"host", [⟨"val1", 50⟩], [1]⟩)),
    .ica (.send (.delegate ⟨"host", 0, [⟨"val1", 50⟩]⟩)), .submitDelegationQuery "val1",
    .ica (.execute 0), .answer (smallQueryId "delegation" "val1") "val1", .ica (.execute 1),
    .ica (.ack 0 .success), .ica (.ack 0 .success),
    .respond (smallQueryId "delegation" "val1")
      (some ⟨"delegation", "val1", LegacyDec.fromInt 150⟩)]

/-- **Slashed**: the recorded delegation is again the one at the submission, so that the
    callback takes the answer of 150 for a slash. It reduces the weight and the recorded
    delegation, while 200 are delegated on the host. -/
theorem cancelling_icas_slash :
    twoValidatorQueries.Started ∧
    ((runAllowed step HonestInOrder twoValidatorQueries cancellingIcas).map fun s =>
      (s.keeper.hostZone.validators.map fun v => (v.address, v.weight, v.delegation),
        s.host "val1")) =
      some ([("val1", 0, 150), ("val2", 1, 200)], 200) := by
  refine ⟨twoValidatorQueries_started, ?_⟩
  decide +kernel

/-- The id of the first query that is submitted again. -/
def retriedQueryId : String := smallContext.sha256 (bigEndian 8 1)

/-- An overlapped answer arrives while the ICA is in progress; the query is submitted again,
    and the second answer is right. -/
def queriedAgain : List QueryEvent :=
  [.ica (.send (.undelegate ⟨"host", [⟨"val1", 50⟩], [1]⟩)), .submitDelegationQuery "val1",
    .ica (.execute 0), .answer (smallQueryId "delegation" "val1") "val1",
    .respond (smallQueryId "delegation" "val1")
      (some ⟨"delegation", "val1", LegacyDec.fromInt 150⟩),
    .ica (.ack 0 .success), .answer retriedQueryId "val1"]

theorem slash_query_never_slashes_queriedAgain :
    ∃ s query, runAllowed step SeesOverlaps twoValidatorQueries queriedAgain =
        some s ∧
      s.keeper.icq.queries.get? retriedQueryId = some query ∧
      ∀ zone v tokens, delegatorSharesVerdict s.keeper.hostZone query
        ⟨"delegation", "val1", LegacyDec.fromInt 150⟩ ≠ .ok (.slashed zone v tokens) := by
  have hend : ((runAllowed step SeesOverlaps twoValidatorQueries
      queriedAgain).map fun s => ((s.keeper.icq.queries.get? retriedQueryId).isSome,
        decide (s.SeesOverlaps (.respond retriedQueryId
          (some ⟨"delegation", "val1", LegacyDec.fromInt 150⟩))))) = some (true, true) := by
    decide +kernel
  obtain ⟨s, hs, hvalues⟩ := Option.map_eq_some_iff.mp hend
  obtain ⟨hstored, hok⟩ := Prod.mk.inj hvalues
  obtain ⟨query, hquery⟩ := Option.isSome_iff_exists.mp hstored
  have hrun := Reaches.of_runAllowed hs
  have hnever := slash_query_never_slashes twoValidatorQueries_started hrun
  exact ⟨s, query, hs, hquery,
    hnever.1 retriedQueryId query _ hquery (of_decide_eq_true hok)⟩

end QuerySystem

end Stride.Stakeibc
