import Stride.Stakeibc.DelegationBook
import Stride.Stakeibc.DelegationQueries

/-!
# Queries Beside Delegation Changes

The delegation book of `DelegationBook` together with queries about its delegations. A query
is answered from a state of the host, and its callback runs later: in between, ICAs are
executed on the host and acknowledged on Stride.

An answer is *overlapped* if an executed ICA on its validator had not been acknowledged when
the host was read, or if a success on the validator was acknowledged after that. An answer
that is not overlapped agrees with the book.
-/

namespace Stride.Stakeibc

open Lib Sdk InterchainQuery List

/-! ## System -/

/-- What the host answered to a stored query. -/
structure Answer where
  queryId : String
  validator : String
  tokens : ℤ
  overlapped : Bool
  deriving DecidableEq

/-- One zone with its queries, its host, the ICAs in flight and the answers on their way. -/
structure QuerySystem where
  ctx : Context
  keeper : QueryKeeper
  host : String → ℤ
  inFlight : List (Pending IcaBatch)
  answers : List Answer

inductive QueryEvent where
  | ica (e : BookEvent)
  | submitDelegationQuery (validatorAddress : String)
  | submitCalibrationQuery (validatorAddress : String)
  | answer (queryId validatorAddress : String)
  | respond (queryId : String) (result : Option QueriedDelegation)
  | nextBlock (blockTime : ℤ) (latestHeight : String → Option (String × ℕ))

namespace QuerySystem

/-- The book, its host and the ICAs in flight. -/
def book (s : QuerySystem) : BookSystem := ⟨s.keeper.hostZone, s.host, s.inFlight⟩

/-- Whether an executed ICA on a validator has not been acknowledged. -/
def executedOn (s : QuerySystem) (address : String) : Bool :=
  s.inFlight.any fun p => p.progress = .executed ∧ address ∈ p.op.validators

/-- An acknowledged success overlaps the answers about its validators. -/
def overlap (s : QuerySystem) (e : BookEvent) (a : Answer) : Answer :=
  match e with
  | .ack i .success =>
    match s.inFlight[i]? with
    | some p => if a.validator ∈ p.op.validators then { a with overlapped := true } else a
    | none => a
  | _ => a

/-- Changes the keeper. An answer is good for the stored query for which it was made: a proof
    has to be younger than the submission. -/
def withKeeper (s : QuerySystem) (k : QueryKeeper) : QuerySystem :=
  { s with
    keeper := k
    answers := s.answers.filter fun a =>
      k.icq.queries.get? a.queryId = s.keeper.icq.queries.get? a.queryId }

/-- `VerifyKeyProof`: the host stores the delegation of a pair under its key. -/
def verifyDelegationProof (ctx : Context) (hostZone : HostZone) (result : Option QueriedDelegation)
    (query : DelegationQuery) : Result Unit :=
  match result with
  | none => .ok ()
  | some d =>
    if delegationKey ctx hostZone d.validatorAddress = .ok query.requestData then .ok ()
    else wrapf .errInvalidICQProof "Unable to verify membership proof"

/-- `SubmitQueryResponse` for the queries of the zone. -/
def respond (s : QuerySystem) (queryId : String) (result : Option QueriedDelegation) :
    Result QueryKeeper :=
  submitQueryResponse s.ctx s.keeper.icq (fun icq => ⟨s.keeper.hostZone, icq⟩)
    (invokeDelegationCallback s.ctx s.keeper.hostZone)
    (verifyDelegationProof s.ctx s.keeper.hostZone result) queryId result

/-- One event. A failed transaction changes nothing. -/
def step (s : QuerySystem) : QueryEvent → Option QuerySystem
  | .ica e => (s.book.step e).map fun b =>
      { s with
        keeper := { s.keeper with hostZone := b.zone }
        host := b.host
        inFlight := b.inFlight
        answers := s.answers.map (s.overlap e) }
  | .submitDelegationQuery validatorAddress =>
    (submitDelegationICQ s.ctx s.keeper validatorAddress).toOption.map s.withKeeper
  | .submitCalibrationQuery validatorAddress =>
    (submitCalibrationICQ s.ctx s.keeper validatorAddress).toOption.map s.withKeeper
  | .answer queryId validatorAddress =>
    match s.keeper.icq.queries.get? queryId with
    | none => none
    | some query =>
      if delegationKey s.ctx s.keeper.hostZone validatorAddress = .ok query.requestData then
        some { s with
          answers := ⟨queryId, validatorAddress, s.host validatorAddress,
            s.executedOn validatorAddress⟩ :: s.answers }
      else none
  | .respond queryId result => (s.respond queryId result).toOption.map s.withKeeper
  | .nextBlock blockTime latestHeight =>
    if s.ctx.blockTime ≤ blockTime then
      some { s with ctx := { s.ctx with blockTime := blockTime, latestHeight := latestHeight } }
    else none

/-- The result that the host gives with an answer, at the rate 1. The store has no entry for a
    delegation of 0. -/
def resultOf (s : QuerySystem) (a : Answer) : Option QueriedDelegation :=
  if a.tokens = 0 then none
  else some ⟨s.keeper.hostZone.delegationIcaAddress, a.validator, LegacyDec.fromInt a.tokens⟩

/-- The zone agrees with its host, every rate is 1, and nothing is in flight. -/
structure Started (s : QuerySystem) : Prop where
  book : s.book.Started
  rates : ∀ v ∈ s.keeper.hostZone.validators, v.sharesToTokensRate = LegacyDec.one
  queries : s.keeper.icq.queries = .empty
  answers : s.answers = []

/-! ## The book and the answers -/

/-- The book follows the host, and answers that are not overlapped agree with it. -/
structure Tracks (s : QuerySystem) : Prop where
  simulates : s.book.Simulates
  rates : ∀ v ∈ s.keeper.hostZone.validators, v.sharesToTokensRate = LegacyDec.one
  answers : ∀ a ∈ s.answers, a.overlapped = false →
    ∀ d, s.keeper.hostZone.recorded a.validator = some d → d = a.tokens

variable {e : BookEvent} {s s' : QuerySystem}

theorem Started.tracks (h : s.Started) : s.Tracks where
  simulates := h.book.simulates
  rates := h.rates
  answers a ha := by simp [h.answers] at ha

private theorem rates_of_frame {z z' : HostZone}
    (h : z'.validators.map Validator.frame = z.validators.map Validator.frame)
    (hz : ∀ v ∈ z.validators, v.sharesToTokensRate = LegacyDec.one) :
    ∀ v ∈ z'.validators, v.sharesToTokensRate = LegacyDec.one := by
  intro v hv
  obtain ⟨w, hw, hwv⟩ := mem_map.mp (h ▸ mem_map_of_mem (f := Validator.frame) hv)
  have hrate : w.frame.sharesToTokensRate = v.frame.sharesToTokensRate := by rw [hwv]
  exact hrate.symm.trans (hz w hw)

/-- Every event of an ICA keeps the frame of the validators, and changes a recorded delegation
    only by a success that overlaps the answers about it. -/
theorem book_step {b b' : BookSystem} (hnd : b.zone.addresses.Nodup) (h : b.step e = some b') :
    b'.zone.settings = b.zone.settings ∧
    b'.zone.validators.map Validator.frame = b.zone.validators.map Validator.frame ∧
    ∀ a, b'.zone.recorded a = b.zone.recorded a ∨
      ∃ i p, e = .ack i .success ∧ b.inFlight[i]? = some p ∧ a ∈ p.op.validators := by
  obtain ⟨c, zone, -, -, -, heffect, rfl⟩ | ⟨i, c, -, -, -, rfl⟩ | ⟨i, c, -, -, rfl⟩ |
    ⟨i, p, status, zone, rfl, hp, -, hzone, rfl⟩ := BookSystem.step_cases h
  · refine ⟨heffect.settings, heffect.frame, fun a => .inl ?_⟩
    simpa using heffect.recorded a
  · exact ⟨rfl, rfl, fun a => .inl rfl⟩
  · exact ⟨rfl, rfl, fun a => .inl rfl⟩
  · have heffect := IcaBatch.callback_ok hnd hzone
    refine ⟨heffect.settings, heffect.frame, fun a => ?_⟩
    by_cases hsuccess : status = .success
    · by_cases hmem : a ∈ p.op.validators
      · exact .inr ⟨i, p, by rw [hsuccess], hp, hmem⟩
      · left
        simpa [hsuccess, IcaBatch.delta_of_notMem hmem] using heffect.recorded a
    · left
      simpa [hsuccess] using heffect.recorded a

/-- **ICAs**: an acknowledged success overlaps what it changes. -/
theorem Tracks.ica (hi : s.Tracks) (h : s.step (.ica e) = some s') : s'.Tracks := by
  obtain ⟨b, hb, rfl⟩ := Option.map_eq_some_iff.mp h
  obtain ⟨-, hframe, hrecorded⟩ := book_step hi.simulates.nodup hb
  refine ⟨hi.simulates.step hb, rates_of_frame hframe hi.rates, fun a' ha' hover d hd => ?_⟩
  obtain ⟨a, ha, rfl⟩ := mem_map.mp ha'
  have hfields : (s.overlap e a).validator = a.validator ∧ (s.overlap e a).tokens = a.tokens := by
    unfold overlap
    repeat' split
    all_goals exact ⟨rfl, rfl⟩
  rw [hfields.1] at hd
  rw [hfields.2]
  obtain hsame | ⟨i, p, rfl, hp, hmem⟩ := hrecorded a.validator
  · refine hi.answers a ha ?_ d (hsame ▸ hd)
    -- an answer that is not overlapped now was not overlapped before
    by_contra hbefore
    have hstays : (s.overlap e a).overlapped = true := by
      unfold overlap
      repeat' split
      all_goals simp_all
    simp [hstays] at hover
  · replace hp : s.inFlight[i]? = some p := hp
    simp [overlap, hp, hmem] at hover

theorem unacked_eq_zero_of_not_executedOn {a : String} (h : s.executedOn a = false) :
    unacked IcaBatch.delta s.inFlight a = 0 := by
  simp only [executedOn, any_eq_false, decide_eq_true_eq, not_and] at h
  generalize s.inFlight = l at h
  induction l with
  | nil => rfl
  | cons p l ih =>
    obtain ⟨hp, hl⟩ := forall_mem_cons.mp h
    rw [unacked_cons, Pi.add_apply, ih hl, add_zero]
    unfold Pending.effect
    split
    · rename_i hexecuted
      exact IcaBatch.delta_of_notMem (hp hexecuted)
    · rfl

/-- **Answers**: with no executed ICA on the validator in flight, the host is what is
    recorded. -/
theorem Tracks.answer {queryId address : String} (hi : s.Tracks)
    (h : s.step (.answer queryId address) = some s') :
    ∃ answers, s' = { s with answers := answers } ∧ s'.Tracks := by
  simp only [step] at h
  split at h
  · cases h
  split at h
  · cases h
    refine ⟨_, rfl, hi.simulates, hi.rates, fun a ha hover d hd => ?_⟩
    obtain rfl | ha := mem_cons.mp ha
    · have hlag := hi.simulates.recorded address d hd
      have hzero := unacked_eq_zero_of_not_executedOn hover
      replace hlag : d + unacked IcaBatch.delta s.inFlight address = s.host address := hlag
      rw [hzero, add_zero] at hlag
      exact hlag
    · exact hi.answers a ha hover d hd
  · cases h

/-- **Queries**: a change of flags keeps the book and the answers that are still good. -/
theorem Tracks.withKeeper {k : QueryKeeper} (hi : s.Tracks)
    (hk : SameUpToFlags s.keeper.hostZone k.hostZone) : (s.withKeeper k).Tracks := by
  have hsim := hi.simulates
  refine ⟨⟨?_, hk.totalConsistent hsim.total, hsim.valid, ?_, fun a d hd => ?_, fun a c hc => ?_⟩,
    ?_, fun a ha hover d hd => ?_⟩
  · show k.hostZone.addresses.Nodup
    rw [hk.addresses]
    exact hsim.nodup
  · show ∀ b ∈ s.book.batches, ∀ a ∈ b.validators, a ∈ k.hostZone.addresses
    rw [hk.addresses]
    exact hsim.known
  · exact hsim.recorded a d (hk.recorded a ▸ hd)
  · exact hsim.changes a c (hk.changes a ▸ hc)
  · intro v hv
    obtain ⟨w, hw, hwv⟩ := mem_map.mp
      (hk.unflagged ▸ mem_map_of_mem (f := Validator.unflagged) hv)
    have hrate : w.unflagged.sharesToTokensRate = v.unflagged.sharesToTokensRate := by rw [hwv]
    exact hrate.symm.trans (hi.rates w hw)
  · exact hi.answers a (mem_of_mem_filter ha) hover d (hk.recorded _ ▸ hd)

theorem Tracks.nextBlock {blockTime : ℤ} {latestHeight : String → Option (String × ℕ)}
    (hi : s.Tracks) (h : s.step (.nextBlock blockTime latestHeight) = some s') :
    ∃ ctx, s' = { s with ctx := ctx } ∧ s'.Tracks := by
  simp only [step] at h
  split at h
  · cases h
    exact ⟨_, rfl, hi.simulates, hi.rates, hi.answers⟩
  · cases h

theorem Tracks.delegatedTokens_eq (hi : s.Tracks) {a : Answer} {args : QueriedDelegation}
    (hargs : s.resultOf a = some args) {v : Validator}
    (hv : getValidatorFromAddress s.keeper.hostZone.validators args.validatorAddress = some v) :
    args.validatorAddress = a.validator ∧ delegatedTokens v args = a.tokens := by
  unfold resultOf at hargs
  split at hargs
  · cases hargs
  cases hargs
  refine ⟨rfl, ?_⟩
  unfold delegatedTokens
  rw [hi.rates v (mem_of_find?_eq_some hv)]
  exact LegacyDec.truncateInt_mul_one a.tokens

/-! ## A small system -/

/-- A chain with one client. The hash is injective, and addresses decode to their bytes. -/
def smallContext : Context where
  blockTime := 0
  latestHeight connectionId :=
    if connectionId = "connection-0" then some ("07-tendermint-0", 5) else none
  sha256 bz := String.ofList (bz.map fun b => Char.ofNat b.toNat)
  decodeAndConvert address := .ok (bytes address)

def twoValidatorQueries : QuerySystem where
  ctx := smallContext
  keeper := ⟨twoValidatorZone, ⟨.empty, none⟩⟩
  host := BookSystem.twoValidatorBook.host
  inFlight := []
  answers := []

theorem twoValidatorQueries_started : twoValidatorQueries.Started where
  book := BookSystem.twoValidatorBook_started
  rates := by
    intro v hv
    have hcases : v = ⟨"val1", "val1", 1, 200, LegacyDec.one, 0, false⟩ ∨
        v = ⟨"val2", "val2", 1, 200, LegacyDec.one, 0, false⟩ := by
      simpa [twoValidatorQueries, twoValidatorZone] using hv
    rcases hcases with rfl | rfl <;> rfl
  queries := rfl
  answers := rfl

/-- The id of a query about the validator, submitted without a unique id. -/
def smallQueryId (callbackId address : String) : String :=
  match delegationKey smallContext twoValidatorZone address with
  | .ok key =>
    smallContext.sha256 (queryKey (newDelegationQuery twoValidatorZone key callbackId .empty))
  | .error _ => ""

/-- ICAs in channel order, and responses that come from the host. -/
def HonestInOrder (s : QuerySystem) : QueryEvent → Prop
  | .ica e => s.book.InOrder e
  | .respond queryId result => ∃ a ∈ s.answers, a.queryId = queryId ∧ result = s.resultOf a
  | _ => True

instance (s : QuerySystem) (e : QueryEvent) : Decidable (s.HonestInOrder e) := by
  apply @QueryEvent.casesOn _ e <;> intros <;> dsimp only [HonestInOrder] <;> infer_instance

end QuerySystem

end Stride.Stakeibc
