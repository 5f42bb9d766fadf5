import Stride.Lib.Runs
import Stride.Stakeibc.IcaBatch

/-!
# The Delegation Book Simulates the Host

Batches of delegations, undelegations, redelegations and detokenizations are sent to a host,
which executes each of them in whole or rejects it, and are acknowledged later. Stride's book
of delegations lags behind the host by the batches that were executed and not yet
acknowledged.

This holds for acknowledgements in any order. That a success callback never fails needs the
order of an ICA channel: with a delegation and two undelegations in flight, acknowledging an
undelegation first takes the book below zero.
-/

namespace Stride.Stakeibc

open Lib Sdk List Pending IcaBatch

/-! ## System -/

/-- The book of one zone, the delegations on its host, and the batches in flight, the oldest
    first. -/
structure BookSystem where
  zone : HostZone
  host : String → ℤ
  inFlight : List (Pending IcaBatch)

inductive BookEvent where
  | send (b : IcaBatch)
  | execute (i : ℕ)
  | reject (i : ℕ)
  | ack (i : ℕ) (status : AckStatus)
  deriving DecidableEq

namespace BookSystem

/-- One event. A batch is sent when the counters of its validators can be raised; the host
    executes it in whole, if that leaves no delegation negative. -/
def step (s : BookSystem) : BookEvent → Option BookSystem
  | .send b =>
    if b.Valid then
      match b.validators.foldlM incrementValidatorDelegationChangesInProgress s.zone with
      | .error _ => none
      | .ok zone => some { s with zone := zone, inFlight := s.inFlight ++ [⟨b, .sent⟩] }
    else none
  | .execute i =>
    match s.inFlight[i]? with
    | some ⟨b, .sent⟩ =>
      if ∀ a ∈ b.validators, 0 ≤ s.host a + b.delta a then
        some { s with host := s.host + b.delta, inFlight := s.inFlight.set i ⟨b, .executed⟩ }
      else none
    | _ => none
  | .reject i =>
    match s.inFlight[i]? with
    | some ⟨b, .sent⟩ => some { s with inFlight := s.inFlight.set i ⟨b, .rejected⟩ }
    | _ => none
  | .ack i status =>
    match s.inFlight[i]? with
    | none => none
    | some p =>
      if answeredBy p.progress status then
        match p.op.callback s.zone status with
        | .error _ => none
        | .ok zone => some { s with zone := zone, inFlight := s.inFlight.eraseIdx i }
      else none

/-- The order of an ICA channel: a batch is executed before those sent after it, and the
    oldest batch is acknowledged first. -/
def InOrder (s : BookSystem) : BookEvent → Prop
  | .execute i => ∀ p ∈ s.inFlight.drop (i + 1), p.progress ≠ .executed
  | .ack i _ => i = 0
  | _ => True

instance (s : BookSystem) (e : BookEvent) : Decidable (s.InOrder e) :=
  match e with
  | .send _ => inferInstanceAs (Decidable True)
  | .execute i => inferInstanceAs (Decidable (∀ p ∈ s.inFlight.drop (i + 1), _))
  | .reject _ => inferInstanceAs (Decidable True)
  | .ack _ _ => inferInstanceAs (Decidable (_ = _))

/-- The zone agrees with its host, and nothing is in flight. -/
structure Started (s : BookSystem) : Prop where
  nodup : s.zone.addresses.Nodup
  agrees : ∀ v ∈ s.zone.validators,
    v.delegation = s.host v.address ∧ 0 ≤ v.delegation ∧ v.delegationChangesInProgress = 0
  total : s.zone.TotalConsistent
  inFlight : s.inFlight = []

/-! ## What an event does -/

variable {e : BookEvent} {s s' : BookSystem} {z : HostZone} {a : String}

theorem step_cases (h : s.step e = some s') :
    (∃ b zone, e = .send b ∧ b.Valid ∧ (∀ a ∈ b.validators, a ∈ s.zone.addresses) ∧
      BookEffect s.zone zone 0 0 (fun a => (b.validators.count a : ℤ)) ∧
      s' = ⟨zone, s.host, s.inFlight ++ [⟨b, .sent⟩]⟩) ∨
    (∃ i b, e = .execute i ∧ s.inFlight[i]? = some ⟨b, .sent⟩ ∧
      (∀ a ∈ b.validators, 0 ≤ s.host a + b.delta a) ∧
      s' = ⟨s.zone, s.host + b.delta, s.inFlight.set i ⟨b, .executed⟩⟩) ∨
    (∃ i b, e = .reject i ∧ s.inFlight[i]? = some ⟨b, .sent⟩ ∧
      s' = ⟨s.zone, s.host, s.inFlight.set i ⟨b, .rejected⟩⟩) ∨
    (∃ i p status zone, e = .ack i status ∧ s.inFlight[i]? = some p ∧
      answeredBy p.progress status ∧ p.op.callback s.zone status = .ok zone ∧
      s' = ⟨zone, s.host, s.inFlight.eraseIdx i⟩) := by
  cases e with
  | send b =>
    left
    dsimp only [step] at h
    split at h
    · rename_i hvalid
      split at h
      · cases h
      rename_i zone hzone
      cases h
      have hmem := mem_of_foldlM_incrementValidatorDelegationChangesInProgress hzone
      obtain ⟨zone', hzone', heffect⟩ :=
        foldlM_incrementValidatorDelegationChangesInProgress b.validators hmem
      obtain rfl : zone' = zone := Except.ok.inj (hzone'.symm.trans hzone)
      exact ⟨b, zone', rfl, hvalid, hmem, heffect, rfl⟩
    · cases h
  | execute i =>
    right; left
    dsimp only [step] at h
    split at h
    · rename_i b hb
      split at h
      · rename_i hnonneg
        cases h
        exact ⟨i, b, rfl, hb, hnonneg, rfl⟩
      · cases h
    · cases h
  | reject i =>
    right; right; left
    dsimp only [step] at h
    split at h
    · rename_i b hb
      cases h
      exact ⟨i, b, rfl, hb, rfl⟩
    · cases h
  | ack i status =>
    right; right; right
    dsimp only [step] at h
    split at h
    · cases h
    rename_i p hp
    split at h
    · rename_i hanswer
      split at h
      · cases h
      rename_i zone hzone
      cases h
      exact ⟨i, p, status, zone, rfl, hp, hanswer, hzone, rfl⟩
    · cases h

/-! ## The book lags behind -/

def batches (s : BookSystem) : List IcaBatch :=
  s.inFlight.map op

/-- How often batches name a validator. -/
def counted (batches : List IcaBatch) (address : String) : ℤ :=
  (batches.map fun b => (b.validators.count address : ℤ)).sum

/-- The book plus the executed batches in flight is the host, and the counters count the
    batches in flight. -/
structure Simulates (s : BookSystem) : Prop where
  nodup : s.zone.addresses.Nodup
  total : s.zone.TotalConsistent
  valid : ∀ b ∈ s.batches, b.Valid
  known : ∀ b ∈ s.batches, ∀ a ∈ b.validators, a ∈ s.zone.addresses
  recorded : ∀ a d, s.zone.recorded a = some d →
    d + unacked delta s.inFlight a = s.host a
  changes : ∀ a c, s.zone.changesInProgress a = some c → c = counted s.batches a

theorem recorded_of_mem (hnd : z.addresses.Nodup) {v : Validator} (hv : v ∈ z.validators) :
    z.recorded v.address = some v.delegation ∧
      z.changesInProgress v.address = some v.delegationChangesInProgress := by
  unfold HostZone.recorded HostZone.changesInProgress
  rw [getValidatorFromAddress_of_mem hnd hv]
  exact ⟨rfl, rfl⟩

private theorem exists_of_recorded {d : ℤ} (h : z.recorded a = some d) :
    ∃ v ∈ z.validators, v.address = a ∧ v.delegation = d := by
  obtain ⟨v, hv, rfl⟩ := Option.map_eq_some_iff.mp h
  refine ⟨v, mem_of_find?_eq_some hv, ?_, rfl⟩
  simpa using find?_some hv

private theorem exists_of_changesInProgress {c : ℤ} (h : z.changesInProgress a = some c) :
    ∃ v ∈ z.validators, v.address = a ∧ v.delegationChangesInProgress = c := by
  obtain ⟨v, hv, rfl⟩ := Option.map_eq_some_iff.mp h
  refine ⟨v, mem_of_find?_eq_some hv, ?_, rfl⟩
  simpa using find?_some hv

theorem Started.simulates (h : s.Started) : s.Simulates where
  nodup := h.nodup
  total := h.total
  valid b hb := by
    unfold batches at hb
    rw [h.inFlight] at hb
    cases hb
  known b hb := by
    unfold batches at hb
    rw [h.inFlight] at hb
    cases hb
  recorded a d hd := by
    obtain ⟨v, hv, rfl, rfl⟩ := exists_of_recorded hd
    rw [h.inFlight, unacked_nil, Pi.zero_apply, add_zero]
    exact (h.agrees v hv).1
  changes a c hc := by
    obtain ⟨v, hv, rfl, rfl⟩ := exists_of_changesInProgress hc
    unfold batches
    rw [h.inFlight]
    exact (h.agrees v hv).2.2

private theorem counted_eraseIdx {l : List (Pending IcaBatch)} {i : ℕ} {p : Pending IcaBatch}
    (h : l[i]? = some p) (a : String) :
    counted (l.map op) a =
      (p.op.validators.count a : ℤ) + counted ((l.eraseIdx i).map op) a := by
  unfold counted
  rw [(((perm_cons_eraseIdx h).map _).map _).sum_eq, map_cons, map_cons, sum_cons]

/-- The host executes or rejects a batch. -/
private theorem Simulates.settle (hi : s.Simulates) {i : ℕ} {b : IcaBatch} {host : String → ℤ}
    (hb : s.inFlight[i]? = some ⟨b, .sent⟩) (progress : Progress)
    (hhost : host = s.host + effect delta ⟨b, progress⟩) :
    Simulates ⟨s.zone, host, s.inFlight.set i ⟨b, progress⟩⟩ := by
  have hbatches : batches ⟨s.zone, host, s.inFlight.set i ⟨b, progress⟩⟩ = s.batches :=
    map_op_set hb progress
  refine ⟨hi.nodup, hi.total, ?_, ?_, fun a d hd => ?_, ?_⟩
  · rw [hbatches]
    exact hi.valid
  · rw [hbatches]
    exact hi.known
  · have hlag := hi.recorded a d hd
    dsimp only
    rw [unacked_set hb, hhost, effect_sent, sub_zero, Pi.add_apply, Pi.add_apply]
    omega
  · rw [hbatches]
    exact hi.changes

/-- **Step**: every event keeps the book behind the host by what is in flight. -/
theorem Simulates.step (hi : s.Simulates) (h : s.step e = some s') : s'.Simulates := by
  obtain ⟨b, zone, -, hvalid, hmem, heffect, rfl⟩ | ⟨i, b, -, hb, -, rfl⟩ | ⟨i, b, -, hb, rfl⟩ |
    ⟨i, p, status, zone, -, hp, hanswer, hzone, rfl⟩ := step_cases h
  · -- a new batch is counted, and not executed yet
    have hbatches : batches ⟨zone, s.host, s.inFlight ++ [⟨b, .sent⟩]⟩ = s.batches ++ [b] :=
      map_append
    refine ⟨?_, heffect.totalConsistent hi.nodup (by simp) hi.total, ?_, ?_, fun a d hd => ?_,
      fun a c hc => ?_⟩
    · rw [heffect.addresses]
      exact hi.nodup
    · rw [hbatches]
      exact forall_mem_concat hi.valid hvalid
    · rw [hbatches, heffect.addresses]
      exact forall_mem_concat hi.known hmem
    · obtain ⟨d₀, hd₀, rfl⟩ := Option.map_eq_some_iff.mp ((heffect.recorded a).symm.trans hd)
      have hlag := hi.recorded a d₀ hd₀
      simpa using hlag
    · obtain ⟨c₀, hc₀, rfl⟩ := Option.map_eq_some_iff.mp ((heffect.changes a).symm.trans hc)
      rw [hbatches, hi.changes a c₀ hc₀]
      simp [counted]
  · exact hi.settle hb .executed (by rw [effect_executed])
  · exact hi.settle hb .rejected (by rw [effect_rejected, add_zero])
  · -- the callback books what the host did
    have heffect := callback_ok hi.nodup hzone
    have hsub : ((s.inFlight.eraseIdx i).map op) ⊆ s.batches :=
      ((eraseIdx_sublist s.inFlight i).map op).subset
    have hpmem : p.op ∈ s.batches := mem_map_of_mem (mem_of_getElem? hp)
    have hbooked : (if status = .success then p.op.delta else 0) =
        effect delta p := by
      unfold effect
      obtain ⟨hprogress, hstatus⟩ | ⟨hprogress, hstatus⟩ := hanswer
      · rw [if_pos hstatus, if_pos hprogress]
      · rw [if_neg hstatus, hprogress, if_neg (by simp)]
    refine ⟨?_, heffect.totalConsistent hi.nodup ?_ hi.total, fun b hb => hi.valid b (hsub hb),
      fun b hb => ?_, fun a d hd => ?_, fun a c hc => ?_⟩
    · rw [heffect.addresses]
      exact hi.nodup
    · split
      · exact sum_delta hi.nodup (hi.known p.op hpmem)
      · simp
    · rw [heffect.addresses]
      exact hi.known b (hsub hb)
    · obtain ⟨d₀, hd₀, rfl⟩ := Option.map_eq_some_iff.mp ((heffect.recorded a).symm.trans hd)
      have hlag := hi.recorded a d₀ hd₀
      dsimp only
      rw [hbooked, unacked_eraseIdx hp, Pi.sub_apply]
      omega
    · obtain ⟨c₀, hc₀, rfl⟩ := Option.map_eq_some_iff.mp ((heffect.changes a).symm.trans hc)
      have hcount := hi.changes a c₀ hc₀
      have herase := counted_eraseIdx hp a
      unfold batches at hcount ⊢
      dsimp only
      omega

/-! ## In order -/

/-- No delegation to these validators is negative. -/
def NonnegOn (addresses : List String) (delegations : String → ℤ) : Prop :=
  ∀ a ∈ addresses, 0 ≤ delegations a

/-- The book goes through states of the host, in which no delegation is negative. -/
def CaughtUp (s : BookSystem) : Prop :=
  Covered delta (NonnegOn s.zone.addresses) s.host s.inFlight

theorem Started.caughtUp (h : s.Started) : s.CaughtUp := by
  unfold CaughtUp
  rw [h.inFlight]
  refine .nil fun a ha => ?_
  obtain ⟨v, hv, rfl⟩ := mem_map.mp ha
  obtain ⟨hagrees, hnonneg, -⟩ := h.agrees v hv
  exact hagrees ▸ hnonneg

/-- **Step**: in channel order, the book does not leave the path of the host. -/
theorem CaughtUp.step (hi : s.Simulates) (hc : s.CaughtUp) (hok : s.InOrder e)
    (h : s.step e = some s') : s'.CaughtUp := by
  unfold CaughtUp at hc ⊢
  obtain ⟨b, zone, rfl, -, -, heffect, rfl⟩ | ⟨i, b, rfl, hb, hnonneg, rfl⟩ |
    ⟨i, b, rfl, hb, rfl⟩ | ⟨i, p, status, zone, rfl, hp, -, hzone, rfl⟩ := step_cases h
  · rw [heffect.addresses]
    exact hc.send b
  · refine hc.execute hb hok fun a ha => ?_
    by_cases hmem : a ∈ b.validators
    · exact hnonneg a hmem
    · rw [Pi.add_apply, delta_of_notMem hmem, add_zero]
      exact hc.at_primary a ha
  · exact hc.reject hb
  · obtain rfl : i = 0 := hok
    rw [(callback_ok hi.nodup hzone).addresses]
    exact hc.ack

private theorem counted_cons_le (b : IcaBatch) (batches : List IcaBatch) (a : String) :
    (b.validators.count a : ℤ) ≤ counted (b :: batches) a := by
  unfold counted
  rw [map_cons, sum_cons]
  have hrest : 0 ≤ (batches.map fun b => (b.validators.count a : ℤ)).sum := by
    apply sum_nonneg
    simp
  omega

/-- **No error**: the success of the oldest batch can be booked. -/
theorem exists_callback_of_executed (hi : s.Simulates) (hc : s.CaughtUp) {b : IcaBatch}
    {rest : List (Pending IcaBatch)} (hfirst : s.inFlight = ⟨b, .executed⟩ :: rest) :
    ∃ zone, b.callback s.zone .success = .ok zone := by
  have hbatches : s.batches = b :: rest.map op := by
    unfold batches
    rw [hfirst]
    rfl
  have hmem : b ∈ s.batches := by
    rw [hbatches]
    exact mem_cons_self
  refine exists_callback (hi.valid b hmem) hi.nodup hi.total (hi.known b hmem)
    (fun a c hchanges => ?_) (fun _ a d hd => ?_)
  · rw [hi.changes a c hchanges, hbatches]
    exact counted_cons_le b _ a
  · -- what the book will be is what the host was after the batch
    have hlag := hi.recorded a d hd
    have hnonneg := hc 1 a (recorded_isSome_iff.mp (by rw [hd]; rfl))
    rw [hfirst] at hlag hnonneg
    simp only [unacked_cons, effect_executed, Pi.add_apply, drop_succ_cons,
      drop_zero, Pi.sub_apply] at hlag hnonneg
    omega

/-- **Simulation**: at every moment, the recorded delegation of a validator plus the deltas
    of the batches that were executed and not acknowledged is its delegation on the host.
    With nothing in flight the books are equal and the counters are 0. If batches are executed
    and acknowledged in order, the oldest executed batch can always be booked. -/
theorem book_simulates_host {s₀ s : BookSystem} (hstart : s₀.Started)
    (hrun : Reaches step (fun _ _ => True) s₀ s) :
    (∀ v ∈ s.zone.validators,
      v.delegation + unacked delta s.inFlight v.address = s.host v.address) ∧
    (s.inFlight = [] → ∀ v ∈ s.zone.validators,
      v.delegation = s.host v.address ∧ v.delegationChangesInProgress = 0) ∧
    (Reaches step InOrder s₀ s → ∀ b rest, s.inFlight = ⟨b, .executed⟩ :: rest →
      ∃ zone, b.callback s.zone .success = .ok zone) := by
  have hsim : s.Simulates := hrun.invariant hstart.simulates fun _ _ _ hi _ hs => hi.step hs
  refine ⟨fun v hv => ?_, fun hidle v hv => ?_, fun hordered b rest hfirst => ?_⟩
  · exact hsim.recorded _ _ (recorded_of_mem hsim.nodup hv).1
  · obtain ⟨hrecorded, hchanges⟩ := recorded_of_mem hsim.nodup hv
    have hlag := hsim.recorded _ _ hrecorded
    have hcount := hsim.changes _ _ hchanges
    unfold batches at hcount
    rw [hidle] at hlag hcount
    rw [unacked_nil, Pi.zero_apply, add_zero] at hlag
    exact ⟨hlag, hcount⟩
  · -- in order, the book goes through former states of the host
    obtain ⟨-, hcaught⟩ : s.Simulates ∧ s.CaughtUp := by
      apply hordered.invariant
      · exact ⟨hstart.simulates, hstart.caughtUp⟩
      · intro t e t' ht hok hs
        exact ⟨ht.1.step hs, ht.2.step ht.1 hok hs⟩
    exact exists_callback_of_executed hsim hcaught hfirst

/-! ## Out of order -/

/-- A zone of two validators that agrees with its host. -/
def twoValidatorBook : BookSystem where
  zone := twoValidatorZone
  host a := if a = "val1" ∨ a = "val2" then 200 else 0
  inFlight := []

theorem twoValidatorBook_started : twoValidatorBook.Started where
  nodup := by decide
  agrees := by decide
  total := by decide
  inFlight := rfl

/-- A delegation of 50 and undelegations of 200 and 50, all from the same validator. -/
def delegateThenUndelegate : List IcaBatch :=
  [.delegate ⟨"host", 0, [⟨"val1", 50⟩]⟩, .undelegate ⟨"host", [⟨"val1", 200⟩], [1]⟩,
    .undelegate ⟨"host", [⟨"val1", 50⟩], [2]⟩]

/-- The error of the callback of the batch at index `i`. -/
def callbackError (s : BookSystem) (i : ℕ) (status : AckStatus) : Option ErrorCode :=
  (s.inFlight[i]?).bind fun p =>
    match p.op.callback s.zone status with
    | .error e => some e.code
    | .ok _ => none

/-- **Out of order**: the three batches are executed. If the undelegations are acknowledged
    before the delegation, the second of them finds only 0 in the book and its success
    callback fails. -/
theorem success_callback_fails_out_of_order :
    twoValidatorBook.Started ∧
    ((runSteps step twoValidatorBook
      (delegateThenUndelegate.map .send ++ [.execute 0, .execute 1, .execute 2,
        .ack 1 .success])).map fun s =>
      (s.inFlight.map progress, s.zone.recorded "val1", s.callbackError 1 .success)) =
      some ([.executed, .executed], some 0, some .errValidatorDelegationChg) := by
  refine ⟨twoValidatorBook_started, ?_⟩
  decide +kernel

/-- The same batches in order, up to the acknowledgement of the last, with a redelegation that
    the host rejects. -/
def acknowledgedInOrder : List BookEvent :=
  delegateThenUndelegate.map .send ++ [.send (.rebalance [⟨"val1", "val2", 70⟩]), .execute 0,
    .execute 1, .ack 0 .success, .execute 1, .reject 2, .ack 0 .success]

theorem book_simulates_host_acknowledgedInOrder :
    ∃ s, runAllowed step InOrder twoValidatorBook
        acknowledgedInOrder = some s ∧
      (∀ v ∈ s.zone.validators,
        v.delegation + unacked delta s.inFlight v.address = s.host v.address) ∧
      ∃ zone, (undelegate ⟨"host", [⟨"val1", 50⟩], [2]⟩).callback s.zone .success =
        .ok zone := by
  have hend : ((runAllowed step InOrder twoValidatorBook
      acknowledgedInOrder).map BookSystem.inFlight) =
      some [⟨.undelegate ⟨"host", [⟨"val1", 50⟩], [2]⟩, .executed⟩,
        ⟨.rebalance [⟨"val1", "val2", 70⟩], .rejected⟩] := by
    decide +kernel
  obtain ⟨s, hs, hinFlight⟩ := Option.map_eq_some_iff.mp hend
  have hordered := Reaches.of_runAllowed hs
  have hsim := book_simulates_host twoValidatorBook_started (hordered.mono fun _ _ _ => trivial)
  exact ⟨s, hs, hsim.1, hsim.2.2 hordered _ _ hinFlight⟩

end BookSystem

end Stride.Stakeibc
