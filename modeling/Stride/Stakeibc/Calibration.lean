import Stride.Stakeibc.QuerySystem

/-!
# Calibrations

A calibration takes the delegation that the host reports into the book, if it differs by at
most `calibrationThreshold`. It does not look at the ICAs in flight: the answer may already
contain the effect of an ICA whose acknowledgement will be booked on top of it.

The book stays right if every answer that is taken in is not overlapped by an ICA on its
validator.
-/

namespace Stride.Stakeibc

open Lib Sdk InterchainQuery

namespace QuerySystem

/-! ## Runs without overlapped calibrations -/

/-- ICAs in channel order, calibrations as the only queries, each answered by the host, and no
    overlapped answer within the threshold of what is recorded. -/
def CalibratesInOrder (s : QuerySystem) : QueryEvent → Prop
  | .ica e => s.book.InOrder e
  | .submitDelegationQuery _ => False
  | .respond queryId result =>
    s.keeper.icq.queries.get? queryId = none ∨
    ∃ a ∈ s.answers, a.queryId = queryId ∧ result = s.resultOf a ∧
      (a.overlapped = false ∨ ∀ d, s.keeper.hostZone.recorded a.validator = some d →
        calibrationThreshold < |d - a.tokens|)
  | _ => True

instance (s : QuerySystem) (e : QueryEvent) : Decidable (s.CalibratesInOrder e) := by
  apply @QueryEvent.casesOn _ e <;> intros <;> dsimp only [CalibratesInOrder] <;> infer_instance

/-- The book follows the host in order, and every stored query is a calibration. -/
structure CalibrationInv (s : QuerySystem) : Prop where
  tracks : s.Tracks
  caughtUp : s.book.CaughtUp
  calibrations : s.keeper.icq.Forall fun query => query.callbackId = "calibrate"

variable {e : QueryEvent} {s : QuerySystem}

private theorem Started.calibrationInv (h : s.Started) : s.CalibrationInv where
  tracks := h.tracks
  caughtUp := h.book.caughtUp
  calibrations id query hquery := by
    rw [h.queries] at hquery
    cases hquery

private theorem CalibrationInv.withIcq (hi : s.CalibrationInv) {icq : IcqKeeper DelegationQueryData}
    (hicq : icq.Forall fun query => query.callbackId = "calibrate") :
    (s.withKeeper ⟨s.keeper.hostZone, icq⟩).CalibrationInv :=
  ⟨hi.tracks.withKeeper (.refl _), hi.caughtUp, hicq⟩

/-- A calibration from an answer that is not overlapped, or far off, changes nothing. -/
private theorem calibrate_eq_self (hi : s.Tracks) {a : Answer} (ha : a ∈ s.answers)
    (hok : a.overlapped = false ∨ ∀ d, s.keeper.hostZone.recorded a.validator = some d →
      calibrationThreshold < |d - a.tokens|) {args : QueriedDelegation}
    (hargs : s.resultOf a = some args) {query : DelegationQuery} {z : HostZone}
    (h : calibrateDelegationCallback s.keeper.hostZone query args = .ok z) :
    z = s.keeper.hostZone := by
  obtain ⟨v, hv, rfl | ⟨hdiffers, hsmall, -⟩⟩ := calibrateDelegationCallback_ok h
  · rfl
  · exfalso
    obtain ⟨hvalidator, htokens⟩ := hi.delegatedTokens_eq hargs hv
    have hrecorded : s.keeper.hostZone.recorded a.validator = some v.delegation := by
      simp [HostZone.recorded, ← hvalidator, hv]
    rw [htokens] at hdiffers hsmall
    rcases hok with hover | hfar
    · exact hdiffers (hi.answers a ha hover _ hrecorded).symm
    · exact absurd (hfar _ hrecorded) (not_lt.mpr hsmall)

/-- **Step**: one event of such a run. -/
theorem CalibrationInv.step {s' : QuerySystem} (hi : s.CalibrationInv) (hok : s.CalibratesInOrder e)
    (h : s.step e = some s') : s'.CalibrationInv := by
  cases e with
  | ica e =>
    refine ⟨hi.tracks.ica h, ?_, ?_⟩
    · obtain ⟨b, hb, rfl⟩ := Option.map_eq_some_iff.mp h
      exact hi.caughtUp.step hi.tracks.simulates hok hb
    · obtain ⟨b, -, rfl⟩ := Option.map_eq_some_iff.mp h
      exact hi.calibrations
  | submitDelegationQuery address => exact hok.elim
  | submitCalibrationQuery address =>
    obtain ⟨k, hk, rfl⟩ := toOption_map_eq_some.mp h
    obtain ⟨key, icq, -, hicq, rfl⟩ := submitCalibrationICQ_ok hk
    exact hi.withIcq (hi.calibrations.submit (fun _ _ => callbackId_of_request) rfl hicq)
  | answer queryId address =>
    obtain ⟨answers, rfl, htracks⟩ := hi.tracks.answer h
    exact ⟨htracks, hi.caughtUp, hi.calibrations⟩
  | nextBlock blockTime latestHeight =>
    obtain ⟨ctx, rfl, htracks⟩ := hi.tracks.nextBlock h
    exact ⟨htracks, hi.caughtUp, hi.calibrations⟩
  | respond queryId result =>
    obtain ⟨k, hk, rfl⟩ := toOption_map_eq_some.mp h
    obtain ⟨-, rfl⟩ | ⟨query, hquery, -, hrest⟩ := submitQueryResponse_ok hk
    · exact hi.withIcq hi.calibrations
    · have hcallback := hi.calibrations queryId query hquery
      have hdelete := hi.calibrations.deleteQuery queryId
      obtain ⟨-, rfl⟩ | ⟨args, rfl, ⟨-, -, rfl⟩ | ⟨-, -, icq, hretry, rfl⟩ | hinvoke⟩ := hrest
      · exact hi.withIcq hdelete
      · exact hi.withIcq hdelete
      · exact hi.withIcq (hdelete.retry (fun _ _ => callbackId_of_request) hcallback hretry)
      · -- the callback runs: by the condition it leaves the zone as it is
        obtain hnone | ⟨a, ha, -, hresult, hoverlap⟩ := hok
        · rw [hnone] at hquery
          cases hquery
        · simp only [invokeDelegationCallback, hcallback, String.reduceEq, if_false,
            if_true] at hinvoke
          obtain ⟨z, hz, hinvoke⟩ := bind_eq_ok.mp hinvoke
          cases hinvoke
          rw [calibrate_eq_self hi.tracks ha hoverlap hresult.symm hz]
          exact hi.withIcq hdelete

/-- **Calibration**: in a run without overlapped calibrations, the recorded delegation of a
    validator that no ICA in flight names is the one on the host, and no recorded delegation
    is ever negative. -/
theorem calibration_keeps_book {s₀ s : QuerySystem} (hstart : s₀.Started)
    (hrun : Reaches step CalibratesInOrder s₀ s) :
    ∀ v ∈ s.keeper.hostZone.validators,
      ((∀ p ∈ s.inFlight, v.address ∉ p.op.validators) → v.delegation = s.host v.address) ∧
      0 ≤ v.delegation := by
  have hinv : s.CalibrationInv := hrun.invariant hstart.calibrationInv
    fun _ _ _ hi hok hs => hi.step hok hs
  intro v hv
  have hsim := hinv.tracks.simulates
  have hrecorded : s.keeper.hostZone.recorded v.address = some v.delegation :=
    (BookSystem.recorded_of_mem hsim.nodup hv).1
  have hlag : v.delegation + unacked IcaBatch.delta s.inFlight v.address = s.host v.address :=
    hsim.recorded _ _ hrecorded
  refine ⟨fun hidle => ?_, ?_⟩
  · have hnone : s.executedOn v.address = false := by
      simp only [executedOn, List.any_eq_false, decide_eq_true_eq, not_and]
      exact fun p hp _ => hidle p hp
    rw [unacked_eq_zero_of_not_executedOn hnone, add_zero] at hlag
    exact hlag
  · have hnonneg := hinv.caughtUp.at_replica v.address (List.mem_map_of_mem hv)
    replace hnonneg : 0 ≤ s.host v.address - unacked IcaBatch.delta s.inFlight v.address :=
      hnonneg
    omega

/-! ## A calibration in flight -/

/-- A batch is executed, the validator is calibrated with `tokens`, and the batch is
    acknowledged. -/
def calibratedInFlight (b : IcaBatch) (tokens : ℤ) : List QueryEvent :=
  [.ica (.send b), .ica (.execute 0), .submitCalibrationQuery "val1",
    .answer (smallQueryId "calibrate" "val1") "val1",
    .respond (smallQueryId "calibrate" "val1")
      (some ⟨"delegation", "val1", LegacyDec.fromInt tokens⟩),
    .ica (.ack 0 .success)]

/-- **Overlap**: the calibration takes in a delegation of 50 that the acknowledgement then
    books again, so that 300 are recorded for a delegation of 250. After a redelegation of 150
    the recorded delegation becomes negative. -/
theorem overlapped_calibration_corrupts_book :
    twoValidatorQueries.Started ∧
    ((runAllowed step HonestInOrder twoValidatorQueries
      (calibratedInFlight (.delegate ⟨"host", 0, [⟨"val1", 50⟩]⟩) 250)).map fun s =>
      (s.inFlight.length, s.keeper.icq.queries.values.length,
        s.keeper.hostZone.recorded "val1", s.host "val1")) = some (0, 0, some 300, 250) ∧
    ((runAllowed step HonestInOrder twoValidatorQueries
      (calibratedInFlight (.rebalance [⟨"val1", "val2", 150⟩]) 50)).map fun s =>
      (s.inFlight.length, s.keeper.icq.queries.values.length,
        s.keeper.hostZone.recorded "val1", s.host "val1")) = some (0, 0, some (-100), 50) := by
  refine ⟨twoValidatorQueries_started, ?_, ?_⟩
  · decide +kernel
  · decide +kernel

/-- A calibration that is answered after an acknowledgement, with an undelegation sent. -/
def calibratedInTime : List QueryEvent :=
  [.ica (.send (.delegate ⟨"host", 0, [⟨"val1", 50⟩]⟩)), .submitCalibrationQuery "val1",
    .ica (.execute 0), .ica (.ack 0 .success), .answer (smallQueryId "calibrate" "val1") "val1",
    .ica (.send (.undelegate ⟨"host", [⟨"val1", 100⟩], [1]⟩)),
    .respond (smallQueryId "calibrate" "val1")
      (some ⟨"delegation", "val1", LegacyDec.fromInt 250⟩),
    .ica (.execute 0)]

theorem calibration_keeps_book_calibratedInTime :
    ∃ s, runAllowed step CalibratesInOrder twoValidatorQueries calibratedInTime =
        some s ∧
      ∀ v ∈ s.keeper.hostZone.validators,
        ((∀ p ∈ s.inFlight, v.address ∉ p.op.validators) → v.delegation = s.host v.address) ∧
        0 ≤ v.delegation := by
  exact exists_run_end (by decide +kernel)
    (calibration_keeps_book twoValidatorQueries_started (.of_get _))

end QuerySystem

end Stride.Stakeibc
