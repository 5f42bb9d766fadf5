import Stride.Stakeibc.EpochSchedule

/-!
# Timeouts of Epoch ICAs

ICAs that are submitted in an epoch hook time out shortly before the nominal end of the epoch. The
end is read from the schedule of the epoch, while the offset that is handed to the controller is
counted from the time of the block. The schedule can lag behind the blocks.
-/

namespace Stride.Stakeibc

open Lib Sdk Epochs

/-! ## The timeout -/

def uint64Sub (a b : ℕ) : ℕ := (a + (2 ^ 64 - b % 2 ^ 64)) % 2 ^ 64

def intToUint (i : ℤ) : Result ℕ :=
  if i < 0 then goPanic s!"int64 value {i} is negative and can't be converted to uint64"
  else .ok i.toNat

/-- `GetICATimeoutNanos`, with the parameter `BufferSize`. -/
def getICATimeoutNanos (trackers : KeyedStore EpochTracker.epochIdentifier) (bufferSizeParam : ℕ)
    (epochType : String) : Result ℕ :=
  match trackers.get? epochType with
  | none => wrapf .errInvalidRequest s!"Failed to get epoch tracker for {epochType}"
  | some epochTracker =>
    if bufferSizeParam = 0 then goPanic "integer divide by zero"
    else
      let bufferSize := epochTracker.duration / bufferSizeParam
      if bufferSize > epochTracker.duration then
        wrapf .errInvalidRequest s!"Invalid buffer size {bufferSize}"
      else .ok (uint64Sub epochTracker.nextEpochStartTime bufferSize)

/-- The offset that `SubmitTxs` hands to the controller. -/
def relativeTimeoutOffset (ctx : Block) (timeoutTimestamp : ℕ) : Result ℕ := do
  let now ← intToUint (unixNano ctx.time)
  return uint64Sub timeoutTimestamp now

/-! ## The hooks -/

/-- ICAs that are submitted in the hook of an epoch. -/
structure IcaSubmission where
  block : Block
  epoch : EpochInfo
  bufferSizeParam : ℕ
  timeoutTimestamp : Result ℕ
  relativeTimeoutOffset : Result ℕ

/-- What the hooks work on, and the log of the submissions. -/
structure IcaLog where
  trackers : KeyedStore EpochTracker.epochIdentifier
  submissions : List IcaSubmission

/-- The timeouts of the ICAs in the hook of an epoch, `SubmitTxsEpoch`. -/
def submitTxsEpoch (ctx : Block) (trackers : KeyedStore EpochTracker.epochIdentifier)
    (bufferSizeParam : ℕ) (epoch : EpochInfo) : IcaSubmission :=
  let timeoutTimestamp := getICATimeoutNanos trackers bufferSizeParam epoch.identifier
  { block := ctx
    epoch := epoch
    bufferSizeParam := bufferSizeParam
    timeoutTimestamp := timeoutTimestamp
    relativeTimeoutOffset := timeoutTimestamp >>= relativeTimeoutOffset ctx }

/-- `BeforeEpochStart`: the tracker is updated first. Undelegations are submitted in the hook of the
    day epoch with `SubmitTxsDayEpoch`, everything else in the hook of the stride epoch with
    `SubmitTxsStrideEpoch`. -/
def icaHooks (bufferSizeParam : ℕ) : EpochHooks IcaLog where
  afterEpochEnd _ _ t := t
  beforeEpochStart ctx epoch t :=
    match updateEpochTracker t.trackers epoch with
    | .error _ => t
    | .ok (_, trackers) =>
      { trackers := trackers
        submissions :=
          if epoch.identifier = "day" ∨ epoch.identifier = "stride_epoch" then
            t.submissions ++ [submitTxsEpoch ctx trackers bufferSizeParam epoch]
          else t.submissions }

/-- The state after the begin-blockers of `blocks`, each with the parameter of its time. -/
def runIcaBlocks (s : EpochsState IcaLog) (blocks : List (Block × ℕ)) : EpochsState IcaLog :=
  blocks.foldl (fun s b => beginBlocker (icaHooks b.2) b.1 s) s

/-! ## What is submitted -/

/-- The submission was made in the block, with the tracker of its own epoch. -/
structure SubmittedIn (b : Block × ℕ) (ica : IcaSubmission) : Prop where
  block : ica.block = b.1
  param : ica.bufferSizeParam = b.2
  timeouts : ∃ tracker, epochTrackerOf ica.epoch = some tracker ∧
    ∃ trackers : KeyedStore EpochTracker.epochIdentifier,
      ica = submitTxsEpoch b.1 (trackers.set tracker) b.2 ica.epoch

variable {b : Block × ℕ} {ica : IcaSubmission} {a : ℕ}

private theorem submissions_runHooks {t : IcaLog} {e : EpochInfo}
    (h : ica ∈ (runHooks (icaHooks b.2) b.1 t e).submissions) :
    ica ∈ t.submissions ∨ SubmittedIn b ica := by
  unfold runHooks at h
  cases hs : e.started b.1 with
  | none =>
    rw [hs] at h
    exact .inl h
  | some epoch =>
    -- both kinds of start run the same hook
    have hhook : ica ∈ ((icaHooks b.2).beforeEpochStart b.1 epoch t).submissions := by
      rw [hs] at h
      dsimp only at h
      split at h
      · exact h
      · exact h
    have heq := updateEpochTracker_eq t.trackers epoch
    cases hup : updateEpochTracker t.trackers epoch with
    | error err =>
      simp only [icaHooks, hup] at hhook
      exact .inl hhook
    | ok r =>
      rw [hup] at heq
      obtain ⟨tracker, htracker, rfl⟩ : ∃ tracker, epochTrackerOf epoch = some tracker ∧
          (tracker.epochNumber, t.trackers.set tracker) = r := by
        simpa [Except.toOption] using heq.symm
      simp only [icaHooks, hup] at hhook
      split at hhook
      · rcases List.mem_append.mp hhook with hold | hnew
        · exact .inl hold
        · obtain rfl := List.mem_singleton.mp hnew
          exact .inr ⟨rfl, rfl, tracker, htracker, t.trackers, rfl⟩
      · exact .inl hhook

private theorem submissions_beginBlocker {s : EpochsState IcaLog}
    (h : ica ∈ (beginBlocker (icaHooks b.2) b.1 s).hooked.submissions) :
    ica ∈ s.hooked.submissions ∨ SubmittedIn b ica := by
  rw [hooked_beginBlocker] at h
  refine List.foldlRecOn (motive := fun t : IcaLog => ∀ ica ∈ t.submissions,
    ica ∈ s.hooked.submissions ∨ SubmittedIn b ica) s.epochs.values _ (fun _ h => .inl h) ?_ ica h
  intro t ih e _ ica hica
  rcases submissions_runHooks hica with hold | hnew
  · exact ih ica hold
  · exact .inr hnew

/-- **Whole runs**: every submission was made in one of the blocks. -/
theorem submissions_runIcaBlocks {s₀ : EpochsState IcaLog} (hlog : s₀.hooked.submissions = [])
    {blocks : List (Block × ℕ)} (h : ica ∈ (runIcaBlocks s₀ blocks).hooked.submissions) :
    ∃ b ∈ blocks, SubmittedIn b ica := by
  induction blocks using List.reverseRecOn with
  | nil => simp [runIcaBlocks, hlog] at h
  | append_singleton blocks b ih =>
    have hstep : runIcaBlocks s₀ (blocks ++ [b]) =
        beginBlocker (icaHooks b.2) b.1 (runIcaBlocks s₀ blocks) := by
      simp [runIcaBlocks]
    rw [hstep] at h
    rcases submissions_beginBlocker h with hold | hnew
    · obtain ⟨b', hb', hsub⟩ := ih hold
      exact ⟨b', List.mem_append_left _ hb', hsub⟩
    · exact ⟨b, by simp, hnew⟩

/-! ## When the timeout lies in the future -/

/-- The timeout lies after the block, and the offset is the time in between. -/
def IcaSubmission.InFuture (ica : IcaSubmission) : Prop :=
  ∃ timeout : ℕ, ica.timeoutTimestamp = .ok timeout ∧ ica.block.time < timeout ∧
    ica.relativeTimeoutOffset = .ok (timeout - ica.block.time.toNat)

/-- The block comes before the buffer at the end of the epoch. An epoch that ends in the first
    buffer after 1970 is the exception: there the first subtraction wraps. -/
def IcaSubmission.InTime (ica : IcaSubmission) : Prop :=
  let buffer := ica.epoch.duration / ica.bufferSizeParam
  ica.block.time < ica.epoch.currentEpochStartTime + ica.epoch.duration - buffer ∨
    ica.epoch.currentEpochStartTime + ica.epoch.duration < buffer

/-- Times and durations as `UnixNano` and `time.Duration` can represent them. -/
def IcaSubmission.InRange (ica : IcaSubmission) : Prop :=
  (0 ≤ ica.block.time ∧ ica.block.time < 2 ^ 63) ∧
    (-2 ^ 63 ≤ ica.epoch.currentEpochStartTime + ica.epoch.duration ∧
      ica.epoch.currentEpochStartTime + ica.epoch.duration < 2 ^ 63) ∧
    ica.epoch.duration < 2 ^ 63

instance (ica : IcaSubmission) : Decidable ica.InTime := inferInstanceAs (Decidable (_ ∨ _))

instance (ica : IcaSubmission) : Decidable ica.InRange := inferInstanceAs (Decidable (_ ∧ _))

private theorem unixNano_of_lt {t : ℤ} (hlow : -2 ^ 63 ≤ t) (hhigh : t < 2 ^ 63) :
    unixNano t = t := by
  unfold unixNano
  rw [Int.bmod_def]
  omega

private theorem uint64Sub_of_le {b : ℕ} (h : b ≤ a) (ha : a < 2 ^ 64) : uint64Sub a b = a - b := by
  unfold uint64Sub
  omega

private theorem uint64Sub_of_lt {b : ℕ} (h : a < b) (hb : b < 2 ^ 64) :
    uint64Sub a b = 2 ^ 64 + a - b := by
  unfold uint64Sub
  omega

/-- The timeout is the end of the epoch less the buffer. -/
theorem SubmittedIn.timeoutTimestamp (h : SubmittedIn b ica) (hparam : 0 < b.2)
    (hrange : ica.InRange) :
    0 ≤ ica.epoch.duration ∧ 0 ≤ ica.epoch.currentEpochStartTime + ica.epoch.duration ∧
      let timeout := uint64Sub (ica.epoch.currentEpochStartTime + ica.epoch.duration).toNat
        (ica.epoch.duration.toNat / b.2)
      ica.timeoutTimestamp = .ok timeout ∧
        ica.relativeTimeoutOffset = .ok (uint64Sub timeout ica.block.time.toNat) := by
  obtain ⟨⟨htime, htime'⟩, ⟨hlow, hhigh⟩, -⟩ := hrange
  obtain ⟨tracker, htracker, trackers, hica⟩ := h.timeouts
  have hid := identifier_of_epochTrackerOf htracker
  unfold epochTrackerOf at htracker
  rw [unixNano_of_lt hlow hhigh] at htracker
  split at htracker
  · rename_i hfits
    obtain ⟨-, hduration, hnext⟩ := hfits
    have hlookup : (trackers.set tracker).get? ica.epoch.identifier = some tracker := by
      rw [← hid]
      exact KeyedStore.get?_set_self ..
    -- the buffer is a part of the duration, so the check passes
    have hbuffer : ¬tracker.duration / b.2 > tracker.duration := not_lt.mpr (Nat.div_le_self ..)
    have htimeout : ica.timeoutTimestamp =
        .ok (uint64Sub tracker.nextEpochStartTime (tracker.duration / b.2)) := by
      rw [hica]
      show getICATimeoutNanos _ _ _ = _
      unfold getICATimeoutNanos
      rw [hlookup]
      dsimp only
      rw [if_neg hparam.ne', if_neg hbuffer]
    have hoffset : ica.relativeTimeoutOffset =
        ica.timeoutTimestamp >>= relativeTimeoutOffset ica.block := by
      rw [hica]
      rfl
    have hnow : intToUint (unixNano ica.block.time) = .ok ica.block.time.toNat := by
      rw [unixNano_of_lt (le_trans (by norm_num) htime) htime']
      unfold intToUint
      rw [if_neg (not_lt.mpr htime)]
    obtain rfl := Option.some.inj htracker
    refine ⟨hduration, hnext, htimeout, ?_⟩
    rw [hoffset, htimeout]
    exact bind_eq_ok.mpr ⟨_, rfl, bind_eq_ok.mpr ⟨_, hnow, rfl⟩⟩
  · cases htracker

/-- The timeout is in the future exactly if the ICA is sent in time. -/
theorem SubmittedIn.inFuture_iff (h : SubmittedIn b ica) (hparam : 0 < b.2) (hrange : ica.InRange) :
    ica.InFuture ↔ ica.InTime := by
  obtain ⟨hduration, hnext, htimeout, hoffset⟩ := h.timeoutTimestamp hparam hrange
  obtain ⟨⟨htime, htime'⟩, ⟨-, hnext'⟩, hduration'⟩ := hrange
  unfold IcaSubmission.InFuture IcaSubmission.InTime
  rw [htimeout, hoffset, h.param]
  -- the buffer, as a natural number
  have hbuffer : ica.epoch.duration / (b.2 : ℤ) = ((ica.epoch.duration.toNat / b.2 : ℕ) : ℤ) := by
    rw [Int.natCast_div, Int.toNat_of_nonneg hduration]
  have hsmall : ica.epoch.duration.toNat / b.2 ≤ ica.epoch.duration.toNat := Nat.div_le_self ..
  rw [hbuffer]
  generalize ica.epoch.duration.toNat / b.2 = buffer at hsmall ⊢
  generalize hend : ica.epoch.currentEpochStartTime + ica.epoch.duration = nextStart
    at hnext hnext' ⊢
  rcases lt_or_ge nextStart.toNat buffer with hwrap | hle
  · rw [uint64Sub_of_lt hwrap (by omega)]
    refine iff_of_true ⟨_, rfl, by omega, ?_⟩ (.inr (by omega))
    rw [uint64Sub_of_le (by omega) (by omega)]
  · rw [uint64Sub_of_le hle (by omega)]
    constructor
    · rintro ⟨timeout, heq, hlt, -⟩
      cases heq
      left
      omega
    · rintro (hlt | hlt)
      · refine ⟨_, rfl, by omega, ?_⟩
        rw [uint64Sub_of_le (by omega) (by omega)]
      · omega

/-- **Timeouts of epoch ICAs**: in every run of blocks with positive buffer parameters, the ICAs
    that are submitted in the hook of an epoch have a timeout in the future exactly when the block
    comes before the buffer at the end of the epoch that it starts. -/
theorem ica_timeout_in_future_iff {s₀ : EpochsState IcaLog} (hlog : s₀.hooked.submissions = [])
    {blocks : List (Block × ℕ)} (hparam : ∀ b ∈ blocks, 0 < b.2) :
    ∀ ica ∈ (runIcaBlocks s₀ blocks).hooked.submissions, ica.InRange →
      (ica.InFuture ↔ ica.InTime) := by
  intro ica hica hrange
  obtain ⟨b, hb, hsub⟩ := submissions_runIcaBlocks hlog hica
  exact hsub.inFuture_iff (hparam b hb) hrange

/-! ## A lagging epoch -/

/-- A stride epoch of six hours that has not started. -/
def strideEpoch : EpochInfo where
  identifier := "stride_epoch"
  startTime := 10 ^ 18
  duration := 6 * 3600 * 10 ^ 9
  currentEpoch := 0
  currentEpochStartTime := 0
  epochCountingStarted := false
  currentEpochStartHeight := 0

def strideEpochOnly : EpochsState IcaLog :=
  ⟨KeyedStore.empty.set strideEpoch, ⟨KeyedStore.empty, []⟩⟩

/-- Blocks at the given hours after the start of the first epoch, with the default buffer. -/
def blocksAt (hours : List ℤ) : List (Block × ℕ) :=
  hours.zipIdx.map fun (hour, i) => (⟨i, 10 ^ 18 + hour * 3600 * 10 ^ 9⟩, 5)

/-- The nanoseconds from the block to the timeout, and the offsets. -/
def timeoutsOf (s : EpochsState IcaLog) : List (Option ℤ × Option ℕ) :=
  s.hooked.submissions.map fun ica =>
    (ica.timeoutTimestamp.toOption.map fun timeout => (timeout : ℤ) - ica.block.time,
      ica.relativeTimeoutOffset.toOption)

/-- **Lagging epoch**: after a gap of 20 hours, the second epoch of six hours starts. Its ICAs
    should have timed out 9.2 hours ago, and the offset is one of 584 years. -/
theorem lagging_epoch_wraps :
    strideEpochOnly.hooked.submissions = [] ∧ (∀ b ∈ blocksAt [0, 20], 0 < b.2) ∧
    (blocksAt [0, 20]).Pairwise (fun b c => b.1.time ≤ c.1.time) ∧
    timeoutsOf (runIcaBlocks strideEpochOnly (blocksAt [0, 20])) =
      [(some (48 * 36 * 10 ^ 10), some (48 * 36 * 10 ^ 10)),
        (some (-92 * 36 * 10 ^ 10), some (2 ^ 64 - 92 * 36 * 10 ^ 10))] := by
  refine ⟨rfl, by decide, by decide, ?_⟩
  decide +kernel

theorem ica_timeout_in_future_oneHourLate :
    (runIcaBlocks strideEpochOnly (blocksAt [0, 7])).hooked.submissions.length = 2 ∧
      ∀ ica ∈ (runIcaBlocks strideEpochOnly (blocksAt [0, 7])).hooked.submissions,
        ica.InFuture := by
  have hcheck : (runIcaBlocks strideEpochOnly (blocksAt [0, 7])).hooked.submissions.length = 2 ∧
      ∀ ica ∈ (runIcaBlocks strideEpochOnly (blocksAt [0, 7])).hooked.submissions,
        ica.InRange ∧ ica.InTime := by
    decide +kernel
  refine ⟨hcheck.1, fun ica hica => ?_⟩
  obtain ⟨hrange, htime⟩ := hcheck.2 ica hica
  exact (ica_timeout_in_future_iff rfl (by decide) ica hica hrange).mpr htime

end Stride.Stakeibc
