import Stride.Epochs.Keeper
import Stride.Sdk.Math
import Mathlib.Data.Set.Card
import Mathlib.Order.Interval.Finset.Nat
import Mathlib.Order.Interval.Set.Infinite

/-!
# Epochs Start on Schedule

`stakeibc` hooks into the start of every epoch and keeps a tracker with the number of the
running epoch and the time of the next start. Here blocks arrive at arbitrary non-decreasing
times, and every call of the hook is logged together with its block.
-/

namespace Stride.Stakeibc

open Lib Sdk Epochs List

/-! ## The tracker of stakeibc -/

structure EpochTracker where
  epochIdentifier : String
  epochNumber : ℕ
  nextEpochStartTime : ℕ
  duration : ℕ
  deriving DecidableEq

def int64ToUint64E (i : ℤ) : Result ℕ :=
  if i < 0 then
    .error ⟨.plain, s!"int64 value {i} is negative and can't be converted to uint64"⟩
  else .ok i.toNat

/-- `Time.UnixNano`, an `int64`. -/
def unixNano (t : ℤ) : ℤ := t.bmod (2 ^ 64)

/-- An error of a conversion as `ErrIntCast`. -/
def wrapIntCast (x : Result ℕ) : Result ℕ :=
  x.mapError fun e => ⟨.errIntCast, e.message⟩

def updateEpochTracker (trackers : KeyedStore EpochTracker.epochIdentifier)
    (epochInfo : EpochInfo) : Result (ℕ × KeyedStore EpochTracker.epochIdentifier) := do
  let epochNumber ← wrapIntCast (int64ToUint64E epochInfo.currentEpoch)
  let epochDurationNano ← wrapIntCast (int64ToUint64E epochInfo.duration)
  let nextEpochStartTime ← wrapIntCast
    (int64ToUint64E (unixNano (epochInfo.currentEpochStartTime + epochInfo.duration)))
  let epochTracker : EpochTracker :=
    { epochIdentifier := epochInfo.identifier
      epochNumber := epochNumber
      duration := epochDurationNano
      nextEpochStartTime := nextEpochStartTime }
  return (epochNumber, trackers.set epochTracker)

/-! ## Runs of blocks -/

/-- A call of the before-epoch-start hook. -/
structure EpochStart where
  block : Block
  epoch : EpochInfo
  deriving DecidableEq

/-- The trackers, and the log of the calls. -/
structure HookLog where
  trackers : KeyedStore EpochTracker.epochIdentifier
  started : List EpochStart

/-- The hooks of `stakeibc`. A tracker that cannot be computed is logged and left as it is; the
    work that follows in the hook does not touch the epochs or their trackers. -/
def stakeibcHooks : EpochHooks HookLog where
  afterEpochEnd _ _ t := t
  beforeEpochStart ctx epoch t :=
    { trackers :=
        match updateEpochTracker t.trackers epoch with
        | .error _ => t.trackers
        | .ok (_, trackers) => trackers
      started := t.started ++ [⟨ctx, epoch⟩] }

/-- The state after the begin-blockers of `blocks`. -/
def runBlocks (s : EpochsState HookLog) (blocks : List Block) : EpochsState HookLog :=
  blocks.foldl (fun s b => beginBlocker stakeibcHooks b s) s

/-- The starts of the epoch `id`, in the order of the calls. -/
def startsOf (id : String) (s : EpochsState HookLog) : List EpochStart :=
  s.hooked.started.filter fun f => f.epoch.identifier = id

private theorem runBlocks_concat (s : EpochsState HookLog) (blocks : List Block) (b : Block) :
    runBlocks s (blocks ++ [b]) = beginBlocker stakeibcHooks b (runBlocks s blocks) := by
  simp [runBlocks]

private theorem started_foldl_runHooks (b : Block) (l : List EpochInfo) (t : HookLog) :
    (l.foldl (runHooks stakeibcHooks b) t).started =
      t.started ++ l.filterMap fun e => (e.started b).map (EpochStart.mk b) := by
  induction l generalizing t with
  | nil => simp
  | cons e l ih =>
    rw [foldl_cons, ih]
    cases he : e.started b with
    | none => simp [runHooks, he]
    | some epoch =>
      have hlog : (runHooks stakeibcHooks b t e).started = t.started ++ [⟨b, epoch⟩] := by
        simp only [runHooks, he]
        split <;> rfl
      simp [hlog, he]

private theorem startsOf_beginBlocker (id : String) (b : Block) (s : EpochsState HookLog) :
    startsOf id (beginBlocker stakeibcHooks b s) =
      startsOf id s ++ (((s.epochs.get? id).bind (·.started b)).map (EpochStart.mk b)).toList := by
  unfold startsOf
  rw [hooked_beginBlocker, started_foldl_runHooks, filter_append, filter_filterMap]
  -- an epoch keeps its identifier, so the filter can be applied to the stored epochs
  have hfilter : (fun e : EpochInfo => ((e.started b).map (EpochStart.mk b)).filter
        fun f => f.epoch.identifier = id) =
      fun e => if decide (e.identifier = id) = true then (e.started b).map (EpochStart.mk b)
        else none := by
    funext e
    cases he : e.started b with
    | none => simp
    | some epoch =>
      simp [Option.filter, EpochInfo.identifier_of_started he]
  rw [hfilter, ← filterMap_filter, KeyedStore.filter_values]
  cases s.epochs.get? id with
  | none => rfl
  | some e => cases he : e.started b <;> simp [he]

/-! ## The schedule -/

/-- The time at which the `n`-th epoch should start. -/
def nominalStart (info : EpochInfo) (n : ℤ) : ℤ := info.startTime + (n - 1) * info.duration

/-- The epochs whose nominal start has passed at time `t`. -/
def nominalStarts (info : EpochInfo) (t : ℤ) : Set ℕ := {n | 1 ≤ n ∧ nominalStart info n ≤ t}

private theorem nominalStart_succ (info : EpochInfo) (n : ℤ) :
    nominalStart info (n + 1) = nominalStart info n + info.duration := by
  unfold nominalStart
  ring

private theorem nominalStart_mono {info : EpochInfo} (hdur : 0 < info.duration) {m n : ℤ}
    (h : m ≤ n) :
    nominalStart info m ≤ nominalStart info n := by
  unfold nominalStart
  have := mul_le_mul_of_nonneg_right (sub_le_sub_right h 1) hdur.le
  omega

private theorem finite_nominalStarts {info : EpochInfo} (hdur : 0 < info.duration) (t : ℤ) :
    (nominalStarts info t).Finite := by
  apply (Set.finite_Iic ((t - info.startTime).toNat + 1)).subset
  rintro n ⟨hn, hle⟩
  unfold nominalStart at hle
  have hn' : (0 : ℤ) ≤ (n : ℤ) - 1 := by omega
  have hmul : (n : ℤ) - 1 ≤ ((n : ℤ) - 1) * info.duration := le_mul_of_one_le_right hn' hdur
  simp only [Set.mem_Iic]
  omega

private theorem le_ncard_nominalStarts {info : EpochInfo} (hdur : 0 < info.duration) {k : ℕ} {t : ℤ}
    (h : 0 < k → nominalStart info k ≤ t) : k ≤ (nominalStarts info t).ncard := by
  have hsub : (Finset.Icc 1 k : Set ℕ) ⊆ nominalStarts info t := by
    intro n hn
    simp only [Finset.coe_Icc, Set.mem_Icc] at hn
    exact ⟨hn.1, (nominalStart_mono hdur (by omega)).trans (h (by omega))⟩
  have hcard := Set.ncard_le_ncard hsub (finite_nominalStarts hdur t)
  rwa [Set.ncard_coe_finset, Nat.card_Icc, Nat.add_sub_cancel] at hcard

/-! ## The stored epoch follows the schedule -/

/-- `e` is the stored record of the configuration `info` after `k` starts. -/
structure AtEpoch (info : EpochInfo) (k : ℕ) (e : EpochInfo) : Prop where
  startTime : e.startTime = info.startTime
  duration : e.duration = info.duration
  counting : e.epochCountingStarted = decide (0 < k)
  number : 0 < k → e.currentEpoch = k
  nominal : 0 < k → e.currentEpochStartTime = nominalStart info k

variable {epoch : EpochInfo} {tracker : EpochTracker}

namespace AtEpoch

variable {info e : EpochInfo} {k : ℕ}

variable {b : Block}

/-- An epoch starts no earlier than its nominal start. -/
theorem of_started (h : AtEpoch info k e) (hs : e.started b = some epoch) :
    AtEpoch info (k + 1) epoch ∧ nominalStart info (k + 1) ≤ b.time := by
  unfold EpochInfo.started at hs
  simp only [EpochInfo.shouldEpochStart, EpochInfo.shouldInitialEpochStart, h.counting] at hs
  split at hs
  · -- the first epoch: counting had not started
    rename_i hinit
    cases hs
    obtain ⟨hk, ht⟩ : k = 0 ∧ e.startTime ≤ b.time := by simpa using hinit
    subst hk
    rw [h.startTime] at ht
    exact ⟨⟨h.startTime, h.duration, rfl, fun _ => rfl,
      fun _ => by simp [startInitialEpoch, nominalStart, h.startTime]⟩, by simpa [nominalStart]⟩
  · split at hs
    · rename_i hstart
      cases hs
      simp only [Bool.and_eq_true, decide_eq_true_eq, Bool.not_eq_true'] at hstart
      obtain ⟨⟨hend, -⟩, hafter⟩ := hstart
      have hpos : 0 < k := by
        by_contra hk
        simp_all
      refine ⟨⟨h.startTime, h.duration, ?counting, ?number, ?nominal⟩, ?time⟩
      case counting =>
        simp [endEpoch, hpos]
      case number =>
        simp [endEpoch, h.number hpos]
      case nominal =>
        intro _
        simp only [endEpoch]
        push_cast
        rw [nominalStart_succ, h.nominal hpos, h.duration]
      case time =>
        rw [nominalStart_succ]
        rw [h.nominal hpos, h.duration] at hend
        exact hend.le
    · cases hs

private theorem exists_started (h : AtEpoch info k e) (hdur : 0 < info.duration)
    (hlate : nominalStart info (k + 1) < b.time) : ∃ epoch, e.started b = some epoch := by
  have hstart : info.startTime ≤ nominalStart info (k + 1) := by
    have := nominalStart_mono hdur (show (1 : ℤ) ≤ k + 1 by omega)
    simpa [nominalStart] using this
  have hnot : ¬ b.time < e.startTime := by
    rw [h.startTime]
    omega
  unfold EpochInfo.started
  simp only [EpochInfo.shouldEpochStart, EpochInfo.shouldInitialEpochStart, h.counting]
  rcases Nat.eq_zero_or_pos k with rfl | hpos
  · simp [hnot]
  · have hend : e.currentEpochStartTime + e.duration < b.time := by
      rw [h.nominal hpos, h.duration, ← nominalStart_succ]
      exact hlate
    simp [hpos, hnot, hend]

end AtEpoch

/-- The starts of `id` in `s` are those of the schedule of `info`, and the stored epoch is at
    the last of them. -/
structure OnSchedule (id : String) (info : EpochInfo) (s : EpochsState HookLog) : Prop where
  stored : ∃ e, s.epochs.get? id = some e ∧ AtEpoch info (startsOf id s).length e
  numbers : (startsOf id s).map (·.epoch.currentEpoch) =
    (range (startsOf id s).length).map fun i : ℕ => (i : ℤ) + 1
  nominal : ∀ f ∈ startsOf id s,
    f.epoch.currentEpochStartTime = nominalStart info f.epoch.currentEpoch ∧
      f.epoch.currentEpochStartTime ≤ f.block.time

variable {id : String} {info : EpochInfo} {s s₀ : EpochsState HookLog}

private theorem OnSchedule.beginBlocker_cases (h : OnSchedule id info s) (b : Block) :
    (startsOf id (beginBlocker stakeibcHooks b s) = startsOf id s ∧
      ∀ e, s.epochs.get? id = some e → e.started b = none) ∨
    ∃ epoch, startsOf id (beginBlocker stakeibcHooks b s) = startsOf id s ++ [⟨b, epoch⟩] ∧
      (beginBlocker stakeibcHooks b s).epochs.get? id = some epoch ∧
      AtEpoch info ((startsOf id s).length + 1) epoch ∧
      nominalStart info ((startsOf id s).length + 1) ≤ b.time := by
  obtain ⟨e, he, hat⟩ := h.stored
  rw [startsOf_beginBlocker, get?_beginBlocker, he]
  cases hs : e.started b with
  | none =>
    refine .inl ⟨by simp [hs], ?_⟩
    rintro _ ⟨⟩
    exact hs
  | some epoch =>
    obtain ⟨hnext, htime⟩ := hat.of_started hs
    exact .inr ⟨epoch, by simp [hs], by simp [EpochInfo.advance, hs], hnext, htime⟩

private theorem OnSchedule.beginBlocker (h : OnSchedule id info s) (b : Block) :
    OnSchedule id info (beginBlocker stakeibcHooks b s) := by
  rcases h.beginBlocker_cases b with ⟨hsame, hnone⟩ | ⟨epoch, hstarts, hget, hat, htime⟩
  · obtain ⟨e, he, hat⟩ := h.stored
    refine ⟨⟨e, ?_, by rwa [hsame]⟩, by rw [hsame]; exact h.numbers, by rw [hsame]; exact h.nominal⟩
    rw [get?_beginBlocker, he]
    simp [EpochInfo.advance, hnone e he]
  · have hnumber := hat.number (Nat.succ_pos _)
    have hnominal := hat.nominal (Nat.succ_pos _)
    refine ⟨⟨epoch, hget, by simpa [hstarts] using hat⟩, ?numbers, ?nominal⟩
    case numbers =>
      rw [hstarts, map_append, h.numbers]
      simp [range_succ, hnumber]
    case nominal =>
      rw [hstarts]
      intro f hf
      rcases mem_append.mp hf with hold | hnew
      · exact h.nominal f hold
      · obtain rfl := mem_singleton.mp hnew
        rw [hnumber, hnominal]
        exact ⟨rfl, htime⟩

private theorem OnSchedule.runBlocks (h : OnSchedule id info s) (blocks : List Block) :
    OnSchedule id info (runBlocks s blocks) := by
  induction blocks using reverseRecOn with
  | nil => exact h
  | append_singleton blocks b ih =>
    rw [runBlocks_concat]
    exact ih.beginBlocker b

private theorem OnSchedule.init (hlog : s₀.hooked.started = [])
    (hget : s₀.epochs.get? id = some info)
    (hnew : info.epochCountingStarted = false) : OnSchedule id info s₀ := by
  have hnil : startsOf id s₀ = [] := by simp [startsOf, hlog]
  refine ⟨⟨info, hget, rfl, rfl, by simp [hnil, hnew], ?_, ?_⟩, by simp [hnil], by simp [hnil]⟩
  · simp [hnil]
  · simp [hnil]

private theorem startsOf_runBlocks_sublist (hlog : s₀.hooked.started = [])
    (h : OnSchedule id info s₀)
    (blocks : List Block) :
    ((startsOf id (runBlocks s₀ blocks)).map (·.block)).Sublist blocks := by
  induction blocks using reverseRecOn with
  | nil => simp [startsOf, runBlocks, hlog]
  | append_singleton blocks b ih =>
    rw [runBlocks_concat]
    rcases (h.runBlocks blocks).beginBlocker_cases b with ⟨hsame, -⟩ | ⟨epoch, hstarts, -⟩
    · rw [hsame]
      exact ih.trans (sublist_append_left ..)
    · rw [hstarts, map_append]
      exact ih.append (Sublist.refl _)

/-- **Epochs advance one by one without drift.** Take an epoch configuration with a positive
    duration whose counting has not started, and blocks at non-decreasing times, of which `b`
    is the last. The hook is called with the numbers 1, 2, 3, ... in order, at most once in a
    block, at or after the nominal start and with the nominal start as `CurrentEpochStartTime`.
    As long as the next nominal start lies before the block, the block starts an epoch; and
    there are never more starts than nominal starts that have passed. -/
theorem before_epoch_start_follows_schedule (hlog : s₀.hooked.started = [])
    (hget : s₀.epochs.get? id = some info) (hnew : info.epochCountingStarted = false)
    (hdur : 0 < info.duration) {blocks : List Block} {b : Block}
    (hblocks : (blocks ++ [b]).Pairwise fun x y => x.height < y.height ∧ x.time ≤ y.time) :
    let before := startsOf id (runBlocks s₀ blocks)
    let starts := startsOf id (runBlocks s₀ (blocks ++ [b]))
    starts.map (·.epoch.currentEpoch) = (range starts.length).map (fun i : ℕ => (i : ℤ) + 1) ∧
      starts.Pairwise (fun f g => f.block.height < g.block.height) ∧
      (∀ f ∈ starts, f.block ∈ blocks ++ [b] ∧
        f.epoch.currentEpochStartTime =
          info.startTime + (f.epoch.currentEpoch - 1) * info.duration ∧
        f.epoch.currentEpochStartTime ≤ f.block.time) ∧
      (nominalStart info (before.length + 1) < b.time → starts.length = before.length + 1) ∧
      starts.length ≤ (nominalStarts info b.time).ncard := by
  intro before starts
  have hinit := OnSchedule.init hlog hget hnew
  have hend := hinit.runBlocks (blocks ++ [b])
  have hsub := startsOf_runBlocks_sublist hlog hinit (blocks ++ [b])
  have hmem : ∀ f ∈ starts, f.block ∈ blocks ++ [b] :=
    fun f hf => hsub.subset (mem_map_of_mem hf)
  have hlast : ∀ x ∈ blocks ++ [b], x.time ≤ b.time := by
    intro x hx
    rcases mem_append.mp hx with hold | hnew
    · exact ((pairwise_append.mp hblocks).2.2 x hold b (mem_singleton_self b)).2
    · rw [mem_singleton.mp hnew]
  refine ⟨hend.numbers, ?once, fun f hf => ⟨hmem f hf, hend.nominal f hf⟩, ?catchUp, ?count⟩
  case once =>
    have hheights := hblocks.sublist hsub
    exact (pairwise_map.mp hheights).imp And.left
  case catchUp =>
    intro hlate
    obtain ⟨e, he, hat⟩ := (hinit.runBlocks blocks).stored
    obtain ⟨epoch, hstarted⟩ := hat.exists_started hdur hlate
    have hstarts : starts = before ++ [⟨b, epoch⟩] := by
      show startsOf id (runBlocks s₀ (blocks ++ [b])) = _
      rw [runBlocks_concat, startsOf_beginBlocker, he]
      simp [hstarted, before]
    rw [hstarts]
    simp
  case count =>
    -- the last start has the largest number, and its nominal start had passed at its block
    apply le_ncard_nominalStarts hdur
    intro hpos
    obtain ⟨f, hf, hnumber⟩ : ∃ f ∈ starts, f.epoch.currentEpoch = starts.length := by
      have hin : (starts.length : ℤ) ∈ starts.map (·.epoch.currentEpoch) := by
        have hnumbers : starts.map (·.epoch.currentEpoch) =
            (range starts.length).map fun i : ℕ => (i : ℤ) + 1 := hend.numbers
        rw [hnumbers]
        exact mem_map.mpr ⟨starts.length - 1, mem_range.mpr (by omega), by omega⟩
      simpa using hin
    obtain ⟨hnominal, htime⟩ := hend.nominal f hf
    rw [← hnumber, ← hnominal]
    exact htime.trans (hlast _ (hmem f hf))

/-- One epoch that starts at time 10 and lasts 5. -/
private def dayEpoch : EpochInfo where
  identifier := "day"
  startTime := 10
  duration := 5
  currentEpoch := 0
  currentEpochStartTime := 0
  epochCountingStarted := false
  currentEpochStartHeight := 0

private def dayEpochOnly : EpochsState HookLog :=
  ⟨KeyedStore.empty.set dayEpoch, ⟨KeyedStore.empty, []⟩⟩

/-- A block before the start, one long after it, and two more that catch up. -/
private def gapBlocks : List Block := [⟨1, 3⟩, ⟨2, 40⟩, ⟨3, 40⟩]

theorem before_epoch_start_catches_up :
    (startsOf "day" (runBlocks dayEpochOnly (gapBlocks ++ [⟨4, 41⟩]))).map
        (·.epoch.currentEpoch) = [1, 2, 3] ∧
      (startsOf "day" (runBlocks dayEpochOnly (gapBlocks ++ [⟨4, 41⟩]))).length ≤
        (nominalStarts dayEpoch 41).ncard := by
  have hlog : dayEpochOnly.hooked.started = [] := rfl
  have hget : dayEpochOnly.epochs.get? "day" = some dayEpoch := by decide
  have hblocks : Pairwise (fun x y : Block => x.height < y.height ∧ x.time ≤ y.time)
      (gapBlocks ++ [⟨4, 41⟩]) := by decide
  have hsched := before_epoch_start_follows_schedule hlog hget rfl (by decide) hblocks
  exact ⟨by decide +kernel, hsched.2.2.2.2⟩

/-! ## The tracker -/

/-- The tracker of an epoch, when its fields fit. -/
def epochTrackerOf (epochInfo : EpochInfo) : Option EpochTracker :=
  if 0 ≤ epochInfo.currentEpoch ∧ 0 ≤ epochInfo.duration ∧
      0 ≤ unixNano (epochInfo.currentEpochStartTime + epochInfo.duration) then
    some
      { epochIdentifier := epochInfo.identifier
        epochNumber := epochInfo.currentEpoch.toNat
        duration := epochInfo.duration.toNat
        nextEpochStartTime :=
          (unixNano (epochInfo.currentEpochStartTime + epochInfo.duration)).toNat }
  else none

theorem identifier_of_epochTrackerOf (h : epochTrackerOf epoch = some tracker) :
    tracker.epochIdentifier = epoch.identifier := by
  unfold epochTrackerOf at h
  split at h
  · cases h
    rfl
  · cases h

private theorem wrapIntCast_int64ToUint64E (i : ℤ) :
    (0 ≤ i ∧ wrapIntCast (int64ToUint64E i) = .ok i.toNat) ∨
      (i < 0 ∧ ∃ e, wrapIntCast (int64ToUint64E i) = .error e) := by
  unfold int64ToUint64E
  rcases lt_or_ge i 0 with hneg | hnonneg
  · exact .inr ⟨hneg, _, by rw [if_pos hneg]; rfl⟩
  · exact .inl ⟨hnonneg, by rw [if_neg (not_lt.mpr hnonneg)]; rfl⟩

theorem updateEpochTracker_eq (trackers : KeyedStore EpochTracker.epochIdentifier)
    (epoch : EpochInfo) :
    (updateEpochTracker trackers epoch).toOption =
      (epochTrackerOf epoch).map fun tracker => (tracker.epochNumber, trackers.set tracker) := by
  unfold updateEpochTracker epochTrackerOf
  rcases wrapIntCast_int64ToUint64E epoch.currentEpoch with ⟨h₁, hn⟩ | ⟨h₁, e, hn⟩
  · rcases wrapIntCast_int64ToUint64E epoch.duration with ⟨h₂, hd⟩ | ⟨h₂, e, hd⟩
    · rcases wrapIntCast_int64ToUint64E
        (unixNano (epoch.currentEpochStartTime + epoch.duration)) with ⟨h₃, ht⟩ | ⟨h₃, e, ht⟩
      · rw [hn, hd, ht, if_pos ⟨h₁, h₂, h₃⟩]
        rfl
      · rw [hn, hd, ht, if_neg (by omega)]
        rfl
    · rw [hn, hd, if_neg (by omega)]
      rfl
  · rw [hn, if_neg (by omega)]
    rfl

end Stride.Stakeibc
