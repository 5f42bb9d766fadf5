import Stride.Lib.KVStore
import Mathlib.Data.String.Basic

/-!
# The Epochs Module

The `epochs` module keeps one `EpochInfo` per identifier and looks at each of them at the
beginning of every block. An epoch that starts is written back and the hooks of the other
modules are called.

Times and durations are integers in nanoseconds, and `CurrentEpoch` is an integer: the model does
not wrap an `int64` that is counted up by one per block.
-/

namespace Stride.Epochs

open Stride.Lib

/-! ## Types -/

structure EpochInfo where
  identifier : String
  startTime : ℤ
  duration : ℤ
  currentEpoch : ℤ
  currentEpochStartTime : ℤ
  epochCountingStarted : Bool
  currentEpochStartHeight : ℤ
  deriving DecidableEq

/-- Height and time of the block that is being processed. -/
structure Block where
  height : ℤ
  time : ℤ
  deriving DecidableEq

/-- `EpochHooks`: what the other modules do with their state when an epoch ends or starts. -/
structure EpochHooks (σ : Type) where
  afterEpochEnd : Block → EpochInfo → σ → σ
  beforeEpochStart : Block → EpochInfo → σ → σ

/-- The stored epochs, and the state that the hooks work on. -/
structure EpochsState (σ : Type) where
  epochs : KeyedStore EpochInfo.identifier
  hooked : σ

variable {σ : Type}

/-! ## One epoch -/

def startInitialEpoch (epochInfo : EpochInfo) : EpochInfo :=
  { epochInfo with
    epochCountingStarted := true
    currentEpoch := 1
    currentEpochStartTime := epochInfo.startTime }

def endEpoch (epochInfo : EpochInfo) : EpochInfo :=
  { epochInfo with
    currentEpoch := epochInfo.currentEpoch + 1
    currentEpochStartTime := epochInfo.currentEpochStartTime + epochInfo.duration }

namespace EpochInfo

/-- `!epochInfo.EpochCountingStarted && !epochInfo.StartTime.After(ctx.BlockTime())`. -/
def shouldInitialEpochStart (ctx : Block) (epochInfo : EpochInfo) : Bool :=
  !epochInfo.epochCountingStarted && !decide (epochInfo.startTime > ctx.time)

def shouldEpochStart (ctx : Block) (epochInfo : EpochInfo) : Bool :=
  let epochEndTime := epochInfo.currentEpochStartTime + epochInfo.duration
  decide (ctx.time > epochEndTime) && !epochInfo.shouldInitialEpochStart ctx &&
    !decide (epochInfo.startTime > ctx.time)

/-- The epoch that starts in the block, if one does. -/
def started (ctx : Block) (epochInfo : EpochInfo) : Option EpochInfo :=
  let atHeight := { epochInfo with currentEpochStartHeight := ctx.height }
  if epochInfo.shouldInitialEpochStart ctx then some (startInitialEpoch atHeight)
  else if epochInfo.shouldEpochStart ctx then some (endEpoch atHeight)
  else none

end EpochInfo

/-! ## The block loop -/

/-- The body of the loop in `BeginBlocker`. -/
def beginEpoch (hooks : EpochHooks σ) (ctx : Block) (s : EpochsState σ) (epochInfo : EpochInfo) :
    EpochsState σ :=
  let atHeight := { epochInfo with currentEpochStartHeight := ctx.height }
  if epochInfo.shouldInitialEpochStart ctx then
    let epoch := startInitialEpoch atHeight
    { epochs := s.epochs.set epoch
      hooked := hooks.beforeEpochStart ctx epoch s.hooked }
  else if epochInfo.shouldEpochStart ctx then
    let epoch := endEpoch atHeight
    { epochs := s.epochs.set epoch
      hooked := hooks.beforeEpochStart ctx epoch (hooks.afterEpochEnd ctx epoch s.hooked) }
  else s

/-- `BeginBlocker`. An epoch is written back under the key that the iterator is at, so the
    later values are the ones from before the loop. -/
def beginBlocker (hooks : EpochHooks σ) (ctx : Block) (s : EpochsState σ) : EpochsState σ :=
  s.epochs.values.foldl (beginEpoch hooks ctx) s

/-- The hooks that one epoch runs in a block. -/
def runHooks (hooks : EpochHooks σ) (ctx : Block) (t : σ) (epochInfo : EpochInfo) : σ :=
  match epochInfo.started ctx with
  | none => t
  | some epoch =>
    if epochInfo.shouldInitialEpochStart ctx then hooks.beforeEpochStart ctx epoch t
    else hooks.beforeEpochStart ctx epoch (hooks.afterEpochEnd ctx epoch t)

namespace EpochInfo

theorem identifier_of_started {ctx : Block} {epochInfo epoch : EpochInfo}
    (h : epochInfo.started ctx = some epoch) : epoch.identifier = epochInfo.identifier := by
  simp only [started] at h
  split at h
  · cases h
    rfl
  · split at h
    · cases h
      rfl
    · cases h

def advance (ctx : Block) (epochInfo : EpochInfo) : EpochInfo :=
  (epochInfo.started ctx).getD epochInfo

private theorem identifier_advance (ctx : Block) (epochInfo : EpochInfo) :
    (epochInfo.advance ctx).identifier = epochInfo.identifier := by
  unfold advance
  cases h : epochInfo.started ctx with
  | none => rfl
  | some epoch => exact identifier_of_started h

end EpochInfo

section

variable (hooks : EpochHooks σ) (ctx : Block)

private theorem beginEpoch_eq (s : EpochsState σ) (epochInfo : EpochInfo) :
    beginEpoch hooks ctx s epochInfo =
      { epochs := if (epochInfo.started ctx).isSome then s.epochs.set (epochInfo.advance ctx)
          else s.epochs
        hooked := runHooks hooks ctx s.hooked epochInfo } := by
  unfold beginEpoch runHooks EpochInfo.advance EpochInfo.started
  -- the first condition excludes the second
  cases hinit : epochInfo.shouldInitialEpochStart ctx with
  | true => simp
  | false =>
    cases hstart : epochInfo.shouldEpochStart ctx with
    | true => simp
    | false => simp

private theorem foldl_beginEpoch (l : List EpochInfo) (s : EpochsState σ) :
    l.foldl (beginEpoch hooks ctx) s =
      { epochs := l.foldl (fun t e => if (e.started ctx).isSome then t.set (e.advance ctx) else t)
          s.epochs
        hooked := l.foldl (runHooks hooks ctx) s.hooked } := by
  induction l generalizing s with
  | nil => rfl
  | cons e l ih =>
    simp only [List.foldl_cons]
    rw [ih, beginEpoch_eq]

/-- Each stored epoch advances by itself. -/
theorem get?_beginBlocker (s : EpochsState σ) (id : String) :
    (beginBlocker hooks ctx s).epochs.get? id = (s.epochs.get? id).map (·.advance ctx) := by
  unfold beginBlocker
  rw [foldl_beginEpoch]
  rw [KeyedStore.get?_foldl_set_values (p := fun e : EpochInfo => (e.started ctx).isSome = true)
    (g := EpochInfo.advance ctx) (EpochInfo.identifier_advance ctx)]
  congr 1
  funext e
  split
  · rfl
  · rename_i hnone
    rw [Option.not_isSome_iff_eq_none] at hnone
    simp [EpochInfo.advance, hnone]

/-- The hooks run once for every epoch that starts in the block. -/
theorem hooked_beginBlocker (s : EpochsState σ) :
    (beginBlocker hooks ctx s).hooked = s.epochs.values.foldl (runHooks hooks ctx) s.hooked := by
  unfold beginBlocker
  rw [foldl_beginEpoch]

end

end Stride.Epochs
