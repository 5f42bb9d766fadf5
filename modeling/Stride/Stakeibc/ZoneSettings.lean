import Stride.Stakeibc.HostZone

/-!
# Settings and Safety Bounds of Host Zones

What the messages of users read of a host zone besides its delegation book. The source keeps
the settings in the host zone itself; here they stand beside it, by chain id.
-/

namespace Stride.Stakeibc

open Stride.Sdk

/-- Parameters of the module, in percent. -/
structure SafetyParams where
  defaultMinRedemptionRateThreshold : ℕ
  defaultMaxRedemptionRateThreshold : ℕ
  deriving DecidableEq

/-- Settings of a host zone. A bound that is `none` is nil in the source. -/
structure ZoneSettings where
  bech32Prefix : String
  ibcDenom : String
  transferChannelId : String
  depositAddress : String
  redemptionsEnabled : Bool
  lsmLiquidStakeEnabled : Bool
  minRedemptionRate : Option LegacyDec
  maxRedemptionRate : Option LegacyDec
  minInnerRedemptionRate : Option LegacyDec
  maxInnerRedemptionRate : Option LegacyDec
  deriving DecidableEq

/-- The settings of a zone with the default safety bounds. -/
def plainSettings (bech32Prefix depositAddress : String) : ZoneSettings where
  bech32Prefix := bech32Prefix
  ibcDenom := "ibc/uatom"
  transferChannelId := "channel-0"
  depositAddress := depositAddress
  redemptionsEnabled := true
  lsmLiquidStakeEnabled := true
  minRedemptionRate := none
  maxRedemptionRate := none
  minInnerRedemptionRate := none
  maxInnerRedemptionRate := none

def stAssetDenomFromHostZoneDenom (hostZoneDenom : String) : String := "st" ++ hostZoneDenom

theorem stAssetDenomFromHostZoneDenom_inj {d d' : String}
    (h : stAssetDenomFromHostZoneDenom d = stAssetDenomFromHostZoneDenom d') : d = d' := by
  have hlist := congrArg String.toList h
  simp only [stAssetDenomFromHostZoneDenom, String.toList_append] at hlist
  exact String.toList_inj.mp (List.append_cancel_left hlist)

/-- A bound of the zone counts if it is set, positive and `tighter` than the one it replaces. -/
def boundOr (bound : Option LegacyDec) (tighter : LegacyDec → Bool) (fallback : LegacyDec) :
    LegacyDec :=
  match bound with
  | none => fallback
  | some d => if 0 < d.i ∧ tighter d then d else fallback

def getOuterSafetyBounds (params : SafetyParams) (settings : ZoneSettings) :
    Result (LegacyDec × LegacyDec) := do
  let minSafetyThreshold ← (LegacyDec.fromInt params.defaultMinRedemptionRateThreshold).quo
    (LegacyDec.fromInt 100)
  let maxSafetyThreshold ← (LegacyDec.fromInt params.defaultMaxRedemptionRateThreshold).quo
    (LegacyDec.fromInt 100)
  return (boundOr settings.minRedemptionRate (fun _ => true) minSafetyThreshold,
    boundOr settings.maxRedemptionRate (fun _ => true) maxSafetyThreshold)

def getInnerSafetyBounds (params : SafetyParams) (settings : ZoneSettings) :
    Result (LegacyDec × LegacyDec) := do
  let (minSafetyThreshold, maxSafetyThreshold) ← getOuterSafetyBounds params settings
  return (boundOr settings.minInnerRedemptionRate (fun d => minSafetyThreshold.i < d.i)
      minSafetyThreshold,
    boundOr settings.maxInnerRedemptionRate (fun d => d.i < maxSafetyThreshold.i)
      maxSafetyThreshold)

/-- `IsRedemptionRateWithinSafetyBounds`: the source returns true, or false with an error. -/
def isRedemptionRateWithinSafetyBounds (params : SafetyParams) (settings : ZoneSettings)
    (redemptionRate : LegacyDec) : Result Unit := do
  let (minSafetyThreshold, maxSafetyThreshold) ← getOuterSafetyBounds params settings
  require (minSafetyThreshold.i ≤ redemptionRate.i ∧ redemptionRate.i ≤ maxSafetyThreshold.i)
    .errRedemptionRateOutsideSafetyBounds
    s!"redemption rate {redemptionRate.i} is outside safety bounds [{minSafetyThreshold.i}, {maxSafetyThreshold.i}]"
  let (minInnerSafetyThreshold, maxInnerSafetyThreshold) ← getInnerSafetyBounds params settings
  require (minInnerSafetyThreshold.i ≤ redemptionRate.i ∧
      redemptionRate.i ≤ maxInnerSafetyThreshold.i)
    .errRedemptionRateOutsideSafetyBounds
    s!"redemption rate {redemptionRate.i} is outside inner safety bounds [{minInnerSafetyThreshold.i}, {maxInnerSafetyThreshold.i}]"

end Stride.Stakeibc
