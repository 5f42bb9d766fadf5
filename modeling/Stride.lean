import Stride.IcaCallbacks.Dispatch
import Stride.Stakeibc.NativeConservation
import Stride.InterchainQuery.QueryIds
import Stride.Stakeibc.Calibration
import Stride.Stakeibc.SlashQuery
import Stride.Stakeibc.SlashQueryLock
import Stride.Stakeibc.ValidatorRemoval
import Stride.Stakeibc.ClaimOnce
import Stride.Stakeibc.ValueLocked
import Stride.Stakeibc.LSMRate
import Stride.Stakeibc.MintSafety
import Stride.Stakeibc.LSMDepositLife
import Stride.Stakeibc.IcaTimeout
import Stride.Stakedym.ClaimFunding
import Stride.Stakedym.DelegationConservation
import Stride.Airdrops.Conservation
import Stride.Airdrops.AllocationBounds
import Stride.Claim.RecordScan
import Stride.Autopilot.AirdropClaim
import Stride.Claim.TotalWeight
import Stride.IcaOracle.MetricQueue
import Stride.Stakeibc.RedemptionUnbonding
import Stride.Stakeibc.SweepMaturity
import Stride.IcqOracle.Refresh
import Stride.Stakeibc.StakeAndRedeem
import Stride.Stakeibc.AllUnbondings
import Stride.Stakeibc.UnbondingDilution
import Stride.Stakeibc.Reconciliation
