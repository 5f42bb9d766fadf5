import Stride.Lib.KVStore
import Stride.Sdk.Math
import Mathlib.Data.String.Basic

/-!
# Oracles over Interchain Accounts

The `icaoracle` module sends metrics, such as redemption rates, to contracts on other chains. Each
oracle has an interchain account, whose ordered channel is closed by a timeout and can be restored
by anyone. A metric waits in a queue until the end of the block, and is then in progress until its
update is acknowledged.

An update that was sent and not yet answered is kept together with the metric that the callback
store has under its packet.
-/

namespace Stride.IcaOracle

open Lib Sdk

/-! ## Types -/

inductive MetricStatus where
  | queued
  | inProgress
  deriving DecidableEq

structure Metric where
  key : String
  value : String
  metricType : String
  updateTime : ℤ
  blockHeight : ℤ
  attributes : String
  destinationOracle : String
  status : MetricStatus
  deriving DecidableEq

/-- `GetMetricID`. -/
def Metric.metricId (m : Metric) : String :=
  s!"{m.key}-{m.value}-{m.updateTime}-{m.destinationOracle}"

structure Oracle where
  chainId : String
  connectionId : String
  channelId : String
  portId : String
  icaAddress : String
  contractAddress : String
  active : Bool
  deriving DecidableEq

namespace Oracle

def validateICASetup (o : Oracle) : Result Unit := do
  require (o.connectionId ≠ "") .errOracleICANotRegistered "connectionId is empty"
  require (o.channelId ≠ "") .errOracleICANotRegistered "channelId is empty"
  require (o.portId ≠ "") .errOracleICANotRegistered "portId is empty"
  require (o.icaAddress ≠ "") .errOracleICANotRegistered "ICAAddress is empty"

def validateContractInstantiated (o : Oracle) : Result Unit :=
  require (o.contractAddress ≠ "") .errOracleNotInstantiated "contract address is empty"

end Oracle

/-- `FormatICAAccountOwner` for the account of an oracle. -/
def formatICAAccountOwner (chainId : String) : String := chainId ++ ".ORACLE"

/-- `NewControllerPortID` of the owner. -/
def oraclePort (chainId : String) : String := "icacontroller-" ++ formatICAAccountOwner chainId

inductive ChannelState where
  | init
  | opened
  | closed
  deriving DecidableEq

structure Channel where
  state : ChannelState
  connectionId : String
  deriving DecidableEq

/-- IBC core and the interchain account controller. Channels are found by port and channel id, the
    other entries by connection and port. -/
structure Ibc where
  channel : String → String → Option Channel
  connectionExists : String → Bool
  activeChannel : String → String → Option String
  interchainAccount : String → String → Option String
  nextSequence : String → String → ℕ

/-- An update that was sent, with the metric in its callback data. -/
structure UpdateIca where
  portId : String
  channelId : String
  sequence : ℕ
  callback : Option Metric
  deriving DecidableEq

structure Keeper where
  oracles : KeyedStore Oracle.chainId
  metrics : KeyedStore Metric.metricId
  metricQueue : KVStore String Unit

structure System where
  keeper : Keeper
  ibc : Ibc
  outstanding : List UpdateIca

/-! ## Stores -/

namespace Keeper

def setMetric (k : Keeper) (metric : Metric) : Keeper :=
  { k with
    metrics := k.metrics.set metric
    metricQueue := match metric.status with
      | .queued => k.metricQueue.set metric.metricId ()
      | .inProgress => k.metricQueue.delete metric.metricId }

def updateMetricStatus (k : Keeper) (metric : Metric) (status : MetricStatus) : Keeper :=
  k.setMetric { metric with status := status }

def removeMetric (k : Keeper) (metricId : String) : Keeper :=
  { k with
    metrics := k.metrics.delete metricId
    metricQueue := k.metricQueue.delete metricId }

def queuedMetric (k : Keeper) (metricId : String) : Result Metric :=
  match k.metrics.get? metricId with
  | some metric => .ok metric
  | none => goPanic "metric in queue but not metric store"

def getAllQueuedMetrics (k : Keeper) : Result (List Metric) :=
  k.metricQueue.keys.mapM k.queuedMetric

/-- `QueueMetricUpdate`: one metric for each active oracle. -/
def queueMetricUpdate (k : Keeper) (blockTime blockHeight : ℤ)
    (key value metricType attributes : String) : Keeper :=
  (k.oracles.values.filter fun oracle => oracle.active).foldl
    (fun k oracle => k.setMetric
      { key := key
        value := value
        metricType := metricType
        updateTime := blockTime
        blockHeight := blockHeight
        attributes := attributes
        destinationOracle := oracle.chainId
        status := .queued }) k

def getOracleFromConnectionId (k : Keeper) (connectionId : String) : Option Oracle :=
  k.oracles.values.find? fun oracle => oracle.connectionId = connectionId

end Keeper

/-! ## Channels -/

namespace Ibc

def isOpen (ibc : Ibc) (portId channelId : String) : Bool :=
  (ibc.channel portId channelId).any fun c => c.state = .opened

def setChannel (ibc : Ibc) (portId channelId : String) (channel : Channel) : Ibc :=
  { ibc with
    channel := fun p c => if p = portId ∧ c = channelId then some channel else ibc.channel p c }

def closeChannel (ibc : Ibc) (portId channelId : String) : Ibc :=
  match ibc.channel portId channelId with
  | some channel => ibc.setChannel portId channelId { channel with state := .closed }
  | none => ibc

/-- `SendTx` of the controller on the active channel. It can also fail if the channel is open, when
    the client has expired or the controller is disabled: then `reply` is an error. The channel and
    the sequence. -/
def sendTx (ibc : Ibc) (reply : Result Unit) (connectionId portId : String) :
    Result (Ibc × String × ℕ) :=
  match ibc.activeChannel connectionId portId with
  | none => wrapf .errActiveChannelNotFound s!"failed to retrieve active channel on port {portId}"
  | some channelId =>
    if ibc.isOpen portId channelId then do
      reply
      let sequence := ibc.nextSequence portId channelId
      return ({ ibc with
        nextSequence := fun p c => if p = portId ∧ c = channelId then sequence + 1
          else ibc.nextSequence p c }, channelId, sequence)
    else wrapf .errActiveChannelNotFound s!"failed to retrieve active channel on port {portId}"

/-- `RegisterInterchainAccount` starts the handshake of a new channel, if there is no active one
    that is not closed. -/
def registerInterchainAccount (ibc : Ibc) (connectionId portId newChannelId : String) :
    Result Ibc := do
  require ((ibc.activeChannel connectionId portId).all fun c =>
      (ibc.channel portId c).all fun channel => channel.state = .closed)
    .errActiveChannelAlreadySet s!"existing active channel for portID {portId}"
  require (newChannelId ≠ "" ∧ (ibc.channel portId newChannelId).isNone) .errInvalidChannelState
    "channel identifiers are new"
  return ibc.setChannel portId newChannelId ⟨.init, connectionId⟩

def initChannel (ibc : Ibc) (portId channelId : String) : Result Channel :=
  match ibc.channel portId channelId with
  | some channel =>
    if channel.state = .init then .ok channel
    else wrapf .errInvalidChannelState s!"channel {channelId} is not in handshake"
  | none => wrapf .errInvalidChannelState s!"channel {channelId} not found"

/-- `OnChanOpenAck` of the controller: the channel is open, and the active one of its port. -/
def onChanOpenAck (ibc : Ibc) (portId channelId address : String) : Result (Ibc × String) := do
  let channel ← ibc.initChannel portId channelId
  require (¬ (ibc.activeChannel channel.connectionId portId).any fun c => ibc.isOpen portId c)
    .errActiveChannelAlreadySet s!"existing active channel for portID {portId}"
  require (address ≠ "") .errInvalidAddress "interchain account address cannot be empty"
  let ibc := ibc.setChannel portId channelId { channel with state := .opened }
  return ({ ibc with
    activeChannel := fun conn p => if conn = channel.connectionId ∧ p = portId then some channelId
      else ibc.activeChannel conn p
    interchainAccount := fun conn p => if conn = channel.connectionId ∧ p = portId then some address
      else ibc.interchainAccount conn p }, channel.connectionId)

end Ibc

namespace System

def isOracleICAChannelOpen (s : System) (oracle : Oracle) : Bool :=
  s.ibc.isOpen oracle.portId oracle.channelId

/-! ## Postings -/

/-- `SubmitICATx`: the callback data is stored under the port and the channel of the oracle, so that
    it is found under the packet if this is the channel the packet is sent on. -/
def submitICATx (s : System) (reply : Result Unit) (oracle : Oracle) (metric : Metric) :
    Result System := do
  require (oracle.connectionId ≠ "") .errInvalidICARequest "connection-id is empty"
  require (oracle.channelId ≠ "") .errInvalidICARequest "channel-id is empty"
  require (oracle.portId ≠ "") .errInvalidICARequest "port-id is empty"
  let (ibc, channelId, sequence) ← wrapError
    (s.ibc.sendTx reply oracle.connectionId (oraclePort oracle.chainId)) "unable to send ICA tx"
  let callback :=
    if oracle.portId = oraclePort oracle.chainId ∧ oracle.channelId = channelId then some metric
    else none
  return { s with
    ibc := ibc
    outstanding := s.outstanding ++
      [⟨oraclePort oracle.chainId, channelId, sequence, callback⟩] }

def submitMetricUpdate (s : System) (reply : Result Unit) (oracle : Oracle) (metric : Metric) :
    Result System := do
  oracle.validateICASetup
  oracle.validateContractInstantiated
  require oracle.active .errOracleInactive s!"oracle ({oracle.chainId}) is inactive"
  wrapError (s.submitICATx reply oracle metric) "unable to submit update oracle contract ICA"

/-- One turn of the loop of `PostAllQueuedMetrics`. `replies` are those of the controller, by the id
    of the metric. -/
def postMetric (replies : String → Result Unit) (s : System) (metric : Metric) : System :=
  match s.keeper.oracles.get? metric.destinationOracle with
  | none => s
  | some oracle =>
    if oracle.active then
      -- the metric is in progress even if the submission fails
      let s := { s with keeper := s.keeper.updateMetricStatus metric .inProgress }
      if s.isOracleICAChannelOpen oracle then
        match s.submitMetricUpdate (replies metric.metricId) oracle metric with
        | .ok s => s
        | .error _ => s
      else s
    else s

/-- `PostAllQueuedMetrics`, at the end of a block. -/
def postAllQueuedMetrics (s : System) (replies : String → Result Unit) : Result System := do
  let metrics ← s.keeper.getAllQueuedMetrics
  return metrics.foldl (postMetric replies) s

/-! ## Callbacks -/

inductive AckStatus where
  | success
  | failure
  | timeout
  deriving DecidableEq

def updateOracleCallback (k : Keeper) (status : AckStatus) (metric : Metric) : Result Keeper :=
  if status = .timeout then .ok k
  else if metric.key = "" then wrapf .errInvalidCallback "metric is missing from callback"
  else .ok (k.removeMetric metric.metricId)

/-- The callback of an update, if its data is found. -/
def callICACallback (k : Keeper) (status : AckStatus) : Option Metric → Result Keeper
  | none => .ok k
  | some metric => updateOracleCallback k status metric

/-- The answer to an update. A timeout closes the channel. -/
def answer (s : System) (ica : UpdateIca) (status : AckStatus) : Result System := do
  require (ica ∈ s.outstanding) .errKeyNotFound "packet commitment not found"
  let keeper ← callICACallback s.keeper status ica.callback
  return { s with
    keeper := keeper
    ibc := if status = .timeout then s.ibc.closeChannel ica.portId ica.channelId else s.ibc
    outstanding := s.outstanding.erase ica }

/-! ## Restores -/

def findOracle (k : Keeper) (chainId : String) : Result Oracle :=
  match k.oracles.get? chainId with
  | some oracle => .ok oracle
  | none => wrapf .errOracleNotFound "oracle not found"

/-- The metrics of an oracle that are in progress go back to the queue. -/
def requeueMetrics (k : Keeper) (chainId : String) : Keeper :=
  (k.metrics.values.filter fun metric =>
      metric.destinationOracle = chainId ∧ metric.status = .inProgress).foldl
    (fun k metric => k.updateMetricStatus metric .queued) k

def restoreOracleICA (s : System) (oracleChainId newChannelId : String) : Result System := do
  let oracle ← findOracle s.keeper oracleChainId
  wrapError oracle.validateICASetup
    s!"the oracle ({oracle.chainId}) has never had an registered ICA"
  require (¬ s.isOracleICAChannelOpen oracle) .errUnableToRestoreICAChannel
    s!"channel already open, chain-id: {oracle.chainId}, channel-id: {oracle.channelId}"
  require (s.ibc.connectionExists oracle.connectionId) .errNotFound
    s!"connection ({oracle.connectionId}) not found"
  require ((s.ibc.interchainAccount oracle.connectionId (oraclePort oracle.chainId)).isSome)
    .errICAAccountDoesNotExist s!"cannot find ICA account for connection ({oracle.connectionId})"
  let ibc ← wrapError (s.ibc.registerInterchainAccount oracle.connectionId
    (oraclePort oracle.chainId) newChannelId) "unable to register oracle interchain account"
  return { s with keeper := requeueMetrics s.keeper oracleChainId, ibc := ibc }

def oracleOfChannel (k : Keeper) (connectionId portId : String) : Option Oracle :=
  (k.getOracleFromConnectionId connectionId).filter fun oracle =>
    portId = oraclePort oracle.chainId

/-- The account that the controller has stored. -/
def findAccount (ibc : Ibc) (connectionId portId : String) : Result String :=
  match ibc.interchainAccount connectionId portId with
  | some address => .ok address
  | none => wrapf .errInterchainAccountNotFound
      s!"unable to get ica address from connection ({connectionId})"

/-- `OnChanOpenAck`, after the controller has opened the channel. -/
def onChanOpenAck (s : System) (portId channelId address : String) : Result System := do
  let (ibc, connectionId) ← s.ibc.onChanOpenAck portId channelId address
  match oracleOfChannel s.keeper connectionId portId with
  | none => return { s with ibc := ibc }
  | some oracle => do
    let icaAddress ← findAccount ibc connectionId portId
    let oracle := { oracle with icaAddress := icaAddress, channelId := channelId, portId := portId }
    return { s with
      keeper := { s.keeper with oracles := s.keeper.oracles.set oracle }, ibc := ibc }

end System

end Stride.IcaOracle
