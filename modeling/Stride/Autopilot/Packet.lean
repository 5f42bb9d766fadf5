import Stride.Sdk.Bech32
import Stride.Sdk.Bytes

/-!
# Autopilot Packets

The autopilot middleware reads the memo of an incoming transfer. It passes the packet down the
stack first, and then routes it to the module that the memo names. An error acknowledgement
discards everything that was written for the packet.

## Main results

`onRecvPacket_ok`: what a packet with autopilot metadata passed that was accepted.
-/

namespace Stride.Autopilot

open Stride.Sdk

/-! ## Metadata -/

inductive StakeibcAction where
  | liquidStake
  | redeemStake
  | unsupported (action : String)
  deriving DecidableEq

structure StakeibcPacketMetadata where
  action : StakeibcAction
  strideAddress : String
  ibcReceiver : String
  transferChannel : String
  deriving DecidableEq

/-- What the memo says for autopilot. The address of a module is overwritten by the receiver. -/
structure RawAutopilotMetadata where
  receiver : String
  stakeibc : Option StakeibcPacketMetadata
  claim : Bool
  deriving DecidableEq

/-- A memo that is JSON. Of the other middlewares it only matters whether they are named. -/
structure RawPacketMetadata where
  autopilot : Option RawAutopilotMetadata
  forward : Bool
  wasm : Bool
  deriving DecidableEq

structure Memo where
  length : ℕ
  /-- What the memo is, if it is JSON. -/
  raw : Option RawPacketMetadata
  deriving DecidableEq

inductive ModuleRoutingInfo where
  | stakeibc (metadata : StakeibcPacketMetadata)
  | claim (strideAddress : String)
  deriving DecidableEq

structure AutopilotMetadata where
  receiver : String
  routingInfo : ModuleRoutingInfo
  deriving DecidableEq

/-- `AccAddressFromBech32` of a stride address, as a check. -/
def validAddress (address : String) : Bool := (accAddressFromBech32 address "stride").isOk

/-- `Validate` of the routing info. -/
def ModuleRoutingInfo.validate : ModuleRoutingInfo → Result Unit
  | .stakeibc metadata => do
    require (validAddress metadata.strideAddress) .plain "decoding bech32 failed"
    match metadata.action with
    | .unsupported action =>
      wrapf .errUnsupportedStakeibcAction s!"action {action} is not supported"
    | _ => return ()
  | .claim strideAddress => require (validAddress strideAddress) .plain "decoding bech32 failed"

/-- The module that the memo names. -/
def routingInfoOf (autopilot : RawAutopilotMetadata) : Result ModuleRoutingInfo :=
  match autopilot.stakeibc, autopilot.claim with
  | some stakeibc, false => .ok (.stakeibc { stakeibc with strideAddress := autopilot.receiver })
  | none, true => .ok (.claim autopilot.receiver)
  | _, _ => wrapf .errInvalidPacketMetadata
      "invalid number of module routes, only 1 module is allowed at a time"

/-- `ParseAutopilotMetadata`. Without autopilot metadata there is nothing to do. -/
def parseAutopilotMetadata (memo : Memo) : Result (Option AutopilotMetadata) :=
  match memo.raw with
  | none => .ok none
  | some raw =>
    let middlewareModulesEnabled := raw.autopilot.isSome.toNat + raw.forward.toNat + raw.wasm.toNat
    if 1 < middlewareModulesEnabled then
      wrapf .errInvalidPacketMetadata
        "only one of autopilot, pfm, and wasm can both be used in the same packet"
    else
      match raw.autopilot with
      | none => .ok none
      | some autopilot => do
        require (validAddress autopilot.receiver) .errInvalidPacketMetadata
          "receiver address must be specified when using autopilot"
        let routingInfo ← routingInfoOf autopilot
        wrapError routingInfo.validate "invalid packet metadata"
        return some ⟨autopilot.receiver, routingInfo⟩

/-! ## Packets -/

structure FungibleTokenPacketData where
  denom : String
  /-- The amount, if it can be parsed. -/
  amount : Option ℤ
  sender : String
  receiver : String
  memo : Memo
  deriving DecidableEq

structure Packet where
  sequence : ℕ
  sourcePort : String
  sourceChannel : String
  destPort : String
  destChannel : String
  /-- The transfer, if the data can be read as one. -/
  data : Option FungibleTokenPacketData
  deriving DecidableEq

/-! ## The middleware -/

/-- The stack below the middleware and the modules it routes to. -/
structure Routes (S : Type) where
  /-- `OnRecvPacket` of the stack below. An error is an error acknowledgement. -/
  recv : S → Packet → FungibleTokenPacketData → Result S
  stakeibcActive : S → Bool
  claimActive : S → Bool
  generateHashedAddress : String → String → Result String
  tryLiquidStaking : S → Packet → FungibleTokenPacketData → StakeibcPacketMetadata → Result S
  tryRedeemStake : S → Packet → FungibleTokenPacketData → StakeibcPacketMetadata → Result S
  tryUpdateAirdropClaim : S → Packet → FungibleTokenPacketData → Result S

def maxMemoCharLength : ℕ := 4000

def maxReceiverCharLength : ℕ := 100

variable {S : Type}

/-- The receiver of a liquid stake that is forwarded is a hashed address. -/
def overrideReceiver (routes : Routes S) (packet : Packet) (data : FungibleTokenPacketData)
    (routingInfo : ModuleRoutingInfo) : Result FungibleTokenPacketData :=
  match routingInfo with
  | .stakeibc metadata =>
    if metadata.action = .liquidStake ∧ metadata.ibcReceiver ≠ "" then do
      let hashedReceiver ← routes.generateHashedAddress packet.destChannel data.sender
      return { data with receiver := hashedReceiver }
    else .ok data
  | .claim _ => .ok data

/-- The module that a packet is routed to, after the transfer went through. -/
def route (routes : Routes S) (s : S) (packet : Packet) (data : FungibleTokenPacketData)
    (routingInfo : ModuleRoutingInfo) : Result S :=
  match routingInfo with
  | .stakeibc metadata => do
    require (routes.stakeibcActive s) .errPacketForwardingInactive
      "autopilot packet forwarding is disabled"
    match metadata.action with
    | .liquidStake => routes.tryLiquidStaking s packet data metadata
    | .redeemStake => routes.tryRedeemStake s packet data metadata
    | .unsupported _ => return s
  | .claim _ => do
    require (routes.claimActive s) .errPacketForwardingInactive
      "autopilot packet forwarding is disabled"
    routes.tryUpdateAirdropClaim s packet data

/-- The checks of `OnRecvPacket` before the memo is read. -/
def checkPacketData (data : FungibleTokenPacketData) : Result Unit := do
  require (data.memo.length ≤ maxMemoCharLength) .errInvalidMemoLength
    s!"memo length: {data.memo.length}"
  require ((bytes data.receiver).length ≤ maxReceiverCharLength) .errInvalidReceiverLength
    s!"receiver length: {(bytes data.receiver).length}"
  require (validAddress data.receiver) .errInvalidReceiverAddress data.receiver

/-- What a memo says for autopilot, if it is not empty. -/
def readMemo (memo : Memo) : Result (Option AutopilotMetadata) :=
  if memo.length = 0 then .ok none else parseAutopilotMetadata memo

/-- `OnRecvPacket`. An error is an error acknowledgement. -/
def onRecvPacket (routes : Routes S) (s : S) (packet : Packet) : Result S :=
  match packet.data with
  | none => wrapf .plain "cannot unmarshal ICS-20 transfer packet data"
  | some data => do
    checkPacketData data
    -- a transfer without a memo, or with a memo for somebody else
    match ← readMemo data.memo with
    | none => routes.recv s packet data
    | some metadata =>
      require (data.receiver = metadata.receiver) .errInvalidReceiverAddress
        (s!"the transfer receiver ({data.receiver}) must match the autopilot receiver " ++
          s!"({metadata.receiver})")
      let data ← overrideReceiver routes packet data metadata.routingInfo
      let s ← routes.recv s packet data
      route routes s packet data metadata.routingInfo

/-! ## Accepted packets -/

variable {routes : Routes S} {s s' : S} {packet : Packet}

theorem onRecvPacket_ok {data : FungibleTokenPacketData} {metadata : AutopilotMetadata}
    (hdata : packet.data = some data) (hmemo : readMemo data.memo = .ok (some metadata))
    (h : onRecvPacket routes s packet = .ok s') :
    ∃ data' s₁, validAddress data.receiver = true ∧ data.receiver = metadata.receiver ∧
      overrideReceiver routes packet data metadata.routingInfo = .ok data' ∧
      routes.recv s packet data' = .ok s₁ ∧
      route routes s₁ packet data' metadata.routingInfo = .ok s' := by
  unfold onRecvPacket at h
  rw [hdata] at h
  obtain ⟨_, hchecked, h⟩ := bind_eq_ok.mp h
  obtain ⟨read, hread, h⟩ := bind_eq_ok.mp h
  rw [hmemo] at hread
  cases hread
  obtain ⟨_, hsame, h⟩ := bind_eq_ok.mp h
  obtain ⟨data', hoverride, h⟩ := bind_eq_ok.mp h
  obtain ⟨s₁, hrecv, hroute⟩ := bind_eq_ok.mp h
  obtain ⟨_, -, hchecked⟩ := bind_eq_ok.mp hchecked
  obtain ⟨_, -, hvalid⟩ := bind_eq_ok.mp hchecked
  exact ⟨data', s₁, require_eq_ok.mp hvalid, require_eq_ok.mp hsame, hoverride, hrecv, hroute⟩

end Stride.Autopilot
