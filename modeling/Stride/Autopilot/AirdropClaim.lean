import Stride.Autopilot.Packet
import Stride.Claim.Keeper
import Stride.Lib.Runs

/-!
# Claim Packets of Autopilot

A claim packet moves the claim record of its sender, whose address is converted to a stride address,
to the receiver of the packet. The record is written under the new address first, and then removed
under the old one.
-/

namespace Stride.Claim

open Lib Sdk KeyedStore

namespace Keeper

variable {k k' : Keeper} {airdropId existing new : String}

private theorem findClaimRecord_ok {address : String} {found : AccAddress × ClaimRecord}
    (h : k.findClaimRecord address airdropId = .ok found) :
    accAddress address = .ok found.1 ∧ k.getClaimRecord found.1 airdropId = some found.2 := by
  unfold findClaimRecord at h
  split at h
  · cases h
  rename_i addr haddr
  split at h
  · cases h
  rename_i record hrecord
  cases h
  exact ⟨haddr, hrecord⟩

private theorem updateAirdropAddress_ok
    (h : k.updateAirdropAddress existing new airdropId = .ok k') :
    ∃ account record, ∃ stored : StoredRecord, accAddress existing = .ok account ∧
      k.getClaimRecord account airdropId = some record ∧
      stored.record = { record with address := new } ∧
      k' = { k with
        claimRecords :=
          (k.claimRecords.set stored).delete (claimRecordKey airdropId account) } := by
  obtain ⟨_, -, h⟩ := bind_eq_ok.mp h
  obtain ⟨_, -, h⟩ := bind_eq_ok.mp h
  obtain ⟨⟨account, record⟩, hfound, h⟩ := bind_eq_ok.mp h
  obtain ⟨haccount, hrecord⟩ := findClaimRecord_ok hfound
  obtain ⟨k₁, hset, h⟩ := bind_eq_ok.mp h
  obtain ⟨stored, hstored, rfl⟩ := setClaimRecord_ok (wrapError_eq_ok.mp hset)
  cases h
  exact ⟨account, record, stored, haccount, hrecord, hstored, rfl⟩

/-- A record that moved from one account to another, and nothing else changed. -/
structure Moved (k k' : Keeper) (airdropId : String) (account newAccount : AccAddress)
    (newAddress : String) : Prop where
  others : ∀ r ∈ k.claimRecords.values,
    (r.record.airdropIdentifier, r.account) ≠ (airdropId, account) → r ∈ k'.claimRecords.values
  survives : ∃ record, k.getClaimRecord account airdropId = some record ∧
    k'.getClaimRecord newAccount airdropId = some { record with address := newAddress }
  weight : ∀ id, k'.weightOf id = k.weightOf id

/-- **An update moves the record**, if it is one of the airdrop and nothing is stored at the new
    address. -/
theorem Moved.of_update {account newAccount : AccAddress}
    (h : k.updateAirdropAddress existing new airdropId = .ok k')
    (haccount : accAddress existing = .ok account) (hnew : accAddress new = .ok newAccount)
    (hown : ∀ r, k.claimRecords.get? (claimRecordKey airdropId account) = some r →
      r.record.airdropIdentifier = airdropId)
    (hfree : k.claimRecords.get? (claimRecordKey airdropId newAccount) = none) :
    Moved k k' airdropId account newAccount new := by
  obtain ⟨account', record, stored, haccount', hrecord, hstored, rfl⟩ := updateAirdropAddress_ok h
  obtain rfl : account' = account := Except.ok.inj (haccount'.symm.trans haccount)
  obtain ⟨old, hold, rfl⟩ := Option.map_eq_some_iff.mp hrecord
  have hid : old.record.airdropIdentifier = airdropId := hown old hold
  have holdKey : old.key = claimRecordKey airdropId account' := key_of_get? hold
  -- the record goes to the key of the new account
  have hstoredAccount : stored.account = newAccount := by
    have hdecoded := stored.decoded
    rw [hstored] at hdecoded
    exact Except.ok.inj (hdecoded.symm.trans hnew)
  have hstoredKey : stored.key = claimRecordKey airdropId newAccount := by
    unfold StoredRecord.key
    rw [hstored, hstoredAccount]
    exact congrArg (claimRecordKey · newAccount) hid
  have hkeys : claimRecordKey airdropId newAccount ≠ claimRecordKey airdropId account' := by
    intro heq
    rw [heq, hold] at hfree
    cases hfree
  refine ⟨?_, ⟨old.record, hrecord, ?_⟩, ?_⟩
  · intro r hr hother
    have hget := mem_values_iff.mp hr
    rw [mem_values_iff]
    have hnotOld : r.key ≠ claimRecordKey airdropId account' := by
      intro heq
      rw [heq, hold] at hget
      cases hget
      refine hother (Prod.ext hid ?_)
      unfold StoredRecord.key at holdKey
      rw [hid] at holdKey
      exact List.append_cancel_left holdKey
    have hnotNew : r.key ≠ stored.key := by
      intro heq
      rw [heq, hstoredKey, hfree] at hget
      cases hget
    rw [get?_delete_of_ne _ hnotOld, get?_set_of_ne _ _ hnotNew]
    exact hget
  · show (((k.claimRecords.set stored).delete _).get? (claimRecordKey airdropId newAccount)).map
      StoredRecord.record = _
    rw [get?_delete_of_ne _ hkeys, ← hstoredKey, get?_set_self,
      Option.map_some, hstored]
  · intro id
    have hgetOld : (k.claimRecords.set stored).get? (claimRecordKey airdropId account') =
        some old := by
      rw [get?_set_of_ne _ _ (hstoredKey ▸ hkeys.symm)]
      exact hold
    have hsame : stored.record.airdropIdentifier = old.record.airdropIdentifier := by
      rw [hstored]
    have hweight : stored.record.weight = old.record.weight := by
      rw [hstored]
    unfold weightOf
    rw [sum_filter_delete, hgetOld, sum_filter_set, hstoredKey, hfree,
      Option.elim_none, Option.elim_some, hsame, hweight]
    omega

end Keeper

end Stride.Claim

namespace Stride.Autopilot

open Lib Sdk
open Stride.Claim (AccAddress accAddress claimRecordKey)

/-! ## The state of the route -/

structure HostZoneChannel where
  chainId : String
  transferChannelId : String
  halted : Bool
  deriving DecidableEq

structure ClaimState where
  keeper : Claim.Keeper
  claimActive : Bool
  hostZones : List HostZoneChannel

namespace ClaimState

def getHostZoneFromTransferChannelID (s : ClaimState) (channelID : String) :
    Option HostZoneChannel :=
  (s.hostZones.filter fun z => ¬ z.halted).find? fun z => z.transferChannelId = channelID

def tryUpdateAirdropClaim (s : ClaimState) (packet : Packet) (data : FungibleTokenPacketData) :
    Result ClaimState := do
  require s.claimActive .plain "packet forwarding param is not active"
  require (packet.destPort = "transfer") .plain
    "airdrop claim packet should be sent along a transfer channel"
  let hostZone ← orNotFound (s.getHostZoneFromTransferChannelID packet.destChannel)
    .errHostZoneNotFound s!"host zone not found for transfer channel {packet.destChannel}"
  let senderStrideAddress := convertAddressToStrideAddress data.sender
  require (senderStrideAddress ≠ "") .errInvalidAddress s!"invalid sender address ({data.sender})"
  let airdrop ← orNotFound (s.keeper.getAirdropByChainId hostZone.chainId)
    .errAirdropNotFound s!"airdrop not found for chain-id {hostZone.chainId}"
  require airdrop.autopilotEnabled .plain
    s!"autopilot claiming is not enabled for host zone {hostZone.chainId}"
  let keeper ← s.keeper.updateAirdropAddress senderStrideAddress data.receiver
    airdrop.airdropIdentifier
  return { s with keeper := keeper }

def airdropOf (s : ClaimState) (packet : Packet) : Option Claim.Airdrop :=
  (s.getHostZoneFromTransferChannelID packet.destChannel).bind fun hostZone =>
    s.keeper.getAirdropByChainId hostZone.chainId

private theorem tryUpdateAirdropClaim_ok {s s' : ClaimState} {packet : Packet}
    {data : FungibleTokenPacketData} (h : s.tryUpdateAirdropClaim packet data = .ok s') :
    ∃ airdrop keeper, s.airdropOf packet = some airdrop ∧
      s.keeper.updateAirdropAddress (convertAddressToStrideAddress data.sender) data.receiver
        airdrop.airdropIdentifier = .ok keeper ∧ s' = { s with keeper := keeper } := by
  obtain ⟨_, -, h⟩ := bind_eq_ok.mp h
  obtain ⟨_, -, h⟩ := bind_eq_ok.mp h
  obtain ⟨hostZone, hzone, h⟩ := bind_eq_ok.mp h
  obtain ⟨_, -, h⟩ := bind_eq_ok.mp h
  obtain ⟨airdrop, hairdrop, h⟩ := bind_eq_ok.mp h
  obtain ⟨_, -, h⟩ := bind_eq_ok.mp h
  obtain ⟨keeper, hkeeper, h⟩ := bind_eq_ok.mp h
  cases h
  rw [orNotFound_eq_ok] at hzone hairdrop
  refine ⟨airdrop, keeper, ?_, hkeeper, rfl⟩
  unfold airdropOf
  rw [hzone]
  exact hairdrop

/-! ## Packets -/

/-- The claim route, in a stack with other modules. -/
def routes (below : Routes ClaimState) : Routes ClaimState :=
  { below with
    claimActive := ClaimState.claimActive
    tryUpdateAirdropClaim := tryUpdateAirdropClaim }

/-- The stack below only moves coins. -/
def MovesCoins (below : Routes ClaimState) : Prop :=
  ∀ s packet data s', below.recv s packet data = .ok s' →
    s'.keeper.claimRecords = s.keeper.claimRecords ∧ s'.keeper.airdrops = s.keeper.airdrops ∧
      s'.hostZones = s.hostZones

/-- A packet that is received. After an error acknowledgement nothing has changed. -/
def step (below : Routes ClaimState) (s : ClaimState) (packet : Packet) : Option ClaimState :=
  (onRecvPacket (routes below) s packet).toOption

def IsClaimPacket (packet : Packet) (data : FungibleTokenPacketData) : Prop :=
  packet.data = some data ∧
    readMemo data.memo = .ok (some ⟨data.receiver, .claim data.receiver⟩)

/-- A claim packet whose receiver has no record, and whose sender finds no record of another
    airdrop. -/
def ReceiverFree (s : ClaimState) (packet : Packet) : Prop :=
  ∃ data, IsClaimPacket packet data ∧ ∀ airdrop account newAccount,
    s.airdropOf packet = some airdrop →
    accAddress (convertAddressToStrideAddress data.sender) = .ok account →
    accAddress data.receiver = .ok newAccount →
    s.keeper.claimRecords.get? (claimRecordKey airdrop.airdropIdentifier newAccount) = none ∧
      ∀ r, s.keeper.claimRecords.get? (claimRecordKey airdrop.airdropIdentifier account) = some r →
        r.record.airdropIdentifier = airdrop.airdropIdentifier

instance (s : ClaimState) (packet : Packet) : Decidable (ReceiverFree s packet) :=
  decidable_of_iff (∃ data ∈ packet.data,
    readMemo data.memo = .ok (some ⟨data.receiver, .claim data.receiver⟩) ∧
    ∀ airdrop, s.airdropOf packet = some airdrop →
      ∀ account, accAddress (convertAddressToStrideAddress data.sender) = .ok account →
      ∀ newAccount, accAddress data.receiver = .ok newAccount →
        s.keeper.claimRecords.get? (claimRecordKey airdrop.airdropIdentifier newAccount) = none ∧
        ∀ r, s.keeper.claimRecords.get? (claimRecordKey airdrop.airdropIdentifier account) =
          some r → r.record.airdropIdentifier = airdrop.airdropIdentifier)
    ⟨fun ⟨data, hdata, hmemo, h⟩ => ⟨data, ⟨hdata, hmemo⟩, fun _ _ _ ha hs hr => h _ ha _ hs _ hr⟩,
      fun ⟨data, ⟨hdata, hmemo⟩, h⟩ => ⟨data, hdata, hmemo, fun _ ha _ hs _ hr => h _ _ _ ha hs hr⟩⟩

/-- What a packet did: the record of its sender moved to its receiver. -/
def SenderMoved (s s' : ClaimState) (packet : Packet) : Prop :=
  ∃ data airdrop account newAccount, packet.data = some data ∧
    s.airdropOf packet = some airdrop ∧
    accAddress (convertAddressToStrideAddress data.sender) = .ok account ∧
    accAddress data.receiver = .ok newAccount ∧
    Claim.Keeper.Moved s.keeper s'.keeper airdrop.airdropIdentifier account newAccount data.receiver

variable {below : Routes ClaimState} {s s₀ s' : ClaimState} {packet : Packet}

private theorem moved_congr {k₀ k k' : Claim.Keeper} {airdropId newAddress : String}
    {account newAccount : AccAddress} (hrecords : k.claimRecords = k₀.claimRecords)
    (h : Claim.Keeper.Moved k k' airdropId account newAccount newAddress) :
    Claim.Keeper.Moved k₀ k' airdropId account newAccount newAddress := by
  obtain ⟨hothers, hsurvives, hweight⟩ := h
  unfold Claim.Keeper.getClaimRecord Claim.Keeper.weightOf at *
  rw [hrecords] at hothers hsurvives
  refine ⟨hothers, hsurvives, fun id => ?_⟩
  have hid := hweight id
  rw [hrecords] at hid
  exact hid

/-- **One packet** moves the record of its sender. -/
theorem senderMoved_of_step (hbelow : MovesCoins below) (hfree : ReceiverFree s packet)
    (hstep : step below s packet = some s') : SenderMoved s s' packet := by
  obtain ⟨data, ⟨hdata, hmemo⟩, hfree⟩ := hfree
  obtain ⟨data', s₁, -, -, hoverride, hrecv, hroute⟩ :=
    onRecvPacket_ok hdata hmemo (toOption_eq_some.mp hstep)
  cases hoverride
  obtain ⟨hrecords, hairdrops, hzones⟩ := hbelow s packet data s₁ hrecv
  obtain ⟨_, -, hroute⟩ := bind_eq_ok.mp hroute
  obtain ⟨airdrop, keeper, hairdrop, hupdate, rfl⟩ := tryUpdateAirdropClaim_ok hroute
  have hsame : s.airdropOf packet = some airdrop := by
    unfold airdropOf getHostZoneFromTransferChannelID Claim.Keeper.getAirdropByChainId at hairdrop ⊢
    rw [hairdrops, hzones] at hairdrop
    exact hairdrop
  obtain ⟨account, record, stored, haccount, -, hstored, -⟩ :=
    Claim.Keeper.updateAirdropAddress_ok hupdate
  have hnew : accAddress data.receiver = .ok stored.account := by
    have hdecoded := stored.decoded
    rw [hstored] at hdecoded
    exact hdecoded
  obtain ⟨hnone, hown⟩ := hfree airdrop account stored.account hsame haccount hnew
  rw [← hrecords] at hnone hown
  exact ⟨data, airdrop, account, stored.account, hdata, hsame, haccount, hnew,
    moved_congr hrecords (Claim.Keeper.Moved.of_update hupdate haccount hnew hown hnone)⟩

/-- **Claim packets keep the records**, along every run of claim packets whose receivers have no
    record: each packet leaves the records of everybody else as they are, the record of its sender
    is found at the receiver, and the weights of every airdrop add up to the same sum. -/
theorem claim_packets_keep_records (hbelow : MovesCoins below)
    (hrun : Reaches (step below) ReceiverFree s₀ s) :
    (∀ airdropId, s.keeper.weightOf airdropId = s₀.keeper.weightOf airdropId) ∧
      ∀ packet s', ReceiverFree s packet → step below s packet = some s' →
        SenderMoved s s' packet := by
  constructor
  · refine hrun.invariant
      (I := fun t => ∀ airdropId, t.keeper.weightOf airdropId = s₀.keeper.weightOf airdropId)
      (fun _ => rfl) ?_
    intro t packet t' hweight hfree hstep airdropId
    obtain ⟨_, _, _, _, -, -, -, -, hmoved⟩ := senderMoved_of_step hbelow hfree hstep
    rw [hmoved.weight airdropId]
    exact hweight airdropId
  · intro packet s' hfree hstep
    exact senderMoved_of_step hbelow hfree hstep

/-! ### Packets of one sender -/

/-- A stack below that accepts every transfer and leaves the state alone. -/
def acceptsTransfers : Routes ClaimState where
  recv := fun s _ _ => .ok s
  stakeibcActive := fun _ => false
  claimActive := ClaimState.claimActive
  generateHashedAddress := fun _ _ => .error ⟨.plain, ""⟩
  tryLiquidStaking := fun s _ _ _ => .ok s
  tryRedeemStake := fun s _ _ _ => .ok s
  tryUpdateAirdropClaim := tryUpdateAirdropClaim

private theorem movesCoins_acceptsTransfers : MovesCoins acceptsTransfers := by
  intro s packet data s' h
  cases h
  exact ⟨rfl, rfl, rfl⟩

def senderAddress : String := "stride1g7yxhuppp5x3yqkah5mw29eqq5s4sv2f222xmk"

def victimAddress : String := "stride10d07y265gmmuvt4z0w9aw880jnsr700jefnezl"

def freshAddress : String := "stride1k8c2m5cn322akk5wy8lpt87dd2f4yh9azg7jlh"

def evmosAirdrop : Claim.Airdrop where
  airdropIdentifier := "evmos"
  chainId := "evmos_9001-2"
  airdropStartTime := 0
  airdropDuration := 10 ^ 18
  claimDenom := "ustrd"
  distributorAddress := "stride1k8c2m5cn322akk5wy8lpt87dd2f4yh9azg7jlh"
  claimedSoFar := 0
  autopilotEnabled := true

/-- A sender with the weight 1 and a victim with the weight 5. -/
def twoRecords : Option ClaimState :=
  (Claim.Keeper.setClaimRecords
    { airdrops := [evmosAirdrop]
      claimRecords := KeyedStore.empty
      totalWeights := KVStore.empty
      accounts := fun _ => .base
      bank := { balance := fun _ _ => 0, supply := fun _ => 0 } }
    [⟨"evmos", senderAddress, ⟨1⟩, [false, false, false]⟩,
      ⟨"evmos", victimAddress, ⟨5⟩, [false, false, false]⟩]).toOption.map fun keeper =>
    { keeper := keeper
      claimActive := true
      hostZones := [⟨"evmos_9001-2", "channel-9", false⟩] }

/-- A claim packet from the evmos address of the sender. -/
def claimPacket (receiver : String) : Packet where
  sequence := 1
  sourcePort := "transfer"
  sourceChannel := "channel-25"
  destPort := "transfer"
  destChannel := "channel-9"
  data := some
    { denom := "aevmos"
      amount := some 1
      sender := "evmos1g7yxhuppp5x3yqkah5mw29eqq5s4sv2ftqm54j"
      receiver := receiver
      memo := ⟨60, some ⟨some ⟨receiver, none, true⟩, false, false⟩⟩ }

theorem claim_packets_keep_records_fresh :
    ∃ s s', twoRecords = some s ∧ step acceptsTransfers s (claimPacket freshAddress) = some s' ∧
      s'.keeper.weightOf "evmos" = 6 ∧ SenderMoved s s' (claimPacket freshAddress) := by
  have hend : (twoRecords.bind fun s =>
      (step acceptsTransfers s (claimPacket freshAddress)).map fun _ =>
        (s.keeper.weightOf "evmos", decide (ReceiverFree s (claimPacket freshAddress)))) =
      some (6, true) := by
    decide +kernel
  obtain ⟨s, hs, hend⟩ := Option.bind_eq_some_iff.mp hend
  obtain ⟨s', hs', hend⟩ := Option.map_eq_some_iff.mp hend
  obtain ⟨hweight, hcheck⟩ := Prod.mk.inj hend
  have hfree := of_decide_eq_true hcheck
  have hstart := claim_packets_keep_records movesCoins_acceptsTransfers
    (.refl : Reaches (step acceptsTransfers) ReceiverFree s s)
  have hafter := claim_packets_keep_records movesCoins_acceptsTransfers
    (.tail _ .refl hfree hs' : Reaches (step acceptsTransfers) ReceiverFree s s')
  refine ⟨s, s', hs, hs', ?_, hstart.2 _ s' hfree hs'⟩
  rw [hafter.1 "evmos"]
  exact hweight

/-- **A claim packet destroys records**: sent to the victim it replaces the record with the weight
    5 by the one with the weight 1, and sent to the sender itself it removes the sender's record. -/
theorem claim_packet_destroys_records :
    (twoRecords.bind fun s => (step acceptsTransfers s (claimPacket victimAddress)).map fun s' =>
        (s.keeper.weightOf "evmos", s'.keeper.weightOf "evmos",
          s'.keeper.claimRecords.values.map fun r => (r.record.address, r.record.weight.i))) =
      some (6, 1, [(victimAddress, 1)]) ∧
    (twoRecords.bind fun s => (step acceptsTransfers s (claimPacket senderAddress)).map fun s' =>
        (s.keeper.weightOf "evmos", s'.keeper.weightOf "evmos",
          s'.keeper.claimRecords.values.map fun r => (r.record.address, r.record.weight.i))) =
      some (6, 5, [(victimAddress, 5)]) := by
  constructor
  · decide +kernel
  · decide +kernel

end ClaimState

end Stride.Autopilot
