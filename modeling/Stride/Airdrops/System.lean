import Stride.Airdrops.Keeper
import Stride.Lib.Runs

/-!
# Airdrop System

The messages of the airdrop module, with the block times at which they are delivered. Each
message is checked by its own `ValidateBasic` first. The system keeps a log of the claims that
were paid.
-/

namespace Stride.Airdrops

open Lib Sdk Keeper

structure System where
  keeper : Keeper
  payments : List Payment

inductive Event where
  | claimDaily (claimer airdropId : String) (blockTime : Time)
  | claimEarly (claimer airdropId : String) (blockTime : Time)
  | linkAddresses (admin airdropId strideAddress hostAddress : String)
  | createAirdrop (admin : String) (airdrop : Airdrop)
  | updateAirdrop (admin : String) (airdrop : Airdrop)
  | addAllocations (admin airdropId : String) (allocations : List (String × List ℤ))
  | updateUserAllocation (admin airdropId userAddress : String) (allocations : List ℤ)
  deriving DecidableEq

namespace System

/-- A message that pays nothing. -/
def withKeeper (s : System) (result : Result Keeper) : Option System :=
  result.toOption.map fun k => { s with keeper := k }

def withPayment (s : System) (result : Result (Keeper × Payment)) : Option System :=
  result.toOption.map fun (k, p) => { keeper := k, payments := s.payments ++ [p] }

/-- What a message does, if it goes through. -/
def step (blockedAddr : String → Bool) (s : System) : Event → Option System
  | .claimDaily claimer airdropId blockTime =>
    s.withPayment do
      validateClaim claimer airdropId
      s.keeper.claimDaily blockedAddr blockTime airdropId claimer
  | .claimEarly claimer airdropId blockTime =>
    s.withPayment do
      validateClaim claimer airdropId
      s.keeper.claimEarly blockedAddr blockTime airdropId claimer
  | .linkAddresses admin airdropId strideAddress hostAddress =>
    s.withKeeper do
      validateLinkAddresses admin airdropId strideAddress hostAddress
      s.keeper.linkAddressesMsg admin airdropId strideAddress hostAddress
  | .createAirdrop admin airdrop =>
    s.withKeeper do
      validateConfigMsg admin airdrop
      s.keeper.createAirdrop airdrop
  | .updateAirdrop admin airdrop =>
    s.withKeeper do
      validateConfigMsg admin airdrop
      s.keeper.updateAirdrop airdrop
  | .addAllocations admin airdropId allocations =>
    s.withKeeper do
      validateAddAllocations admin airdropId allocations
      s.keeper.addAllocations admin airdropId allocations
  | .updateUserAllocation admin airdropId userAddress allocations =>
    s.withKeeper do
      validateUpdateUserAllocation admin airdropId userAddress allocations
      s.keeper.updateUserAllocation admin airdropId userAddress allocations

/-! ## What a message found and leaves -/

/-- What the messages that go through found and leave. -/
inductive Effect (s : System) : Event → System → Prop
  | daily (claimer airdropId : String) (blockTime : Time) (airdrop : Airdrop) (u : UserAllocation)
      (index : ℤ) (p : Payment) (k' : Keeper) :
      airdrop.getCurrentDateIndex blockTime s.keeper.periodLengthSeconds = .ok index →
      index < u.allocations.length →
      p.amount ≠ 0 →
      p = ⟨airdropId, claimer, (u.allocations.take (index + 1).toNat).sum, false⟩ →
      u.airdropId = airdropId ∧ u.address = claimer →
      s.keeper.PaidClaim k' airdropId claimer airdrop u
        (dailyClaimed u (index + 1).toNat) p.amount →
      Effect s (.claimDaily claimer airdropId blockTime) ⟨k', s.payments ++ [p]⟩
  | early (claimer airdropId : String) (blockTime : Time) (airdrop : Airdrop) (u : UserAllocation)
      (p : Payment) (k' : Keeper) :
      u.allocations.sum ≠ 0 →
      p = ⟨airdropId, claimer, earlyRewards airdrop u.allocations.sum, true⟩ →
      u.airdropId = airdropId ∧ u.address = claimer →
      s.keeper.PaidClaim k' airdropId claimer airdrop u (earlyClaimed u p.amount) p.amount →
      Effect s (.claimEarly claimer airdropId blockTime) ⟨k', s.payments ++ [p]⟩
  | linked (admin airdropId strideAddress hostAddress : String) (k' : Keeper) :
      s.keeper.Linked airdropId strideAddress hostAddress k' →
      Effect s (.linkAddresses admin airdropId strideAddress hostAddress) { s with keeper := k' }
  | created (admin : String) (airdrop : Airdrop) :
      s.keeper.airdrops.get? airdrop.key = none →
      Effect s (.createAirdrop admin airdrop)
        { s with keeper := { s.keeper with airdrops := s.keeper.airdrops.set airdrop } }
  | updated (admin : String) (airdrop : Airdrop) :
      (s.keeper.airdrops.get? airdrop.key).isSome →
      Effect s (.updateAirdrop admin airdrop)
        { s with keeper := { s.keeper with airdrops := s.keeper.airdrops.set airdrop } }
  | allocated (admin airdropId : String) (allocations : List (String × List ℤ))
      (airdrop : Airdrop) (periods : ℤ) (k' : Keeper) :
      s.keeper.airdrops.get? (bytes airdropId) = some airdrop →
      airdrop.getAirdropPeriods s.keeper.periodLengthSeconds = .ok periods →
      allocations.foldlM (addAllocation airdropId periods) s.keeper = .ok k' →
      Effect s (.addAllocations admin airdropId allocations) { s with keeper := k' }
  | reallocated (admin airdropId userAddress : String) (allocations : List ℤ)
      (u : UserAllocation) :
      s.keeper.getUserAllocation airdropId userAddress = some u →
      allocations.length = u.allocations.length →
      Effect s (.updateUserAllocation admin airdropId userAddress allocations)
        { s with
          keeper := { s.keeper with
            userAllocations :=
              s.keeper.userAllocations.set { u with allocations := allocations } } }

variable {blockedAddr : String → Bool} {s s' : System} {e : Event}

private theorem withKeeper_eq_some {result : Result Keeper} :
    s.withKeeper result = some s' ↔ ∃ k, result = .ok k ∧ { s with keeper := k } = s' :=
  toOption_map_eq_some

private theorem withPayment_eq_some {result : Result (Keeper × Payment)} :
    s.withPayment result = some s' ↔
      ∃ kp : Keeper × Payment, result = .ok kp ∧ ⟨kp.1, s.payments ++ [kp.2]⟩ = s' :=
  toOption_map_eq_some

private theorem validateClaim_ok {claimer airdropId : String}
    (h : validateClaim claimer airdropId = .ok ()) :
    ∃ account, strideAccount claimer = .ok account := by
  obtain ⟨_, hclaimer, -⟩ := bind_eq_ok.mp h
  exact validateAddress_ok hclaimer

/-- **One step**: each message that goes through has its effect. -/
theorem effect_of_step (h : step blockedAddr s e = some s') : Effect s e s' := by
  cases e with
  | claimDaily claimer airdropId blockTime =>
    obtain ⟨⟨k', p⟩, hresult, rfl⟩ := withPayment_eq_some.mp h
    obtain ⟨_, hvalid, hclaim⟩ := bind_eq_ok.mp hresult
    obtain ⟨account, hclaimer⟩ := validateClaim_ok hvalid
    obtain ⟨airdrop, u, index, hindex, hlt, hne, rfl, hpaid⟩ := claimDaily_ok hclaim
    -- a valid claimer is the address of its allocation
    obtain ⟨rfl, rfl⟩ := hpaid.own hclaimer
    exact .daily _ _ blockTime airdrop u index _ k' hindex hlt hne rfl ⟨rfl, rfl⟩ hpaid
  | claimEarly claimer airdropId blockTime =>
    obtain ⟨⟨k', p⟩, hresult, rfl⟩ := withPayment_eq_some.mp h
    obtain ⟨_, hvalid, hclaim⟩ := bind_eq_ok.mp hresult
    obtain ⟨account, hclaimer⟩ := validateClaim_ok hvalid
    obtain ⟨airdrop, u, hne, rfl, hpaid⟩ := claimEarly_ok hclaim
    obtain ⟨rfl, rfl⟩ := hpaid.own hclaimer
    exact .early _ _ blockTime airdrop u _ k' hne rfl ⟨rfl, rfl⟩ hpaid
  | linkAddresses admin airdropId strideAddress hostAddress =>
    obtain ⟨k', hresult, rfl⟩ := withKeeper_eq_some.mp h
    obtain ⟨_, -, hlink⟩ := bind_eq_ok.mp hresult
    obtain ⟨_, -, hlink⟩ := bind_eq_ok.mp hlink
    obtain ⟨_, -, hlink⟩ := bind_eq_ok.mp hlink
    exact .linked admin airdropId strideAddress hostAddress k' (linkAddresses_ok hlink)
  | createAirdrop admin airdrop =>
    obtain ⟨k', hresult, rfl⟩ := withKeeper_eq_some.mp h
    obtain ⟨_, -, hcreated⟩ := bind_eq_ok.mp hresult
    unfold createAirdrop at hcreated
    split at hcreated
    · cases hcreated
    cases hcreated
    exact .created admin airdrop ‹_›
  | updateAirdrop admin airdrop =>
    obtain ⟨k', hresult, rfl⟩ := withKeeper_eq_some.mp h
    obtain ⟨_, -, hupdated⟩ := bind_eq_ok.mp hresult
    obtain ⟨a, hget, hupdated⟩ := bind_eq_ok.mp hupdated
    cases hupdated
    exact .updated admin airdrop (Option.isSome_of_eq_some (getAirdrop_ok hget))
  | addAllocations admin airdropId allocations =>
    obtain ⟨k', hresult, rfl⟩ := withKeeper_eq_some.mp h
    obtain ⟨_, -, hadded⟩ := bind_eq_ok.mp hresult
    obtain ⟨airdrop, hget, hadded⟩ := bind_eq_ok.mp hadded
    obtain ⟨_, -, hadded⟩ := bind_eq_ok.mp hadded
    obtain ⟨periods, hperiods, hadded⟩ := bind_eq_ok.mp hadded
    exact .allocated admin airdropId allocations airdrop periods k' (getAirdrop_ok hget)
      hperiods hadded
  | updateUserAllocation admin airdropId userAddress allocations =>
    obtain ⟨k', hresult, rfl⟩ := withKeeper_eq_some.mp h
    obtain ⟨_, -, hupdated⟩ := bind_eq_ok.mp hresult
    obtain ⟨airdrop, hget, hupdated⟩ := bind_eq_ok.mp hupdated
    obtain ⟨_, -, hupdated⟩ := bind_eq_ok.mp hupdated
    split at hupdated
    · cases hupdated
    rename_i u hfound
    obtain ⟨_, hlength, hupdated⟩ := bind_eq_ok.mp hupdated
    cases hupdated
    exact .reallocated admin airdropId userAddress allocations u hfound
      (require_eq_ok.mp hlength)

end System

/-! ## A small airdrop -/

def adminAddress : String := "stride1k8c2m5cn322akk5wy8lpt87dd2f4yh9azg7jlh"

def userAddress : String := "stride1g7yxhuppp5x3yqkah5mw29eqq5s4sv2f222xmk"

/-- An airdrop over a number of days that starts at 0. -/
def airdropOver (days : ℤ) : Airdrop where
  id := "airdrop"
  rewardDenom := "ustrd"
  distributionStartDate := 0
  distributionEndDate := (days - 1) * 86400 * 10 ^ 9
  clawbackDate := 10 * 86400 * 10 ^ 9
  claimTypeDeadlineDate := 3600 * 10 ^ 9
  earlyClaimPenalty := ⟨500000000000000000⟩
  distributorAddress := adminAddress
  allocatorAddress := adminAddress
  linkerAddress := adminAddress

/-- The distributor has 100. -/
def adminBank : Bank where
  balance a d := if a = adminAddress ∧ d = "ustrd" then 100 else 0
  supply _ := 0

end Stride.Airdrops
