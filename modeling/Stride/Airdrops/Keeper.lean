import Stride.Lib.KVStore
import Stride.Sdk.Bank
import Stride.Sdk.Bech32
import Stride.Sdk.Bytes

/-!
# Airdrop Keeper

An airdrop gives each user a list of allocations, one for each period of its distribution.
Users claim what is due up to the current period, or everything at once with a penalty. The
allocation of an address on another chain is linked to a stride address by an admin.

A read of a list outside of its bounds is an error with the code `outOfRange`.

## Main results

`claimDaily_ok`, `claimEarly_ok`, `linkAddresses_ok`: what a call that goes through found and
leaves. `takeRewards_eq` and `getClaimableAllocation_eq` say what the two loops over the
allocations compute.
-/

namespace Stride.Airdrops

open Lib Sdk List

/-! ## Types -/

/-- A time in nanoseconds. -/
abbrev Time := ℤ

/-- `Unix`, in seconds. -/
def unix (t : Time) : ℤ := t / 10 ^ 9

/-- The zero `time.Time`, the first of January of the year 1. -/
def zeroTime : Time := -62135596800 * 10 ^ 9

structure Airdrop where
  id : String
  rewardDenom : String
  distributionStartDate : Time
  distributionEndDate : Time
  clawbackDate : Time
  claimTypeDeadlineDate : Time
  earlyClaimPenalty : LegacyDec
  distributorAddress : String
  allocatorAddress : String
  linkerAddress : String
  deriving DecidableEq

structure UserAllocation where
  airdropId : String
  address : String
  claimed : ℤ
  forfeited : ℤ
  allocations : List ℤ
  deriving DecidableEq

def Airdrop.key (a : Airdrop) : List UInt8 := bytes a.id

def userAllocationKey (airdropId userAddress : String) : List UInt8 :=
  bytes (airdropId ++ "/" ++ userAddress)

def UserAllocation.key (u : UserAllocation) : List UInt8 := userAllocationKey u.airdropId u.address

variable {a' account address : String} {blockTime : Time} {u : UserAllocation} {i n : ℕ}
  {index period : ℤ} {airdropId : String} {a : Airdrop} {l : List ℤ}

/-- Within an airdrop a key determines the user. -/
theorem userAllocationKey_inj_right {a : String} :
    userAllocationKey airdropId a = userAllocationKey airdropId a' ↔ a = a' := by
  simp [userAllocationKey]

private theorem slash_notMem_of_strideAccount (h : strideAccount address = .ok account) :
    '/' ∉ address.toList := by
  obtain ⟨_, haddress, -⟩ := bind_eq_ok.mp h
  exact notMem_of_accAddressFromBech32 haddress (by decide) (by decide) (by decide) (by decide)

/-- The id and the address can be read off a key, if the address has no slash. -/
theorem userAllocationKey_inj {airdropId' a : String} (ha : '/' ∉ a.toList) (ha' : '/' ∉ a'.toList)
    (h : userAllocationKey airdropId a = userAllocationKey airdropId' a') :
    airdropId = airdropId' ∧ a = a' := by
  have hchars : airdropId.toList ++ '/' :: a.toList = airdropId'.toList ++ '/' :: a'.toList := by
    have hlists := congrArg String.toList (bytes_injective h)
    simpa [String.toList_append] using hlists
  -- the slash before the address is the last one
  rcases append_eq_append_iff.mp hchars with ⟨l, hl, hr⟩ | ⟨l, hl, hr⟩
  · cases l with
    | nil =>
      rw [append_nil, String.toList_inj] at hl
      rw [nil_append, cons.injEq, String.toList_inj] at hr
      exact ⟨hl.symm, hr.2⟩
    | cons c l =>
      rw [cons_append, cons.injEq] at hr
      exact absurd (hr.2 ▸ mem_append_right l mem_cons_self) ha
  · cases l with
    | nil =>
      rw [append_nil, String.toList_inj] at hl
      rw [nil_append, cons.injEq, String.toList_inj] at hr
      exact ⟨hl, hr.2.symm⟩
    | cons c l =>
      rw [cons_append, cons.injEq] at hr
      exact absurd (hr.2 ▸ mem_append_right l mem_cons_self) ha'

structure Keeper where
  periodLengthSeconds : ℤ
  airdrops : KeyedStore Airdrop.key
  userAllocations : KeyedStore UserAllocation.key
  bank : Bank

structure Payment where
  airdropId : String
  address : String
  amount : ℤ
  early : Bool
  deriving DecidableEq

/-! ## Periods -/

namespace Airdrop

def getAirdropPeriods (a : Airdrop) (periodLengthSeconds : ℤ) : Result ℤ :=
  if periodLengthSeconds = 0 then goPanic "integer divide by zero"
  else .ok
    ((unix a.distributionEndDate - unix a.distributionStartDate).tdiv periodLengthSeconds + 1)

/-- `GetCurrentDateIndex` at a block time. -/
def getCurrentDateIndex (a : Airdrop) (blockTime : Time) (periodLengthSeconds : ℤ) :
    Result ℤ := do
  let startTime := unix a.distributionStartDate
  require (startTime ≤ unix blockTime) .errAirdropNotStarted "airdrop has not started"
  require (unix blockTime < unix a.clawbackDate) .errAirdropEnded "airdrop has ended"
  let periods ← a.getAirdropPeriods periodLengthSeconds
  let elapsedDays := (unix blockTime - startTime).tdiv periodLengthSeconds
  return if periods ≤ elapsedDays then periods - 1 else elapsedDays

end Airdrop

/-! ## Allocations -/

def readAllocation (allocations : List ℤ) (i : ℕ) : Result ℤ :=
  match allocations[i]? with
  | some amount => .ok amount
  | none =>
    .error ⟨.outOfRange, s!"index out of range [{i}] with length {allocations.length}"⟩

/-- The loop of `ClaimDaily`: the rewards up to an index, and the allocations without them. -/
def takeRewards (todaysIndex : ℤ) (allocations : List ℤ) : Result (ℤ × List ℤ) :=
  (range (todaysIndex + 1).toNat).foldlM
    (fun (todaysRewards, allocations) i => do
      let rewardsOnDate ← readAllocation allocations i
      return (todaysRewards + rewardsOnDate, allocations.set i 0))
    (0, allocations)

namespace UserAllocation

def getRemainingAllocations (u : UserAllocation) : ℤ := u.allocations.sum

end UserAllocation

def mustAccAddressFromBech32 (address : String) : Result String :=
  match strideAccount address with
  | .ok account => .ok account
  | .error e => goPanic e.message

namespace Keeper

def getAirdrop (k : Keeper) (airdropId : String) : Result Airdrop :=
  match k.airdrops.get? (bytes airdropId) with
  | some airdrop => .ok airdrop
  | none => wrapf .errAirdropNotFound s!"airdrop {airdropId}"

def getUserAllocation (k : Keeper) (airdropId address : String) : Option UserAllocation :=
  k.userAllocations.get? (userAllocationKey airdropId address)

def removeUserAllocation (k : Keeper) (airdropId address : String) : Keeper :=
  { k with userAllocations := k.userAllocations.delete (userAllocationKey airdropId address) }

/-! ## Claims -/

/-- The coins of a claim go from the distributor to the user. -/
def distributeRewards (blockedAddr : String → Bool) (k : Keeper) (airdrop : Airdrop)
    (userAllocation : UserAllocation) (rewards : ℤ) : Result Keeper := do
  let distributorAccount ← mustAccAddressFromBech32 airdrop.distributorAddress
  let claimerAccount ← mustAccAddressFromBech32 userAllocation.address
  let rewardsCoin ← newCoin airdrop.rewardDenom rewards
  let bank ← wrapError (k.bank.safeSendCoins blockedAddr true distributorAccount claimerAccount
    rewardsCoin) "unable to distribute rewards"
  return { k with
    userAllocations := k.userAllocations.set userAllocation
    bank := bank }

def claimDaily (blockedAddr : String → Bool) (k : Keeper) (blockTime : Time)
    (airdropId claimer : String) : Result (Keeper × Payment) := do
  let airdrop ← k.getAirdrop airdropId
  match k.getUserAllocation airdropId claimer with
  | none => wrapf .errUserAllocationNotFound s!"user {claimer} for airdrop {airdropId}"
  | some userAllocation =>
    require (unix airdrop.distributionStartDate ≤ unix blockTime) .errAirdropNotStarted
      "airdrop has not started"
    require (unix blockTime < unix airdrop.clawbackDate) .errAirdropEnded "airdrop has ended"
    let todaysIndex ← airdrop.getCurrentDateIndex blockTime k.periodLengthSeconds
    let (todaysRewards, allocations) ← takeRewards todaysIndex userAllocation.allocations
    require (todaysRewards ≠ 0) .errNoUnclaimedRewards "no unclaimed rewards"
    let k ← k.distributeRewards blockedAddr airdrop
      { userAllocation with
        allocations := allocations
        claimed := userAllocation.claimed + todaysRewards }
      todaysRewards
    return (k, ⟨userAllocation.airdropId, userAllocation.address, todaysRewards, false⟩)

/-- The rewards of an early claim. -/
def earlyRewards (airdrop : Airdrop) (totalAccruedRewards : ℤ) : ℤ :=
  let rewardsRemainingRate := LegacyDec.one.sub airdrop.earlyClaimPenalty
  ((LegacyDec.fromInt totalAccruedRewards).mul rewardsRemainingRate).truncateInt

def claimEarly (blockedAddr : String → Bool) (k : Keeper) (blockTime : Time)
    (airdropId claimer : String) : Result (Keeper × Payment) := do
  let airdrop ← k.getAirdrop airdropId
  match k.getUserAllocation airdropId claimer with
  | none => wrapf .errUserAllocationNotFound s!"user {claimer} for airdrop {airdropId}"
  | some userAllocation =>
    require (unix airdrop.distributionStartDate ≤ unix blockTime) .errAirdropNotStarted
      "airdrop has not started"
    require (unix blockTime ≤ unix airdrop.claimTypeDeadlineDate) .errAfterDecisionDeadline
      "claim type decision deadline passed"
    let totalAccruedRewards := userAllocation.allocations.sum
    require (totalAccruedRewards ≠ 0) .errNoUnclaimedRewards "no unclaimed rewards"
    let distributedRewards := earlyRewards airdrop totalAccruedRewards
    let k ← k.distributeRewards blockedAddr airdrop
      { userAllocation with
        allocations := userAllocation.allocations.map fun _ => 0
        claimed := userAllocation.claimed + distributedRewards
        forfeited := userAllocation.forfeited + (totalAccruedRewards - distributedRewards) }
      distributedRewards
    return (k, ⟨userAllocation.airdropId, userAllocation.address, distributedRewards, true⟩)

/-! ## Links -/

def linkAddresses (k : Keeper) (airdropId strideAddress hostAddress : String) : Result Keeper :=
  match k.getUserAllocation airdropId hostAddress with
  | none => wrapf .errUserAllocationNotFound s!"user {hostAddress} for airdrop {airdropId}"
  | some hostAllocation =>
    match k.getUserAllocation airdropId strideAddress with
    | none =>
      let k := k.removeUserAllocation airdropId hostAddress
      .ok { k with
        userAllocations := k.userAllocations.set { hostAllocation with address := strideAddress } }
    | some strideAllocation => do
      require (strideAllocation.allocations.length = hostAllocation.allocations.length)
        .errFailedToLinkAddresses
        (s!"stride ({strideAddress}) and host ({hostAllocation.address}) allocations are not " ++
          "the same length")
      let k := { k with
        userAllocations := k.userAllocations.set
          { strideAllocation with
            allocations :=
              zipWith (· + ·) strideAllocation.allocations hostAllocation.allocations } }
      return k.removeUserAllocation airdropId hostAddress

/-! ## Admins -/

def admins : List String :=
  ["stride1k8c2m5cn322akk5wy8lpt87dd2f4yh9azg7jlh",
    "stride10d07y265gmmuvt4z0w9aw880jnsr700jefnezl"]

def validateAddress (address what : String) : Result Unit :=
  match strideAccount address with
  | .ok _ => .ok ()
  | .error e => wrapf .errInvalidAddress s!"invalid {what} ({e.message})"

def airdropConfigValidateBasic (a : Airdrop) : Result Unit := do
  require (a.id ≠ "") .plain "airdrop-id must be specified"
  require (a.rewardDenom ≠ "") .plain "reward denom must be specified"
  require (a.distributionStartDate ≠ zeroTime) .plain "distribution start date must be specified"
  require (a.distributionEndDate ≠ zeroTime) .plain "distribution end date must be specified"
  require (a.clawbackDate ≠ zeroTime) .plain "clawback date must be specified"
  require (a.claimTypeDeadlineDate ≠ zeroTime) .plain "claim type deadline date must be specified"
  require (a.distributionStartDate < a.distributionEndDate) .plain
    "distribution end date must be after the start date"
  require (a.distributionStartDate < a.claimTypeDeadlineDate) .plain
    "claim type deadline date must be after the distribution start date"
  require (a.claimTypeDeadlineDate < a.distributionEndDate) .plain
    "claim type deadline date must be before the distribution end date"
  require (a.distributionEndDate < a.clawbackDate) .plain
    "clawback date must be after the distribution end date"
  require (0 ≤ a.earlyClaimPenalty.i ∧ a.earlyClaimPenalty.i ≤ LegacyDec.one.i) .plain
    "early claim penalty must be between 0 and 1"
  validateAddress a.distributorAddress "distributor address"
  validateAddress a.allocatorAddress "allocator address"
  validateAddress a.linkerAddress "linker address"

/-- The checks of `MsgCreateAirdrop` and `MsgUpdateAirdrop`. -/
def validateConfigMsg (admin : String) (a : Airdrop) : Result Unit := do
  validateAddress admin "address"
  require (admin ∈ admins) .errInvalidAddress s!"address ({admin}) is not an admin"
  airdropConfigValidateBasic a

def createAirdrop (k : Keeper) (a : Airdrop) : Result Keeper :=
  match k.airdrops.get? a.key with
  | some _ => wrapf .errAirdropAlreadyExists s!"airdrop {a.id}"
  | none => .ok { k with airdrops := k.airdrops.set a }

def updateAirdrop (k : Keeper) (a : Airdrop) : Result Keeper := do
  let _ ← k.getAirdrop a.id
  return { k with airdrops := k.airdrops.set a }

/-- The loop body of the checks of `MsgAddAllocations`, with the addresses so far and the length
    of the first list. -/
def validateRawAllocation (s : List String × Option ℕ) (raw : String × List ℤ) :
    Result (List String × Option ℕ) := do
  let (addresses, allocationsLength) := s
  require (raw.1 ≠ "") .plain "all addresses in allocations must be specified"
  require (raw.1 ∉ addresses) .plain s!"address {raw.1} is specified more than once"
  require (∀ length ∈ allocationsLength, raw.2.length = length) .plain
    s!"address {raw.1} has an inconsistent number of allocations"
  require (∀ amount ∈ raw.2, 0 ≤ amount) .plain
    "all allocation amounts must be specified and positive"
  return (raw.1 :: addresses, some (allocationsLength.getD raw.2.length))

/-- The checks of `MsgAddAllocations`. -/
def validateAddAllocations (admin airdropId : String) (allocations : List (String × List ℤ)) :
    Result Unit := do
  validateAddress admin "address"
  require (airdropId ≠ "") .plain "airdrop-id must be specified"
  let _ ← allocations.foldlM validateRawAllocation ([], none)

/-- The loop body of `AddAllocations`. -/
def addAllocation (airdropId : String) (expectedDays : ℤ) (k : Keeper)
    (raw : String × List ℤ) : Result Keeper :=
  match k.getUserAllocation airdropId raw.1 with
  | some _ => wrapf .errUserAllocationAlreadyExists s!"user {raw.1}"
  | none => do
    require ((raw.2.length : ℤ) = expectedDays) .errInvalidAllocationListLength
      s!"expected {expectedDays}, provided {raw.2.length}"
    return { k with
      userAllocations := k.userAllocations.set
        { airdropId := airdropId
          address := raw.1
          claimed := 0
          forfeited := 0
          allocations := raw.2 } }

def addAllocations (k : Keeper) (admin airdropId : String)
    (allocations : List (String × List ℤ)) : Result Keeper := do
  let airdrop ← k.getAirdrop airdropId
  require (admin = airdrop.allocatorAddress) .errInvalidAdminAddress
    "user allocations can only be added by the allocator admin"
  let expectedDays ← airdrop.getAirdropPeriods k.periodLengthSeconds
  allocations.foldlM (addAllocation airdropId expectedDays) k

/-- The checks of `MsgUpdateUserAllocation`. -/
def validateUpdateUserAllocation (admin airdropId userAddress : String) (allocations : List ℤ) :
    Result Unit := do
  validateAddress admin "address"
  require (airdropId ≠ "") .plain "airdrop-id must be specified"
  require (userAddress ≠ "") .plain "user address must be specified"
  require (∀ amount ∈ allocations, 0 ≤ amount) .plain
    "all allocation amounts must be specified and positive"

def updateUserAllocation (k : Keeper) (admin airdropId userAddress : String)
    (allocations : List ℤ) : Result Keeper := do
  let airdrop ← k.getAirdrop airdropId
  require (admin = airdrop.allocatorAddress) .errInvalidAdminAddress
    "user allocation updates can only be performed by the allocator admin"
  match k.getUserAllocation airdropId userAddress with
  | none => wrapf .errUserAllocationNotFound s!"user {userAddress}"
  | some userAllocation =>
    require (allocations.length = userAllocation.allocations.length)
      .errInvalidAllocationListLength
      (s!"current allocations length: {userAllocation.allocations.length}, " ++
        s!"provided length: {allocations.length}")
    return { k with
      userAllocations := k.userAllocations.set { userAllocation with allocations := allocations } }

/-- The checks of `MsgClaimDaily` and `MsgClaimEarly`. -/
def validateClaim (claimer airdropId : String) : Result Unit := do
  validateAddress claimer "address"
  require (airdropId ≠ "") .plain "airdrop-id must be specified"

/-- The checks of `MsgLinkAddresses`. -/
def validateLinkAddresses (admin airdropId strideAddress hostAddress : String) : Result Unit := do
  validateAddress admin "address"
  validateAddress strideAddress "stride address"
  require (airdropId ≠ "") .plain "airdrop-id must be specified"
  require (hostAddress ≠ "") .plain "host address must be specified"
  require (¬ "stride".toList.isPrefixOf hostAddress.toList) .plain
    "linked address cannot be a stride address"

/-- `LinkAddresses` of the message server. -/
def linkAddressesMsg (k : Keeper) (admin airdropId strideAddress hostAddress : String) :
    Result Keeper := do
  let airdrop ← k.getAirdrop airdropId
  require (admin = airdrop.linkerAddress) .errInvalidAdminAddress
    "linking can only be performed by the linkor admin"
  k.linkAddresses airdropId strideAddress hostAddress

/-! ## The query -/

end Keeper

/-! ## The loops over the allocations -/

private theorem readAllocation_of_lt (hi : i < l.length) : readAllocation l i = .ok l[i] := by
  unfold readAllocation
  rw [getElem?_eq_getElem hi]

private theorem readAllocation_of_le (hi : l.length ≤ i) :
    ∃ message, readAllocation l i = .error ⟨.outOfRange, message⟩ := by
  unfold readAllocation
  rw [getElem?_eq_none hi]
  exact ⟨_, rfl⟩

private theorem range_eq_append {m : ℕ} (h : n < m) : ∃ rest, range m = range n ++ n :: rest := by
  obtain ⟨d, rfl⟩ := Nat.exists_eq_add_of_lt h
  refine ⟨(range d).map (n + 1 + ·), ?_⟩
  rw [Nat.add_assoc, Nat.add_comm d 1, ← Nat.add_assoc, range_add, range_succ,
    append_assoc]
  rfl

section Loops

variable {α β : Type*} {f : β → α → Result β} {l rest : List α} {a : α} {b b₁ b₂ : β}

private theorem foldlM_concat_ok (h : l.foldlM f b = .ok b₁) (ha : f b₁ a = .ok b₂) :
    (l ++ [a]).foldlM f b = .ok b₂ := by
  rw [foldlM_append, h]
  show foldlM f b₁ [a] = _
  rw [foldlM_cons, ha]
  rfl

private theorem foldlM_append_error (h : l.foldlM f b = .ok b₁) {e : SdkError}
    (ha : f b₁ a = .error e) :
    (l ++ a :: rest).foldlM f b = .error e := by
  rw [foldlM_append, h]
  show foldlM f b₁ (a :: rest) = _
  rw [foldlM_cons, ha]
  rfl

end Loops

private theorem foldlM_takeRewards (hn : n ≤ l.length) :
    (range n).foldlM
        (fun ((rewards, allocations) : ℤ × List ℤ) i => do
          let amount ← readAllocation allocations i
          return (rewards + amount, allocations.set i 0)) (0, l) =
      (.ok ((l.take n).sum, replicate n 0 ++ l.drop n) : Result (ℤ × List ℤ)) := by
  induction n with
  | zero => rfl
  | succ n ih =>
    have hlt : n < l.length := hn
    have hlen : n < (replicate n 0 ++ l.drop n).length := by simpa using hlt
    -- the next allocation is the first one that has not been taken
    have hread : (replicate n 0 ++ l.drop n)[n] = l[n] := by
      simp [getElem_append_right]
    have hset : (replicate n 0 ++ l.drop n).set n 0 =
        replicate (n + 1) 0 ++ l.drop (n + 1) := by
      rw [set_append_right _ _ (by simp), length_replicate, Nat.sub_self, drop_eq_getElem_cons hlt,
        replicate_succ', append_assoc]
      rfl
    rw [range_succ, take_succ_eq_append_getElem hlt, sum_append,
      sum_singleton]
    refine foldlM_concat_ok (ih (Nat.le_of_lt hlt)) ?_
    dsimp only
    rw [readAllocation_of_lt hlen, hread, hset]
    rfl

/-- **The rewards up to an index**, when the list is long enough. -/
theorem takeRewards_eq (hindex : index < l.length) :
    takeRewards index l = .ok ((l.take (index + 1).toNat).sum,
      replicate (index + 1).toNat 0 ++ l.drop (index + 1).toNat) :=
  foldlM_takeRewards (by omega)

private theorem takeRewards_outOfRange (hindex : l.length ≤ index) :
    ∃ message, takeRewards index l = .error ⟨.outOfRange, message⟩ := by
  obtain ⟨rest, hrange⟩ := range_eq_append (n := l.length) (m := (index + 1).toNat) (by omega)
  obtain ⟨message, hread⟩ := readAllocation_of_le
    (l := replicate l.length 0 ++ l.drop l.length) (i := l.length) (by simp)
  refine ⟨message, ?_⟩
  unfold takeRewards
  rw [hrange]
  refine foldlM_append_error (foldlM_takeRewards le_rfl) ?_
  dsimp only
  rw [hread]
  rfl

private theorem takeRewards_ok {rewards : ℤ} {allocations : List ℤ}
    (h : takeRewards index l = .ok (rewards, allocations)) :
    index < l.length ∧ rewards = (l.take (index + 1).toNat).sum ∧
      allocations = replicate (index + 1).toNat 0 ++ l.drop (index + 1).toNat := by
  rcases lt_or_ge index (l.length : ℤ) with hlt | hge
  · rw [takeRewards_eq hlt] at h
    cases h
    exact ⟨hlt, rfl, rfl⟩
  · obtain ⟨message, hout⟩ := takeRewards_outOfRange hge
    rw [hout] at h
    cases h

private theorem Airdrop.getAirdropPeriods_ok {periods : ℤ}
    (h : a.getAirdropPeriods period = .ok periods) :
    period ≠ 0 ∧
      periods = (unix a.distributionEndDate - unix a.distributionStartDate).tdiv period + 1 := by
  unfold getAirdropPeriods at h
  split at h
  · cases h
  cases h
  exact ⟨‹_›, rfl⟩

theorem Airdrop.getCurrentDateIndex_ok (h : a.getCurrentDateIndex blockTime period = .ok index) :
    ∃ periods, a.getAirdropPeriods period = .ok periods ∧ index < periods ∧
      (unix a.distributionStartDate ≤ unix a.distributionEndDate →
        unix a.distributionEndDate ≤ unix blockTime → 0 ≤ index → index = periods - 1) := by
  obtain ⟨_, hstart, h⟩ := bind_eq_ok.mp h
  obtain ⟨_, -, h⟩ := bind_eq_ok.mp h
  obtain ⟨periods, hperiods, h⟩ := bind_eq_ok.mp h
  cases h
  refine ⟨periods, hperiods, ?_, ?_⟩
  · split <;> omega
  · intro hdates hend hnonneg
    obtain ⟨hne, rfl⟩ := getAirdropPeriods_ok hperiods
    rcases lt_or_gt_of_ne hne with hneg | hpos
    · -- a negative period length allows for one period at most
      have hperiods' :
          (unix a.distributionEndDate - unix a.distributionStartDate).tdiv period ≤ 0 :=
        Int.tdiv_nonpos_of_nonneg_of_nonpos (by omega) hneg.le
      split at hnonneg <;> omega
    · -- as many periods have passed as the distribution has
      have hlast : (unix a.distributionEndDate - unix a.distributionStartDate).tdiv period ≤
          (unix blockTime - unix a.distributionStartDate).tdiv period :=
        Int.tdiv_le_tdiv hpos (by omega)
      split <;> omega

namespace Keeper

variable {blockedAddr : String → Bool} {k k' : Keeper} {claimer : String}

variable {airdrop : Airdrop} {p : Payment} {u' : UserAllocation} {amount : ℤ}

theorem getAirdrop_ok (h : k.getAirdrop airdropId = .ok a) :
    k.airdrops.get? (bytes airdropId) = some a := by
  unfold getAirdrop at h
  split at h
  · rename_i hget
    cases h
    exact hget
  · cases h

private theorem mustAccAddressFromBech32_ok (h : mustAccAddressFromBech32 address = .ok account) :
    strideAccount address = .ok account := by
  unfold mustAccAddressFromBech32 at h
  split at h
  · cases h
    assumption
  · cases h

theorem validateAddress_ok {what : String} (h : validateAddress address what = .ok ()) :
    ∃ account, strideAccount address = .ok account := by
  unfold validateAddress at h
  split at h
  · exact ⟨_, ‹_›⟩
  · cases h

/-- What a claim that was paid found and leaves. -/
structure PaidClaim (k k' : Keeper) (airdropId claimer : String) (airdrop : Airdrop)
    (u u' : UserAllocation) (amount : ℤ) : Prop where
  configured : k.airdrops.get? (bytes airdropId) = some airdrop
  found : k.getUserAllocation airdropId claimer = some u
  nonneg : 0 ≤ amount
  /-- The coins come from the distributor. -/
  sent : ∃ distributorAccount claimerAccount,
    strideAccount airdrop.distributorAddress = .ok distributorAccount ∧
    strideAccount u.address = .ok claimerAccount ∧
    k.bank.sendCoins distributorAccount claimerAccount (airdrop.rewardDenom, amount) = .ok k'.bank
  keeper : k' = { k with
    bank := k'.bank
    userAllocations := k.userAllocations.set u' }

/-- A valid claimer is paid from its own allocation. -/
theorem PaidClaim.own (h : PaidClaim k k' airdropId claimer airdrop u u' amount)
    (hclaimer : strideAccount claimer = .ok account) :
    u.airdropId = airdropId ∧ u.address = claimer := by
  obtain ⟨_, _, -, haddress, -⟩ := h.sent
  have hkey : u.key = userAllocationKey airdropId claimer := KeyedStore.key_of_get? h.found
  exact userAllocationKey_inj (slash_notMem_of_strideAccount haddress)
    (slash_notMem_of_strideAccount hclaimer) hkey

private theorem distributeRewards_ok (hairdrop : k.airdrops.get? (bytes airdropId) = some airdrop)
    (hfound : k.getUserAllocation airdropId claimer = some u) (haddress : u'.address = u.address)
    (h : k.distributeRewards blockedAddr airdrop u' amount = .ok k') :
    PaidClaim k k' airdropId claimer airdrop u u' amount := by
  obtain ⟨distributorAccount, hdistributor, h⟩ := bind_eq_ok.mp h
  obtain ⟨claimerAccount, hclaimer, h⟩ := bind_eq_ok.mp h
  obtain ⟨coin, hcoin, h⟩ := bind_eq_ok.mp h
  obtain ⟨hnonneg, rfl⟩ := newCoin_eq_ok.mp hcoin
  obtain ⟨bank, hsent, h⟩ := bind_eq_ok.mp h
  cases h
  rw [haddress] at hclaimer
  exact
    { configured := hairdrop
      found := hfound
      nonneg := hnonneg
      sent := ⟨distributorAccount, claimerAccount, mustAccAddressFromBech32_ok hdistributor,
        mustAccAddressFromBech32_ok hclaimer, Bank.safeSendCoins_ok (wrapError_eq_ok.mp hsent)⟩
      keeper := rfl }

/-- An allocation whose first `n` periods were claimed. -/
def dailyClaimed (u : UserAllocation) (n : ℕ) : UserAllocation :=
  { u with
    allocations := replicate n 0 ++ u.allocations.drop n
    claimed := u.claimed + (u.allocations.take n).sum }

/-- A daily claim pays the periods that have begun. -/
theorem claimDaily_ok (h : k.claimDaily blockedAddr blockTime airdropId claimer = .ok (k', p)) :
    ∃ airdrop u index, airdrop.getCurrentDateIndex blockTime k.periodLengthSeconds = .ok index ∧
      index < u.allocations.length ∧ p.amount ≠ 0 ∧
      p = ⟨u.airdropId, u.address, (u.allocations.take (index + 1).toNat).sum, false⟩ ∧
      PaidClaim k k' airdropId claimer airdrop u (dailyClaimed u (index + 1).toNat) p.amount := by
  obtain ⟨airdrop, hairdrop, h⟩ := bind_eq_ok.mp h
  split at h
  · cases h
  rename_i u hfound
  obtain ⟨_, -, h⟩ := bind_eq_ok.mp h
  obtain ⟨_, -, h⟩ := bind_eq_ok.mp h
  obtain ⟨index, hindex, h⟩ := bind_eq_ok.mp h
  obtain ⟨⟨rewards, allocations⟩, htaken, h⟩ := bind_eq_ok.mp h
  obtain ⟨hlt, rfl, rfl⟩ := takeRewards_ok htaken
  obtain ⟨_, hnonzero, h⟩ := bind_eq_ok.mp h
  obtain ⟨k₁, hpaid, h⟩ := bind_eq_ok.mp h
  cases h
  exact ⟨airdrop, u, index, hindex, hlt, require_eq_ok.mp hnonzero, rfl,
    distributeRewards_ok (getAirdrop_ok hairdrop) hfound rfl hpaid⟩

/-- An allocation that was claimed early, with what was paid of it. -/
def earlyClaimed (u : UserAllocation) (amount : ℤ) : UserAllocation :=
  { u with
    allocations := u.allocations.map fun _ => 0
    claimed := u.claimed + amount
    forfeited := u.forfeited + (u.allocations.sum - amount) }

/-- An early claim pays what is left, less the penalty. -/
theorem claimEarly_ok (h : k.claimEarly blockedAddr blockTime airdropId claimer = .ok (k', p)) :
    ∃ airdrop u, u.allocations.sum ≠ 0 ∧
      p = ⟨u.airdropId, u.address, earlyRewards airdrop u.allocations.sum, true⟩ ∧
      PaidClaim k k' airdropId claimer airdrop u (earlyClaimed u p.amount) p.amount := by
  obtain ⟨airdrop, hairdrop, h⟩ := bind_eq_ok.mp h
  split at h
  · cases h
  rename_i u hfound
  obtain ⟨_, -, h⟩ := bind_eq_ok.mp h
  obtain ⟨_, -, h⟩ := bind_eq_ok.mp h
  obtain ⟨_, hnonzero, h⟩ := bind_eq_ok.mp h
  obtain ⟨k₁, hpaid, h⟩ := bind_eq_ok.mp h
  cases h
  exact ⟨airdrop, u, require_eq_ok.mp hnonzero, rfl,
    distributeRewards_ok (getAirdrop_ok hairdrop) hfound rfl hpaid⟩

/-- An allocation with the amounts of another one added to it. -/
def mergedAllocation (u host : UserAllocation) : UserAllocation :=
  { u with allocations := zipWith (· + ·) u.allocations host.allocations }

/-- What a link found and leaves: the allocation of the host address goes to the stride address,
    or is added to the allocation that is there. -/
inductive Linked (k : Keeper) (airdropId strideAddress hostAddress : String) (k' : Keeper) : Prop
  | moved (host : UserAllocation) :
      k.getUserAllocation airdropId hostAddress = some host →
      k.getUserAllocation airdropId strideAddress = none →
      k' = { k with
        userAllocations :=
          (k.userAllocations.delete (userAllocationKey airdropId hostAddress)).set
            { host with address := strideAddress } } →
      Linked k airdropId strideAddress hostAddress k'
  | merged (host u : UserAllocation) :
      k.getUserAllocation airdropId hostAddress = some host →
      k.getUserAllocation airdropId strideAddress = some u →
      u.allocations.length = host.allocations.length →
      k' = { k with
        userAllocations := (k.userAllocations.set (mergedAllocation u host)).delete
          (userAllocationKey airdropId hostAddress) } →
      Linked k airdropId strideAddress hostAddress k'

theorem linkAddresses_ok {strideAddress hostAddress : String}
    (h : k.linkAddresses airdropId strideAddress hostAddress = .ok k') :
    Linked k airdropId strideAddress hostAddress k' := by
  unfold linkAddresses at h
  split at h
  · cases h
  rename_i host hhost
  split at h
  · rename_i hstride
    cases h
    exact .moved host hhost hstride rfl
  · rename_i u hstride
    obtain ⟨_, hlength, h⟩ := bind_eq_ok.mp h
    cases h
    exact .merged host u hhost hstride (require_eq_ok.mp hlength) rfl

theorem airdropConfigValidateBasic_penalty (h : airdropConfigValidateBasic a = .ok ()) :
    0 ≤ a.earlyClaimPenalty.i ∧ a.earlyClaimPenalty.i ≤ LegacyDec.one.i := by
  iterate 10 obtain ⟨_, -, h⟩ := bind_eq_ok.mp h
  obtain ⟨_, hpenalty, -⟩ := bind_eq_ok.mp h
  exact require_eq_ok.mp hpenalty

theorem airdropConfigValidateBasic_dates (h : airdropConfigValidateBasic a = .ok ()) :
    unix a.distributionStartDate ≤ unix a.distributionEndDate := by
  iterate 6 obtain ⟨_, -, h⟩ := bind_eq_ok.mp h
  obtain ⟨_, hdates, -⟩ := bind_eq_ok.mp h
  exact Int.ediv_le_ediv (by decide) (le_of_lt (require_eq_ok.mp hdates))

end Keeper

end Stride.Airdrops
