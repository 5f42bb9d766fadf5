import Stride.Stakeibc.RedemptionSweep

/-!
# Claiming Unbonded Tokens

Once the tokens of an unbonding have arrived at the redemption account of its zone, anyone can
ask for the payment of one of its user records. The payment is a bank send on the host; the
record is marked as pending until it is acknowledged. Epochs of which everything was paid are
cleaned up once a day.

`sdk.NewCoins` leaves out coins of amount zero: an amount of zero stands for no coins.
-/

namespace Stride.Stakeibc

open Lib Sdk Records Records.EpochUnbondingStore

/-! ## Model -/

structure MsgClaimUndelegatedTokens where
  creator : String
  hostZoneId : String
  epoch : ℕ
  receiver : String
  deriving DecidableEq

structure ClaimKeeper where
  hostZones : HostZoneStore
  /-- `NextEpochStartTime` of the tracker of the stride epoch, if there is one -/
  nextEpochStartTime : Option ℕ
  icaTimeoutNanos : ℕ
  epochUnbondingRecords : EpochUnbondingStore
  userRedemptionRecords : UserRedemptionStore

/-- Data stored for the callback of a claim. -/
structure ClaimCallback where
  userRedemptionRecordId : String
  chainId : String
  epochNumber : ℕ
  deriving DecidableEq

/-- The payment of a claim, a bank send on the host. -/
structure IcaTx where
  connectionId : String
  fromAddress : String
  toAddress : String
  amount : String × ℤ
  timeout : ℕ
  deriving DecidableEq

structure ClaimTx where
  ica : IcaTx
  callback : ClaimCallback
  deriving DecidableEq

/-- `GetClaimableRedemptionRecord`. The unbonding is that of the epoch of the record and of the
    zone of the message. -/
def getClaimableRedemptionRecord (k : ClaimKeeper) (msg : MsgClaimUndelegatedTokens) :
    Result UserRedemptionRecord :=
  let userRedemptionRecordKey :=
    userRedemptionRecordKeyFormatter msg.hostZoneId msg.epoch msg.receiver
  match k.userRedemptionRecords.get? userRedemptionRecordKey with
  | none => wrapf .errInvalidUserRedemptionRecord
      s!"user redemption record {userRedemptionRecordKey} not found on host zone {msg.hostZoneId}"
  | some user =>
    match k.epochUnbondingRecords.getHostZoneUnbondingByChainId user.epochNumber
        msg.hostZoneId with
    | none => wrapf .errInvalidUserRedemptionRecord
        s!"host zone unbonding record {userRedemptionRecordKey} not found on host zone {msg.hostZoneId}"
    | some hostZoneUnbonding => do
      require (hostZoneUnbonding.status = .claimable) .errInvalidUserRedemptionRecord
        s!"user redemption record {user.id} is not claimable, requires status CLAIMABLE"
      require (user.claimIsPending = false) .errInvalidUserRedemptionRecord
        s!"user redemption record {user.id} is not claimable, pending ack"
      return user

def getRedemptionTransferMsg (k : ClaimKeeper) (user : UserRedemptionRecord)
    (hostZoneId : String) : Result IcaTx :=
  match k.hostZones.get? hostZoneId with
  | none => wrapf .errInvalidHostZone s!"Host zone {hostZoneId} not found"
  | some hostZone => do
    require (hostZone.redemptionIcaAddress ≠ "") .errICAAccountNotFound
      s!"Redemption account not found for host zone {hostZoneId}"
    let coin ← newCoin user.denom user.nativeTokenAmount
    match k.nextEpochStartTime with
    | none => wrapf .errEpochNotFound "epoch tracker not found for epoch stride_epoch"
    | some nextEpochStartTime =>
      return ⟨hostZone.connectionId, hostZone.redemptionIcaAddress, user.receiver, coin,
        (nextEpochStartTime + k.icaTimeoutNanos) % 2 ^ 64⟩

/-- Stores a user record with its flag set anew. -/
def setClaimIsPending (k : ClaimKeeper) (user : UserRedemptionRecord)
    (claimIsPending : Bool) : ClaimKeeper :=
  { k with userRedemptionRecords :=
      k.userRedemptionRecords.set { user with claimIsPending := claimIsPending } }

/-- `ClaimUndelegatedTokens`, with the transaction it sent. -/
def claimUndelegatedTokens (k : ClaimKeeper) (msg : MsgClaimUndelegatedTokens)
    (submitTxs : Bool) : Result (ClaimKeeper × ClaimTx) := do
  let user ← wrapError (getClaimableRedemptionRecord k msg)
    "unable to find claimable redemption record"
  -- a claim on a halted zone fails
  let _ ← getActiveHostZone k.hostZones msg.hostZoneId
  let icaTx ← wrapError (getRedemptionTransferMsg k user msg.hostZoneId)
    "unable to build redemption transfer message"
  require submitTxs .plain "unable to submit ICA redemption tx"
  return (setClaimIsPending k user true, ⟨icaTx, ⟨user.id, msg.hostZoneId, msg.epoch⟩⟩)

/-- An unbonding of which a user record has been paid. -/
def decremented (r : HostZoneUnbonding) (user : UserRedemptionRecord) :
    HostZoneUnbonding :=
  { r with claimableNativeTokens := r.claimableNativeTokens - user.nativeTokenAmount }

def decrementHostZoneUnbonding (k : ClaimKeeper) (user : UserRedemptionRecord)
    (callback : ClaimCallback) : Result ClaimKeeper :=
  match k.epochUnbondingRecords.getHostZoneUnbondingByChainId callback.epochNumber
      callback.chainId with
  | none => wrapf .errRecordNotFound s!"host zone unbonding not found {callback.chainId}"
  | some hostZoneUnbonding => do
    let records ← setHostZoneUnbondingRecord k.epochUnbondingRecords callback.epochNumber
      callback.chainId (decremented hostZoneUnbonding user)
    return { k with epochUnbondingRecords := records }

def claimCallback (k : ClaimKeeper) (callback : ClaimCallback) (status : AckStatus) :
    Result ClaimKeeper :=
  match k.userRedemptionRecords.get? callback.userRedemptionRecordId with
  | none => wrapf .errRecordNotFound
      s!"user redemption record not found {callback.userRedemptionRecordId}"
  | some user =>
    match status with
    | .success =>
      decrementHostZoneUnbonding { k with
        userRedemptionRecords := k.userRedemptionRecords.delete callback.userRedemptionRecordId }
        user callback
    -- after a timeout or a failure the claim can be retried
    | _ => return setClaimIsPending k user false

/-- All the unbondings of an epoch are claimable with nothing left to claim. -/
def fullyClaimed (epochUnbondingRecord : EpochUnbondingRecord) : Bool :=
  epochUnbondingRecord.hostZoneUnbondings.all fun hostZoneUnbonding =>
    hostZoneUnbonding.status = .claimable && hostZoneUnbonding.claimableNativeTokens = 0

def cleanupEpochUnbondingRecords (s : EpochUnbondingStore) : EpochUnbondingStore :=
  s.getAllEpochUnbondingRecord.foldl (fun s epochUnbondingRecord =>
    if fullyClaimed epochUnbondingRecord then
      s.removeEpochUnbondingRecord epochUnbondingRecord.epochNumber
    else s) s

/-! ## Outcomes -/

variable {k k' : ClaimKeeper}

/-- **Claim**: a claim that goes through is for a stored record that is not pending; it sends
    the amount of the record to its receiver and marks it. -/
theorem claimUndelegatedTokens_ok {msg : MsgClaimUndelegatedTokens} {submitTxs : Bool}
    {tx : ClaimTx} (h : claimUndelegatedTokens k msg submitTxs = .ok (k', tx)) :
    ∃ user r z,
      k.userRedemptionRecords.get?
        (userRedemptionRecordKeyFormatter msg.hostZoneId msg.epoch msg.receiver) = some user ∧
      hostZoneUnbondings k.epochUnbondingRecords msg.hostZoneId user.epochNumber = some r ∧
      r.status = .claimable ∧ user.claimIsPending = false ∧
      k.hostZones.get? msg.hostZoneId = some z ∧
      tx.ica.fromAddress = z.redemptionIcaAddress ∧ tx.ica.toAddress = user.receiver ∧
      tx.ica.amount = (user.denom, user.nativeTokenAmount) ∧
      tx.callback = ⟨user.id, msg.hostZoneId, msg.epoch⟩ ∧
      k' = setClaimIsPending k user true := by
  obtain ⟨user, huser, h⟩ := bind_eq_ok.mp h
  obtain ⟨_, -, h⟩ := bind_eq_ok.mp h
  obtain ⟨ica, hica, h⟩ := bind_eq_ok.mp h
  obtain ⟨_, -, h⟩ := bind_eq_ok.mp h
  cases h
  replace huser := wrapError_eq_ok.mp huser
  replace hica := wrapError_eq_ok.mp hica
  unfold getClaimableRedemptionRecord at huser
  dsimp only at huser
  split at huser
  · cases huser
  rename_i stored hstored
  split at huser
  · cases huser
  rename_i r hr
  obtain ⟨_, hstatus, huser⟩ := bind_eq_ok.mp huser
  obtain ⟨_, hpending, huser⟩ := bind_eq_ok.mp huser
  cases huser
  unfold getRedemptionTransferMsg at hica
  split at hica
  · cases hica
  rename_i z hz
  obtain ⟨_, -, hica⟩ := bind_eq_ok.mp hica
  obtain ⟨coin, hcoin, hica⟩ := bind_eq_ok.mp hica
  split at hica
  · cases hica
  cases hica
  have hamount : coin = (user.denom, user.nativeTokenAmount) := (newCoin_eq_ok.mp hcoin).2
  exact ⟨user, r, z, hstored, hr, require_eq_ok.mp hstatus, require_eq_ok.mp hpending, hz,
    rfl, rfl, hamount, rfl, rfl⟩

/-- **Callback**: a success removes the record and takes its amount from the unbonding of the
    callback; otherwise the record is no longer pending. -/
theorem claimCallback_ok {callback : ClaimCallback} {status : AckStatus}
    (h : claimCallback k callback status = .ok k') :
    ∃ user, k.userRedemptionRecords.get? callback.userRedemptionRecordId = some user ∧
      ((status ≠ .success ∧ k' = setClaimIsPending k user false) ∨
        (status = .success ∧ ∃ r records,
          hostZoneUnbondings k.epochUnbondingRecords callback.chainId callback.epochNumber =
            some r ∧
          setHostZoneUnbondingRecord k.epochUnbondingRecords callback.epochNumber callback.chainId
            (decremented r user) = .ok records ∧
          k' = { k with
            epochUnbondingRecords := records
            userRedemptionRecords :=
              k.userRedemptionRecords.delete callback.userRedemptionRecordId })) := by
  unfold claimCallback at h
  split at h
  · cases h
  rename_i user huser
  refine ⟨user, huser, ?_⟩
  cases status with
  | success =>
    right
    dsimp only [decrementHostZoneUnbonding] at h
    split at h
    · cases h
    rename_i r hr
    obtain ⟨records, hrecords, h⟩ := bind_eq_ok.mp h
    cases h
    exact ⟨rfl, r, records, hr, hrecords, rfl⟩
  | _ =>
    cases h
    exact .inl ⟨by decide, rfl⟩

/-- **Clean-up**: exactly the epochs of which everything was claimed are removed. -/
theorem getEpochUnbondingRecord_cleanup (s : EpochUnbondingStore) (e : ℕ) :
    (cleanupEpochUnbondingRecords s).getEpochUnbondingRecord e =
      (s.getEpochUnbondingRecord e).filter fun eur => ¬ fullyClaimed eur := by
  have hloop : cleanupEpochUnbondingRecords s =
      ((s.getAllEpochUnbondingRecord.filter fullyClaimed).map
        EpochUnbondingRecord.epochNumber).foldl (fun s e => s.delete e) s := by
    rw [List.foldl_map, List.foldl_filter]
    rfl
  rw [hloop]
  refine (KeyedStore.get?_foldl_delete _ s e).trans ?_
  rw [show s.get? e = s.getEpochUnbondingRecord e from rfl]
  cases heur : s.getEpochUnbondingRecord e with
  | none => simp
  | some eur =>
    have hepoch : eur.epochNumber = e := s.keyed e eur heur
    have hmem : e ∈ (s.getAllEpochUnbondingRecord.filter fullyClaimed).map
        EpochUnbondingRecord.epochNumber ↔ fullyClaimed eur := by
      rw [List.mem_map]
      constructor
      · rintro ⟨eur', hmem, rfl⟩
        obtain ⟨hstored, hclaimed⟩ := List.mem_filter.mp hmem
        cases heur.symm.trans (mem_getAllEpochUnbondingRecord.mp hstored)
        exact hclaimed
      · intro hclaimed
        exact ⟨eur, List.mem_filter.mpr
          ⟨mem_getAllEpochUnbondingRecord.mpr (hepoch ▸ heur), hclaimed⟩, hepoch⟩
    by_cases hclaimed : fullyClaimed eur
    · rw [if_pos (hmem.mpr hclaimed)]
      simp [Option.filter, hclaimed]
    · rw [if_neg (mt hmem.mp hclaimed)]
      simp [Option.filter, hclaimed]

end Stride.Stakeibc
