import Stride.Lib.AtMostOnce
import Stride.Lib.Runs
import Stride.Stakeibc.Claim

/-!
# Redemptions Are Paid Once

Sweeps, claims and clean-ups share the unbonding records and the user records, while the bank
sends behind them are executed on the hosts and acknowledged later, in any order. Sweeps and
claims are operations with exclusive keys: a sweep takes the unbondings in
EXIT_TRANSFER_IN_PROGRESS, a claim takes a user record that is marked as pending.

A claim finds its user record under an id made of chain id, epoch and receiver, with dots in
between, and the receiver of the message is free. With chain ids that contain dots, a claim on
one zone can find a user record of another. It is then paid by the first zone, and its amount
is taken from an unbonding of the first zone.
-/

namespace Stride.Stakeibc

open Lib Sdk Records Records.EpochUnbondingStore KeyedStore List

/-! ## System -/

/-- Stride, and the sweeps and claims in flight. -/
structure ClaimSystem where
  keeper : ClaimKeeper
  sweeps : List (Pending RedemptionTx)
  claims : List (Pending ClaimTx)
  /-- sweeps that a host has executed -/
  received : List RedemptionTx
  /-- claims that a host has paid -/
  paid : List ClaimTx

inductive ClaimEvent where
  | sweep (chainId : String) (hostBlockTime : ℕ) (submitTxs : Bool)
  | hostSweep (i : ℕ) (executed : Bool)
  | sweepAck (i : ℕ) (status : AckStatus)
  | claim (msg : MsgClaimUndelegatedTokens) (submitTxs : Bool)
  | hostClaim (i : ℕ) (executed : Bool)
  | claimAck (i : ℕ) (status : AckStatus)
  | cleanup
  deriving DecidableEq

namespace ClaimKeeper

/-- What the sweeps of a zone see of the keeper. -/
def unbondingKeeper (k : ClaimKeeper) (hostZone : HostZone) : UnbondingKeeper :=
  ⟨hostZone, k.epochUnbondingRecords, .empty, ⟨0, 0⟩⟩

def withRecords (k : ClaimKeeper) (records : EpochUnbondingStore) : ClaimKeeper :=
  { k with epochUnbondingRecords := records }

def view (k : ClaimKeeper) (chainId : String) (epochNumber : ℕ) : Option HostZoneUnbonding :=
  hostZoneUnbondings k.epochUnbondingRecords chainId epochNumber

end ClaimKeeper

namespace ClaimSystem

/-- One event. A failed transaction changes nothing. -/
def step (s : ClaimSystem) : ClaimEvent → Option ClaimSystem
  | .sweep chainId hostBlockTime submitTxs =>
    match getActiveHostZone s.keeper.hostZones chainId with
    | .error _ => none
    | .ok hostZone =>
      match sweepUnbondedTokensForHostZone (s.keeper.unbondingKeeper hostZone) hostBlockTime
          submitTxs with
      | .error _ => none
      | .ok (_, none) => some s
      | .ok (k, some tx) => some { s with
          keeper := s.keeper.withRecords k.epochUnbondingRecords
          sweeps := s.sweeps ++ [⟨tx, .sent⟩] }
  | .hostSweep i executed =>
    match s.sweeps[i]? with
    | some ⟨tx, .sent⟩ =>
      if executed then
        some { s with
          sweeps := s.sweeps.set i ⟨tx, .executed⟩
          received := s.received ++ [tx] }
      else some { s with sweeps := s.sweeps.set i ⟨tx, .rejected⟩ }
    | _ => none
  | .sweepAck i status =>
    match s.sweeps[i]? with
    | none => none
    | some p =>
      match s.keeper.hostZones.get? p.op.callback.hostZoneId with
      | none => none
      | some hostZone =>
        if answeredBy p.progress status then
          (redemptionCallback (s.keeper.unbondingKeeper hostZone) p.op.callback
            status).toOption.map fun k =>
            { s with
              keeper := s.keeper.withRecords k.epochUnbondingRecords
              sweeps := s.sweeps.eraseIdx i }
        else none
  | .claim msg submitTxs =>
    (claimUndelegatedTokens s.keeper msg submitTxs).toOption.map fun (k, tx) =>
      { s with keeper := k, claims := s.claims ++ [⟨tx, .sent⟩] }
  | .hostClaim i executed =>
    match s.claims[i]? with
    | some ⟨tx, .sent⟩ =>
      if executed then
        some { s with
          claims := s.claims.set i ⟨tx, .executed⟩
          paid := s.paid ++ [tx] }
      else some { s with claims := s.claims.set i ⟨tx, .rejected⟩ }
    | _ => none
  | .claimAck i status =>
    match s.claims[i]? with
    | none => none
    | some p =>
      if answeredBy p.progress status then
        (claimCallback s.keeper p.op.callback status).toOption.map fun k =>
          { s with keeper := k, claims := s.claims.eraseIdx i }
      else none
  | .cleanup =>
    some { s with keeper :=
      s.keeper.withRecords (cleanupEpochUnbondingRecords s.keeper.epochUnbondingRecords) }

end ClaimSystem

/-! ## Property -/

/-- What a user record counts for an unbonding. -/
def owedBy (chainId : String) (e : ℕ) (user : UserRedemptionRecord) : ℤ :=
  if user.hostZoneId = chainId ∧ user.epochNumber = e then user.nativeTokenAmount else 0

/-- The sum over the user records of a zone and an epoch. -/
def owed (users : UserRedemptionStore) (chainId : String) (e : ℕ) : ℤ :=
  (users.values.map (owedBy chainId e)).sum

namespace ClaimSystem

/-- What an account on a host has paid out for claims. -/
def paidFrom (s : ClaimSystem) (chainId account denom : String) : ℤ :=
  (s.paid.map fun tx =>
    if tx.callback.chainId = chainId ∧ tx.ica.fromAddress = account ∧ tx.ica.amount.1 = denom
    then tx.ica.amount.2 else 0).sum

/-- What an account on a host has received by sweeps. -/
def receivedAt (s : ClaimSystem) (chainId account denom : String) : ℤ :=
  (s.received.map fun tx =>
    if tx.callback.hostZoneId = chainId ∧ tx.toAddress = account ∧ tx.amount.1 = denom
    then tx.amount.2 else 0).sum

/-- Redemptions of `s₀` are paid at most once and in full, and are not lost. -/
structure PaysOnce (s₀ s : ClaimSystem) : Prop where
  once : (s.paid.map fun tx => tx.callback.userRedemptionRecordId).Nodup
  amounts : ∀ tx ∈ s.paid, ∃ user,
    s₀.keeper.userRedemptionRecords.get? tx.callback.userRedemptionRecordId = some user ∧
      tx.ica.toAddress = user.receiver ∧ tx.ica.amount = (user.denom, user.nativeTokenAmount)
  inFlight : (s.claims.map fun p => p.op.callback.userRedemptionRecordId).Nodup
  claimable : ∀ e r, s.keeper.epochUnbondingRecords.Holds e r → r.status = .claimable →
    r.claimableNativeTokens = owed s.keeper.userRedemptionRecords r.hostZoneId e ∧
      0 ≤ r.claimableNativeTokens
  solvent : ∀ chainId account denom,
    s.paidFrom chainId account denom ≤ s.receivedAt chainId account denom
  /-- an epoch disappears only if nothing is owed for its unbondings -/
  cleanup : ∀ event s', s.step event = some s' → ∀ e eur,
    s.keeper.epochUnbondingRecords.getEpochUnbondingRecord e = some eur →
    s'.keeper.epochUnbondingRecords.getEpochUnbondingRecord e = none →
    ∀ r ∈ eur.hostZoneUnbondings, ∀ id user,
      s.keeper.userRedemptionRecords.get? id = some user → user.hostZoneId = r.hostZoneId →
      user.epochNumber = e → user.nativeTokenAmount ≤ 0

/-- No sweep has arrived yet, nothing is in flight, and the unbondings agree with their user
    records. -/
structure Started (s : ClaimSystem) : Prop where
  onePerChain : s.keeper.epochUnbondingRecords.OnePerChain
  amounts : ∀ e r, s.keeper.epochUnbondingRecords.Holds e r →
    r.nativeTokenAmount = owed s.keeper.userRedemptionRecords r.hostZoneId e
  statuses : ∀ e r, s.keeper.epochUnbondingRecords.Holds e r → r.status ≠ .claimable
  users : ∀ id user, s.keeper.userRedemptionRecords.get? id = some user →
    0 ≤ user.nativeTokenAmount ∧ user.claimIsPending = false ∧
      ∀ z, s.keeper.hostZones.get? user.hostZoneId = some z → user.denom = z.hostDenom
  sweeps : s.sweeps = []
  claims : s.claims = []
  received : s.received = []
  paid : s.paid = []

/-- A claim finds no user record, or one of the zone and epoch of the message. -/
def FindsOwnRecord (s : ClaimSystem) : ClaimEvent → Prop
  | .claim msg _ => ∀ user, s.keeper.userRedemptionRecords.get?
      (userRedemptionRecordKeyFormatter msg.hostZoneId msg.epoch msg.receiver) = some user →
      user.hostZoneId = msg.hostZoneId ∧ user.epochNumber = msg.epoch
  | _ => True

instance (s : ClaimSystem) (e : ClaimEvent) : Decidable (s.FindsOwnRecord e) := by
  apply @ClaimEvent.casesOn _ e <;> intros <;> dsimp only [FindsOwnRecord] <;> infer_instance

end ClaimSystem

/-! ## What is owed -/

section Owed

variable {users : UserRedemptionStore} {user : UserRedemptionRecord} {id chainId : String}
  {e : ℕ}

private theorem owed_set_claimIsPending (huser : users.get? id = some user) (claimIsPending : Bool)
    (chainId : String) (e : ℕ) :
    owed (users.set { user with claimIsPending := claimIsPending }) chainId e =
      owed users chainId e := by
  have hid : user.id = id := key_of_get? huser
  unfold owed
  rw [sum_values_set]
  show _ - (users.get? user.id).elim 0 (owedBy chainId e) + owedBy chainId e user = _
  rw [hid, huser, Option.elim_some, sub_add_cancel]

private theorem owed_delete (huser : users.get? id = some user) (chainId : String) (e : ℕ) :
    owed (users.delete id) chainId e = owed users chainId e - owedBy chainId e user := by
  unfold owed
  rw [sum_values_delete, huser, Option.elim_some]

private theorem owedBy_nonneg (h : 0 ≤ user.nativeTokenAmount) : 0 ≤ owedBy chainId e user := by
  unfold owedBy
  split
  · exact h
  · exact le_rfl

variable (hnonneg : ∀ id user, users.get? id = some user → 0 ≤ user.nativeTokenAmount)

include hnonneg

private theorem le_owed (huser : users.get? id = some user) (hchain : user.hostZoneId = chainId)
    (hepoch : user.epochNumber = e) : user.nativeTokenAmount ≤ owed users chainId e := by
  have hle := sum_get?_le (f := owedBy chainId e) (nodup_singleton id) (s := users)
    fun id user h => owedBy_nonneg (hnonneg id user h)
  rw [map_singleton, sum_singleton, huser, Option.elim_some, owedBy,
    if_pos ⟨hchain, hepoch⟩] at hle
  exact hle

private theorem owed_nonneg (chainId : String) (e : ℕ) : 0 ≤ owed users chainId e :=
  sum_get?_le (f := owedBy chainId e) nodup_nil (s := users)
    fun id user h => owedBy_nonneg (hnonneg id user h)

end Owed

/-! ## Invariant -/

/-- What an unbonding has for its user records: its native amount, or what is left of it. -/
def unclaimed (r : HostZoneUnbonding) : ℤ :=
  if r.status = .claimable then r.claimableNativeTokens else r.nativeTokenAmount

/-- The unbondings that a sweep takes. -/
def RedemptionTx.unbondings (tx : RedemptionTx) : List (String × ℕ) :=
  tx.callback.epochUnbondingRecordIds.map fun e => (tx.callback.hostZoneId, e)

/-- The user record that a claim takes. -/
def ClaimTx.records (tx : ClaimTx) : List String :=
  [tx.callback.userRedemptionRecordId]

variable {tx : RedemptionTx} {k k₀ : ClaimKeeper} {q : String × ℕ} {records : EpochUnbondingStore}
  {g : HostZoneUnbonding → HostZoneUnbonding} {r : HostZoneUnbonding}

private theorem RedemptionTx.mem_unbondings {c : String} {e : ℕ} :
    (c, e) ∈ tx.unbondings ↔
      c = tx.callback.hostZoneId ∧ e ∈ tx.callback.epochUnbondingRecordIds := by
  simp only [unbondings, mem_map, Prod.mk.injEq]
  constructor
  · rintro ⟨e', he', rfl, rfl⟩
    exact ⟨rfl, he'⟩
  · rintro ⟨rfl, he⟩
    exact ⟨e, he, rfl, rfl⟩

namespace ClaimKeeper

/-- An unbonding that a sweep in flight has taken. -/
def Sweeping (k : ClaimKeeper) (q : String × ℕ) : Prop :=
  ∃ r, k.view q.1 q.2 = some r ∧ r.status = .exitTransferInProgress

/-- An unbonding whose tokens have arrived, if it has not been cleaned up since. -/
def Swept (k : ClaimKeeper) (q : String × ℕ) : Prop :=
  ∀ r, k.view q.1 q.2 = some r → r.status = .claimable

/-- A user record that a claim in flight has taken. -/
def ClaimPending (k : ClaimKeeper) (id : String) : Prop :=
  ∃ user, k.userRedemptionRecords.get? id = some user ∧ user.claimIsPending = true

/-- A user record that was paid and removed. -/
def Gone (k : ClaimKeeper) (id : String) : Prop :=
  k.userRedemptionRecords.get? id = none

variable {user : UserRedemptionRecord} {id : String}

private theorem Sweeping.not_swept (h : k.Sweeping q) : ¬ k.Swept q := by
  obtain ⟨r, hr, hstatus⟩ := h
  intro hswept
  rw [hswept r hr] at hstatus
  cases hstatus

private theorem ClaimPending.not_gone (h : k.ClaimPending id) : ¬ k.Gone id := by
  obtain ⟨user, huser, -⟩ := h
  intro hgone
  rw [Gone, huser] at hgone
  cases hgone

/-- A sweep of amounts owed in `k`, to the redemption account of its zone. -/
def IsSweep (k : ClaimKeeper) (tx : RedemptionTx) : Prop :=
  ∃ z, k.hostZones.get? tx.callback.hostZoneId = some z ∧
    tx.toAddress = z.redemptionIcaAddress ∧
    tx.amount = (z.hostDenom, (tx.unbondings.map fun q =>
      owed k.userRedemptionRecords q.1 q.2).sum)

/-- A claim of a user record of `k`, out of the redemption account of its zone. -/
def IsClaim (k : ClaimKeeper) (tx : ClaimTx) : Prop :=
  ∃ z user, k.hostZones.get? tx.callback.chainId = some z ∧
    tx.ica.fromAddress = z.redemptionIcaAddress ∧
    k.userRedemptionRecords.get? tx.callback.userRedemptionRecordId = some user ∧
    user.hostZoneId = tx.callback.chainId ∧ user.epochNumber = tx.callback.epochNumber ∧
    tx.ica.toAddress = user.receiver ∧ tx.ica.amount = (user.denom, user.nativeTokenAmount)

/-- The books of `k` agree, and come from those of `k₀`. -/
structure Accounts (k₀ k : ClaimKeeper) : Prop where
  zones : k.hostZones = k₀.hostZones
  onePerChain : k.epochUnbondingRecords.OnePerChain
  users : ∀ id user, k.userRedemptionRecords.get? id = some user →
    ∃ user₀, k₀.userRedemptionRecords.get? id = some user₀ ∧
      user = { user₀ with claimIsPending := user.claimIsPending }
  native : ∀ c e r, k.view c e = some r →
    r.nativeTokenAmount = owed k₀.userRedemptionRecords c e
  unclaimed : ∀ c e r, k.view c e = some r → unclaimed r = owed k.userRedemptionRecords c e

private theorem Accounts.rewrite (h : Accounts k₀ k) (hone : records.OnePerChain)
    (hview : ∀ c e r', hostZoneUnbondings records c e = some r' → ∃ r, k.view c e = some r ∧
      r'.nativeTokenAmount = r.nativeTokenAmount ∧ Stakeibc.unclaimed r' = Stakeibc.unclaimed r) :
    Accounts k₀ (k.withRecords records) where
  zones := h.zones
  onePerChain := hone
  users := h.users
  native c e r' hr' := by
    obtain ⟨r, hr, hnative, -⟩ := hview c e r' hr'
    rw [hnative, h.native c e r hr]
  unclaimed c e r' hr' := by
    obtain ⟨r, hr, -, hunclaimed⟩ := hview c e r' hr'
    rw [hunclaimed, h.unclaimed c e r hr]
    rfl

private theorem Accounts.setClaimIsPending (h : Accounts k₀ k)
    (huser : k.userRedemptionRecords.get? id = some user) (claimIsPending : Bool) :
    Accounts k₀ (setClaimIsPending k user claimIsPending) where
  zones := h.zones
  onePerChain := h.onePerChain
  users id' user' huser' := by
    have hid : user.id = id := key_of_get? huser
    replace huser' : (k.userRedemptionRecords.set _).get? id' = some user' := huser'
    rw [get?_set] at huser'
    split at huser'
    · rename_i hid'
      cases huser'
      obtain ⟨user₀, huser₀, heq⟩ := h.users id user huser
      refine ⟨user₀, (hid'.trans hid) ▸ huser₀, ?_⟩
      rw [heq]
    · exact h.users id' user' huser'
  native := h.native
  unclaimed c e r hr := by
    show Stakeibc.unclaimed r = owed (k.userRedemptionRecords.set _) c e
    rw [owed_set_claimIsPending huser]
    exact h.unclaimed c e r hr

private theorem get?_setClaimIsPending (huser : k.userRedemptionRecords.get? id = some user)
    (claimIsPending : Bool) (id' : String) :
    (setClaimIsPending k user claimIsPending).userRedemptionRecords.get? id' =
      if id' = id then some { user with claimIsPending := claimIsPending }
      else k.userRedemptionRecords.get? id' := by
  have hid : user.id = id := key_of_get? huser
  subst hid
  exact get?_set ..

end ClaimKeeper

open ClaimKeeper

namespace ClaimSystem

def arrived (s : ClaimSystem) : List (String × ℕ) :=
  s.received.flatMap RedemptionTx.unbondings

/-- The books agree, and sweeps and claims happen at most once. -/
structure Inv (s₀ s : ClaimSystem) : Prop where
  accounts : Accounts s₀.keeper s.keeper
  sweeps : AtMostOnce RedemptionTx.unbondings s.keeper.Sweeping s.keeper.Swept s.sweeps s.received
  claims : AtMostOnce ClaimTx.records s.keeper.ClaimPending s.keeper.Gone s.claims s.paid
  sweepTxs : ∀ p ∈ s.sweeps, s₀.keeper.IsSweep p.op
  receivedTxs : ∀ tx ∈ s.received, s₀.keeper.IsSweep tx
  claimTxs : ∀ p ∈ s.claims, s₀.keeper.IsClaim p.op ∧
    (p.op.callback.chainId, p.op.callback.epochNumber) ∈ s.arrived ∧
    s.keeper.Swept (p.op.callback.chainId, p.op.callback.epochNumber)
  paidTxs : ∀ tx ∈ s.paid, s₀.keeper.IsClaim tx ∧
    (tx.callback.chainId, tx.callback.epochNumber) ∈ s.arrived
  claimable : ∀ c e r, s.keeper.view c e = some r → r.status = .claimable → (c, e) ∈ s.arrived

variable {s₀ s s' : ClaimSystem}

private theorem Started.of_view (h : s.Started) {c : String} {e : ℕ}
    (hr : s.keeper.view c e = some r) :
    r.nativeTokenAmount = owed s.keeper.userRedemptionRecords c e ∧ r.status ≠ .claimable := by
  have hid : r.hostZoneId = c := hostZoneId_of_hostZoneUnbondings hr
  subst hid
  have hholds := h.onePerChain.holds_iff.mpr hr
  exact ⟨h.amounts e r hholds, h.statuses e r hholds⟩

private theorem Started.inv (h : s.Started) : Inv s s where
  accounts :=
    { zones := rfl
      onePerChain := h.onePerChain
      users := fun id user huser => ⟨user, huser, rfl⟩
      native := fun c e r hr => (h.of_view hr).1
      unclaimed := fun c e r hr => by
        rw [unclaimed, if_neg (h.of_view hr).2]
        exact (h.of_view hr).1 }
  sweeps := by
    rw [h.sweeps, h.received]
    exact .nil
  claims := by
    rw [h.claims, h.paid]
    exact .nil
  sweepTxs := by simp [h.sweeps]
  receivedTxs := by simp [h.received]
  claimTxs := by simp [h.claims]
  paidTxs := by simp [h.paid]
  claimable c e r hr hstatus := absurd hstatus (h.of_view hr).2

/-! ## Sweeps -/

section Rewrite

variable {taken : List (String × ℕ)}

/-- The unbondings in `taken` are rewritten by `g`. -/
def Rewritten (k : ClaimKeeper) (records : EpochUnbondingStore) (taken : List (String × ℕ))
    (g : HostZoneUnbonding → HostZoneUnbonding) : Prop :=
  ∀ q : String × ℕ, hostZoneUnbondings records q.1 q.2 =
    if q ∈ taken then (k.view q.1 q.2).map g else k.view q.1 q.2

variable (h : Rewritten k records taken g)

include h

private theorem Rewritten.other (hq : q ∉ taken) :
    (k.withRecords records).view q.1 q.2 = k.view q.1 q.2 :=
  (h q).trans (if_neg hq)

private theorem Rewritten.self (hq : q ∈ taken) (hr : k.view q.1 q.2 = some r) :
    (k.withRecords records).view q.1 q.2 = some (g r) := by
  refine (h q).trans ?_
  rw [if_pos hq, hr, Option.map_some]

private theorem Rewritten.same_other (hq : q ∉ taken) :
    (k.Sweeping q → (k.withRecords records).Sweeping q) ∧
      (k.Swept q → (k.withRecords records).Swept q) := by
  unfold Sweeping Swept
  rw [h.other hq]
  exact ⟨id, id⟩

private theorem Rewritten.accounts (hk : Accounts k₀ k) (hone : records.OnePerChain)
    (hg : ∀ q ∈ taken, ∀ r, k.view q.1 q.2 = some r →
      (g r).nativeTokenAmount = r.nativeTokenAmount ∧ unclaimed (g r) = unclaimed r) :
    Accounts k₀ (k.withRecords records) := by
  apply hk.rewrite hone
  intro c e r' hr'
  rw [h (c, e)] at hr'
  split at hr'
  · rename_i hq
    obtain ⟨r, hr, rfl⟩ := Option.map_eq_some_iff.mp hr'
    exact ⟨r, hr, hg (c, e) hq r hr⟩
  · exact ⟨r', hr', rfl, rfl⟩

end Rewrite

private theorem rewritten_of_rewrites {tx : RedemptionTx}
    (h : Rewrites tx.callback.hostZoneId tx.callback.epochUnbondingRecordIds g
      k.epochUnbondingRecords records) : Rewritten k records tx.unbondings g :=
  fun (c, e) => by simpa only [RedemptionTx.mem_unbondings, view] using h.view c e

variable {status : AckStatus} {submitTxs : Bool} {event : ClaimEvent} {z : HostZone}
  {p : Pending RedemptionTx} {e i : ℕ}

/-- **A sweep** is sent: its records are taken, and the tokens are on the way. -/
theorem Inv.sweep (hi : Inv s₀ s) {chainId : String} (hz : s.keeper.hostZones.get? chainId = some z)
    {hostBlockTime : ℕ} {k : UnbondingKeeper}
    (h : sweepUnbondedTokensForHostZone (s.keeper.unbondingKeeper z) hostBlockTime submitTxs =
      .ok (k, some tx)) :
    Inv s₀ { s with
      keeper := s.keeper.withRecords k.epochUnbondingRecords
      sweeps := s.sweeps ++ [⟨tx, .sent⟩] } := by
  rcases sweepUnbondedTokensForHostZone_spec h with ⟨hnone, -⟩ |
    ⟨tx', swept, records, hsent, rfl, hswept, hcallback, hto, hamount, hmarked, hone⟩
  · cases hnone
  cases hsent
  have hzone : z.chainId = chainId := key_of_get? hz
  have hchain : tx.callback.hostZoneId = z.chainId :=
    congrArg RedemptionCallback.hostZoneId hcallback
  have hepochs : tx.callback.epochUnbondingRecordIds = swept.map Prod.fst :=
    congrArg RedemptionCallback.epochUnbondingRecordIds hcallback
  have hrecs {p : ℕ × HostZoneUnbonding} (hp : p ∈ swept) :
      s.keeper.view z.chainId p.1 = some p.2 ∧ p.2.status = .exitTransferQueue := by
    obtain ⟨hr, hstatus, -⟩ := of_mem_sweptRecords (hswept ▸ hp)
    exact ⟨hr, hstatus⟩
  have hview : Rewritten s.keeper records tx.unbondings
      (fun r => { r with status := .exitTransferInProgress }) := by
    apply rewritten_of_rewrites
    rw [hchain, hepochs]
    exact hmarked
  -- the unbondings that are taken were waiting
  have htaken (q : String × ℕ) (hq : q ∈ tx.unbondings) :
      ∃ r, s.keeper.view q.1 q.2 = some r ∧ r.status = .exitTransferQueue := by
    obtain ⟨hc, he⟩ := RedemptionTx.mem_unbondings.mp hq
    rw [hepochs] at he
    obtain ⟨p, hp, heq⟩ := mem_map.mp he
    rw [hc, hchain, ← heq]
    exact ⟨p.2, hrecs hp⟩
  have hwaiting (q : String × ℕ) (hq : q ∈ tx.unbondings) (r : HostZoneUnbonding)
      (hr : s.keeper.view q.1 q.2 = some r) : r.status = .exitTransferQueue := by
    obtain ⟨r', hr', hstatus⟩ := htaken q hq
    obtain rfl : r = r' := Option.some.inj (hr.symm.trans hr')
    exact hstatus
  have hopen (q : String × ℕ) (hq : q ∈ tx.unbondings) : ¬ s.keeper.Swept q := by
    obtain ⟨r, hr, hstatus⟩ := htaken q hq
    intro hswept
    rw [hswept r hr] at hstatus
    cases hstatus
  have hsweep : s₀.keeper.IsSweep tx := by
    refine ⟨z, ?_, hto, hamount.trans ?_⟩
    · rw [hchain, hzone, ← hi.accounts.zones]
      exact hz
    · rw [RedemptionTx.unbondings, hepochs, map_map, map_map]
      refine congrArg (fun l : List ℤ => (z.hostDenom, l.sum)) (map_congr_left fun p hp => ?_)
      rw [hchain]
      exact hi.accounts.native z.chainId p.1 p.2 (hrecs hp).1
  refine
    { hi with
      accounts := ?_
      sweeps := ?_
      sweepTxs := forall_mem_concat hi.sweepTxs hsweep
      claimTxs := ?_
      claimable := ?_ }
  · apply hview.accounts hi.accounts (hone hi.accounts.onePerChain)
    intro q hq r hr
    simp [unclaimed, hwaiting q hq r hr]
  · apply hi.sweeps.send
    · have hnd : (swept.map Prod.fst).Nodup := hswept ▸ nodup_selectHostZoneUnbondings _ _ _
      rw [RedemptionTx.unbondings, hepochs]
      exact hnd.map fun e e' heq => (Prod.mk.inj heq).2
    · rintro q hq ⟨r, hr, hstatus⟩
      rw [hwaiting q hq r hr] at hstatus
      cases hstatus
    · exact hopen
    · intro q hq
      obtain ⟨r, hr, -⟩ := htaken q hq
      exact ⟨_, hview.self hq hr, rfl⟩
    · exact fun q hq => hview.same_other hq
  · intro p hp
    obtain ⟨hclaim, harrived, hdone⟩ := hi.claimTxs p hp
    exact ⟨hclaim, harrived, (hview.same_other fun hq => hopen _ hq hdone).2 hdone⟩
  · intro c e r' hr' hstatus
    by_cases hq : (c, e) ∈ tx.unbondings
    · obtain ⟨r, hr, -⟩ := htaken (c, e) hq
      have hself := hview.self hq hr
      obtain rfl := Option.some.inj (hself.symm.trans hr')
      cases hstatus
    · exact hi.claimable c e r' ((hview.other hq).symm.trans hr') hstatus

private theorem Inv.hostSweep (hi : Inv s₀ s) (htx : s.sweeps[i]? = some ⟨tx, .sent⟩) :
    Inv s₀ { s with
      sweeps := s.sweeps.set i ⟨tx, .executed⟩
      received := s.received ++ [tx] } := by
  have hsweep := hi.sweepTxs _ (mem_of_getElem? htx)
  have harrived {q : String × ℕ} (hq : q ∈ s.arrived) :
      q ∈ (s.received ++ [tx]).flatMap RedemptionTx.unbondings := by
    rw [flatMap_append]
    exact mem_append_left _ hq
  refine
    { hi with
      sweeps := hi.sweeps.execute htx fun q => Sweeping.not_swept
      sweepTxs := forall_mem_set hi.sweepTxs hsweep
      receivedTxs := forall_mem_concat hi.receivedTxs hsweep
      claimTxs := ?_
      paidTxs := ?_
      claimable := fun c e r hr hstatus => harrived (hi.claimable c e r hr hstatus) }
  · intro p hp
    obtain ⟨hclaim, hq, hdone⟩ := hi.claimTxs p hp
    exact ⟨hclaim, harrived hq, hdone⟩
  · intro tx' htx'
    obtain ⟨hclaim, hq⟩ := hi.paidTxs tx' htx'
    exact ⟨hclaim, harrived hq⟩

private theorem Inv.rejectSweep (hi : Inv s₀ s) (htx : s.sweeps[i]? = some ⟨tx, .sent⟩) :
    Inv s₀ { s with sweeps := s.sweeps.set i ⟨tx, .rejected⟩ } :=
  { hi with
    sweeps := hi.sweeps.reject htx
    sweepTxs := forall_mem_set hi.sweepTxs (hi.sweepTxs ⟨tx, .sent⟩ (mem_of_getElem? htx)) }

private theorem sweepOutcome_amounts (hr : r.status = .exitTransferInProgress)
    (status : AckStatus) :
    (sweepOutcome status r).nativeTokenAmount = r.nativeTokenAmount ∧
      unclaimed (sweepOutcome status r) = unclaimed r := by
  cases status <;> simp [sweepOutcome, markClaimable, unclaimed, hr]

private theorem Inv.nodup_epochs (hi : Inv s₀ s) (hp : s.sweeps[i]? = some p) :
    p.op.callback.epochUnbondingRecordIds.Nodup :=
  Nodup.of_map _ ((nodup_flatMap.mp hi.sweeps.inFlight_nodup).1 p.op
    (mem_map_of_mem (mem_of_getElem? hp)))

/-- **A sweep is answered**: after a success its records can be claimed. -/
theorem Inv.sweepAck (hi : Inv s₀ s) (hp : s.sweeps[i]? = some p)
    (hanswer : answeredBy p.progress status) {k : UnbondingKeeper}
    (h : redemptionCallback (s.keeper.unbondingKeeper z) p.op.callback status = .ok k) :
    Inv s₀ { s with
      keeper := s.keeper.withRecords k.epochUnbondingRecords
      sweeps := s.sweeps.eraseIdx i } := by
  have hmem := mem_of_getElem? hp
  have hone := onePerChain_redemptionCallback (k := s.keeper.unbondingKeeper z)
    hi.accounts.onePerChain h
  have hsweeping := hi.sweeps.busy p hmem
  have hview :
      Rewritten s.keeper k.epochUnbondingRecords p.op.unbondings (sweepOutcome status) := by
    obtain ⟨records, rfl, hrewrites⟩ := redemptionCallback_spec (hi.nodup_epochs hp) h
    exact rewritten_of_rewrites hrewrites
  refine
    { hi with
      accounts := ?_
      sweeps := ?_
      sweepTxs := fun q hq => hi.sweepTxs q (mem_of_mem_eraseIdx hq)
      claimTxs := ?_
      claimable := ?_ }
  · apply hview.accounts hi.accounts hone
    intro q hq r hr
    obtain ⟨r', hr', hstatus⟩ := hsweeping q hq
    obtain rfl : r = r' := Option.some.inj (hr.symm.trans hr')
    exact sweepOutcome_amounts hstatus status
  · apply hi.sweeps.ack hp fun q => Sweeping.not_swept
    · -- an executed sweep succeeds
      intro hexecuted q hq r' hr'
      have hsuccess : status = .success := by
        rcases hanswer with ⟨-, hsuccess⟩ | ⟨hrejected, -⟩
        · exact hsuccess
        · rw [hexecuted] at hrejected
          cases hrejected
      subst hsuccess
      obtain ⟨r, hr, -⟩ := hsweeping q hq
      obtain rfl := Option.some.inj ((hview.self hq hr).symm.trans hr')
      rfl
    · exact fun q hq => hview.same_other hq
  · intro p' hp'
    obtain ⟨hclaim, harrived, hdone⟩ := hi.claimTxs p' hp'
    refine ⟨hclaim, harrived, (hview.same_other ?_).2 hdone⟩
    exact fun hq => (hsweeping _ hq).not_swept hdone
  · intro c e r' hr' hstatus
    by_cases hq : (c, e) ∈ p.op.unbondings
    · obtain ⟨r, hr, hprogress⟩ := hsweeping (c, e) hq
      obtain rfl := Option.some.inj ((hview.self hq hr).symm.trans hr')
      -- only a success makes it claimable
      rcases hanswer with ⟨hexecuted, -⟩ | ⟨-, hfailed⟩
      · exact mem_flatMap.mpr ⟨p.op, hi.sweeps.logged p hmem hexecuted, hq⟩
      · cases status with
        | success => exact absurd rfl hfailed
        | failure => cases hstatus
        | timeout =>
          rw [show sweepOutcome .timeout r = r from rfl, hprogress] at hstatus
          cases hstatus
    · exact hi.claimable c e r' ((hview.other hq).symm.trans hr') hstatus

/-! ## Claims -/

/-- **A claim** takes a user redemption record. -/
theorem Inv.claim (hi : Inv s₀ s) {msg : MsgClaimUndelegatedTokens}
    (hown : s.FindsOwnRecord (.claim msg submitTxs)) {tx : ClaimTx}
    (h : claimUndelegatedTokens s.keeper msg submitTxs = .ok (k, tx)) :
    Inv s₀ { s with keeper := k, claims := s.claims ++ [⟨tx, .sent⟩] } := by
  obtain ⟨user, r, z, huser, hr, hstatus, hpending, hz, hfrom, hto, hamount, hcallback, rfl⟩ :=
    claimUndelegatedTokens_ok h
  obtain ⟨hchain, hepoch⟩ := hown user huser
  -- the record found by key is of this zone and epoch
  rw [hepoch] at hr
  have hid : user.id = userRedemptionRecordKeyFormatter msg.hostZoneId msg.epoch msg.receiver :=
    key_of_get? huser
  rw [← hid] at huser
  have hrecords : tx.records = [user.id] := by rw [ClaimTx.records, hcallback]
  have hget := get?_setClaimIsPending huser true
  refine
    { hi with
      accounts := hi.accounts.setClaimIsPending huser true
      claims := ?_
      claimTxs := forall_mem_concat hi.claimTxs ?_ }
  · apply hi.claims.send
    · exact nodup_singleton _
    · rw [hrecords]
      simp [ClaimPending, huser, hpending]
    · rw [hrecords]
      simp [Gone, huser]
    · rw [hrecords]
      simp [ClaimPending, hget]
    · intro id' hid'
      rw [hrecords, mem_singleton] at hid'
      simp [ClaimPending, Gone, hget, hid']
  · have hzone : s₀.keeper.hostZones.get? msg.hostZoneId = some z := hi.accounts.zones ▸ hz
    obtain ⟨user₀, huser₀, heq⟩ := hi.accounts.users _ user huser
    rw [heq] at hto hamount hchain hepoch
    simp only [IsClaim, hcallback]
    refine ⟨⟨z, user₀, hzone, hfrom, huser₀, hchain, hepoch, hto, hamount⟩,
      hi.claimable _ _ r hr hstatus, ?_⟩
    intro r' hr'
    obtain rfl : r = r' := Option.some.inj (hr.symm.trans hr')
    exact hstatus

private theorem Inv.hostClaim (hi : Inv s₀ s) {tx : ClaimTx}
    (htx : s.claims[i]? = some ⟨tx, .sent⟩) :
    Inv s₀ { s with
      claims := s.claims.set i ⟨tx, .executed⟩
      paid := s.paid ++ [tx] } := by
  have hclaim := hi.claimTxs _ (mem_of_getElem? htx)
  exact
    { hi with
      claims := hi.claims.execute htx fun id => ClaimPending.not_gone
      claimTxs := forall_mem_set hi.claimTxs hclaim
      paidTxs := forall_mem_concat hi.paidTxs ⟨hclaim.1, hclaim.2.1⟩ }

private theorem Inv.rejectClaim (hi : Inv s₀ s) {tx : ClaimTx}
    (htx : s.claims[i]? = some ⟨tx, .sent⟩) :
    Inv s₀ { s with claims := s.claims.set i ⟨tx, .rejected⟩ } :=
  { hi with
    claims := hi.claims.reject htx
    claimTxs := forall_mem_set hi.claimTxs (hi.claimTxs ⟨tx, .sent⟩ (mem_of_getElem? htx)) }

section Decrement

variable {callback : ClaimCallback} {user : UserRedemptionRecord}

private theorem hostZoneId_decremented
    (hr : k.view callback.chainId callback.epochNumber = some r) :
    (decremented r user).hostZoneId = callback.chainId := by
  show r.hostZoneId = _
  exact hostZoneId_of_hostZoneUnbondings hr

private theorem view_decremented (hr : k.view callback.chainId callback.epochNumber = some r)
    (hset : setHostZoneUnbondingRecord k.epochUnbondingRecords callback.epochNumber
      callback.chainId (decremented r user) = .ok records) (c : String) (e : ℕ) :
    hostZoneUnbondings records c e =
      if c = callback.chainId ∧ e = callback.epochNumber then some (decremented r user)
      else k.view c e :=
  view_setHostZoneUnbondingRecord hr (hostZoneId_decremented hr) hset c e

/-- **Payment booked**: the user record leaves the books together with its amount. -/
theorem Accounts.paid (h : Accounts k₀ k)
    (huser : k.userRedemptionRecords.get? callback.userRedemptionRecordId = some user)
    (hchain : user.hostZoneId = callback.chainId) (hepoch : user.epochNumber = callback.epochNumber)
    (hr : k.view callback.chainId callback.epochNumber = some r) (hstatus : r.status = .claimable)
    (hset : setHostZoneUnbondingRecord k.epochUnbondingRecords callback.epochNumber
      callback.chainId (decremented r user) = .ok records) :
    Accounts k₀ { k with
      epochUnbondingRecords := records
      userRedemptionRecords :=
        k.userRedemptionRecords.delete callback.userRedemptionRecordId } where
  zones := h.zones
  onePerChain := h.onePerChain.set hr (hostZoneId_decremented hr) hset
  users id' user' huser' := by
    rw [get?_delete] at huser'
    split at huser'
    · cases huser'
    exact h.users id' user' huser'
  native c e r' hr' := by
    replace hr' : hostZoneUnbondings records c e = some r' := hr'
    rw [view_decremented hr hset] at hr'
    split at hr'
    · rename_i hhere
      cases hr'
      obtain ⟨rfl, rfl⟩ := hhere
      exact h.native _ _ r hr
    · exact h.native c e r' hr'
  unclaimed c e r' hr' := by
    rw [owed_delete huser]
    replace hr' : hostZoneUnbondings records c e = some r' := hr'
    rw [view_decremented hr hset] at hr'
    split at hr'
    · rename_i hhere
      cases hr'
      obtain ⟨rfl, rfl⟩ := hhere
      have hold := h.unclaimed _ _ r hr
      rw [unclaimed, if_pos hstatus] at hold
      rw [owedBy, if_pos ⟨hchain, hepoch⟩, ← hold]
      exact if_pos hstatus
    · -- any other record owes nothing to the paid user
      rename_i hother
      rw [owedBy, if_neg, sub_zero]
      · exact h.unclaimed c e r' hr'
      · rintro ⟨hc, he⟩
        exact hother ⟨hc.symm.trans hchain, he.symm.trans hepoch⟩

end Decrement

/-- **A claim is answered**: the record is gone, or it can be claimed again. -/
theorem Inv.claimAck (hi : Inv s₀ s) {p : Pending ClaimTx} (hp : s.claims[i]? = some p)
    (hanswer : answeredBy p.progress status)
    (h : claimCallback s.keeper p.op.callback status = .ok k) :
    Inv s₀ { s with keeper := k, claims := s.claims.eraseIdx i } := by
  obtain ⟨⟨z, user₀, -, -, huser₀, hchain, hepoch, -⟩, harrived, hdone⟩ :=
    hi.claimTxs p (mem_of_getElem? hp)
  obtain ⟨user, huser, ⟨hfailed, rfl⟩ | ⟨hsuccess, r, records, hr, hset, rfl⟩⟩ :=
    claimCallback_ok h
  · -- the record is free again
    have hget := get?_setClaimIsPending huser false
    refine
      { hi with
        accounts := hi.accounts.setClaimIsPending huser false
        claims := ?_
        claimTxs := fun q hq => hi.claimTxs q (mem_of_mem_eraseIdx hq) }
    apply hi.claims.ack hp fun id => ClaimPending.not_gone
    · intro hexecuted
      rcases hanswer with ⟨-, hsuccess⟩ | ⟨hrejected, -⟩
      · exact absurd hsuccess hfailed
      · rw [hexecuted] at hrejected
        cases hrejected
    · intro id hid
      rw [ClaimTx.records, mem_singleton] at hid
      simp [ClaimPending, Gone, hget, hid]
  · -- the record is removed, and its amount with it
    have hstatus : r.status = .claimable := hdone r hr
    have hview (c : String) (e : ℕ) (r' : HostZoneUnbonding)
        (hr' : hostZoneUnbondings records c e = some r') :
        ∃ old, s.keeper.view c e = some old ∧ r'.status = old.status := by
      rw [view_decremented hr hset] at hr'
      split at hr'
      · rename_i hhere
        cases hr'
        obtain ⟨rfl, rfl⟩ := hhere
        exact ⟨r, hr, rfl⟩
      · exact ⟨r', hr', rfl⟩
    have hswept (q : String × ℕ) (hq : s.keeper.Swept q) :
        ∀ r', hostZoneUnbondings records q.1 q.2 = some r' → r'.status = .claimable := by
      intro r' hr'
      obtain ⟨old, hold, hsame⟩ := hview q.1 q.2 r' hr'
      rw [hsame]
      exact hq old hold
    have hsweeping (q : String × ℕ) (hq : s.keeper.Sweeping q) :
        ∃ r', hostZoneUnbondings records q.1 q.2 = some r' ∧
          r'.status = .exitTransferInProgress := by
      obtain ⟨old, hold, hprogress⟩ := hq
      rw [view_decremented hr hset]
      have hother : ¬ (q.1 = p.op.callback.chainId ∧ q.2 = p.op.callback.epochNumber) := by
        rintro ⟨hc, he⟩
        rw [hc, he] at hold
        rw [hdone old hold] at hprogress
        cases hprogress
      rw [if_neg hother]
      exact ⟨old, hold, hprogress⟩
    obtain ⟨user₀', huser₀', heq⟩ := hi.accounts.users _ user huser
    obtain rfl : user₀ = user₀' := Option.some.inj (huser₀.symm.trans huser₀')
    refine
      { hi with
        accounts := Accounts.paid hi.accounts huser (by rw [heq]; exact hchain)
          (by rw [heq]; exact hepoch) hr hstatus hset
        sweeps := hi.sweeps.mono hsweeping hswept
        claims := ?_
        claimTxs := ?_
        claimable := ?_ }
    · apply hi.claims.ack hp fun id => ClaimPending.not_gone
      · intro _ id hid
        rw [ClaimTx.records, mem_singleton] at hid
        show (s.keeper.userRedemptionRecords.delete _).get? id = none
        rw [get?_delete, if_pos hid]
      · intro id hid
        rw [ClaimTx.records, mem_singleton] at hid
        simp [ClaimPending, Gone, get?_delete, hid]
    · intro q hq
      obtain ⟨hclaim', harrived', hdone'⟩ := hi.claimTxs q (mem_of_mem_eraseIdx hq)
      exact ⟨hclaim', harrived', hswept _ hdone'⟩
    · intro c e r' hr' hstatus'
      obtain ⟨old, hold, hsame⟩ := hview c e r' hr'
      exact hi.claimable c e old hold (hsame ▸ hstatus')

/-! ## Clean-ups -/

/-- What is seen after a clean-up was seen before, and an epoch with an unbonding that is being
    swept is kept. -/
theorem view_cleanup (k : ClaimKeeper) (c : String) (e : ℕ) (r : HostZoneUnbonding) :
    (hostZoneUnbondings (cleanupEpochUnbondingRecords k.epochUnbondingRecords) c e = some r →
      k.view c e = some r) ∧
    (k.view c e = some r → r.status ≠ .claimable →
      hostZoneUnbondings (cleanupEpochUnbondingRecords k.epochUnbondingRecords) c e = some r) := by
  simp only [view, hostZoneUnbondings, getHostZoneUnbondingByChainId,
    Option.bind_eq_some_iff, getEpochUnbondingRecord_cleanup, Option.filter_eq_some_iff]
  constructor
  · rintro ⟨eur, ⟨heur, -⟩, hfind⟩
    exact ⟨eur, heur, hfind⟩
  · rintro ⟨eur, heur, hfind⟩ hstatus
    refine ⟨eur, ⟨heur, ?_⟩, hfind⟩
    have hmem := mem_of_find?_eq_some hfind
    simp only [decide_eq_true_eq, fullyClaimed, all_eq_true, Bool.and_eq_true]
    exact fun hall => hstatus (hall r hmem).1

/-- **Cleanup** removes what has no tokens left to claim. -/
theorem Inv.cleanup (hi : Inv s₀ s) :
    Inv s₀ { s with keeper :=
      s.keeper.withRecords (cleanupEpochUnbondingRecords s.keeper.epochUnbondingRecords) } := by
  have hview := view_cleanup s.keeper
  have hswept (q : String × ℕ) (hq : s.keeper.Swept q) :
      (s.keeper.withRecords
        (cleanupEpochUnbondingRecords s.keeper.epochUnbondingRecords)).Swept q :=
    fun r hr => hq r ((hview q.1 q.2 r).1 hr)
  refine
    { hi with
      accounts := ?_
      sweeps := hi.sweeps.mono ?_ hswept
      claimTxs := ?_
      claimable := fun c e r hr => hi.claimable c e r ((hview c e r).1 hr) }
  · apply hi.accounts.rewrite
    · intro e eur heur
      rw [getEpochUnbondingRecord_cleanup, Option.filter_eq_some_iff] at heur
      exact hi.accounts.onePerChain e eur heur.1
    · exact fun c e r hr => ⟨r, (hview c e r).1 hr, rfl, rfl⟩
  · -- an epoch with a sweep in flight is not removed
    rintro q ⟨r, hr, hstatus⟩
    refine ⟨r, (hview q.1 q.2 r).2 hr ?_, hstatus⟩
    rw [hstatus]
    decide
  · intro p hp
    obtain ⟨hclaim, harrived, hdone⟩ := hi.claimTxs p hp
    exact ⟨hclaim, harrived, hswept _ hdone⟩

/-! ## Runs -/

/-- **Step**: every event keeps the invariant, if a claim finds its own record, and only a clean-up
    removes epochs. -/
theorem Inv.step (hi : Inv s₀ s) (hs : s.step event = some s') :
    (s.FindsOwnRecord event → Inv s₀ s') ∧ (event ≠ .cleanup →
      s'.keeper.epochUnbondingRecords.store.keys = s.keeper.epochUnbondingRecords.store.keys) := by
  cases event with
  | sweep chainId hostBlockTime submitTxs =>
    dsimp only [step] at hs
    split at hs
    · cases hs
    rename_i z hz
    split at hs
    · cases hs
    · cases hs
      exact ⟨fun _ => hi, fun _ => rfl⟩
    · rename_i k tx hsweep
      cases hs
      refine ⟨fun _ => hi.sweep (get?_of_getActiveHostZone hz) hsweep, fun _ => ?_⟩
      rcases sweepUnbondedTokensForHostZone_spec hsweep with ⟨hnone, -⟩ |
        ⟨_, _, _, -, rfl, hsweeps⟩
      · cases hnone
      · exact hsweeps.marked.keys
  | hostSweep i executed =>
    dsimp only [step] at hs
    split at hs
    · rename_i tx htx
      split at hs
      · cases hs
        exact ⟨fun _ => hi.hostSweep htx, fun _ => rfl⟩
      · cases hs
        exact ⟨fun _ => hi.rejectSweep htx, fun _ => rfl⟩
    · cases hs
  | sweepAck i status =>
    dsimp only [step] at hs
    split at hs
    · cases hs
    rename_i p hp
    split at hs
    · cases hs
    split at hs
    · rename_i hanswer
      obtain ⟨k, hcallback, rfl⟩ := toOption_map_eq_some.mp hs
      refine ⟨fun _ => hi.sweepAck hp hanswer hcallback, fun _ => ?_⟩
      obtain ⟨_, rfl, hrewrites⟩ := redemptionCallback_spec (hi.nodup_epochs hp) hcallback
      exact hrewrites.keys
    · cases hs
  | claim msg submitTxs =>
    obtain ⟨⟨k, tx⟩, hclaim, rfl⟩ := toOption_map_eq_some.mp hs
    refine ⟨fun hown => hi.claim hown hclaim, fun _ => ?_⟩
    obtain ⟨_, _, _, -, -, -, -, -, -, -, -, -, rfl⟩ := claimUndelegatedTokens_ok hclaim
    rfl
  | hostClaim i executed =>
    dsimp only [step] at hs
    split at hs
    · rename_i tx htx
      split at hs
      · cases hs
        exact ⟨fun _ => hi.hostClaim htx, fun _ => rfl⟩
      · cases hs
        exact ⟨fun _ => hi.rejectClaim htx, fun _ => rfl⟩
    · cases hs
  | claimAck i status =>
    dsimp only [step] at hs
    split at hs
    · cases hs
    rename_i p hp
    split at hs
    · rename_i hanswer
      obtain ⟨k, hcallback, rfl⟩ := toOption_map_eq_some.mp hs
      refine ⟨fun _ => hi.claimAck hp hanswer hcallback, fun _ => ?_⟩
      obtain ⟨user, -, ⟨-, rfl⟩ | ⟨-, r, records, hr, hset, rfl⟩⟩ := claimCallback_ok hcallback
      · rfl
      · exact keys_setHostZoneUnbondingRecord hr (hostZoneId_decremented hr) hset
    · cases hs
  | cleanup =>
    -- cleanup is the only event that removes epochs
    cases hs
    exact ⟨fun _ => hi.cleanup, fun hevent => absurd rfl hevent⟩

/-! ## From the invariant to the property -/

private theorem Inv.nonneg (hi : Inv s₀ s) (hstart : s₀.Started) (id : String)
    (user : UserRedemptionRecord)
    (huser : s.keeper.userRedemptionRecords.get? id = some user) : 0 ≤ user.nativeTokenAmount := by
  obtain ⟨user₀, huser₀, heq⟩ := hi.accounts.users id user huser
  rw [heq]
  exact (hstart.users id user₀ huser₀).1

/-- **Claimable unbondings** have what is owed for them. -/
theorem Inv.claimable_eq (hi : Inv s₀ s) (hr : s.keeper.epochUnbondingRecords.Holds e r)
    (hstatus : r.status = .claimable) :
    r.claimableNativeTokens = owed s.keeper.userRedemptionRecords r.hostZoneId e := by
  have hunclaimed := hi.accounts.unclaimed _ e r (hi.accounts.onePerChain.holds_iff.mp hr)
  rwa [unclaimed, if_pos hstatus] at hunclaimed

/-- **Deletion**: nothing is owed for the unbondings of an epoch that is removed. -/
theorem Inv.removed (hi : Inv s₀ s) (hs : s.step event = some s') {eur : EpochUnbondingRecord}
    (heur : s.keeper.epochUnbondingRecords.getEpochUnbondingRecord e = some eur)
    (hnone : s'.keeper.epochUnbondingRecords.getEpochUnbondingRecord e = none)
    (hr : r ∈ eur.hostZoneUnbondings) : owed s.keeper.userRedemptionRecords r.hostZoneId e = 0 := by
  by_cases hevent : event = .cleanup
  · subst hevent
    cases hs
    replace hnone : (cleanupEpochUnbondingRecords
      s.keeper.epochUnbondingRecords).getEpochUnbondingRecord e = none := hnone
    rw [getEpochUnbondingRecord_cleanup, heur, Option.filter_eq_none_iff] at hnone
    have hclaimed := hnone eur rfl
    simp only [decide_not, Bool.not_eq_true', decide_eq_false_iff_not, not_not, fullyClaimed,
      all_eq_true, Bool.and_eq_true, decide_eq_true_eq] at hclaimed
    obtain ⟨hstatus, hzero⟩ := hclaimed r hr
    rw [← hi.claimable_eq ⟨eur, heur, hr⟩ hstatus, hzero]
  · -- the other events keep the epochs
    have hmem : e ∈ s'.keeper.epochUnbondingRecords.store.keys := by
      rw [(hi.step hs).2 hevent]
      exact KVStore.mem_keys_iff.mpr ⟨eur, heur⟩
    obtain ⟨eur', heur'⟩ := KVStore.mem_keys_iff.mp hmem
    replace hnone : s'.keeper.epochUnbondingRecords.store.get? e = none := hnone
    rw [hnone] at heur'
    cases heur'

private theorem sum_owed (users : List UserRedemptionRecord) (chainId : String)
    {unbondings : List (String × ℕ)} (hnd : unbondings.Nodup) :
    (users.map fun user =>
      if user.hostZoneId = chainId ∧ (user.hostZoneId, user.epochNumber) ∈ unbondings
      then user.nativeTokenAmount else 0).sum =
    (unbondings.map fun q =>
      if q.1 = chainId then (users.map (owedBy q.1 q.2)).sum else 0).sum := by
  induction unbondings with
  | nil => simp
  | cons q unbondings ih =>
    obtain ⟨hq, hnd⟩ := nodup_cons.mp hnd
    rw [map_cons, sum_cons, ← ih hnd]
    -- a user record belongs to `q` or to one of the others
    have hsplit (user : UserRedemptionRecord) :
        (if user.hostZoneId = chainId ∧ (user.hostZoneId, user.epochNumber) ∈ q :: unbondings
          then user.nativeTokenAmount else 0) =
        (if q.1 = chainId then owedBy q.1 q.2 user else 0) +
          if user.hostZoneId = chainId ∧ (user.hostZoneId, user.epochNumber) ∈ unbondings
          then user.nativeTokenAmount else 0 := by
      unfold owedBy
      by_cases hown : (user.hostZoneId, user.epochNumber) = q
      · subst hown
        simp [hq]
      · have hne : ¬ (user.hostZoneId = q.1 ∧ user.epochNumber = q.2) :=
          fun h => hown (Prod.ext h.1 h.2)
        simp [hown, hne]
    simp only [hsplit, sum_map_add]
    split
    · rfl
    · simp

/-- **Solvency**: the payments of a zone are for user records of unbondings whose tokens have
    arrived, each of them once. -/
theorem Inv.solvent (hi : Inv s₀ s) (hstart : s₀.Started) (chainId account denom : String) :
    s.paidFrom chainId account denom ≤ s.receivedAt chainId account denom := by
  have hnonneg (id : String) (user : UserRedemptionRecord)
      (huser : s₀.keeper.userRedemptionRecords.get? id = some user) :
      0 ≤ user.nativeTokenAmount := (hstart.users id user huser).1
  by_cases hmatch : ∃ z, s₀.keeper.hostZones.get? chainId = some z ∧
      account = z.redemptionIcaAddress ∧ denom = z.hostDenom
  · obtain ⟨z, hz, rfl, rfl⟩ := hmatch
    let f (user : UserRedemptionRecord) : ℤ :=
      if user.hostZoneId = chainId ∧ (user.hostZoneId, user.epochNumber) ∈ s.arrived
      then user.nativeTokenAmount else 0
    have hf (id : String) (user : UserRedemptionRecord)
        (huser : s₀.keeper.userRedemptionRecords.get? id = some user) : 0 ≤ f user := by
      dsimp only [f]
      split
      · exact hnonneg id user huser
      · exact le_rfl
    calc s.paidFrom chainId z.redemptionIcaAddress z.hostDenom
        ≤ ((s.paid.flatMap ClaimTx.records).map fun id =>
            (s₀.keeper.userRedemptionRecords.get? id).elim 0 f).sum := by
          rw [show s.paid.flatMap ClaimTx.records =
            s.paid.map fun tx => tx.callback.userRedemptionRecordId from
              map_eq_flatMap.symm, map_map]
          apply sum_le_sum
          intro tx htx
          obtain ⟨⟨_, user, -, -, huser, hchain, hepoch, -, hamount⟩, harrived⟩ :=
            hi.paidTxs tx htx
          rw [Function.comp_apply, huser]
          split
          · rename_i hcond
            rw [hamount]
            rw [← hchain, ← hepoch] at harrived
            exact (if_pos ⟨hchain.trans hcond.1, harrived⟩).ge
          · exact hf _ user huser
      _ ≤ (s₀.keeper.userRedemptionRecords.values.map f).sum :=
          sum_get?_le hi.claims.done_nodup hf
      _ = (s.arrived.map fun q => if q.1 = chainId then
            owed s₀.keeper.userRedemptionRecords q.1 q.2 else 0).sum :=
          sum_owed _ chainId hi.sweeps.done_nodup
      _ = s.receivedAt chainId z.redemptionIcaAddress z.hostDenom := by
          rw [arrived, map_flatMap, flatMap_def, sum_flatten, map_map]
          congr 1
          apply map_congr_left
          intro tx htx
          obtain ⟨z', hz', hto, hamount⟩ := hi.receivedTxs tx htx
          rw [Function.comp_apply]
          by_cases hchain : tx.callback.hostZoneId = chainId
          · subst hchain
            obtain rfl : z = z' := Option.some.inj (hz.symm.trans hz')
            rw [if_pos ⟨rfl, hto, by rw [hamount]⟩, hamount]
            congr 1
            apply map_congr_left
            rintro ⟨c, e⟩ hq
            rw [if_pos (RedemptionTx.mem_unbondings.mp hq).1]
          · rw [if_neg fun h => hchain h.1]
            apply sum_map_eq_zero
            rintro ⟨c, e⟩ hq
            rw [if_neg]
            rw [(RedemptionTx.mem_unbondings.mp hq).1]
            exact hchain
  · -- another account pays nothing for claims
    have hpaid : s.paidFrom chainId account denom = 0 := by
      apply sum_map_eq_zero
      intro tx htx
      obtain ⟨⟨z, user, hz, hfrom, huser, hchain, -, -, hamount⟩, -⟩ := hi.paidTxs tx htx
      rw [if_neg]
      rintro ⟨rfl, haccount, hdenom⟩
      rw [hamount] at hdenom
      have huserDenom := (hstart.users _ user huser).2.2 z (hchain ▸ hz)
      exact hmatch ⟨z, hz, haccount.symm.trans hfrom, hdenom.symm.trans huserDenom⟩
    rw [hpaid]
    apply sum_map_nonneg
    intro tx htx
    obtain ⟨z, -, -, hamount⟩ := hi.receivedTxs tx htx
    split
    · rw [hamount]
      apply sum_map_nonneg
      intro q _
      exact owed_nonneg hnonneg q.1 q.2
    · exact le_rfl

private theorem Inv.paysOnce (hi : Inv s₀ s) (hstart : s₀.Started) : PaysOnce s₀ s where
  once := by
    rw [map_eq_flatMap]
    exact hi.claims.done_nodup
  amounts tx htx := by
    obtain ⟨⟨_, user, -, -, huser, -, -, hto, hamount⟩, -⟩ := hi.paidTxs tx htx
    exact ⟨user, huser, hto, hamount⟩
  inFlight := by
    have hnd := hi.claims.inFlight_nodup
    rw [show ClaimTx.records = fun tx => [tx.callback.userRedemptionRecordId] from rfl,
      ← map_eq_flatMap, map_map] at hnd
    exact hnd
  claimable e r hr hstatus := by
    have heq := hi.claimable_eq hr hstatus
    exact ⟨heq, heq ▸ owed_nonneg (hi.nonneg hstart) _ e⟩
  solvent := hi.solvent hstart
  cleanup event s' hs e eur heur hnone r hr id user huser hchain hepoch := by
    rw [← hi.removed hs heur hnone hr]
    exact le_owed (hi.nonneg hstart) huser hchain hepoch

/-- **Paid once**: if every claim finds a user record of its own zone and epoch, or none, then
    each redemption is paid at most once and in full, and none is lost. -/
theorem claims_pay_once (hstart : s₀.Started) (hrun : Reaches step FindsOwnRecord s₀ s) :
    PaysOnce s₀ s := by
  have hinv : Inv s₀ s := hrun.invariant hstart.inv fun s event s' hi hown hs => (hi.step hs).1 hown
  exact hinv.paysOnce hstart

/-! ## A claim on the wrong zone -/

/-- A start, checked on the lists of its records. -/
theorem started_of_lists
    (hrecords : ∀ eur ∈ s.keeper.epochUnbondingRecords.getAllEpochUnbondingRecord,
      (eur.hostZoneUnbondings.map HostZoneUnbonding.hostZoneId).Nodup ∧
      ∀ r ∈ eur.hostZoneUnbondings, r.status ≠ .claimable ∧
        r.nativeTokenAmount =
          owed s.keeper.userRedemptionRecords r.hostZoneId eur.epochNumber)
    (husers : ∀ user ∈ s.keeper.userRedemptionRecords.values,
      0 ≤ user.nativeTokenAmount ∧ user.claimIsPending = false ∧
        (s.keeper.hostZones.get? user.hostZoneId).all fun z => user.denom = z.hostDenom)
    (hflight : s.sweeps = [] ∧ s.claims = [] ∧ s.received = [] ∧ s.paid = []) : s.Started := by
  have hmem {e : ℕ} {eur : EpochUnbondingRecord}
      (heur : s.keeper.epochUnbondingRecords.getEpochUnbondingRecord e = some eur) :
      eur.epochNumber = e ∧ eur ∈ s.keeper.epochUnbondingRecords.getAllEpochUnbondingRecord := by
    have hepoch := s.keeper.epochUnbondingRecords.keyed e eur heur
    exact ⟨hepoch, mem_getAllEpochUnbondingRecord.mpr (hepoch ▸ heur)⟩
  refine ⟨?_, ?_, ?_, ?_, hflight.1, hflight.2.1, hflight.2.2.1, hflight.2.2.2⟩
  · exact fun e eur heur => (hrecords eur (hmem heur).2).1
  · rintro e r ⟨eur, heur, hr⟩
    obtain ⟨rfl, hall⟩ := hmem heur
    exact ((hrecords eur hall).2 r hr).2
  · rintro e r ⟨eur, heur, hr⟩
    exact ((hrecords eur (hmem heur).2).2 r hr).1
  · intro id user huser
    have hid : user.id = id := key_of_get? huser
    obtain ⟨hnonneg, hpending, hdenom⟩ :=
      husers user (mem_values_iff.mpr (hid ▸ huser))
    refine ⟨hnonneg, hpending, fun z hz => ?_⟩
    simpa [hz] using hdenom

def openZone (chainId hostDenom : String) : HostZone :=
  { twoValidatorZone with
    chainId := chainId
    hostDenom := hostDenom
    validators := []
    totalDelegations := 0 }

def waitingUnbonding (chainId denom : String) (nativeTokenAmount : ℤ) (ids : List String) :
    HostZoneUnbonding where
  stTokenAmount := nativeTokenAmount
  nativeTokenAmount := nativeTokenAmount
  stTokensToBurn := 0
  nativeTokensToUnbond := 0
  claimableNativeTokens := 0
  undelegationTxsInProgress := 0
  denom := denom
  hostZoneId := chainId
  unbondingTime := 1
  status := .exitTransferQueue
  userRedemptionRecords := ids

def unclaimedRedemption (chainId denom : String) (e : ℕ) (receiver : String) (amount : ℤ) :
    UserRedemptionRecord :=
  ⟨userRedemptionRecordKeyFormatter chainId e receiver, receiver, amount, denom, chainId, e, false,
    amount⟩

/-- User records are stored under the id of their zone, epoch and receiver. -/
def OwnIds (users : UserRedemptionStore) : Prop :=
  ∀ id user, users.get? id = some user →
    id = userRedemptionRecordKeyFormatter user.hostZoneId user.epochNumber user.receiver

/-- Two zones, one of which has a chain id that continues the other one after a dot. -/
def twoZones : ClaimSystem where
  keeper :=
    { hostZones := (empty.set (openZone "host" "uatom")).set (openZone "host.1" "uosmo")
      nextEpochStartTime := some 0
      icaTimeoutNanos := 0
      epochUnbondingRecords :=
        (EpochUnbondingStore.empty.setEpochUnbondingRecord
          ⟨1, [waitingUnbonding "host" "uatom" 30 ["host.1.bob"]]⟩).setEpochUnbondingRecord
          ⟨2, [waitingUnbonding "host" "uatom" 20 ["host.2.carol"],
            waitingUnbonding "host.1" "uosmo" 50 ["host.1.2.alice"]]⟩
      userRedemptionRecords :=
        ((empty.set (unclaimedRedemption "host" "uatom" 1 "bob" 30)).set
          (unclaimedRedemption "host" "uatom" 2 "carol" 20)).set
          (unclaimedRedemption "host.1" "uosmo" 2 "alice" 50) }
  sweeps := []
  claims := []
  received := []
  paid := []

private theorem twoZones_started : twoZones.Started :=
  started_of_lists (by decide +kernel) (by decide +kernel) ⟨rfl, rfl, rfl, rfl⟩

private theorem twoZones_ownIds : OwnIds twoZones.keeper.userRedemptionRecords := by
  have hall : ∀ user ∈ twoZones.keeper.userRedemptionRecords.values,
      user.id = userRedemptionRecordKeyFormatter user.hostZoneId user.epochNumber
        user.receiver := by decide +kernel
  intro id user huser
  have hid : user.id = id := key_of_get? huser
  exact hid.symm.trans (hall user (mem_values_iff.mpr (hid ▸ huser)))

/-- After the sweep of the first zone, a claim on epoch 1 of it names a receiver such that the
    record of the other zone is found. -/
def misdirectedClaim : List ClaimEvent :=
  [.sweep "host" 2 true, .hostSweep 0 true, .sweepAck 0 .success,
    .claim ⟨"eve", "host", 1, "2.alice"⟩ true, .hostClaim 0 true, .claimAck 0 .success]

/-- The payment to a user of the second zone is taken from an unbonding of the first zone, which
    is left with 30 - 50 tokens for a user record of 30. -/
theorem claim_of_another_zone : twoZones.Started ∧
    OwnIds twoZones.keeper.userRedemptionRecords ∧
    ∃ s, runSteps step twoZones misdirectedClaim = some s ∧
      (s.keeper.view "host" 1).any (fun r => r.claimableNativeTokens = -20) = true ∧
      ¬ PaysOnce twoZones s := by
  refine ⟨twoZones_started, twoZones_ownIds, ?_⟩
  have hrun : ((runSteps step twoZones misdirectedClaim).any fun s =>
      (s.keeper.view "host" 1).any fun r =>
        r.status = .claimable && r.claimableNativeTokens = -20) = true := by decide +kernel
  cases hs : runSteps step twoZones misdirectedClaim with
  | none => simp [hs] at hrun
  | some s =>
    cases hr : s.keeper.view "host" 1 with
    | none => simp [hs, hr] at hrun
    | some r =>
      simp only [hs, hr, Option.any_some, Bool.and_eq_true, decide_eq_true_eq] at hrun
      refine ⟨s, rfl, by simp [hr, hrun.2], fun hpays => ?_⟩
      obtain ⟨eur, heur, hfind⟩ := Option.bind_eq_some_iff.mp hr
      have hnonneg := (hpays.claimable 1 r ⟨eur, heur, mem_of_find?_eq_some hfind⟩ hrun.1).2
      rw [hrun.2] at hnonneg
      exact absurd hnonneg (by decide)

/-! ## A run that pays -/

/-- A claim that fails on the host is repeated; its epoch is then cleaned up. -/
def repeatedClaim : List ClaimEvent :=
  [.sweep "host" 2 true, .hostSweep 0 true, .sweepAck 0 .success,
    .claim ⟨"eve", "host", 1, "bob"⟩ true, .hostClaim 0 false, .claimAck 0 .timeout,
    .claim ⟨"bob", "host", 1, "bob"⟩ true, .cleanup, .hostClaim 0 true, .claimAck 0 .success,
    .cleanup]

theorem claims_pay_once_repeated : ∃ s, Reaches step FindsOwnRecord twoZones s ∧
    s.paidFrom "host" "redemption" "uatom" = 30 ∧
    (s.keeper.epochUnbondingRecords.getEpochUnbondingRecord 1).isNone ∧ PaysOnce twoZones s := by
  have hrun : Reaches step FindsOwnRecord twoZones _ :=
    .of_get (l := repeatedClaim) (by decide +kernel)
  exact ⟨_, hrun, by decide +kernel, by decide +kernel, claims_pay_once twoZones_started hrun⟩

end ClaimSystem

end Stride.Stakeibc
