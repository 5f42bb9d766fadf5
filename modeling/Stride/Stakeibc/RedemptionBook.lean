import Stride.Lib.Runs
import Stride.Stakeibc.RedeemStake

/-!
# The Book of Redemptions

Redemptions are booked in three places: the records of the receivers, the unbondings of the
zones and the escrow in the deposit accounts. Until an unbonding is submitted the three agree:
the amounts of an unbonding are the sums over the user records of its chain and epoch, each of
which it lists once, and the escrow covers what has to be burned.

The id of a user record is made of chain id, epoch and receiver with dots in between, and is
not checked again when a record is found under it. Two redemptions on different zones can have
the same id if chain ids and receivers contain dots. The second one is then added to the user
record of the first.
-/

namespace Stride.Stakeibc

open Lib Sdk Records Records.EpochUnbondingStore KeyedStore Function List

/-! ## System -/

inductive RedemptionEvent where
  | redeemStake (msg : MsgRedeemStake)
  /-- the day epoch starts, and the record of the day is created -/
  | startDay (epochNumber : ℕ)
  /-- any change of a zone and its settings, such as that of its redemption rate -/
  | updateHostZone (hostZone : HostZone) (settings : ZoneSettings)
  | refresh (epochNumber : ℕ) (chainId : String)
  /-- the unbonding is refreshed and its undelegations are sent -/
  | submit (epochNumber : ℕ) (chainId : String) (numTxsSubmitted : ℕ)

namespace RedemptionKeeper

/-- The refresh takes unbondings that are still queued. -/
def refreshQueued (k : RedemptionKeeper) (epochNumber : ℕ) (chainId : String) :
    Option RedemptionKeeper :=
  match k.epochUnbondingRecords.getHostZoneUnbondingByChainId epochNumber chainId with
  | none => none
  | some r =>
    if r.status = .unbondingQueue then (refreshHostZoneUnbonding k epochNumber r).toOption
    else none

/-- One event. A failed transaction changes nothing. -/
def step (k : RedemptionKeeper) : RedemptionEvent → Option RedemptionKeeper
  | .redeemStake msg =>
    -- a deposit account is a module account, which signs no messages
    if msg.creator = (k.settings msg.hostZone).depositAddress then none
    else (redeemStake k msg).toOption
  | .startDay epochNumber =>
    -- epoch numbers only grow
    if k.dayEpoch.all fun d => d < epochNumber then
      some (createEpochUnbondingRecord { k with dayEpoch := some epochNumber } epochNumber)
    else none
  | .updateHostZone hostZone settings =>
    match k.hostZones.get? hostZone.chainId with
    | none => none
    | some old =>
      if hostZone.hostDenom = old.hostDenom ∧
          settings.depositAddress = (k.settings hostZone.chainId).depositAddress ∧
          settings.bech32Prefix = (k.settings hostZone.chainId).bech32Prefix then
        some { k with
          hostZones := k.hostZones.set hostZone
          settings := update k.settings hostZone.chainId settings }
      else none
  | .refresh epochNumber chainId => k.refreshQueued epochNumber chainId
  | .submit epochNumber chainId numTxsSubmitted =>
    (k.refreshQueued epochNumber chainId).bind fun k =>
      match k.epochUnbondingRecords.getHostZoneUnbondingByChainId epochNumber chainId with
      | none => none
      | some r =>
        (setHostZoneUnbondingRecord k.epochUnbondingRecords epochNumber chainId
          (submittedRecord numTxsSubmitted r)).toOption.map fun records =>
          { k with epochUnbondingRecords := records }

/-! ## Property -/

/-- The amounts of an unbonding of epoch `e` are the sums over the user records it lists; it
    lists the stored records of its chain and epoch, each of them once. -/
structure Reconciled (users : UserRedemptionStore) (e : ℕ) (r : HostZoneUnbonding) : Prop where
  stTokens : r.stTokenAmount = ((listedRecords users r.userRedemptionRecords).map
    UserRedemptionRecord.stTokenAmount).sum
  native : r.nativeTokenAmount = ((listedRecords users r.userRedemptionRecords).map
    UserRedemptionRecord.nativeTokenAmount).sum
  once : r.userRedemptionRecords.Nodup
  listed : ∀ id, id ∈ r.userRedemptionRecords ↔
    ∃ user, users.get? id = some user ∧ user.hostZoneId = r.hostZoneId ∧ user.epochNumber = e

/-- stTokens of an unbonding that have not been burned. -/
def unburned (r : HostZoneUnbonding) : ℤ :=
  if r.status = .unbondingQueue then r.stTokenAmount else r.stTokensToBurn

/-- stTokens of a zone in its deposit account. -/
def escrow (k : RedemptionKeeper) (hostZone : HostZone) : ℤ :=
  k.bank.balance (k.settings hostZone.chainId).depositAddress
    (stAssetDenomFromHostZoneDenom hostZone.hostDenom)

/-- The book agrees. -/
structure AddsUp (k : RedemptionKeeper) : Prop where
  unbondings : ∀ e r, k.epochUnbondingRecords.Holds e r → r.status = .unbondingQueue →
    Reconciled k.userRedemptionRecords e r
  escrow : ∀ chainId hostZone, k.hostZones.get? chainId = some hostZone →
    chainTotal k.epochUnbondingRecords chainId unburned ≤ k.escrow hostZone

/-- A chain without redemptions. Registration makes the host denoms distinct. -/
structure NoRedemptions (k : RedemptionKeeper) : Prop where
  records : k.epochUnbondingRecords = .empty
  users : k.userRedemptionRecords = .empty
  denoms : ∀ c c' z z', k.hostZones.get? c = some z → k.hostZones.get? c' = some z' →
    z.hostDenom = z'.hostDenom → c = c'
  escrow : ∀ c z, k.hostZones.get? c = some z → 0 ≤ k.escrow z

/-- A redemption finds no record under its id, or one of its own zone and epoch. -/
def FindsOwnRecord (k : RedemptionKeeper) : RedemptionEvent → Prop
  | .redeemStake msg => ∀ e user, k.dayEpoch = some e →
      k.userRedemptionRecords.get?
        (userRedemptionRecordKeyFormatter msg.hostZone e msg.receiver) = some user →
      user.hostZoneId = msg.hostZone ∧ user.epochNumber = e
  | _ => True

instance (k : RedemptionKeeper) (l : RedemptionEvent) : Decidable (k.FindsOwnRecord l) := by
  apply @RedemptionEvent.casesOn _ l <;> intros <;> dsimp only [FindsOwnRecord] <;> infer_instance

/-! ## Sums over the listed records -/

private theorem sum_listedRecords_set (f : UserRedemptionRecord → ℤ) {ids : List String}
    (hnd : ids.Nodup) (users : UserRedemptionStore) (user : UserRedemptionRecord) :
    ((listedRecords (users.set user) ids).map f).sum = ((listedRecords users ids).map f).sum +
      if user.id ∈ ids then f user - (users.get? user.id).elim 0 f else 0 := by
  unfold listedRecords
  induction ids with
  | nil => simp
  | cons id ids ih =>
    obtain ⟨hnot, hnd'⟩ := nodup_cons.mp hnd
    -- the ids are different, so the user is counted once
    by_cases hid : id = user.id
    · subst hid
      have hself : (users.set user).get? user.id = some user := by
        rw [get?_set, if_pos rfl]
      rw [filterMap_cons_some hself, map_cons, sum_cons, ih hnd', if_neg hnot,
        if_pos mem_cons_self]
      cases hold : users.get? user.id with
      | none =>
        rw [filterMap_cons_none hold]
        simp [add_comm]
      | some old =>
        rw [filterMap_cons_some hold, map_cons, sum_cons, Option.elim_some]
        ring
    · have hsame : (users.set user).get? id = users.get? id := by
        rw [get?_set, if_neg hid]
      have hmem : user.id ∈ id :: ids ↔ user.id ∈ ids := by
        rw [mem_cons, or_iff_right (Ne.symm hid)]
      simp only [hmem]
      cases hget : users.get? id with
      | none =>
        rw [filterMap_cons_none (hsame.trans hget), filterMap_cons_none hget]
        exact ih hnd'
      | some w =>
        rw [filterMap_cons_some (hsame.trans hget), filterMap_cons_some hget,
          map_cons, map_cons, sum_cons, sum_cons, ih hnd']
        ring

/-! ## Reconciled unbondings -/

variable {bank : Bank} {records : EpochUnbondingStore} {z : HostZone} {msg : MsgRedeemStake}
  {l : RedemptionEvent} {c : String}

namespace Reconciled

variable {users users' : UserRedemptionStore} {rate : LegacyDec} {e : ℕ} {r : HostZoneUnbonding}
  {user : UserRedemptionRecord}

private theorem set_other (h : Reconciled users e r) (hold : ∀ old, users.get? user.id = some old →
      ¬ (old.hostZoneId = r.hostZoneId ∧ old.epochNumber = e))
    (hother : ¬ (user.hostZoneId = r.hostZoneId ∧ user.epochNumber = e)) :
    Reconciled (users.set user) e r := by
  have hnot : user.id ∉ r.userRedemptionRecords := by
    rw [h.listed]
    rintro ⟨old, hget, howner⟩
    exact hold old hget howner
  refine ⟨?_, ?_, h.once, fun id => ?_⟩
  · rw [sum_listedRecords_set _ h.once, if_neg hnot, add_zero, h.stTokens]
  · rw [sum_listedRecords_set _ h.once, if_neg hnot, add_zero, h.native]
  · rw [get?_set]
    split
    · rename_i hid
      subst hid
      simp only [Option.some.injEq, exists_eq_left']
      exact iff_of_false hnot hother
    · exact h.listed id

variable {nativeAmount : ℤ}

section

variable (h : Reconciled users e r)
include h

/-- A further redemption is added to the record of the user. -/
theorem add_existing {old : UserRedemptionRecord}
    (hold : users.get? user.id = some old) (hchain : old.hostZoneId = r.hostZoneId)
    (hepoch : old.epochNumber = e) (hchain' : user.hostZoneId = old.hostZoneId)
    (hepoch' : user.epochNumber = old.epochNumber)
    (hst : user.stTokenAmount = old.stTokenAmount + msg.amount)
    (hnative : user.nativeTokenAmount = old.nativeTokenAmount + nativeAmount) :
    Reconciled (users.set user) e (redeemedUnbonding r msg nativeAmount []) := by
  have hmem : user.id ∈ r.userRedemptionRecords := (h.listed _).mpr ⟨old, hold, hchain, hepoch⟩
  have hids : (redeemedUnbonding r msg nativeAmount []).userRedemptionRecords =
      r.userRedemptionRecords := append_nil _
  refine ⟨?_, ?_, hids ▸ h.once, fun id => ?_⟩
  · rw [hids, sum_listedRecords_set _ h.once, if_pos hmem, hold, hst, ← h.stTokens]
    simp [redeemedUnbonding]
  · rw [hids, sum_listedRecords_set _ h.once, if_pos hmem, hold, hnative, ← h.native]
    simp [redeemedUnbonding]
  · rw [hids, h.listed, get?_set]
    split
    · rename_i hid
      subst hid
      simp [hold, hchain', hepoch', redeemedUnbonding]
    · rfl

/-- **A first redemption** of a user is listed. -/
theorem add_new (hnone : users.get? user.id = none)
    (hchain : user.hostZoneId = r.hostZoneId) (hepoch : user.epochNumber = e)
    (hst : user.stTokenAmount = msg.amount) (hnative : user.nativeTokenAmount = nativeAmount) :
    Reconciled (users.set user) e (redeemedUnbonding r msg nativeAmount [user.id]) := by
  have hnot : user.id ∉ r.userRedemptionRecords := by
    rw [h.listed]
    rintro ⟨old, hget, -⟩
    rw [hnone] at hget
    cases hget
  have hself : (users.set user).get? user.id = some user := by
    rw [get?_set, if_pos rfl]
  -- the new user adds to every total of the listed records
  have hsum (f : UserRedemptionRecord → ℤ) :
      ((listedRecords (users.set user) (r.userRedemptionRecords ++ [user.id])).map f).sum =
        ((listedRecords users r.userRedemptionRecords).map f).sum + f user := by
    have hlast : listedRecords (users.set user) [user.id] = [user] := by
      simp [listedRecords, hself]
    have hsplit : listedRecords (users.set user) (r.userRedemptionRecords ++ [user.id]) =
        listedRecords (users.set user) r.userRedemptionRecords ++ [user] := by
      rw [← hlast]
      exact filterMap_append
    rw [hsplit, map_append, sum_append, sum_listedRecords_set _ h.once, if_neg hnot]
    simp
  refine ⟨?_, ?_, ?_, fun id => ?_⟩
  · show r.stTokenAmount + msg.amount = _
    rw [h.stTokens, ← hst]
    exact (hsum _).symm
  · show r.nativeTokenAmount + nativeAmount = _
    rw [h.native, ← hnative]
    exact (hsum _).symm
  · show (r.userRedemptionRecords ++ [user.id]).Nodup
    rw [nodup_append]
    refine ⟨h.once, by simp, ?_⟩
    rintro a ha b hb rfl
    exact hnot (mem_singleton.mp hb ▸ ha)
  · show id ∈ r.userRedemptionRecords ++ [user.id] ↔ _
    rw [mem_append, h.listed, get?_set]
    by_cases hid : id = user.id
    · subst hid
      simp [hchain, hepoch, redeemedUnbonding]
    · simp [hid, redeemedUnbonding]

private theorem refreshed (husers : UsersRefreshed rate r.userRedemptionRecords users users') :
    Reconciled users' e
      (refreshedRecord r (listedNativeAmount rate users r.userRedemptionRecords)) := by
  refine ⟨?_, ?_, h.once, fun id => ?_⟩
  · show r.stTokenAmount = ((listedRecords _ r.userRedemptionRecords).map _).sum
    rw [husers.listedRecords_eq, map_map, h.stTokens]
    rfl
  · show _ = ((listedRecords _ r.userRedemptionRecords).map _).sum
    rw [husers.listedRecords_eq, map_map]
    exact listedNativeAmount_eq ..
  · refine (h.listed id).trans ?_
    rw [husers id]
    split
    · simp [Option.map_eq_some_iff, refreshedUser, refreshedRecord]
    · rfl

private theorem refresh_other {e' : ℕ} {r' : HostZoneUnbonding}
    (h' : Reconciled users e' r') (hother : ¬ (r'.hostZoneId = r.hostZoneId ∧ e' = e))
    (husers : UsersRefreshed rate r'.userRedemptionRecords users users') :
    Reconciled users' e r := by
  -- no record is listed by both
  have hdisjoint (id : String) (hid : id ∈ r.userRedemptionRecords) :
      id ∉ r'.userRedemptionRecords := by
    intro hid'
    obtain ⟨user, huser, hchain, hepoch⟩ := (h.listed id).mp hid
    obtain ⟨user', huser', hchain', hepoch'⟩ := (h'.listed id).mp hid'
    obtain rfl : user = user' := Option.some.inj (huser.symm.trans huser')
    exact hother ⟨hchain'.symm.trans hchain, hepoch'.symm.trans hepoch⟩
  have hsame : listedRecords users' r.userRedemptionRecords =
      listedRecords users r.userRedemptionRecords := by
    apply filterMap_congr
    intro id hid
    rw [husers id, if_neg (hdisjoint id hid)]
  refine ⟨?_, ?_, h.once, fun id => ?_⟩
  · rw [hsame, h.stTokens]
  · rw [hsame, h.native]
  · refine (h.listed id).trans ?_
    rw [husers id]
    split
    · simp [Option.map_eq_some_iff, refreshedUser]
    · rfl

end

end Reconciled

/-! ## Invariant -/

/-- The book agrees for every unbonding, and nothing is booked for a day to come. -/
structure Book (k : RedemptionKeeper) : Prop where
  onePerChain : k.epochUnbondingRecords.OnePerChain
  epochs : ∀ e ∈ k.epochUnbondingRecords.store.keys, ∃ d, k.dayEpoch = some d ∧ e ≤ d
  users : ∀ id user, k.userRedemptionRecords.get? id = some user →
    ∃ d, k.dayEpoch = some d ∧ user.epochNumber ≤ d
  reconciled : ∀ c e r, hostZoneUnbondings k.epochUnbondingRecords c e = some r →
    Reconciled k.userRedemptionRecords e r
  burns : ∀ c e r, hostZoneUnbondings k.epochUnbondingRecords c e = some r →
    r.stTokensToBurn ≤ r.stTokenAmount
  denoms : ∀ c c' z z', k.hostZones.get? c = some z → k.hostZones.get? c' = some z' →
    z.hostDenom = z'.hostDenom → c = c'
  escrow : ∀ c z, k.hostZones.get? c = some z →
    chainTotal k.epochUnbondingRecords c HostZoneUnbonding.stTokenAmount ≤ k.escrow z

variable {k k' : RedemptionKeeper}

private theorem NoRedemptions.book (h : k.NoRedemptions) : k.Book where
  onePerChain e eur heur := by
    rw [h.records] at heur
    cases heur
  epochs e he := by
    rw [h.records] at he
    cases he
  users id user huser := by
    rw [h.users] at huser
    cases huser
  reconciled c e r hr := by
    rw [h.records] at hr
    cases hr
  burns c e r hr := by
    rw [h.records] at hr
    cases hr
  denoms := h.denoms
  escrow c z hz := by
    rw [h.records]
    exact h.escrow c z hz

section

variable (h : k.Book)

include h

private theorem Book.addsUp : k.AddsUp where
  unbondings e r hr _ := h.reconciled _ e r (h.onePerChain.holds_iff.mp hr)
  escrow c z hz := by
    refine le_trans (chainTotal_le fun e r hr => ?_) (h.escrow c z hz)
    have hburn := h.burns _ e r (h.onePerChain.holds_iff.mp hr)
    unfold unburned
    split
    · exact le_rfl
    · exact hburn

/-- **Writes**: one unbonding is written, together with user records and the bank. -/
theorem Book.write {e : ℕ} {r hzu : HostZoneUnbonding} {users : UserRedemptionStore}
    (hr : hostZoneUnbondings k.epochUnbondingRecords c e = some r)
    (hset : setHostZoneUnbondingRecord k.epochUnbondingRecords e c hzu = .ok records)
    (hid : hzu.hostZoneId = c) (hself : Reconciled users e hzu)
    (hothers : ∀ c' e' r', hostZoneUnbondings k.epochUnbondingRecords c' e' = some r' →
      ¬ (c' = c ∧ e' = e) → Reconciled users e' r') (husers : ∀ id user, users.get? id = some user →
      ∃ d, k.dayEpoch = some d ∧ user.epochNumber ≤ d)
    (hburn : hzu.stTokensToBurn ≤ hzu.stTokenAmount)
    (hescrow : ∀ c' z, k.hostZones.get? c' = some z →
      chainTotal k.epochUnbondingRecords c' HostZoneUnbonding.stTokenAmount +
        (if c' = c then hzu.stTokenAmount - r.stTokenAmount else 0) ≤
      bank.balance (k.settings z.chainId).depositAddress
        (stAssetDenomFromHostZoneDenom z.hostDenom)) :
    Book { k with
      epochUnbondingRecords := records, userRedemptionRecords := users, bank := bank } where
  onePerChain := h.onePerChain.set hr hid hset
  epochs := by
    rw [keys_setHostZoneUnbondingRecord hr hid hset]
    exact h.epochs
  users := husers
  reconciled c' e' r' hr' := by
    rw [view_setHostZoneUnbondingRecord hr hid hset] at hr'
    split at hr'
    · rename_i hhere
      cases hr'
      rw [hhere.2]
      exact hself
    · rename_i hother
      exact hothers c' e' r' hr' hother
  burns c' e' r' hr' := by
    rw [view_setHostZoneUnbondingRecord hr hid hset] at hr'
    split at hr'
    · cases hr'
      exact hburn
    · exact h.burns c' e' r' hr'
  denoms := h.denoms
  escrow c' z hz := by
    -- only the total of the chain `c` changes
    rw [chainTotal_setHostZoneUnbondingRecord _ c' hr hid hset]
    exact hescrow c' z hz

/-! ## Steps -/

private theorem Book.escrow_send (hz : k.hostZones.get? msg.hostZone = some z)
    (hcreator : msg.creator ≠ (k.settings msg.hostZone).depositAddress)
    (hsend : k.bank.sendCoins msg.creator (k.settings msg.hostZone).depositAddress
      (stAssetDenomFromHostZoneDenom z.hostDenom, msg.amount) = .ok bank) {z' : HostZone}
    (hz' : k.hostZones.get? c = some z') :
    bank.balance (k.settings z'.chainId).depositAddress
        (stAssetDenomFromHostZoneDenom z'.hostDenom) =
      k.escrow z' + if c = msg.hostZone then msg.amount else 0 := by
  have hchain : z'.chainId = c := key_of_get? hz'
  rw [Bank.balance_sendCoins hsend, RedemptionKeeper.escrow, hchain]
  by_cases hc : c = msg.hostZone
  · subst hc
    obtain rfl : z' = z := Option.some.inj (hz'.symm.trans hz)
    simp [Ne.symm hcreator]
  · have hdenom : stAssetDenomFromHostZoneDenom z'.hostDenom ≠
        stAssetDenomFromHostZoneDenom z.hostDenom := by
      intro heq
      exact hc (h.denoms _ _ _ _ hz' hz (stAssetDenomFromHostZoneDenom_inj heq))
    simp [hc, hdenom]

/-- **Redemptions**. -/
theorem Book.redeemStake (hcreator : msg.creator ≠ (k.settings msg.hostZone).depositAddress)
    (hok : k.FindsOwnRecord (.redeemStake msg)) (hs : redeemStake k msg = .ok k') : k'.Book := by
  obtain ⟨z, nativeAmount, e, r, bz, bank, records, hz, hchain, -, hday, hr, hnonneg, hsend, hset,
    rfl⟩ := redeemStake_ok hs
  have hrchain := hostZoneId_of_hostZoneUnbondings hr
  have hrec := h.reconciled _ _ _ hr
  have hescrow (c' : String) (z' : HostZone) (hz' : k.hostZones.get? c' = some z') :
      chainTotal k.epochUnbondingRecords c' HostZoneUnbonding.stTokenAmount +
        (if c' = msg.hostZone then r.stTokenAmount + msg.amount - r.stTokenAmount else 0) ≤
      bank.balance (k.settings z'.chainId).depositAddress
        (stAssetDenomFromHostZoneDenom z'.hostDenom) := by
    rw [h.escrow_send hz hcreator hsend hz', add_sub_cancel_left]
    exact add_le_add_left (h.escrow c' z' hz') _
  have hburn : r.stTokensToBurn ≤ r.stTokenAmount + msg.amount :=
    (h.burns _ _ _ hr).trans (le_add_of_nonneg_right hnonneg)
  -- the record under the id belongs to this redemption, or there is none yet
  cases hstored : k.userRedemptionRecords.get?
      (userRedemptionRecordKeyFormatter msg.hostZone e msg.receiver) with
  | none =>
    rw [hstored] at hset
    have hid : (redeemedRecord z e msg nativeAmount none).id =
        userRedemptionRecordKeyFormatter msg.hostZone e msg.receiver := by
      simp [redeemedRecord, hchain]
    have howner : (redeemedRecord z e msg nativeAmount none).hostZoneId = msg.hostZone := hchain
    refine h.write hr hset hrchain (hrec.add_new (hid ▸ hstored) (howner.trans hrchain.symm) rfl
      rfl rfl) ?_ ?_ hburn hescrow
    · intro c' e' r' hr' hother
      refine (h.reconciled _ _ _ hr').set_other ?_ ?_
      · intro old hold
        rw [hid, hstored] at hold
        cases hold
      · rw [hostZoneId_of_hostZoneUnbondings hr', howner]
        rintro ⟨rfl, rfl⟩
        exact hother ⟨rfl, rfl⟩
    · intro id user huser
      rw [get?_set] at huser
      split at huser
      · cases huser
        exact ⟨e, hday, le_rfl⟩
      · exact h.users id user huser
  | some old =>
    rw [hstored] at hset
    obtain ⟨hzone, hepoch⟩ := hok e old hday hstored
    have hid : old.id = userRedemptionRecordKeyFormatter msg.hostZone e msg.receiver :=
      key_of_get? hstored
    have hold : k.userRedemptionRecords.get? (redeemedRecord z e msg nativeAmount (some old)).id =
        some old := by
      show k.userRedemptionRecords.get? old.id = some old
      rw [hid]
      exact hstored
    refine h.write hr hset hrchain (hrec.add_existing hold (hzone.trans hrchain.symm) hepoch rfl
      rfl rfl rfl) ?_ ?_ hburn hescrow
    · intro c' e' r' hr' hother
      have hother' : ¬ (old.hostZoneId = r'.hostZoneId ∧ old.epochNumber = e') := by
        rw [hostZoneId_of_hostZoneUnbondings hr', hzone, hepoch]
        rintro ⟨rfl, rfl⟩
        exact hother ⟨rfl, rfl⟩
      refine (h.reconciled _ _ _ hr').set_other ?_ hother'
      intro old' hold'
      rw [hold] at hold'
      cases hold'
      exact hother'
    · intro id user huser
      rw [get?_set] at huser
      split at huser
      · cases huser
        exact h.users _ old hstored
      · exact h.users id user huser

/-- **New days**: the unbondings of a new day are empty. -/
theorem Book.startDay {e : ℕ} (hnew : ∀ d, k.dayEpoch = some d → d < e) :
    (createEpochUnbondingRecord { k with dayEpoch := some e } e).Book := by
  -- the new day is later than every epoch with a record
  have hnone : k.epochUnbondingRecords.getEpochUnbondingRecord e = none := by
    cases hget : k.epochUnbondingRecords.getEpochUnbondingRecord e with
    | none => rfl
    | some eur =>
      obtain ⟨d, hd, hle⟩ := h.epochs e (KVStore.mem_keys_iff.mpr ⟨eur, hget⟩)
      exact absurd (hnew d hd) (not_lt.mpr hle)
  let eur : EpochUnbondingRecord :=
    ⟨e, (getAllActiveHostZone k.hostZones).map emptyHostZoneUnbonding⟩
  refine ⟨?_, ?_, ?_, ?_, ?_, h.denoms, ?_⟩
  · intro e' eur' heur'
    replace heur' : (k.epochUnbondingRecords.setEpochUnbondingRecord eur).getEpochUnbondingRecord
      e' = some eur' := heur'
    rw [getEpochUnbondingRecord_set] at heur'
    split at heur'
    · cases heur'
      rw [map_map]
      have hsub : ((getAllActiveHostZone k.hostZones).map HostZone.chainId).Sublist
          (k.hostZones.values.map HostZone.chainId) :=
        (filter_sublist).map _
      exact hsub.nodup k.hostZones.nodup_map_key_values
    · exact h.onePerChain e' eur' heur'
  · intro e' he'
    obtain ⟨eur', heur'⟩ := KVStore.mem_keys_iff.mp he'
    replace heur' : (k.epochUnbondingRecords.setEpochUnbondingRecord eur).getEpochUnbondingRecord
      e' = some eur' := heur'
    rw [getEpochUnbondingRecord_set] at heur'
    split at heur'
    · rename_i he
      exact ⟨e, rfl, he.le⟩
    · obtain ⟨d, hd, hle⟩ := h.epochs e' (KVStore.mem_keys_iff.mpr ⟨eur', heur'⟩)
      exact ⟨e, rfl, hle.trans (hnew d hd).le⟩
  · intro id user huser
    obtain ⟨d, hd, hle⟩ := h.users id user huser
    exact ⟨e, rfl, hle.trans (hnew d hd).le⟩
  · intro c e' r hr
    rcases view_createEpochUnbondingRecord hr with hold | ⟨rfl, z, rfl⟩
    · exact h.reconciled c e' r hold
    · -- no user has redeemed in the new epoch yet
      refine ⟨rfl, rfl, nodup_nil, fun id => iff_of_false not_mem_nil ?_⟩
      rintro ⟨user, huser, -, hepoch⟩
      obtain ⟨d, hd, hle⟩ := h.users id user huser
      exact absurd (hnew d hd) (not_lt.mpr (hepoch ▸ hle))
  · intro c e' r hr
    rcases view_createEpochUnbondingRecord hr with hold | ⟨-, z, rfl⟩
    · exact h.burns c e' r hold
    · exact le_rfl
  · intro c z hz
    show chainTotal (k.epochUnbondingRecords.setEpochUnbondingRecord eur) c _ ≤ k.escrow z
    rw [chainTotal_setEpochUnbondingRecord _ c hnone]
    have hzero : ((eur.hostZoneUnbondings.filter fun r => r.hostZoneId = c).map
        HostZoneUnbonding.stTokenAmount).sum = 0 := by
      apply sum_map_eq_zero
      intro r hr
      obtain ⟨z', -, rfl⟩ := mem_map.mp (mem_of_mem_filter hr)
      rfl
    rw [hzero, add_zero]
    exact h.escrow c z hz

/-- **Refreshes**. -/
theorem Book.refreshQueued {e : ℕ} (hs : k.refreshQueued e c = some k') : k'.Book := by
  unfold RedemptionKeeper.refreshQueued at hs
  split at hs
  · cases hs
  rename_i r hr
  split at hs
  · obtain ⟨z, users, records, hz, husers, hset, rfl⟩ :=
      refreshHostZoneUnbonding_ok (toOption_eq_some.mp hs)
    have hrchain := hostZoneId_of_hostZoneUnbondings hr
    have hrec := h.reconciled _ _ _ hr
    rw [hrchain] at hset
    refine h.write hr hset hrchain (hrec.refreshed husers) ?_ ?_ le_rfl ?_
    · intro c' e' r' hr' hother
      refine (h.reconciled _ _ _ hr').refresh_other hrec ?_ husers
      rw [hrchain, hostZoneId_of_hostZoneUnbondings hr']
      rintro ⟨rfl, rfl⟩
      exact hother ⟨rfl, rfl⟩
    · intro id user huser
      rw [husers id] at huser
      split at huser
      · obtain ⟨old, hold, rfl⟩ := Option.map_eq_some_iff.mp huser
        exact h.users id old hold
      · exact h.users id user huser
    · -- a refresh leaves the stTokens
      intro c' z' hz'
      have hsame : (refreshedRecord r (listedNativeAmount z.redemptionRate
        k.userRedemptionRecords r.userRedemptionRecords)).stTokenAmount - r.stTokenAmount = 0 :=
        sub_self _
      rw [hsame, ite_self, add_zero]
      exact h.escrow c' z' hz'
  · cases hs

/-- **Submissions**: the amounts stay as the refresh has left them. -/
theorem Book.submit {e : ℕ} {n : ℕ} {r : HostZoneUnbonding}
    (hr : k.epochUnbondingRecords.getHostZoneUnbondingByChainId e c = some r)
    (hset : setHostZoneUnbondingRecord k.epochUnbondingRecords e c (submittedRecord n r) =
      .ok records) : Book { k with epochUnbondingRecords := records } := by
  have hrec := h.reconciled c e r hr
  have hrchain : r.hostZoneId = c := hostZoneId_of_hostZoneUnbondings hr
  refine h.write hr hset hrchain
    ⟨hrec.stTokens, hrec.native, hrec.once, hrec.listed⟩ ?_ h.users (h.burns c e r hr) ?_
  · intro c' e' r' hr' _
    exact h.reconciled c' e' r' hr'
  · intro c' z hz
    have hsame : (submittedRecord n r).stTokenAmount - r.stTokenAmount = 0 := sub_self _
    rw [hsame, ite_self, add_zero]
    exact h.escrow c' z hz

/-- A zone may change beside its denom and its deposit account. -/
theorem Book.updateHostZone {old : HostZone} {settings : ZoneSettings}
    (hold : k.hostZones.get? z.chainId = some old) (hdenom : z.hostDenom = old.hostDenom)
    (hdeposit : settings.depositAddress = (k.settings z.chainId).depositAddress) :
    Book { k with
      hostZones := k.hostZones.set z
      settings := update k.settings z.chainId settings } := by
  -- a zone of the new store has the chain id and the denom of one of the old store
  have hback {c : String} {z' : HostZone} (hz' : (k.hostZones.set z).get? c = some z') :
      ∃ z'', k.hostZones.get? c = some z'' ∧ z'.hostDenom = z''.hostDenom := by
    rw [get?_set] at hz'
    split at hz'
    · rename_i hc
      cases hz'
      exact ⟨old, hc ▸ hold, hdenom⟩
    · exact ⟨z', hz', rfl⟩
  have haddress (c : String) : (update k.settings z.chainId settings c).depositAddress =
      (k.settings c).depositAddress := by
    by_cases hc : c = z.chainId
    · subst hc
      rw [update_self, hdeposit]
    · rw [update_of_ne hc]
  refine ⟨h.onePerChain, h.epochs, h.users, h.reconciled, h.burns, ?_, ?_⟩
  · intro c c' z₁ z₂ hz₁ hz₂ heq
    obtain ⟨z₁', hz₁', hd₁⟩ := hback hz₁
    obtain ⟨z₂', hz₂', hd₂⟩ := hback hz₂
    exact h.denoms c c' z₁' z₂' hz₁' hz₂' (hd₁ ▸ hd₂ ▸ heq)
  · intro c z' hz'
    obtain ⟨z'', hz'', hd⟩ := hback hz'
    have hchain : z'.chainId = c := key_of_get? hz'
    have hchain' : z''.chainId = c := key_of_get? hz''
    have hle := h.escrow c z'' hz''
    unfold RedemptionKeeper.escrow at hle ⊢
    rw [hchain'] at hle
    simp only [hchain, haddress, hd]
    exact hle

private theorem Book.step (hok : k.FindsOwnRecord l) (hs : k.step l = some k') : k'.Book := by
  cases l with
  | redeemStake msg =>
    dsimp only [step] at hs
    split at hs
    · cases hs
    rename_i hcreator
    exact h.redeemStake hcreator hok (toOption_eq_some.mp hs)
  | startDay e =>
    dsimp only [step] at hs
    split at hs
    · rename_i hnew
      cases hs
      apply h.startDay
      intro d hd
      simpa [hd] using hnew
    · cases hs
  | updateHostZone z settings =>
    dsimp only [step] at hs
    split at hs
    · cases hs
    rename_i old hold
    split at hs
    · rename_i hsame
      cases hs
      exact h.updateHostZone hold hsame.1 hsame.2.1
    · cases hs
  | refresh e c => exact h.refreshQueued hs
  | submit e c n =>
    obtain ⟨k₁, hk₁, hs⟩ := Option.bind_eq_some_iff.mp hs
    split at hs
    · cases hs
    rename_i r hr
    obtain ⟨records, hset, rfl⟩ := toOption_map_eq_some.mp hs
    exact (h.refreshQueued hk₁).submit hr hset

end

/-! ## Runs -/

/-- **Redemptions add up**: in every run in which each redemption finds its own record or none,
    the user records, the unbondings and the escrow agree. -/
theorem redemptions_add_up {k₀ : RedemptionKeeper} (hstart : k₀.NoRedemptions)
    (hrun : Reaches step FindsOwnRecord k₀ k) : k.AddsUp :=
  (hrun.invariant hstart.book fun _ _ _ hi hok hs => hi.step hok hs).addsUp

/-! ## Two zones with dots -/

/-- A zone at the rate 1, with a delegation that is large enough. -/
def plainZone (chainId hostDenom : String) : HostZone where
  chainId := chainId
  connectionId := "connection-0"
  hostDenom := hostDenom
  validators := []
  delegationIcaAddress := "delegation"
  redemptionIcaAddress := "redemption"
  totalDelegations := 1000
  redemptionRate := LegacyDec.one
  maxMessagesPerIcaTx := Nat.succPNat 31
  halted := false

/-- The chain id of the second zone extends that of the first by a dot, and the address prefix
    of the first zone extends that of the second. -/
def dottedZones : RedemptionKeeper where
  params := ⟨90, 150⟩
  hostZones := (empty.set (plainZone "host" "uatom")).set
    (plainZone "host.1.icxmbna" "uosmo")
  settings chainId :=
    if chainId = "host" then plainSettings "icxmbna.2.pb" "deposit1"
    else plainSettings "pb" "deposit2"
  dayEpoch := none
  epochUnbondingRecords := .empty
  userRedemptionRecords := .empty
  bank := ⟨fun address _ => if address = "alice" then 1000 else 0, fun _ => 1000⟩

private theorem dottedZones_noRedemptions : dottedZones.NoRedemptions where
  records := rfl
  users := rfl
  denoms c c' z z' hz hz' hdenom := by
    have hcases {c : String} {z : HostZone} (hz : dottedZones.hostZones.get? c = some z) :
        (c = "host" ∧ z.hostDenom = "uatom") ∨ (c = "host.1.icxmbna" ∧ z.hostDenom = "uosmo") := by
      simp only [dottedZones, get?_set] at hz
      split at hz
      · rename_i hc
        cases hz
        exact .inr ⟨hc, rfl⟩
      · split at hz
        · rename_i hc
          cases hz
          exact .inl ⟨hc, rfl⟩
        · cases hz
    rcases hcases hz with ⟨rfl, hd⟩ | ⟨rfl, hd⟩ <;> rcases hcases hz' with ⟨rfl, hd'⟩ | ⟨rfl, hd'⟩
    · rfl
    · rw [hd, hd'] at hdenom
      exact absurd hdenom (by decide)
    · rw [hd, hd'] at hdenom
      exact absurd hdenom (by decide)
    · rfl
  escrow c z _ := by
    simp only [escrow, dottedZones]
    split <;> decide

/-- The two addresses have the same data part and checksum, and both are valid. -/
def collidingRedemptions : List RedemptionEvent :=
  [.startDay 1,
    .redeemStake ⟨"alice", 100, "host",
      "icxmbna.2.pb1qqqqqqqqqqqqqqqqqqqqqqqqqqqqqqqq6dt62p"⟩,
    .startDay 2,
    .redeemStake ⟨"alice", 50, "host.1.icxmbna", "pb1qqqqqqqqqqqqqqqqqqqqqqqqqqqqqqqq6dt62p"⟩]

/-- Whether a queued unbonding differs from the records it lists. -/
def differs (k : RedemptionKeeper) (e : ℕ) (chainId : String) : Bool :=
  (k.epochUnbondingRecords.getHostZoneUnbondingByChainId e chainId).any fun r =>
    r.status = .unbondingQueue ∧
      r.stTokenAmount ≠ ((listedRecords k.userRedemptionRecords r.userRedemptionRecords).map
        UserRedemptionRecord.stTokenAmount).sum

private theorem not_addsUp_of_differs {e : ℕ} {chainId : String} (h : k.differs e chainId = true) :
    ¬ k.AddsUp := by
  intro hadds
  unfold differs at h
  cases hr : k.epochUnbondingRecords.getHostZoneUnbondingByChainId e chainId with
  | none => simp [hr] at h
  | some r =>
    simp only [hr, Option.any_some, decide_eq_true_eq] at h
    obtain ⟨eur, heur, hfind⟩ := Option.bind_eq_some_iff.mp hr
    exact h.2 (hadds.unbondings e r ⟨eur, heur, mem_of_find?_eq_some hfind⟩ h.1).stTokens

/-- The redemption on the second zone is added to the user record of the first: the unbonding of
    the first zone has 100 stTokens and its user record 150, and that of the second zone has 50
    stTokens and no user record. -/
theorem redemption_of_another_zone : dottedZones.NoRedemptions ∧
    ∃ k, runSteps step dottedZones collidingRedemptions = some k ∧ ¬ k.AddsUp := by
  refine ⟨dottedZones_noRedemptions, ?_⟩
  have hrun : ((runSteps step dottedZones collidingRedemptions).any
      fun k => k.differs 1 "host" && k.differs 2 "host.1.icxmbna") = true := by decide +kernel
  cases hk : runSteps step dottedZones collidingRedemptions with
  | none => simp [hk] at hrun
  | some k =>
    simp only [hk, Option.any_some, Bool.and_eq_true] at hrun
    exact ⟨k, rfl, not_addsUp_of_differs hrun.1⟩

/-! ## A run that adds up -/

/-- Two redemptions to one receiver on one day, at different rates, a third one on the next day,
    and the submission of the first day. -/
def repeatedRedemptions : List RedemptionEvent :=
  [.startDay 1,
    .redeemStake ⟨"alice", 100, "host.1.icxmbna",
      "pb1qqqqqqqqqqqqqqqqqqqqqqqqqqqqqqqq6dt62p"⟩,
    .updateHostZone { plainZone "host.1.icxmbna" "uosmo" with redemptionRate := ⟨11 * 10 ^ 17⟩ }
      (plainSettings "pb" "deposit2"),
    .redeemStake ⟨"alice", 55, "host.1.icxmbna", "pb1qqqqqqqqqqqqqqqqqqqqqqqqqqqqqqqq6dt62p"⟩,
    .refresh 1 "host.1.icxmbna",
    .startDay 2,
    .redeemStake ⟨"alice", 7, "host.1.icxmbna", "pb1qqqqqqqqqqqqqqqqqqqqqqqqqqqqqqqq6dt62p"⟩,
    .submit 1 "host.1.icxmbna" 1]

theorem redemptions_add_up_repeated : ∃ k, Reaches step FindsOwnRecord dottedZones k ∧
    chainTotal k.epochUnbondingRecords "host.1.icxmbna" unburned = 162 ∧ k.AddsUp := by
  have hrun : Reaches step FindsOwnRecord dottedZones _ :=
    .of_get (l := repeatedRedemptions) (by decide +kernel)
  exact ⟨_, hrun, by decide +kernel, redemptions_add_up dottedZones_noRedemptions hrun⟩

end RedemptionKeeper

end Stride.Stakeibc
