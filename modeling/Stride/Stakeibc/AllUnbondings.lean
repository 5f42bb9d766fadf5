import Stride.Stakeibc.RedeemStake
import Mathlib.Algebra.Order.BigOperators.Group.Finset
import Mathlib.Data.Int.CardIntervalMod
import Mathlib.Data.Nat.Periodic

/-!
# Submitting the Undelegations of all Host Zones

`InitiateAllHostZoneUnbondings` goes through the active zones on the days that their unbonding
frequency allows. Each zone works in a cached context, so that an error or a panic discards the
writes of that zone, its packets included.

The refresh of the amounts always goes through. If nothing is to be unbonded after it, the source
returns without an error: the amounts stay refreshed and nothing is sent.
-/

namespace Stride.Stakeibc

open Lib Sdk Records Records.EpochUnbondingStore KeyedStore

/-! ## Model -/

/-- What `InitiateAllHostZoneUnbondings` reads and writes. A transaction stands for the packet
    and for its callback data. -/
structure AllUnbondings where
  hostZones : HostZoneStore
  /-- in days, by chain id -/
  unbondingPeriod : String → UInt64
  epochUnbondingRecords : EpochUnbondingStore
  userRedemptionRecords : UserRedemptionStore
  sent : List UndelegateTx

def maxUnbondingEntries : UInt64 := 7

def getUnbondingFrequency (unbondingPeriod : UInt64) : UInt64 :=
  unbondingPeriod / maxUnbondingEntries + 1

namespace AllUnbondings

/-- What `UnbondFromHostZone` is given. It does not read the bank. -/
def keeper (s : AllUnbondings) (hostZone : HostZone) : UnbondingKeeper :=
  ⟨hostZone, s.epochUnbondingRecords, s.userRedemptionRecords, ⟨0, 0⟩⟩

/-- `ApplyFuncIfNoError` around `UnbondFromHostZone`. -/
def unbond (s : AllUnbondings) (submitTxs : ℕ → Bool) (hostZone : HostZone) : AllUnbondings :=
  match unbondFromHostZone (s.keeper hostZone) submitTxs with
  | .error _ => s
  | .ok (k, txs) =>
    { s with
      hostZones := s.hostZones.set k.hostZone
      epochUnbondingRecords := k.epochUnbondingRecords
      userRedemptionRecords := k.userRedemptionRecords
      sent := s.sent ++ txs }

def unbondOnDay (s₀ : AllUnbondings) (dayNumber : ℕ) (submitTxs : String → ℕ → Bool)
    (s : AllUnbondings) (hostZone : HostZone) : AllUnbondings :=
  if dayNumber % (getUnbondingFrequency (s₀.unbondingPeriod hostZone.chainId)).toNat ≠ 0 then s
  else s.unbond (submitTxs hostZone.chainId) hostZone

/-- `submitTxs` says which batches of which zones the ICA controller accepts. -/
def initiateAllHostZoneUnbondings (s : AllUnbondings) (dayNumber : ℕ)
    (submitTxs : String → ℕ → Bool) : AllUnbondings :=
  (getAllActiveHostZone s.hostZones).foldl (s.unbondOnDay dayNumber submitTxs) s

end AllUnbondings

/-! ## All zones -/

namespace AllUnbondings

variable {s s₁ s₂ : AllUnbondings} {z : HostZone} {c : String} {submitTxs : ℕ → Bool}

def sentFor (s : AllUnbondings) (c : String) : List UndelegateTx :=
  s.sent.filter fun tx => tx.callback.hostZoneId = c

/-- Nothing of the zone differs: its validators and counters, the records it sees, what was sent
    for it, and the stTokens of the users. -/
structure SameZone (c : String) (s s₁ : AllUnbondings) : Prop where
  zone : s₁.hostZones.get? c = s.hostZones.get? c
  view : hostZoneUnbondings s₁.epochUnbondingRecords c =
    hostZoneUnbondings s.epochUnbondingRecords c
  keys : s₁.epochUnbondingRecords.store.keys = s.epochUnbondingRecords.store.keys
  stTokens : redeemedTokens s₁.userRedemptionRecords = redeemedTokens s.userRedemptionRecords
  sent : s₁.sentFor c = s.sentFor c

private theorem SameZone.refl (c : String) (s : AllUnbondings) : SameZone c s s :=
  ⟨rfl, rfl, rfl, rfl, rfl⟩

private theorem SameZone.trans (h₁ : SameZone c s s₁) (h₂ : SameZone c s₁ s₂) : SameZone c s s₂ :=
  ⟨h₂.zone.trans h₁.zone, h₂.view.trans h₁.view, h₂.keys.trans h₁.keys,
    h₂.stTokens.trans h₁.stTokens, h₂.sent.trans h₁.sent⟩

def queue (s : AllUnbondings) (z : HostZone) : EpochRecords :=
  getQueuedHostZoneUnbondingRecords s.epochUnbondingRecords z.chainId

/-- The records of a zone that are queued are rewritten by `g`. -/
def RewritesQueue (s s' : AllUnbondings) (z : HostZone)
    (g : HostZoneUnbonding → HostZoneUnbonding) : Prop :=
  ∀ e, hostZoneUnbondings s'.epochUnbondingRecords z.chainId e =
    if e ∈ (s.queue z).map Prod.fst then
      (hostZoneUnbondings s.epochUnbondingRecords z.chainId e).map g
    else hostZoneUnbondings s.epochUnbondingRecords z.chainId e

/-- It is the turn of a zone, and `UnbondFromHostZone` goes through for it. -/
structure Unbonds (s : AllUnbondings) (dayNumber : ℕ) (submitTxs : String → ℕ → Bool)
    (z : HostZone) : Prop where
  zone : s.hostZones.get? z.chainId = some z
  active : z.halted = false
  day : dayNumber % (getUnbondingFrequency (s.unbondingPeriod z.chainId)).toNat = 0
  done : ∃ result, unbondFromHostZone (s.keeper z) (submitTxs z.chainId) = .ok result

/-- What the epoch leaves of a zone, which unbonds or not. -/
inductive ZoneOutcome (s s' : AllUnbondings) (z : HostZone) (unbonds : Prop) : Prop
  | unchanged (idle : ¬ unbonds) (same : SameZone z.chainId s s')
  /-- after the refresh there is nothing to unbond -/
  | refreshed (turn : unbonds) (total : getTotalUnbondAmount (s.keeper z).refreshedQueue = 0)
      (zone : s'.hostZones.get? z.chainId = some z)
      (records : s.RewritesQueue s' z (s.keeper z).refreshed)
      (sent : s'.sentFor z.chainId = s.sentFor z.chainId)
  /-- the batches are those of the computed splits, and they name the records in progress -/
  | submitted (turn : unbonds) (msgs : List MsgUndelegate) (splits : List SplitUndelegation)
      (z' : HostZone) (txs : List UndelegateTx)
      (computed : unbondingMessages z (getTotalUnbondAmount (s.keeper z).refreshedQueue) =
        .ok (msgs, splits))
      (sent : s'.sentFor z.chainId = s.sentFor z.chainId ++ txs)
      (batches : (txs.map UndelegateTx.msgs).flatten = msgs ∧
        (txs.map fun tx => tx.callback.splitUndelegations).flatten = splits)
      (named : ∀ tx ∈ txs, tx.callback.epochUnbondingRecordIds = (s.queue z).map Prod.fst)
      (records : s.RewritesQueue s' z fun r =>
        submittedRecord txs.length ((s.keeper z).refreshed r))
      (zone : s'.hostZones.get? z.chainId = some z')
      (counters : BookEffect z z' 0 0 fun a =>
        ((splits.map SplitUndelegation.validator).count a : ℤ))

private theorem SameZone.queue_eq (h : SameZone z.chainId s s₁) : s₁.queue z = s.queue z := by
  have hfetched : Fetched s.epochUnbondingRecords z.chainId (s₁.queue z) := fun p hp => by
    rw [← h.view]
    exact fetched_selectHostZoneUnbondings _ _ _ p hp
  refine hfetched.ext (fetched_selectHostZoneUnbondings _ _ _) ?_
  rw [queue, getQueuedHostZoneUnbondingRecords, map_fst_selectHostZoneUnbondings, h.keys, h.view,
    ← map_fst_selectHostZoneUnbondings]
  rfl

/-- A zone works on its own data, which other zones leave alone. -/
theorem SameZone.refreshed_eq (h : SameZone z.chainId s s₁) :
    (s₁.keeper z).refreshed = (s.keeper z).refreshed := by
  have hamount : (s₁.keeper z).nativeAmount = (s.keeper z).nativeAmount := by
    funext r
    simp only [UnbondingKeeper.nativeAmount, listedNativeAmount, keeper, h.stTokens]
  funext r
  simp only [UnbondingKeeper.refreshed, hamount]

private theorem SameZone.refreshedQueue_eq (h : SameZone z.chainId s s₁) :
    (s₁.keeper z).refreshedQueue = (s.keeper z).refreshedQueue := by
  show mapRecords (s₁.keeper z).refreshed (s₁.queue z) = _
  rw [h.queue_eq, h.refreshed_eq]
  rfl

/-- The turn of a zone: the plan fails and nothing changes, or the plan is carried out. -/
theorem unbond_cases (s : AllUnbondings) (submitTxs : ℕ → Bool) (z : HostZone) :
    (∃ err, undelegationPlan z (s.keeper z).refreshedQueue submitTxs = .error err ∧
      unbondFromHostZone (s.keeper z) submitTxs = .error err ∧ s.unbond submitTxs z = s) ∨
    ∃ k' z' txs, undelegationPlan z (s.keeper z).refreshedQueue submitTxs = .ok (z', txs) ∧
      unbondFromHostZone (s.keeper z) submitTxs = .ok (k', txs) ∧
      Unbonded (s.keeper z) k' z' txs ∧ z'.chainId = z.chainId ∧
      (∀ tx ∈ txs, tx.callback.hostZoneId = z.chainId) ∧
      s.unbond submitTxs z =
        { s with
          hostZones := s.hostZones.set z'
          epochUnbondingRecords := k'.epochUnbondingRecords
          userRedemptionRecords := k'.userRedemptionRecords
          sent := s.sent ++ txs } := by
  have heq := unbondFromHostZone_eq (s.keeper z) submitTxs
  cases hplan : undelegationPlan z (s.keeper z).refreshedQueue submitTxs with
  | error err =>
    rw [show (s.keeper z).hostZone = z from rfl, hplan] at heq
    exact .inl ⟨err, rfl, heq, by simp [unbond, heq]⟩
  | ok plan =>
    obtain ⟨z', txs⟩ := plan
    rw [show (s.keeper z).hostZone = z from rfl, hplan] at heq
    obtain ⟨k', hunbond, hunbonded⟩ := heq
    have hzone : z'.chainId = z.chainId ∧ ∀ tx ∈ txs, tx.callback.hostZoneId = z.chainId := by
      obtain ⟨-, rfl, rfl⟩ | ⟨-, _, _, hsent⟩ := undelegationPlan_ok hplan
      · exact ⟨rfl, List.forall_mem_nil _⟩
      · exact ⟨hsent.counters.chainId, fun tx htx => (hsent.named tx htx).1⟩
    refine .inr ⟨k', z', txs, rfl, hunbond, hunbonded, hzone.1, hzone.2, ?_⟩
    simp [unbond, hunbond, hunbonded.zone]

private theorem sentFor_append {txs : List UndelegateTx}
    (h : ∀ tx ∈ txs, tx.callback.hostZoneId = z.chainId) (c : String) :
    (s.sent ++ txs).filter (fun tx => tx.callback.hostZoneId = c) =
      s.sentFor c ++ if c = z.chainId then txs else [] := by
  rw [List.filter_append]
  congr 1
  split
  · rename_i hc
    exact List.filter_eq_self.mpr fun tx htx => decide_eq_true ((h tx htx).trans hc.symm)
  · rename_i hc
    exact List.filter_eq_nil_iff.mpr fun tx htx heq =>
      hc ((of_decide_eq_true heq).symm.trans (h tx htx))

/-- A zone leaves the others alone. -/
theorem sameZone_unbond (hc : c ≠ z.chainId) : SameZone c s (s.unbond submitTxs z) := by
  rcases s.unbond_cases submitTxs z with
    ⟨_, -, -, heq⟩ | ⟨k', z', txs, -, -, h, hid, htxs, heq⟩
  · rw [heq]
    exact .refl c s
  · rw [heq]
    refine ⟨get?_set_of_ne _ _ (hid ▸ hc), ?_, h.records.keys,
      h.users.redeemedTokens_eq, ?_⟩
    · funext e
      rw [h.records.view, if_neg fun hz => hc hz.1]
      rfl
    · simp [sentFor, sentFor_append htxs, hc]

/-- What a zone does depends on its own data only. -/
theorem SameZone.unbond (h : SameZone z.chainId s s₁) :
    SameZone z.chainId (s.unbond submitTxs z) (s₁.unbond submitTxs z) := by
  -- the plan of a zone only depends on what the two states share
  have hplan := h.refreshedQueue_eq
  rcases s.unbond_cases submitTxs z with
      ⟨_, herr, -, heq⟩ | ⟨k', z', txs, hok, -, hu, hid, htxs, heq⟩ <;>
    rcases s₁.unbond_cases submitTxs z with
      ⟨_, herr₁, -, heq₁⟩ | ⟨k₁', z₁', txs₁, hok₁, -, hu₁, hid₁, htxs₁, heq₁⟩
  · rw [heq, heq₁]
    exact h
  · rw [hplan, herr] at hok₁
    cases hok₁
  · rw [hplan, hok] at herr₁
    cases herr₁
  · rw [hplan, hok] at hok₁
    cases hok₁
    rw [heq, heq₁]
    have hkeys := hu₁.records.keys.trans (h.keys.trans hu.records.keys.symm)
    refine ⟨?_, ?_, hkeys, ?_, ?_⟩
    · rw [← hid, get?_set_self, get?_set_self]
    · funext e
      have hview := congrFun h.view e
      have hqueue := h.queue_eq
      rw [hu.records.view, hu₁.records.view, h.refreshed_eq]
      simp only [keeper, queue, UnbondingKeeper.queuedRecords] at hview hqueue ⊢
      rw [hview, hqueue]
    · exact hu₁.users.redeemedTokens_eq.trans (h.stTokens.trans hu.users.redeemedTokens_eq.symm)
    · show (s₁.sent ++ txs).filter _ = (s.sent ++ txs).filter _
      rw [sentFor_append htxs, sentFor_append htxs, h.sent]

/-- What one zone leaves of itself. -/
theorem zoneOutcome_unbond : ZoneOutcome s (s.unbond submitTxs z) z
    (∃ result, unbondFromHostZone (s.keeper z) submitTxs = .ok result) := by
  rcases s.unbond_cases submitTxs z with
    ⟨_, -, herr, heq⟩ | ⟨k', z', txs, hok, hdone, hu, hid, htxs, heq⟩
  · rw [heq, herr]
    exact .unchanged (by simp) (.refl _ s)
  have hzone : (s.hostZones.set z').get? z.chainId = some z' := by
    rw [← hid, get?_set_self]
  have hsent : (s.unbond submitTxs z).sentFor z.chainId = s.sentFor z.chainId ++ txs := by
    rw [heq]
    exact (sentFor_append htxs z.chainId).trans (by rw [if_pos rfl])
  have hrecords : s.RewritesQueue (s.unbond submitTxs z) z fun r =>
      unbondedAt txs.length ((s.keeper z).refreshed r) := by
    intro e
    rw [heq, hu.records.view]
    exact if_congr (and_iff_right rfl) rfl rfl
  obtain ⟨htotal, rfl, rfl⟩ | ⟨-, msgs, us, hplan⟩ := undelegationPlan_ok hok
  · exact .refreshed ⟨_, hdone⟩ htotal (by rw [heq]; exact hzone) hrecords (by simpa using hsent)
  · refine .submitted ⟨_, hdone⟩ msgs us z' txs hplan.computed hsent ⟨hplan.msgs, hplan.splits⟩
      ?_ ?_ (by rw [heq]; exact hzone) hplan.counters
    · intro tx htx
      exact (hplan.named tx htx).2.trans (map_fst_mapRecords _ _)
    · simpa [unbondedAt, hplan.ne_nil] using hrecords

private theorem ZoneOutcome.of_sameZone {s' : AllUnbondings} {p q : Prop} (h : ZoneOutcome s s₁ z p)
    (hturn : p ↔ q) (hsame : SameZone z.chainId s₁ s') : ZoneOutcome s s' z q := by
  have hview (e : ℕ) := congrFun hsame.view e
  rw [← hturn]
  cases h with
  | unchanged idle same => exact .unchanged idle (same.trans hsame)
  | refreshed turn total zone records sent =>
    exact .refreshed turn total (hsame.zone.trans zone) (fun e => (hview e).trans (records e))
      (hsame.sent.trans sent)
  | submitted turn msgs splits z' txs computed sent batches named records zone counters =>
    exact .submitted turn msgs splits z' txs computed (hsame.sent.trans sent) batches named
      (fun e => (hview e).trans (records e)) (hsame.zone.trans zone) counters

section Loop

variable {s₀ : AllUnbondings} {dayNumber : ℕ} {submitAll : String → ℕ → Bool} {l : List HostZone}

private theorem sameZone_unbondOnDay (hc : c ≠ z.chainId) :
    SameZone c s (s₀.unbondOnDay dayNumber submitAll s z) := by
  unfold unbondOnDay
  split
  · exact .refl c s
  · exact sameZone_unbond hc

private theorem SameZone.unbondOnDay (h : SameZone z.chainId s s₁) : SameZone z.chainId
    (s₀.unbondOnDay dayNumber submitAll s z) (s₀.unbondOnDay dayNumber submitAll s₁ z) := by
  unfold AllUnbondings.unbondOnDay
  split
  · exact h
  · exact h.unbond

private theorem sameZone_foldl (hc : c ∉ l.map HostZone.chainId) :
    SameZone c s (l.foldl (s₀.unbondOnDay dayNumber submitAll) s) := by
  induction l generalizing s with
  | nil => exact .refl c s
  | cons y l ih =>
    obtain ⟨hy, hl⟩ := not_or.mp (List.mem_cons.not.mp hc)
    exact (sameZone_unbondOnDay hy).trans (ih hl)

/-- **Independence**: the loop leaves of a zone what its own turn alone leaves. -/
theorem foldl_unbondOnDay (hnd : (l.map HostZone.chainId).Nodup) (hz : z ∈ l) :
    SameZone z.chainId (s₀.unbondOnDay dayNumber submitAll s z)
      (l.foldl (s₀.unbondOnDay dayNumber submitAll) s) := by
  induction l generalizing s with
  | nil => cases hz
  | cons y l ih =>
    obtain ⟨hy, hnd'⟩ := List.nodup_cons.mp hnd
    rcases List.mem_cons.mp hz with rfl | hz'
    · exact sameZone_foldl hy
    · have hne : z.chainId ≠ y.chainId := fun h => hy (h ▸ List.mem_map_of_mem hz')
      exact (sameZone_unbondOnDay hne).unbondOnDay.trans (ih hnd' hz')

/-- The turn of a zone sets the native amounts of the user records it lists, if it unbonds. -/
theorem users_unbondOnDay (hsame : SameZone z.chainId s s₁)
    (hz : s.hostZones.get? z.chainId = some z) (hactive : z.halted = false) (id : String) :
    (s.unbondOnDay dayNumber submitAll s₁ z).userRedemptionRecords.get? id =
        s₁.userRedemptionRecords.get? id ∧
      ¬ (s.Unbonds dayNumber submitAll z ∧ id ∈ refreshedIds (s.queue z)) ∨
    (s.unbondOnDay dayNumber submitAll s₁ z).userRedemptionRecords.get? id =
        (s₁.userRedemptionRecords.get? id).map (refreshedUser z.redemptionRate) ∧
      s.Unbonds dayNumber submitAll z ∧ id ∈ refreshedIds (s.queue z) := by
  have hqueue := hsame.refreshedQueue_eq
  unfold unbondOnDay
  split
  · rename_i hday
    exact .inl ⟨rfl, fun h => hday h.1.day⟩
  rename_i hday
  -- the zone plans the same in both states
  rcases s.unbond_cases (submitAll z.chainId) z with
      ⟨_, herr, hfails, -⟩ | ⟨_, _, _, hok, hdone, -⟩ <;>
    rcases s₁.unbond_cases (submitAll z.chainId) z with
      ⟨_, herr₁, -, heq⟩ | ⟨k', z', txs, hok₁, -, hu, -, -, heq⟩
  · rw [heq]
    refine .inl ⟨rfl, fun h => ?_⟩
    obtain ⟨_, hdone⟩ := h.1.done
    rw [hfails] at hdone
    cases hdone
  · rw [hqueue, herr] at hok₁
    cases hok₁
  · rw [hqueue, hok] at herr₁
    cases herr₁
  · rw [heq]
    have huser : k'.userRedemptionRecords.get? id = if id ∈ refreshedIds (s.queue z) then
        (s₁.userRedemptionRecords.get? id).map (refreshedUser z.redemptionRate)
        else s₁.userRedemptionRecords.get? id := hsame.queue_eq ▸ hu.users id
    by_cases hid : id ∈ refreshedIds (s.queue z)
    · exact .inr ⟨huser.trans (if_pos hid), ⟨hz, hactive, not_not.mp hday, _, hdone⟩, hid⟩
    · exact .inl ⟨huser.trans (if_neg hid), fun h => hid h.2⟩

/-- **User records**: a record that no zone refreshes stays as it is. Otherwise it ends with the
    native amount at the rate of the last zone that refreshes it. -/
theorem users_foldl (hnd : (l.map HostZone.chainId).Nodup)
    (hactive : ∀ z ∈ l, s.hostZones.get? z.chainId = some z ∧ z.halted = false)
    (hsame : ∀ z ∈ l, SameZone z.chainId s s₁) (id : String) :
    ((l.foldl (s.unbondOnDay dayNumber submitAll) s₁).userRedemptionRecords.get? id =
        s₁.userRedemptionRecords.get? id ∧
      ∀ y ∈ l, ¬ (s.Unbonds dayNumber submitAll y ∧ id ∈ refreshedIds (s.queue y))) ∨
    ∃ y, (s.Unbonds dayNumber submitAll y ∧ id ∈ refreshedIds (s.queue y)) ∧
      (l.foldl (s.unbondOnDay dayNumber submitAll) s₁).userRedemptionRecords.get? id =
        (s₁.userRedemptionRecords.get? id).map
          (refreshedUser y.redemptionRate) := by
  induction l generalizing s₁ with
  | nil => exact .inl ⟨rfl, by simp⟩
  | cons y l ih =>
    obtain ⟨hy, hnd'⟩ := List.nodup_cons.mp hnd
    obtain ⟨hsamey, hsame'⟩ := List.forall_mem_cons.mp hsame
    obtain ⟨hactivey, hactive'⟩ := List.forall_mem_cons.mp hactive
    have hturn : ∀ z ∈ l, SameZone z.chainId s (s.unbondOnDay dayNumber submitAll s₁ y) :=
      fun z hz => (hsame' z hz).trans
        (sameZone_unbondOnDay fun h => hy (h ▸ List.mem_map_of_mem hz))
    rw [List.foldl_cons]
    rcases ih hnd' hactive' hturn with ⟨hrest, hnone⟩ | ⟨z, hz, hrest⟩ <;>
      rcases users_unbondOnDay hsamey hactivey.1 hactivey.2 id with ⟨hid, hidle⟩ | ⟨hid, hunbonds⟩
    · exact .inl ⟨hrest.trans hid, List.forall_mem_cons.mpr ⟨hidle, hnone⟩⟩
    · exact .inr ⟨y, hunbonds, hrest.trans hid⟩
    · exact .inr ⟨z, hz, by rw [hrest, hid]⟩
    · -- the second refresh reads the stTokens, which the first one has kept
      exact .inr ⟨z, hz, by rw [hrest, hid, Option.map_map]; rfl⟩

end Loop

private theorem nodup_activeChainIds (s : AllUnbondings) :
    ((getAllActiveHostZone s.hostZones).map HostZone.chainId).Nodup :=
  s.hostZones.nodup_map_key_values.sublist (List.filter_sublist.map _)

private theorem mem_activeHostZones {y : HostZone} : y ∈ getAllActiveHostZone s.hostZones ↔
    s.hostZones.get? y.chainId = some y ∧ y.halted = false := by
  simp [getAllActiveHostZone, mem_values_iff]

private theorem sameZone_initiateAllHostZoneUnbondings (hz : s.hostZones.get? z.chainId = some z)
    (dayNumber : ℕ) (submitAll : String → ℕ → Bool) :
    SameZone z.chainId (if z.halted then s else s.unbondOnDay dayNumber submitAll s z)
      (s.initiateAllHostZoneUnbondings dayNumber submitAll) := by
  split
  · rename_i hhalted
    refine sameZone_foldl fun hmem => ?_
    obtain ⟨y, hy, hid⟩ := List.mem_map.mp hmem
    obtain ⟨hget, hyhalted⟩ := mem_activeHostZones.mp hy
    rw [hid, hz] at hget
    cases hget
    rw [hhalted] at hyhalted
    cases hyhalted
  · rename_i hhalted
    exact foldl_unbondOnDay s.nodup_activeChainIds
      (mem_activeHostZones.mpr ⟨hz, eq_false_of_ne_true hhalted⟩)

/-- Outside of its days a zone is unchanged. -/
theorem zoneOutcome_initiateAllHostZoneUnbondings (hz : s.hostZones.get? z.chainId = some z)
    (dayNumber : ℕ) (submitAll : String → ℕ → Bool) :
    let s' := s.initiateAllHostZoneUnbondings dayNumber submitAll
    ZoneOutcome s s' z (s.Unbonds dayNumber submitAll z) ∧
      (dayNumber % (getUnbondingFrequency (s.unbondingPeriod z.chainId)).toNat ≠ 0 →
        SameZone z.chainId s s') := by
  have hsame := sameZone_initiateAllHostZoneUnbondings hz dayNumber submitAll
  split at hsame
  · rename_i hhalted
    exact ⟨.unchanged (fun h => by simp [h.active] at hhalted) hsame, fun _ => hsame⟩
  rename_i hhalted
  unfold unbondOnDay at hsame
  split at hsame
  · rename_i hday
    exact ⟨.unchanged (fun h => hday h.day) hsame, fun _ => hsame⟩
  · rename_i hday
    refine ⟨zoneOutcome_unbond.of_sameZone ⟨fun h => ?_, Unbonds.done⟩ hsame,
      fun hne => absurd hne hday⟩
    exact ⟨hz, eq_false_of_ne_true hhalted, not_not.mp hday, h⟩

/-- **All or nothing**: whatever the other zones do, the epoch leaves of a zone what its own turn
    leaves. The zone is unchanged, or it is refreshed with nothing to unbond, or it is fully
    submitted. A user record stays as it is unless a zone that lists it unbonds, and then only
    its native amount is set, to that at the rate of such a zone. -/
theorem unbondings_all_or_nothing (s : AllUnbondings) (dayNumber : ℕ)
    (submitTxs : String → ℕ → Bool) (hz : s.hostZones.get? z.chainId = some z) :
    ZoneOutcome s (s.initiateAllHostZoneUnbondings dayNumber submitTxs) z
      (s.Unbonds dayNumber submitTxs z) ∧
    SameZone z.chainId (if z.halted then s else s.unbondOnDay dayNumber submitTxs s z)
      (s.initiateAllHostZoneUnbondings dayNumber submitTxs) ∧
    ∀ id, ((s.initiateAllHostZoneUnbondings dayNumber submitTxs).userRedemptionRecords.get? id =
          s.userRedemptionRecords.get? id ∧
        ∀ y, ¬ (s.Unbonds dayNumber submitTxs y ∧ id ∈ refreshedIds (s.queue y))) ∨
      ∃ y, (s.Unbonds dayNumber submitTxs y ∧ id ∈ refreshedIds (s.queue y)) ∧
        (s.initiateAllHostZoneUnbondings dayNumber submitTxs).userRedemptionRecords.get? id =
          (s.userRedemptionRecords.get? id).map
            (refreshedUser y.redemptionRate) := by
  refine ⟨(zoneOutcome_initiateAllHostZoneUnbondings hz dayNumber submitTxs).1,
    sameZone_initiateAllHostZoneUnbondings hz dayNumber submitTxs, fun id => ?_⟩
  refine (users_foldl s.nodup_activeChainIds (fun y hy => mem_activeHostZones.mp hy)
    (fun y _ => SameZone.refl y.chainId s) id).imp_left fun h => ⟨h.1, fun y hy => ?_⟩
  exact h.2 y (mem_activeHostZones.mpr ⟨hy.1.zone, hy.1.active⟩) hy

/-! ## Two zones -/

def queuedUnbonding (chainId : String) (stTokenAmount : ℤ) : HostZoneUnbonding :=
  ⟨stTokenAmount, stTokenAmount, 0, 0, 0, 0, "uatom", chainId, 0, .unbondingQueue, [chainId]⟩

/-- Two zones with one queued record each, for `amount` and `otherAmount` stTokens. -/
def twoQueues (rate : LegacyDec) (amount otherAmount : ℤ) : AllUnbondings where
  hostZones := (empty.set { twoValidatorZone with redemptionRate := rate }).set
    { twoValidatorZone with chainId := "other" }
  unbondingPeriod _ := 21
  epochUnbondingRecords := EpochUnbondingStore.empty.setEpochUnbondingRecord
    ⟨1, [queuedUnbonding "host" amount, queuedUnbonding "other" otherAmount]⟩
  userRedemptionRecords := (empty.set (redemptionOf "host" amount)).set
    (redemptionOf "other" otherAmount)
  sent := []

/-- Both batches of the first zone are sent. The second batch of the other zone is rejected,
    which discards its first one. -/
theorem all_or_nothing_twoQueues :
    let s := twoQueues LegacyDec.one 100 50
    let s' := s.initiateAllHostZoneUnbondings 4 fun c batch => c = "host" || batch = 0
    ((s'.sentFor "host").length = 2 ∧ s'.sentFor "other" = []) ∧
      ZoneOutcome s s' twoValidatorZone
        (s.Unbonds 4 (fun c batch => c = "host" || batch = 0) twoValidatorZone) ∧
      SameZone "host" (s.unbondOnDay 4 (fun c batch => c = "host" || batch = 0) s twoValidatorZone)
        s' := by
  refine ⟨by decide +kernel, ?_⟩
  obtain ⟨houtcome, hsame, -⟩ := unbondings_all_or_nothing (z := twoValidatorZone)
    (twoQueues LegacyDec.one 100 50) 4 (fun c batch => c = "host" || batch = 0) rfl
  exact ⟨houtcome, hsame⟩

/-- **Refreshed without a submission**: one stToken at a rate below one is worth nothing. The
    amounts of the record are rewritten, and it stays queued. -/
theorem refreshed_without_submission :
    let s := twoQueues ⟨99 * 10 ^ 16⟩ 1 50
    let s' := s.initiateAllHostZoneUnbondings 4 fun _ _ => true
    let fields := fun r : HostZoneUnbonding => (r.nativeTokenAmount, r.stTokensToBurn, r.status)
    (hostZoneUnbondings s.epochUnbondingRecords "host" 1).map fields =
        some (1, 0, .unbondingQueue) ∧
      (hostZoneUnbondings s'.epochUnbondingRecords "host" 1).map fields =
        some (0, 1, .unbondingQueue) ∧
      s'.userRedemptionRecords.get? "host" = some { redemptionOf "host" 1 with
        nativeTokenAmount := 0 } ∧ s'.sentFor "host" = [] := by
  decide +kernel

/-! ## Undelegations in an unbonding period -/

/-- The `MsgUndelegate`s for a validator of the zone `c` that an epoch submits. -/
def undelegations (s : AllUnbondings) (dayNumber : ℕ) (submitTxs : String → ℕ → Bool)
    (c validator : String) : ℕ :=
  let s' :=
    ({ s with sent := [] } : AllUnbondings).initiateAllHostZoneUnbondings dayNumber submitTxs
  ((s'.sentFor c).flatMap UndelegateTx.msgs).countP fun m => m.validatorAddress = validator

/-- A validator gets one message at most, on the days of its zone. -/
theorem undelegations_le (hz : s.hostZones.get? z.chainId = some z)
    (hnd : z.addresses.Nodup) (dayNumber : ℕ) (submitAll : String → ℕ → Bool) (validator : String) :
    s.undelegations dayNumber submitAll z.chainId validator ≤
      if dayNumber % (getUnbondingFrequency (s.unbondingPeriod z.chainId)).toNat = 0 then 1
      else 0 := by
  obtain ⟨houtcome, hday⟩ := zoneOutcome_initiateAllHostZoneUnbondings
    (s := { s with sent := [] }) hz dayNumber submitAll
  unfold undelegations
  have hnone : ({ s with sent := [] } : AllUnbondings).sentFor z.chainId = [] := rfl
  split
  · cases houtcome with
    | unchanged _ same => simp [same.sent, hnone]
    | refreshed _ _ _ _ sent => simp [sent, hnone]
    | submitted _ msgs splits z' txs computed sent batches =>
      have hcount := List.nodup_iff_count_le_one.mp (nodup_unbondingMessages hnd computed) validator
      rw [← batches.1, List.count] at hcount
      simpa [sent, hnone, List.flatMap_def, Function.comp_def, beq_eq_decide] using hcount
  · rename_i hne
    simp [(hday hne).sent, hnone]

/-- At most seven multiples of `f` lie in a window of `7 * f` numbers. -/
theorem card_multiples_le {f n : ℕ} (hn : n ≤ 7 * f) (first : ℕ) :
    ((Finset.range n).filter fun d => (first + d) % f = 0).card ≤ 7 := by
  rcases Nat.eq_zero_or_pos f with rfl | hf
  · simp [Nat.le_zero.mp hn]
  have hperiodic : Function.Periodic (· ≡ 0 [MOD f]) (7 * f) := fun d => by simp [Nat.ModEq]
  calc ((Finset.range n).filter fun d => (first + d) % f = 0).card
      ≤ ((Finset.Ico first (first + 7 * f)).filter (· ≡ 0 [MOD f])).card := by
        refine Finset.card_le_card_of_injOn (first + ·) (fun d hd => ?_)
          (add_right_injective first).injOn
        obtain ⟨hrange, hmod⟩ := Finset.mem_filter.mp hd
        have hlt := Finset.mem_range.mp hrange
        exact Finset.mem_filter.mpr ⟨Finset.mem_Ico.mpr
          ⟨first.le_add_right d, Nat.add_lt_add_left (hlt.trans_le hn) first⟩,
          hmod.trans (Nat.zero_mod f).symm⟩
    _ = 7 := by
      rw [Nat.filter_Ico_card_eq_of_periodic _ _ _ hperiodic, Nat.count_modEq_card _ hf]
      simp [hf]

/-- **Seven entries**: whatever is queued, fails and is retried on the way, a validator gets at
    most seven undelegations in any window of its unbonding period and one day. -/
theorem undelegations_within_period {period : UInt64} {c : String} {state : ℕ → AllUnbondings}
    (hperiod : ∀ day, (state day).unbondingPeriod c = period)
    (hzone : ∀ day, ∃ z, (state day).hostZones.get? c = some z ∧ z.addresses.Nodup)
    (submitTxs : ℕ → String → ℕ → Bool) (first : ℕ) (validator : String) :
    ∑ d ∈ Finset.range (period.toNat + 1),
      (state (first + d)).undelegations (first + d) (submitTxs (first + d)) c validator ≤ 7 := by
  have hfrequency : (getUnbondingFrequency period).toNat = period.toNat / 7 + 1 := by
    have hlt := period.toNat_lt
    exact Nat.mod_eq_of_lt (show period.toNat / 7 + 1 < 2 ^ 64 by omega)
  calc ∑ d ∈ Finset.range (period.toNat + 1),
        (state (first + d)).undelegations (first + d) (submitTxs (first + d)) c validator
      ≤ ∑ d ∈ Finset.range (period.toNat + 1),
          if (first + d) % (period.toNat / 7 + 1) = 0 then 1 else 0 := by
        refine Finset.sum_le_sum fun d _ => ?_
        obtain ⟨z, hz, hnd⟩ := hzone (first + d)
        obtain rfl : z.chainId = c := key_of_get? hz
        have hle := undelegations_le hz hnd (first + d) (submitTxs (first + d)) validator
        rwa [hperiod, hfrequency] at hle
    _ = ((Finset.range (period.toNat + 1)).filter fun d =>
          (first + d) % (period.toNat / 7 + 1) = 0).card := (Finset.card_filter _ _).symm
    _ ≤ 7 := card_multiples_le (by omega) first

/-- A zone with an unbonding period of 21 days: the days 4 to 25 have six submissions. -/
theorem undelegations_within_period_twoQueues :
    (twoQueues LegacyDec.one 100 50).undelegations 4 (fun _ _ => true) "host" "val1" = 1 ∧
    ∑ d ∈ Finset.range 22, (twoQueues LegacyDec.one 100 50).undelegations (4 + d)
      (fun _ _ => true) "host" "val1" ≤ 7 := by
  refine ⟨by decide +kernel, ?_⟩
  exact @undelegations_within_period 21 "host" (fun _ => twoQueues LegacyDec.one 100 50)
    (fun _ => rfl) (fun _ => ⟨twoValidatorZone, rfl, by decide⟩) (fun _ _ _ => true) 4 "val1"

end AllUnbondings

end Stride.Stakeibc
