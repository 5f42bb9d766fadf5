import Stride.Stakeibc.LiquidStake
import Stride.Stakeibc.RedemptionBook
import Mathlib.Algebra.BigOperators.Ring.Finset

/-!
# Staking and Redeeming

Minting rounds the stTokens half to even at 18 decimals and then down, and the refresh of a user
record rounds its native amount down. Whoever stakes and redeems everything at rates that have
not grown gets at most what was staked, however the redemptions are cut up.

A redemption books a native amount at the rate of the day, which may be anything. What counts is
the amount that the last refresh before the unbonding writes.
-/

namespace Stride.Stakeibc

open Lib Sdk Records KeyedStore List

/-! ## Runs of redemptions -/

/-- A keeper that has seen redemptions. -/
structure RedemptionHistory where
  keeper : RedemptionKeeper
  /-- the stTokens redeemed so far -/
  redeemed : ℤ
  /-- ids of user records that were refreshed after the last redemption into them -/
  refreshed : List String

def RedemptionEvent.stTokens : RedemptionEvent → ℤ
  | .redeemStake msg => msg.amount
  | _ => 0

namespace RedemptionHistory

def refreshedAfter (s : RedemptionHistory) : RedemptionEvent → List String
  | .redeemStake msg => s.refreshed.filter fun id =>
      s.keeper.dayEpoch.map (userRedemptionRecordKeyFormatter msg.hostZone · msg.receiver) ≠ some id
  | .refresh e c | .submit e c _ => s.refreshed ++
      (s.keeper.epochUnbondingRecords.getHostZoneUnbondingByChainId e c).elim []
        HostZoneUnbonding.userRedemptionRecords
  | _ => s.refreshed

def step (s : RedemptionHistory) (l : RedemptionEvent) : Option RedemptionHistory :=
  (s.keeper.step l).map fun k => ⟨k, s.redeemed + l.stTokens, s.refreshedAfter l⟩

/-- Records are refreshed for unbonding at `rate` at most. -/
def RefreshesBelow (rate : LegacyDec) (s : RedemptionHistory) : RedemptionEvent → Prop
  | .refresh _ c | .submit _ c _ => ∀ z, s.keeper.hostZones.get? c = some z →
      0 ≤ z.redemptionRate.i ∧ z.redemptionRate.i ≤ rate.i
  | _ => True

instance (rate : LegacyDec) (s : RedemptionHistory) (l : RedemptionEvent) :
    Decidable (s.RefreshesBelow rate l) := by
  apply @RedemptionEvent.casesOn _ l <;> intros <;> dsimp only [RefreshesBelow] <;> infer_instance

/-- The native amounts that are finally recorded. -/
def recordedNative (s : RedemptionHistory) : ℤ :=
  ((s.keeper.userRedemptionRecords.values.filter fun user => user.id ∈ s.refreshed).map
    UserRedemptionRecord.nativeTokenAmount).sum

/-! ## What the records are worth -/

variable {s s' : RedemptionHistory} {r : ℕ}

/-- The records hold what was redeemed, and a refreshed record is worth its stTokens at `r`,
    rounded down, at most. -/
structure Worth (r : ℕ) (s : RedemptionHistory) : Prop where
  total : (s.keeper.userRedemptionRecords.values.map UserRedemptionRecord.stTokenAmount).sum =
    s.redeemed
  nonneg : ∀ id user, s.keeper.userRedemptionRecords.get? id = some user → 0 ≤ user.stTokenAmount
  native : ∀ id user, s.keeper.userRedemptionRecords.get? id = some user → id ∈ s.refreshed →
    user.nativeTokenAmount ≤ ((user.stTokenAmount.toNat * r / precision : ℕ) : ℤ)

private theorem Worth.start {k : RedemptionKeeper} (h : k.userRedemptionRecords = .empty) :
    Worth r ⟨k, 0, []⟩ where
  total := by
    simp only [h]
    rfl
  nonneg id user huser := by
    simp only [h] at huser
    cases huser
  native id user _ hid := by cases hid

private theorem nativeAmountAt_le {rate : LegacyDec} {st : ℤ} (hst : 0 ≤ st) (hrate : 0 ≤ rate.i)
    (hle : rate.i ≤ r) : nativeAmountAt rate st ≤ ((st.toNat * r / precision : ℕ) : ℤ) := by
  obtain ⟨n, rfl⟩ := Int.eq_ofNat_of_zero_le hst
  obtain ⟨m, hm⟩ := Int.eq_ofNat_of_zero_le hrate
  have hrate' : rate = ⟨(m : ℤ)⟩ := congrArg LegacyDec.mk hm
  rw [nativeAmountAt, hrate', LegacyDec.truncateInt_mul_natCast, Int.toNat_natCast]
  have hmr : m ≤ r := by omega
  exact_mod_cast Nat.div_le_div_right (Nat.mul_le_mul_left n hmr)

/-- **Redemptions** add to one record, which has to be refreshed again. -/
theorem Worth.redeemStake (h : Worth r s) {msg : MsgRedeemStake} {k : RedemptionKeeper}
    (hs : redeemStake s.keeper msg = .ok k) :
    Worth r ⟨k, s.redeemed + msg.amount, s.refreshedAfter (.redeemStake msg)⟩ := by
  obtain ⟨z, nativeAmount, e, -, -, bank, records, -, hchain, -, hday, -, hnonneg, -, -, rfl⟩ :=
    redeemStake_ok hs
  set stored := s.keeper.userRedemptionRecords.get?
    (userRedemptionRecordKeyFormatter msg.hostZone e msg.receiver) with hstored
  set user := redeemedRecord z e msg nativeAmount stored
  have huser : user.id = userRedemptionRecordKeyFormatter msg.hostZone e msg.receiver ∧
      user.stTokenAmount = stored.elim 0 UserRedemptionRecord.stTokenAmount + msg.amount := by
    cases hold : stored with
    | none => simp [user, hold, redeemedRecord, hchain]
    | some old => simpa [user, hold, redeemedRecord] using key_of_get? (hstored.symm.trans hold)
  have hstored' : s.keeper.userRedemptionRecords.get? user.id = stored := by rw [huser.1]
  have hold : 0 ≤ stored.elim 0 UserRedemptionRecord.stTokenAmount := by
    cases hold : stored with
    | none => exact le_rfl
    | some old => exact h.nonneg _ old (hstored.symm.trans hold)
  refine ⟨?_, fun id user' hget => ?_, fun id user' hget hid => ?_⟩
  · show _ = s.redeemed + msg.amount
    rw [sum_values_set, hstored', h.total, huser.2]
    omega
  · rw [get?_set] at hget
    split at hget
    · cases hget
      rw [huser.2]
      omega
    · exact h.nonneg id user' hget
  · obtain ⟨hmem, hne⟩ := mem_filter.mp hid
    rw [hday] at hne
    rw [get?_set_of_ne] at hget
    · exact h.native id user' hget hmem
    · -- the record of today is not among the refreshed ones
      rw [huser.1]
      exact fun heq => by simp [heq] at hne

/-- **Refreshes** set the amounts of the listed records. -/
theorem Worth.refreshQueued (h : Worth r s) {e : ℕ} {c : String} {k : RedemptionKeeper}
    (hrate : ∀ z, s.keeper.hostZones.get? c = some z →
      0 ≤ z.redemptionRate.i ∧ z.redemptionRate.i ≤ r)
    (hs : s.keeper.refreshQueued e c = some k) :
    Worth r ⟨k, s.redeemed, s.refreshed ++
      (s.keeper.epochUnbondingRecords.getHostZoneUnbondingByChainId e c).elim []
        HostZoneUnbonding.userRedemptionRecords⟩ := by
  unfold RedemptionKeeper.refreshQueued at hs
  split at hs
  · cases hs
  rename_i hzu hhzu
  rw [hhzu, Option.elim_some]
  split at hs
  · obtain ⟨z, users, records, hz, husers, -, rfl⟩ :=
      refreshHostZoneUnbonding_ok (toOption_eq_some.mp hs)
    rw [hostZoneId_of_hostZoneUnbondings hhzu] at hz
    have hview : SameView UserRedemptionRecord.stTokenAmount s.keeper.userRedemptionRecords users :=
      congrFun husers.redeemedTokens_eq
    refine ⟨?_, fun id user hget => ?_, fun id user hget hid => ?_⟩
    · rw [hview.map_values]
      exact h.total
    · obtain ⟨old, hold, hst⟩ := hview.get? hget
      exact hst ▸ h.nonneg id old hold
    · have hget' := husers id
      rw [hget] at hget'
      split at hget'
      · obtain ⟨old, hold, rfl⟩ := Option.map_eq_some_iff.mp hget'.symm
        exact nativeAmountAt_le (h.nonneg id old hold) (hrate z hz).1 (hrate z hz).2
      · -- a user who is not listed was refreshed before
        rename_i hnot
        exact h.native id user hget'.symm ((mem_append.mp hid).resolve_right hnot)
  · cases hs

/-- **One event** of the run. -/
theorem Worth.step (h : Worth r s) {l : RedemptionEvent} (hok : s.RefreshesBelow ⟨r⟩ l)
    (hs : s.step l = some s') : Worth r s' := by
  obtain ⟨k, hk, rfl⟩ := Option.map_eq_some_iff.mp hs
  cases l with
  | redeemStake msg =>
    dsimp only [RedemptionKeeper.step] at hk
    split at hk
    · cases hk
    exact h.redeemStake (toOption_eq_some.mp hk)
  | startDay e =>
    dsimp only [RedemptionKeeper.step] at hk
    split at hk
    · cases hk
      exact ⟨h.total.trans (add_zero _).symm, h.nonneg, h.native⟩
    · cases hk
  | updateHostZone z settings =>
    dsimp only [RedemptionKeeper.step] at hk
    split at hk
    · cases hk
    split at hk
    · cases hk
      exact ⟨h.total.trans (add_zero _).symm, h.nonneg, h.native⟩
    · cases hk
  | refresh e c =>
    obtain ⟨htotal, hnonneg, hnative⟩ := h.refreshQueued hok hk
    exact ⟨htotal.trans (add_zero _).symm, hnonneg, hnative⟩
  | submit e c n =>
    obtain ⟨k₁, hk₁, hk⟩ := Option.bind_eq_some_iff.mp hk
    split at hk
    · cases hk
    obtain ⟨records, -, rfl⟩ := toOption_map_eq_some.mp hk
    obtain ⟨htotal, hnonneg, hnative⟩ := h.refreshQueued hok hk₁
    exact ⟨htotal.trans (add_zero _).symm, hnonneg, hnative⟩

/-- All records together are worth at most what was redeemed. -/
theorem Worth.recordedNative_le (h : Worth r s) :
    s.recordedNative ≤ ((s.redeemed.toNat * r / precision : ℕ) : ℤ) := by
  set users := s.keeper.userRedemptionRecords.values
  have hcast : ∀ user ∈ users, ((user.stTokenAmount.toNat : ℕ) : ℤ) = user.stTokenAmount :=
    fun user huser => Int.toNat_of_nonneg (h.nonneg _ user (mem_values_iff.mp huser))
  have hredeemed : s.redeemed.toNat = (users.map fun user => user.stTokenAmount.toNat).sum := by
    rw [← h.total, ← Int.natCast_inj, Nat.cast_list_sum, map_map, Int.toNat_of_nonneg]
    · exact congrArg sum (map_congr_left fun user huser => (hcast user huser).symm)
    · exact sum_map_nonneg fun user huser => h.nonneg _ user (mem_values_iff.mp huser)
  calc s.recordedNative
      ≤ ((users.filter fun user => user.id ∈ s.refreshed).map fun user =>
          ((user.stTokenAmount.toNat * r / precision : ℕ) : ℤ)).sum := by
        refine sum_le_sum fun user huser => ?_
        obtain ⟨hmem, hid⟩ := mem_filter.mp huser
        exact h.native _ user (mem_values_iff.mp hmem) (of_decide_eq_true hid)
    _ ≤ (users.map fun user => ((user.stTokenAmount.toNat * r / precision : ℕ) : ℤ)).sum :=
        (filter_sublist.map _).sum_le_sum fun n hn => by
          obtain ⟨user, -, rfl⟩ := mem_map.mp hn
          exact Int.natCast_nonneg _
    _ = (((users.map fun user => user.stTokenAmount.toNat).map fun n => n * r / precision).sum :
          ℕ) := by
        rw [Nat.cast_list_sum, map_map, map_map]
        rfl
    -- the floors of the parts are within the floor of the sum
    _ ≤ ((s.redeemed.toNat * r / precision : ℕ) : ℤ) := by
        rw [hredeemed]
        exact_mod_cast sum_map_mul_div_le r precision _

/-! ## Main result -/

/-- What `m` minted stTokens are worth at the rate of the stake, if the rate is below
    `10 ^ 18`: the half digit that minting may add is lost again. -/
theorem minted_mul_div_le {x r m : ℕ} (hr : 0 < r) (hrate : r < precision * precision)
    (hm : m ≤ scaledQuo precision (x * precision) r / precision) : m * r / precision ≤ x := by
  rw [le_scaledQuo_div_iff precision_pos precision_even hr] at hm
  generalize precision = D at *
  exact Nat.lt_succ_iff.mp (Nat.div_lt_of_lt_mul (by nlinarith))

variable {k k' : LiquidStakeKeeper} {msg : MsgLiquidStake} {stCoin : String × ℤ} {z : HostZone}

/-- **No profit**: the stTokens of a stake are redeemed in any number of redemptions, by any
    receivers and in any epochs, while the rates change. If no record is refreshed above the rate
    of the stake, the native amounts that are finally recorded are together at most what was
    staked. -/
theorem redeemed_le_staked (hstake : liquidStake k msg = .ok (k', stCoin))
    (hzone : getHostZoneFromHostDenom k.hostZones msg.hostDenom = some z)
    (hpos : 0 < z.redemptionRate.i) (hbelow : z.redemptionRate.i < 10 ^ 18 * precision)
    {k₀ : RedemptionKeeper} (hstart : k₀.userRedemptionRecords = .empty)
    (hrun : Reaches step (RefreshesBelow z.redemptionRate) ⟨k₀, 0, []⟩ s)
    (hdivided : s.redeemed ≤ stCoin.2) : s.recordedNative ≤ msg.amount := by
  obtain ⟨z', _, hstaked⟩ := liquidStake_ok hstake
  obtain rfl : z' = z := Option.some.inj (hstaked.zone.symm.trans hzone)
  obtain ⟨q, hquo, hminted⟩ := hstaked.minted
  obtain ⟨x, hx⟩ := Int.eq_ofNat_of_zero_le hstaked.nonneg
  obtain ⟨r, hr⟩ := Int.eq_ofNat_of_zero_le hpos.le
  have hrpos : 0 < r := by omega
  have hrlt : r < precision * precision := by
    have hD : (10 : ℤ) ^ 18 = precision := by norm_num [precision]
    rw [hr, hD] at hbelow
    exact_mod_cast hbelow
  have hrate : z'.redemptionRate = ⟨(r : ℤ)⟩ := congrArg LegacyDec.mk hr
  rw [hx, hrate, LegacyDec.fromInt_natCast, LegacyDec.quo_natCast _ _ hrpos] at hquo
  cases hquo
  rw [LegacyDec.truncateInt_natCast] at hminted
  -- every record is worth at most its stTokens at the rate `r`
  have hworth : Worth r s := by
    rw [hrate] at hrun
    exact hrun.invariant (.start hstart) fun _ _ _ hi hok hs => hi.step hok hs
  calc s.recordedNative ≤ ((s.redeemed.toNat * r / precision : ℕ) : ℤ) := hworth.recordedNative_le
    _ ≤ x := by
        rw [hminted] at hdivided
        exact_mod_cast minted_mul_div_le hrpos hrlt (Int.toNat_le.mpr hdivided)
    _ = msg.amount := hx.symm

/-- A zone at the redemption rate 1.5, with a staker. -/
def oneAndAHalf : LiquidStakeKeeper where
  params := ⟨90, 150⟩
  hostZones := empty.set { twoValidatorZone with redemptionRate := ⟨15 * 10 ^ 17⟩ }
  settings _ := plainSettings "pb" "deposit"
  strideEpoch := some 1
  depositRecords := empty.set ⟨1, 0, "host", .transferQueue, 1, 0⟩
  bank := ⟨fun _ _ => 100, fun _ => 100⟩

/-- Two receivers on two days. The record of the second one is redeemed into again after its
    refresh, and refreshed again at the rate 1.4. -/
def dividedStake : List RedemptionEvent :=
  [.startDay 1, .redeemStake ⟨"alice", 40, "host", "pb1qqqqqqqqqqqqqqqqqqqqqqqqqqqqqqqq6dt62p"⟩,
    .startDay 2, .redeemStake ⟨"alice", 20, "host", "pb1pqqqqqqqqqqqqqqqqqqqqqqqqqqqqqqq9vek9x"⟩,
    .refresh 2 "host", .submit 1 "host" 1,
    .updateHostZone { twoValidatorZone with redemptionRate := ⟨14 * 10 ^ 17⟩ }
      (plainSettings "pb" "deposit"),
    .redeemStake ⟨"alice", 6, "host", "pb1pqqqqqqqqqqqqqqqqqqqqqqqqqqqqqqq9vek9x"⟩,
    .submit 2 "host" 1]

/-- The stake of 100 gives 66 stTokens, for which 60 and 36 tokens are recorded. -/
theorem redeemed_le_staked_dividedStake :
    ((liquidStake oneAndAHalf ⟨"alice", 100, "uatom"⟩).map fun result => result.2.2) = .ok 66 ∧
    ∃ s, runAllowed step (RefreshesBelow ⟨15 * 10 ^ 17⟩)
        ⟨{ RedemptionKeeper.dottedZones with
          hostZones := oneAndAHalf.hostZones, settings := oneAndAHalf.settings }, 0, []⟩
        dividedStake = some s ∧
      s.redeemed = 66 ∧ s.recordedNative = 96 ∧ s.recordedNative ≤ 100 := by
  obtain ⟨k', hstake⟩ : ∃ k', liquidStake oneAndAHalf ⟨"alice", 100, "uatom"⟩ =
      .ok (k', "stuatom", 66) := ⟨_, rfl⟩
  refine ⟨by rw [hstake]; rfl, ?_⟩
  have hend : ((runAllowed step (RefreshesBelow ⟨15 * 10 ^ 17⟩)
      ⟨{ RedemptionKeeper.dottedZones with
        hostZones := oneAndAHalf.hostZones, settings := oneAndAHalf.settings }, 0, []⟩
      dividedStake).map fun s => (s.redeemed, s.recordedNative)) = some (66, 96) := by
    decide +kernel
  obtain ⟨s, hs, hvalues⟩ := Option.map_eq_some_iff.mp hend
  obtain ⟨hredeemed, hrecorded⟩ := Prod.mk.inj hvalues
  exact ⟨s, hs, hredeemed, hrecorded, redeemed_le_staked hstake rfl (by decide) (by decide +kernel)
    rfl (.of_runAllowed hs) hredeemed.le⟩

end RedemptionHistory

end Stride.Stakeibc
