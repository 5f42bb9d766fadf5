import Stride.Claim.Keeper
import Stride.Lib.Runs
import Mathlib.Algebra.BigOperators.Ring.List
import Mathlib.Data.Rat.Cast.Order
import Mathlib.Tactic.FieldSimp
import Mathlib.Tactic.Positivity

/-!
# A Round of Claims

Between two resets of an airdrop its users claim from the balance of the distributor, in any order.
A claim lowers the balance and raises `ClaimedSoFar` by the same amount, so that every share is one
of the same pool. Shares are rounded to the nearest integer, three times on the way, and the
roundings can add up to more than the pool has.
-/

namespace Stride.Claim

open Lib Sdk KeyedStore Function List

/-! ## Rounds -/

structure ClaimCall where
  blockTime : Time
  addr : AccAddress
  action : Action
  airdropIdentifier : String

def ClaimCall.claim (c : ClaimCall) : AccAddress × Action := (c.addr, c.action)

structure Payout where
  call : ClaimCall
  amount : ℤ

/-- The module in a round of an airdrop, with what the airdrop paid so far. -/
structure Round where
  keeper : Keeper
  payouts : List Payout

namespace Keeper

/-- The claimable amount of a call, also when its action is completed. -/
def claimable (k : Keeper) (airdropIdentifier : String) (c : ClaimCall) : Result ℤ :=
  k.getClaimableAmountForAction c.blockTime c.addr c.action airdropIdentifier true

@[mk_iff]
structure RoundStart (k : Keeper) (airdropIdentifier : String) (airdrop : Airdrop)
    (distributor : AccAddress) : Prop where
  airdrop_eq : k.getAirdropByIdentifier airdropIdentifier = some airdrop
  distributor_eq : accAddress airdrop.distributorAddress = .ok distributor
  /-- nothing was claimed yet -/
  unclaimed : airdrop.claimedSoFar = 0
  pool_nonneg : 0 ≤ k.bank.balance (convertAndEncode "stride" distributor) airdrop.claimDenom
  weight_nonneg : ∀ r ∈ k.scan airdropIdentifier, 0 ≤ r.record.weight.i
  /-- the total weight is the sum of the weights of the records -/
  total : (k.getTotalWeight airdropIdentifier).i =
    ((k.scan airdropIdentifier).map fun r => r.record.weight.i).sum

/-- A call that leaves the distributor to the airdrop: the distributor does not claim, and a claim
    of another airdrop is paid by another account. -/
def RoundCall (k : Keeper) (airdropIdentifier : String) (c : ClaimCall) : Prop :=
  ∀ airdrop distributor, k.getAirdropByIdentifier airdropIdentifier = some airdrop →
    accAddress airdrop.distributorAddress = .ok distributor →
    convertAndEncode "stride" c.addr ≠ convertAndEncode "stride" distributor ∧
      (c.airdropIdentifier ≠ airdropIdentifier →
        ∀ other payer, k.getAirdropByIdentifier c.airdropIdentifier = some other →
          accAddress other.distributorAddress = .ok payer →
          convertAndEncode "stride" payer ≠ convertAndEncode "stride" distributor)

instance (k : Keeper) (airdropIdentifier : String) (airdrop : Airdrop) (distributor : AccAddress) :
    Decidable (k.RoundStart airdropIdentifier airdrop distributor) :=
  decidable_of_iff _ (roundStart_iff k airdropIdentifier airdrop distributor).symm

instance (k : Keeper) (airdropIdentifier : String) (c : ClaimCall) :
    Decidable (k.RoundCall airdropIdentifier c) := by
  unfold RoundCall
  infer_instance

end Keeper

namespace Round

/-- A claim that goes through. -/
def step (blockedAddr : String → Bool) (airdropIdentifier : String) (s : Round) (c : ClaimCall) :
    Option Round :=
  (s.keeper.claimCoinsForAction blockedAddr c.blockTime c.addr c.action
    c.airdropIdentifier).toOption.map fun (keeper, amount) =>
      { keeper := keeper
        payouts := if c.airdropIdentifier = airdropIdentifier ∧ amount ≠ 0 then
          s.payouts ++ [⟨c, amount⟩] else s.payouts }

def paid (s : Round) : ℤ := (s.payouts.map Payout.amount).sum

end Round

/-! ## What claims leave -/

namespace Keeper

variable {k k' k'' : Keeper} {airdropIdentifier : String} {amount : ℤ}

/-- The airdrop has paid `amount`; shares have the same pool, weights and total weight. -/
structure Spent (k k' : Keeper) (airdropIdentifier : String) (amount : ℤ) : Prop where
  airdrop_eq : k'.getAirdropByIdentifier airdropIdentifier =
    (k.getAirdropByIdentifier airdropIdentifier).map fun a =>
      { a with claimedSoFar := a.claimedSoFar + amount }
  balance_eq : ∀ airdrop distributor, k.getAirdropByIdentifier airdropIdentifier = some airdrop →
    accAddress airdrop.distributorAddress = .ok distributor →
    k'.bank.balance (convertAndEncode "stride" distributor) airdrop.claimDenom =
      k.bank.balance (convertAndEncode "stride" distributor) airdrop.claimDenom - amount
  weight_eq : ∀ addr, (k'.getClaimRecord addr airdropIdentifier).map ClaimRecord.weight =
    (k.getClaimRecord addr airdropIdentifier).map ClaimRecord.weight
  total_eq : k'.getTotalWeight airdropIdentifier = k.getTotalWeight airdropIdentifier

namespace Spent

private theorem refl (k : Keeper) (airdropIdentifier : String) : Spent k k airdropIdentifier 0 where
  airdrop_eq := by simp
  balance_eq := by simp
  weight_eq := fun _ => rfl
  total_eq := rfl

variable (h : Spent k k' airdropIdentifier amount)

include h

private theorem trans {amount' : ℤ} (h' : Spent k' k'' airdropIdentifier amount') :
    Spent k k'' airdropIdentifier (amount + amount') where
  airdrop_eq := by
    rw [h'.airdrop_eq, h.airdrop_eq, Option.map_map]
    congr 1
    funext a
    simp [add_assoc]
  balance_eq := by
    intro airdrop distributor hairdrop hdistributor
    have hsecond := h'.balance_eq { airdrop with claimedSoFar := airdrop.claimedSoFar + amount }
      distributor (by rw [h.airdrop_eq, hairdrop]; rfl) hdistributor
    have hfirst := h.balance_eq airdrop distributor hairdrop hdistributor
    rw [hsecond, hfirst]
    ring
  weight_eq := fun addr => (h'.weight_eq addr).trans (h.weight_eq addr)
  total_eq := h'.total_eq.trans h.total_eq

private theorem claimableShare_eq {airdrop : Airdrop}
    (hairdrop : k.getAirdropByIdentifier airdropIdentifier = some airdrop)
    {record record' : ClaimRecord} (hweight : record'.weight = record.weight) (action : Action) :
    k'.claimableShare { airdrop with claimedSoFar := airdrop.claimedSoFar + amount } record' action
      airdropIdentifier = k.claimableShare airdrop record action airdropIdentifier := by
  have hairdrop' : k'.getAirdropByIdentifier airdropIdentifier =
      some { airdrop with claimedSoFar := airdrop.claimedSoFar + amount } := by
    rw [h.airdrop_eq, hairdrop]
    rfl
  unfold claimableShare getDistributorAccountBalance getAirdropDistributor
  rw [hairdrop', hairdrop, h.total_eq, hweight]
  dsimp only
  cases hdistributor : accAddress airdrop.distributorAddress with
  | error e => rfl
  | ok distributor =>
    -- the balance and `ClaimedSoFar` add up to the same pool
    have hpool : k'.bank.balance (convertAndEncode "stride" distributor) airdrop.claimDenom +
        (airdrop.claimedSoFar + amount) =
        k.bank.balance (convertAndEncode "stride" distributor) airdrop.claimDenom +
          airdrop.claimedSoFar := by
      rw [h.balance_eq airdrop distributor hairdrop hdistributor]
      ring
    simp only [bind, pure, Except.bind, Except.pure, hpool]

/-- **Claimable amounts stay the same**, whatever was claimed before. -/
theorem claimable_eq (c : ClaimCall) :
    k'.claimable airdropIdentifier c = k.claimable airdropIdentifier c := by
  have hweight := h.weight_eq c.addr
  unfold claimable getClaimableAmountForAction
  cases hrecord : k.getClaimRecord c.addr airdropIdentifier with
  | none =>
    rw [hrecord, Option.map_none, Option.map_eq_none_iff] at hweight
    rw [hweight]
  | some record =>
    rw [hrecord, Option.map_some, Option.map_eq_some_iff] at hweight
    obtain ⟨record', hrecord', hweight⟩ := hweight
    rw [hrecord']
    simp only [↓reduceIte]
    unfold claimableOfRecord
    cases hairdrop : k.getAirdropByIdentifier airdropIdentifier with
    | none => rw [h.airdrop_eq, hairdrop, Option.map_none]
    | some airdrop =>
      rw [h.airdrop_eq, hairdrop, Option.map_some]
      dsimp only
      rw [h.claimableShare_eq hairdrop hweight]

end Spent

/-! ## One claim -/

variable {addr : AccAddress} {action : Action} {airdrop : Airdrop} {distributor : AccAddress}
  {old new : StoredRecord} {c : ClaimCall} {blockTime : Time}

theorem claimRecordKey_inj {addr' : AccAddress}
    (h : claimRecordKey airdropIdentifier addr = claimRecordKey airdropIdentifier addr') :
    addr = addr' :=
  append_cancel_left h

variable {claims : List (AccAddress × Action)} {otherIdentifier : String}

section

variable
  (h : PaidClaim k k' blockTime addr action otherIdentifier amount airdrop distributor old new)

include h

private theorem PaidClaim.weight_eq (addr' : AccAddress) :
    (k'.getClaimRecord addr' airdropIdentifier).map ClaimRecord.weight =
      (k.getClaimRecord addr' airdropIdentifier).map ClaimRecord.weight := by
  unfold getClaimRecord
  rw [h.records_eq, get?_set, h.key_eq]
  split
  · rename_i hkey
    rw [hkey, h.old_eq]
    simp only [Option.map_some, h.new_eq]
  · rfl

theorem PaidClaim.total_eq :
    k'.getTotalWeight airdropIdentifier = k.getTotalWeight airdropIdentifier :=
  getTotalWeight_congr h.totalWeights_eq

private theorem PaidClaim.getAirdropByIdentifier_eq :
    k'.getAirdropByIdentifier airdropIdentifier =
      (k.updateAirdrops otherIdentifier fun a =>
        { a with claimedSoFar := a.claimedSoFar + amount }).getAirdropByIdentifier
          airdropIdentifier := by
  unfold getAirdropByIdentifier
  rw [h.airdrops_eq]

end

private theorem PaidClaim.spent
    (h : PaidClaim k k' blockTime addr action airdropIdentifier amount airdrop distributor old new)
    (hother : convertAndEncode "stride" addr ≠ convertAndEncode "stride" distributor) :
    Spent k k' airdropIdentifier amount where
  airdrop_eq :=
    h.getAirdropByIdentifier_eq.trans (getAirdropByIdentifier_updateAirdrops fun _ => rfl)
  balance_eq := by
    intro airdrop' distributor' hairdrop hdistributor
    cases hairdrop.symm.trans h.airdrop_eq
    cases hdistributor.symm.trans h.distributor_eq
    rw [Bank.balance_sendCoins h.sent, if_pos ⟨rfl, rfl⟩, if_neg fun hsame => hother hsame.1.symm,
      add_zero]
  weight_eq := h.weight_eq
  total_eq := h.total_eq

private theorem PaidClaim.spent_other
    (h : PaidClaim k k' blockTime addr action otherIdentifier amount airdrop distributor old new)
    (hne : airdropIdentifier ≠ otherIdentifier)
    (hfree : ∀ airdrop' distributor', k.getAirdropByIdentifier airdropIdentifier = some airdrop' →
      accAddress airdrop'.distributorAddress = .ok distributor' →
      convertAndEncode "stride" distributor' ≠ convertAndEncode "stride" addr ∧
        convertAndEncode "stride" distributor' ≠ convertAndEncode "stride" distributor) :
    Spent k k' airdropIdentifier 0 where
  airdrop_eq := by
    have hkeep : k'.getAirdropByIdentifier airdropIdentifier =
        k.getAirdropByIdentifier airdropIdentifier :=
      h.getAirdropByIdentifier_eq.trans
        (getAirdropByIdentifier_updateAirdrops_of_ne (fun _ => rfl) hne)
    rw [hkeep]
    simp
  balance_eq := by
    intro airdrop' distributor' hairdrop hdistributor
    obtain ⟨hreceiver, hsender⟩ := hfree airdrop' distributor' hairdrop hdistributor
    rw [Bank.balance_sendCoins h.sent, if_neg fun hsame => hsender hsame.1, if_neg fun hsame =>
      hreceiver hsame.1, add_zero]
  weight_eq := h.weight_eq
  total_eq := h.total_eq

/-- The action of a payout is completed. -/
def Completed (k : Keeper) (airdropIdentifier : String) (claim : AccAddress × Action) : Prop :=
  ∃ r, k.claimRecords.get? (claimRecordKey airdropIdentifier claim.1) = some r ∧
    r.record.actionCompleted[claim.2.number]? = some true

private theorem PaidClaim.completed
    (h : PaidClaim k k' blockTime addr action otherIdentifier amount airdrop distributor old new)
    {claim : AccAddress × Action} (hclaim : k.Completed airdropIdentifier claim) :
    k'.Completed airdropIdentifier claim := by
  obtain ⟨r, hr, hcompleted⟩ := hclaim
  unfold Completed
  rw [h.records_eq, get?_set, h.key_eq]
  split
  · rename_i hkey
    rw [hkey, h.old_eq] at hr
    cases hr
    refine ⟨new, rfl, ?_⟩
    rw [h.new_eq]
    rw [getElem?_set]
    split
    · have hlength : action.number < old.record.actionCompleted.length :=
        (List.getElem?_eq_some_iff.mp h.fresh).1
      rw [if_pos hlength]
    · exact hcompleted
  · exact ⟨r, hr, hcompleted⟩

section

variable
  (h : PaidClaim k k' blockTime addr action airdropIdentifier amount airdrop distributor old new)

include h

private theorem PaidClaim.completed_self : k'.Completed airdropIdentifier (addr, action) := by
  unfold Completed
  rw [h.records_eq, get?_set, h.key_eq, if_pos rfl]
  refine ⟨new, rfl, ?_⟩
  have hlength : action.number < old.record.actionCompleted.length :=
    (List.getElem?_eq_some_iff.mp h.fresh).1
  rw [h.new_eq]
  rw [getElem?_set_self hlength]

private theorem PaidClaim.not_completed : ¬ k.Completed airdropIdentifier (addr, action) := by
  rintro ⟨r, hr, hcompleted⟩
  cases hr.symm.trans h.old_eq
  cases hcompleted.symm.trans h.fresh

end

/-! ## Rounding -/

/-- What rounding adds to a share at most: the roundings of the product with the weight, of the
    quotient, and of the result. -/
def roundingError (totalWeight : LegacyDec) : ℚ :=
  1 / 2 + 1 / (2 * precision) + 1 / (2 * totalWeight.i)

private theorem roundInt_natCast (a : ℕ) :
    LegacyDec.roundInt ⟨a⟩ = (roundHalfEven precision a : ℕ) := by
  have hnonneg : ¬ (a : ℤ) < 0 := not_lt.mpr (Int.natCast_nonneg a)
  simp only [LegacyDec.roundInt, chopPrecisionAndRound, hnonneg, ↓reduceIte, Int.natAbs_natCast]

private theorem mul_fromInt_natCast (pool part : ℕ) :
    (LegacyDec.fromInt pool).mul ⟨part⟩ = ⟨((pool * part : ℕ) : ℤ)⟩ := by
  have hswap : pool * precision * part = pool * part * precision := by ring
  rw [LegacyDec.fromInt_natCast, LegacyDec.mul_natCast, hswap, roundHalfEven_mul precision_pos]

private theorem percentageForAction_nonneg (action : Action) :
    0 ≤ (percentageForAction action).i := by
  cases action <;> decide

/-- **A rounded share** is at most `roundingError` above the exact one. -/
theorem shareOfPool_le {pool share : ℤ} {weight totalWeight : LegacyDec} (hpool : 0 ≤ pool)
    (hweight : 0 ≤ weight.i) (htotal : 0 ≤ totalWeight.i)
    (h : shareOfPool pool action weight totalWeight = .ok share) :
    0 < totalWeight.i ∧ 2 * share * (precision * totalWeight.i) ≤
      2 * pool * ((percentageForAction action).i * weight.i) +
        (precision * totalWeight.i + totalWeight.i + precision) := by
  have hpart := percentageForAction_nonneg action
  obtain ⟨pool', hint, hrest⟩ := bind_eq_ok.mp h
  have hsame : pool' = pool := by
    unfold int64 at hint
    split at hint
    · exact (Except.ok.inj hint).symm
    · cases hint
  rw [hsame] at hrest
  obtain ⟨quotient, hquo, hround⟩ := bind_eq_ok.mp hrest
  have hshare : quotient.roundInt = share := Except.ok.inj hround
  subst hshare
  generalize percentageForAction action = part at hquo hpart
  obtain ⟨part⟩ := part
  obtain ⟨weight⟩ := weight
  obtain ⟨total⟩ := totalWeight
  obtain ⟨pool, rfl⟩ := Int.eq_ofNat_of_zero_le hpool
  obtain ⟨part, rfl⟩ := Int.eq_ofNat_of_zero_le hpart
  obtain ⟨weight, rfl⟩ := Int.eq_ofNat_of_zero_le hweight
  obtain ⟨total, rfl⟩ := Int.eq_ofNat_of_zero_le htotal
  rw [mul_fromInt_natCast, LegacyDec.mul_natCast] at hquo
  rcases Nat.eq_zero_or_pos total with hzero | hpos
  · subst hzero
    cases hquo
  · rw [LegacyDec.quo_natCast _ _ hpos] at hquo
    cases hquo
    rw [roundInt_natCast]
    dsimp only
    refine ⟨by exact_mod_cast hpos, ?_⟩
    -- the three roundings, from the last to the first
    have hlast := roundHalfEven_mul_le precision_pos
      (scaledQuo precision (roundHalfEven precision (pool * part * weight)) total)
    have hquotient := scaledQuo_mul_le precision_pos
      (roundHalfEven precision (pool * part * weight)) total
    have hfirst := roundHalfEven_mul_le precision_pos (pool * part * weight)
    generalize roundHalfEven precision (pool * part * weight) = product at *
    generalize scaledQuo precision product total = quotient at *
    generalize roundHalfEven precision quotient = share at *
    have hscaled : 2 * (share * precision) * total ≤ (2 * quotient + precision) * total :=
      Nat.mul_le_mul_right total hlast
    have hbound : 2 * share * (precision * total) ≤
        2 * pool * (part * weight) + (precision * total + total + precision) := by
      calc 2 * share * (precision * total) = 2 * (share * precision) * total := by ring
        _ ≤ (2 * quotient + precision) * total := hscaled
        _ = 2 * (quotient * total) + precision * total := by ring
        _ ≤ 2 * (product * precision) + total + precision * total := by omega
        _ ≤ 2 * (pool * part * weight) + precision + total + precision * total := by omega
        _ = 2 * pool * (part * weight) + (precision * total + total + precision) := by ring
    exact_mod_cast hbound

/-! ## Sums of shares -/

/-- The weight of a user, 0 without a record. -/
def weightAt (k : Keeper) (airdropIdentifier : String) (addr : AccAddress) : ℤ :=
  (k.claimRecords.get? (claimRecordKey airdropIdentifier addr)).elim 0 fun r => r.record.weight.i

private theorem mem_scan_of_get? {r : StoredRecord}
    (h : k.claimRecords.get? (claimRecordKey airdropIdentifier addr) = some r) :
    r ∈ k.scan airdropIdentifier := by
  have hkey := key_of_get? h
  unfold scan
  rw [mem_filter, isPrefixOf_iff_prefix, hkey]
  refine ⟨mem_values_iff.mpr ?_, prefix_append _ _⟩
  rw [hkey]
  exact h

private theorem weightAt_nonneg (hweights : ∀ r ∈ k.scan airdropIdentifier, 0 ≤ r.record.weight.i)
    (addr : AccAddress) : 0 ≤ k.weightAt airdropIdentifier addr := by
  unfold weightAt
  cases hget : k.claimRecords.get? (claimRecordKey airdropIdentifier addr) with
  | none => exact le_rfl
  | some r => exact hweights r (mem_scan_of_get? hget)

/-- The weights of different addresses are among those that are scanned. -/
theorem sum_weightAt_le (hweights : ∀ r ∈ k.scan airdropIdentifier, 0 ≤ r.record.weight.i)
    {addrs : List AccAddress} (hnd : addrs.Nodup) :
    (addrs.map (k.weightAt airdropIdentifier)).sum ≤
      ((k.scan airdropIdentifier).map fun r => r.record.weight.i).sum := by
  -- a total over all values, in which the records of other scans count nothing
  let f : StoredRecord → ℤ := fun r =>
    if (rawBytes airdropIdentifier).isPrefixOf r.key = true then r.record.weight.i else 0
  have hscan : ((k.scan airdropIdentifier).map fun r => r.record.weight.i).sum =
      (k.claimRecords.values.map f).sum := by
    have hsum := sum_filter_map
      (p := fun r : StoredRecord => (rawBytes airdropIdentifier).isPrefixOf r.key = true)
      (fun r => r.record.weight.i) k.claimRecords.values
    simp only [Bool.decide_eq_true] at hsum
    exact hsum
  have hkeys : (addrs.map (claimRecordKey airdropIdentifier)).Nodup :=
    hnd.map fun _ _ h => claimRecordKey_inj h
  have hle := sum_get?_le (f := f) hkeys (s := k.claimRecords) (by
    intro key r hr
    have hmem : r ∈ k.claimRecords.values :=
      mem_values_iff.mpr (by rw [key_of_get? hr]; exact hr)
    dsimp only [f]
    split
    · rename_i hstarts
      exact hweights r (mem_filter.mpr ⟨hmem, hstarts⟩)
    · exact le_rfl)
  rw [hscan]
  refine le_trans (le_of_eq ?_) hle
  rw [map_map]
  congr 1
  refine map_congr_left fun addr _ => ?_
  dsimp only [comp_apply, weightAt]
  cases hget : k.claimRecords.get? (claimRecordKey airdropIdentifier addr) with
  | none => rfl
  | some r =>
    have hstarts : (rawBytes airdropIdentifier).isPrefixOf r.key = true :=
      (mem_filter.mp (mem_scan_of_get? hget)).2
    exact (if_pos hstarts).symm

private theorem sum_by_action (f : AccAddress × Action → ℤ) (claims : List (AccAddress × Action)) :
    (claims.map f).sum = ((claims.filter fun c => c.2 = .free).map f).sum +
      ((claims.filter fun c => c.2 = .liquidStake).map f).sum +
      ((claims.filter fun c => c.2 = .delegateStake).map f).sum := by
  induction claims with
  | nil => rfl
  | cons c claims ih =>
    obtain ⟨addr, action⟩ := c
    cases action with
    | free => simp [ih, add_assoc]
    | liquidStake => simp [ih]; ring
    | delegateStake => simp [ih]; ring

/-- The part of a claim in a pool of `precision` times the total weight. -/
def partOf (k : Keeper) (airdropIdentifier : String) (claim : AccAddress × Action) : ℤ :=
  (percentageForAction claim.2).i * k.weightAt airdropIdentifier claim.1

private theorem sum_partOf_action_le
    (hweights : ∀ r ∈ k.scan airdropIdentifier, 0 ≤ r.record.weight.i)
    (hnd : claims.Nodup) (action : Action) :
    ((claims.filter fun c => c.2 = action).map (k.partOf airdropIdentifier)).sum ≤
      (percentageForAction action).i *
        ((k.scan airdropIdentifier).map fun r => r.record.weight.i).sum := by
  have haddrs : ((claims.filter fun c => c.2 = action).map Prod.fst).Nodup := by
    refine Nodup.map_on ?_ (hnd.filter _)
    intro c hc d hd haddr
    have hc := of_decide_eq_true (mem_filter.mp hc).2
    have hd := of_decide_eq_true (mem_filter.mp hd).2
    exact Prod.ext haddr (hc.trans hd.symm)
  have hparts : (claims.filter fun c => c.2 = action).map (k.partOf airdropIdentifier) =
      ((claims.filter fun c => c.2 = action).map Prod.fst).map fun addr =>
        (percentageForAction action).i * k.weightAt airdropIdentifier addr := by
    rw [map_map]
    refine map_congr_left fun c hc => ?_
    have haction := of_decide_eq_true (mem_filter.mp hc).2
    dsimp only [partOf, comp_apply]
    rw [haction]
  rw [hparts, sum_map_mul_left]
  exact mul_le_mul_of_nonneg_left (sum_weightAt_le hweights haddrs)
    (percentageForAction_nonneg action)

private theorem sum_partOf_le (hweights : ∀ r ∈ k.scan airdropIdentifier, 0 ≤ r.record.weight.i)
    (hnd : claims.Nodup) :
    (claims.map (k.partOf airdropIdentifier)).sum ≤
      precision * ((k.scan airdropIdentifier).map fun r => r.record.weight.i).sum := by
  have hone : (percentageForAction .free).i + (percentageForAction .liquidStake).i +
      (percentageForAction .delegateStake).i = precision := by decide
  have hfree := sum_partOf_action_le hweights hnd .free
  have hliquid := sum_partOf_action_le hweights hnd .liquidStake
  have hdelegate := sum_partOf_action_le hweights hnd .delegateStake
  rw [sum_by_action, ← hone]
  linarith

/-- What a claim asks for; nothing if it fails. -/
def claimableAmount (k : Keeper) (airdropIdentifier : String) (c : ClaimCall) : ℤ :=
  (k.claimable airdropIdentifier c).toOption.getD 0

def startPool (k : Keeper) (airdrop : Airdrop) (distributor : AccAddress) : ℤ :=
  k.bank.balance (convertAndEncode "stride" distributor) airdrop.claimDenom

variable (h : RoundStart k airdropIdentifier airdrop distributor)

include h

private theorem RoundStart.total_nonneg : 0 ≤ (k.getTotalWeight airdropIdentifier).i := by
  rw [h.total]
  refine sum_nonneg fun w hw => ?_
  obtain ⟨r, hr, rfl⟩ := mem_map.mp hw
  exact h.weight_nonneg r hr

/-- A claim is worth at most its share of the pool, up to rounding. -/
theorem RoundStart.claimableAmount_cases (c : ClaimCall) :
    k.claimableAmount airdropIdentifier c = 0 ∨
      (0 < (k.getTotalWeight airdropIdentifier).i ∧
        2 * k.claimableAmount airdropIdentifier c *
            (precision * (k.getTotalWeight airdropIdentifier).i) ≤
          2 * k.startPool airdrop distributor * k.partOf airdropIdentifier c.claim +
            (precision * (k.getTotalWeight airdropIdentifier).i +
              (k.getTotalWeight airdropIdentifier).i + precision)) := by
  by_cases hzero : k.claimableAmount airdropIdentifier c = 0
  · exact .inl hzero
  · refine .inr ?_
    unfold claimableAmount at hzero ⊢
    cases hclaimable : k.claimable airdropIdentifier c with
    | error e =>
      rw [hclaimable] at hzero
      exact absurd rfl hzero
    | ok amount =>
      rw [hclaimable] at hzero
      unfold claimable getClaimableAmountForAction getClaimRecord at hclaimable
      unfold partOf weightAt
      cases hget : k.claimRecords.get? (claimRecordKey airdropIdentifier c.addr) with
      | none =>
        rw [hget] at hclaimable
        exact absurd (Except.ok.inj hclaimable).symm hzero
      | some r =>
        rw [hget] at hclaimable
        obtain ⟨airdrop', hairdrop, hshare⟩ := claimableOfRecord_ok hzero hclaimable
        cases hairdrop.symm.trans h.airdrop_eq
        obtain ⟨distributor', hdistributor, hshare⟩ := claimableShare_ok hairdrop hshare
        cases hdistributor.symm.trans h.distributor_eq
        -- nothing was claimed yet, so the pool is the balance
        rw [h.unclaimed, add_zero] at hshare
        have hbound := shareOfPool_le h.pool_nonneg (h.weight_nonneg r (mem_scan_of_get? hget))
          h.total_nonneg hshare
        unfold ClaimCall.claim
        rw [hget]
        exact hbound

/-- **The claims of a round** ask for the pool and one `roundingError` each, at most. -/
theorem RoundStart.sum_claimable_le {claims : List ClaimCall}
    (hnd : (claims.map ClaimCall.claim).Nodup) :
    (((claims.map (k.claimableAmount airdropIdentifier)).sum : ℤ) : ℚ) ≤
      k.startPool airdrop distributor +
        claims.length * roundingError (k.getTotalWeight airdropIdentifier) := by
  have hpool : 0 ≤ k.startPool airdrop distributor := h.pool_nonneg
  have htotal := h.total_nonneg
  have hcases := h.claimableAmount_cases
  have hparts := sum_partOf_le h.weight_nonneg hnd
  rw [← h.total, map_map] at hparts
  have hpartOf : ∀ c : ClaimCall, 0 ≤ k.partOf airdropIdentifier c.claim := fun c =>
    mul_nonneg (percentageForAction_nonneg _) (weightAt_nonneg h.weight_nonneg _)
  unfold roundingError
  generalize k.startPool airdrop distributor = pool at *
  generalize (k.getTotalWeight airdropIdentifier).i = total at *
  rcases htotal.eq_or_lt with hzero | hpos
  · -- without weights no claim goes through
    have hnothing : (claims.map (k.claimableAmount airdropIdentifier)).sum = 0 := by
      refine sum_eq_zero fun amount hamount => ?_
      obtain ⟨c, -, rfl⟩ := mem_map.mp hamount
      exact (hcases c).resolve_right fun hc => absurd hc.1 (by omega)
    rw [hnothing]
    positivity
  · have hsum : 2 * (claims.map (k.claimableAmount airdropIdentifier)).sum * (precision * total) ≤
        2 * pool * (claims.map (k.partOf airdropIdentifier ∘ ClaimCall.claim)).sum +
          claims.length * (precision * total + total + precision) := by
      clear hnd hparts
      induction claims with
      | nil => simp
      | cons c claims ih =>
        have hone : 2 * k.claimableAmount airdropIdentifier c * (precision * total) ≤
            2 * pool * k.partOf airdropIdentifier c.claim +
              (precision * total + total + precision) := by
          rcases hcases c with hc | hc
          · have hpart := hpartOf c
            rw [hc, mul_zero, zero_mul]
            positivity
          · exact hc.2
        simp only [map_cons, sum_cons, length_cons, comp_apply]
        push_cast
        linarith
    have hscaled : 2 * pool * (claims.map (k.partOf airdropIdentifier ∘ ClaimCall.claim)).sum ≤
        2 * pool * (precision * total) :=
      mul_le_mul_of_nonneg_left hparts (by omega)
    have hint := hsum.trans (add_le_add_left hscaled _)
    have hrat : (2 * ((claims.map (k.claimableAmount airdropIdentifier)).sum : ℤ) *
        (precision * total) : ℚ) ≤ 2 * pool * (precision * total) +
          claims.length * (precision * total + total + precision) := by exact_mod_cast hint
    have hprecision' : (0 : ℚ) < precision := by exact_mod_cast precision_pos
    have hden : (0 : ℚ) < 2 * (precision * total) := by positivity
    rw [← mul_le_mul_iff_left₀ hden]
    calc (((claims.map (k.claimableAmount airdropIdentifier)).sum : ℤ) : ℚ) *
          (2 * (precision * total))
        = 2 * ((claims.map (k.claimableAmount airdropIdentifier)).sum : ℤ) *
            (precision * total) := by ring
      _ ≤ 2 * pool * (precision * total) +
            claims.length * (precision * total + total + precision) := hrat
      _ = (pool + claims.length * (1 / 2 + 1 / (2 * precision) + 1 / (2 * total))) *
            (2 * (precision * total)) := by
          field_simp

end Keeper

/-! ## Runs -/

namespace Round

open Keeper

variable {blockedAddr : String → Bool} {airdropIdentifier : String} {k₀ : Keeper} {s s' : Round}
  {c : ClaimCall} {airdrop : Airdrop} {distributor : AccAddress}

/-- What holds along a round that started with `k₀`. -/
structure Inv (airdropIdentifier : String) (k₀ : Keeper) (s : Round) : Prop where
  spent : Spent k₀ s.keeper airdropIdentifier s.paid
  /-- what was paid is what was claimable at the start -/
  amounts : ∀ p ∈ s.payouts, k₀.claimable airdropIdentifier p.call = .ok p.amount
  completed : ∀ p ∈ s.payouts, s.keeper.Completed airdropIdentifier p.call.claim
  once : (s.payouts.map fun p => p.call.claim).Nodup

private theorem inv_start (airdropIdentifier : String) (k₀ : Keeper) :
    Inv airdropIdentifier k₀ ⟨k₀, []⟩ where
  spent := Spent.refl k₀ airdropIdentifier
  amounts := by
    intro p hp
    cases hp
  completed := by
    intro p hp
    cases hp
  once := nodup_nil

/-- **One claim** keeps the invariant. -/
theorem Inv.step (h : Inv airdropIdentifier k₀ s) (hcall : RoundCall s.keeper airdropIdentifier c)
    (hstep : step blockedAddr airdropIdentifier s c = some s') :
    Inv airdropIdentifier k₀ s' := by
  obtain ⟨⟨keeper, amount⟩, hclaim, rfl⟩ := toOption_map_eq_some.mp hstep
  dsimp only
  rcases claimCoinsForAction_ok hclaim with ⟨rfl, rfl⟩ | ⟨airdrop, distributor, old, new, hpaid⟩
  · -- a claim for nothing changes nothing
    simpa using h
  · by_cases hown : c.airdropIdentifier = airdropIdentifier
    · subst hown
      have hother : convertAndEncode "stride" c.addr ≠ convertAndEncode "stride" distributor :=
        (hcall airdrop distributor hpaid.airdrop_eq hpaid.distributor_eq).1
      rw [if_pos ⟨rfl, hpaid.amount_ne⟩]
      refine ⟨?_, ?_, ?_, ?_⟩
      · have htotal : paid ⟨keeper, s.payouts ++ [⟨c, amount⟩]⟩ = s.paid + amount := by
          simp [paid]
        rw [htotal]
        exact h.spent.trans (hpaid.spent hother)
      · intro p hp
        rcases mem_append.mp hp with hp | hp
        · exact h.amounts p hp
        · cases mem_singleton.mp hp
          rw [← h.spent.claimable_eq]
          unfold claimable getClaimableAmountForAction getClaimRecord
          rw [hpaid.old_eq]
          exact hpaid.amount_eq
      · intro p hp
        rcases mem_append.mp hp with hp | hp
        · exact hpaid.completed (h.completed p hp)
        · cases mem_singleton.mp hp
          exact hpaid.completed_self
      · rw [map_append, nodup_append]
        refine ⟨h.once, nodup_singleton _, ?_⟩
        -- a completed action is not paid again
        intro claim hclaim claim' hclaim' hsame
        obtain ⟨p, hp, rfl⟩ := mem_map.mp hclaim
        cases mem_singleton.mp hclaim'
        have hcompleted := h.completed p hp
        rw [hsame] at hcompleted
        exact hpaid.not_completed hcompleted
    · rw [if_neg fun hboth => hown hboth.1]
      have hspent : Spent s.keeper keeper airdropIdentifier 0 := by
        refine hpaid.spent_other (fun h => hown h.symm) ?_
        intro airdrop' distributor' hairdrop hdistributor
        obtain ⟨haddr, hrest⟩ := hcall airdrop' distributor' hairdrop hdistributor
        exact ⟨haddr.symm,
          (hrest hown airdrop distributor hpaid.airdrop_eq hpaid.distributor_eq).symm⟩
      refine ⟨?_, h.amounts, fun p hp => hpaid.completed (h.completed p hp), h.once⟩
      have hsum := h.spent.trans hspent
      rw [add_zero] at hsum
      exact hsum

/-- **A round pays shares of its pool**, in every order of claims: what is claimable stays as it was
    at the start of the round, each payout is what was claimable then, no user is paid twice for an
    action, and the balance of the distributor and `ClaimedSoFar` add up to the pool. All claims of
    the round ask for no more than the pool and a rounding error each; so a claim is short of no
    more than the rounding errors. -/
theorem round_pays_shares (hstart : RoundStart k₀ airdropIdentifier airdrop distributor)
    (hrun : Reaches (step blockedAddr airdropIdentifier)
      (fun s c => RoundCall s.keeper airdropIdentifier c) ⟨k₀, []⟩ s) :
    (∀ c, s.keeper.claimable airdropIdentifier c = k₀.claimable airdropIdentifier c) ∧
    (∀ p ∈ s.payouts, k₀.claimable airdropIdentifier p.call = .ok p.amount) ∧
    (s.payouts.map fun p => p.call.claim).Nodup ∧
    (s.keeper.getAirdropByIdentifier airdropIdentifier =
        some { airdrop with claimedSoFar := s.paid } ∧
      s.keeper.startPool airdrop distributor + s.paid = k₀.startPool airdrop distributor) ∧
    (∀ claims : List ClaimCall, (claims.map ClaimCall.claim).Nodup →
      (((claims.map (k₀.claimableAmount airdropIdentifier)).sum : ℤ) : ℚ) ≤
        k₀.startPool airdrop distributor +
          claims.length * roundingError (k₀.getTotalWeight airdropIdentifier)) ∧
    ∀ c amount, c.claim ∉ s.payouts.map (fun p => p.call.claim) →
      s.keeper.claimable airdropIdentifier c = .ok amount →
      (amount : ℚ) ≤ s.keeper.startPool airdrop distributor +
        (s.payouts.length + 1) * roundingError (k₀.getTotalWeight airdropIdentifier) := by
  have hinv : Inv airdropIdentifier k₀ s :=
    hrun.invariant (inv_start airdropIdentifier k₀) fun _ _ _ h hcall hstep => h.step hcall hstep
  have hbalance := hinv.spent.balance_eq airdrop distributor hstart.airdrop_eq hstart.distributor_eq
  have hpool : s.keeper.startPool airdrop distributor + s.paid =
      k₀.startPool airdrop distributor := by
    unfold startPool
    rw [hbalance]
    ring
  refine ⟨hinv.spent.claimable_eq, hinv.amounts, hinv.once, ⟨?_, hpool⟩,
    fun _ hnd => hstart.sum_claimable_le hnd, ?_⟩
  · rw [hinv.spent.airdrop_eq, hstart.airdrop_eq, Option.map_some, hstart.unclaimed, zero_add]
  · intro c amount hopen hclaimable
    -- the claims that were paid, and this one
    have hnd : ((c :: s.payouts.map Payout.call).map ClaimCall.claim).Nodup := by
      rw [map_cons, nodup_cons, map_map]
      exact ⟨hopen, hinv.once⟩
    have hsum := hstart.sum_claimable_le hnd
    have hpaid : ((s.payouts.map Payout.call).map (k₀.claimableAmount airdropIdentifier)).sum =
        s.paid := by
      rw [map_map]
      congr 1
      refine map_congr_left fun p hp => ?_
      dsimp only [comp_apply, claimableAmount]
      rw [hinv.amounts p hp]
      rfl
    have hthis : k₀.claimableAmount airdropIdentifier c = amount := by
      unfold claimableAmount
      rw [← hinv.spent.claimable_eq, hclaimable]
      rfl
    rw [map_cons, sum_cons, hpaid, hthis, length_cons, length_map, ← hpool]
      at hsum
    push_cast at hsum
    linarith

/-! ### A pool of 3 -/

def distributorAccount : AccAddress := replicate 20 1

def userAccount : AccAddress := replicate 20 2

def otherAccount : AccAddress := replicate 20 3

def atomAirdrop : Airdrop where
  airdropIdentifier := "atom"
  chainId := "cosmoshub-4"
  airdropStartTime := 0
  airdropDuration := 10 ^ 18
  claimDenom := "ustrd"
  distributorAddress := convertAndEncode "stride" distributorAccount
  claimedSoFar := 0
  autopilotEnabled := false

def newAirdrop (pool : ℤ) : Keeper where
  airdrops := [atomAirdrop]
  claimRecords := empty
  totalWeights := KVStore.empty
  accounts := fun _ => .base
  bank :=
    { balance := fun a d =>
        if a = convertAndEncode "stride" distributorAccount ∧ d = "ustrd" then pool else 0
      supply := fun _ => pool }

def allocated (pool : ℤ) (users : List (AccAddress × ℤ)) : Option Keeper :=
  let msg : MsgSetAirdropAllocations :=
    { allocator := convertAndEncode "stride" distributorAccount
      airdropIdentifier := "atom"
      users := users.map fun u => convertAndEncode "stride" u.1
      weights := users.map fun u => ⟨u.2⟩ }
  if msg.validateBasic.isOk then ((newAirdrop pool).setAirdropAllocations msg).toOption else none

/-- A claim of the user, after the initial period. -/
def claimOf (action : Action) : ClaimCall := ⟨10 ^ 17, userAccount, action, "atom"⟩

def twoUsers : List (AccAddress × ℤ) := [(userAccount, 10 ^ 18), (otherAccount, 2 * 10 ^ 18)]

/-- The claims of two users, one of which comes twice. -/
def claimsOfTwo : List ClaimCall :=
  [claimOf .free, ⟨10 ^ 17, otherAccount, .liquidStake, "atom"⟩, claimOf .free,
    claimOf .delegateStake]

private theorem isSome_allocated : (allocated 100 twoUsers).isSome := by decide +kernel

theorem round_pays_shares_claimsOfTwo :
    ∃ k, allocated 100 twoUsers = some k ∧
      ∃ s, runAllowed (step (fun _ => false) "atom") (fun s c => s.keeper.RoundCall "atom" c)
          ⟨k, []⟩ claimsOfTwo = some s ∧
        s.payouts.map Payout.amount = [7, 40, 7] ∧
        (∀ c, s.keeper.claimable "atom" c = k.claimable "atom" c) ∧
        s.keeper.startPool atomAirdrop distributorAccount + s.paid =
          k.startPool atomAirdrop distributorAccount := by
  have hstart : RoundStart ((allocated 100 twoUsers).get isSome_allocated) "atom" atomAirdrop
      distributorAccount := by decide +kernel
  have hrun : Reaches (step (fun _ => false) "atom")
      (fun s c => s.keeper.RoundCall "atom" c)
      ⟨(allocated 100 twoUsers).get isSome_allocated, []⟩ _ :=
    .of_get (l := claimsOfTwo) (by decide +kernel)
  obtain ⟨hsame, -, -, ⟨-, hpool⟩, -⟩ := round_pays_shares hstart hrun
  exact exists_run_end _ (exists_run_end _ ⟨by decide +kernel, hsame, hpool⟩)

/-- **Rounded shares exceed the pool**: a single user has 1, 2 and 1 of a pool of 3, so that the
    last claim fails. A negative weight, which passes the checks of the message, leaves the others
    with more than the pool without any rounding. -/
theorem rounded_shares_exceed_pool :
    ((allocated 3 [(userAccount, 10 ^ 18)]).map fun k =>
      ([Action.free, .liquidStake, .delegateStake].map fun action =>
        k.claimableAmount "atom" (claimOf action))) = some [1, 2, 1] ∧
    ((allocated 3 [(userAccount, 10 ^ 18)]).bind fun k =>
      (runSteps (step (fun _ => false) "atom") ⟨k, []⟩
        [claimOf .free, claimOf .liquidStake]).map fun s =>
          (s.paid, (step (fun _ => false) "atom" s (claimOf .delegateStake)).isSome)) =
      some (3, false) ∧
    ((allocated 10 [(userAccount, 2 * 10 ^ 18), (otherAccount, -10 ^ 18)]).map fun k =>
      ([Action.free, .liquidStake, .delegateStake].map fun action =>
        k.claimableAmount "atom" (claimOf action))) = some [4, 12, 4] := by
  refine ⟨?_, ?_, ?_⟩
  · decide +kernel
  · decide +kernel
  · decide +kernel

end Round

end Stride.Claim
