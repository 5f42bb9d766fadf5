import Stride.Lib.GreedyFill
import Stride.Stakeibc.TargetDelegations
import Stride.Stakeibc.UnbondingSystem

/-!
# Spreading an Unbonding over the Validators

The total to unbond is taken from the validators that are above their balanced delegation,
those furthest above first. The capacities add up to the total plus what other validators
are below their balanced delegation.

A slashed validator that would be drained keeps a small buffer, which has to be unbonded
from the validators after it. Nothing makes sure that they have capacity to spare.
-/

namespace Stride.Stakeibc

open Lib Sdk List

/-! ## Capacities and buffers -/

/-- Sort key of the capacities: balance ratio ascending, capacity descending, address. -/
def unbondKey (c : ValidatorUnbondCapacity) : ℤ ×ₗ (ℤ ×ₗ String) :=
  toLex (c.balanceRatio.i, toLex (-c.capacity, c.validatorAddress))

private theorem unbondPriority_iff {a b : ValidatorUnbondCapacity} :
    unbondPriority a b ↔ unbondKey a ≤ unbondKey b := by
  unfold unbondPriority unbondKey
  rw [Prod.Lex.toLex_le_toLex, Prod.Lex.toLex_le_toLex]
  by_cases hratio : a.balanceRatio.i = b.balanceRatio.i
  · by_cases hcapacity : a.capacity = b.capacity
    · simp [hratio, hcapacity]
    · simp [hratio, hcapacity]
  · simp [hratio]

instance : Std.Total unbondPriority :=
  ⟨fun a b => by rw [unbondPriority_iff, unbondPriority_iff]; exact le_total _ _⟩

instance : IsTrans ValidatorUnbondCapacity unbondPriority :=
  ⟨fun a b c => by simp only [unbondPriority_iff]; exact le_trans⟩

/-- What a validator is above its balanced delegation once `unbond` tokens are gone. -/
def balancedCapacity (hostZone : HostZone) (unbond : ℤ) (v : Validator) :
    ValidatorUnbondCapacity :=
  let balanced := targetDelegation hostZone.eligible
    (totalValidDelegation hostZone - unbond) v
  ⟨v.address, v.delegation, balanced, v.delegation - balanced⟩

/-- The validators above their balanced delegation. -/
def surplusCapacities (hostZone : HostZone) (unbond : ℤ) : List ValidatorUnbondCapacity :=
  (hostZone.eligible.map (balancedCapacity hostZone unbond)).filter
    (0 < ·.capacity)

/-- What validators are below their balanced delegation: the capacity to spare. -/
def spareCapacity (hostZone : HostZone) (unbond : ℤ) : ℤ :=
  (hostZone.eligible.map fun v =>
    max 0 (-(balancedCapacity hostZone unbond v).capacity)).sum

/-- The buffer a validator keeps when it is drained: only a slashed one whose balanced
    delegation is zero, and never its last token. -/
def roundingBuffer (hostZone : HostZone) (c : ValidatorUnbondCapacity) : ℤ :=
  if c.balancedDelegation = 0 ∧ 2 ≤ c.currentDelegation ∧
      ∃ v ∈ hostZone.validators, v.address = c.validatorAddress ∧
        v.sharesToTokensRate.i < LegacyDec.one.i then
    max 1 (c.currentDelegation / undelegationSharesSafetyDivisor)
  else 0

/-- The spare capacity covers the buffers: all of them, or, at some validator in the
    priority order, the buffers before it together with the capacities after it. -/
def BuffersAbsorbed (hostZone : HostZone) (unbond : ℤ) : Prop :=
  ReservesCoveredBy ValidatorUnbondCapacity.capacity (roundingBuffer hostZone) unbondKey
    (surplusCapacities hostZone unbond) (spareCapacity hostZone unbond)

private theorem filter_map_filter {α β : Type} (p : α → Bool) (f : α → β) (q : β → Bool)
    (l : List α) :
    ((l.filter p).map f).filter q =
      l.filterMap fun a => if p a then if q (f a) then some (f a) else none else none := by
  induction l with
  | nil => rfl
  | cons a l ih =>
    by_cases hp : p a
    · by_cases hq : q (f a) <;> simp [hp, hq, ih]
    · simp [hp, ih]

private theorem getValidatorUnbondCapacity_eq {hostZone : HostZone} {unbond : ℤ}
    (hnd : hostZone.addresses.Nodup) {targets : String → Option ℤ}
    (htargets : ∀ v ∈ hostZone.eligible, targets v.address =
      some (targetDelegation hostZone.eligible
        (totalValidDelegation hostZone - unbond) v))
    (hnone : ∀ a ∉ hostZone.eligible.map Validator.address,
      targets a = none) :
    getValidatorUnbondCapacity hostZone.validators targets = surplusCapacities hostZone unbond := by
  have hsurplus := filter_map_filter (fun v : Validator => !v.slashQueryInProgress)
    (balancedCapacity hostZone unbond) (0 < ·.capacity) hostZone.validators
  refine Eq.trans ?_ hsurplus.symm
  apply filterMap_congr
  intro v hv
  by_cases hquery : v.slashQueryInProgress
  · -- no eligible validator has the address of one with a slash query
    have hnotMem : v.address ∉ hostZone.eligible.map Validator.address := by
      intro hmem
      obtain ⟨w, hw, haddr⟩ := mem_map.mp hmem
      obtain ⟨hwMem, hwQuery⟩ := mem_filter.mp hw
      rw [inj_on_of_nodup_map hnd hwMem hv haddr, hquery] at hwQuery
      cases hwQuery
    simp [hnone _ hnotMem, hquery]
  · have hmem : v ∈ hostZone.eligible :=
      mem_filter.mpr ⟨hv, by simpa using hquery⟩
    simp [htargets v hmem, hquery, balancedCapacity]

section Capacities

variable {hostZone : HostZone} {unbond : ℤ}

variable {caps : List ValidatorUnbondCapacity} {c : ValidatorUnbondCapacity}

private theorem mem_surplusCapacities (h : c ∈ surplusCapacities hostZone unbond) :
    ∃ v ∈ hostZone.validators, c = balancedCapacity hostZone unbond v ∧ 0 < c.capacity := by
  obtain ⟨hmem, hpos⟩ := mem_filter.mp h
  obtain ⟨v, hv, rfl⟩ := mem_map.mp hmem
  exact ⟨v, (mem_filter.mp hv).1, rfl, by simpa using hpos⟩

/-- A surplus capacity is within the validator's delegation. -/
theorem surplus_bounds (hunbond : unbond ≤ totalValidDelegation hostZone)
    (h : c ∈ surplusCapacities hostZone unbond) :
    0 < c.capacity ∧ 0 ≤ c.balancedDelegation ∧
      c.capacity = c.currentDelegation - c.balancedDelegation := by
  obtain ⟨v, -, rfl, hpos⟩ := mem_surplusCapacities h
  exact ⟨hpos, targetDelegation_nonneg (by omega) v, rfl⟩

variable (unbond) in
/-- Capacities add up to the amount and what is spare. -/
theorem sum_surplusCapacities (hnd : hostZone.addresses.Nodup)
    (hne : hostZone.eligible ≠ []) :
    ((surplusCapacities hostZone unbond).map ValidatorUnbondCapacity.capacity).sum =
      unbond + spareCapacity hostZone unbond := by
  have hnd' : (hostZone.eligible.map Validator.address).Nodup :=
    hnd.sublist (filter_sublist.map _)
  -- positive parts minus negative parts are the differences
  have hparts (l : List Validator) :
      (((l.map (balancedCapacity hostZone unbond)).filter (0 < ·.capacity)).map
        ValidatorUnbondCapacity.capacity).sum =
      (l.map fun v => (balancedCapacity hostZone unbond v).capacity).sum +
        (l.map fun v => max 0 (-(balancedCapacity hostZone unbond v).capacity)).sum := by
    induction l with
    | nil => rfl
    | cons v l ih =>
      by_cases hpos : 0 < (balancedCapacity hostZone unbond v).capacity
      · simp only [map_cons, filter_cons, hpos, decide_true, if_true, sum_cons, ih]
        omega
      · simp only [map_cons, filter_cons, hpos, decide_false, Bool.false_eq_true,
          if_false, sum_cons, ih]
        omega
  have hdiff : (hostZone.eligible.map fun v =>
      (balancedCapacity hostZone unbond v).capacity).sum = unbond := by
    show (hostZone.eligible.map fun v => v.delegation -
      targetDelegation hostZone.eligible
        (totalValidDelegation hostZone - unbond) v).sum = unbond
    have hsub (l : List Validator) (f g : Validator → ℤ) :
        (l.map fun v => f v - g v).sum = (l.map f).sum - (l.map g).sum := by
      induction l with
      | nil => simp
      | cons v l ih =>
        simp only [map_cons, sum_cons, ih]
        ring
    rw [hsub, sum_targetDelegation hnd' hne, totalValidDelegation]
    ring
  unfold surplusCapacities spareCapacity
  rw [hparts, hdiff]

private theorem roundingBuffer_bounds (hunbond : unbond ≤ totalValidDelegation hostZone) :
    ValidReserves ValidatorUnbondCapacity.capacity (roundingBuffer hostZone)
      (surplusCapacities hostZone unbond) := by
  intro c hc
  obtain ⟨hpos, -, hcap⟩ := surplus_bounds hunbond hc
  unfold roundingBuffer undelegationSharesSafetyDivisor
  split
  · omega
  · omega

section

variable (hnd : hostZone.addresses.Nodup)

include hnd

/-- `applySharesRoundingSafety` takes the buffer off an amount that drains the validator,
    and no other. -/
theorem applySharesRoundingSafety_eq (hunbond : unbond ≤ totalValidDelegation hostZone)
    (hc : c ∈ surplusCapacities hostZone unbond) {remaining : ℤ} :
    applySharesRoundingSafety hostZone c
        (if c.capacity < remaining then c.capacity else remaining) =
      fillAmount ValidatorUnbondCapacity.capacity (roundingBuffer hostZone) c remaining := by
  obtain ⟨hpos, hbalanced, hcap⟩ := surplus_bounds hunbond hc
  unfold fillAmount
  -- only a validator that is emptied may keep a buffer
  by_cases hlt : remaining < c.capacity
  · rw [if_neg (by omega), if_pos hlt, applySharesRoundingSafety, if_pos (by omega)]
  · have hamount : (if c.capacity < remaining then c.capacity else remaining) = c.capacity := by
      split <;> omega
    rw [hamount, if_neg hlt]
    unfold applySharesRoundingSafety roundingBuffer
    by_cases hzero : c.balancedDelegation = 0
    · obtain ⟨v, hv, rfl, -⟩ := mem_surplusCapacities hc
      have hfind : getValidatorFromAddress hostZone.validators
          (balancedCapacity hostZone unbond v).validatorAddress = some v :=
        getValidatorFromAddress_of_mem hnd hv
      have hslashed : (∃ w ∈ hostZone.validators,
          w.address = (balancedCapacity hostZone unbond v).validatorAddress ∧
            w.sharesToTokensRate.i < LegacyDec.one.i) ↔
          v.sharesToTokensRate.i < LegacyDec.one.i := by
        constructor
        · rintro ⟨w, hw, haddr, hrate⟩
          rw [← inj_on_of_nodup_map hnd hw hv haddr]
          exact hrate
        · intro hrate
          exact ⟨v, hv, rfl, hrate⟩
      rw [hfind]
      simp only [hzero, hslashed, true_and]
      have htdiv : (balancedCapacity hostZone unbond v).capacity.tdiv
          undelegationSharesSafetyDivisor =
          (balancedCapacity hostZone unbond v).currentDelegation /
            undelegationSharesSafetyDivisor := by
        rw [Int.tdiv_eq_ediv_of_nonneg hpos.le, hcap, hzero, sub_zero]
      rw [htdiv]
      unfold undelegationSharesSafetyDivisor
      by_cases hrate : v.sharesToTokensRate.i < LegacyDec.one.i
      · split_ifs <;> omega
      · simp [hrate]
    · rw [if_pos (by omega)]
      simp [hzero]

/-- **Refinement**: the loop of `GetUnbondingICAMessages` is greedy filling with the
    rounding buffers as reserves. -/
theorem unbondingSplits_eq (hunbond : unbond ≤ totalValidDelegation hostZone)
    (hcaps : ∀ c ∈ caps, c ∈ surplusCapacities hostZone unbond) (remaining : ℤ) :
    unbondingSplits hostZone caps remaining =
      let filled := fill ValidatorUnbondCapacity.capacity (roundingBuffer hostZone) caps remaining
      (filled.1.map fun p => ⟨p.1.validatorAddress, p.2⟩, filled.2) := by
  induction caps generalizing remaining with
  | nil => rfl
  | cons c caps ih =>
    obtain ⟨hc, hcaps'⟩ := forall_mem_cons.mp hcaps
    unfold unbondingSplits fill
    dsimp only
    rw [applySharesRoundingSafety_eq hnd hunbond hc, ih hcaps']
    split
    · rfl
    · rfl

/-! ## The pipeline -/

private theorem pairwise_unbondKey :
    ((surplusCapacities hostZone unbond).insertionSort unbondPriority).Pairwise
      (unbondKey · < unbondKey ·) := by
  have hperm := perm_insertionSort unbondPriority (surplusCapacities hostZone unbond)
  have hsorted := pairwise_insertionSort unbondPriority (surplusCapacities hostZone unbond)
  have hndCaps : ((surplusCapacities hostZone unbond).map
      ValidatorUnbondCapacity.validatorAddress).Nodup := by
    have hsub := filter_sublist (p := fun c => decide (0 < c.capacity))
      (l := hostZone.eligible.map (balancedCapacity hostZone unbond))
    have hmap : (hostZone.eligible.map
        (balancedCapacity hostZone unbond)).map ValidatorUnbondCapacity.validatorAddress =
          hostZone.eligible.map Validator.address := by
      rw [map_map]
      rfl
    have hsub' := hsub.map ValidatorUnbondCapacity.validatorAddress
    rw [hmap] at hsub'
    exact (hnd.sublist (filter_sublist.map _)).sublist hsub'
  have hdistinct := pairwise_map.mp
    ((hperm.map ValidatorUnbondCapacity.validatorAddress).nodup_iff.mpr hndCaps)
  refine (hsorted.and hdistinct).imp fun {a b} hab => ?_
  apply lt_of_le_of_ne (unbondPriority_iff.mp hab.1)
  intro hkey
  exact hab.2 (congrArg (fun k : ℤ ×ₗ (ℤ ×ₗ String) => (ofLex (ofLex k).2).2) hkey)

end

private theorem checkBalanceRatios_ok (h : ∀ c ∈ caps, 0 < c.currentDelegation) :
    checkBalanceRatios caps = .ok () := by
  induction caps with
  | nil => rfl
  | cons c caps ih =>
    obtain ⟨hc, hcaps⟩ := forall_mem_cons.mp h
    have hne : (LegacyDec.fromInt c.currentDelegation).i ≠ 0 :=
      mul_ne_zero hc.ne' (Int.natCast_ne_zero.mpr precision_pos.ne')
    have hratio : ∃ ratio, c.getBalanceRatio = .ok ratio := by
      unfold ValidatorUnbondCapacity.getBalanceRatio LegacyDec.quo
      rw [if_neg hc.ne', if_neg hne]
      exact ⟨_, rfl⟩
    obtain ⟨ratio, hratio⟩ := hratio
    exact bind_eq_ok.mpr ⟨ratio, hratio, ih hcaps⟩

private theorem mapM_msgUndelegate_of_nonneg {us : List SplitUndelegation}
    (h : ∀ u ∈ us, 0 ≤ u.nativeTokenAmount) :
    ∃ msgs, us.mapM (msgUndelegate hostZone) = .ok msgs := by
  induction us with
  | nil => exact ⟨[], rfl⟩
  | cons u us ih =>
    obtain ⟨hu, hus⟩ := forall_mem_cons.mp h
    obtain ⟨msgs, hmsgs⟩ := ih hus
    have hcoin : newCoin hostZone.hostDenom u.nativeTokenAmount =
        .ok (hostZone.hostDenom, u.nativeTokenAmount) := by
      unfold newCoin
      rw [if_neg (by omega)]
    rw [mapM_cons]
    exact ⟨_, bind_eq_ok.mpr ⟨_, bind_eq_ok.mpr ⟨_, hcoin, rfl⟩,
      bind_eq_ok.mpr ⟨_, hmsgs, rfl⟩⟩⟩

/-- **Pipeline**: for a covered total the pipeline reaches its last check, which fails
    exactly if greedy filling in priority order leaves something over. -/
private theorem unbondingMessages_eq (hnd : hostZone.addresses.Nodup)
    (hweight : 0 < weightSum hostZone.eligible)
    (hoverflow : weightSum hostZone.eligible < 2 ^ 64)
    (hpos : 0 < unbond) (hcovered : unbond < totalValidDelegation hostZone) :
    ∃ msgs, unbondingMessages hostZone unbond =
      let filled := fill ValidatorUnbondCapacity.capacity (roundingBuffer hostZone)
        ((surplusCapacities hostZone unbond).insertionSort unbondPriority) unbond
      if filled.2 ≠ 0 then
        wrapf .plain s!"unable to unbond full amount ({unbond}) from {hostZone.chainId}"
      else .ok (msgs, filled.1.map fun p => ⟨p.1.validatorAddress, p.2⟩) := by
  obtain ⟨targets, htargets, hsome, hnone⟩ :=
    getTargetValAmtsForHostZone_eq hnd hweight hoverflow (sub_pos.mpr hcovered)
  have hcaps := getValidatorUnbondCapacity_eq hnd hsome hnone
  have hvalid := roundingBuffer_bounds hcovered.le
  have hne : hostZone.eligible ≠ [] := by
    intro hnil
    rw [hnil] at hweight
    simp [weightSum] at hweight
  -- the capacities add up to more than the total, so there are some
  have hcapsNe : (surplusCapacities hostZone unbond).isEmpty = false := by
    have hsum := sum_surplusCapacities unbond hnd hne
    have hspare : 0 ≤ spareCapacity hostZone unbond := by
      apply sum_map_nonneg
      intro v _
      exact le_max_left _ _
    cases hcase : surplusCapacities hostZone unbond with
    | nil =>
      rw [hcase, map_nil, sum_nil] at hsum
      omega
    | cons c caps => rfl
  have hmem : ∀ c ∈ (surplusCapacities hostZone unbond).insertionSort unbondPriority,
      c ∈ surplusCapacities hostZone unbond := fun c hc =>
    (perm_insertionSort unbondPriority _).mem_iff.mp hc
  have hvalidSorted : ValidReserves ValidatorUnbondCapacity.capacity (roundingBuffer hostZone)
      ((surplusCapacities hostZone unbond).insertionSort unbondPriority) :=
    fun c hc => hvalid c (hmem c hc)
  have hsplits := unbondingSplits_eq hnd hcovered.le hmem unbond
  obtain ⟨msgs, hmsgs⟩ : ∃ msgs, ((unbondingSplits hostZone
      ((surplusCapacities hostZone unbond).insertionSort unbondPriority) unbond).1).mapM
        (msgUndelegate hostZone) = .ok msgs := by
    apply mapM_msgUndelegate_of_nonneg
    rw [hsplits]
    intro u hu
    obtain ⟨p, hp, rfl⟩ := mem_map.mp hu
    exact (mem_fill hvalidSorted hpos.le hp).2.1.le
  refine ⟨msgs, ?_⟩
  have hcheck : checkBalanceRatios (surplusCapacities hostZone unbond) = .ok () := by
    apply checkBalanceRatios_ok
    intro c hc
    obtain ⟨hcpos, hbalanced, hcap⟩ := surplus_bounds hcovered.le hc
    omega
  unfold unbondingMessages sortUnbondingCapacityByPriority getUnbondingICAMessages
  dsimp only
  rw [htargets]
  simp only [bind, Except.bind, hcaps, hcapsNe, Bool.false_eq_true, if_false, hcheck, pure,
    Except.pure, hmsgs]
  rw [hsplits]

/-- **Covered unbondings**: for a positive total below the delegations of the validators
    without a slash query, the pipeline finds splits that add up to the total, each positive
    and within the delegation of its validator, exactly when the spare capacity covers the
    rounding buffers. -/
theorem unbondingMessages_ok_iff (hnd : hostZone.addresses.Nodup)
    (hweight : 0 < weightSum hostZone.eligible)
    (hoverflow : weightSum hostZone.eligible < 2 ^ 64)
    (hpos : 0 < unbond) (hcovered : unbond < totalValidDelegation hostZone) :
    (∃ msgs splits, unbondingMessages hostZone unbond = .ok (msgs, splits) ∧
      (splits.map SplitUndelegation.nativeTokenAmount).sum = unbond ∧
      ∀ u ∈ splits, 0 < u.nativeTokenAmount ∧
        ∃ v ∈ hostZone.validators, v.address = u.validator ∧ u.nativeTokenAmount ≤ v.delegation) ↔
    BuffersAbsorbed hostZone unbond := by
  have hne : hostZone.eligible ≠ [] := by
    intro hnil
    rw [hnil] at hweight
    simp [weightSum] at hweight
  have hperm := perm_insertionSort unbondPriority (surplusCapacities hostZone unbond)
  have hvalid : ValidReserves ValidatorUnbondCapacity.capacity (roundingBuffer hostZone)
      ((surplusCapacities hostZone unbond).insertionSort unbondPriority) :=
    fun c hc => roundingBuffer_bounds hcovered.le c (hperm.mem_iff.mp hc)
  have hslack : (((surplusCapacities hostZone unbond).insertionSort unbondPriority).map
      ValidatorUnbondCapacity.capacity).sum - unbond = spareCapacity hostZone unbond := by
    rw [(hperm.map _).sum_eq, sum_surplusCapacities unbond hnd hne]
    ring
  -- the last check of the pipeline is the condition
  have hleft : (fill ValidatorUnbondCapacity.capacity (roundingBuffer hostZone)
      ((surplusCapacities hostZone unbond).insertionSort unbondPriority) unbond).2 = 0 ↔
        BuffersAbsorbed hostZone unbond := by
    rw [fill_left_eq_zero_iff hvalid hpos.le, hslack,
      reservesCovered_iff_of_sorted (pairwise_unbondKey hnd), reservesCoveredBy_perm hperm]
    rfl
  obtain ⟨msgs, hmsgs⟩ := unbondingMessages_eq hnd hweight hoverflow hpos hcovered
  rw [← hleft]
  constructor
  · rintro ⟨msgs', splits, hok, -⟩
    by_contra hzero
    rw [if_pos hzero] at hmsgs
    rw [hmsgs] at hok
    cases hok
  · intro hzero
    rw [if_neg (not_not.mpr hzero)] at hmsgs
    refine ⟨msgs, _, hmsgs, (unbondingMessages_ok hmsgs).2.2, fun u hu => ?_⟩
    obtain ⟨⟨c, amount⟩, hc, rfl⟩ := mem_map.mp hu
    obtain ⟨hcMem, hamount, hle⟩ := mem_fill hvalid hpos.le hc
    obtain ⟨-, hbalanced, hcap⟩ := surplus_bounds hcovered.le (hperm.mem_iff.mp hcMem)
    obtain ⟨v, hv, rfl, -⟩ := mem_surplusCapacities (hperm.mem_iff.mp hcMem)
    refine ⟨hamount, v, hv, rfl, ?_⟩
    show amount ≤ (balancedCapacity hostZone unbond v).currentDelegation
    omega

end Capacities

/-! ## A buffer that is not absorbed -/

/-- A removed validator that was slashed by ten percent, and a healthy one. -/
def slashedValidatorZone : HostZone where
  chainId := "host"
  connectionId := "connection-0"
  hostDenom := "uatom"
  validators :=
    [⟨"val1", "val1", 0, 100, ⟨900000000000000000⟩, 0, false⟩,
      ⟨"val2", "val2", 1, 100, LegacyDec.one, 0, false⟩]
  delegationIcaAddress := "delegation"
  redemptionIcaAddress := "redemption"
  totalDelegations := 200
  redemptionRate := LegacyDec.one
  maxMessagesPerIcaTx := 32
  halted := false

/-- **Stuck unbonding**: 150 of 200 delegated tokens are to be unbonded. The slashed
    validator keeps one token, and the other one gives no more than its capacity of 50. -/
theorem buffer_not_absorbed : slashedValidatorZone.addresses.Nodup ∧
    totalValidDelegation slashedValidatorZone = 200 ∧
    unbondingMessages slashedValidatorZone 150 =
      .error ⟨.plain, "unable to unbond full amount (150) from host"⟩ := by
  refine ⟨by decide, by decide, ?_⟩
  decide +kernel

/-- The equivalence at two balanced validators that were never slashed. -/
theorem unbondingMessages_twoValidatorZone :
    0 < totalValidDelegation twoValidatorZone ∧
    (∃ msgs splits, unbondingMessages twoValidatorZone 100 = .ok (msgs, splits) ∧
      (splits.map SplitUndelegation.nativeTokenAmount).sum = 100 ∧
      ∀ u ∈ splits, 0 < u.nativeTokenAmount ∧
        ∃ v ∈ twoValidatorZone.validators, v.address = u.validator ∧
          u.nativeTokenAmount ≤ v.delegation) := by
  refine ⟨by decide, ?_⟩
  apply (unbondingMessages_ok_iff (by decide) (by decide) (by decide) (by decide) (by decide)).mpr
  -- no validator was slashed, so there are no buffers
  left
  decide +kernel

end Stride.Stakeibc
