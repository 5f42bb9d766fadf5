import Stride.Stakeibc.UnbondingSystem
import Mathlib.Algebra.BigOperators.Ring.Finset

/-!
# Burning stTokens after Undelegation

A batch that pays part of a record burns the stTokens of that part at the redemption rate
implied by the record, which is rounded to 18 decimals. The last part burns whatever is
left, so the parts before it must not have burned more than the record holds.
-/

namespace Stride.Stakeibc

open Lib Sdk Records Records.EpochUnbondingStore List

/-! ## Batches acknowledged with success -/

/-- A batch of undelegations that the host executed. -/
structure UndelegatedBatch where
  nativeTokens : ℤ
  unbondingTime : ℕ
  deriving DecidableEq

/-- The records of a submission and the stTokens burned for them. -/
structure BurnState where
  records : EpochUnbondingStore
  burned : ℤ

/-- The records' part of a success callback: `UpdateHostZoneUnbondingsAfterUndelegation`,
    and the coin that `BurnStTokensAfterUndelegation` builds of its result. -/
def burnBatch (hostZone : HostZone) (epochUnbondingRecordIds : List ℕ) (s : BurnState)
    (batch : UndelegatedBatch) : Result BurnState := do
  let (tally, records) ← updateHostZoneUnbondingsAfterUndelegation s.records hostZone.chainId
    epochUnbondingRecordIds batch.nativeTokens batch.unbondingTime
  let stCoin ← newCoin ("st" ++ hostZone.hostDenom) tally.totalStTokensToBurn
  return ⟨records, s.burned + stCoin.2⟩

def burnBatches (hostZone : HostZone) (epochUnbondingRecordIds : List ℕ) (s : BurnState)
    (batches : List UndelegatedBatch) : Result BurnState :=
  batches.foldlM (burnBatch hostZone epochUnbondingRecordIds) s

/-- The same batch over the list of the records it names. -/
def cascadeBatch (hostDenom : String) (s : EpochRecords × ℤ)
    (batch : UndelegatedBatch) : Result (EpochRecords × ℤ) := do
  let (tally, recs) ← mapAccum (recordStep (undelegationBody batch.unbondingTime))
    ⟨batch.nativeTokens, 0⟩ s.1
  let stCoin ← newCoin ("st" ++ hostDenom) tally.totalStTokensToBurn
  return (recs, s.2 + stCoin.2)

variable {post pre recs₀ recs out : EpochRecords} {batches : List UndelegatedBatch}
  {batch : UndelegatedBatch} {tally tally' : UndelegationTally} {e time : ℕ}
  {q q₀ : ℕ × HostZoneUnbonding} {f : ℕ → ℕ} {burned burned' native : ℤ} {hostDenom : String}
  {r r₀ : HostZoneUnbonding} {parts : List ℕ}

theorem cascadeBatch_eq_ok :
    cascadeBatch hostDenom (recs, burned) batch = .ok (out, burned') ↔
      ∃ tally, mapAccum (recordStep (undelegationBody batch.unbondingTime))
          ⟨batch.nativeTokens, 0⟩ recs = .ok (tally, out) ∧
        0 ≤ tally.totalStTokensToBurn ∧ burned' = burned + tally.totalStTokensToBurn := by
  constructor
  · intro h
    obtain ⟨⟨tally, out'⟩, hrun, h⟩ := bind_eq_ok.mp h
    obtain ⟨coin, hcoin, h⟩ := bind_eq_ok.mp h
    obtain ⟨hnn, rfl⟩ := newCoin_eq_ok.mp hcoin
    cases h
    exact ⟨tally, hrun, hnn, rfl⟩
  · rintro ⟨tally, hrun, hnn, rfl⟩
    apply bind_eq_ok.mpr
    refine ⟨(tally, out), hrun, ?_⟩
    apply bind_eq_ok.mpr
    exact ⟨_, newCoin_eq_ok.mpr ⟨hnn, rfl⟩, rfl⟩

/-! ## The implied redemption rate -/

/-- The redemption rate implied by a record, times `10 ^ 18` and rounded half to even. -/
def impliedRate (r : HostZoneUnbonding) : ℕ :=
  scaledQuo precision (r.nativeTokenAmount.toNat * precision) (r.stTokenAmount.toNat * precision)

/-- stTokens burned for a part of `native` tokens that is not the last one of its record:
    the part over the implied rate, rounded half to even and then down. -/
def impliedBurn (r : HostZoneUnbonding) (native : ℕ) : ℕ :=
  (2 * native * (precision * precision) + impliedRate r) / (2 * precision * impliedRate r)

private theorem impliedBurn_zero (r : HostZoneUnbonding) : impliedBurn r 0 = 0 := by
  unfold impliedBurn
  have hD := precision_pos
  generalize precision = D at hD ⊢
  generalize impliedRate r = m
  rcases Nat.eq_zero_or_pos m with rfl | hm
  · simp
  · apply Nat.div_eq_of_lt
    nlinarith

private theorem impliedBurn_of_rate_lt (hpos : 0 < impliedRate r)
    (hlt : impliedRate r < 2 * precision)
    (native : ℕ) : impliedBurn r native = native * precision / impliedRate r := by
  rw [impliedBurn, ← scaledQuo_div precision_pos precision_even hpos,
    scaledQuo_div_of_lt precision_pos precision_even hpos hlt]

/-- The source's computation, as long as the implied rate is not rounded to zero. -/
theorem impliedStTokens_eq (hN : 0 ≤ r.nativeTokenAmount) (hS : 0 < r.stTokenAmount)
    (hnative : 0 ≤ native) :
    impliedStTokens r native =
      if impliedRate r = 0 then goPanic "division by zero"
      else .ok ((impliedBurn r native.toNat : ℕ) : ℤ) := by
  have hfromInt {n : ℤ} (hn : 0 ≤ n) :
      LegacyDec.fromInt n = ⟨((n.toNat * precision : ℕ) : ℤ)⟩ := by
    rw [← LegacyDec.fromInt_natCast, Int.toNat_of_nonneg hn]
  have hrate : (LegacyDec.fromInt r.nativeTokenAmount).quo (LegacyDec.fromInt r.stTokenAmount) =
      .ok ⟨(impliedRate r : ℕ)⟩ := by
    rw [hfromInt hN, hfromInt hS.le, LegacyDec.quo_natCast _ _
      (Nat.mul_pos (Int.lt_toNat.mpr hS) precision_pos), impliedRate]
  unfold impliedStTokens impliedBurn
  rw [hrate, hfromInt hnative]
  generalize impliedRate r = m
  rcases Nat.eq_zero_or_pos m with rfl | hm
  · rfl
  · rw [if_neg hm.ne', ← scaledQuo_div precision_pos precision_even hm]
    exact bind_eq_ok.mpr ⟨_, rfl, bind_eq_ok.mpr ⟨_, LegacyDec.quo_natCast _ _ hm, rfl⟩⟩

/-! ## Covered records -/

/-- However the native tokens of a record but the last one are cut in parts, the stTokens
    of the parts are covered by the record. -/
def PartsWithin (r : HostZoneUnbonding) : Prop :=
  ∀ parts : List ℕ, (parts.sum : ℤ) < r.nativeTokenAmount →
    ((parts.map (impliedBurn r)).sum : ℤ) ≤ r.stTokenAmount

/-- A record that can be paid in parts: its implied rate is not zero, and it covers every
    division in parts. -/
def PartsCovered (r : HostZoneUnbonding) : Prop := 0 < impliedRate r ∧ PartsWithin r

/-- Every record covers its parts. The first record of a submission is also safe if it has
    a single native token, since every batch reaches it and pays it at once. -/
def BurnsCovered : EpochRecords → Prop
  | [] => True
  | p :: recs => (p.2.nativeTokenAmount = 1 ∨ PartsCovered p.2) ∧ ∀ q ∈ recs, PartsCovered q.2

private theorem sum_map_eq_zero_of_sum_eq_zero (hf : f 0 = 0) (h : parts.sum = 0) :
    (parts.map f).sum = 0 := by
  apply sum_map_eq_zero
  intro b hb
  rw [sum_eq_zero_iff.mp h b hb, hf]

private theorem partsWithin_of_eq_one (h : r.nativeTokenAmount = 1) (hS : 0 < r.stTokenAmount) :
    PartsWithin r := by
  intro parts hsum
  have hzero : parts.sum = 0 := by omega
  rw [sum_map_eq_zero_of_sum_eq_zero (impliedBurn_zero r) hzero]
  exact hS.le

/-- **Closed form**: below the implied rate `2` a record covers its parts exactly when it
    covers all of its native tokens but one, taken at once. -/
theorem partsCovered_iff_of_rate_lt (hN : 0 < r.nativeTokenAmount) (hS : 0 < r.stTokenAmount)
    (hlt : impliedRate r < 2 * precision) :
    PartsCovered r ↔ 0 < impliedRate r ∧
      (r.nativeTokenAmount - 1) * precision < (r.stTokenAmount + 1) * impliedRate r := by
  obtain ⟨N, hNe⟩ := Int.eq_ofNat_of_zero_le hN.le
  obtain ⟨S, hSe⟩ := Int.eq_ofNat_of_zero_le hS.le
  unfold PartsCovered PartsWithin
  rw [hNe, hSe]
  apply and_congr_right
  intro hpos
  rw [funext (impliedBurn_of_rate_lt hpos hlt)]
  have hcast : ((N : ℤ) - 1) * precision < ((S : ℤ) + 1) * impliedRate r ↔
      (N - 1) * precision < (S + 1) * impliedRate r := by
    rw [← Int.ofNat_lt, Nat.cast_mul, Nat.cast_sub (by omega)]
    rfl
  rw [hcast, ← Nat.div_lt_iff_lt_mul hpos, Nat.lt_succ_iff]
  constructor
  · intro h
    -- one part as large as possible burns the most
    have hone := h [N - 1] (by rw [sum_singleton]; omega)
    rw [map_singleton, sum_singleton] at hone
    exact_mod_cast hone
  · intro h parts hsum
    have hle : parts.sum ≤ N - 1 := by omega
    have hmono : parts.sum * precision / impliedRate r ≤ (N - 1) * precision / impliedRate r :=
      Nat.div_le_div_right (Nat.mul_le_mul_right _ hle)
    exact_mod_cast (sum_map_mul_div_le precision (impliedRate r) parts).trans (hmono.trans h)

/-! ## One record over successive batches -/

/-- A record as the refresh and the submission leave it. -/
structure Unpaid (r : HostZoneUnbonding) : Prop where
  native_pos : 0 < r.nativeTokenAmount
  st_pos : 0 < r.stTokenAmount
  native : r.nativeTokensToUnbond = r.nativeTokenAmount
  st : r.stTokensToBurn = r.stTokenAmount
  status : r.status = .unbondingInProgress

/-- The record `r₀` became `r` by being paid in `parts`, of which only the last one that
    completes it is not burned at the implied rate. -/
structure PaidInParts (r₀ : HostZoneUnbonding) (parts : List ℕ) (r : HostZoneUnbonding) :
    Prop where
  nativeTokenAmount : r.nativeTokenAmount = r₀.nativeTokenAmount
  stTokenAmount : r.stTokenAmount = r₀.stTokenAmount
  left : r.nativeTokensToUnbond = r₀.nativeTokenAmount - parts.sum
  nonneg : 0 ≤ r.nativeTokensToUnbond
  partly : 0 < r.nativeTokensToUnbond → r.status ≠ .exitTransferQueue ∧
    r.stTokensToBurn = r₀.stTokenAmount - (parts.map (impliedBurn r₀)).sum
  paid : r.nativeTokensToUnbond = 0 → r.status = .exitTransferQueue ∧ r.stTokensToBurn = 0

private theorem Unpaid.paidInParts (h : Unpaid r) : PaidInParts r [] r where
  nativeTokenAmount := rfl
  stTokenAmount := rfl
  left := by simp [h.native]
  nonneg := by rw [h.native]; exact h.native_pos.le
  partly _ := ⟨by rw [h.status]; decide, by simp [h.st]⟩
  paid hzero := absurd hzero (by rw [h.native]; exact h.native_pos.ne')

section PaidInParts

variable (h : PaidInParts r₀ parts r)

include h

private theorem PaidInParts.cascadeReady : CascadeReady r := by
  refine ⟨h.nonneg, fun hexit => ?_⟩
  by_contra hne
  exact (h.partly (lt_of_le_of_ne h.nonneg (Ne.symm hne))).1 hexit

private theorem PaidInParts.status_iff :
    r.status = .exitTransferQueue ↔ r.nativeTokensToUnbond = 0 :=
  ⟨h.cascadeReady.2, fun hzero => (h.paid hzero).1⟩

private theorem PaidInParts.impliedRate_eq : impliedRate r = impliedRate r₀ := by
  rw [impliedRate, impliedRate, h.nativeTokenAmount, h.stTokenAmount]

private theorem PaidInParts.impliedBurn_eq (native : ℕ) :
    impliedBurn r native = impliedBurn r₀ native := by
  rw [impliedBurn, impliedBurn, h.impliedRate_eq]

private theorem PaidInParts.st_nonneg (hwithin : PartsWithin r₀) : 0 ≤ r.stTokensToBurn := by
  rcases h.nonneg.lt_or_eq with hpos | hzero
  · have hsum := hwithin parts (by have := h.left; omega)
    rw [(h.partly hpos).2]
    omega
  · rw [(h.paid hzero.symm).2]

/-- stTokens of a payment that leaves something of the record. -/
theorem PaidInParts.stTokensBurned_of_lt (hr₀ : Unpaid r₀) (hnative : 0 ≤ native)
    (hlt : native < r.nativeTokensToUnbond) :
    stTokensBurned r native =
      if impliedRate r₀ = 0 then goPanic "division by zero"
      else .ok ((impliedBurn r₀ native.toNat : ℕ) : ℤ) := by
  rw [stTokensBurned, if_neg (by omega), impliedStTokens_eq _ _ hnative, h.impliedRate_eq,
    h.impliedBurn_eq]
  · rw [h.nativeTokenAmount]
    exact hr₀.native_pos.le
  · rw [h.stTokenAmount]
    exact hr₀.st_pos

/-- **One payment**: a payment of `min r.nativeTokensToUnbond rest` is one more part. -/
theorem PaidInParts.step (hr₀ : Unpaid r₀) (htally : 0 ≤ tally.totalNativeTokensUnbonded)
    (hstep : recordStep (undelegationBody time) tally (e, r) = .ok (tally', q)) :
    q.1 = e ∧
    PaidInParts r₀
      (parts ++ [(min r.nativeTokensToUnbond tally.totalNativeTokensUnbonded).toNat]) q.2 ∧
    tally'.totalNativeTokensUnbonded = tally.totalNativeTokensUnbonded -
      min r.nativeTokensToUnbond tally.totalNativeTokensUnbonded ∧
    tally'.totalStTokensToBurn = tally.totalStTokensToBurn +
      (r.stTokensToBurn - q.2.stTokensToBurn) := by
  have hleft := h.left
  have hnn := h.nonneg
  rcases recordStep_undelegationBody hstep with ⟨hexit, rfl, rfl⟩ | ⟨hexit, st, hst, rfl, rfl⟩
  · -- nothing is left of the record, so the part is empty
    have hzero : r.nativeTokensToUnbond = 0 := h.status_iff.mp hexit
    have hmin : min r.nativeTokensToUnbond tally'.totalNativeTokensUnbonded = 0 := by omega
    rw [hmin]
    refine ⟨rfl, ⟨h.nativeTokenAmount, h.stTokenAmount, ?_, hnn, ?_, h.paid⟩, ?_, ?_⟩
    · simp [hleft]
    · intro hpos
      exact absurd hzero hpos.ne'
    · ring
    · ring
  · have hpos : 0 < r.nativeTokensToUnbond :=
      lt_of_le_of_ne hnn fun hzero => hexit (h.status_iff.mpr hzero.symm)
    obtain ⟨native, hnative⟩ : ∃ native : ℕ,
        min r.nativeTokensToUnbond tally.totalNativeTokensUnbonded = native :=
      Int.eq_ofNat_of_zero_le (by omega)
    rw [hnative] at hst
    rw [hnative, Int.toNat_natCast]
    refine ⟨rfl, ⟨h.nativeTokenAmount, h.stTokenAmount, ?_, ?_, fun hrest => ?_, fun hrest => ?_⟩,
      rfl, ?_⟩
    · simp only [afterUndelegation, hleft, sum_append, sum_singleton, Nat.cast_add]
      ring
    · simp only [afterUndelegation]
      omega
    · simp only [afterUndelegation] at hrest ⊢
      rw [h.stTokensBurned_of_lt hr₀ (Int.natCast_nonneg _) (by omega)] at hst
      split at hst
      · cases hst
      cases hst
      refine ⟨?_, ?_⟩
      · rw [if_neg (by omega)]
        exact hexit
      · rw [(h.partly hpos).2, map_append, sum_append, map_singleton,
          sum_singleton, Int.toNat_natCast, Nat.cast_add]
        ring
    · simp only [afterUndelegation] at hrest ⊢
      rw [stTokensBurned, if_pos hrest] at hst
      cases hst
      simp [hrest]
    · simp only [afterUndelegation]
      ring

/-- **Progress**: a payment goes through if the implied rate is not zero, or if it reaches
    the last native token. -/
theorem PaidInParts.step_ok (hr₀ : Unpaid r₀) (e time : ℕ)
    (htally : 0 ≤ tally.totalNativeTokensUnbonded)
    (hok : 0 < impliedRate r₀ ∨ r.nativeTokensToUnbond ≤ tally.totalNativeTokensUnbonded) :
    ∃ tally' q, recordStep (undelegationBody time) tally (e, r) = .ok (tally', q) := by
  by_cases hexit : r.status = .exitTransferQueue
  · exact ⟨tally, (e, r), by simp [recordStep, undelegationBody, hexit]⟩
  · have hst : ∃ st, stTokensBurned r
        (min r.nativeTokensToUnbond tally.totalNativeTokensUnbonded) = .ok st := by
      rcases lt_or_ge tally.totalNativeTokensUnbonded r.nativeTokensToUnbond with hlt | hge
      · have hrate : impliedRate r₀ ≠ 0 := by
          rcases hok with hrate | hle
          · exact hrate.ne'
          · omega
        rw [min_eq_right hlt.le, h.stTokensBurned_of_lt hr₀ htally hlt, if_neg hrate]
        exact ⟨_, rfl⟩
      · rw [min_eq_left hge, stTokensBurned, sub_self]
        exact ⟨_, rfl⟩
    obtain ⟨st, hst⟩ := hst
    exact ⟨_, _, by simp only [recordStep, undelegationBody, hexit, if_false, hst]; rfl⟩

/-- **One record**: the cascade goes through. -/
theorem PaidInParts.step_progress (hr₀ : Unpaid r₀) (hwithin : PartsWithin r₀) (e time : ℕ)
    (htally : 0 ≤ tally.totalNativeTokensUnbonded)
    (hok : 0 < impliedRate r₀ ∨ r.nativeTokensToUnbond ≤ tally.totalNativeTokensUnbonded) :
    ∃ tally' r', recordStep (undelegationBody time) tally (e, r) = .ok (tally', (e, r')) ∧
      (∃ parts', PaidInParts r₀ parts' r') ∧ 0 ≤ tally'.totalNativeTokensUnbonded ∧
      tally'.totalStTokensToBurn = tally.totalStTokensToBurn +
        (r.stTokensToBurn - r'.stTokensToBurn) ∧ r'.stTokensToBurn ≤ r.stTokensToBurn := by
  obtain ⟨tally', ⟨e', r'⟩, hstep⟩ := h.step_ok hr₀ e time htally hok
  obtain ⟨rfl, h', hnative, hburn⟩ := h.step hr₀ htally hstep
  refine ⟨tally', r', hstep, ⟨_, h'⟩, by omega, hburn, ?_⟩
  rcases h'.nonneg.lt_or_eq with hpos | hzero
  · have hleft := h.left
    have hleft' := h'.left
    have hposr : 0 < r.nativeTokensToUnbond := by
      rw [sum_append] at hleft'
      omega
    rw [(h.partly hposr).2, (h'.partly hpos).2, map_append, sum_append]
    omega
  · rw [(h'.paid hzero.symm).2]
    exact h.st_nonneg hwithin

end PaidInParts

/-! ## Whole submissions over successive batches -/

/-- Each record was paid in parts of its own. -/
def AllPaidInParts (recs out : EpochRecords) : Prop :=
  List.Forall₂ (AtSameEpoch fun r₀ r => ∃ parts, PaidInParts r₀ parts r) recs out

private theorem allPaidInParts_refl (h : ∀ p ∈ recs, Unpaid p.2) : AllPaidInParts recs recs :=
  forall₂_same.mpr fun p hp => ⟨rfl, [], (h p hp).paidInParts⟩

/-- The cascade goes through, and its burn is what it takes off the records, which is not
    negative. -/
def CascadeProgress (time : ℕ) (recs₀ recs : EpochRecords)
    (tally : UndelegationTally) : Prop :=
  ∃ tally' out, mapAccum (recordStep (undelegationBody time)) tally recs = .ok (tally', out) ∧
    AllPaidInParts recs₀ out ∧
    tally'.totalStTokensToBurn = tally.totalStTokensToBurn +
      ((recs.map fun p => p.2.stTokensToBurn).sum - (out.map fun p => p.2.stTokensToBurn).sum) ∧
    tally.totalStTokensToBurn ≤ tally'.totalStTokensToBurn

private theorem CascadeProgress.cons (he : q₀.1 = q.1) (h : PaidInParts q₀.2 parts q.2)
    (hq₀ : Unpaid q₀.2)
    (hwithin : PartsWithin q₀.2) (htally : 0 ≤ tally.totalNativeTokensUnbonded)
    (hok : 0 < impliedRate q₀.2 ∨ q.2.nativeTokensToUnbond ≤ tally.totalNativeTokensUnbonded)
    (hrest : ∀ tally' : UndelegationTally, 0 ≤ tally'.totalNativeTokensUnbonded →
      CascadeProgress time recs₀ recs tally') :
    CascadeProgress time (q₀ :: recs₀) (q :: recs) tally := by
  obtain ⟨tally₁, r', hstep, hparts', hnn, hburn, hle⟩ :=
    h.step_progress hq₀ hwithin q.1 time htally hok
  obtain ⟨tally', out, hrun, hout, hburn', hle'⟩ := hrest tally₁ hnn
  refine ⟨tally', (q.1, r') :: out, mapAccum_cons_ok.mpr ⟨_, _, _, hstep, hrun, rfl⟩,
    .cons ⟨he, hparts'⟩ hout, ?_, by omega⟩
  simp only [map_cons, sum_cons]
  omega

/-- **Cascade progress**, over records that cover their parts. -/
theorem cascade_progress (hpaid : AllPaidInParts recs₀ recs) (hunpaid : ∀ p ∈ recs₀, Unpaid p.2)
    (hcovered : ∀ p ∈ recs₀, PartsCovered p.2) (htally : 0 ≤ tally.totalNativeTokensUnbonded) :
    CascadeProgress time recs₀ recs tally := by
  induction hpaid generalizing tally with
  | nil => exact ⟨tally, [], rfl, .nil, by simp, le_rfl⟩
  | cons hp _ ih =>
    obtain ⟨he, parts, hparts⟩ := hp
    obtain ⟨hu, hunpaid'⟩ := forall_mem_cons.mp hunpaid
    obtain ⟨hc, hcovered'⟩ := forall_mem_cons.mp hcovered
    exact .cons he hparts hu hc.2 htally (.inl hc.1) fun _ => ih hunpaid' hcovered'

/-- The same for a positive batch, where the first record need not cover its parts if it
    has a single native token. -/
theorem cascade_progress_of_burnsCovered (hpaid : AllPaidInParts recs₀ recs)
    (hunpaid : ∀ p ∈ recs₀, Unpaid p.2) (hcovered : BurnsCovered recs₀) (hnative : 0 < native) :
    CascadeProgress time recs₀ recs ⟨native, 0⟩ := by
  cases hpaid with
  | nil => exact ⟨⟨native, 0⟩, [], rfl, .nil, by simp, le_rfl⟩
  | cons hp hrest =>
    obtain ⟨he, parts, hparts⟩ := hp
    obtain ⟨hu, hunpaid'⟩ := forall_mem_cons.mp hunpaid
    obtain ⟨hhead, hcovered'⟩ := hcovered
    rcases hhead with hone | hc
    · have hleft := hparts.left
      exact .cons he hparts hu (partsWithin_of_eq_one hone hu.st_pos) hnative.le
        (.inr (by dsimp only; omega)) fun _ => cascade_progress hrest hunpaid' hcovered'
    · exact .cons he hparts hu hc.2 hnative.le (.inl hc.1) fun _ =>
        cascade_progress hrest hunpaid' hcovered'

/-- **Run progress**: positive batches that are covered by what the records have left go
    through one after the other. -/
theorem cascadeBatches_progress (hostDenom : String) (hpaid : AllPaidInParts recs₀ recs)
    (hunpaid : ∀ p ∈ recs₀, Unpaid p.2) (hcovered : BurnsCovered recs₀)
    (hpos : ∀ b ∈ batches, 0 < b.nativeTokens)
    (hsum : (batches.map UndelegatedBatch.nativeTokens).sum ≤
      (recs.map fun p => p.2.nativeTokensToUnbond).sum) (burned : ℤ) :
    ∃ out burned', batches.foldlM (cascadeBatch hostDenom) (recs, burned) = .ok (out, burned') ∧
      AllPaidInParts recs₀ out ∧
      burned' = burned + ((recs.map fun p => p.2.stTokensToBurn).sum -
        (out.map fun p => p.2.stTokensToBurn).sum) ∧
      (out.map fun p => p.2.nativeTokensToUnbond).sum =
        (recs.map fun p => p.2.nativeTokensToUnbond).sum -
          (batches.map UndelegatedBatch.nativeTokens).sum := by
  induction batches generalizing recs burned with
  | nil => exact ⟨recs, burned, rfl, hpaid, by ring, by simp⟩
  | cons b batches ih =>
    obtain ⟨hb, hpos'⟩ := forall_mem_cons.mp hpos
    rw [map_cons, sum_cons] at hsum
    have hrestnn : 0 ≤ (batches.map UndelegatedBatch.nativeTokens).sum :=
      sum_map_nonneg fun b' hb' => (hpos' b' hb').le
    obtain ⟨tally, out₁, hrun, hpaid₁, hburn, hnn⟩ :=
      cascade_progress_of_burnsCovered hpaid hunpaid hcovered hb
    dsimp only at hburn
    have hready : ∀ p ∈ recs, CascadeReady p.2 := by
      intro p hp
      obtain ⟨_, _, _, _, hparts⟩ := forall₂_exists_left hpaid hp
      exact hparts.cascadeReady
    -- the batch fits, so all of it is taken off the records
    obtain ⟨hsum₁, -⟩ := cascade_of_covered hrun hready hb.le (by dsimp only; omega)
    dsimp only at hsum₁
    obtain ⟨out, burned', hruns, hout, hburned, hsum'⟩ :=
      ih hpaid₁ hpos' (by omega) (burned + tally.totalStTokensToBurn)
    refine ⟨out, burned', ?_, hout, by omega, ?_⟩
    · exact bind_eq_ok.mpr ⟨_, cascadeBatch_eq_ok.mpr ⟨tally, hrun, hnn, rfl⟩, hruns⟩
    · rw [map_cons, sum_cons]
      omega

/-! ## Batches over the store -/

section Store

variable {hostZone : HostZone} {s s' : BurnState}

variable (hnd : (recs.map Prod.fst).Nodup)

include hnd

section

variable (hrecs : Fetched s.records hostZone.chainId recs)
include hrecs

theorem burnBatch_ok (h : burnBatch hostZone (recs.map Prod.fst) s batch = .ok s') :
    ∃ out, cascadeBatch hostZone.hostDenom (recs, s.burned) batch = .ok (out, s'.burned) ∧
      out.map Prod.fst = recs.map Prod.fst ∧ Fetched s'.records hostZone.chainId out := by
  obtain ⟨⟨tally, records⟩, hcascade, h⟩ := bind_eq_ok.mp h
  obtain ⟨coin, hcoin, h⟩ := bind_eq_ok.mp h
  obtain ⟨hnn, rfl⟩ := newCoin_eq_ok.mp hcoin
  cases h
  obtain ⟨recs₁, out, hfst, hfst', hrecs₁, hout, hrun, -⟩ :=
    forEachHostZoneUnbonding_spec (keepsHostZoneId_undelegationBody _) hnd hcascade
  obtain rfl : recs₁ = recs := hrecs₁.ext hrecs hfst
  exact ⟨out, cascadeBatch_eq_ok.mpr ⟨tally, hrun, hnn, rfl⟩, hfst', hout⟩

private theorem burnBatch_of_cascadeBatch
    (h : cascadeBatch hostZone.hostDenom (recs, s.burned) batch = .ok (out, burned')) :
    ∃ records, burnBatch hostZone (recs.map Prod.fst) s batch = .ok ⟨records, burned'⟩ ∧
      out.map Prod.fst = recs.map Prod.fst ∧ Fetched records hostZone.chainId out := by
  obtain ⟨tally, hrun, hnn, rfl⟩ := cascadeBatch_eq_ok.mp h
  obtain ⟨records, hcascade, hout, -⟩ :=
    forEachHostZoneUnbonding_of_mapAccum _ (keepsHostZoneId_undelegationBody _) hnd hrecs hrun
  refine ⟨records, ?_, (map_fst_eq_of_atSameEpoch (cascade_forall₂ hrun)).symm, hout⟩
  exact bind_eq_ok.mpr ⟨_, hcascade, bind_eq_ok.mpr ⟨_, newCoin_eq_ok.mpr ⟨hnn, rfl⟩, rfl⟩⟩

/-- **Simulation**: successive batches over the store are successive batches over the
    records they name. -/
theorem burnBatches_ok (h : burnBatches hostZone (recs.map Prod.fst) s batches = .ok s') :
    ∃ out, batches.foldlM (cascadeBatch hostZone.hostDenom) (recs, s.burned) =
        .ok (out, s'.burned) ∧
      out.map Prod.fst = recs.map Prod.fst ∧ Fetched s'.records hostZone.chainId out := by
  induction batches generalizing s recs with
  | nil =>
    cases h
    exact ⟨recs, rfl, rfl, hrecs⟩
  | cons b batches ih =>
    obtain ⟨s₁, hb, hrest⟩ := bind_eq_ok.mp h
    obtain ⟨out₁, hb', hfst, hout₁⟩ := burnBatch_ok hnd hrecs hb
    rw [← hfst] at hrest hnd
    obtain ⟨out, hruns, hfst', hout⟩ := ih hnd hout₁ hrest
    refine ⟨out, ?_, hfst'.trans hfst, hout⟩
    exact bind_eq_ok.mpr ⟨_, hb', hruns⟩

private theorem burnBatches_of_cascadeBatches
    (h : batches.foldlM (cascadeBatch hostZone.hostDenom) (recs, s.burned) =
      .ok (out, burned')) :
    ∃ records, burnBatches hostZone (recs.map Prod.fst) s batches = .ok ⟨records, burned'⟩ ∧
      Fetched records hostZone.chainId out := by
  induction batches generalizing s recs with
  | nil =>
    cases h
    exact ⟨s.records, rfl, hrecs⟩
  | cons b batches ih =>
    obtain ⟨⟨out₁, burned₁⟩, hb, hrest⟩ := bind_eq_ok.mp h
    obtain ⟨records₁, hb', hfst, hout₁⟩ := burnBatch_of_cascadeBatch hnd hrecs hb
    rw [← hfst] at hnd
    obtain ⟨records, hruns, hout⟩ := ih (s := ⟨records₁, burned₁⟩) hnd hout₁ hrest
    rw [hfst] at hruns
    refine ⟨records, ?_, hout⟩
    exact bind_eq_ok.mpr ⟨_, hb', hruns⟩

end

end Store

/-- **Refinement**: a success callback that ends well is a batch over the records that it has
    marked, and takes what the batch burns out of the deposit account and the supply. -/
theorem burnBatch_of_undelegateCallback {k k' : UnbondingKeeper} {callback : UndelegateCallback}
    {msgResponses : List (Option ℤ)}
    (h : undelegateCallback k callback ⟨.success, msgResponses⟩ = .ok k') :
    ∃ marked time burned, markUndelegationAckReceived k callback = .ok marked ∧
      burnBatch k.hostZone callback.epochUnbondingRecordIds ⟨marked.epochUnbondingRecords, 0⟩
          ⟨calculateTotalUnbondedInBatch callback.splitUndelegations, time⟩ =
        .ok ⟨k'.epochUnbondingRecords, burned⟩ ∧
      k'.bank = ⟨k.bank.depositBalance - burned, k.bank.supply - burned⟩ := by
  unfold undelegateCallback at h
  split at h
  · cases h
  obtain ⟨marked, hmark, h⟩ := bind_eq_ok.mp h
  obtain ⟨time, -, h⟩ := bind_eq_ok.mp h
  obtain ⟨z, hbalances, h⟩ := bind_eq_ok.mp h
  obtain ⟨⟨tally, records⟩, hcascade, h⟩ := bind_eq_ok.mp h
  obtain ⟨bank, hburn, h⟩ := bind_eq_ok.mp h
  cases h
  -- neither the counters nor the delegations are part of the settings of the zone
  obtain ⟨z₁, hdec, hmarked⟩ := bind_eq_ok.mp hmark
  obtain ⟨_, -, hmarked⟩ := bind_eq_ok.mp hmarked
  cases hmarked
  have hz₁ : z₁.settings = k.hostZone.settings := settings_foldlM
    (fun _ _ _ => settings_decrementValidatorDelegationChangesInProgress) hdec
  have hz : z.settings = k.hostZone.settings :=
    (settings_foldlM (fun _ _ _ => settings_addDelegationToValidator) hbalances).trans hz₁
  have hdenom : z.hostDenom = k.hostZone.hostDenom := congrArg (fun z => z.hostDenom) hz
  rw [HostZone.chainId_eq_of_settings hz₁] at hcascade
  obtain ⟨coin, hcoin, hburn⟩ := bind_eq_ok.mp hburn
  split at hburn
  · cases hburn
  cases hburn
  obtain ⟨hnn, -⟩ := newCoin_eq_ok.mp hcoin
  refine ⟨_, time, tally.totalStTokensToBurn, hmark, ?_, rfl⟩
  refine bind_eq_ok.mpr ⟨_, hcascade, bind_eq_ok.mpr ⟨_, newCoin_eq_ok.mpr ⟨hnn, rfl⟩, ?_⟩⟩
  rw [zero_add]
  rfl

/-! ## Overshooting records -/

/-- A batch that does not reach a record still evaluates its implied rate. -/
private theorem impliedRate_pos_of_step (hr : Unpaid r)
    (htally : 0 ≤ tally.totalNativeTokensUnbonded)
    (hlt : tally.totalNativeTokensUnbonded < r.nativeTokenAmount)
    (hstep : recordStep (undelegationBody time) tally (e, r) = .ok (tally', q)) :
    0 < impliedRate r := by
  have hlt' : tally.totalNativeTokensUnbonded < r.nativeTokensToUnbond := by
    rw [hr.native]
    exact hlt
  rcases recordStep_undelegationBody hstep with ⟨hexit, -, -⟩ | ⟨-, st, hst, -, -⟩
  · rw [hr.status] at hexit
    cases hexit
  · rw [min_eq_right hlt'.le, hr.paidInParts.stTokensBurned_of_lt hr htally hlt'] at hst
    split at hst
    · cases hst
    exact Nat.pos_of_ne_zero ‹_›

/-- An exhausted batch evaluates the implied rate of every record it still visits. -/
private theorem impliedRate_pos_of_cascade (hunpaid : ∀ p ∈ recs, Unpaid p.2)
    (htally : tally.totalNativeTokensUnbonded = 0)
    (hrun : mapAccum (recordStep (undelegationBody time)) tally recs = .ok (tally', out)) :
    ∀ p ∈ recs, 0 < impliedRate p.2 := by
  induction recs generalizing tally out with
  | nil => exact forall_mem_nil _
  | cons p recs ih =>
    obtain ⟨tally₁, q, out', hstep, hrest, rfl⟩ := mapAccum_cons_ok.mp hrun
    obtain ⟨hu, hunpaid'⟩ := forall_mem_cons.mp hunpaid
    obtain ⟨-, -, hnative, -⟩ := hu.paidInParts.step hu htally.ge hstep
    have hposr := hu.native_pos
    have hleft := hu.native
    refine forall_mem_cons.mpr ⟨?_, ih hunpaid' (by omega) hrest⟩
    exact impliedRate_pos_of_step hu htally.ge (by omega) hstep

/-- A batch that pays the first records exactly leaves them completed and is exhausted. -/
private theorem cascade_exhausted (hunpaid : ∀ p ∈ recs, Unpaid p.2)
    (htally : tally.totalNativeTokensUnbonded =
      (recs.map fun p => p.2.nativeTokensToUnbond).sum)
    (hrun : mapAccum (recordStep (undelegationBody time)) tally recs = .ok (tally', out)) :
    tally'.totalNativeTokensUnbonded = 0 ∧ ∀ p ∈ out, p.2.status = .exitTransferQueue := by
  induction recs generalizing tally out with
  | nil =>
    cases hrun
    exact ⟨htally, forall_mem_nil _⟩
  | cons p recs ih =>
    obtain ⟨tally₁, q, out', hstep, hrest, rfl⟩ := mapAccum_cons_ok.mp hrun
    obtain ⟨hu, hunpaid'⟩ := forall_mem_cons.mp hunpaid
    have hrestnn : 0 ≤ (recs.map fun p => p.2.nativeTokensToUnbond).sum :=
      sum_map_nonneg fun p' hp' => by
        rw [(hunpaid' p' hp').native]
        exact (hunpaid' p' hp').native_pos.le
    have hposr := hu.native_pos
    have hleft := hu.native
    rw [map_cons, sum_cons] at htally
    obtain ⟨-, hq, hnative, -⟩ := hu.paidInParts.step hu (by omega) hstep
    -- what is left of the batch covers the record
    have hqleft : q.2.nativeTokensToUnbond = 0 := by
      rw [hq.left, nil_append, sum_singleton]
      omega
    obtain ⟨hzero, hexit⟩ := ih hunpaid' (by omega) hrest
    exact ⟨hzero, forall_mem_cons.mpr ⟨(hq.paid hqleft).1, hexit⟩⟩

private theorem cascade_skips {rest : EpochRecords}
    (hexit : ∀ p ∈ recs, p.2.status = .exitTransferQueue)
    (hrun : mapAccum (recordStep (undelegationBody time)) tally (recs ++ rest) =
      .ok (tally', out)) :
    ∃ rest', mapAccum (recordStep (undelegationBody time)) tally rest = .ok (tally', rest') ∧
      out = recs ++ rest' := by
  induction recs generalizing out with
  | nil => exact ⟨out, hrun, rfl⟩
  | cons p recs ih =>
    obtain ⟨hp, hexit'⟩ := forall_mem_cons.mp hexit
    obtain ⟨tally₁, q, out', hstep, hrest, rfl⟩ := mapAccum_cons_ok.mp hrun
    rcases recordStep_undelegationBody hstep with ⟨-, rfl, rfl⟩ | ⟨hne, -⟩
    · obtain ⟨rest', hrest', rfl⟩ := ih hexit' hrest
      exact ⟨rest', hrest', rfl⟩
    · exact absurd hp hne

def UndelegatedBatch.ofNative (native : ℕ) : UndelegatedBatch := ⟨native, 0⟩

/-- Batches behind completed records pay the next record part by part. -/
private theorem cascadeBatches_parts {done : List ℕ}
    (hexit : ∀ p ∈ pre, p.2.status = .exitTransferQueue) (hr₀ : Unpaid r₀)
    (hr : PaidInParts r₀ done r) (hlt : ((parts.sum : ℕ) : ℤ) < r.nativeTokensToUnbond)
    (hrun : (parts.map UndelegatedBatch.ofNative).foldlM (cascadeBatch hostDenom)
      (pre ++ (e, r) :: post, burned) = .ok (out, burned')) :
    ∃ r' post', out = pre ++ (e, r') :: post' ∧ PaidInParts r₀ (done ++ parts) r' := by
  induction parts generalizing r post done burned with
  | nil =>
    cases hrun
    exact ⟨r, post, rfl, by rw [append_nil]; exact hr⟩
  | cons b parts ih =>
    rw [sum_cons] at hlt
    obtain ⟨⟨out₁, burned₁⟩, hb, hrest⟩ := bind_eq_ok.mp hrun
    obtain ⟨tally, hcascade, -, -⟩ := cascadeBatch_eq_ok.mp hb
    obtain ⟨rest', hrest', rfl⟩ := cascade_skips hexit hcascade
    obtain ⟨tally₁, ⟨e', r'⟩, post', hstep, -, rfl⟩ := mapAccum_cons_ok.mp hrest'
    obtain ⟨rfl, hr', -, -⟩ := hr.step hr₀ (Int.natCast_nonneg b) hstep
    replace hr' : PaidInParts r₀ (done ++ [b]) r' := by
      -- the part fits, so the record is paid exactly it
      have hmin : (min r.nativeTokensToUnbond (b : ℤ)).toNat = b := by omega
      rw [← hmin]
      exact hr'
    have hleft := hr.left
    have hleft' := hr'.left
    rw [sum_append, sum_singleton] at hleft'
    obtain ⟨r'', post'', rfl, hparts⟩ := ih hr' (by omega) hrest
    rw [append_assoc] at hparts
    exact ⟨r'', post'', rfl, hparts⟩

private theorem sum_map_filter_pos (hf : f 0 = 0) (parts : List ℕ) :
    ((parts.filter (0 < ·)).map f).sum = (parts.map f).sum := by
  induction parts with
  | nil => rfl
  | cons b parts ih =>
    rcases Nat.eq_zero_or_pos b with rfl | hb
    · simp [hf, ih]
    · simp [hb, ih]

/-! ## Main result -/

/-- What holds after batches of `native` tokens turned the records `recs` into `out` and
    burned `burned` stTokens: amounts left are not negative, no record has burned more than
    its stTokens, and once all is paid all is burned. -/
structure BurnWithin (recs out : EpochRecords) (native burned : ℤ) :
    Prop where
  records : List.Forall₂ (AtSameEpoch fun r r' =>
    0 ≤ r'.nativeTokensToUnbond ∧ 0 ≤ r'.stTokensToBurn ∧
      r.stTokensToBurn - r'.stTokensToBurn ≤ r.stTokenAmount) recs out
  burned_eq : burned =
    (recs.map fun p => p.2.stTokensToBurn).sum - (out.map fun p => p.2.stTokensToBurn).sum
  complete : native = (recs.map fun p => p.2.nativeTokenAmount).sum →
    burned = (recs.map fun p => p.2.stTokenAmount).sum ∧
      ∀ p ∈ out, p.2.status = .exitTransferQueue

section MainResult

private theorem partsWithin_of_burnsCovered (hunpaid : ∀ p ∈ recs, Unpaid p.2)
    (h : BurnsCovered recs) : ∀ p ∈ recs, PartsWithin p.2 := by
  cases recs with
  | nil => exact forall_mem_nil _
  | cons p recs =>
    obtain ⟨hhead, htail⟩ := h
    refine forall_mem_cons.mpr ⟨?_, fun q hq => (htail q hq).2⟩
    rcases hhead with hone | hc
    · exact partsWithin_of_eq_one hone (hunpaid p mem_cons_self).st_pos
    · exact hc.2

variable (hostDenom) in
private theorem burnWithin_of_burnsCovered (hunpaid : ∀ p ∈ recs, Unpaid p.2)
    (hcovered : BurnsCovered recs) (hpos : ∀ b ∈ batches, 0 < b.nativeTokens)
    (hsum : (batches.map UndelegatedBatch.nativeTokens).sum ≤
      (recs.map fun p => p.2.nativeTokenAmount).sum) :
    ∃ out burned, batches.foldlM (cascadeBatch hostDenom) (recs, 0) = .ok (out, burned) ∧
      BurnWithin recs out (batches.map UndelegatedBatch.nativeTokens).sum burned := by
  have hnative : (recs.map fun p => p.2.nativeTokensToUnbond) =
      recs.map fun p => p.2.nativeTokenAmount :=
    map_congr_left fun p hp => (hunpaid p hp).native
  have hst : (recs.map fun p => p.2.stTokensToBurn) = recs.map fun p => p.2.stTokenAmount :=
    map_congr_left fun p hp => (hunpaid p hp).st
  obtain ⟨out, burned, hrun, hpaid, hburned, hleft⟩ :=
    cascadeBatches_progress hostDenom (allPaidInParts_refl hunpaid) hunpaid hcovered hpos
      (by rw [hnative]; exact hsum) 0
  rw [zero_add] at hburned
  refine ⟨out, burned, hrun, ⟨?_, hburned, fun hall => ?_⟩⟩
  · have hwithin := partsWithin_of_burnsCovered hunpaid hcovered
    have hmem : List.Forall₂ (fun p q => p ∈ recs ∧
        AtSameEpoch (fun r₀ r => ∃ parts, PaidInParts r₀ parts r) p q) recs out :=
      (forall₂_and_left _ _).mpr ⟨fun _ hp => hp, hpaid⟩
    refine hmem.imp fun p q hpq => ?_
    obtain ⟨hp, he, parts, hparts⟩ := hpq
    have hnn := hparts.st_nonneg (hwithin p hp)
    refine ⟨he, hparts.nonneg, hnn, ?_⟩
    rw [(hunpaid p hp).st]
    omega
  · -- nothing is left of the records, so each of them is completed
    rw [hnative, hall, sub_self] at hleft
    have hzero : ∀ q ∈ out, q.2.status = .exitTransferQueue ∧ q.2.stTokensToBurn = 0 := by
      have hnn : ∀ x ∈ out.map fun p => p.2.nativeTokensToUnbond, 0 ≤ x := by
        intro x hx
        obtain ⟨q, hq, rfl⟩ := mem_map.mp hx
        obtain ⟨_, _, _, _, hparts⟩ := forall₂_exists_left hpaid hq
        exact hparts.nonneg
      intro q hq
      obtain ⟨_, _, _, _, hparts⟩ := forall₂_exists_left hpaid hq
      exact hparts.paid (all_zero_of_le_zero_le_of_sum_eq_zero hnn hleft
        (mem_map_of_mem hq))
    refine ⟨?_, fun q hq => (hzero q hq).1⟩
    rw [hburned, hst]
    have hout : (out.map fun p => p.2.stTokensToBurn).sum = 0 := by
      apply sum_map_eq_zero
      intro q hq
      exact (hzero q hq).2
    rw [hout, sub_zero]

/-- The batches that complete the first records, if there are any. -/
def completingBatches (pre : EpochRecords) : List UndelegatedBatch :=
  if pre = [] then [] else [⟨(pre.map fun p => p.2.nativeTokensToUnbond).sum, 0⟩]

private theorem completingBatches_pos (hpre : ∀ p ∈ pre, Unpaid p.2) :
    ∀ b ∈ completingBatches pre, 0 < b.nativeTokens := by
  intro b hb
  unfold completingBatches at hb
  split at hb
  · cases hb
  rename_i hne
  rw [mem_singleton.mp hb]
  apply sum_pos
  · intro x hx
    obtain ⟨q, hq, rfl⟩ := mem_map.mp hx
    rw [(hpre q hq).native]
    exact (hpre q hq).native_pos
  · simpa using hne

private theorem sum_completingBatches (hpre : ∀ p ∈ pre, Unpaid p.2) :
    ((completingBatches pre).map UndelegatedBatch.nativeTokens).sum =
      (pre.map fun p => p.2.nativeTokenAmount).sum := by
  have hnative : (pre.map fun p => p.2.nativeTokensToUnbond) =
      pre.map fun p => p.2.nativeTokenAmount :=
    map_congr_left fun p hp => (hpre p hp).native
  unfold completingBatches
  split
  · rename_i hnil
    simp [hnil]
  · simp [hnative]

/-- After these batches the first records are completed and the next one is untouched. -/
private theorem cascadeBatches_completing (hpre : ∀ p ∈ pre, Unpaid p.2) (hr : Unpaid r)
    (hrun : (completingBatches pre ++ batches).foldlM (cascadeBatch hostDenom)
      (pre ++ (e, r) :: post, burned) = .ok (out, burned')) :
    ∃ pre' r' post' burned₁ done,
      batches.foldlM (cascadeBatch hostDenom) (pre' ++ (e, r') :: post', burned₁) =
        .ok (out, burned') ∧
      (∀ p ∈ pre', p.2.status = .exitTransferQueue) ∧ PaidInParts r done r' ∧ done.sum = 0 := by
  unfold completingBatches at hrun
  split at hrun
  · rename_i hnil
    subst hnil
    exact ⟨[], r, post, burned, [], hrun, forall_mem_nil _, hr.paidInParts, rfl⟩
  · obtain ⟨⟨out₁, burned₁⟩, hb, hrest⟩ := bind_eq_ok.mp hrun
    obtain ⟨tally, hcascade, -, -⟩ := cascadeBatch_eq_ok.mp hb
    obtain ⟨tally₁, pre', rest', hpre', hrest', rfl⟩ := mapAccum_append_ok.mp hcascade
    obtain ⟨hzero, hexit⟩ := cascade_exhausted hpre rfl hpre'
    obtain ⟨tally₂, ⟨e', r'⟩, post', hstep, -, rfl⟩ := mapAccum_cons_ok.mp hrest'
    obtain ⟨rfl, hr', -, -⟩ := hr.paidInParts.step hr hzero.ge hstep
    refine ⟨pre', r', post', burned₁, _, hrest, hexit, hr', ?_⟩
    rw [hr.native, nil_append, sum_singleton]
    omega

private theorem partsWithin_of_never_overshot (hunpaid : ∀ p ∈ pre ++ (e, r) :: post, Unpaid p.2)
    (h : ∀ batches : List UndelegatedBatch, (∀ b ∈ batches, 0 < b.nativeTokens) →
      (batches.map UndelegatedBatch.nativeTokens).sum ≤
        ((pre ++ (e, r) :: post).map fun p => p.2.nativeTokenAmount).sum →
      ∃ out burned, batches.foldlM (cascadeBatch hostDenom) (pre ++ (e, r) :: post, 0) =
        .ok (out, burned) ∧ ∀ q ∈ out, 0 ≤ q.2.stTokensToBurn) : PartsWithin r := by
  intro parts hlt
  have hpre : ∀ p ∈ pre, Unpaid p.2 := fun p hp => hunpaid p (mem_append_left _ hp)
  have hr : Unpaid r := hunpaid (e, r) (by simp)
  have hpost : 0 ≤ (post.map fun p => p.2.nativeTokenAmount).sum :=
    sum_map_nonneg fun p hp => (hunpaid p (by simp [hp])).native_pos.le
  -- the parts without the empty ones, behind the batches that complete the first records
  have hsumParts : (parts.filter (0 < ·)).sum = parts.sum := by
    have := sum_map_filter_pos (f := id) rfl parts
    rwa [map_id, map_id] at this
  have hbatchSum : (((parts.filter (0 < ·)).map UndelegatedBatch.ofNative).map
      UndelegatedBatch.nativeTokens).sum = (parts.sum : ℤ) := by
    rw [map_map, ← hsumParts, Nat.cast_list_sum]
    rfl
  have hpos : ∀ b ∈ completingBatches pre ++
      (parts.filter (0 < ·)).map UndelegatedBatch.ofNative, 0 < b.nativeTokens := by
    intro b hb
    rcases mem_append.mp hb with hb | hb
    · exact completingBatches_pos hpre b hb
    · obtain ⟨n, hn, rfl⟩ := mem_map.mp hb
      have hn0 : 0 < n := by simpa using (mem_filter.mp hn).2
      exact Int.natCast_pos.mpr hn0
  have hsum : ((completingBatches pre ++
      (parts.filter (0 < ·)).map UndelegatedBatch.ofNative).map
        UndelegatedBatch.nativeTokens).sum ≤
      ((pre ++ (e, r) :: post).map fun p => p.2.nativeTokenAmount).sum := by
    rw [map_append, sum_append, sum_completingBatches hpre, map_append, sum_append, map_cons,
      sum_cons]
    dsimp only
    omega
  obtain ⟨out, burned, hrun, hnn⟩ := h _ hpos hsum
  obtain ⟨pre', r', post', burned₁, done, hrun', hexit, hr', hdone⟩ :=
    cascadeBatches_completing hpre hr hrun
  have hleft := hr'.left
  obtain ⟨r'', post'', rfl, hr''⟩ := cascadeBatches_parts hexit hr hr'
    (by rw [hsumParts]; omega) hrun'
  have hleft' := hr''.left
  rw [sum_append, hsumParts] at hleft'
  have hst := (hr''.partly (by omega)).2
  rw [map_append, sum_append, sum_map_filter_pos (impliedBurn_zero r)] at hst
  have hnonneg : 0 ≤ r''.stTokensToBurn := hnn (e, r'') (by simp)
  omega

/-- A batch of one native token evaluates the implied rate of every record but a first one
    that it completes. -/
private theorem impliedRate_pos_of_one {p : ℕ × HostZoneUnbonding}
    (hunpaid : ∀ q ∈ p :: recs, Unpaid q.2)
    (hrun : [UndelegatedBatch.ofNative 1].foldlM (cascadeBatch hostDenom) (p :: recs, 0) =
      .ok (out, burned)) :
    (p.2.nativeTokenAmount ≠ 1 → 0 < impliedRate p.2) ∧ ∀ q ∈ recs, 0 < impliedRate q.2 := by
  obtain ⟨hu, hunpaid'⟩ := forall_mem_cons.mp hunpaid
  have hpos := hu.native_pos
  have hleft := hu.native
  obtain ⟨⟨out₁, burned₁⟩, hb, -⟩ := bind_eq_ok.mp hrun
  obtain ⟨tally, hcascade, -, -⟩ := cascadeBatch_eq_ok.mp hb
  obtain ⟨tally₁, q, out', hstep, hrest, -⟩ := mapAccum_cons_ok.mp hcascade
  have hone : (UndelegatedBatch.ofNative 1).nativeTokens = 1 := rfl
  obtain ⟨-, -, hnative, -⟩ := hu.paidInParts.step hu (by dsimp only; omega) hstep
  dsimp only at hnative
  refine ⟨fun hne => ?_, impliedRate_pos_of_cascade hunpaid' (by omega) hrest⟩
  exact impliedRate_pos_of_step hu (by dsimp only; omega) (by dsimp only; omega) hstep

variable (hostDenom) in
private theorem burnsCovered_of_burnWithin (hunpaid : ∀ p ∈ recs, Unpaid p.2)
    (h : ∀ batches : List UndelegatedBatch, (∀ b ∈ batches, 0 < b.nativeTokens) →
      (batches.map UndelegatedBatch.nativeTokens).sum ≤
        (recs.map fun p => p.2.nativeTokenAmount).sum →
      ∃ out burned, batches.foldlM (cascadeBatch hostDenom) (recs, 0) = .ok (out, burned) ∧
        BurnWithin recs out (batches.map UndelegatedBatch.nativeTokens).sum burned) :
    BurnsCovered recs := by
  have hwithin : ∀ p ∈ recs, PartsWithin p.2 := by
    intro p hp
    obtain ⟨pre, post, rfl⟩ := append_of_mem hp
    apply partsWithin_of_never_overshot hunpaid
    intro batches hpos hsum
    obtain ⟨out, burned, hrun, hwithin⟩ := h batches hpos hsum
    refine ⟨out, burned, hrun, fun q hq => ?_⟩
    obtain ⟨_, _, _, _, hnn, _⟩ := forall₂_exists_left hwithin.records hq
    exact hnn
  cases recs with
  | nil => trivial
  | cons p recs =>
    have htotal : 0 < ((p :: recs).map fun p => p.2.nativeTokenAmount).sum := by
      apply sum_pos
      · intro x hx
        obtain ⟨q, hq, rfl⟩ := mem_map.mp hx
        exact (hunpaid q hq).native_pos
      · simp
    -- one token evaluates the rate of every record it passes
    obtain ⟨out, burned, hrun, -⟩ := h [UndelegatedBatch.ofNative 1]
      (fun b hb => by rw [mem_singleton.mp hb]; exact Int.one_pos)
      (by simpa [UndelegatedBatch.ofNative] using Int.lt_iff_add_one_le.mp htotal)
    obtain ⟨hhead, htail⟩ := impliedRate_pos_of_one hunpaid hrun
    refine ⟨?_, fun q hq => ⟨htail q hq, hwithin q (mem_cons_of_mem _ hq)⟩⟩
    by_cases hone : p.2.nativeTokenAmount = 1
    · exact .inl hone
    · exact .inr ⟨hhead hone, hwithin p mem_cons_self⟩

/-- **Burning after undelegation**: over every division of the native tokens of freshly
    submitted records into positive batches, the success callbacks end well and never
    overshoot, exactly when the records are covered. -/
theorem burn_within_records_iff {hostZone : HostZone} {records : EpochUnbondingStore}
    (hnd : (recs.map Prod.fst).Nodup) (hrecs : Fetched records hostZone.chainId recs)
    (hunpaid : ∀ p ∈ recs, Unpaid p.2) :
    (∀ batches : List UndelegatedBatch, (∀ b ∈ batches, 0 < b.nativeTokens) →
      (batches.map UndelegatedBatch.nativeTokens).sum ≤
        (recs.map fun p => p.2.nativeTokenAmount).sum →
      ∃ s' out, burnBatches hostZone (recs.map Prod.fst) ⟨records, 0⟩ batches = .ok s' ∧
        Fetched s'.records hostZone.chainId out ∧
        BurnWithin recs out (batches.map UndelegatedBatch.nativeTokens).sum s'.burned) ↔
    BurnsCovered recs := by
  constructor
  · intro h
    apply burnsCovered_of_burnWithin hostZone.hostDenom hunpaid
    intro batches hpos hsum
    obtain ⟨s', out, hrun, hout, hwithin⟩ := h batches hpos hsum
    obtain ⟨out', hrun', hfst, hout'⟩ := burnBatches_ok (s := ⟨records, 0⟩) hnd hrecs hrun
    -- records are determined by their epochs
    obtain rfl : out' = out :=
      hout'.ext hout (hfst.trans (map_fst_eq_of_atSameEpoch hwithin.records))
    exact ⟨out', s'.burned, hrun', hwithin⟩
  · intro hcovered batches hpos hsum
    obtain ⟨out, burned, hrun, hwithin⟩ :=
      burnWithin_of_burnsCovered hostZone.hostDenom hunpaid hcovered hpos hsum
    obtain ⟨records', hrun', hout⟩ :=
      burnBatches_of_cascadeBatches (s := ⟨records, 0⟩) hnd hrecs hrun
    exact ⟨⟨records', burned⟩, out, hrun', hout, hwithin⟩

end MainResult

/-! ## An overshooting record -/

/-- A record of 100 stTokens at the redemption rate 1.1, in progress. -/
def tenPercentRecord : HostZoneUnbonding :=
  ⟨100, 110, 100, 110, 0, 2, "uatom", "host", 0, .unbondingInProgress, ["a"]⟩

private theorem tenPercentRecord_unpaid : Unpaid tenPercentRecord :=
  ⟨by decide, by decide, rfl, rfl, rfl⟩

private theorem tenPercentRecord_covered : BurnsCovered [(1, tenPercentRecord)] := by
  have hrate : impliedRate tenPercentRecord = 1100000000000000000 := by decide +kernel
  refine ⟨.inr ?_, forall_mem_nil _⟩
  rw [partsCovered_iff_of_rate_lt (by decide) (by decide) (by rw [hrate]; decide +kernel)]
  decide +kernel

def tenPercentStore : EpochUnbondingStore :=
  EpochUnbondingStore.empty.setEpochUnbondingRecord ⟨1, [tenPercentRecord]⟩

/-- The main result at this record, paid in two batches. -/
theorem burn_within_records_tenPercent :
    Unpaid tenPercentRecord ∧ BurnsCovered [(1, tenPercentRecord)] ∧
    ∃ s' out, burnBatches twoValidatorZone [1] ⟨tenPercentStore, 0⟩ [⟨60, 5⟩, ⟨50, 6⟩] =
        .ok s' ∧ Fetched s'.records "host" out ∧
      BurnWithin [(1, tenPercentRecord)] out 110 s'.burned := by
  refine ⟨tenPercentRecord_unpaid, tenPercentRecord_covered, ?_⟩
  have hfetched : Fetched tenPercentStore twoValidatorZone.chainId [(1, tenPercentRecord)] := by
    intro p hp
    rw [mem_singleton.mp hp]
    decide
  have hunpaid : ∀ p ∈ [(1, tenPercentRecord)], Unpaid p.2 := by
    intro p hp
    rw [mem_singleton.mp hp]
    exact tenPercentRecord_unpaid
  exact (burn_within_records_iff (by decide) hfetched hunpaid).mpr tenPercentRecord_covered
    [⟨60, 5⟩, ⟨50, 6⟩] (by decide) (by decide)

/-- A zone whose first validator is being removed and is drained by the next unbonding, at
    the redemption rate 1.1. -/
def drainedValidatorZone : HostZone :=
  { twoValidatorZone with
    hostDenom := "aevmos"
    validators :=
      [⟨"val1", "val1", 0, 5500000000000000004, LegacyDec.one, 0, false⟩,
        ⟨"val2", "val2", 1, 100000000000000000000, LegacyDec.one, 0, false⟩]
    totalDelegations := 105500000000000000004
    redemptionRate := ⟨1100000000000000000⟩ }

/-- Three users redeem 1.666666666666666669 stTokens of 18 decimals each. The deposit
    account holds the stTokens of later redemptions too. -/
def threeRedemptions : UnbondingKeeper where
  hostZone := drainedValidatorZone
  epochUnbondingRecords := EpochUnbondingStore.empty.setEpochUnbondingRecord
    ⟨1, [⟨5000000000000000007, 0, 0, 0, 0, 0, "aevmos", "host", 0, .unbondingQueue,
      ["a", "b", "c"]⟩]⟩
  userRedemptionRecords := ((KeyedStore.empty.set (redemptionOf "a" 1666666666666666669)).set
    (redemptionOf "b" 1666666666666666669)).set (redemptionOf "c" 1666666666666666669)
  bank := ⟨50000000000000000000, 90000000000000000000⟩

/-- The submission, followed by the success acknowledgements of its first `n` batches. -/
def threeRedemptionsAcked (n : ℕ) : Result UnbondingKeeper := do
  let (k, txs) ← unbondFromHostZone threeRedemptions fun _ => true
  (txs.take n).foldlM (fun k tx => undelegateCallback k tx.callback ⟨.success, [some 5]⟩) k

/-- **Overshoot**: the refresh sets 5500000000000000005 native tokens for the record. A batch
    of all of them but one burns one stToken more than the record has, and the last batch
    then panics with a negative coin. -/
theorem partial_burn_overshoots :
    (unbondFromHostZone threeRedemptions fun _ => true).map
        (fun result => result.2.map UndelegateTx.amount) =
      .ok [5500000000000000004, 1] ∧
    (threeRedemptionsAcked 0).map (fun k =>
        (hostZoneUnbondings k.epochUnbondingRecords "host" 1).map fun r =>
          (r.nativeTokenAmount, r.stTokenAmount, r.stTokensToBurn)) =
      .ok (some (5500000000000000005, 5000000000000000007, 5000000000000000007)) ∧
    (threeRedemptionsAcked 1).map (fun k =>
        (hostZoneUnbondings k.epochUnbondingRecords "host" 1).map fun r =>
          (r.nativeTokensToUnbond, r.stTokensToBurn)) =
      .ok (some (1, -1)) ∧
    (threeRedemptionsAcked 2).map (fun k => k.bank.supply) =
      .error ⟨.panic, "negative coin amount: -1"⟩ := by
  refine ⟨?_, ?_, ?_, ?_⟩
  · decide +kernel
  · decide +kernel
  · decide +kernel
  · decide +kernel

end Stride.Stakeibc
