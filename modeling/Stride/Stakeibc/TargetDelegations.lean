import Stride.Stakeibc.HostZone
import Mathlib.Algebra.BigOperators.Ring.Finset
import Mathlib.Data.Prod.Lex

/-!
# Target Delegations

`GetTargetValAmtsForHostZone` splits an amount over the validators without a slash query by
their weights, each share rounded down, and gives the rest to the last validator.

## Main results

- `getTargetValAmtsForHostZone_eq`
- `sum_targetDelegation`, `targetDelegation_nonneg`: they divide the amount
-/

namespace Stride.Stakeibc

open Lib Sdk Function List

/-! ## Target delegations in closed form -/

/-- Sort key of the target computation. -/
def weightKey (v : Validator) : ℕ ×ₗ String := toLex (v.weight.toNat, v.address)

private theorem weightOrder_iff {a b : Validator} :
    weightOrder a b ↔ weightKey a ≤ weightKey b := by
  unfold weightOrder weightKey
  rw [Prod.Lex.toLex_le_toLex]
  by_cases h : a.weight = b.weight
  · simp [h]
  · have hne : a.weight.toNat ≠ b.weight.toNat := fun heq => h (UInt64.toNat_inj.mp heq)
    simp [h, hne, UInt64.lt_iff_toNat_lt]

instance : Std.Total weightOrder :=
  ⟨fun a b => by rw [weightOrder_iff, weightOrder_iff]; exact le_total _ _⟩

instance : IsTrans Validator weightOrder :=
  ⟨fun a b c => by simp only [weightOrder_iff]; exact le_trans⟩

/-- The share of `total` by weight, rounded down. -/
def weightShare (validators : List Validator) (total : ℤ) (v : Validator) : ℤ :=
  v.weight.toNat * total / ((validators.map fun w => w.weight.toNat).sum : ℕ)

/-- The balanced delegation of a validator: its share by weight, or for the last validator
    by weight and address what the shares of the others leave. -/
def targetDelegation (validators : List Validator) (total : ℤ) (v : Validator) : ℤ :=
  if ∀ w ∈ validators, weightKey w ≤ weightKey v then
    total - ((validators.filter (·.address ≠ v.address)).map (weightShare validators total)).sum
  else weightShare validators total v

abbrev weightSum (validators : List Validator) : ℕ :=
  (validators.map fun v => v.weight.toNat).sum

private theorem toNat_foldl_add (ws : List UInt64) (a : UInt64)
    (h : a.toNat + (ws.map UInt64.toNat).sum < 2 ^ 64) :
    (ws.foldl (· + ·) a).toNat = a.toNat + (ws.map UInt64.toNat).sum := by
  induction ws generalizing a with
  | nil => simp
  | cons w ws ih =>
    rw [map_cons, sum_cons] at h ⊢
    have hadd : (a + w).toNat = a.toNat + w.toNat := by
      rw [UInt64.toNat_add]
      exact Nat.mod_eq_of_lt (by omega)
    rw [foldl_cons, ih (a + w) (by rw [hadd]; omega)]
    omega

theorem toNat_getTotalValidatorWeight {validators : List Validator}
    (h : weightSum validators < 2 ^ 64) :
    (getTotalValidatorWeight validators).toNat = weightSum validators := by
  unfold getTotalValidatorWeight
  have hmap : ((validators.map Validator.weight).map UInt64.toNat) =
      validators.map fun v => v.weight.toNat := by
    rw [map_map]
    rfl
  rw [toNat_foldl_add, hmap]
  · simp
  · rw [hmap]
    simpa using h

private theorem allocateTargets_spec (total : ℤ) (totalWeight : UInt64) {pre : List Validator}
    {last : Validator} (hnd : ((pre ++ [last]).map Validator.address).Nodup) (allocated : ℤ)
    (targets : String → Option ℤ) :
    let share (v : Validator) := ((v.weight.toNat : ℤ) * total).tdiv totalWeight.toNat
    let result := allocateTargets total totalWeight (pre ++ [last]) allocated targets
    (∀ v ∈ pre, result v.address = some (share v)) ∧
      result last.address = some (total - allocated - (pre.map share).sum) ∧
      ∀ a ∉ (pre ++ [last]).map Validator.address, result a = targets a := by
  intro share result
  induction pre generalizing allocated targets with
  | nil =>
    refine ⟨forall_mem_nil _, ?_, fun a ha => ?_⟩
    · simp [result, allocateTargets]
    · have hne : a ≠ last.address := by simpa using ha
      simp [result, allocateTargets, hne]
  | cons v pre ih =>
    rw [cons_append, map_cons, nodup_cons] at hnd
    -- the head is not the last, so it gets its share
    have hresult : result = allocateTargets total totalWeight (pre ++ [last])
        (allocated + share v) (update targets v.address (some (share v))) := by
      cases pre <;> rfl
    obtain ⟨hpre, hlast, hother⟩ := ih hnd.2 (allocated + share v)
      (update targets v.address (some (share v)))
    rw [← hresult] at hpre hlast hother
    refine ⟨forall_mem_cons.mpr ⟨?_, hpre⟩, ?_, fun a ha => ?_⟩
    · rw [hother _ hnd.1, update_self]
    · rw [hlast, map_cons, sum_cons]
      congr 1
      ring
    · rw [cons_append, map_cons, mem_cons, not_or] at ha
      rw [hother a ha.2, update_of_ne ha.1]

section Targets

variable {validators : List Validator} {total : ℤ}

private theorem exists_last (hnd : (validators.map Validator.address).Nodup)
    (hne : validators ≠ []) :
    ∃ pre last, validators.insertionSort weightOrder = pre ++ [last] ∧
      ((pre ++ [last]).map Validator.address).Nodup ∧
      (∀ w ∈ validators, weightKey w ≤ weightKey last) ∧
      (∀ v ∈ pre, ¬ weightKey last ≤ weightKey v) ∧
      pre.Perm (validators.filter (·.address ≠ last.address)) := by
  have hperm := perm_insertionSort weightOrder validators
  have hsorted := pairwise_insertionSort weightOrder validators
  have hsortedNe : validators.insertionSort weightOrder ≠ [] := by
    intro hnil
    exact hne (perm_nil.mp (hnil ▸ hperm.symm))
  obtain ⟨pre, last, heq⟩ := eq_nil_or_concat _ |>.resolve_left hsortedNe
  rw [concat_eq_append] at heq
  have hndSorted : ((pre ++ [last]).map Validator.address).Nodup :=
    heq ▸ (hperm.map Validator.address).nodup_iff.mpr hnd
  rw [heq] at hsorted hperm
  have hle : ∀ v ∈ pre, weightKey v ≤ weightKey last := fun v hv =>
    weightOrder_iff.mp ((pairwise_append.mp hsorted).2.2 v hv last mem_cons_self)
  have haddr : ∀ v ∈ pre, v.address ≠ last.address := by
    intro v hv heq'
    rw [map_append, nodup_append] at hndSorted
    exact hndSorted.2.2 v.address (mem_map_of_mem hv) last.address (by simp) heq'
  refine ⟨pre, last, heq, hndSorted, fun w hw => ?_, fun v hv hge => ?_, ?_⟩
  · rcases mem_append.mp (hperm.mem_iff.mpr hw) with hw | hw
    · exact hle w hw
    · rw [mem_singleton.mp hw]
  · -- equal keys have equal addresses
    have hkey : weightKey v = weightKey last := le_antisymm (hle v hv) hge
    exact haddr v hv (congrArg (fun k : ℕ ×ₗ String => (ofLex k).2) hkey)
  · have hfilter : (pre ++ [last]).filter (·.address ≠ last.address) = pre := by
      rw [filter_append, filter_eq_self.mpr fun v hv => decide_eq_true (haddr v hv)]
      simp
    rw [← hfilter]
    exact hperm.filter _

/-- **Targets in closed form**: without overflow of the weights, exactly the validators
    without a slash query have a target, and it is their balanced delegation. -/
theorem getTargetValAmtsForHostZone_eq {hostZone : HostZone} (hnd : hostZone.addresses.Nodup)
    (hpos : 0 < weightSum hostZone.eligible)
    (hlt : weightSum hostZone.eligible < 2 ^ 64) (htotal : 0 < total) :
    ∃ targets, getTargetValAmtsForHostZone hostZone total = .ok targets ∧
      (∀ v ∈ hostZone.eligible, targets v.address =
        some (targetDelegation hostZone.eligible total v)) ∧
      ∀ a ∉ hostZone.eligible.map Validator.address,
        targets a = none := by
  have hnd' : (hostZone.eligible.map Validator.address).Nodup :=
    hnd.sublist (filter_sublist.map _)
  unfold getTargetValAmtsForHostZone
  rw [if_neg (not_not.mpr htotal)]
  unfold HostZone.eligible at hpos hlt hnd' ⊢
  generalize eligibleValidators hostZone.validators = validators at hpos hlt hnd'
  have hweight := toNat_getTotalValidatorWeight hlt
  have hweightNe : getTotalValidatorWeight validators ≠ 0 := by
    intro hzero
    rw [hzero] at hweight
    simp at hweight
    omega
  rw [if_neg hweightNe]
  have hne : validators ≠ [] := by
    rintro rfl
    simp [weightSum] at hpos
  -- the last validator in the order takes what rounding leaves
  obtain ⟨pre, last, hsort, hndSort, hmax, hlast, hperm⟩ := exists_last hnd' hne
  have hpermAll : (pre ++ [last]).Perm validators := hsort ▸ perm_insertionSort _ _
  have hshare (v : Validator) : ((v.weight.toNat : ℤ) * total).tdiv
      (getTotalValidatorWeight validators).toNat = weightShare validators total v := by
    rw [Int.tdiv_eq_ediv_of_nonneg (by positivity), hweight, weightShare]
  obtain ⟨hpre, hlastEq, hother⟩ :=
    allocateTargets_spec total (getTotalValidatorWeight validators) hndSort 0 fun _ => none
  simp only [hshare, sub_zero] at hpre hlastEq
  refine ⟨_, rfl, fun v hv => ?_, fun a ha => ?_⟩
  · rw [hsort]
    rcases mem_append.mp (hpermAll.mem_iff.mpr hv) with hv | hv
    · have hlastMem : last ∈ validators := hpermAll.mem_iff.mp (by simp)
      rw [hpre v hv, targetDelegation, if_neg fun hall => hlast v hv (hall last hlastMem)]
    · rw [mem_singleton.mp hv, hlastEq, targetDelegation, if_pos hmax,
        ← (hperm.map _).sum_eq]
  · rw [hsort]
    exact hother a fun hmem => ha ((hpermAll.map Validator.address).mem_iff.mp hmem)

private theorem weightShare_nonneg (htotal : 0 ≤ total) (v : Validator) :
    0 ≤ weightShare validators total v := by
  obtain ⟨n, rfl⟩ := Int.eq_ofNat_of_zero_le htotal
  exact Int.natCast_nonneg _

private theorem sum_weightShare_natCast (n : ℕ) :
    (validators.map (weightShare validators n)).sum =
      (((validators.map fun w => w.weight.toNat).map fun b =>
        b * n / (validators.map fun w => w.weight.toNat).sum).sum : ℕ) := by
  rw [Nat.cast_list_sum, map_map, map_map]
  rfl

variable (validators) in
private theorem sum_weightShare_le (htotal : 0 ≤ total) :
    (validators.map (weightShare validators total)).sum ≤ total := by
  obtain ⟨n, rfl⟩ := Int.eq_ofNat_of_zero_le htotal
  have hle : (validators.map fun w => w.weight.toNat).sum * n /
      (validators.map fun w => w.weight.toNat).sum ≤ n :=
    Nat.div_le_of_le_mul (le_refl _)
  rw [sum_weightShare_natCast]
  exact_mod_cast (sum_map_mul_div_le n _ _).trans hle

/-- The targets add up to the total. -/
theorem sum_targetDelegation (hnd : (validators.map Validator.address).Nodup)
    (hne : validators ≠ []) :
    (validators.map (targetDelegation validators total)).sum = total := by
  obtain ⟨pre, last, hsort, -, hmax, hlast, hperm⟩ := exists_last hnd hne
  have hpermAll : (pre ++ [last]).Perm validators := hsort ▸ perm_insertionSort _ _
  have hlastMem : last ∈ validators := hpermAll.mem_iff.mp (by simp)
  have hpre : pre.map (targetDelegation validators total) =
      pre.map (weightShare validators total) := by
    apply map_congr_left
    intro v hv
    rw [targetDelegation, if_neg fun hall => hlast v hv (hall last hlastMem)]
  rw [← (hpermAll.map _).sum_eq, map_append, sum_append, hpre, map_singleton,
    sum_singleton, targetDelegation, if_pos hmax, ← (hperm.map _).sum_eq]
  ring

theorem targetDelegation_nonneg (htotal : 0 ≤ total) (v : Validator) :
    0 ≤ targetDelegation validators total v := by
  unfold targetDelegation
  split
  · have hsub : ((validators.filter (·.address ≠ v.address)).map
        (weightShare validators total)).sum ≤
          (validators.map (weightShare validators total)).sum := by
      apply List.Sublist.sum_le_sum
      · exact filter_sublist.map _
      · intro x hx
        obtain ⟨w, -, rfl⟩ := mem_map.mp hx
        exact weightShare_nonneg htotal w
    have hle := sum_weightShare_le validators htotal
    omega
  · exact weightShare_nonneg htotal v

end Targets

/-! ## Zones with valid weights -/

/-- Distinct addresses, and a weight sum without overflow. -/
structure HostZone.WeightsValid (hostZone : HostZone) : Prop where
  nodup : hostZone.addresses.Nodup
  no_overflow : weightSum hostZone.eligible < 2 ^ 64

instance (hostZone : HostZone) : Decidable hostZone.WeightsValid :=
  decidable_of_iff (hostZone.addresses.Nodup ∧
      weightSum hostZone.eligible < 2 ^ 64)
    ⟨fun h => ⟨h.1, h.2⟩, fun h => ⟨h.1, h.2⟩⟩

private theorem eligible_weights (hostZone : HostZone) :
    weightSum hostZone.eligible =
      ((hostZone.weights.filter fun w => !w.2.2).map fun w => w.2.1.toNat).sum := by
  unfold HostZone.weights weightSum
  rw [filter_map, map_map]
  rfl

theorem HostZone.WeightsValid.of_weights_eq {z z' : HostZone} (h : z.WeightsValid)
    (heq : z'.weights = z.weights) : z'.WeightsValid := by
  have haddr (z : HostZone) : z.addresses = z.weights.map Prod.fst := by
    unfold HostZone.weights
    rw [map_map]
    rfl
  refine ⟨?_, ?_⟩
  · rw [haddr, heq, ← haddr]
    exact h.nodup
  · rw [eligible_weights, heq, ← eligible_weights]
    exact h.no_overflow

end Stride.Stakeibc
