import Stride.Airdrops.System

/-!
# Bounds of the Allocations

`ClaimDaily` and the query read an allocation list up to an index that follows from the dates of
the airdrop. The length of the list is checked when it is added, and the dates can change later.
-/

namespace Stride.Airdrops

open Lib Sdk KeyedStore List

/-! ## Computations that stay within bounds -/

def WithinBounds {α : Type} (x : Result α) : Prop := ∀ e, x = .error e → e.code ≠ .outOfRange

namespace WithinBounds

variable {α β : Type} {x : Result α} {f : α → Result β}

private theorem ok (a : α) : WithinBounds (.ok a : Result α) := by
  intro e h
  cases h

private theorem error {e : SdkError} (he : e.code ≠ .outOfRange) :
    WithinBounds (.error e : Result α) := by
  intro e' h
  cases h
  exact he

private theorem bind (hx : WithinBounds x) (hf : ∀ a, x = .ok a → WithinBounds (f a)) :
    WithinBounds (x >>= f) := by
  cases x with
  | error e => exact error (hx e rfl)
  | ok a => exact hf a rfl

variable {message : String}

private theorem require {condition : Prop} [Decidable condition] {code : ErrorCode}
    (hcode : code ≠ .outOfRange) : WithinBounds (require condition code message) := by
  unfold Sdk.require
  split
  · exact ok ()
  · exact error hcode

private theorem wrapError (hx : WithinBounds x) : WithinBounds (wrapError x message) := by
  cases x with
  | error e => exact error (show e.code ≠ _ from hx e rfl)
  | ok a => exact ok a

end WithinBounds

/-! ## One claim and one query -/

private theorem Airdrop.withinBounds_getAirdropPeriods (a : Airdrop) (period : ℤ) :
    WithinBounds (a.getAirdropPeriods period) := by
  unfold Airdrop.getAirdropPeriods
  split
  · exact .error (by decide)
  · exact .ok _

private theorem Airdrop.withinBounds_getCurrentDateIndex (a : Airdrop) (blockTime : Time)
    (period : ℤ) :
    WithinBounds (a.getCurrentDateIndex blockTime period) := by
  refine .bind (.require (by decide)) fun _ _ => .bind (.require (by decide)) fun _ _ => ?_
  exact .bind (a.withinBounds_getAirdropPeriods period) fun _ _ => .ok _

private theorem withinBounds_mustAccAddressFromBech32 (address : String) :
    WithinBounds (mustAccAddressFromBech32 address) := by
  unfold mustAccAddressFromBech32
  split
  · exact .ok _
  · exact .error (show ErrorCode.panic ≠ ErrorCode.outOfRange by decide)

variable {airdrop : Airdrop} {k' : Keeper}

namespace Keeper

variable {blockedAddr : String → Bool} {k : Keeper}

private theorem withinBounds_getAirdrop (airdropId : String) :
    WithinBounds (k.getAirdrop airdropId) := by
  unfold getAirdrop
  split
  · exact .ok _
  · exact .error (show ErrorCode.errAirdropNotFound ≠ ErrorCode.outOfRange by decide)

private theorem withinBounds_distributeRewards (airdrop : Airdrop) (u : UserAllocation)
    (rewards : ℤ) :
    WithinBounds (k.distributeRewards blockedAddr airdrop u rewards) := by
  refine .bind (withinBounds_mustAccAddressFromBech32 _) fun _ _ => ?_
  refine .bind (withinBounds_mustAccAddressFromBech32 _) fun _ _ => .bind ?_ fun _ _ => ?_
  · unfold newCoin
    split
    · exact .error (show ErrorCode.panic ≠ ErrorCode.outOfRange by decide)
    · exact .ok _
  · refine .bind (.wrapError (.bind (.require (by decide)) fun _ _ => ?_)) fun _ _ => .ok _
    unfold Bank.sendCoins
    split
    · exact .error (show ErrorCode.errInsufficientFunds ≠ ErrorCode.outOfRange by decide)
    · exact .ok _

/-- The airdrop of an allocation, with at most as many periods as the allocation has entries. -/
def FitsAirdrop (k : Keeper) (r : UserAllocation) : Prop :=
  ∃ airdrop, k.airdrops.get? (bytes r.airdropId) = some airdrop ∧
    ∀ periods, airdrop.getAirdropPeriods k.periodLengthSeconds = .ok periods →
      periods ≤ r.allocations.length

variable {address airdropId : String} {blockTime : Time} {r : UserAllocation}

private theorem FitsAirdrop.index_lt (h : k.FitsAirdrop r)
    (hairdrop : k.airdrops.get? (bytes r.airdropId) = some airdrop) {index : ℤ}
    (hindex : airdrop.getCurrentDateIndex blockTime k.periodLengthSeconds = .ok index) :
    index < r.allocations.length := by
  obtain ⟨airdrop', hairdrop', hfits⟩ := h
  have hsame : airdrop' = airdrop := Option.some.inj (hairdrop'.symm.trans hairdrop)
  subst hsame
  obtain ⟨periods, hperiods, hlt, -⟩ := Airdrop.getCurrentDateIndex_ok hindex
  exact lt_of_lt_of_le hlt (hfits periods hperiods)

private theorem FitsAirdrop.claimDaily (h : k.FitsAirdrop r)
    (hr : k.getUserAllocation r.airdropId r.address = some r) (blockTime : Time) :
    WithinBounds (k.claimDaily blockedAddr blockTime r.airdropId r.address) := by
  refine .bind (withinBounds_getAirdrop _) fun airdrop hairdrop => ?_
  rw [hr]
  refine .bind (.require (by decide)) fun _ _ => .bind (.require (by decide)) fun _ _ => ?_
  refine .bind (airdrop.withinBounds_getCurrentDateIndex _ _) fun index hindex => ?_
  have hlt := h.index_lt (getAirdrop_ok hairdrop) hindex
  refine .bind ?_ fun _ _ => .bind (.require (by decide)) fun _ _ =>
    .bind (withinBounds_distributeRewards _ _ _) fun _ _ => .ok _
  rw [takeRewards_eq hlt]
  exact .ok _

/-- Every stored list has an entry for each period of its airdrop. -/
def AllocationsFit (k : Keeper) : Prop := ∀ r ∈ k.userAllocations.values, k.FitsAirdrop r

namespace AllocationsFit

variable (h : k.AllocationsFit)

include h

private theorem set {v : UserAllocation} (hv : k.FitsAirdrop v) :
    ({ k with userAllocations := k.userAllocations.set v } : Keeper).AllocationsFit := by
  intro r hr
  rcases mem_values_set hr with rfl | hold
  · exact hv
  · exact h r hold

private theorem delete (key : List UInt8) :
    ({ k with userAllocations := k.userAllocations.delete key } : Keeper).AllocationsFit :=
  fun r hr => h r (mem_values_delete hr)

private theorem found (hr : k.getUserAllocation airdropId address = some r) : k.FitsAirdrop r := by
  refine h r (mem_values_iff.mpr ?_)
  rw [key_of_get? hr]
  exact hr

private theorem setAirdrop (hfits : ∀ r ∈ k.userAllocations.values, r.airdropId = airdrop.id →
      ∀ periods, airdrop.getAirdropPeriods k.periodLengthSeconds = .ok periods →
        periods ≤ r.allocations.length) :
    ({ k with airdrops := k.airdrops.set airdrop } : Keeper).AllocationsFit := by
  intro r hr
  obtain ⟨old, hold, hperiods⟩ := h r hr
  rcases eq_or_ne r.airdropId airdrop.id with hid | hid
  · refine ⟨airdrop, ?_, hfits r hr hid⟩
    rw [hid]
    exact get?_set_self _ _
  · refine ⟨old, ?_, hperiods⟩
    have hkey : bytes r.airdropId ≠ airdrop.key := fun heq => hid (bytes_inj.mp heq)
    rw [get?_set_of_ne _ _ hkey]
    exact hold

private theorem linked {strideAddress hostAddress : String}
    (hlinked : k.Linked airdropId strideAddress hostAddress k') : k'.AllocationsFit := by
  cases hlinked with
  | moved host hhost _ hk =>
    subst hk
    have hfits : k.FitsAirdrop host := h.found hhost
    exact (h.delete _).set (v := { host with address := strideAddress }) hfits
  | merged host u hhost hstride hlength hk =>
    subst hk
    obtain ⟨airdrop, hairdrop, hperiods⟩ := h.found hstride
    refine (h.set (v := mergedAllocation u host) ⟨airdrop, hairdrop, ?_⟩).delete _
    intro periods hget
    have hsame : (mergedAllocation u host).allocations.length = u.allocations.length := by
      show (zipWith (· + ·) u.allocations host.allocations).length = _
      rw [length_zipWith, ← hlength, min_self]
    rw [hsame]
    exact hperiods periods hget

/-- Allocations are added with one amount for each period. -/
theorem addAllocations {periods : ℤ} {allocations : List (String × List ℤ)}
    (hairdrop : k.airdrops.get? (bytes airdropId) = some airdrop)
    (hperiods : airdrop.getAirdropPeriods k.periodLengthSeconds = .ok periods)
    (hadded : allocations.foldlM (addAllocation airdropId periods) k = .ok k') :
    k'.AllocationsFit := by
  -- the loop keeps the airdrops and the length of a period
  suffices hloop : k'.airdrops = k.airdrops ∧ k'.periodLengthSeconds = k.periodLengthSeconds ∧
      k'.AllocationsFit from hloop.2.2
  refine foldlM_ok_invariant (P := fun t => t.airdrops = k.airdrops ∧
    t.periodLengthSeconds = k.periodLengthSeconds ∧ t.AllocationsFit) ?_ ⟨rfl, rfl, h⟩ hadded
  rintro t raw t' ⟨hsame, hperiod, hfits⟩ hturn
  unfold addAllocation at hturn
  split at hturn
  · cases hturn
  obtain ⟨_, hlength, hturn⟩ := bind_eq_ok.mp hturn
  rw [require_eq_ok] at hlength
  cases hturn
  refine ⟨hsame, hperiod, hfits.set ⟨airdrop, ?_, ?_⟩⟩
  · rw [hsame]
    exact hairdrop
  · intro periods' hperiods'
    rw [hperiod, hperiods] at hperiods'
    cases hperiods'
    exact hlength.ge

end AllocationsFit

end Keeper

/-! ## Runs -/

/-- An update of an airdrop leaves it with at most as many periods as the stored allocations of
    the airdrop have entries. -/
def KeepsPeriods (s : System) : Event → Prop
  | .updateAirdrop _ airdrop =>
    ∀ r ∈ s.keeper.userAllocations.values, r.airdropId = airdrop.id →
      ∀ periods, airdrop.getAirdropPeriods s.keeper.periodLengthSeconds = .ok periods →
        periods ≤ r.allocations.length
  | _ => True

instance (s : System) (e : Event) : Decidable (KeepsPeriods s e) := by
  apply @Event.casesOn _ e <;> intros <;> dsimp only [KeepsPeriods] <;> infer_instance

variable {blockedAddr : String → Bool} {s s' s₀ : System} {e : Event}

private theorem Keeper.AllocationsFit.paid {k : Keeper} {u u' : UserAllocation} {amount : ℤ}
    (h : k.AllocationsFit) (hpaid : k.PaidClaim k' u.airdropId u.address airdrop u u' amount)
    (hid : u'.airdropId = u.airdropId) (hlength : u'.allocations.length = u.allocations.length) :
    k'.AllocationsFit := by
  obtain ⟨a, ha, hperiods⟩ := h.found hpaid.found
  have hfits : k.FitsAirdrop u' := by
    refine ⟨a, ?_, ?_⟩
    · rw [hid]
      exact ha
    · rw [hlength]
      exact hperiods
  have hset : ({ k with userAllocations := k.userAllocations.set u' } : Keeper).AllocationsFit :=
    h.set hfits
  rw [hpaid.keeper]
  exact hset

/-- **One step** keeps the lists long enough. -/
theorem Keeper.AllocationsFit.step (h : s.keeper.AllocationsFit) (hok : KeepsPeriods s e)
    (hstep : s.step blockedAddr e = some s') : s'.keeper.AllocationsFit := by
  cases System.effect_of_step hstep with
  | daily claimer airdropId blockTime airdrop u index p k' hindex hlt hne hp huser hpaid =>
    obtain ⟨rfl, rfl⟩ := huser
    refine h.paid hpaid rfl ?_
    show (replicate _ 0 ++ u.allocations.drop _).length = _
    rw [length_append, length_replicate, length_drop]
    omega
  | early claimer airdropId blockTime airdrop u p k' hne hp huser hpaid =>
    obtain ⟨rfl, rfl⟩ := huser
    exact h.paid hpaid rfl (length_map _)
  | linked admin airdropId strideAddress hostAddress k' hlinked => exact h.linked hlinked
  | created admin airdrop hnone =>
    refine h.setAirdrop fun r hr hid => ?_
    -- an allocation of an airdrop that does not exist
    obtain ⟨old, hold, -⟩ := h r hr
    rw [hid] at hold
    cases hnone.symm.trans hold
  | updated admin airdrop _ => exact h.setAirdrop hok
  | allocated admin airdropId allocations airdrop periods k' hairdrop hperiods hadded =>
    exact h.addAllocations hairdrop hperiods hadded
  | reallocated admin airdropId userAddress allocations u hfound hlength =>
    obtain ⟨airdrop, hairdrop, hperiods⟩ := h.found hfound
    refine h.set (v := { u with allocations := allocations }) ⟨airdrop, hairdrop, ?_⟩
    rw [hlength]
    exact hperiods

end Stride.Airdrops
