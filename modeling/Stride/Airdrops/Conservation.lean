import Stride.Airdrops.System

/-!
# Conservation of Allocations

Claims and links move amounts between what remains of an allocation, what was claimed and what
was forfeited. A ledger beside the system follows what each user was granted: the own allocation
and the allocations of the addresses that were linked to the user.

## Main results

- `Keeper.allocationOf_set`, `Keeper.allocationOf_delete`: what a write means for the users
- `LedgerInv.step`
- `allocations_conserved`
- `linked_claim_is_lost`
-/

namespace Stride.Airdrops

open Lib Sdk KeyedStore Function List Keeper

/-! ## The users of a store -/

/-- A user of an airdrop, by airdrop id and address. -/
abbrev User := String × String

def UserAllocation.user (r : UserAllocation) : User := (r.airdropId, r.address)

def Payment.user (p : Payment) : User := (p.airdropId, p.address)

variable {airdrop : Airdrop} {k' k₀ : Keeper} {payments : List Payment} {p : Payment}
  {u' : UserAllocation} {n : ℕ} {amount granted : ℤ} {host : UserAllocation} {airdropId : String}
  {blockedAddr : String → Bool} {e : Event}

namespace Keeper

/-- The allocation of a user. What is stored under the key of the user can belong to another
    airdrop, if the id of an airdrop has a slash. -/
def allocationOf (k : Keeper) (a : User) : Option UserAllocation :=
  (k.getUserAllocation a.1 a.2).filter fun r => r.airdropId = a.1

/-- A total over the allocations of an airdrop. -/
def totalOf (k : Keeper) (f : UserAllocation → ℤ) (airdropId : String) : ℤ :=
  ((k.userAllocations.values.filter fun r => r.airdropId = airdropId).map f).sum

variable {k : Keeper} {a : User} {r : UserAllocation}

private theorem allocationOf_eq_some :
    k.allocationOf a = some r ↔ k.getUserAllocation a.1 a.2 = some r ∧ r.user = a := by
  unfold allocationOf
  rw [Option.filter_eq_some_iff]
  refine and_congr_right fun hfound => ?_
  have hkey : r.key = userAllocationKey a.1 a.2 := key_of_get? hfound
  constructor
  · intro hid
    replace hid : r.airdropId = a.1 := by simpa using hid
    have haddress : r.address = a.2 := by
      unfold UserAllocation.key at hkey
      rw [hid] at hkey
      exact userAllocationKey_inj_right.mp hkey
    exact Prod.ext hid haddress
  · rintro rfl
    exact decide_eq_true rfl

private theorem allocationOf_eq
    (hown : ∀ r, k.getUserAllocation a.1 a.2 = some r → r.airdropId = a.1) :
    k.allocationOf a = k.getUserAllocation a.1 a.2 := by
  unfold allocationOf
  cases hr : k.getUserAllocation a.1 a.2 with
  | none => rfl
  | some r => rw [Option.filter_some, if_pos (by simpa using hown r hr)]

private theorem mem_values_iff_allocationOf :
    r ∈ k.userAllocations.values ↔ k.allocationOf r.user = some r := by
  rw [mem_values_iff, allocationOf_eq_some]
  exact ⟨fun h => ⟨h, rfl⟩, fun h => h.1⟩

private theorem PaidClaim.allocationOf {u : UserAllocation}
    (h : PaidClaim k k' u.airdropId u.address airdrop u u' amount) :
    k.allocationOf u.user = some u :=
  allocationOf_eq_some.mpr ⟨h.found, rfl⟩

private theorem allocationOf_set {v : UserAllocation}
    (hown : ∀ r, k.userAllocations.get? v.key = some r → r.airdropId = v.airdropId) :
    ({ k with userAllocations := k.userAllocations.set v } : Keeper).allocationOf =
      update k.allocationOf v.user (some v) := by
  funext a
  rcases eq_or_ne a v.user with rfl | hne
  · rw [update_self, allocationOf_eq_some]
    exact ⟨get?_set_self _ _, rfl⟩
  · rw [update_of_ne hne]
    show ((k.userAllocations.set v).get? (userAllocationKey a.1 a.2)).filter _ =
      (k.userAllocations.get? (userAllocationKey a.1 a.2)).filter _
    rw [get?_set]
    split
    · -- another user with the same key has another airdrop
      rename_i hkey
      have hid : v.airdropId ≠ a.1 := by
        intro hid
        refine hne (Prod.ext hid.symm ?_)
        have hsame : userAllocationKey a.1 a.2 = userAllocationKey v.airdropId v.address := hkey
        rw [hid] at hsame
        exact userAllocationKey_inj_right.mp hsame
      rw [Option.filter_some, if_neg (by simpa using hid), hkey]
      cases hget : k.userAllocations.get? v.key with
      | none => rfl
      | some r =>
        have hother : r.airdropId ≠ a.1 := by
          rw [hown r hget]
          exact hid
        rw [Option.filter_some, if_neg (by simpa using hother)]
    · rfl

private theorem allocationOf_delete
    (hown : ∀ r, k.getUserAllocation a.1 a.2 = some r → r.airdropId = a.1) :
    ({ k with
      userAllocations := k.userAllocations.delete (userAllocationKey a.1 a.2) } :
        Keeper).allocationOf = update k.allocationOf a none := by
  funext b
  rcases eq_or_ne b a with rfl | hne
  · rw [update_self]
    show ((k.userAllocations.delete _).get? (userAllocationKey b.1 b.2)).filter _ = none
    rw [get?_delete_self]
    rfl
  · rw [update_of_ne hne]
    show ((k.userAllocations.delete _).get? (userAllocationKey b.1 b.2)).filter _ =
      (k.userAllocations.get? (userAllocationKey b.1 b.2)).filter _
    rw [get?_delete]
    split
    · -- the key of another user may coincide, but not its airdrop
      rename_i hkey
      cases hget : k.userAllocations.get? (userAllocationKey b.1 b.2) with
      | none => rfl
      | some r =>
        have hr : r.airdropId = a.1 := by
          rw [hkey] at hget
          exact hown r hget
        have hother : r.airdropId ≠ b.1 := by
          intro hid
          refine hne (Prod.ext (hid.symm.trans hr) ?_)
          rw [hid.symm.trans hr] at hkey
          exact userAllocationKey_inj_right.mp hkey
        rw [Option.filter_some, if_neg (by simpa using hother)]
        rfl
    · rfl

end Keeper

/-! ## The ledger -/

structure Ledger where
  system : System
  /-- What a user was granted: the own allocation and the linked ones. -/
  granted : User → ℤ

variable {l l' : Ledger}

/-- A link passes on what the host address was granted. -/
def grantsAfter (granted : User → ℤ) : Event → User → ℤ
  | .linkAddresses _ airdropId strideAddress hostAddress =>
    update
      (update granted (airdropId, strideAddress)
        (granted (airdropId, strideAddress) + granted (airdropId, hostAddress)))
      (airdropId, hostAddress) 0
  | _ => granted

def Ledger.step (blockedAddr : String → Bool) (l : Ledger) (e : Event) : Option Ledger :=
  (l.system.step blockedAddr e).map fun s => ⟨s, grantsAfter l.granted e⟩

/-- Claims and links. What a link finds belongs to its airdrop, and the host allocation was
    not claimed. -/
def LinksUnclaimed (l : Ledger) : Event → Prop
  | .claimDaily .. => True
  | .claimEarly .. => True
  | .linkAddresses _ airdropId strideAddress hostAddress =>
    strideAddress ≠ hostAddress ∧
      (∀ r, l.system.keeper.getUserAllocation airdropId strideAddress = some r →
        r.airdropId = airdropId) ∧
      ∀ r, l.system.keeper.getUserAllocation airdropId hostAddress = some r →
        r.airdropId = airdropId ∧ r.claimed = 0 ∧ r.forfeited = 0
  | _ => False

instance (l : Ledger) (e : Event) : Decidable (LinksUnclaimed l e) := by
  apply @Event.casesOn _ e <;> intros <;> dsimp only [LinksUnclaimed] <;> infer_instance

/-! ## Amounts -/

namespace UserAllocation

/-- All amounts of an allocation. -/
def allocated (r : UserAllocation) : ℤ := r.claimed + r.forfeited + r.getRemainingAllocations

structure Nonneg (r : UserAllocation) : Prop where
  claimed : 0 ≤ r.claimed
  forfeited : 0 ≤ r.forfeited
  allocations : ∀ amount ∈ r.allocations, 0 ≤ amount

private theorem Nonneg.remaining {r : UserAllocation} (h : r.Nonneg) :
    0 ≤ r.getRemainingAllocations :=
  sum_nonneg h.allocations

end UserAllocation

def paidTo (payments : List Payment) (a : User) : ℤ :=
  ((payments.filter fun p => p.user = a).map Payment.amount).sum

/-- What was paid for an airdrop. -/
def paidFor (payments : List Payment) (airdropId : String) : ℤ :=
  ((payments.filter fun p => p.airdropId = airdropId).map Payment.amount).sum

private theorem paidTo_append (payments : List Payment) (p : Payment) (a : User) :
    paidTo (payments ++ [p]) a = paidTo payments a + if p.user = a then p.amount else 0 := by
  unfold paidTo
  by_cases h : p.user = a <;> simp [h]

private theorem paidFor_append (payments : List Payment) (p : Payment) (airdropId : String) :
    paidFor (payments ++ [p]) airdropId =
      paidFor payments airdropId + if p.airdropId = airdropId then p.amount else 0 := by
  unfold paidFor
  by_cases h : p.airdropId = airdropId <;> simp [h]

private theorem paidTo_eq_zero {a : User} (h : ∀ p ∈ payments, p.user ≠ a) :
    paidTo payments a = 0 := by
  unfold paidTo
  rw [filter_eq_nil_iff.mpr fun p hp => by simpa using h p hp]
  rfl

namespace Keeper

private theorem remaining_dailyClaimed (u : UserAllocation) (n : ℕ) :
    (dailyClaimed u n).getRemainingAllocations =
      u.getRemainingAllocations - (u.allocations.take n).sum := by
  have hsplit := congrArg sum (take_append_drop n u.allocations)
  rw [sum_append] at hsplit
  show (replicate n 0 ++ u.allocations.drop n).sum = u.allocations.sum - _
  have hzero : (replicate n (0 : ℤ)).sum = 0 :=
    sum_eq_zero fun _ hmem => eq_of_mem_replicate hmem
  rw [sum_append]
  omega

variable {u : UserAllocation}

private theorem nonneg_dailyClaimed (h : u.Nonneg) : (dailyClaimed u n).Nonneg where
  claimed := add_nonneg h.claimed
    (sum_nonneg fun amount hmem => h.allocations amount (mem_of_mem_take hmem))
  forfeited := h.forfeited
  allocations := by
    intro amount hmem
    rcases mem_append.mp hmem with hzero | hrest
    · rw [eq_of_mem_replicate hzero]
    · exact h.allocations amount (mem_of_mem_drop hrest)

private theorem remaining_earlyClaimed (u : UserAllocation) (amount : ℤ) :
    (earlyClaimed u amount).getRemainingAllocations = 0 := by
  show (u.allocations.map fun _ => (0 : ℤ)).sum = 0
  simp

private theorem nonneg_earlyClaimed (h : u.Nonneg) (hamount : 0 ≤ amount)
    (hle : amount ≤ u.allocations.sum) :
    (earlyClaimed u amount).Nonneg where
  claimed := add_nonneg h.claimed hamount
  forfeited := add_nonneg h.forfeited (sub_nonneg.mpr hle)
  allocations := by
    intro x hmem
    obtain ⟨_, -, rfl⟩ := mem_map.mp hmem
    exact le_rfl

private theorem earlyRewards_le {total : ℤ} (htotal : 0 ≤ total)
    (hvalid : airdropConfigValidateBasic airdrop = .ok ()) :
    earlyRewards airdrop total ≤ total := by
  obtain ⟨hpos, hle⟩ := airdropConfigValidateBasic_penalty hvalid
  refine LegacyDec.truncateInt_mul_le htotal ?_ ?_
  · show 0 ≤ LegacyDec.one.i - airdrop.earlyClaimPenalty.i
    omega
  · show LegacyDec.one.i - airdrop.earlyClaimPenalty.i ≤ precision
    have hone : LegacyDec.one.i = precision := by
      exact one_mul _
    omega

private theorem remaining_mergedAllocation
    (hlength : u.allocations.length = host.allocations.length) :
    (mergedAllocation u host).getRemainingAllocations =
      u.getRemainingAllocations + host.getRemainingAllocations := by
  show (zipWith (· + ·) u.allocations host.allocations).sum =
    u.allocations.sum + host.allocations.sum
  generalize u.allocations = l at hlength ⊢
  generalize host.allocations = m at hlength ⊢
  induction l generalizing m with
  | nil =>
    rw [eq_nil_of_length_eq_zero hlength.symm]
    rfl
  | cons x l ih =>
    cases m with
    | nil => cases hlength
    | cons y m =>
      have hsum := ih m (Nat.succ.inj hlength)
      simp only [zipWith_cons_cons, sum_cons]
      omega

private theorem nonneg_mergedAllocation (hu : u.Nonneg) (hhost : host.Nonneg) :
    (mergedAllocation u host).Nonneg where
  claimed := hu.claimed
  forfeited := hu.forfeited
  allocations := by
    intro amount hmem
    replace hmem : amount ∈ zipWith (· + ·) u.allocations host.allocations := hmem
    obtain ⟨i, hi, rfl⟩ := mem_iff_getElem.mp hmem
    rw [getElem_zipWith]
    exact add_nonneg (hu.allocations _ (getElem_mem _))
      (hhost.allocations _ (getElem_mem _))

end Keeper

/-! ## The books of the users -/

/-- What holds of a user with an allocation. The airdrops are those of the keeper `k₀`. -/
structure StoredUser (k₀ : Keeper) (payments : List Payment) (granted : ℤ) (a : User)
    (r : UserAllocation) : Prop where
  nonneg : r.Nonneg
  length : ∀ airdrop, k₀.airdrops.get? (bytes a.1) = some airdrop →
    airdrop.getAirdropPeriods k₀.periodLengthSeconds = .ok r.allocations.length
  claimed : (∃ p ∈ payments, p.user = a) → 0 < r.claimed + r.forfeited
  granted : (∀ p ∈ payments, p.user = a → p.early = false) →
    paidTo payments a + r.getRemainingAllocations = granted

/-- What holds of every user. -/
def UserInv (k₀ : Keeper) (payments : List Payment) (granted : ℤ) (a : User) :
    Option UserAllocation → Prop
  | none => (∀ p ∈ payments, p.user ≠ a) ∧ granted = 0
  | some r => StoredUser k₀ payments granted a r

private theorem UserInv.paidOther {a : User} {r : Option UserAllocation}
    (h : UserInv k₀ payments granted a r) (hne : p.user ≠ a) :
    UserInv k₀ (payments ++ [p]) granted a r := by
  have hmem (q : Payment) (hq : q ∈ payments ++ [p]) (ha : q.user = a) : q ∈ payments := by
    rcases mem_append.mp hq with hq | hq
    · exact hq
    · rw [mem_singleton.mp hq] at ha
      exact absurd ha hne
  cases r with
  | none => exact ⟨fun q hq ha => h.1 q (hmem q hq ha) ha, h.2⟩
  | some r =>
    have hstored : StoredUser k₀ payments granted a r := h
    refine ⟨hstored.nonneg, hstored.length, ?_, ?_⟩
    · rintro ⟨q, hq, ha⟩
      exact hstored.claimed ⟨q, hmem q hq ha, ha⟩
    · intro hlate
      rw [paidTo_append, if_neg hne, add_zero]
      exact hstored.granted fun q hq => hlate q (mem_append_left _ hq)

/-- What was paid to a user and what is left, where a user without an allocation has nothing. -/
structure UserBooks (payments : List Payment) (granted : ℤ) (a : User)
    (o : Option UserAllocation) : Prop where
  nonneg : ∀ r, o = some r → r.Nonneg
  claimed : (∃ p ∈ payments, p.user = a) →
    0 < o.elim 0 UserAllocation.claimed + o.elim 0 UserAllocation.forfeited
  granted : (∀ p ∈ payments, p.user = a → p.early = false) →
    paidTo payments a + o.elim 0 UserAllocation.getRemainingAllocations = granted

private theorem UserInv.books {a : User} {o : Option UserAllocation}
    (h : UserInv k₀ payments granted a o) : UserBooks payments granted a o := by
  cases o with
  | none =>
    refine ⟨nofun, ?_, fun _ => ?_⟩
    · rintro ⟨p, hp, ha⟩
      exact absurd ha (h.1 p hp)
    · rw [paidTo_eq_zero h.1, h.2]
      rfl
  | some r =>
    have hstored : StoredUser k₀ payments granted a r := h
    refine ⟨fun r' hr' => ?_, hstored.claimed, hstored.granted⟩
    cases hr'
    exact hstored.nonneg

/-- The books of a ledger that started as `l₀`. -/
structure LedgerInv (l₀ l : Ledger) : Prop where
  airdrops : l.system.keeper.airdrops = l₀.system.keeper.airdrops
  period : l.system.keeper.periodLengthSeconds = l₀.system.keeper.periodLengthSeconds
  users : ∀ a, UserInv l₀.system.keeper l.system.payments (l.granted a) a
    (l.system.keeper.allocationOf a)
  allocated : ∀ airdropId, l.system.keeper.totalOf UserAllocation.allocated airdropId =
    l₀.system.keeper.totalOf UserAllocation.allocated airdropId
  claimed : ∀ airdropId, l.system.keeper.totalOf UserAllocation.claimed airdropId =
    l₀.system.keeper.totalOf UserAllocation.claimed airdropId +
      paidFor l.system.payments airdropId

/-- Checked airdrops, allocations of their lengths, and nothing paid yet. -/
structure Ledger.Starts (l : Ledger) : Prop where
  payments : l.system.payments = []
  granted : ∀ a, l.granted a =
    (l.system.keeper.allocationOf a).elim 0 UserAllocation.getRemainingAllocations
  checked : ∀ key airdrop, l.system.keeper.airdrops.get? key = some airdrop →
    airdropConfigValidateBasic airdrop = .ok ()
  nonneg : ∀ r ∈ l.system.keeper.userAllocations.values, r.Nonneg
  length : ∀ r ∈ l.system.keeper.userAllocations.values, ∀ airdrop,
    l.system.keeper.airdrops.get? (bytes r.airdropId) = some airdrop →
    airdrop.getAirdropPeriods l.system.keeper.periodLengthSeconds = .ok r.allocations.length

private theorem Ledger.Starts.inv (h : l.Starts) : LedgerInv l l where
  airdrops := rfl
  period := rfl
  users := by
    intro a
    rw [h.granted a, h.payments]
    cases hr : l.system.keeper.allocationOf a with
    | none =>
      refine ⟨?_, rfl⟩
      intro p hp
      cases hp
    | some r =>
      obtain ⟨-, rfl⟩ := allocationOf_eq_some.mp hr
      have hmem := mem_values_iff_allocationOf.mpr hr
      refine ⟨h.nonneg r hmem, h.length r hmem, ?_, ?_⟩
      · rintro ⟨p, hp, -⟩
        cases hp
      · intro _
        exact zero_add _
  allocated := fun _ => rfl
  claimed := by
    intro airdropId
    rw [h.payments]
    exact (add_zero _).symm

/-! ## One claim -/

namespace LedgerInv

variable {l₀ : Ledger}

/-- What a claim did to the allocation `u` and the log. -/
structure ClaimBooked (u u' : UserAllocation) (p : Payment) : Prop where
  user : u'.user = u.user
  paid : p.user = u.user
  allocated : u'.allocated = u.allocated
  claimed : u'.claimed = u.claimed + p.amount
  positive : 0 < u'.claimed + u'.forfeited
  nonneg : u'.Nonneg
  length : u'.allocations.length = u.allocations.length
  remaining : p.early = false →
    p.amount + u'.getRemainingAllocations = u.getRemainingAllocations

private theorem ClaimBooked.key {u : UserAllocation} (h : ClaimBooked u u' p) : u'.key = u.key := by
  have huser := Prod.mk.inj h.user
  unfold UserAllocation.key
  rw [huser.1, huser.2]

/-- **Claims keep the books.** -/
theorem claim (h : LedgerInv l₀ l) {u : UserAllocation} (hbooked : ClaimBooked u u' p)
    (hpaid : l.system.keeper.PaidClaim k' u.airdropId u.address airdrop u u' p.amount) :
    LedgerInv l₀ ⟨⟨k', l.system.payments ++ [p]⟩, l.granted⟩ := by
  have hfound : l.system.keeper.userAllocations.get? u'.key = some u := by
    rw [hbooked.key]
    exact hpaid.found
  have hid : u'.airdropId = u.airdropId := (Prod.mk.inj hbooked.user).1
  have hstores : k'.userAllocations = l.system.keeper.userAllocations.set u' := by
    rw [hpaid.keeper]
  have htotal (f : UserAllocation → ℤ) (airdropId : String) : k'.totalOf f airdropId =
      l.system.keeper.totalOf f airdropId - (if u.airdropId = airdropId then f u else 0) +
        if u.airdropId = airdropId then f u' else 0 := by
    unfold totalOf
    rw [hstores, sum_filter_set, hfound, Option.elim_some, hid]
  refine ⟨?_, ?_, ?_, ?_, ?_⟩
  · rw [← h.airdrops]
    rw [hpaid.keeper]
  · rw [← h.period]
    rw [hpaid.keeper]
  · intro a
    have hallocations : k'.allocationOf =
        update l.system.keeper.allocationOf u'.user (some u') := by
      rw [← allocationOf_set fun r hr => ?_]
      · rw [hpaid.keeper]
        rfl
      · rw [hfound] at hr
        cases hr
        exact hid.symm
    show UserInv _ (l.system.payments ++ [p]) (l.granted a) a (k'.allocationOf a)
    rw [hallocations]
    rcases eq_or_ne a u'.user with rfl | hne
    · -- the user of the claim
      rw [update_self]
      have hold : l.system.keeper.allocationOf u'.user = some u := by
        rw [hbooked.user]
        exact hpaid.allocationOf
      have hstored : StoredUser l₀.system.keeper l.system.payments (l.granted u'.user) u'.user
          u := by
        have huser := h.users u'.user
        rw [hold] at huser
        exact huser
      refine ⟨hbooked.nonneg, ?_, fun _ => hbooked.positive, ?_⟩
      · intro airdrop hget
        rw [hbooked.length]
        exact hstored.length airdrop hget
      · intro hlate
        have hpuser : p.user = u'.user := hbooked.paid.trans hbooked.user.symm
        have hrest := hbooked.remaining (hlate p (mem_append_right _ (mem_singleton_self p))
          hpuser)
        have hbefore := hstored.granted fun q hq => hlate q (mem_append_left _ hq)
        rw [paidTo_append, if_pos hpuser]
        omega
    · rw [update_of_ne hne]
      refine (h.users a).paidOther ?_
      rw [hbooked.paid, ← hbooked.user]
      exact hne.symm
  · intro airdropId
    rw [← h.allocated airdropId]
    rw [htotal, hbooked.allocated]
    omega
  · intro airdropId
    have hpid : p.airdropId = u.airdropId := (Prod.mk.inj hbooked.paid).1
    rw [htotal, h.claimed airdropId, paidFor_append, hbooked.claimed, hpid]
    split <;> omega

private theorem booked_daily {u : UserAllocation} (hnonneg : u.Nonneg)
    (hn : n ≤ u.allocations.length)
    (hne : (u.allocations.take n).sum ≠ 0) :
    ClaimBooked u (dailyClaimed u n)
      ⟨u.airdropId, u.address, (u.allocations.take n).sum, false⟩ where
  user := rfl
  paid := rfl
  allocated := by
    unfold UserAllocation.allocated
    rw [remaining_dailyClaimed]
    show u.claimed + (u.allocations.take n).sum + u.forfeited + _ = _
    omega
  claimed := rfl
  positive := by
    have hpos : 0 ≤ (u.allocations.take n).sum :=
      sum_nonneg fun amount hmem => hnonneg.allocations amount (mem_of_mem_take hmem)
    have hclaimed := hnonneg.claimed
    have hforfeited := hnonneg.forfeited
    show 0 < u.claimed + (u.allocations.take n).sum + u.forfeited
    omega
  nonneg := nonneg_dailyClaimed hnonneg
  length := by
    show (replicate n 0 ++ u.allocations.drop n).length = _
    rw [length_append, length_replicate, length_drop]
    omega
  remaining := by
    intro _
    rw [remaining_dailyClaimed]
    exact add_sub_cancel _ _

private theorem booked_early {u : UserAllocation} (hnonneg : u.Nonneg) (hamount : 0 ≤ amount)
    (hle : amount ≤ u.allocations.sum) (hne : u.allocations.sum ≠ 0) :
    ClaimBooked u (earlyClaimed u amount) ⟨u.airdropId, u.address, amount, true⟩ where
  user := rfl
  paid := rfl
  allocated := by
    unfold UserAllocation.allocated
    rw [remaining_earlyClaimed]
    show u.claimed + amount + (u.forfeited + (u.allocations.sum - amount)) + 0 =
      u.claimed + u.forfeited + u.allocations.sum
    omega
  claimed := rfl
  positive := by
    have hclaimed := hnonneg.claimed
    have hforfeited := hnonneg.forfeited
    show 0 < u.claimed + amount + (u.forfeited + (u.allocations.sum - amount))
    omega
  nonneg := nonneg_earlyClaimed hnonneg hamount hle
  length := length_map _
  remaining := by
    intro hlate
    cases hlate

variable {a : User} {r : UserAllocation}

private theorem stored (h : LedgerInv l₀ l) (hr : l.system.keeper.allocationOf a = some r) :
    StoredUser l₀.system.keeper l.system.payments (l.granted a) a r := by
  have huser := h.users a
  rw [hr] at huser
  exact huser

/-! ## One link -/

private theorem unpaid (h : StoredUser k₀ payments granted a r) (hclaimed : r.claimed = 0)
    (hforfeited : r.forfeited = 0) : ∀ p ∈ payments, p.user ≠ a := by
  intro p hp ha
  have hpos := h.claimed ⟨p, hp, ha⟩
  omega

variable {strideAddress hostAddress : String} {u : UserAllocation}

/-- The allocation `old`, if there is one, with what is left of `host`. -/
structure Adds (old : Option UserAllocation) (host v : UserAllocation) : Prop where
  claimed : v.claimed = old.elim 0 UserAllocation.claimed
  forfeited : v.forfeited = old.elim 0 UserAllocation.forfeited
  remaining : v.getRemainingAllocations =
    old.elim 0 UserAllocation.getRemainingAllocations + host.getRemainingAllocations
  length : v.allocations.length = host.allocations.length
  nonneg : (∀ r, old = some r → r.Nonneg) → host.Nonneg → v.Nonneg

private theorem adds_merged (hlength : u.allocations.length = host.allocations.length) :
    Adds (some u) host (mergedAllocation u host) where
  claimed := rfl
  forfeited := rfl
  remaining := remaining_mergedAllocation hlength
  length := by
    show (zipWith (· + ·) u.allocations host.allocations).length = _
    rw [length_zipWith, hlength, min_self]
  nonneg hu hhost := nonneg_mergedAllocation (hu u rfl) hhost

private theorem adds_moved (hclaimed : host.claimed = 0) (hforfeited : host.forfeited = 0) :
    Adds none host { host with address := strideAddress } where
  claimed := hclaimed
  forfeited := hforfeited
  remaining := (zero_add _).symm
  length := rfl
  nonneg _ hhost := ⟨hhost.claimed, hhost.forfeited, hhost.allocations⟩

/-- **Links keep the books**: a host allocation that was not claimed is added to the allocation of
    the stride address. -/
theorem link (h : LedgerInv l₀ l) (hne : strideAddress ≠ hostAddress)
    (hhost : l.system.keeper.getUserAllocation airdropId hostAddress = some host)
    (hhostOwn : host.airdropId = airdropId ∧ host.claimed = 0 ∧ host.forfeited = 0)
    {old : Option UserAllocation}
    (hold : l.system.keeper.getUserAllocation airdropId strideAddress = old)
    (holdOwn : ∀ r, old = some r → r.airdropId = airdropId) {v : UserAllocation}
    (hv : v.user = (airdropId, strideAddress)) (hadds : Adds old host v) (admin : String) :
    LedgerInv l₀
      ⟨{ l.system with keeper := { l.system.keeper with
          userAllocations := (l.system.keeper.userAllocations.set v).delete
            (userAllocationKey airdropId hostAddress) } },
        grantsAfter l.granted (.linkAddresses admin airdropId strideAddress hostAddress)⟩ := by
  obtain ⟨hid, hclaimed, hforfeited⟩ := hhostOwn
  obtain ⟨hvid, hvaddress⟩ := Prod.mk.inj hv
  have hvkey : v.key = userAllocationKey airdropId strideAddress := by
    unfold UserAllocation.key
    rw [hvid, hvaddress]
  have hkeys : userAllocationKey airdropId hostAddress ≠ v.key := by
    rw [hvkey]
    exact fun heq => hne (userAllocationKey_inj_right.mp heq).symm
  have hgetOld : l.system.keeper.userAllocations.get? v.key = old := by
    rw [hvkey]
    exact hold
  have hgetHost : (l.system.keeper.userAllocations.set v).get?
      (userAllocationKey airdropId hostAddress) = some host :=
    (get?_set_of_ne _ _ hkeys).trans hhost
  have hhostUser : l.system.keeper.allocationOf (airdropId, hostAddress) = some host := by
    rw [allocationOf_eq fun r hr => ?_]
    · exact hhost
    · cases hhost.symm.trans hr
      exact hid
  have hstored := h.stored hhostUser
  have hunpaid := unpaid hstored hclaimed hforfeited
  have hbooks := h.users (airdropId, strideAddress)
  rw [allocationOf_eq fun r hr => holdOwn r (hold.symm.trans hr)] at hbooks
  replace hbooks := UserInv.books (hold ▸ hbooks)
  set store := (l.system.keeper.userAllocations.set v).delete
    (userAllocationKey airdropId hostAddress) with hstore
  have htotal (f : UserAllocation → ℤ) (hf : f v = old.elim 0 f + f host) (id : String) :
      ((store.values.filter fun r => r.airdropId = id).map f).sum =
        l.system.keeper.totalOf f id := by
    rw [hstore, sum_filter_delete, hgetHost, sum_filter_set, hgetOld, hf, hvid, Option.elim_some,
      hid]
    unfold totalOf
    cases old with
    | none =>
      simp only [Option.elim_none]
      split <;> omega
    | some u =>
      simp only [Option.elim_some, holdOwn u rfl]
      split <;> omega
  have hallocations : ({ l.system.keeper with userAllocations := store } : Keeper).allocationOf =
      update (update l.system.keeper.allocationOf (airdropId, strideAddress) (some v))
        (airdropId, hostAddress) none := by
    rw [← hv, ← allocationOf_set fun r hr => ?_, ← allocationOf_delete fun r hr => ?_]
    · cases hgetHost.symm.trans hr
      exact hid
    · exact (holdOwn r (hgetOld.symm.trans hr)).trans hvid.symm
  refine ⟨h.airdrops, h.period, fun a => ?_, fun id => ?_, fun id => ?_⟩
  · rw [hallocations]
    unfold grantsAfter
    dsimp only
    rcases eq_or_ne a (airdropId, hostAddress) with rfl | hnothost
    · -- nothing was paid to the host address, and nothing is left there
      rw [update_self, update_self]
      exact ⟨hunpaid, rfl⟩
    · rw [update_of_ne hnothost, update_of_ne hnothost]
      rcases eq_or_ne a (airdropId, strideAddress) with rfl | hnotstride
      · rw [update_self, update_self]
        refine ⟨hadds.nonneg hbooks.nonneg hstored.nonneg, fun airdrop hget => ?_, ?_, ?_⟩
        · rw [hadds.length]
          exact hstored.length airdrop hget
        · rw [hadds.claimed, hadds.forfeited]
          exact hbooks.claimed
        · intro hlate
          have hhostBooks := hstored.granted fun p hp hpaid => absurd hpaid (hunpaid p hp)
          rw [paidTo_eq_zero hunpaid] at hhostBooks
          have hold := hbooks.granted hlate
          rw [hadds.remaining]
          omega
      · rw [update_of_ne hnotstride, update_of_ne hnotstride]
        exact h.users a
  · rw [← h.allocated id]
    refine htotal _ ?_ id
    unfold UserAllocation.allocated
    rw [hadds.claimed, hadds.forfeited, hadds.remaining, hclaimed, hforfeited]
    cases old with
    | none => simp
    | some u =>
      simp only [Option.elim_some]
      omega
  · rw [← h.claimed id]
    refine htotal _ ?_ id
    rw [hadds.claimed, hclaimed, add_zero]

/-! ## Every step -/

private theorem ledgerStep_eq_some : l.step blockedAddr e = some l' ↔
    ∃ s', l.system.step blockedAddr e = some s' ∧ ⟨s', grantsAfter l.granted e⟩ = l' :=
  Option.map_eq_some_iff

/-- **One step** keeps the books. -/
theorem step (hstart : l₀.Starts) (h : LedgerInv l₀ l) (hok : LinksUnclaimed l e)
    (hstep : l.step blockedAddr e = some l') : LedgerInv l₀ l' := by
  obtain ⟨s', hsystem, rfl⟩ := ledgerStep_eq_some.mp hstep
  cases System.effect_of_step hsystem with
  | daily claimer airdropId blockTime airdrop u index p k' hindex hlt hne hp huser hpaid =>
    obtain ⟨rfl, rfl⟩ := huser
    subst hp
    have hstored := h.stored hpaid.allocationOf
    exact h.claim (booked_daily hstored.nonneg (by omega) hne) hpaid
  | early claimer airdropId blockTime airdrop u p k' hne hp huser hpaid =>
    obtain ⟨rfl, rfl⟩ := huser
    subst hp
    have hstored := h.stored hpaid.allocationOf
    -- a checked airdrop pays early no more than what is left
    have hchecked := hstart.checked _ airdrop (h.airdrops ▸ hpaid.configured)
    have hle : earlyRewards airdrop u.allocations.sum ≤ u.allocations.sum :=
      earlyRewards_le hstored.nonneg.remaining hchecked
    have hnonneg : 0 ≤ earlyRewards airdrop u.allocations.sum := hpaid.nonneg
    exact h.claim (booked_early hstored.nonneg hnonneg hle hne) hpaid
  | linked admin airdropId strideAddress hostAddress k' hlinked =>
    obtain ⟨hne, hstrideOwn, hhostOwn⟩ := hok
    cases hlinked with
    | moved host hhost hstride hk =>
      obtain ⟨rfl, hclaimed, hforfeited⟩ := hhostOwn host hhost
      -- the keys differ, so that the write and the removal commute
      have hkeys : UserAllocation.key { host with address := strideAddress } ≠
          userAllocationKey host.airdropId hostAddress :=
        fun heq => hne (userAllocationKey_inj_right.mp heq)
      rw [set_delete _ hkeys] at hk
      subst hk
      exact h.link hne hhost ⟨rfl, hclaimed, hforfeited⟩ hstride (by simp) rfl
        (adds_moved hclaimed hforfeited) admin
    | merged host u hhost hstride hlength hk =>
      obtain ⟨-, huser⟩ := allocationOf_eq_some.mp
        ((allocationOf_eq (a := (airdropId, strideAddress)) hstrideOwn).trans hstride)
      subst hk
      refine h.link hne hhost (hhostOwn host hhost) hstride (fun r hr => ?_)
        (v := mergedAllocation u host) huser (adds_merged hlength) admin
      exact hstrideOwn r (hstride.trans hr)
  | _ => cases hok

/-- After the end, a daily claim pays all that is left of the grant. -/
theorem claimed_all (hstart : l₀.Starts) (h : LedgerInv l₀ l) {claimer : String} {blockTime : Time}
    (hstep : l.step blockedAddr (.claimDaily claimer airdropId blockTime) = some l')
    (hairdrop : l.system.keeper.airdrops.get? (bytes airdropId) = some airdrop)
    (hend : unix airdrop.distributionEndDate ≤ unix blockTime)
    (hlate : ∀ p ∈ l'.system.payments, p.user = (airdropId, claimer) → p.early = false) :
    paidTo l'.system.payments (airdropId, claimer) = l'.granted (airdropId, claimer) := by
  have hafter : LedgerInv l₀ l' :=
    h.step hstart (show LinksUnclaimed l (.claimDaily claimer airdropId blockTime) from trivial)
      hstep
  obtain ⟨s', hsystem, rfl⟩ := ledgerStep_eq_some.mp hstep
  cases System.effect_of_step hsystem with
  | daily _ _ _ airdrop' u index p k' hindex hlt hne hp huser hpaid =>
    obtain ⟨rfl, rfl⟩ := huser
    have hsame : airdrop' = airdrop := Option.some.inj (hpaid.configured.symm.trans hairdrop)
    subst hsame
    have hstored := h.stored hpaid.allocationOf
    obtain ⟨periods, hperiods, -, hlast⟩ := Airdrop.getCurrentDateIndex_ok hindex
    rw [h.period, hstored.length airdrop' (h.airdrops ▸ hairdrop)] at hperiods
    cases hperiods
    -- an amount was claimed, so that the index is not negative
    have hnonneg : 0 ≤ index := by
      by_contra hneg
      have hzero : (index + 1).toNat = 0 := by omega
      rw [hp] at hne
      simp only [hzero, take_zero, sum_nil, ne_eq, not_true] at hne
    have hall : (index + 1).toNat = u.allocations.length := by
      have := hlast (airdropConfigValidateBasic_dates
        (hstart.checked _ airdrop' (h.airdrops ▸ hairdrop))) hend hnonneg
      omega
    have hnew : k'.allocationOf (u.airdropId, u.address) =
        some (dailyClaimed u (index + 1).toNat) := by
      refine allocationOf_eq_some.mpr ⟨?_, rfl⟩
      rw [hpaid.keeper]
      exact get?_set_self _ (dailyClaimed u (index + 1).toNat)
    have hbooks := (hafter.stored hnew).granted hlate
    rw [remaining_dailyClaimed, hall, take_length] at hbooks
    have hrest : u.getRemainingAllocations - u.allocations.sum = 0 := sub_self _
    rw [hrest, add_zero] at hbooks
    exact hbooks

end LedgerInv

/-! ## Runs -/

/-- A payment from the distributor of its airdrop to the account of its user. -/
structure PaidByDistributor (k k' : Keeper) (p : Payment) : Prop where
  send : ∃ airdrop distributorAccount claimerAccount,
    k.airdrops.get? (bytes p.airdropId) = some airdrop ∧
    strideAccount airdrop.distributorAddress = .ok distributorAccount ∧
    strideAccount p.address = .ok claimerAccount ∧
    k.bank.sendCoins distributorAccount claimerAccount (airdrop.rewardDenom, p.amount) =
      .ok k'.bank

private theorem PaidByDistributor.of_paidClaim {k : Keeper} {u : UserAllocation}
    (hp : p.user = u.user)
    (h : k.PaidClaim k' u.airdropId u.address airdrop u u' p.amount) :
    PaidByDistributor k k' p := by
  obtain ⟨distributorAccount, claimerAccount, hdistributor, hclaimer, hsent⟩ := h.sent
  obtain ⟨hid, haddress⟩ := Prod.mk.inj hp
  refine ⟨airdrop, distributorAccount, claimerAccount, ?_, hdistributor, ?_, hsent⟩
  · rw [hid]
    exact h.configured
  · rw [haddress]
    exact hclaimer

/-- An event pays at most once. -/
theorem payments_of_step (hok : LinksUnclaimed l e) (hstep : l.step blockedAddr e = some l') :
    (l'.system.payments = l.system.payments ∧ l'.system.keeper.bank = l.system.keeper.bank) ∨
      ∃ p, l'.system.payments = l.system.payments ++ [p] ∧
        PaidByDistributor l.system.keeper l'.system.keeper p := by
  obtain ⟨s', hsystem, rfl⟩ := LedgerInv.ledgerStep_eq_some.mp hstep
  cases System.effect_of_step hsystem with
  | daily claimer airdropId blockTime airdrop u index p k' hindex hlt hne hp huser hpaid =>
    obtain ⟨rfl, rfl⟩ := huser
    exact .inr ⟨p, rfl, .of_paidClaim (by rw [hp]; rfl) hpaid⟩
  | early claimer airdropId blockTime airdrop u p k' hne hp huser hpaid =>
    obtain ⟨rfl, rfl⟩ := huser
    exact .inr ⟨p, rfl, .of_paidClaim (by rw [hp]; rfl) hpaid⟩
  | linked admin airdropId strideAddress hostAddress k' hlinked =>
    cases hlinked with
    | moved host _ _ hk =>
      subst hk
      exact .inl ⟨rfl, rfl⟩
    | merged host u _ _ _ hk =>
      subst hk
      exact .inl ⟨rfl, rfl⟩
  | _ => cases hok

/-- **Allocations are conserved and paid once**, along every run of claims and links at any block
    times in which a linked host allocation was not claimed before: the allocated amounts stay the
    same, what was claimed was paid by the distributors, no amount is negative, and who never
    claims early has received everything after a daily claim at the end. -/
theorem allocations_conserved {blockedAddr : String → Bool} {l₀ l : Ledger} (hstart : l₀.Starts)
    (hrun : Reaches (Ledger.step blockedAddr) LinksUnclaimed l₀ l) :
    (∀ airdropId, l.system.keeper.totalOf UserAllocation.allocated airdropId =
      l₀.system.keeper.totalOf UserAllocation.allocated airdropId) ∧
    (∀ airdropId, paidFor l.system.payments airdropId =
      l.system.keeper.totalOf UserAllocation.claimed airdropId -
        l₀.system.keeper.totalOf UserAllocation.claimed airdropId) ∧
    (∀ e l', LinksUnclaimed l e → l.step blockedAddr e = some l' →
      (l'.system.payments = l.system.payments ∧ l'.system.keeper.bank = l.system.keeper.bank) ∨
        ∃ p, l'.system.payments = l.system.payments ++ [p] ∧
          PaidByDistributor l.system.keeper l'.system.keeper p) ∧
    (∀ r ∈ l.system.keeper.userAllocations.values, r.Nonneg) ∧
    ∀ claimer airdropId blockTime airdrop l',
      l.step blockedAddr (.claimDaily claimer airdropId blockTime) = some l' →
      l.system.keeper.airdrops.get? (bytes airdropId) = some airdrop →
      unix airdrop.distributionEndDate ≤ unix blockTime →
      (∀ p ∈ l'.system.payments, p.user = (airdropId, claimer) → p.early = false) →
      paidTo l'.system.payments (airdropId, claimer) = l'.granted (airdropId, claimer) := by
  have hinv : LedgerInv l₀ l :=
    hrun.invariant hstart.inv fun _ _ _ h hok hs => h.step hstart hok hs
  refine ⟨hinv.allocated, ?_, ?_, ?_, ?_⟩
  · intro airdropId
    rw [hinv.claimed airdropId]
    omega
  · intro e l' hok hstep
    exact payments_of_step hok hstep
  · intro r hr
    exact (hinv.stored (mem_values_iff_allocationOf.mp hr)).nonneg
  · intro claimer airdropId blockTime airdrop l' hstep hairdrop hend hlate
    exact hinv.claimed_all hstart hstep hairdrop hend hlate

/-! ### Runs on two users -/

/-- A ledger at the start of a run. -/
def Ledger.ofKeeper (k : Keeper) : Ledger :=
  ⟨⟨k, []⟩, fun a => (k.allocationOf a).elim 0 UserAllocation.getRemainingAllocations⟩

def dayNanoseconds : Time := 86400 * 10 ^ 9

def upperCaseAddress : String := "STRIDE10D07Y265GMMUVT4Z0W9AW880JNSR700JEFNEZL"

def twoDays : Airdrop := airdropOver 2

/-- A user with 5 on both days, and a host address with 10 and 20. -/
def twoUsers (hostAddress : String) : Keeper where
  periodLengthSeconds := 86400
  airdrops := KeyedStore.empty.set twoDays
  userAllocations := (KeyedStore.empty.set ⟨"airdrop", userAddress, 0, 0, [5, 5]⟩).set
    ⟨"airdrop", hostAddress, 0, 0, [10, 20]⟩
  bank := adminBank

private theorem starts_ofKeeper {k : Keeper} (hairdrops : k.airdrops = KeyedStore.empty.set twoDays)
    (hperiod : k.periodLengthSeconds = 86400)
    (hamounts : ∀ r ∈ k.userAllocations.values, 0 ≤ r.claimed ∧ 0 ≤ r.forfeited ∧
      (∀ amount ∈ r.allocations, 0 ≤ amount) ∧ r.allocations.length = 2) :
    (Ledger.ofKeeper k).Starts := by
  have hconfig (key : List UInt8) (airdrop : Airdrop) (hget : k.airdrops.get? key = some airdrop) :
      airdrop = twoDays := by
    rw [hairdrops, get?_set] at hget
    split at hget
    · cases hget
      rfl
    · cases hget
  refine ⟨rfl, fun _ => rfl, ?_, ?_, ?_⟩
  · intro key airdrop hget
    rw [hconfig key airdrop hget]
    decide +kernel
  · intro r hr
    obtain ⟨hclaimed, hforfeited, hallocations, -⟩ := hamounts r hr
    exact ⟨hclaimed, hforfeited, hallocations⟩
  · intro r hr airdrop hget
    obtain ⟨-, -, -, hlength⟩ := hamounts r hr
    rw [hconfig _ airdrop hget, hlength]
    show twoDays.getAirdropPeriods k.periodLengthSeconds = _
    rw [hperiod]
    decide +kernel

/-- A claim on the first day and a link after it. -/
def linkedAfterClaim : List Event :=
  [.claimDaily userAddress "airdrop" 0,
    .linkAddresses adminAddress "airdrop" userAddress "osmo1host"]

theorem allocations_conserved_linkedAfterClaim :
    ∃ l l', runAllowed (Ledger.step fun _ => false) LinksUnclaimed
        (.ofKeeper (twoUsers "osmo1host")) linkedAfterClaim = some l ∧
      l.step (fun _ => false) (.claimDaily userAddress "airdrop" (2 * dayNanoseconds)) = some l' ∧
      l.system.keeper.totalOf UserAllocation.allocated "airdrop" = 40 ∧
      paidTo l'.system.payments ("airdrop", userAddress) = 40 := by
  have hend : ((runAllowed (Ledger.step fun _ => false) LinksUnclaimed
      (.ofKeeper (twoUsers "osmo1host")) linkedAfterClaim).bind fun l =>
        (l.step (fun _ => false) (.claimDaily userAddress "airdrop" (2 * dayNanoseconds))).map
          fun l' => (l.system.keeper.airdrops.get? (bytes "airdrop"),
            l'.system.payments.map Payment.early, l'.granted ("airdrop", userAddress))) =
        some (some twoDays, [false, false], 40) := by
    decide +kernel
  obtain ⟨l, hl, hnext⟩ := Option.bind_eq_some_iff.mp hend
  obtain ⟨l', hl', hvalues⟩ := Option.map_eq_some_iff.mp hnext
  obtain ⟨hairdrop, hvalues⟩ := Prod.mk.inj hvalues
  obtain ⟨hearly, hgranted⟩ := Prod.mk.inj hvalues
  have hstart : (Ledger.ofKeeper (twoUsers "osmo1host")).Starts :=
    starts_ofKeeper rfl rfl (by decide +kernel)
  have hrun := Reaches.of_runAllowed hl
  obtain ⟨hallocated, -, -, -, hall⟩ := allocations_conserved hstart hrun
  refine ⟨l, l', hl, hl', ?_, ?_⟩
  · rw [hallocated]
    decide +kernel
  · rw [hall userAddress "airdrop" (2 * dayNanoseconds) twoDays l' hl' hairdrop (by decide +kernel),
      hgranted]
    intro p hp _
    have hmem := mem_map_of_mem (f := Payment.early) hp
    rw [hearly] at hmem
    simpa using hmem

/-- A claim by an address in capital letters, which is then linked as a host address. -/
def linkedClaimer : List Event :=
  [.claimDaily upperCaseAddress "airdrop" 0,
    .linkAddresses adminAddress "airdrop" userAddress upperCaseAddress]

/-- **The claim of a host address is lost**: an address in capital letters has an account, and it
    is not taken for a stride address by the link. Its 10 that were claimed are forgotten, and the
    amounts fall from 40 to 30. -/
theorem linked_claim_is_lost :
    (Ledger.ofKeeper (twoUsers upperCaseAddress)).Starts ∧
      (Ledger.ofKeeper (twoUsers upperCaseAddress)).system.keeper.totalOf
        UserAllocation.allocated "airdrop" = 40 ∧
      (runSteps (Ledger.step fun _ => false) (.ofKeeper (twoUsers upperCaseAddress))
        linkedClaimer).map (fun l =>
          (l.system.keeper.totalOf UserAllocation.allocated "airdrop",
            l.system.keeper.totalOf UserAllocation.claimed "airdrop",
            paidFor l.system.payments "airdrop")) = some (30, 0, 10) := by
  refine ⟨starts_ofKeeper rfl rfl ?_, ?_, ?_⟩
  · decide +kernel
  · decide +kernel
  · decide +kernel

end Stride.Airdrops
