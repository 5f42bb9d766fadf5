import Stride.Claim.RecordScan
import Stride.Claim.Round

/-!
# The Total Weight of an Airdrop

The distributor adds records by messages with lists of users and weights. Users who have a record
already are left out, and the weights of the others are added to the total weight. Whether a user
comes twice in the same list is not looked at.
-/

namespace Stride.Claim

open Lib Sdk List Round

namespace Keeper

variable {k k' : Keeper} {airdropIdentifier : String}

/-- The total weight is the sum of the weights of the records. -/
def AddsUp (k : Keeper) (airdropIdentifier : String) : Prop :=
  (k.getTotalWeight airdropIdentifier).i = k.weightOf airdropIdentifier

/-- The shares of the records of an airdrop in its total weight. -/
def shares (k : Keeper) (airdropIdentifier : String) : List ℚ :=
  (k.claimRecords.values.filter fun r => r.record.airdropIdentifier = airdropIdentifier).map
    fun r => r.record.weight.i / (k.getTotalWeight airdropIdentifier).i

private theorem AddsUp.sum_shares (h : k.AddsUp airdropIdentifier)
    (hne : (k.getTotalWeight airdropIdentifier).i ≠ 0) : (k.shares airdropIdentifier).sum = 1 := by
  have hdiv : (k.shares airdropIdentifier).sum =
      (k.weightOf airdropIdentifier : ℚ) / (k.getTotalWeight airdropIdentifier).i := by
    unfold shares weightOf
    generalize k.claimRecords.values.filter _ = l
    induction l with
    | nil => simp
    | cons r l ih =>
      simp only [map_cons, sum_cons]
      rw [ih]
      push_cast
      ring
  rw [hdiv, ← h]
  exact div_self (by exact_mod_cast hne)

/-- **A round can start** with total weights that add up, if the scan of the airdrop finds its own
    records only. -/
theorem AddsUp.roundStart (h : k.AddsUp airdropIdentifier)
    (hseparated : k.KeysSeparated airdropIdentifier) {airdrop : Airdrop} {distributor : AccAddress}
    (hairdrop : k.getAirdropByIdentifier airdropIdentifier = some airdrop)
    (hdistributor : accAddress airdrop.distributorAddress = .ok distributor)
    (hunclaimed : airdrop.claimedSoFar = 0)
    (hpool : 0 ≤ k.startPool airdrop distributor)
    (hweights : ∀ r ∈ k.claimRecords.values, r.record.airdropIdentifier = airdropIdentifier →
      0 ≤ r.record.weight.i) : k.RoundStart airdropIdentifier airdrop distributor := by
  have hscan := scan_eq_iff.mpr hseparated
  refine ⟨hairdrop, hdistributor, hunclaimed, hpool, fun r hr => ?_, ?_⟩
  · rw [hscan, mem_filter] at hr
    exact hweights r hr.1 (of_decide_eq_true hr.2)
  · rw [hscan]
    exact h

/-! ## Writes -/

private theorem weightOf_set {stored : StoredRecord}
    (hnew : k.claimRecords.get? stored.key = none) :
    weightOf { k with claimRecords := k.claimRecords.set stored } airdropIdentifier =
      k.weightOf airdropIdentifier +
        if stored.record.airdropIdentifier = airdropIdentifier then
          stored.record.weight.i else 0 := by
  unfold weightOf
  rw [KeyedStore.sum_filter_set, hnew]
  simp

variable {records : List ClaimRecord} {identifier : String}

/-- **Loop lemma**: records of different accounts, none of which is stored, add their weights. -/
theorem setClaimRecords_weightOf (hid : ∀ r ∈ records, r.airdropIdentifier = identifier)
    (hnew : ∀ r ∈ records, ∀ account, accAddress r.address = .ok account →
      k.claimRecords.get? (claimRecordKey identifier account) = none)
    (hnd : (records.map fun r => accAddress r.address).Nodup)
    (h : k.setClaimRecords records = .ok k') :
    k'.weightOf airdropIdentifier = k.weightOf airdropIdentifier +
        (if identifier = airdropIdentifier then (records.map fun r => r.weight.i).sum else 0) ∧
      k'.totalWeights = k.totalWeights := by
  induction records generalizing k with
  | nil =>
    cases h
    simp
  | cons record records ih =>
    obtain ⟨k₁, hset, hrest⟩ := bind_eq_ok.mp h
    obtain ⟨stored, hstored, rfl⟩ := setClaimRecord_ok hset
    have hdecoded : accAddress record.address = .ok stored.account := by
      rw [← hstored]
      exact stored.decoded
    have hidentifier : stored.record.airdropIdentifier = identifier := by
      rw [hstored]
      exact hid record mem_cons_self
    have hkey : stored.key = claimRecordKey identifier stored.account := by
      unfold StoredRecord.key
      rw [hidentifier]
    have hfree : k.claimRecords.get? stored.key = none := by
      rw [hkey]
      exact hnew record mem_cons_self stored.account hdecoded
    rw [map_cons, nodup_cons] at hnd
    -- the accounts that are left are others than this one, so that they are still free
    have hleft : ∀ r ∈ records, ∀ account, accAddress r.address = .ok account →
        (k.claimRecords.set stored).get? (claimRecordKey identifier account) = none := by
      intro r hr account haccount
      have hother : claimRecordKey identifier account ≠ stored.key := by
        rw [hkey]
        intro hsame
        refine hnd.1 (mem_map.mpr ⟨r, hr, ?_⟩)
        rw [haccount, hdecoded, claimRecordKey_inj hsame]
      rw [KeyedStore.get?_set_of_ne _ _ hother]
      exact hnew r (mem_cons_of_mem record hr) account haccount
    obtain ⟨hweight, htotals⟩ := ih (fun r hr => hid r (mem_cons_of_mem record hr)) hleft
      hnd.2 hrest
    refine ⟨?_, htotals⟩
    rw [hweight, weightOf_set hfree, hidentifier, hstored]
    split
    · rw [map_cons, sum_cons]
      ring
    · ring

/-! ## Messages -/

def DistinctUsers (msg : MsgSetAirdropAllocations) : Prop :=
  (msg.users.map fun user => accAddress (convertAddressToStrideAddress user)).Nodup

private theorem foldl_add_weight (users : List (String × LegacyDec)) (total : LegacyDec) :
    (users.foldl (fun total (u : String × LegacyDec) => total.add u.2) total).i =
      total.i + (users.map fun u => u.2.i).sum := by
  induction users generalizing total with
  | nil => simp
  | cons u users ih =>
    rw [foldl_cons, ih, map_cons, sum_cons]
    simp only [LegacyDec.add]
    ring

private theorem getTotalWeight_setTotalWeight (total : LegacyDec) (identifier : String) :
    (k.setTotalWeight total identifier).getTotalWeight airdropIdentifier =
      if airdropIdentifier = identifier then total else k.getTotalWeight airdropIdentifier := by
  unfold getTotalWeight setTotalWeight
  rw [KVStore.get?_set]
  by_cases hsame : airdropIdentifier = identifier
  · rw [if_pos (congrArg rawBytes hsame), if_pos hsame]
    rfl
  · rw [if_neg fun h => hsame (rawBytes_inj.mp h), if_neg hsame]

private theorem accAddress_convert {user : String} {account : AccAddress}
    (h : accAddress user = .ok account) :
    accAddress (convertAddressToStrideAddress user) = .ok account :=
  accAddressFromBech32_convertAddress h

private theorem nodup_accAddress {users : List String}
    (h : (users.map fun user => accAddress (convertAddressToStrideAddress user)).Nodup)
    (hok : ∀ user ∈ users, (accAddress user).isOk) :
    (users.map fun user => accAddress user).Nodup := by
  have hsame : users.map (fun user => accAddress user) =
      users.map fun user => accAddress (convertAddressToStrideAddress user) := by
    refine map_congr_left fun user huser => ?_
    cases haccount : accAddress user with
    | error e =>
      have hbad := hok user huser
      rw [haccount] at hbad
      cases hbad
    | ok account => rw [accAddress_convert haccount]
  rw [hsame]
  exact h

private theorem isOk_of_setClaimRecords (h : k.setClaimRecords records = .ok k') :
    ∀ r ∈ records, (accAddress r.address).isOk := by
  induction records generalizing k with
  | nil => simp
  | cons record records ih =>
    obtain ⟨k₁, hset, hrest⟩ := bind_eq_ok.mp h
    obtain ⟨stored, hstored, -⟩ := setClaimRecord_ok hset
    intro r hr
    rcases mem_cons.mp hr with rfl | hr
    · rw [← hstored, stored.decoded]
      rfl
    · exact ih hrest r hr

/-- New users with one record each add their weights. -/
theorem addUsers_addsUp {users : List (String × LegacyDec)}
    (hnew : ∀ u ∈ users, ∀ account, accAddress u.1 = .ok account →
      k.claimRecords.get? (claimRecordKey identifier account) = none)
    (hnd : (users.map fun u => accAddress u.1).Nodup)
    (h : (k.setTotalWeight (users.foldl (fun total (u : String × LegacyDec) => total.add u.2)
        (k.getTotalWeight identifier)) identifier).setClaimRecords
      (users.map fun u => ⟨identifier, u.1, u.2, [false, false, false]⟩) = .ok k')
    (hadds : k.AddsUp airdropIdentifier) : k'.AddsUp airdropIdentifier := by
  have hloop : k'.weightOf airdropIdentifier = k.weightOf airdropIdentifier +
        (if identifier = airdropIdentifier then
          ((users.map fun u => (⟨identifier, u.1, u.2, [false, false, false]⟩ : ClaimRecord)).map
            fun r => r.weight.i).sum else 0) ∧
      k'.totalWeights = (k.setTotalWeight (users.foldl
        (fun total (u : String × LegacyDec) => total.add u.2) (k.getTotalWeight identifier))
        identifier).totalWeights := by
    refine setClaimRecords_weightOf ?_ ?_ ?_ h
    · intro r hr
      obtain ⟨u, -, rfl⟩ := mem_map.mp hr
      rfl
    · intro r hr account haccount
      obtain ⟨u, hu, rfl⟩ := mem_map.mp hr
      exact hnew u hu account haccount
    · rw [map_map]
      exact hnd
  obtain ⟨hweight, htotals⟩ := hloop
  have hsum : (users.map fun u => (⟨identifier, u.1, u.2, [false, false, false]⟩ :
      ClaimRecord)).map (fun r => r.weight.i) = users.map fun u => u.2.i := by
    rw [map_map]
    rfl
  unfold AddsUp at hadds ⊢
  rw [getTotalWeight_congr htotals, getTotalWeight_setTotalWeight, hweight, hsum]
  -- the total of another airdrop is not written
  by_cases hsame : identifier = airdropIdentifier
  · subst hsame
    rw [if_pos rfl, if_pos rfl, foldl_add_weight, hadds]
  · rw [if_neg fun h => hsame h.symm, if_neg hsame, add_zero]
    exact hadds

/-- **One message** whose users are different keeps the total weights. -/
theorem setAirdropAllocations_addsUp {msg : MsgSetAirdropAllocations}
    (hlength : msg.users.length = msg.weights.length) (hdistinct : DistinctUsers msg)
    (h : k.setAirdropAllocations msg = .ok k') (hadds : k.AddsUp airdropIdentifier) :
    k'.AddsUp airdropIdentifier := by
  obtain ⟨distributor, -, h⟩ := bind_eq_ok.mp h
  obtain ⟨addr, -, h⟩ := bind_eq_ok.mp h
  obtain ⟨_, -, h⟩ := bind_eq_ok.mp h
  have hok := isOk_of_setClaimRecords h
  refine addUsers_addsUp ?_ ?_ h hadds
  · -- the account of a record that is written is the one the filter looked up
    intro u hu account haccount
    have hnone := (mem_filter.mp hu).2
    dsimp only at hnone
    rw [accAddress_convert haccount] at hnone
    exact Option.isNone_iff_eq_none.mp hnone
  · have hzip : (msg.users.zip msg.weights).map Prod.fst = msg.users :=
      map_fst_zip hlength.le
    have hsub : ((k.getUnallocatedUsers msg.airdropIdentifier
        (msg.users.zip msg.weights)).map Prod.fst).Sublist msg.users := by
      have hfilter : ((k.getUnallocatedUsers msg.airdropIdentifier
          (msg.users.zip msg.weights)).map Prod.fst).Sublist
            ((msg.users.zip msg.weights).map Prod.fst) := filter_sublist.map Prod.fst
      rw [hzip] at hfilter
      exact hfilter
    have hall : (((k.getUnallocatedUsers msg.airdropIdentifier
        (msg.users.zip msg.weights)).map Prod.fst).map fun user => accAddress user).Nodup := by
      refine nodup_accAddress (hdistinct.sublist (hsub.map _)) ?_
      intro user huser
      obtain ⟨u, hu, rfl⟩ := mem_map.mp huser
      exact hok ⟨msg.airdropIdentifier, u.1, u.2, [false, false, false]⟩
        (mem_map.mpr ⟨u, hu, rfl⟩)
    rw [map_map] at hall
    exact hall

private theorem PaidClaim.addsUp {otherIdentifier : String} {addr : AccAddress} {action : Action}
    {amount : ℤ} {airdrop : Airdrop} {distributor : AccAddress} {old new : StoredRecord}
    {blockTime : Time}
    (h : PaidClaim k k' blockTime addr action otherIdentifier amount airdrop distributor old new)
    (hadds : k.AddsUp airdropIdentifier) : k'.AddsUp airdropIdentifier := by
  have hweight : k'.weightOf airdropIdentifier = k.weightOf airdropIdentifier := by
    unfold weightOf
    rw [h.records_eq, KeyedStore.sum_filter_set, h.key_eq, h.old_eq, Option.elim_some, h.new_eq]
    ring
  unfold AddsUp at hadds ⊢
  rw [h.total_eq, hweight]
  exact hadds

end Keeper

/-! ## Runs -/

/-- A message of the distributor, or a claim. -/
inductive AllocationEvent where
  | allocate (msg : Keeper.MsgSetAirdropAllocations)
  | claim (c : ClaimCall)

namespace AllocationEvent

open Keeper

/-- An event that goes through. -/
def step (blockedAddr : String → Bool) (k : Keeper) : AllocationEvent → Option Keeper
  | .allocate msg =>
    if msg.validateBasic.isOk then (k.setAirdropAllocations msg).toOption else none
  | .claim c =>
    (k.claimCoinsForAction blockedAddr c.blockTime c.addr c.action
      c.airdropIdentifier).toOption.map Prod.fst

def UsersDiffer (_ : Keeper) : AllocationEvent → Prop
  | .allocate msg => DistinctUsers msg
  | .claim _ => True

variable {blockedAddr : String → Bool} {k₀ k k' : Keeper} {airdropIdentifier : String}

/-- **Step lemma** for the total weight. -/
theorem addsUp_step {e : AllocationEvent} (hadds : k.AddsUp airdropIdentifier)
    (hdiffer : UsersDiffer k e) (hstep : step blockedAddr k e = some k') :
    k'.AddsUp airdropIdentifier := by
  cases e with
  | allocate msg =>
    simp only [step] at hstep
    split at hstep
    · rename_i hvalid
      -- `ValidateBasic` has compared the lengths
      have hlength : msg.users.length = msg.weights.length := by
        cases hbasic : msg.validateBasic with
        | error e =>
          rw [hbasic] at hvalid
          cases hvalid
        | ok u =>
          obtain ⟨_, -, hbasic⟩ := bind_eq_ok.mp hbasic
          obtain ⟨_, -, hbasic⟩ := bind_eq_ok.mp hbasic
          obtain ⟨_, -, hbasic⟩ := bind_eq_ok.mp hbasic
          obtain ⟨_, -, hbasic⟩ := bind_eq_ok.mp hbasic
          obtain ⟨_, hlength, -⟩ := bind_eq_ok.mp hbasic
          exact require_eq_ok.mp hlength
      exact setAirdropAllocations_addsUp hlength hdiffer (toOption_eq_some.mp hstep) hadds
    · cases hstep
  | claim c =>
    obtain ⟨⟨keeper, amount⟩, hclaim, rfl⟩ := toOption_map_eq_some.mp hstep
    rcases claimCoinsForAction_ok hclaim with ⟨-, rfl⟩ | ⟨_, _, _, _, hpaid⟩
    · exact hadds
    · exact hpaid.addsUp hadds

/-- **Allocations add up**, along every run of claims and of messages whose users are different: the
    total weight is the sum of the weights of the records, and their shares are one. So a round can
    start if nothing was claimed, no weight is negative and the keys of the airdrop are
    separated. -/
theorem allocations_add_up (hstart : k₀.AddsUp airdropIdentifier)
    (hrun : Reaches (step blockedAddr) UsersDiffer k₀ k) :
    (k.getTotalWeight airdropIdentifier).i = k.weightOf airdropIdentifier ∧
      ((k.getTotalWeight airdropIdentifier).i ≠ 0 → (k.shares airdropIdentifier).sum = 1) ∧
      (k.KeysSeparated airdropIdentifier → ∀ airdrop distributor,
        k.getAirdropByIdentifier airdropIdentifier = some airdrop →
        accAddress airdrop.distributorAddress = .ok distributor → airdrop.claimedSoFar = 0 →
        0 ≤ k.startPool airdrop distributor →
        (∀ r ∈ k.claimRecords.values, r.record.airdropIdentifier = airdropIdentifier →
          0 ≤ r.record.weight.i) →
        k.RoundStart airdropIdentifier airdrop distributor) := by
  have hadds : k.AddsUp airdropIdentifier := by
    refine hrun.invariant (I := fun k => k.AddsUp airdropIdentifier) hstart ?_
    intro k e k' hadds hdiffer hstep
    exact addsUp_step hadds hdiffer hstep
  exact ⟨hadds, hadds.sum_shares, fun hseparated _ _ => hadds.roundStart hseparated⟩

/-! ### Users of one message -/

/-- A message of the distributor, with users who all have the weight 1. -/
def allocateMsg (users : List AccAddress) : MsgSetAirdropAllocations where
  allocator := convertAndEncode "stride" distributorAccount
  airdropIdentifier := "atom"
  users := users.map (convertAndEncode "stride")
  weights := users.map fun _ => ⟨10 ^ 18⟩

/-- Two users. -/
theorem allocations_add_up_two :
    ∃ k, step (fun _ => false) (newAirdrop 3)
        (.allocate (allocateMsg [userAccount, otherAccount])) = some k ∧
      k.weightOf "atom" = 2 * 10 ^ 18 ∧ (k.shares "atom").sum = 1 := by
  have hend : (step (fun _ => false) (newAirdrop 3)
      (.allocate (allocateMsg [userAccount, otherAccount]))).map
        (fun k => (k.getTotalWeight "atom").i) = some (2 * 10 ^ 18) := by
    decide +kernel
  obtain ⟨k, hk, htotal⟩ := Option.map_eq_some_iff.mp hend
  have hdiffer : UsersDiffer (newAirdrop 3)
      (.allocate (allocateMsg [userAccount, otherAccount])) := by
    show (map _ _).Nodup
    decide +kernel
  have hstart : (newAirdrop 3).AddsUp "atom" := rfl
  have hadds := allocations_add_up hstart (.tail _ .refl hdiffer hk)
  refine ⟨k, hk, ?_, hadds.2.1 ?_⟩
  · rw [← hadds.1, htotal]
  · rw [htotal]
    decide

/-- **A repeated user counts twice** in the total weight, and has one record. -/
theorem repeated_user_counts_twice :
    (step (fun _ => false) (newAirdrop 3)
      (.allocate (allocateMsg [userAccount, userAccount]))).map
        (fun k => ((k.getTotalWeight "atom").i, k.weightOf "atom",
          k.claimRecords.values.length)) = some (2 * 10 ^ 18, 10 ^ 18, 1) := by
  decide +kernel

end AllocationEvent

end Stride.Claim
