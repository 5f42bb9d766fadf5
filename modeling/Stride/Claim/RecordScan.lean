import Stride.Claim.Keeper

/-!
# Scans of Claim Records

The records of an airdrop are found by the bytes of its identifier. These are also the first bytes
of the keys of an airdrop whose identifier goes on from there.
-/

namespace Stride.Claim

open Lib Sdk KeyedStore List

namespace Keeper

/-- No record of another airdrop has a key that starts with the identifier. -/
def KeysSeparated (k : Keeper) (airdropIdentifier : String) : Prop :=
  ∀ r ∈ k.claimRecords.values, r.record.airdropIdentifier ≠ airdropIdentifier →
    ¬ rawBytes airdropIdentifier <+: r.key

/-- The records of the other airdrops are the same. -/
def OthersUnchanged (k k' : Keeper) (airdropIdentifier : String) : Prop :=
  ∀ r : StoredRecord, r.record.airdropIdentifier ≠ airdropIdentifier →
    (r ∈ k'.claimRecords.values ↔ r ∈ k.claimRecords.values)

/-! ## Writes under keys of an airdrop -/

/-- The store differs from the one before only under keys that start with the identifier, and
    there it only has records of the airdrop. -/
structure Framed (s s' : KeyedStore StoredRecord.key) (airdropIdentifier : String) : Prop where
  frame : ∀ key, ¬ rawBytes airdropIdentifier <+: key → s'.get? key = s.get? key
  own : ∀ r ∈ s'.values, rawBytes airdropIdentifier <+: r.key →
    r.record.airdropIdentifier = airdropIdentifier

private theorem prefix_claimRecordKey (airdropIdentifier : String) (addr : AccAddress) :
    rawBytes airdropIdentifier <+: claimRecordKey airdropIdentifier addr :=
  prefix_append _ _

variable {r : StoredRecord}

namespace Framed

variable {k : Keeper} {s s' : KeyedStore StoredRecord.key} {airdropIdentifier : String}

private theorem refl (h : k.KeysSeparated airdropIdentifier) :
    Framed k.claimRecords k.claimRecords airdropIdentifier where
  frame := fun _ _ => rfl
  own := by
    intro r hr hstarts
    by_contra hother
    exact h r hr hother hstarts

private theorem set (h : Framed s s' airdropIdentifier)
    (hr : r.record.airdropIdentifier = airdropIdentifier) :
    Framed s (s'.set r) airdropIdentifier where
  frame := by
    intro key hkey
    have hne : key ≠ r.key := by
      rintro rfl
      refine hkey ?_
      rw [← hr]
      exact prefix_claimRecordKey _ _
    rw [get?_set_of_ne _ _ hne]
    exact h.frame key hkey
  own := by
    intro q hq hstarts
    rcases mem_values_set hq with rfl | hold
    · exact hr
    · exact h.own q hold hstarts

private theorem delete (h : Framed s s' airdropIdentifier) {key : List ℕ}
    (hkey : rawBytes airdropIdentifier <+: key) : Framed s (s'.delete key) airdropIdentifier where
  frame := by
    intro key' hkey'
    have hne : key' ≠ key := by
      rintro rfl
      exact hkey' hkey
    rw [get?_delete_of_ne _ hne]
    exact h.frame key' hkey'
  own := fun q hq hstarts => h.own q (mem_values_delete hq) hstarts

/-- **The other airdrops are left alone**, if their keys are separated. -/
theorem others {k' : Keeper} (h : Framed k.claimRecords k'.claimRecords airdropIdentifier)
    (hseparated : k.KeysSeparated airdropIdentifier) : OthersUnchanged k k' airdropIdentifier := by
  intro r hother
  constructor
  · intro hr
    have hkey : ¬ rawBytes airdropIdentifier <+: r.key := fun hstarts =>
      hother (h.own r hr hstarts)
    rw [mem_values_iff, ← h.frame r.key hkey]
    exact mem_values_iff.mp hr
  · intro hr
    rw [mem_values_iff, h.frame r.key (hseparated r hr hother)]
    exact mem_values_iff.mp hr

end Framed

/-! ## The operations -/

variable {k : Keeper} {airdropIdentifier : String}

private theorem mem_scan : r ∈ k.scan airdropIdentifier ↔
    r ∈ k.claimRecords.values ∧ rawBytes airdropIdentifier <+: r.key := by
  unfold scan
  rw [mem_filter, isPrefixOf_iff_prefix]

/-- A scan finds the records of the airdrop, and others whose keys start alike. -/
theorem scan_eq_iff : (k.scan airdropIdentifier = k.claimRecords.values.filter fun r =>
    r.record.airdropIdentifier = airdropIdentifier) ↔ k.KeysSeparated airdropIdentifier := by
  constructor
  · intro hscan r hr hother hstarts
    have hmem := mem_scan.mpr ⟨hr, hstarts⟩
    rw [hscan, mem_filter] at hmem
    exact hother (of_decide_eq_true hmem.2)
  · intro hseparated
    refine filter_congr fun r hr => ?_
    rw [Bool.eq_iff_iff, isPrefixOf_iff_prefix, decide_eq_true_iff]
    constructor
    · intro hstarts
      by_contra hother
      exact hseparated r hr hother hstarts
    · rintro rfl
      exact prefix_claimRecordKey _ _

/-- A record without completed actions. -/
def resetRecord (r : StoredRecord) : StoredRecord :=
  ⟨{ r.record with actionCompleted := [false, false, false] }, r.account, r.decoded⟩

private theorem setClaimRecords_reset (l : List StoredRecord) (k : Keeper) :
    k.setClaimRecords ((l.map StoredRecord.record).map fun r =>
        { r with actionCompleted := [false, false, false] }) =
      .ok { k with
        claimRecords := l.foldl (fun s r => s.set (resetRecord r)) k.claimRecords } := by
  induction l generalizing k with
  | nil => rfl
  | cons r l ih =>
    have hset : k.setClaimRecord (resetRecord r).record =
        .ok { k with claimRecords := k.claimRecords.set (resetRecord r) } :=
      setClaimRecord_eq (resetRecord r).decoded
    exact bind_eq_ok.mpr ⟨_, hset, ih _⟩

section

variable (h : k.KeysSeparated airdropIdentifier)
include h

private theorem framed_reset : Framed k.claimRecords
      ((k.scan airdropIdentifier).foldl (fun s r => s.set (resetRecord r)) k.claimRecords)
      airdropIdentifier := by
  -- every record that is visited is one of the airdrop
  have hown : ∀ r ∈ k.scan airdropIdentifier, r.record.airdropIdentifier = airdropIdentifier := by
    intro r hr
    obtain ⟨hmem, hstarts⟩ := mem_scan.mp hr
    exact (Framed.refl h).own r hmem hstarts
  generalize k.scan airdropIdentifier = l at hown
  suffices hgen : ∀ s, Framed k.claimRecords s airdropIdentifier →
      Framed k.claimRecords (l.foldl (fun s r => s.set (resetRecord r)) s) airdropIdentifier from
    hgen _ (Framed.refl h)
  induction l with
  | nil => exact fun _ hs => hs
  | cons r l ih =>
    intro s hs
    exact ih (fun q hq => hown q (mem_cons_of_mem r hq)) _
      (hs.set (r := resetRecord r) (hown r mem_cons_self))

private theorem framed_clear :
    Framed k.claimRecords (k.clearInitialClaimables airdropIdentifier).claimRecords
      airdropIdentifier := by
  have hstarts : ∀ key ∈ (k.scan airdropIdentifier).map StoredRecord.key,
      rawBytes airdropIdentifier <+: key := by
    intro key hkey
    obtain ⟨r, hr, rfl⟩ := mem_map.mp hkey
    exact (mem_scan.mp hr).2
  unfold clearInitialClaimables
  generalize (k.scan airdropIdentifier).map StoredRecord.key = keys at hstarts
  suffices hgen : ∀ s, Framed k.claimRecords s airdropIdentifier →
      Framed k.claimRecords (keys.foldl (fun s key => s.delete key) s) airdropIdentifier from
    hgen _ (Framed.refl h)
  induction keys with
  | nil => exact fun _ hs => hs
  | cons key keys ih =>
    intro s hs
    exact ih (fun q hq => hstarts q (mem_cons_of_mem key hq)) _
      (hs.delete (hstarts key mem_cons_self))

private theorem resetClaimStatus_others (blockTime : Time) :
    ∃ k', k.resetClaimStatus blockTime airdropIdentifier = .ok k' ∧
      OthersUnchanged k k' airdropIdentifier := by
  unfold resetClaimStatus
  split
  · exact ⟨_, bind_eq_ok.mpr ⟨_, setClaimRecords_reset _ k, rfl⟩, Framed.others (framed_reset h) h⟩
  · exact ⟨k, rfl, fun _ _ => Iff.rfl⟩

end

/-- **The operations on an airdrop concern its own records exactly when the keys are separated**:
    the scan returns the records of the airdrop, and a reset, the end of the airdrop, and each write
    or removal of its records leave the records of every other airdrop alone. -/
theorem operations_isolated_iff (k : Keeper) (airdropIdentifier : String) :
    (k.getClaimRecords airdropIdentifier =
        (k.claimRecords.values.map StoredRecord.record).filter
          (fun r => r.airdropIdentifier = airdropIdentifier) ∧
      (∀ blockTime, ∃ k', k.resetClaimStatus blockTime airdropIdentifier = .ok k' ∧
        OthersUnchanged k k' airdropIdentifier) ∧
      OthersUnchanged k (k.endAirdrop airdropIdentifier) airdropIdentifier ∧
      (∀ record k', record.airdropIdentifier = airdropIdentifier →
        k.setClaimRecord record = .ok k' → OthersUnchanged k k' airdropIdentifier) ∧
      ∀ addr, OthersUnchanged k (k.deleteClaimRecord addr airdropIdentifier) airdropIdentifier) ↔
    k.KeysSeparated airdropIdentifier := by
  constructor
  · -- already the scan finds a record whose key is not separated
    rintro ⟨hscan, -⟩ r hr hother hstarts
    have hmem : r.record ∈ k.getClaimRecords airdropIdentifier :=
      mem_map_of_mem (mem_scan.mpr ⟨hr, hstarts⟩)
    rw [hscan, mem_filter] at hmem
    exact hother (of_decide_eq_true hmem.2)
  · intro h
    refine ⟨?_, resetClaimStatus_others h, Framed.others (framed_clear h) h, ?_, ?_⟩
    · unfold getClaimRecords
      rw [scan_eq_iff.mpr h, filter_map]
      rfl
    · intro record k' hid hset
      obtain ⟨stored, rfl, rfl⟩ := setClaimRecord_ok hset
      exact Framed.others ((Framed.refl h).set hid) h
    · intro addr
      exact Framed.others ((Framed.refl h).delete (prefix_claimRecordKey _ _)) h

/-! ### Two airdrops -/

def oneRecord (record : ClaimRecord) : Result Keeper :=
  setClaimRecord
    { airdrops := []
      claimRecords := empty
      totalWeights := KVStore.empty
      accounts := fun _ => .base
      bank := { balance := fun _ _ => 0, supply := fun _ => 0 } }
    record

/-- **A scan reaches a longer identifier**: the record of the airdrop `evmos2` is among those of
    the airdrop `evmos`, and the end of `evmos` removes it. -/
theorem scan_reaches_longer_identifier :
    (oneRecord ⟨"evmos2", "stride1g7yxhuppp5x3yqkah5mw29eqq5s4sv2f222xmk", ⟨10 ^ 18⟩,
        [true, false, false]⟩).toOption.map (fun k =>
      ((k.getClaimRecords "evmos").map ClaimRecord.airdropIdentifier,
        (k.getClaimRecords "evmos2").length,
        ((k.endAirdrop "evmos").getClaimRecords "evmos2").length)) = some (["evmos2"], 1, 0) := by
  decide +kernel

end Keeper

end Stride.Claim
