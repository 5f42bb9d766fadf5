import Stride.Lib.KVStore
import Stride.Sdk.Bytes
import Mathlib.Data.List.Nodup

/-!
# LSM Token Deposits

A deposit of tokenized shares is stored under the bytes of its chain id followed by the bytes
of its denom, without a separator. The deposits of a zone are read by a scan over all keys that
start with the bytes of the chain id.
-/

namespace Stride.Records

open Lib Sdk KeyedStore List

/-! ## Types -/

inductive LSMTokenDepositStatus where
  | depositPending
  | transferQueue
  | transferInProgress
  | transferFailed
  | detokenizationQueue
  | detokenizationInProgress
  | detokenizationFailed
  deriving DecidableEq

/-- `LSMTokenDeposit`. The stToken coin is its denom and its amount. -/
structure LSMTokenDeposit where
  depositId : String
  chainId : String
  denom : String
  ibcDenom : String
  stakerAddress : String
  validatorAddress : String
  amount : ℤ
  stToken : String × ℤ
  status : LSMTokenDepositStatus
  deriving DecidableEq

def getLSMTokenDepositKey (chainId denom : String) : List UInt8 := bytes chainId ++ bytes denom

def LSMTokenDeposit.key (deposit : LSMTokenDeposit) : List UInt8 :=
  getLSMTokenDepositKey deposit.chainId deposit.denom

/-- The deposits, each under its key. -/
abbrev LSMTokenDepositStore := KeyedStore LSMTokenDeposit.key

/-! ## The keeper -/

namespace LSMTokenDepositStore

def setLSMTokenDeposit (s : LSMTokenDepositStore) (deposit : LSMTokenDeposit) :
    LSMTokenDepositStore :=
  s.set deposit

def removeLSMTokenDeposit (s : LSMTokenDepositStore) (chainId denom : String) :
    LSMTokenDepositStore :=
  s.delete (getLSMTokenDepositKey chainId denom)

def getLSMTokenDeposit (s : LSMTokenDepositStore) (chainId denom : String) :
    Option LSMTokenDeposit :=
  s.get? (getLSMTokenDepositKey chainId denom)

def getAllLSMTokenDeposit (s : LSMTokenDepositStore) : List LSMTokenDeposit := s.values

def updateLSMTokenDepositStatus (s : LSMTokenDepositStore) (deposit : LSMTokenDeposit)
    (status : LSMTokenDepositStatus) : LSMTokenDepositStore :=
  s.setLSMTokenDeposit { deposit with status := status }

/-- `GetLSMDepositsForHostZone`: the iterator stays on the keys with the prefix `chainId`. -/
def getLSMDepositsForHostZone (s : LSMTokenDepositStore) (chainId : String) :
    List LSMTokenDeposit :=
  s.values.filter fun deposit => bytes chainId <+: deposit.key

def getLSMDepositsForHostZoneWithStatus (s : LSMTokenDepositStore) (chainId : String)
    (status : LSMTokenDepositStatus) : List LSMTokenDeposit :=
  (s.getLSMDepositsForHostZone chainId).filter fun deposit => deposit.status = status

variable {s : LSMTokenDepositStore} {chainId denom : String} {x y : LSMTokenDeposit}

theorem mem_getAll_iff : x ∈ s.getAllLSMTokenDeposit ↔ s.get? x.key = some x :=
  mem_values_iff

private theorem mem_getLSMDepositsForHostZone :
    x ∈ s.getLSMDepositsForHostZone chainId ↔
      x ∈ s.getAllLSMTokenDeposit ∧ bytes chainId <+: x.key := by
  simp [getLSMDepositsForHostZone, getAllLSMTokenDeposit]

theorem of_mem_getLSMDepositsForHostZoneWithStatus {status : LSMTokenDepositStatus}
    (h : x ∈ s.getLSMDepositsForHostZoneWithStatus chainId status) :
    s.get? x.key = some x ∧ x.status = status := by
  obtain ⟨hmem, hstatus⟩ := mem_filter.mp h
  exact ⟨mem_getAll_iff.mp (mem_getLSMDepositsForHostZone.mp hmem).1, by simpa using hstatus⟩

theorem nodup_map_key_getLSMDepositsForHostZoneWithStatus (s : LSMTokenDepositStore)
    (chainId : String) (status : LSMTokenDepositStatus) :
    ((s.getLSMDepositsForHostZoneWithStatus chainId status).map LSMTokenDeposit.key).Nodup :=
  (nodup_map_key_values s).sublist
    ((filter_sublist.trans filter_sublist).map _)

private theorem nodup_getLSMDepositsForHostZone : (s.getLSMDepositsForHostZone chainId).Nodup :=
  List.Nodup.filter _ s.nodup_map_key_values.of_map

private theorem chainId_prefix_key (x : LSMTokenDeposit) : bytes x.chainId <+: x.key :=
  prefix_append ..

theorem mem_getAll_set_of_key_ne (h : y.key ≠ x.key) :
    y ∈ (s.setLSMTokenDeposit x).getAllLSMTokenDeposit ↔ y ∈ s.getAllLSMTokenDeposit := by
  rw [mem_getAll_iff, mem_getAll_iff, setLSMTokenDeposit, get?_set, if_neg h]

theorem mem_getAll_remove :
    y ∈ (s.removeLSMTokenDeposit chainId denom).getAllLSMTokenDeposit ↔
      y ∈ s.getAllLSMTokenDeposit ∧ y.key ≠ getLSMTokenDepositKey chainId denom := by
  rw [mem_getAll_iff, mem_getAll_iff, removeLSMTokenDeposit, get?_delete]
  split
  · rename_i heq
    simp [heq]
  · rename_i hne
    simp [hne]

theorem eq_of_mem_getAll_set (h : y ∈ (s.setLSMTokenDeposit x).getAllLSMTokenDeposit)
    (hkey : y.key = x.key) : y = x := by
  rw [mem_getAll_iff, setLSMTokenDeposit, get?_set, if_pos hkey] at h
  exact (Option.some.inj h).symm

/-! ## Isolation of zones -/

/-- The scan returns the stored deposits of the zone, each once, with and without a status. -/
def ZoneIsolated (s : LSMTokenDepositStore) (chainId : String) : Prop :=
  (s.getLSMDepositsForHostZone chainId).Nodup ∧
    (∀ x, x ∈ s.getLSMDepositsForHostZone chainId ↔
      x ∈ s.getAllLSMTokenDeposit ∧ x.chainId = chainId) ∧
    ∀ status x, x ∈ s.getLSMDepositsForHostZoneWithStatus chainId status ↔
      x ∈ s.getAllLSMTokenDeposit ∧ x.chainId = chainId ∧ x.status = status

/-- Writing or removing the deposit of `(chainId, denom)` changes no deposit of another pair. -/
def PairIsolated (s : LSMTokenDepositStore) (chainId denom : String) : Prop :=
  ∀ y : LSMTokenDeposit, (y.chainId, y.denom) ≠ (chainId, denom) →
    (∀ x : LSMTokenDeposit, x.chainId = chainId → x.denom = denom →
      (y ∈ (s.setLSMTokenDeposit x).getAllLSMTokenDeposit ↔ y ∈ s.getAllLSMTokenDeposit)) ∧
    (y ∈ (s.removeLSMTokenDeposit chainId denom).getAllLSMTokenDeposit ↔
      y ∈ s.getAllLSMTokenDeposit)

/-- No key of another chain starts with `chainId`. -/
def PrefixSeparated (s : LSMTokenDepositStore) (chainId : String) : Prop :=
  ∀ y ∈ s.getAllLSMTokenDeposit, y.chainId ≠ chainId →
    ¬ bytes chainId <+: bytes y.chainId ++ bytes y.denom

/-- No other pair is stored under the concatenation of `chainId` and `denom`. -/
def KeySeparated (s : LSMTokenDepositStore) (chainId denom : String) : Prop :=
  ∀ y ∈ s.getAllLSMTokenDeposit, (y.chainId, y.denom) ≠ (chainId, denom) →
    bytes y.chainId ++ bytes y.denom ≠ bytes chainId ++ bytes denom

private theorem mem_zone_of_prefixSeparated (h : s.PrefixSeparated chainId) :
    x ∈ s.getLSMDepositsForHostZone chainId ↔
      x ∈ s.getAllLSMTokenDeposit ∧ x.chainId = chainId := by
  rw [mem_getLSMDepositsForHostZone]
  constructor
  · rintro ⟨hmem, hpre⟩
    refine ⟨hmem, ?_⟩
    by_contra hne
    exact h x hmem hne hpre
  · rintro ⟨hmem, rfl⟩
    exact ⟨hmem, chainId_prefix_key x⟩

private theorem zoneIsolated_iff : s.ZoneIsolated chainId ↔ s.PrefixSeparated chainId := by
  constructor
  · rintro ⟨-, hscan, -⟩ y hy hne hpre
    have hin : y ∈ s.getLSMDepositsForHostZone chainId :=
      mem_getLSMDepositsForHostZone.mpr ⟨hy, hpre⟩
    exact hne ((hscan y).mp hin).2
  · intro h
    refine ⟨nodup_getLSMDepositsForHostZone, fun x => mem_zone_of_prefixSeparated h, ?_⟩
    simp [getLSMDepositsForHostZoneWithStatus, mem_zone_of_prefixSeparated h, and_assoc]

private theorem pairIsolated_iff : s.PairIsolated chainId denom ↔ s.KeySeparated chainId denom := by
  constructor
  · intro h y hy hne hkey
    -- the removal would take the other deposit away
    have hgone := ((h y hne).2.mpr hy)
    exact (mem_getAll_remove.mp hgone).2 hkey
  · intro h y hne
    constructor
    · rintro x rfl rfl
      by_cases hkey : y.key = x.key
      · constructor
        · intro hy
          exact absurd (by rw [eq_of_mem_getAll_set hy hkey]) hne
        · intro hy
          exact absurd hkey (h y hy hne)
      · exact mem_getAll_set_of_key_ne hkey
    · rw [mem_getAll_remove]
      constructor
      · exact And.left
      · intro hy
        exact ⟨hy, h y hy hne⟩

/-- **Deposits of a zone.** For every store of deposits: the scan of a chain returns exactly
    its deposits if and only if no key of another chain starts with the chain id, and writes
    to a pair leave all the other pairs alone if and only if no other pair has the same
    concatenation. -/
theorem deposits_isolated_iff_keys_separated (s : LSMTokenDepositStore) (chainId denom : String) :
    (s.ZoneIsolated chainId ↔ s.PrefixSeparated chainId) ∧
      (s.PairIsolated chainId denom ↔ s.KeySeparated chainId denom) :=
  ⟨zoneIsolated_iff, pairIsolated_iff⟩

/-- A deposit on a chain whose id extends the id of another chain by one digit. -/
def depositOnChain10 : LSMTokenDeposit where
  depositId := "id"
  chainId := "chain-10"
  denom := "valoper/1"
  ibcDenom := "ibc/lsm"
  stakerAddress := "staker"
  validatorAddress := "valoper"
  amount := 1000
  stToken := ("stuatom", 1000)
  status := .transferQueue

/-- The deposit of `chain-10` is returned as a queued deposit of `chain-1`. -/
theorem scan_leaks_into_shorter_chainId :
    let s := setLSMTokenDeposit KeyedStore.empty depositOnChain10
    depositOnChain10 ∈ s.getLSMDepositsForHostZoneWithStatus "chain-1" .transferQueue ∧
      depositOnChain10.chainId ≠ "chain-1" ∧ ¬ s.ZoneIsolated "chain-1" := by
  intro s
  have hstored : depositOnChain10 ∈ s.getAllLSMTokenDeposit :=
    mem_getAll_iff.mpr (by simp [s, setLSMTokenDeposit, get?_set])
  have hpre : bytes "chain-1" <+: depositOnChain10.key := by
    exact prefix_append ..
  have hscan : depositOnChain10 ∈ s.getLSMDepositsForHostZone "chain-1" :=
    mem_getLSMDepositsForHostZone.mpr ⟨hstored, hpre⟩
  have hne : depositOnChain10.chainId ≠ "chain-1" := by decide
  refine ⟨?_, hne, ?_⟩
  · simpa [getLSMDepositsForHostZoneWithStatus] using ⟨hscan, rfl⟩
  · rw [zoneIsolated_iff]
    intro h
    exact h _ hstored hne hpre

end LSMTokenDepositStore

end Stride.Records
