import Stride.Lib.KVStore
import Mathlib.Order.Nat

/-!
# Deposit Records

A deposit record holds the native tokens staked with one zone in one epoch until they are
delegated on the host.
-/

namespace Stride.Records

open Stride.Lib

inductive DepositStatus where
  | transferQueue
  | transferInProgress
  | delegationQueue
  | delegationInProgress
  deriving DecidableEq

/-- A deposit record. Its denom and source are not read by the delegation flow. -/
structure DepositRecord where
  id : ℕ
  amount : ℤ
  hostZoneId : String
  status : DepositStatus
  depositEpochNumber : ℕ
  delegationTxsInProgress : ℕ
  deriving DecidableEq

/-- Deposit records by id: `GetDepositRecord`, `SetDepositRecord`, `RemoveDepositRecord` and
    `GetAllDepositRecord` are the operations of the store. -/
abbrev DepositRecordStore := KeyedStore DepositRecord.id

/-- The tokens have reached the delegation account. -/
def DepositRecord.onHost (r : DepositRecord) : Prop :=
  r.status = .delegationQueue ∨ r.status = .delegationInProgress

instance (r : DepositRecord) : Decidable r.onHost :=
  inferInstanceAs (Decidable (r.status = .delegationQueue ∨ r.status = .delegationInProgress))

def getTransferDepositRecordByEpochAndChain (records : DepositRecordStore) (epochNumber : ℕ)
    (chainId : String) : Option DepositRecord :=
  records.values.find? fun r =>
    r.depositEpochNumber = epochNumber ∧ r.hostZoneId = chainId ∧ r.status = .transferQueue

theorem getTransferDepositRecordByEpochAndChain_eq_some {records : DepositRecordStore}
    {epochNumber : ℕ} {chainId : String} {r : DepositRecord}
    (h : getTransferDepositRecordByEpochAndChain records epochNumber chainId = some r) :
    records.get? r.id = some r ∧ r.hostZoneId = chainId ∧ r.status = .transferQueue := by
  have hfound := List.find?_some h
  obtain ⟨-, hzone, hstatus⟩ := of_decide_eq_true hfound
  exact ⟨KeyedStore.mem_values_iff.mp (List.mem_of_find?_eq_some h), hzone, hstatus⟩

end Stride.Records
