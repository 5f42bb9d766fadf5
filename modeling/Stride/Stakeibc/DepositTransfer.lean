import Stride.Stakeibc.Delegation
import Stride.Stakeibc.LiquidStake
import Stride.Stakeibc.RedeemStake

/-!
# Transfer of Deposits to the Hosts

Once a stride epoch a new deposit record is opened for each zone, and the earlier records in
TRANSFER_QUEUE are sent to the delegation accounts by IBC transfer.

The transfer module is called outside of a cached context: if it fails after it has taken the
coins of the sender, the coins are gone and the record stays in the queue.
-/

namespace Stride.Stakeibc

open Lib Sdk Records

/-! ## Model -/

structure MsgTransfer where
  sourceChannel : String
  token : String × ℤ
  sender : String
  receiver : String
  deriving DecidableEq

/-- A transfer that was sent, with the deposit record of its callback. -/
structure NativeTransfer where
  msg : MsgTransfer
  depositRecordId : ℕ
  deriving DecidableEq

/-- What the transfer module does with a transfer. -/
inductive TransferReply where
  | sent
  | refused
  /-- It returns an error after it has taken the coins. -/
  | failed
  deriving DecidableEq

structure TransferKeeper where
  hostZones : HostZoneStore
  settings : String → ZoneSettings
  depositRecords : DepositRecordStore
  bank : Bank

/-- The coins of a transfer leave the account of the sender. -/
def takeCoins (bank : Bank) (msg : MsgTransfer) : Bank :=
  bank.addCoins msg.sender (msg.token.1, -msg.token.2)

/-- `Transfer` of the transfer module: the bank, and whether the packet was sent. -/
def transfer (bank : Bank) (msg : MsgTransfer) : TransferReply → Bank × Bool
  | .refused => (bank, false)
  | .failed => if bank.balance msg.sender msg.token.1 < msg.token.2 then (bank, false)
    else (takeCoins bank msg, false)
  | .sent => if bank.balance msg.sender msg.token.1 < msg.token.2 then (bank, false)
    else (takeCoins bank msg, true)

def transferredRecord (r : DepositRecord) : DepositRecord :=
  { r with status := .transferInProgress }

def ibcTransferNativeTokens (k : TransferKeeper) (msg : MsgTransfer) (depositRecord : DepositRecord)
    (reply : TransferReply) : TransferKeeper × List NativeTransfer :=
  let (bank, sent) := transfer k.bank msg reply
  if sent then
    ({ k with
      bank := bank
      depositRecords := k.depositRecords.set (transferredRecord depositRecord) },
      [⟨msg, depositRecord.id⟩])
  else ({ k with bank := bank }, [])

/-- The transfer of a deposit record to the delegation account of its zone. -/
def depositTransferMsg (settings : ZoneSettings) (hostZone : HostZone) (r : DepositRecord) :
    MsgTransfer where
  sourceChannel := settings.transferChannelId
  token := (settings.ibcDenom, r.amount)
  sender := settings.depositAddress
  receiver := hostZone.delegationIcaAddress

/-- The loop body of `TransferExistingDepositsToHostZones`, with the transfers sent. -/
def transferDepositRecord (k : TransferKeeper) (epochNumber : ℕ) (reply : TransferReply)
    (r : DepositRecord) : TransferKeeper × List NativeTransfer :=
  if r.amount ≤ 0 ∧ r.depositEpochNumber < epochNumber then
    ({ k with depositRecords := k.depositRecords.delete r.id }, [])
  else
    match k.hostZones.get? r.hostZoneId with
    | none => (k, [])
    | some hostZone =>
      if hostZone.halted then (k, [])
      else if hostZone.delegationIcaAddress = "" then (k, [])
      else
        ibcTransferNativeTokens k (depositTransferMsg (k.settings hostZone.chainId) hostZone r) r
          reply

/-- The records that `TransferExistingDepositsToHostZones` takes. -/
def transferDepositRecords (records : DepositRecordStore) (epochNumber : ℕ) :
    List DepositRecord :=
  records.values.filter fun r => r.status = .transferQueue ∧ r.depositEpochNumber < epochNumber

/-- `TransferExistingDepositsToHostZones` on all deposit records, with the transfers sent. -/
def transferExistingDepositsToHostZones (k : TransferKeeper) (epochNumber : ℕ)
    (replies : ℕ → TransferReply) : TransferKeeper × List NativeTransfer :=
  (transferDepositRecords k.depositRecords epochNumber).foldl
    (fun (k, sent) r =>
      let (k, transfers) := transferDepositRecord k epochNumber (replies r.id) r
      (k, sent ++ transfers))
    (k, [])

def statusAfterTransfer : AckStatus → DepositStatus
  | .timeout => .transferQueue
  | .failure => .transferQueue
  | .success => .delegationQueue

def transferCallback (records : DepositRecordStore) (depositRecordId : ℕ) (status : AckStatus) :
    Result DepositRecordStore :=
  match records.get? depositRecordId with
  | none => wrapf .errUnknownDepositRecord s!"deposit record not found {depositRecordId}"
  | some depositRecord =>
    return records.set { depositRecord with status := statusAfterTransfer status }

def emptyDepositRecord (epochNumber id : ℕ) (hostZone : HostZone) : DepositRecord where
  id := id
  amount := 0
  hostZoneId := hostZone.chainId
  status := .transferQueue
  depositEpochNumber := epochNumber
  delegationTxsInProgress := 0

/-- `AppendDepositRecord` of the empty record of a zone. -/
def appendDepositRecord (epochNumber : ℕ) (k : DelegationKeeper) (hostZone : HostZone) :
    DelegationKeeper :=
  { k with
    depositRecords :=
      k.depositRecords.set (emptyDepositRecord epochNumber k.depositRecordCount hostZone)
    depositRecordCount := k.depositRecordCount + 1 }

def createDepositRecordsForEpoch (k : DelegationKeeper) (epochNumber : ℕ) : DelegationKeeper :=
  (getAllActiveHostZone k.hostZones).foldl (appendDepositRecord epochNumber) k

/-! ## One record -/

/-- **One record**: it is left alone, removed when it is empty, or sent in full. -/
theorem transferDepositRecord_cases (k : TransferKeeper) (epochNumber : ℕ) {reply : TransferReply}
    (hreply : reply ≠ .failed) (r : DepositRecord) :
    transferDepositRecord k epochNumber reply r = (k, []) ∨
    (r.amount ≤ 0 ∧ transferDepositRecord k epochNumber reply r =
      ({ k with depositRecords := k.depositRecords.delete r.id }, [])) ∨
    ∃ hostZone, k.hostZones.get? r.hostZoneId = some hostZone ∧
      let msg := depositTransferMsg (k.settings r.hostZoneId) hostZone r
      transferDepositRecord k epochNumber reply r =
        ({ k with
          bank := takeCoins k.bank msg
          depositRecords := k.depositRecords.set (transferredRecord r) }, [⟨msg, r.id⟩]) := by
  unfold transferDepositRecord
  split
  · rename_i hempty
    exact .inr (.inl ⟨hempty.1, rfl⟩)
  · split
    · exact .inl rfl
    · rename_i z hz
      have hchain : z.chainId = r.hostZoneId := KeyedStore.key_of_get? hz
      split
      · exact .inl rfl
      · split
        · exact .inl rfl
        · rw [hchain]
          unfold ibcTransferNativeTokens
          cases reply with
          | refused => exact .inl rfl
          | failed => exact absurd rfl hreply
          | sent =>
            dsimp only [transfer]
            split
            · exact .inl rfl
            · exact .inr (.inr ⟨z, hz, rfl⟩)

theorem get?_transferDepositRecord_of_ne (k : TransferKeeper) (epochNumber : ℕ)
    (reply : TransferReply) (r : DepositRecord) {id : ℕ} (hid : id ≠ r.id) :
    (transferDepositRecord k epochNumber reply r).1.depositRecords.get? id =
      k.depositRecords.get? id := by
  unfold transferDepositRecord
  split
  · rw [KeyedStore.get?_delete, if_neg hid]
  · split
    · rfl
    · split
      · rfl
      · split
        · rfl
        · unfold ibcTransferNativeTokens
          dsimp only
          split
          · exact (KeyedStore.get?_set ..).trans (if_neg hid)
          · rfl

end Stride.Stakeibc
