import Stride.Records.DepositRecord
import Stride.Records.LSMTokenDeposit
import Stride.Stakeibc.BookEffect

/-!
# Redemption Rate

The redemption rate of a zone is the native tokens locked for it over the supply of its
stToken. Tokens that are not delegated yet are read off the deposit records of the zone, and
tokenized shares off its LSM deposits.
-/

namespace Stride.Stakeibc

open Sdk Records

/-- The loop of both balances: adds up the records of a zone in some statuses. -/
def sumDepositAmounts (chainId : String) (counts : DepositStatus → Bool)
    (depositRecords : List DepositRecord) : ℤ :=
  depositRecords.foldl
    (fun totalAmount r =>
      if r.hostZoneId = chainId ∧ counts r.status then totalAmount + r.amount else totalAmount) 0

def getDepositAccountBalance (chainId : String) (depositRecords : List DepositRecord) :
    LegacyDec :=
  LegacyDec.fromInt (sumDepositAmounts chainId
    (fun status => status = .transferQueue ∨ status = .transferInProgress) depositRecords)

def getUndelegatedBalance (chainId : String) (depositRecords : List DepositRecord) : LegacyDec :=
  LegacyDec.fromInt (sumDepositAmounts chainId
    (fun status => status = .delegationQueue ∨ status = .delegationInProgress) depositRecords)

/-- A turn of the loop of `GetTotalTokenizedDelegations`. -/
def addTokenizedDelegation (hostZone : HostZone) (total : ℤ) (deposit : LSMTokenDeposit) : ℤ :=
  -- the tokens of a pending deposit are not on Stride yet
  if deposit.status ≠ .depositPending then
    match getValidatorFromAddress hostZone.validators deposit.validatorAddress with
    | none => total
    | some validator =>
      total + ((LegacyDec.fromInt deposit.amount).mul validator.sharesToTokensRate).truncateInt
  else total

def getTotalTokenizedDelegations (hostZone : HostZone) (deposits : LSMTokenDepositStore) :
    LegacyDec :=
  LegacyDec.fromInt ((deposits.getLSMDepositsForHostZone hostZone.chainId).foldl
    (addTokenizedDelegation hostZone) 0)

/-- The numerator of the redemption rate. -/
def HostZone.nativeTokensLocked (hostZone : HostZone) (depositRecords : List DepositRecord)
    (deposits : LSMTokenDepositStore) : LegacyDec :=
  (((getDepositAccountBalance hostZone.chainId depositRecords).add
    (getUndelegatedBalance hostZone.chainId depositRecords)).add
    (getTotalTokenizedDelegations hostZone deposits)).add
    (LegacyDec.fromInt hostZone.totalDelegations)

/-- `UpdateRedemptionRateForHostZone`: the zone that it stores. Without stTokens in circulation
    the rate is left as it is. -/
def updatedHostZone (stSupply : ℤ) (depositRecords : List DepositRecord)
    (deposits : LSMTokenDepositStore) (hostZone : HostZone) : Result HostZone :=
  if stSupply = 0 then .ok hostZone
  else do
    let redemptionRate ←
      (hostZone.nativeTokensLocked depositRecords deposits).quo (LegacyDec.fromInt stSupply)
    return { hostZone with redemptionRate := redemptionRate }

theorem updatedHostZone_ok {stSupply : ℤ} {depositRecords : List DepositRecord}
    {deposits : LSMTokenDepositStore} {z z' : HostZone}
    (h : updatedHostZone stSupply depositRecords deposits z = .ok z') :
    z' = { z with redemptionRate := z'.redemptionRate } := by
  unfold updatedHostZone at h
  split at h
  · cases h
    rfl
  · obtain ⟨rate, -, h⟩ := bind_eq_ok.mp h
    cases h
    rfl

/-- What a record counts for a zone in some statuses. -/
def countedAmount (chainId : String) (counts : DepositStatus → Bool) (r : DepositRecord) : ℤ :=
  if r.hostZoneId = chainId ∧ counts r.status then r.amount else 0

theorem sumDepositAmounts_eq (chainId : String) (counts : DepositStatus → Bool)
    (depositRecords : List DepositRecord) :
    sumDepositAmounts chainId counts depositRecords =
      (depositRecords.map (countedAmount chainId counts)).sum := by
  unfold sumDepositAmounts
  suffices hgen : ∀ totalAmount : ℤ, depositRecords.foldl
      (fun totalAmount r =>
        if r.hostZoneId = chainId ∧ counts r.status then totalAmount + r.amount
        else totalAmount) totalAmount =
        totalAmount + (depositRecords.map (countedAmount chainId counts)).sum by
    rw [hgen 0, zero_add]
  induction depositRecords with
  | nil => simp
  | cons r rs ih =>
    intro totalAmount
    rw [List.foldl_cons, ih, List.map_cons, List.sum_cons, ← add_assoc]
    unfold countedAmount
    split
    · rfl
    · rw [add_zero]

def zoneAmount (chainId : String) (r : DepositRecord) : ℤ :=
  if r.hostZoneId = chainId then r.amount else 0

/-- **Coverage**: the four statuses are counted, each once. -/
theorem getDepositAccountBalance_add_getUndelegatedBalance (chainId : String)
    (depositRecords : List DepositRecord) :
    (getDepositAccountBalance chainId depositRecords).add
        (getUndelegatedBalance chainId depositRecords) =
      LegacyDec.fromInt (depositRecords.map (zoneAmount chainId)).sum := by
  unfold getDepositAccountBalance getUndelegatedBalance
  rw [LegacyDec.fromInt_add, sumDepositAmounts_eq, sumDepositAmounts_eq, ← List.sum_map_add]
  congr 2
  apply List.map_congr_left
  intro r _
  unfold countedAmount zoneAmount
  cases r.status <;> simp

/-- Tokenized shares are counted at the rates of their validators, not at the delegations. -/
theorem getTotalTokenizedDelegations_of_frame {z z' : HostZone} (hchain : z'.chainId = z.chainId)
    (hframe : z'.validators.map Validator.frame = z.validators.map Validator.frame)
    (deposits : LSMTokenDepositStore) :
    getTotalTokenizedDelegations z' deposits = getTotalTokenizedDelegations z deposits := by
  unfold getTotalTokenizedDelegations
  rw [hchain]
  congr 2
  funext sum deposit
  have hfind (z : HostZone) : (getValidatorFromAddress z.validators deposit.validatorAddress).map
      Validator.sharesToTokensRate = ((z.validators.map Validator.frame).find?
        fun v => v.address = deposit.validatorAddress).map Validator.sharesToTokensRate := by
    simp [getValidatorFromAddress, Function.comp_def, Validator.frame]
    rfl
  have hrate := hfind z'
  rw [hframe, ← hfind z] at hrate
  unfold addTokenizedDelegation
  cases hz' : getValidatorFromAddress z'.validators deposit.validatorAddress <;>
    cases hz : getValidatorFromAddress z.validators deposit.validatorAddress <;>
    simp_all

/-- What a change of the delegations does to the numerator. -/
theorem BookEffect.nativeTokensLocked_eq {z z' : HostZone} {d c : String → ℤ} {t : ℤ}
    (h : BookEffect z z' d t c) (depositRecords : List DepositRecord)
    (deposits : LSMTokenDepositStore) : z'.nativeTokensLocked depositRecords deposits =
      (z.nativeTokensLocked depositRecords deposits).add (LegacyDec.fromInt t) := by
  unfold HostZone.nativeTokensLocked
  rw [getTotalTokenizedDelegations_of_frame h.chainId h.frame, h.chainId, h.total]
  simp only [LegacyDec.add, LegacyDec.fromInt, LegacyDec.mk.injEq]
  ring

end Stride.Stakeibc
