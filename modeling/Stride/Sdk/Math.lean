import Stride.Lib.HalfEven
import Mathlib.Data.Int.Init

/-!
# SDK Arithmetic and Errors

The parts of the Cosmos SDK that the keepers compute with: registered errors, the
18-decimal `LegacyDec` and the coin constructor.

`sdkmath.Int` is unbounded here; its panic beyond 256 bits is not modelled. A Go panic
is an error with the code `ErrorCode.panic`: every caller that the model has either
recovers it or aborts its transaction with it.
-/

namespace Stride.Sdk

open Stride.Lib

/-! ## Errors -/

/-- Registered errors of the modules. `plain` stands for errors built by `fmt.Errorf`
    or `errors.New`. -/
inductive ErrorCode where
  | errHostZoneNotFound
  | errValidatorNotFound
  | errValidatorDelegationChg
  | errInvalidValidatorDelegationUpdates
  | errInvalidDelegationsInProgress
  | errInvalidUndelegationsInProgress
  | errNoValidatorWeights
  | errICAAccountNotFound
  | errActiveChannelNotFound
  | errUnmarshalFailure
  | errInvalidPacketCompletionTime
  | errDivisionByZero
  | errIntCast
  | errHaltedHostZone
  | errInvalidRequest
  | errKeyNotFound
  | errEpochUnbondingRecordNotFound
  | errHostUnbondingRecordNotFound
  | errInsufficientFunds
  | errInvalidICQRequest
  | errInvalidICQProof
  | errICQCallbackNotFound
  | errFailedToRetryQuery
  | errConnectionNotFound
  | errClientNotFound
  | errValidatorAlreadyExists
  | errUnableToRemoveValidator
  | errRedemptionsDisabled
  | errRedemptionRateOutsideSafetyBounds
  | errInvalidAddress
  | errInvalidCoins
  | errInvalidAmount
  | errEpochNotFound
  | errInvalidHostZone
  | errInvalidUserRedemptionRecord
  | errRecordNotFound
  | errInvalidToken
  | errNotFound
  | errInsufficientLiquidStake
  | errUnknownDepositRecord
  | errInvalidLSMToken
  | errLSMLiquidStakeDisabledForHostZone
  | errValidatorWasSlashed
  | errValidatorSharesToTokensRateNotKnown
  | errHostZoneHalted
  | errHostZoneNotHalted
  | errInvalidRedemptionRateBounds
  | errInvalidAdmin
  | errUnauthorized
  | errInvalidSigner
  | errNegativeNotAllowed
  | errInvariantBroken
  | errBrokenUnbondingRecordInvariant
  | errUnbondingRecordNotFound
  | errUnbondingRecordAlreadyExists
  | errInvalidUnbondingRecord
  | errUnbondAmountToLarge
  | errDelegationRecordNotFound
  | errDelegationRecordAlreadyExists
  | errDelegationRecordInvalidState
  | errAirdropNotFound
  | errAirdropAlreadyExists
  | errAirdropNotStarted
  | errAirdropEnded
  | errUserAllocationNotFound
  | errUserAllocationAlreadyExists
  | errNoUnclaimedRewards
  | errAfterDecisionDeadline
  | errFailedToLinkAddresses
  | errInvalidAllocationListLength
  | errInvalidAdminAddress
  | errInvalidAccount
  | errClaimNotFound
  | errModifyingClaimRecord
  | errPacketForwardingInactive
  | errInvalidPacketMetadata
  | errUnsupportedStakeibcAction
  | errInvalidReceiverAddress
  | errInvalidMemoLength
  | errInvalidReceiverLength
  | errBlockedFallbackAddress
  | errOracleNotFound
  | errOracleNotInstantiated
  | errOracleICANotRegistered
  | errOracleICAChannelClosed
  | errOracleInactive
  | errInvalidICARequest
  | errInvalidCallback
  | errICAAccountDoesNotExist
  | errUnableToRestoreICAChannel
  | errInterchainAccountNotFound
  | errActiveChannelAlreadySet
  | errInvalidChannelState
  | errTokenPriceAlreadyExists
  | errQuotePriceNotFound
  | errAuctionAlreadyExists
  | errAuctionDoesntExist
  | plain
  | outOfRange
  | panic
  deriving DecidableEq

/-- A registered error wrapped with a message. -/
structure SdkError where
  code : ErrorCode
  message : String
  deriving DecidableEq

/-- Result of a keeper function. An error discards the writes made before it. -/
abbrev Result (α : Type*) := Except SdkError α

/-- `ErrX.Wrapf(...)`. -/
def wrapf {α : Type*} (code : ErrorCode) (message : String) : Result α :=
  .error ⟨code, message⟩

/-- A check that returns an error when `condition` fails. -/
def require (condition : Prop) [Decidable condition] (code : ErrorCode) (message : String) :
    Result Unit :=
  if condition then .ok () else wrapf code message

variable {message : String}

@[simp]
theorem require_eq_ok {condition : Prop} [Decidable condition] {code : ErrorCode} {u : Unit} :
    require condition code message = .ok u ↔ condition := by
  unfold require
  split <;> simp_all [wrapf]

/-- The value of a lookup, or an error when there is none. -/
def orNotFound {α : Type*} (found : Option α) (code : ErrorCode) (message : String) : Result α :=
  match found with
  | some a => .ok a
  | none => wrapf code message

theorem orNotFound_eq_ok {α : Type*} {found : Option α} {code : ErrorCode} {a : α} :
    orNotFound found code message = .ok a ↔ found = some a := by
  cases found <;> simp [orNotFound, wrapf]

/-- A Go panic. -/
def goPanic {α : Type*} (message : String) : Result α :=
  .error ⟨.panic, message⟩

/-- `errorsmod.Wrapf` on the error of a call. -/
def wrapError {α : Type*} (x : Result α) (message : String) : Result α :=
  x.mapError fun e => { e with message := message ++ ": " ++ e.message }

theorem wrapError_eq_ok {α : Type*} {x : Result α} {a : α} :
    wrapError x message = .ok a ↔ x = .ok a := by
  cases x <;> simp [wrapError, Except.mapError]

/-- A computation ends well when each of its steps does. -/
theorem bind_eq_ok {α β : Type} {x : Result α} {f : α → Result β} {b : β} :
    x >>= f = .ok b ↔ ∃ a, x = .ok a ∧ f a = .ok b := by
  cases x with
  | error e =>
    constructor
    · intro h
      cases h
    · rintro ⟨_, h, _⟩
      cases h
  | ok a =>
    constructor
    · intro h
      exact ⟨a, rfl, h⟩
    · rintro ⟨_, h, hf⟩
      cases h
      exact hf

theorem toOption_eq_some {α : Type} {x : Result α} {a : α} :
    x.toOption = some a ↔ x = .ok a := by
  cases x <;> simp [Except.toOption]

theorem toOption_map_eq_some {α β : Type} {x : Result α} {f : α → β} {b : β} :
    x.toOption.map f = some b ↔ ∃ a, x = .ok a ∧ f a = b := by
  cases x with
  | error e => simp [Except.toOption]
  | ok a => simp [Except.toOption]

/-- **Loop rule**: what every turn of a loop keeps, the loop keeps. -/
theorem foldlM_ok_rule {α β : Type} {f : β → α → Result β} {P : β → Prop} {l : List α}
    (hf : ∀ b, ∀ a ∈ l, ∀ b', P b → f b a = .ok b' → P b') {b b' : β}
    (hb : P b) (h : l.foldlM f b = .ok b') : P b' := by
  induction l generalizing b with
  | nil =>
    cases h
    exact hb
  | cons a l ih =>
    obtain ⟨b₁, hstep, hrest⟩ := bind_eq_ok.mp h
    exact ih (fun c x hx => hf c x (List.mem_cons_of_mem a hx))
      (hf b a List.mem_cons_self b₁ hb hstep) hrest

/-- A loop keeps what its body keeps. -/
theorem foldlM_ok_invariant {α β : Type} {f : β → α → Result β} {P : β → Prop}
    (hf : ∀ b a b', P b → f b a = .ok b' → P b') {l : List α} {b b' : β}
    (hb : P b) (h : l.foldlM f b = .ok b') : P b' :=
  foldlM_ok_rule (fun b a _ b' => hf b a b') hb h

/-! ## Decimals with 18 digits -/

/-- `precisionReuse`: one unit of a `LegacyDec`. -/
def precision : ℕ := 10 ^ 18

theorem precision_pos : 0 < precision := by decide

theorem precision_even : precision % 2 = 0 := by decide

/-- A decimal, stored as `10 ^ 18` times its value. -/
structure LegacyDec where
  i : ℤ
  deriving DecidableEq

/-- Divides by the precision, rounding half to even. -/
def chopPrecisionAndRound (d : ℤ) : ℤ :=
  if d < 0 then -(roundHalfEven precision d.natAbs : ℤ) else roundHalfEven precision d.natAbs

/-- Divides by the precision, truncating towards zero. -/
def chopPrecisionAndTruncate (d : ℤ) : ℤ := d.tdiv precision

namespace LegacyDec

/-- `LegacyNewDecFromInt`. -/
def fromInt (n : ℤ) : LegacyDec := ⟨n * precision⟩

/-- `LegacyOneDec`. -/
def one : LegacyDec := fromInt 1

def add (d d₂ : LegacyDec) : LegacyDec := ⟨d.i + d₂.i⟩

def sub (d d₂ : LegacyDec) : LegacyDec := ⟨d.i - d₂.i⟩

/-- `Mul`: the product, rounded half-even to 18 decimals. -/
def mul (d d₂ : LegacyDec) : LegacyDec := ⟨chopPrecisionAndRound (d.i * d₂.i)⟩

/-- `Quo`: multiplies by the precision twice, divides, and rounds half-even. -/
def quo (d d₂ : LegacyDec) : Result LegacyDec :=
  if d₂.i = 0 then goPanic "division by zero"
  else .ok ⟨chopPrecisionAndRound ((d.i * precision * precision).tdiv d₂.i)⟩

def roundInt (d : LegacyDec) : ℤ := chopPrecisionAndRound d.i

def truncateInt (d : LegacyDec) : ℤ := chopPrecisionAndTruncate d.i

theorem fromInt_add (m n : ℤ) : (fromInt m).add (fromInt n) = fromInt (m + n) :=
  congrArg LegacyDec.mk (add_mul m n precision).symm

/-- Quotients of non-negative decimals are the natural-number quotients of the library. -/
theorem quo_natCast (a b : ℕ) (hb : 0 < b) :
    quo ⟨a⟩ ⟨b⟩ = .ok ⟨(scaledQuo precision a b : ℕ)⟩ := by
  have hne : (b : ℤ) ≠ 0 := by exact_mod_cast hb.ne'
  have hcast : ((a : ℤ) * precision * precision).tdiv b =
      ((a * precision * precision / b : ℕ) : ℤ) := by
    exact Int.tdiv_eq_ediv_of_nonneg (by positivity)
  have hnn : ¬ ((a * precision * precision / b : ℕ) : ℤ) < 0 := by
    exact not_lt.mpr (Int.natCast_nonneg _)
  simp only [quo, hne, ↓reduceIte, hcast, chopPrecisionAndRound, hnn, Int.natAbs_natCast,
    scaledQuo]

theorem truncateInt_natCast (a : ℕ) : truncateInt ⟨a⟩ = ((a / precision : ℕ) : ℤ) := by
  simp only [truncateInt, chopPrecisionAndTruncate]
  rfl

theorem mul_natCast (a b : ℕ) :
    mul ⟨a⟩ ⟨b⟩ = ⟨(roundHalfEven precision (a * b) : ℕ)⟩ := by
  have hprod : (a : ℤ) * b = ((a * b : ℕ) : ℤ) := by push_cast; rfl
  have hnn : ¬ ((a * b : ℕ) : ℤ) < 0 := not_lt.mpr (Int.natCast_nonneg _)
  simp only [mul, hprod, chopPrecisionAndRound, hnn, ↓reduceIte, Int.natAbs_natCast]

theorem fromInt_natCast (n : ℕ) : fromInt n = ⟨((n * precision : ℕ) : ℤ)⟩ := by
  rfl

variable {d : LegacyDec} {n : ℤ}

/-- The product with an integer is exact, so that only the truncation rounds. -/
theorem truncateInt_mul_natCast (m j : ℕ) :
    truncateInt (mul (fromInt m) ⟨j⟩) = ((m * j / precision : ℕ) : ℤ) := by
  have hswap : m * precision * j = m * j * precision := by ring
  rw [fromInt_natCast, mul_natCast, truncateInt_natCast, hswap, roundHalfEven_mul precision_pos]

theorem truncateInt_mul_nonneg (hn : 0 ≤ n) (hd : 0 ≤ d.i) :
    0 ≤ truncateInt (mul (fromInt n) d) := by
  obtain ⟨m, rfl⟩ := Int.eq_ofNat_of_zero_le hn
  obtain ⟨i⟩ := d
  obtain ⟨j, rfl⟩ := Int.eq_ofNat_of_zero_le hd
  rw [truncateInt_mul_natCast]
  exact Int.natCast_nonneg _

theorem truncateInt_mul_nonpos (hn : 0 ≤ n) (hd : d.i ≤ 0) :
    truncateInt (mul (fromInt n) d) ≤ 0 := by
  have hround : chopPrecisionAndRound (n * precision * d.i) ≤ 0 := by
    unfold chopPrecisionAndRound
    split
    · exact Int.neg_nonpos_of_nonneg (Int.natCast_nonneg _)
    · have hproduct := mul_nonpos_of_nonneg_of_nonpos (a := n * precision) (by positivity) hd
      have hzero : n * precision * d.i = 0 := by omega
      have hround := roundHalfEven_mul precision_pos 0
      rw [zero_mul] at hround
      rw [hzero, Int.natAbs_zero, hround]
      exact le_rfl
  show (chopPrecisionAndRound (n * precision * d.i)).tdiv precision ≤ 0
  rw [← neg_neg (chopPrecisionAndRound _), Int.neg_tdiv]
  exact Int.neg_nonpos_of_nonneg (Int.tdiv_nonneg (neg_nonneg.mpr hround) (by positivity))

/-- A share of at most one is no more than the whole. -/
theorem truncateInt_mul_le (hn : 0 ≤ n) (hd : 0 ≤ d.i) (hone : d.i ≤ precision) :
    truncateInt (mul (fromInt n) d) ≤ n := by
  obtain ⟨m, rfl⟩ := Int.eq_ofNat_of_zero_le hn
  obtain ⟨i⟩ := d
  obtain ⟨j, rfl⟩ := Int.eq_ofNat_of_zero_le hd
  have hj : j ≤ precision := Int.ofNat_le.mp hone
  have hle : m * j / precision ≤ m :=
    Nat.div_le_of_le_mul (by rw [Nat.mul_comm precision m]; exact Nat.mul_le_mul_left m hj)
  rw [truncateInt_mul_natCast]
  exact_mod_cast hle

theorem truncateInt_mul_one (n : ℤ) : truncateInt (mul (fromInt n) one) = n := by
  have hpos : (0 : ℤ) < precision := by exact_mod_cast precision_pos
  -- the product is an integer multiple of the precision, so that nothing is rounded
  have hround (m : ℕ) : roundHalfEven precision (m * precision * precision) = m * precision :=
    roundHalfEven_mul precision_pos _
  have hchop : chopPrecisionAndRound (n * precision * (1 * precision)) = n * precision := by
    simp only [chopPrecisionAndRound, one_mul, Int.natAbs_mul, Int.natAbs_natCast, hround]
    have hcast : ((n.natAbs * precision : ℕ) : ℤ) = |n| * precision := by
      rw [Nat.cast_mul, Int.natCast_natAbs]
    rw [hcast]
    split
    · have hn : n < 0 := by
        by_contra hn
        have hnonneg := mul_nonneg (mul_nonneg (not_lt.mp hn) hpos.le) hpos.le
        omega
      rw [abs_of_neg hn, neg_mul, neg_neg]
    · have hn : 0 ≤ n := by
        by_contra hn
        have hneg := mul_neg_of_neg_of_pos (mul_neg_of_neg_of_pos (not_le.mp hn) hpos) hpos
        omega
      rw [abs_of_nonneg hn]
  simp only [mul, fromInt, one, hchop, truncateInt, chopPrecisionAndTruncate]
  exact Int.mul_tdiv_cancel n hpos.ne'

end LegacyDec

/-! ## Coins -/

/-- `sdk.NewCoin` panics on a negative amount. Its check of the denom is left out: a zone is
    registered with a well-formed one, and a voucher is a hash. -/
def newCoin (denom : String) (amount : ℤ) : Result (String × ℤ) :=
  if amount < 0 then goPanic s!"negative coin amount: {amount}" else .ok (denom, amount)

theorem newCoin_eq_ok {denom : String} {amount : ℤ} {coin : String × ℤ} :
    newCoin denom amount = .ok coin ↔ 0 ≤ amount ∧ coin = (denom, amount) := by
  unfold newCoin
  split
  · rename_i hneg
    constructor
    · intro h
      cases h
    · intro h
      exact absurd h.1 (not_le.mpr hneg)
  · rename_i hneg
    constructor
    · intro h
      cases h
      exact ⟨not_lt.mp hneg, rfl⟩
    · rintro ⟨-, rfl⟩
      rfl

end Stride.Sdk
