import Stride.Sdk.Math
import Mathlib.Data.String.Basic

/-!
# Bank

Balances of accounts, by address and denom, and the supplies of the denoms. Coins that are
locked in a vesting account are not modelled: they can only make a send fail.
-/

namespace Stride.Sdk

structure Bank where
  balance : String → String → ℤ
  supply : String → ℤ

namespace Bank

def addCoins (bank : Bank) (address : String) (coin : String × ℤ) : Bank :=
  { bank with
    balance := fun a d =>
      if a = address ∧ d = coin.1 then bank.balance a d + coin.2 else bank.balance a d }

/-- `SendCoins`, for one coin. -/
def sendCoins (bank : Bank) (sender recipient : String) (coin : String × ℤ) : Result Bank :=
  if bank.balance sender coin.1 < coin.2 then
    wrapf .errInsufficientFunds
      s!"spendable balance {bank.balance sender coin.1}{coin.1} is smaller than {coin.2}{coin.1}"
  else .ok ((bank.addCoins sender (coin.1, -coin.2)).addCoins recipient coin)

/-- `MintCoins` to a module account, for one coin. -/
def mintCoins (bank : Bank) (moduleAccount : String) (coin : String × ℤ) : Bank :=
  { bank.addCoins moduleAccount coin with
    supply := fun d => if d = coin.1 then bank.supply d + coin.2 else bank.supply d }

/-- `BurnCoins` of a module account, for one coin. -/
def burnCoins (bank : Bank) (moduleAccount : String) (coin : String × ℤ) : Result Bank :=
  if bank.balance moduleAccount coin.1 < coin.2 then
    wrapf .errInsufficientFunds
      s!"spendable balance {bank.balance moduleAccount coin.1}{coin.1} is smaller than {coin.2}"
  else .ok { bank.addCoins moduleAccount (coin.1, -coin.2) with
    supply := fun d => if d = coin.1 then bank.supply d - coin.2 else bank.supply d }

/-- `utils.SafeSendCoins`, for one coin. -/
def safeSendCoins (bank : Bank) (blockedAddr : String → Bool) (checkBlockedAddr : Bool)
    (sender recipient : String) (coin : String × ℤ) : Result Bank := do
  require (¬ (checkBlockedAddr = true ∧ blockedAddr recipient = true)) .errUnauthorized
    s!"{recipient} is not allowed to receive funds"
  bank.sendCoins sender recipient coin

variable {bank bank' : Bank} {moduleAccount recipient sender : String} {coin : String × ℤ}

theorem safeSendCoins_ok {blockedAddr : String → Bool} {checkBlockedAddr : Bool}
    (h : bank.safeSendCoins blockedAddr checkBlockedAddr sender recipient coin = .ok bank') :
    bank.sendCoins sender recipient coin = .ok bank' := by
  obtain ⟨_, _, h⟩ := bind_eq_ok.mp h
  exact h

@[simp]
theorem balance_addCoins (bank : Bank) (address : String) (coin : String × ℤ) (a d : String) :
    (bank.addCoins address coin).balance a d =
      bank.balance a d + if a = address ∧ d = coin.1 then coin.2 else 0 := by
  simp only [addCoins]
  split <;> simp

/-- What a send does to a balance. -/
theorem balance_sendCoins (h : bank.sendCoins sender recipient coin = .ok bank') (a d : String) :
    bank'.balance a d = bank.balance a d - (if a = sender ∧ d = coin.1 then coin.2 else 0) +
      if a = recipient ∧ d = coin.1 then coin.2 else 0 := by
  unfold sendCoins at h
  split at h
  · cases h
  cases h
  simp only [balance_addCoins]
  split <;> simp [sub_eq_add_neg]

theorem supply_sendCoins (h : bank.sendCoins sender recipient coin = .ok bank') :
    bank'.supply = bank.supply := by
  unfold sendCoins at h
  split at h
  · cases h
  cases h
  rfl

section

variable
  (h : (bank.mintCoins moduleAccount coin).sendCoins moduleAccount recipient coin = .ok bank')

include h

/-- Coins that a module mints and sends on. -/
theorem balance_mintTo (a d : String) :
    bank'.balance a d = bank.balance a d + if a = recipient ∧ d = coin.1 then coin.2 else 0 := by
  have hminted : (bank.mintCoins moduleAccount coin).balance a d =
      bank.balance a d + if a = moduleAccount ∧ d = coin.1 then coin.2 else 0 :=
    balance_addCoins bank moduleAccount coin a d
  rw [balance_sendCoins h, hminted, add_sub_cancel_right]

theorem supply_mintTo (d : String) :
    bank'.supply d = bank.supply d + if d = coin.1 then coin.2 else 0 := by
  rw [supply_sendCoins h]
  simp only [mintCoins]
  split <;> simp

end

/-- Coins that a module takes and burns. -/
theorem balance_burnFrom {taken : Bank}
    (htake : bank.sendCoins sender moduleAccount coin = .ok taken)
    (hburn : taken.burnCoins moduleAccount coin = .ok bank') (a d : String) :
    bank'.balance a d = bank.balance a d - if a = sender ∧ d = coin.1 then coin.2 else 0 := by
  have hbalance : bank'.balance a d =
      taken.balance a d - if a = moduleAccount ∧ d = coin.1 then coin.2 else 0 := by
    unfold burnCoins at hburn
    split at hburn
    · cases hburn
    cases hburn
    rw [balance_addCoins]
    split <;> simp [sub_eq_add_neg]
  rw [hbalance, balance_sendCoins htake, add_sub_cancel_right]

end Bank

end Stride.Sdk
