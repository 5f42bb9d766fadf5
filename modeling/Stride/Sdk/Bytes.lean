import Mathlib.Data.String.Basic
import Mathlib.Data.List.Lex
import Mathlib.Algebra.Order.Ring.Nat

/-!
# Bytes

Store keys are byte strings: the bytes of a string, of a counter, or of several such parts
without a separator.
-/

namespace Stride.Sdk

/-- Bytes are compared as numbers, and keys of a store lexicographically. -/
instance linearOrderUInt8 : LinearOrder UInt8 where
  le_refl := UInt8.le_refl
  le_trans _ _ _ := UInt8.le_trans
  le_antisymm _ _ := UInt8.le_antisymm
  le_total := UInt8.le_total
  lt_iff_le_not_ge a b := by
    simp only [UInt8.le_iff_toNat_le, UInt8.lt_iff_toNat_lt]
    omega
  toDecidableLE := inferInstance
  toDecidableLT := inferInstance
  toDecidableEq := inferInstance

/-- `[]byte(s)`. -/
def bytes (s : String) : List UInt8 := s.toByteArray.data.toList

@[simp]
theorem bytes_append (s t : String) : bytes (s ++ t) = bytes s ++ bytes t := by
  simp [bytes]

theorem bytes_injective : Function.Injective bytes := by
  intro s t h
  apply String.toByteArray_inj.mp
  apply ByteArray.ext
  simpa [bytes] using h

@[simp]
theorem bytes_inj {s t : String} : bytes s = bytes t ↔ s = t :=
  bytes_injective.eq_iff

theorem chars_injective :
    Function.Injective fun bz : List UInt8 =>
      String.ofList (bz.map fun b => Char.ofNat b.toNat) := by
  intro a b h
  refine List.map_injective_iff.mpr (fun x y hxy => ?_) (String.ofList_injective h)
  have hroundtrip (c : UInt8) : (Char.ofNat c.toNat).toNat = c.toNat := by
    have hlt := c.toNat_lt
    have hvalid : c.toNat.isValidChar := .inl (by omega)
    rw [Char.ofNat, dif_pos hvalid]
    rfl
  have hnat := congrArg Char.toNat hxy
  rw [hroundtrip, hroundtrip] at hnat
  exact UInt8.toNat_inj.mp hnat

/-- The last `len` digits of `n` to the base 256, the highest first. -/
def bigEndian : ℕ → ℕ → List UInt8
  | 0, _ => []
  | len + 1, n => bigEndian len (n / 256) ++ [UInt8.ofNat n]

@[simp]
theorem length_bigEndian (len n : ℕ) : (bigEndian len n).length = len := by
  induction len generalizing n with
  | zero => rfl
  | succ len ih => simp [bigEndian, ih]

theorem bigEndian_inj {len m n : ℕ} (hm : m < 256 ^ len) (hn : n < 256 ^ len)
    (h : bigEndian len m = bigEndian len n) : m = n := by
  induction len generalizing m n with
  | zero =>
    omega
  | succ len ih =>
    obtain ⟨hhigh, hlow⟩ := List.append_inj h (by simp)
    have hdiv : m / 256 = n / 256 := by
      apply ih _ _ hhigh
      · exact Nat.div_lt_of_lt_mul (by simpa [pow_succ, Nat.mul_comm] using hm)
      · exact Nat.div_lt_of_lt_mul (by simpa [pow_succ, Nat.mul_comm] using hn)
    have hmod : m % 256 = n % 256 := by
      simpa [← UInt8.toNat_inj] using hlow
    omega

/-! ## Joined parts -/

section Joined

open List

variable {α : Type*} {x₁ x₂ y₁ y₂ : List α}

/-- No code starts with another one. -/
def PrefixFree (codes : List (List α)) : Prop :=
  ∀ x ∈ codes, ∀ y ∈ codes, x <+: y → x = y

instance decidablePrefixFree [DecidableEq α] (codes : List (List α)) :
    Decidable (PrefixFree codes) :=
  inferInstanceAs (Decidable (∀ x ∈ codes, ∀ y ∈ codes, x <+: y → x = y))

/-- The end of a code can be seen. -/
theorem PrefixFree.append_inj {codes : List (List α)} (hfree : PrefixFree codes) (h₁ : x₁ ∈ codes)
    (h₂ : x₂ ∈ codes) (h : x₁ ++ y₁ = x₂ ++ y₂) : x₁ = x₂ ∧ y₁ = y₂ := by
  have hx : x₁ = x₂ := by
    obtain hle | hle := prefix_or_prefix_of_prefix (prefix_append x₁ y₁) (h ▸ prefix_append x₂ y₂)
    · exact hfree _ h₁ _ h₂ hle
    · exact (hfree _ h₂ _ h₁ hle).symm
  subst hx
  exact ⟨rfl, append_cancel_left h⟩

/-- A part of one kind ends where something else starts. -/
theorem append_inj_of_stop {p : α → Bool} (hx₁ : ∀ a ∈ x₁, p a) (hx₂ : ∀ a ∈ x₂, p a)
    (hy₁ : ∀ a ∈ y₁.head?, ¬ p a) (hy₂ : ∀ a ∈ y₂.head?, ¬ p a) (h : x₁ ++ y₁ = x₂ ++ y₂) :
    x₁ = x₂ ∧ y₁ = y₂ := by
  have hfirst {x y : List α} (hx : ∀ a ∈ x, p a) (hy : ∀ a ∈ y.head?, ¬ p a) :
      (x ++ y).takeWhile p = x := by
    rw [takeWhile_append_of_pos hx]
    cases y with
    | nil => simp
    | cons a y => simp [hy a rfl]
  have hx : x₁ = x₂ := by rw [← hfirst hx₁ hy₁, h, hfirst hx₂ hy₂]
  subst hx
  exact ⟨rfl, append_cancel_left h⟩

end Joined

end Stride.Sdk
