import Mathlib.Algebra.BigOperators.Group.List.Basic
import Mathlib.Data.List.Flatten
import Mathlib.Data.PNat.Basic

/-!
# Splitting a List into Batches

The loop `for start := 0; start < len(xs); start += n` over the slices
`xs[start : start+n]`, cut short at the end of the list.
-/

namespace Stride.Lib

open List

variable {α : Type*}

/-- At most `fuel` slices of length `n`. -/
def batchesAux (n : ℕ) : ℕ → List α → List (List α)
  | 0, _ => []
  | _ + 1, [] => []
  | fuel + 1, x :: xs => (x :: xs).take n :: batchesAux n fuel ((x :: xs).drop n)

/-- The slices of length `n` of `xs`; the last one may be shorter. A list needs at most
    as many slices as it has elements. -/
def batches (n : ℕ+) (xs : List α) : List (List α) := batchesAux n xs.length xs

private theorem flatten_batchesAux {n : ℕ} (hn : 0 < n) :
    ∀ (fuel : ℕ) (xs : List α), xs.length ≤ fuel → (batchesAux n fuel xs).flatten = xs
  | 0, xs, h => by
      have hnil : xs = [] := List.length_eq_zero_iff.mp (Nat.le_zero.mp h)
      simp [batchesAux, hnil]
  | fuel + 1, [], _ => by simp [batchesAux]
  | fuel + 1, x :: xs, h => by
      have hlen : ((x :: xs).drop n).length ≤ fuel := by
        simp only [length_drop, length_cons] at h ⊢
        omega
      rw [batchesAux, flatten_cons, flatten_batchesAux hn fuel _ hlen,
        take_append_drop]

/-- **Batches concatenated** are the list they were cut from. -/
theorem flatten_batches (n : ℕ+) (xs : List α) : (batches n xs).flatten = xs :=
  flatten_batchesAux n.pos _ xs le_rfl

theorem mem_of_mem_batches {n : ℕ+} {xs b : List α} (hb : b ∈ batches n xs) {x : α}
    (hx : x ∈ b) : x ∈ xs := by
  rw [← flatten_batches n xs]
  exact mem_flatten.mpr ⟨b, hb, hx⟩

theorem sum_batches {M : Type*} [AddMonoid M] (f : α → M) (n : ℕ+) (xs : List α) :
    ((batches n xs).map fun b => (b.map f).sum).sum = (xs.map f).sum := by
  conv_rhs => rw [← flatten_batches n xs]
  rw [map_flatten, sum_flatten, map_map]
  rfl

private theorem length_batchesAux {β : Type*} (n : ℕ) :
    ∀ (fuel : ℕ) (xs : List α) (ys : List β), xs.length = ys.length →
      (batchesAux n fuel xs).length = (batchesAux n fuel ys).length
  | 0, _, _, _ => rfl
  | _ + 1, [], [], _ => rfl
  | fuel + 1, x :: xs, y :: ys, h => by
      have hdrop : ((x :: xs).drop n).length = ((y :: ys).drop n).length := by
        rw [length_drop, length_drop, h]
      simp only [batchesAux, length_cons, length_batchesAux n fuel _ _ hdrop]

theorem length_batches_eq {β : Type*} (n : ℕ+) {xs : List α} {ys : List β}
    (h : xs.length = ys.length) : (batches n xs).length = (batches n ys).length := by
  unfold batches
  rw [h]
  exact length_batchesAux n _ xs ys h

theorem batches_eq_nil_iff {n : ℕ+} {xs : List α} : batches n xs = [] ↔ xs = [] := by
  constructor
  · intro h
    rw [← flatten_batches n xs, h, flatten_nil]
  · rintro rfl
    rfl

end Stride.Lib
