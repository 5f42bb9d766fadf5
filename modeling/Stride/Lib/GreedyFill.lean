import Mathlib.Algebra.BigOperators.Group.List.Basic
import Mathlib.Order.Defs.LinearOrder
import Mathlib.Tactic.Ring

/-!
# Greedy Filling with Reserves

A demand is met from a list of sources in order, each giving as much as it can. A source
that would be emptied keeps a reserve back, which then has to come from the sources after
it.
-/

namespace Stride.Lib

open List

variable {α : Type*} (capacity reserve : α → ℤ)

/-- What a source gives towards `remaining`. -/
def fillAmount (x : α) (remaining : ℤ) : ℤ :=
  if remaining < capacity x then remaining else capacity x - reserve x

/-- What the sources give, and the part of the demand that is left. -/
def fill : List α → ℤ → List (α × ℤ) × ℤ
  | [], remaining => ([], remaining)
  | x :: xs, remaining =>
    if remaining = 0 then ([], remaining)
    else
      let (amounts, left) := fill xs (remaining - fillAmount capacity reserve x remaining)
      ((x, fillAmount capacity reserve x remaining) :: amounts, left)

/-- Sources whose reserve is smaller than their capacity. -/
def ValidReserves (xs : List α) : Prop := ∀ x ∈ xs, 0 ≤ reserve x ∧ reserve x < capacity x

/-- The spare capacity beyond the demand covers the reserves: all of them, or those of the
    sources before one that, together with the ones after it, can do without. -/
def ReservesCovered (xs : List α) (slack : ℤ) : Prop :=
  (xs.map reserve).sum ≤ slack ∨
    ∃ pre x post, xs = pre ++ x :: post ∧
      (post.map capacity).sum + (pre.map reserve).sum < slack

variable {capacity reserve} {xs : List α} {remaining : ℤ}

private theorem fillAmount_bounds {x : α} (hx : 0 ≤ reserve x ∧ reserve x < capacity x)
    (hpos : 0 < remaining) :
    0 < fillAmount capacity reserve x remaining ∧
      fillAmount capacity reserve x remaining ≤ capacity x ∧
      fillAmount capacity reserve x remaining ≤ remaining := by
  unfold fillAmount
  split <;> omega

/-- **Amounts**: every source that is used gives a positive amount within its capacity. -/
theorem mem_fill (hxs : ValidReserves capacity reserve xs) (hnn : 0 ≤ remaining) {x : α}
    {amount : ℤ} (h : (x, amount) ∈ (fill capacity reserve xs remaining).1) :
    x ∈ xs ∧ 0 < amount ∧ amount ≤ capacity x := by
  induction xs generalizing remaining with
  | nil => cases h
  | cons y xs ih =>
    obtain ⟨hy, hxs'⟩ := forall_mem_cons.mp hxs
    unfold fill at h
    split at h
    · cases h
    rename_i hne
    obtain ⟨hpos, hcap, hle⟩ := fillAmount_bounds hy (lt_of_le_of_ne hnn (Ne.symm hne))
    rcases mem_cons.mp h with heq | h
    · cases heq
      exact ⟨mem_cons_self, hpos, hcap⟩
    · obtain ⟨hmem, hbounds⟩ := ih hxs' (by omega) h
      exact ⟨mem_cons_of_mem _ hmem, hbounds⟩

private theorem sum_reserve_le (hxs : ValidReserves capacity reserve xs) :
    (xs.map reserve).sum ≤ (xs.map capacity).sum := by
  induction xs with
  | nil => simp
  | cons x xs ih =>
    obtain ⟨hx, hxs'⟩ := forall_mem_cons.mp hxs
    have hrest := ih hxs'
    rw [map_cons, map_cons, sum_cons, sum_cons]
    omega

/-- A source that cannot empty itself for the demand is passed with its reserve. -/
private theorem reservesCovered_cons {x : α} {slack : ℤ}
    (h : slack ≤ (xs.map capacity).sum) :
    ReservesCovered capacity reserve (x :: xs) slack ↔
      ReservesCovered capacity reserve xs (slack - reserve x) := by
  apply or_congr
  · rw [map_cons, sum_cons]
    omega
  · constructor
    · rintro ⟨pre, y, post, heq, hlt⟩
      cases pre with
      | nil =>
        -- the source itself is no such place
        obtain ⟨rfl, rfl⟩ := cons.inj heq
        rw [map_nil, sum_nil] at hlt
        omega
      | cons z pre =>
        obtain ⟨rfl, rfl⟩ := cons.inj heq
        refine ⟨pre, y, post, rfl, ?_⟩
        rw [map_cons, sum_cons] at hlt
        omega
    · rintro ⟨pre, y, post, rfl, hlt⟩
      refine ⟨x :: pre, y, post, rfl, ?_⟩
      rw [map_cons, sum_cons]
      omega

/-- **Full demand**: the demand is met exactly when the spare capacity covers the
    reserves. -/
theorem fill_left_eq_zero_iff (hxs : ValidReserves capacity reserve xs) (hnn : 0 ≤ remaining) :
    (fill capacity reserve xs remaining).2 = 0 ↔
      ReservesCovered capacity reserve xs ((xs.map capacity).sum - remaining) := by
  induction xs generalizing remaining with
  | nil =>
    constructor
    · intro h
      obtain rfl : remaining = 0 := h
      exact .inl (by simp)
    · rintro (h | ⟨pre, x, post, heq, -⟩)
      · simp only [map_nil, sum_nil] at h
        show remaining = 0
        omega
      · simp at heq
  | cons x xs ih =>
    obtain ⟨hx, hxs'⟩ := forall_mem_cons.mp hxs
    unfold fill
    split
    · -- nothing is demanded, and the reserves are within the capacities
      rename_i hzero
      refine ⟨fun _ => .inl ?_, fun _ => hzero⟩
      have := sum_reserve_le hxs
      omega
    · rename_i hne
      obtain ⟨-, -, hle⟩ := fillAmount_bounds hx (lt_of_le_of_ne hnn (Ne.symm hne))
      rw [ih hxs' (by omega)]
      unfold fillAmount
      rw [map_cons, sum_cons]
      split
      · -- the source meets the rest of the demand
        refine ⟨fun _ => .inr ⟨[], x, xs, rfl, ?_⟩, fun _ => .inl ?_⟩
        · rw [map_nil, sum_nil]
          omega
        · have := sum_reserve_le hxs'
          omega
      · rw [reservesCovered_cons (by omega)]
        have hslack : (xs.map capacity).sum - (remaining - (capacity x - reserve x)) =
            capacity x + (xs.map capacity).sum - remaining - reserve x := by ring
        rw [hslack]

/-! ## Sources in the order of a key -/

section Sorted

variable {β : Type*} [LinearOrder β]

/-- Reserves covered by the spare capacity, where the sources are used in the order of
    their keys. -/
def ReservesCoveredBy (capacity reserve : α → ℤ) (key : α → β) (xs : List α) (slack : ℤ) :
    Prop :=
  (xs.map reserve).sum ≤ slack ∨
    ∃ x ∈ xs, ((xs.filter (key x < key ·)).map capacity).sum +
      ((xs.filter (key · < key x)).map reserve).sum < slack

variable {key : α → β}

/-- In a sorted list the elements before one are those with a smaller key, the ones after
    it those with a larger key. -/
private theorem filter_key_of_sorted {pre post : List α} {x : α}
    (h : (pre ++ x :: post).Pairwise (key · < key ·)) :
    (pre ++ x :: post).filter (key · < key x) = pre ∧
      (pre ++ x :: post).filter (key x < key ·) = post := by
  obtain ⟨-, hpost, hcross⟩ := pairwise_append.mp h
  have hafter := (pairwise_cons.mp hpost).1
  have hbefore (y : α) (hy : y ∈ pre) : key y < key x := hcross y hy x mem_cons_self
  have hpre₁ : pre.filter (key · < key x) = pre :=
    filter_eq_self.mpr fun y hy => decide_eq_true (hbefore y hy)
  have hpre₂ : pre.filter (key x < key ·) = [] :=
    filter_eq_nil_iff.mpr fun y hy => by simpa using (hbefore y hy).le
  have hpost₁ : post.filter (key · < key x) = [] :=
    filter_eq_nil_iff.mpr fun y hy => by simpa using (hafter y hy).le
  have hpost₂ : post.filter (key x < key ·) = post :=
    filter_eq_self.mpr fun y hy => decide_eq_true (hafter y hy)
  refine ⟨?_, ?_⟩
  · simp [filter_append, hpre₁, hpost₁]
  · simp [filter_append, hpre₂, hpost₂]

/-- **Order-free form**: over a sorted list, places in the list are elements of it. -/
theorem reservesCovered_iff_of_sorted (h : xs.Pairwise (key · < key ·)) {slack : ℤ} :
    ReservesCovered capacity reserve xs slack ↔
      ReservesCoveredBy capacity reserve key xs slack := by
  apply or_congr Iff.rfl
  constructor
  · rintro ⟨pre, x, post, rfl, hlt⟩
    obtain ⟨hpre, hpost⟩ := filter_key_of_sorted h
    refine ⟨x, by simp, ?_⟩
    rw [hpre, hpost]
    exact hlt
  · rintro ⟨x, hx, hlt⟩
    obtain ⟨pre, post, rfl⟩ := append_of_mem hx
    obtain ⟨hpre, hpost⟩ := filter_key_of_sorted h
    rw [hpre, hpost] at hlt
    exact ⟨pre, x, post, rfl, hlt⟩

theorem reservesCoveredBy_perm {ys : List α} (h : xs.Perm ys) {slack : ℤ} :
    ReservesCoveredBy capacity reserve key xs slack ↔
      ReservesCoveredBy capacity reserve key ys slack := by
  apply or_congr
  · rw [(h.map reserve).sum_eq]
  · apply exists_congr
    intro x
    rw [h.mem_iff, ((h.filter _).map capacity).sum_eq, ((h.filter _).map reserve).sum_eq]

end Sorted

end Stride.Lib
