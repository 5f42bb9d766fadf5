import Mathlib.Algebra.Group.Nat.Even
import Mathlib.Tactic.Ring
import Mathlib.Tactic.Linarith

/-!
# Fixed-Point Quotients with Half-Even Rounding

A decimal with `D` as its unit is stored as the integer `D` times its value. Products
and quotients of stored values carry a factor `D` too many, which is divided out by
rounding to the nearest integer, ties going to the even one.

## Main results

- `le_roundHalfEven_iff_of_even`
- `roundHalfEven_mul_le`, `scaledQuo_mul_le`: what rounding adds at most
- `scaledQuo_div`
- `scaledQuo_div_of_lt`
- `sum_map_mul_div_le`
-/

namespace Stride.Lib

/-- The integer nearest to `n / D`, ties to even. -/
def roundHalfEven (D n : ℕ) : ℕ :=
  if 2 * (n % D) < D then n / D
  else if D < 2 * (n % D) then n / D + 1
  else if n / D % 2 = 0 then n / D
  else n / D + 1

variable {D n m r : ℕ}

theorem roundHalfEven_mul (hD : 0 < D) (m : ℕ) : roundHalfEven D (m * D) = m := by
  simp [roundHalfEven, hD]

/-- An even `m` is reached from half a unit below it on. -/
theorem le_roundHalfEven_iff_of_even (hD : 0 < D) (hm : m % 2 = 0) :
    m ≤ roundHalfEven D n ↔ 2 * (m * D) ≤ 2 * n + D := by
  have hn : D * (n / D) + n % D = n := Nat.div_add_mod n D
  have hr : n % D < D := Nat.mod_lt n hD
  generalize n / D = q at hn
  generalize n % D = r at hn hr
  subst hn
  have hq : (D * q + r) / D = q := by
    rw [Nat.mul_add_div hD, Nat.div_eq_of_lt hr, Nat.add_zero]
  have hmod : (D * q + r) % D = r := by
    rw [Nat.mul_add_mod, Nat.mod_eq_of_lt hr]
  unfold roundHalfEven
  -- `m` is at most the quotient, one above it, or further away.
  rcases Nat.lt_trichotomy m (q + 1) with hlt | heq | hgt
  · have hmq : m * D ≤ q * D := Nat.mul_le_mul_right D (Nat.lt_succ_iff.mp hlt)
    refine ⟨fun _ => by nlinarith, fun _ => ?_⟩
    split_ifs <;> omega
  · subst heq
    have hodd : q % 2 ≠ 0 := by omega
    have hexp : 2 * ((q + 1) * D) = 2 * (D * q) + 2 * D := by ring
    split_ifs <;> omega
  · have hmD : (q + 2) * D ≤ m * D := Nat.mul_le_mul_right D hgt
    refine ⟨fun hle => ?_, fun hle => by nlinarith⟩
    split_ifs at hle <;> omega

theorem roundHalfEven_mul_le (hD : 0 < D) (n : ℕ) : 2 * (roundHalfEven D n * D) ≤ 2 * n + D := by
  have hn : D * (n / D) + n % D = n := Nat.div_add_mod n D
  have hr : n % D < D := Nat.mod_lt n hD
  have hup : 2 * ((n / D + 1) * D) = 2 * (D * (n / D)) + 2 * D := by ring
  have hdown : 2 * (n / D * D) = 2 * (D * (n / D)) := by ring
  unfold roundHalfEven
  split_ifs
  · omega
  · omega
  · omega
  · omega

/-- The stored quotient of the stored values `a` and `b`: the factor `D` of the divisor
    is made up for, and one more gives the digit that decides the rounding. -/
def scaledQuo (D a b : ℕ) : ℕ := roundHalfEven D (a * D * D / b)

/-- A quotient is at most half a digit above the exact one. -/
theorem scaledQuo_mul_le (hD : 0 < D) (a b : ℕ) : 2 * (scaledQuo D a b * b) ≤ 2 * (a * D) + b := by
  have hround := roundHalfEven_mul_le hD (a * D * D / b)
  have htrunc : a * D * D / b * b ≤ a * D * D := Nat.div_mul_le_self _ _
  refine Nat.le_of_mul_le_mul_right ?_ hD
  calc 2 * (scaledQuo D a b * b) * D = 2 * (scaledQuo D a b * D) * b := by ring
    _ ≤ (2 * (a * D * D / b) + D) * b := Nat.mul_le_mul_right b hround
    _ = 2 * (a * D * D / b * b) + D * b := by ring
    _ ≤ 2 * (a * D * D) + D * b := by omega
    _ = (2 * (a * D) + b) * D := by ring

/-- The integer `m` is reached by the integer part of `n / (r / D)`. -/
theorem le_scaledQuo_div_iff (hD : 0 < D) (heven : D % 2 = 0) (hr : 0 < r) :
    m ≤ scaledQuo D (n * D) r / D ↔ 2 * D * r * m ≤ 2 * n * (D * D) + r := by
  rw [Nat.le_div_iff_mul_le hD, scaledQuo,
    le_roundHalfEven_iff_of_even hD (by rw [Nat.mul_mod, heven, Nat.mul_zero, Nat.zero_mod])]
  obtain ⟨h, hh⟩ : ∃ h, D = 2 * h := ⟨D / 2, by omega⟩
  have hpos : 0 < h := by omega
  -- Half a unit is an integer because `D` is even, so the tie test is a bound on the
  -- truncated quotient itself.
  have hstep : 2 * (m * D * D) ≤ 2 * (n * D * D * D / r) + D ↔
      m * D * D ≤ n * D * D * D / r + h := by omega
  rw [hstep, ← Nat.sub_le_iff_le_add, Nat.le_div_iff_mul_le hr]
  constructor
  · intro hle
    have hsub : m * D * D * r ≤ n * D * D * D + h * r := by
      have hexp : m * D * D * r ≤ (m * D * D - h) * r + h * r := by
        rw [← Nat.add_mul]
        exact Nat.mul_le_mul_right r (by omega)
      omega
    subst hh
    have hfac : h * (2 * (2 * h) * r * m) ≤ h * (2 * n * (2 * h * (2 * h)) + r) := by
      nlinarith
    exact Nat.le_of_mul_le_mul_left hfac hpos
  · intro hle
    have hmul : h * (2 * D * r * m) ≤ h * (2 * n * (D * D) + r) := Nat.mul_le_mul_left h hle
    rw [Nat.sub_mul]
    have : m * D * D * r ≤ n * D * D * D + h * r := by
      nlinarith
    omega

/-- **Integer part of an integer over a decimal**, with the rounding of the quotient
    taken into account. -/
theorem scaledQuo_div (hD : 0 < D) (heven : D % 2 = 0) (hr : 0 < r) :
    scaledQuo D (n * D) r / D = (2 * n * (D * D) + r) / (2 * D * r) := by
  have hden : 0 < 2 * D * r := by positivity
  refine eq_of_forall_le_iff fun m => ?_
  rw [le_scaledQuo_div_iff hD heven hr, Nat.le_div_iff_mul_le hden, Nat.mul_comm m]

/-- Below the rate `2` the rounding never lifts the quotient to the next integer. -/
theorem scaledQuo_div_of_lt (hD : 0 < D) (heven : D % 2 = 0) (hr : 0 < r) (hlt : r < 2 * D) :
    scaledQuo D (n * D) r / D = n * D / r := by
  refine eq_of_forall_le_iff fun m => ?_
  rw [le_scaledQuo_div_iff hD heven hr, Nat.le_div_iff_mul_le hr]
  constructor
  · intro hle
    by_contra hcon
    have hgap : n * D + 1 ≤ m * r := by omega
    have hmul : 2 * D * (n * D + 1) ≤ 2 * D * (m * r) := Nat.mul_le_mul_left _ hgap
    nlinarith
  · intro hle
    have hmul : 2 * D * (m * r) ≤ 2 * D * (n * D) := Nat.mul_le_mul_left _ hle
    nlinarith

/-- Parts divided one by one give at most what their sum gives. -/
theorem sum_map_mul_div_le (D r : ℕ) (parts : List ℕ) :
    (parts.map fun b => b * D / r).sum ≤ parts.sum * D / r := by
  induction parts with
  | nil => simp
  | cons b parts ih =>
    rw [List.map_cons, List.sum_cons, List.sum_cons, Nat.add_mul]
    exact (Nat.add_le_add_left ih _).trans Nat.div_add_div_le_add_div

end Stride.Lib
