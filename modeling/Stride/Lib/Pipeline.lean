import Mathlib.Algebra.BigOperators.Group.List.Basic
import Mathlib.Algebra.Group.Basic
import Mathlib.Tactic.Abel

/-!
# Operations in Flight

A replica sends operations to a primary, which executes or rejects each of them, and hears of
the outcome later. While an operation has been executed but not acknowledged, the replica is
behind by its delta.

## Main definitions

- `Pending`: an operation in flight, with its progress
- `unacked delta l`: what the replica is behind by
- `Covered delta P primary l`: the states through which the replica will go have `P`

## Main results

- `unacked_set`, `unacked_eraseIdx`: one operation progresses or is acknowledged
- `Covered.send`, `Covered.execute`, `Covered.reject`, `Covered.ack`: if operations are
  executed and acknowledged in the order in which they were sent, then the replica only goes
  through states in which the primary has been
-/

namespace Stride.Lib

open List

/-- How far an operation has got. -/
inductive Progress where
  | sent
  | executed
  | rejected
  deriving DecidableEq

/-- An operation in flight. -/
structure Pending (Op : Type*) where
  op : Op
  progress : Progress
  deriving DecidableEq

section Lists

variable {α : Type*} {P : α → Prop} {l : List α} {a : α}

theorem perm_cons_eraseIdx {i : ℕ} (h : l[i]? = some a) : l.Perm (a :: l.eraseIdx i) := by
  obtain ⟨hi, rfl⟩ := List.getElem?_eq_some_iff.mp h
  exact (getElem_cons_eraseIdx_perm hi).symm

theorem forall_mem_concat (h : ∀ b ∈ l, P b) (ha : P a) : ∀ b ∈ l ++ [a], P b :=
  forall_mem_append.mpr ⟨h, forall_mem_singleton.mpr ha⟩

theorem forall_mem_set {i : ℕ} (h : ∀ b ∈ l, P b) (ha : P a) : ∀ b ∈ l.set i a, P b :=
  fun b hb => (mem_or_eq_of_mem_set hb).elim (h b) fun heq => heq ▸ ha

end Lists

variable {Op A : Type*} [AddCommGroup A] (delta : Op → A)

/-- What the primary has done for an operation in flight. -/
def Pending.effect (p : Pending Op) : A :=
  if p.progress = .executed then delta p.op else 0

/-- What the primary has done for the operations in flight. -/
def unacked (l : List (Pending Op)) : A :=
  (l.map (Pending.effect delta)).sum

@[simp]
theorem Pending.effect_sent (op : Op) : Pending.effect delta ⟨op, .sent⟩ = 0 := rfl

@[simp]
theorem Pending.effect_rejected (op : Op) : Pending.effect delta ⟨op, .rejected⟩ = 0 := rfl

@[simp]
theorem Pending.effect_executed (op : Op) : Pending.effect delta ⟨op, .executed⟩ = delta op := rfl

@[simp]
theorem unacked_nil : unacked delta ([] : List (Pending Op)) = 0 := rfl

@[simp]
theorem unacked_cons (p : Pending Op) (l : List (Pending Op)) :
    unacked delta (p :: l) = p.effect delta + unacked delta l := by
  simp [unacked]

@[simp]
theorem unacked_append (l l' : List (Pending Op)) :
    unacked delta (l ++ l') = unacked delta l + unacked delta l' := by
  simp [unacked]

variable {delta}

private theorem unacked_eq_zero {l : List (Pending Op)} (h : ∀ p ∈ l, p.progress ≠ .executed) :
    unacked delta l = 0 := by
  induction l with
  | nil => rfl
  | cons p l ih =>
    obtain ⟨hp, hl⟩ := forall_mem_cons.mp h
    rw [unacked_cons, ih hl, Pending.effect, if_neg hp, add_zero]

variable {l : List (Pending Op)} {i : ℕ}

/-- An acknowledgement takes off its own effect. -/
theorem unacked_eraseIdx {p : Pending Op} (h : l[i]? = some p) :
    unacked delta (l.eraseIdx i) = unacked delta l - p.effect delta := by
  rw [unacked, unacked, ((perm_cons_eraseIdx h).map _).sum_eq, map_cons, sum_cons]
  abel

/-- A progress changes its own effect. -/
theorem unacked_set {p : Pending Op} (h : l[i]? = some p) (q : Pending Op) :
    unacked delta (l.set i q) = unacked delta l - p.effect delta + q.effect delta := by
  obtain ⟨hi, -⟩ := List.getElem?_eq_some_iff.mp h
  rw [← unacked_eraseIdx h, unacked, ((set_perm_cons_eraseIdx hi q).map _).sum_eq, map_cons,
    sum_cons, add_comm, unacked]

theorem map_op_set {op : Op} {progress : Progress} (h : l[i]? = some ⟨op, progress⟩)
    (progress' : Progress) : (l.set i ⟨op, progress'⟩).map Pending.op = l.map Pending.op := by
  have hop : (l.map Pending.op)[i]? = some op := by rw [getElem?_map, h, Option.map_some]
  obtain ⟨hi, rfl⟩ := List.getElem?_eq_some_iff.mp hop
  rw [map_set, set_getElem_self]

/-! ## In order -/

variable (delta) in
/-- The states of the primary that the replica has still to go through have `P`. -/
def Covered (P : A → Prop) (primary : A) (l : List (Pending Op)) : Prop :=
  ∀ n, P (primary - unacked delta (l.drop n))

namespace Covered

variable {P : A → Prop} {primary : A} {l : List (Pending Op)}

theorem nil (h : P primary) : Covered delta P primary [] := by
  intro n
  simpa using h

variable (h : Covered delta P primary l)

include h

theorem at_primary : P primary := by
  simpa using h l.length

/-- The replica is in a covered state. -/
theorem at_replica : P (primary - unacked delta l) := by
  simpa using h 0

/-- What is sent has no effect yet. -/
theorem send (op : Op) : Covered delta P primary (l ++ [⟨op, .sent⟩]) := by
  intro n
  rw [drop_append, unacked_append]
  have hlast : unacked delta (drop (n - l.length) [(⟨op, .sent⟩ : Pending Op)]) = 0 :=
    unacked_eq_zero fun p hp => by
      rw [mem_singleton.mp (mem_of_mem_drop hp)]
      simp
  rw [hlast, add_zero]
  exact h n

/-- Executing an operation keeps the order if nothing behind it has been executed. -/
theorem execute {i : ℕ} {op : Op} (hi : l[i]? = some ⟨op, .sent⟩)
    (horder : ∀ p ∈ l.drop (i + 1), p.progress ≠ .executed) (hP : P (primary + delta op)) :
    Covered delta P (primary + delta op) (l.set i ⟨op, .executed⟩) := by
  intro n
  rw [drop_set]
  split
  · -- the operation is in front: nothing of what is left was executed
    rename_i hlt
    have hzero : unacked delta (l.drop n) = 0 := unacked_eq_zero fun p hp =>
      horder p (mem_of_mem_drop (i := n - (i + 1)) (by
        rw [drop_drop, Nat.add_sub_cancel' hlt]
        exact hp))
    rw [hzero, sub_zero]
    exact hP
  · rename_i hle
    have hget : (l.drop n)[i - n]? = some ⟨op, .sent⟩ := by
      rw [getElem?_drop, Nat.add_sub_cancel' (Nat.le_of_not_lt hle)]
      exact hi
    have hsame : primary + delta op - unacked delta ((l.drop n).set (i - n) ⟨op, .executed⟩) =
        primary - unacked delta (l.drop n) := by
      rw [unacked_set hget, Pending.effect_sent, Pending.effect_executed]
      abel
    rw [hsame]
    exact h n

/-- What is rejected has no effect. -/
theorem reject {i : ℕ} {op : Op} (hi : l[i]? = some ⟨op, .sent⟩) :
    Covered delta P primary (l.set i ⟨op, .rejected⟩) := by
  intro n
  rw [drop_set]
  split
  · exact h n
  · rename_i hle
    have hget : (l.drop n)[i - n]? = some ⟨op, .sent⟩ := by
      rw [getElem?_drop, Nat.add_sub_cancel' (Nat.le_of_not_lt hle)]
      exact hi
    rw [unacked_set hget, Pending.effect_sent, Pending.effect_rejected, sub_zero, add_zero]
    exact h n

/-- The oldest operation is acknowledged. -/
theorem ack : Covered delta P primary (l.eraseIdx 0) := by
  intro n
  rw [eraseIdx_zero, ← drop_one, drop_drop]
  exact h (1 + n)

end Covered

end Stride.Lib
