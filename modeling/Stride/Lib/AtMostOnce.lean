import Stride.Lib.Pipeline
import Mathlib.Data.List.Flatten
import Mathlib.Data.List.InsertIdx
import Mathlib.Data.List.Nodup

/-!
# Operations with Exclusive Keys

Each operation takes some keys for itself. A key is busy while an operation that takes it is in
flight, and closed once an operation that takes it was executed and acknowledged. A primary
that sees only operations on idle keys executes at most one operation for each key, whatever
the order of executions and acknowledgements.

## Main definitions

- `AtMostOnce keys busy closed inFlight done`: `done` are the operations executed so far

## Main results

- `AtMostOnce.send`, `.execute`, `.reject`, `.ack`: one rule for each event
- `AtMostOnce.mono`
-/

namespace Stride.Lib

open List

variable {Op K : Type*}

/-- Every key is taken by at most one operation in flight and by at most one that was
    executed; a key of an executed operation is closed, or its acknowledgement is still to
    come. -/
structure AtMostOnce (keys : Op → List K) (busy closed : K → Prop) (inFlight : List (Pending Op))
    (done : List Op) : Prop where
  inFlight_nodup : ((inFlight.map Pending.op).flatMap keys).Nodup
  done_nodup : (done.flatMap keys).Nodup
  busy : ∀ p ∈ inFlight, ∀ k ∈ keys p.op, busy k
  accounted : ∀ k ∈ done.flatMap keys,
    closed k ∨ ∃ p ∈ inFlight, p.progress = .executed ∧ k ∈ keys p.op
  logged : ∀ p ∈ inFlight, p.progress = .executed → p.op ∈ done

namespace AtMostOnce

variable {keys : Op → List K} {busy closed busy' closed' : K → Prop}
  {inFlight : List (Pending Op)} {done : List Op}

theorem nil : AtMostOnce keys busy closed [] [] :=
  ⟨nodup_nil, nodup_nil, forall_mem_nil _, forall_mem_nil _,
    forall_mem_nil _⟩

section

variable (h : AtMostOnce keys busy closed inFlight done)

include h

private theorem index_unique {i j : ℕ} {p q : Pending Op} (hi : inFlight[i]? = some p)
    (hj : inFlight[j]? = some q) {k : K} (hp : k ∈ keys p.op) (hq : k ∈ keys q.op) : i = j := by
  have hpairwise := (nodup_flatMap.mp h.inFlight_nodup).2
  rw [pairwise_map, pairwise_iff_getElem] at hpairwise
  obtain ⟨hilt, rfl⟩ := List.getElem?_eq_some_iff.mp hi
  obtain ⟨hjlt, rfl⟩ := List.getElem?_eq_some_iff.mp hj
  rcases Nat.lt_trichotomy i j with hlt | heq | hlt
  · exact absurd hq (hpairwise i j hilt hjlt hlt hp)
  · exact heq
  · exact absurd hp (hpairwise j i hjlt hilt hlt hq)

/-- Events that leave the operations alone. -/
theorem mono (hbusy : ∀ k, busy k → busy' k) (hclosed : ∀ k, closed k → closed' k) :
    AtMostOnce keys busy' closed' inFlight done where
  inFlight_nodup := h.inFlight_nodup
  done_nodup := h.done_nodup
  busy p hp k hk := hbusy k (h.busy p hp k hk)
  accounted k hk := (h.accounted k hk).imp_left (hclosed k)
  logged := h.logged

private theorem notMem_done {k : K} (hidle : ¬ busy k) (hopen : ¬ closed k) :
    k ∉ done.flatMap keys := by
  intro hk
  rcases h.accounted k hk with hclosed | ⟨p, hp, -, hkp⟩
  · exact hopen hclosed
  · exact hidle (h.busy p hp k hkp)

/-- **Send**: an operation takes keys that were idle. -/
theorem send {op : Op} (hnd : (keys op).Nodup) (hidle : ∀ k ∈ keys op, ¬ busy k)
    (hopen : ∀ k ∈ keys op, ¬ closed k) (hself : ∀ k ∈ keys op, busy' k)
    (hother : ∀ k ∉ keys op, (busy k → busy' k) ∧ (closed k → closed' k)) :
    AtMostOnce keys busy' closed' (inFlight ++ [⟨op, .sent⟩]) done where
  inFlight_nodup := by
    rw [map_append, flatMap_append, nodup_append]
    refine ⟨h.inFlight_nodup, by simpa using hnd, ?_⟩
    rintro k hk k' hk' rfl
    obtain ⟨op', hop', hkop⟩ := mem_flatMap.mp hk
    obtain ⟨p, hp, rfl⟩ := mem_map.mp hop'
    exact hidle k (by simpa using hk') (h.busy p hp k hkop)
  done_nodup := h.done_nodup
  busy := by
    refine forall_mem_concat (fun p hp k hk => ?_) hself
    have hbusy := h.busy p hp k hk
    exact (hother k fun hmem => hidle k hmem hbusy).1 hbusy
  accounted k hk := by
    have hnot : k ∉ keys op := fun hmem => h.notMem_done (hidle k hmem) (hopen k hmem) hk
    rcases h.accounted k hk with hclosed | ⟨p, hp, hrest⟩
    · exact .inl ((hother k hnot).2 hclosed)
    · exact .inr ⟨p, mem_append_left _ hp, hrest⟩
  logged := forall_mem_concat h.logged fun hexecuted => by cases hexecuted

end

private theorem mem_set_of_ne {i : ℕ} {p q p' : Pending Op} (hi : inFlight[i]? = some p)
    (hne : p' ≠ p) (hp' : p' ∈ inFlight) : p' ∈ inFlight.set i q := by
  obtain ⟨j, hj⟩ := mem_iff_getElem?.mp hp'
  have hij : i ≠ j := by
    rintro rfl
    exact hne (Option.some.inj (hj.symm.trans hi))
  exact mem_iff_getElem?.mpr ⟨j, by rw [getElem?_set_ne hij, hj]⟩

section Progress

variable {i : ℕ} {op : Op} {progress : Progress}

variable (h : AtMostOnce keys busy closed inFlight done)

include h

section

variable (hi : inFlight[i]? = some ⟨op, .sent⟩)
include hi

/-- The part of `execute` and `reject` in common. -/
private theorem set_progress {done' : List Op}
    (hnd : (done'.flatMap keys).Nodup) (hdone : ∀ k ∈ done'.flatMap keys,
      k ∈ done.flatMap keys ∨ (progress = .executed ∧ k ∈ keys op))
    (hlogged : ∀ op' ∈ done, op' ∈ done') (hself : progress = .executed → op ∈ done') :
    AtMostOnce keys busy closed (inFlight.set i ⟨op, progress⟩) done' where
  inFlight_nodup := by
    rw [map_op_set hi]
    exact h.inFlight_nodup
  done_nodup := hnd
  busy := forall_mem_set h.busy (h.busy ⟨op, .sent⟩ (mem_of_getElem? hi))
  accounted k hk := by
    have hset : (⟨op, progress⟩ : Pending Op) ∈ inFlight.set i ⟨op, progress⟩ :=
      mem_iff_getElem?.mpr ⟨i, by simp [(List.getElem?_eq_some_iff.mp hi).1]⟩
    rcases hdone k hk with hk | ⟨hexecuted, hkop⟩
    · refine (h.accounted k hk).imp_right ?_
      rintro ⟨p, hp, hexecuted, hkp⟩
      have hne : p ≠ ⟨op, .sent⟩ := by
        rintro rfl
        cases hexecuted
      exact ⟨p, mem_set_of_ne hi hne hp, hexecuted, hkp⟩
    · exact .inr ⟨_, hset, hexecuted, hkop⟩
  logged := forall_mem_set (fun p hp hexecuted => hlogged _ (h.logged p hp hexecuted)) hself

/-- **Execution**: nothing was executed for these keys before. -/
theorem execute (hdisjoint : ∀ k, busy k → ¬ closed k) :
    AtMostOnce keys busy closed (inFlight.set i ⟨op, .executed⟩) (done ++ [op]) := by
  have hmem := mem_of_getElem? hi
  apply h.set_progress hi
  · rw [flatMap_append, nodup_append]
    refine ⟨h.done_nodup, ?_, ?_⟩
    · have hnd := (nodup_flatMap.mp h.inFlight_nodup).1 op (mem_map_of_mem hmem)
      simpa using hnd
    · rintro k hk k' hk' rfl
      replace hk' : k ∈ keys op := by simpa using hk'
      rcases h.accounted k hk with hclosed | ⟨p, hp, hexecuted, hkp⟩
      · exact hdisjoint k (h.busy _ hmem k hk') hclosed
      · -- the key would be taken twice
        obtain ⟨j, hj⟩ := mem_iff_getElem?.mp hp
        obtain rfl := h.index_unique hi hj hk' hkp
        obtain rfl := Option.some.inj (hi.symm.trans hj)
        cases hexecuted
  · intro k hk
    rw [flatMap_append, mem_append] at hk
    exact hk.imp_right fun hk => ⟨rfl, by simpa using hk⟩
  · exact fun op' hop' => mem_append_left _ hop'
  · exact fun _ => mem_append_right _ mem_cons_self

theorem reject : AtMostOnce keys busy closed (inFlight.set i ⟨op, .rejected⟩) done := by
  apply h.set_progress hi h.done_nodup
  · exact fun k hk => .inl hk
  · exact fun op' hop' => hop'
  · intro hexecuted
    cases hexecuted

end

end Progress

/-- **Acknowledgement**: the keys of an executed operation are closed. -/
theorem ack (h : AtMostOnce keys busy closed inFlight done) {i : ℕ} {p : Pending Op}
    (hi : inFlight[i]? = some p) (hdisjoint : ∀ k, busy k → ¬ closed k)
    (hself : p.progress = .executed → ∀ k ∈ keys p.op, closed' k)
    (hother : ∀ k ∉ keys p.op, (busy k → busy' k) ∧ (closed k → closed' k)) :
    AtMostOnce keys busy' closed' (inFlight.eraseIdx i) done where
  inFlight_nodup := by
    have hsub : ((inFlight.eraseIdx i).map Pending.op).Sublist (inFlight.map Pending.op) :=
      (eraseIdx_sublist ..).map _
    exact h.inFlight_nodup.sublist (hsub.flatMap keys)
  done_nodup := h.done_nodup
  busy q hq k hk := by
    -- the operations in flight share no key
    obtain ⟨j, hne, hj⟩ := mem_eraseIdx_iff_getElem?.mp hq
    have hnot : k ∉ keys p.op := fun hkp => hne (h.index_unique hj hi hk hkp)
    exact (hother k hnot).1 (h.busy q (mem_of_getElem? hj) k hk)
  accounted k hk := by
    rcases h.accounted k hk with hclosed | ⟨q, hq, hexecuted, hkq⟩
    · have hnot : k ∉ keys p.op := fun hkp =>
        hdisjoint k (h.busy p (mem_of_getElem? hi) k hkp) hclosed
      exact .inl ((hother k hnot).2 hclosed)
    · obtain ⟨j, hj⟩ := mem_iff_getElem?.mp hq
      by_cases hij : j = i
      · subst hij
        obtain rfl := Option.some.inj (hi.symm.trans hj)
        exact .inl (hself hexecuted k hkq)
      · exact .inr ⟨q, mem_eraseIdx_iff_getElem?.mpr ⟨j, hij, hj⟩, hexecuted, hkq⟩
  logged q hq hexecuted :=
    h.logged q (mem_of_mem_eraseIdx hq) hexecuted

end AtMostOnce

end Stride.Lib
