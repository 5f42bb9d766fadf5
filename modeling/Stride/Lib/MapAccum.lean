import Mathlib.Algebra.BigOperators.Group.List.Basic
import Mathlib.Data.List.Forall2

/-!
# Loops that Rewrite a List

`mapAccum f acc xs` walks `xs` once, from the left. Each element is replaced by what `f`
returns for it, an accumulator is threaded through, and the first error ends the loop.
-/

namespace Stride.Lib

open List

variable {σ α ε : Type*}

/-- Left-to-right loop with an accumulator that replaces the elements it visits. -/
def mapAccum (f : σ → α → Except ε (σ × α)) : σ → List α → Except ε (σ × List α)
  | acc, [] => .ok (acc, [])
  | acc, x :: xs =>
    match f acc x with
    | .error e => .error e
    | .ok (acc', x') =>
      match mapAccum f acc' xs with
      | .error e => .error e
      | .ok (acc'', xs') => .ok (acc'', x' :: xs')

variable {f : σ → α → Except ε (σ × α)} {acc acc' : σ} {x : α} {xs ys : List α}

theorem mapAccum_cons_ok :
    mapAccum f acc (x :: xs) = .ok (acc', ys) ↔
      ∃ acc₁ x' xs', f acc x = .ok (acc₁, x') ∧ mapAccum f acc₁ xs = .ok (acc', xs') ∧
        ys = x' :: xs' := by
  rw [mapAccum]
  cases hx : f acc x with
  | error e => simp
  | ok p =>
    obtain ⟨acc₁, x'⟩ := p
    dsimp only
    cases hxs : mapAccum f acc₁ xs with
    | error e => simp [hxs]
    | ok q =>
      obtain ⟨acc₂, xs'⟩ := q
      simp only [Except.ok.injEq, Prod.mk.injEq]
      constructor
      · rintro ⟨rfl, rfl⟩
        exact ⟨acc₁, x', xs', ⟨rfl, rfl⟩, hxs, rfl⟩
      · rintro ⟨_, _, ys', ⟨rfl, rfl⟩, hys, rfl⟩
        rw [hxs] at hys
        cases hys
        exact ⟨rfl, rfl⟩

/-- **Relation rule**: what the body keeps at each element holds along the list, and what
    it keeps of the accumulator holds at the end. -/
theorem mapAccum_forall₂ {I : σ → Prop} {R : α → α → Prop}
    (hf : ∀ acc x acc' x', I acc → f acc x = .ok (acc', x') → I acc' ∧ R x x')
    (hacc : I acc) (h : mapAccum f acc xs = .ok (acc', ys)) :
    I acc' ∧ Forall₂ R xs ys := by
  induction xs generalizing acc ys with
  | nil =>
    cases h
    exact ⟨hacc, .nil⟩
  | cons x xs ih =>
    obtain ⟨acc₁, x', xs', hx, hxs, rfl⟩ := mapAccum_cons_ok.mp h
    obtain ⟨hacc₁, hR⟩ := hf _ _ _ _ hacc hx
    obtain ⟨hacc', hRs⟩ := ih hacc₁ hxs
    exact ⟨hacc', .cons hR hRs⟩

theorem forall₂_exists_right {β : Type*} {R : α → β → Prop} {l : List α} {l' : List β}
    (h : Forall₂ R l l') {a : α} (ha : a ∈ l) : ∃ b ∈ l', R a b := by
  induction h with
  | nil => cases ha
  | cons hab _ ih =>
    rcases mem_cons.mp ha with rfl | ha
    · exact ⟨_, mem_cons_self, hab⟩
    · obtain ⟨b, hb, hR⟩ := ih ha
      exact ⟨b, mem_cons_of_mem _ hb, hR⟩

theorem forall₂_exists_left {β : Type*} {R : α → β → Prop} {l : List α} {l' : List β}
    (h : Forall₂ R l l') {b : β} (hb : b ∈ l') : ∃ a ∈ l, R a b :=
  forall₂_exists_right (Forall₂.flip h) hb

/-- **Map rule**: a body that always writes `g x`, and only where `P x`, maps `g`. -/
theorem mapAccum_eq_map {g : α → α} {P : α → Prop}
    (hf : ∀ acc x acc' x', f acc x = .ok (acc', x') → x' = g x ∧ P x)
    (h : mapAccum f acc xs = .ok (acc', ys)) : ys = xs.map g ∧ ∀ x ∈ xs, P x := by
  induction xs generalizing acc ys with
  | nil =>
    cases h
    exact ⟨rfl, forall_mem_nil _⟩
  | cons x xs ih =>
    obtain ⟨acc₁, x', xs', hx, hxs, rfl⟩ := mapAccum_cons_ok.mp h
    obtain ⟨rfl, hP⟩ := hf _ _ _ _ hx
    obtain ⟨rfl, hPs⟩ := ih hxs
    exact ⟨rfl, forall_mem_cons.mpr ⟨hP, hPs⟩⟩

/-- **Conservation rule**: if each step moves weight between the accumulator and the
    element it visits, the loop conserves their sum. -/
theorem mapAccum_sum {M : Type*} [AddCommMonoid M] (m : σ → M) (w : α → M)
    (hf : ∀ acc x acc' x', f acc x = .ok (acc', x') → m acc' + w x' = m acc + w x)
    (h : mapAccum f acc xs = .ok (acc', ys)) :
    m acc' + (ys.map w).sum = m acc + (xs.map w).sum := by
  induction xs generalizing acc ys with
  | nil =>
    cases h
    rfl
  | cons x xs ih =>
    obtain ⟨acc₁, x', xs', hx, hxs, rfl⟩ := mapAccum_cons_ok.mp h
    have hstep := hf _ _ _ _ hx
    have hrest := ih hxs
    calc m acc' + ((x' :: xs').map w).sum = w x' + (m acc' + (xs'.map w).sum) := by
          rw [map_cons, sum_cons, add_left_comm]
      _ = w x' + (m acc₁ + (xs.map w).sum) := by rw [hrest]
      _ = (m acc₁ + w x') + (xs.map w).sum := by rw [← add_assoc, add_comm (w x')]
      _ = m acc + ((x :: xs).map w).sum := by
          rw [hstep, map_cons, sum_cons, add_assoc]

/-- **Loops compose**: a loop over a concatenation runs over the parts in turn. -/
theorem mapAccum_append_ok {zs : List α} :
    mapAccum f acc (xs ++ ys) = .ok (acc', zs) ↔
      ∃ acc₁ xs' ys', mapAccum f acc xs = .ok (acc₁, xs') ∧
        mapAccum f acc₁ ys = .ok (acc', ys') ∧ zs = xs' ++ ys' := by
  induction xs generalizing acc zs with
  | nil =>
    constructor
    · intro h
      exact ⟨acc, [], zs, rfl, h, rfl⟩
    · rintro ⟨_, _, ys', h, hys, rfl⟩
      cases h
      exact hys
  | cons x xs ih =>
    rw [cons_append, mapAccum_cons_ok]
    constructor
    · rintro ⟨acc₁, x', zs', hx, hrest, rfl⟩
      obtain ⟨acc₂, xs', ys', hxs, hys, rfl⟩ := ih.mp hrest
      exact ⟨acc₂, x' :: xs', ys', mapAccum_cons_ok.mpr ⟨_, _, _, hx, hxs, rfl⟩, hys, rfl⟩
    · rintro ⟨acc₂, _, ys', hxs, hys, rfl⟩
      obtain ⟨acc₁, x', xs', hx, hxs', rfl⟩ := mapAccum_cons_ok.mp hxs
      exact ⟨acc₁, x', xs' ++ ys', hx, ih.mpr ⟨_, _, _, hxs', hys, rfl⟩, rfl⟩

end Stride.Lib
