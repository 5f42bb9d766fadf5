import Mathlib.Logic.Function.Basic

/-!
# Runs of a Labelled Step Function

A machine is a partial step function `step : S → L → Option S`: the label names
the event, and `none` means that the event cannot happen in that state.

## Main definitions

- `Reaches step ok s₀ s`: some sequence of events, each of them allowed by `ok` in
  the state in which it happens, leads from `s₀` to `s`
- `runSteps step s ls`: the state after the events `ls`, for runs given as a list
- `runAllowed step ok s ls`: the same, as long as `ok` allows the events
-/

namespace Stride.Lib

variable {S L : Type*} {step : S → L → Option S} {s₀ s : S}

/-- `s` can be reached from `s₀` by events that `ok` allows where they happen. -/
inductive Reaches (step : S → L → Option S) (ok : S → L → Prop) (s₀ : S) : S → Prop where
  | refl : Reaches step ok s₀ s₀
  | tail {s s' : S} (l : L) :
      Reaches step ok s₀ s → ok s l → step s l = some s' → Reaches step ok s₀ s'

/-- **Invariant rule**: a predicate that holds initially and is kept by every
    allowed step holds in every state that is reached. -/
theorem Reaches.invariant {ok : S → L → Prop} {I : S → Prop} (h : Reaches step ok s₀ s)
    (hinit : I s₀) (hstep : ∀ s l s', I s → ok s l → step s l = some s' → I s') : I s := by
  induction h with
  | refl => exact hinit
  | tail l _ hok hs ih => exact hstep _ l _ ih hok hs

theorem Reaches.mono {ok ok' : S → L → Prop} (h : Reaches step ok s₀ s)
    (himp : ∀ s l, ok s l → ok' s l) : Reaches step ok' s₀ s := by
  induction h with
  | refl => exact .refl
  | tail l _ hok hs ih => exact .tail l ih (himp _ l hok) hs

/-! ## Runs given as lists of events -/

/-- The state after the events `ls`, or `none` when one of them cannot happen. -/
def runSteps (step : S → L → Option S) : S → List L → Option S
  | s, [] => some s
  | s, l :: ls => (step s l).bind fun s' => runSteps step s' ls

/-- The state after the events `ls`, or `none` when one of them cannot happen or is not
    allowed where it happens. -/
def runAllowed (step : S → L → Option S) (ok : S → L → Prop) [∀ s l, Decidable (ok s l)] :
    S → List L → Option S
  | s, [] => some s
  | s, l :: ls => if ok s l then (step s l).bind fun s' => runAllowed step ok s' ls else none

/-- A computed run of allowed events is a run. -/
theorem Reaches.of_runAllowed {ok : S → L → Prop} [∀ s l, Decidable (ok s l)] {ls : List L}
    (hrun : runAllowed step ok s₀ ls = some s) : Reaches step ok s₀ s := by
  suffices hgen : ∀ (ls : List L) (t : S), Reaches step ok s₀ t →
      runAllowed step ok t ls = some s → Reaches step ok s₀ s from hgen ls s₀ .refl hrun
  intro ls
  induction ls with
  | nil =>
    intro t ht hrun
    cases hrun
    exact ht
  | cons l ls ih =>
    intro t ht hrun
    unfold runAllowed at hrun
    split at hrun
    · rename_i hok
      obtain ⟨t', ht', hrest⟩ := Option.bind_eq_some_iff.mp hrun
      exact ih t' (.tail l ht hok ht') hrest
    · cases hrun

/-- The end of a run that goes through can be computed. -/
theorem exists_run_end {o : Option S} {P : S → Prop} (hsome : o.isSome = true)
    (h : P (o.get hsome)) : ∃ s, o = some s ∧ P s :=
  ⟨_, (Option.some_get hsome).symm, h⟩

theorem Reaches.of_get {ok : S → L → Prop} [∀ s l, Decidable (ok s l)] {l : List L}
    (hsome : (runAllowed step ok s₀ l).isSome = true) :
    Reaches step ok s₀ ((runAllowed step ok s₀ l).get hsome) :=
  .of_runAllowed (Option.some_get hsome).symm

/-! ## Conditions on the result of a lookup -/

section Lookups

variable {α β ε : Type*} {p : α → Prop} [DecidablePred p]

instance decidableForallEqSomePair {q : α → β → Prop} [∀ a b, Decidable (q a b)]
    (o : Option (α × β)) : Decidable (∀ a b, o = some (a, b) → q a b) :=
  decidable_of_iff (∀ x, o = some x → q x.1 x.2) Prod.forall

instance decidableForallEqSomeForall {q : α → β → Prop} [∀ a, Decidable (∀ b, q a b)]
    (o : Option α) : Decidable (∀ a b, o = some a → q a b) :=
  decidable_of_iff (∀ a, o = some a → ∀ b, q a b) (forall_congr' fun _ => forall_comm)

instance decidableForallEqOk (x : Except ε α) : Decidable (∀ a, x = .ok a → p a) :=
  decidable_of_iff (∀ a ∈ x.toOption, p a) (by cases x <;> simp [Except.toOption])

end Lookups

end Stride.Lib
