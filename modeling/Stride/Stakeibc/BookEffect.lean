import Stride.Stakeibc.HostZone
import Mathlib.Algebra.BigOperators.Pi
import Mathlib.Algebra.Group.Pi.Basic

/-!
# Effects on the Delegation Book

Stride keeps a book of what its delegation account has with each validator of a zone, and
counts the ICAs in progress that will change it. All flows write the book through the
functions of `HostZone`; this module says what each of them does to the amounts and
counters, and that it leaves everything else alone.

## Main results

- `BookEffect.trans`, `BookEffect.foldlM`
- `foldlM_incrementValidatorDelegationChangesInProgress` and its counterpart for decrements
-/

namespace Stride.Stakeibc

open Stride.Sdk List

/-! ## The book -/

def HostZone.recorded (hostZone : HostZone) (address : String) : Option ℤ :=
  (getValidatorFromAddress hostZone.validators address).map Validator.delegation

/-- The counter of pending ICAs of a validator. -/
def HostZone.changesInProgress (hostZone : HostZone) (address : String) : Option ℤ :=
  (getValidatorFromAddress hostZone.validators address).map Validator.delegationChangesInProgress

/-- A validator apart from its delegation and its counter. -/
def Validator.frame (v : Validator) : Validator :=
  { v with delegation := 0, delegationChangesInProgress := 0 }

/-- The recorded delegations change by `delta`, their total by `total` and the counters by
    `changes`. Nothing else changes. -/
structure BookEffect (z z' : HostZone) (delta : String → ℤ) (total : ℤ) (changes : String → ℤ) :
    Prop where
  settings : z'.settings = z.settings
  frame : z'.validators.map Validator.frame = z.validators.map Validator.frame
  recorded : ∀ a, z'.recorded a = (z.recorded a).map (· + delta a)
  total : z'.totalDelegations = z.totalDelegations + total
  changes : ∀ a, z'.changesInProgress a = (z.changesInProgress a).map (· + changes a)

namespace BookEffect

theorem refl (z : HostZone) : BookEffect z z 0 0 0 where
  settings := rfl
  frame := rfl
  recorded a := by simp
  total := by simp
  changes a := by simp

/-- **Composition**: effects add up. -/
theorem trans {z₁ z₂ z₃ : HostZone} {d₁ d₂ : String → ℤ} {t₁ t₂ : ℤ} {c₁ c₂ : String → ℤ}
    (h₁ : BookEffect z₁ z₂ d₁ t₁ c₁) (h₂ : BookEffect z₂ z₃ d₂ t₂ c₂) :
    BookEffect z₁ z₃ (d₁ + d₂) (t₁ + t₂) (c₁ + c₂) where
  settings := h₂.settings.trans h₁.settings
  frame := h₂.frame.trans h₁.frame
  recorded a := by
    rw [h₂.recorded, h₁.recorded]
    simp [Function.comp_def, add_assoc]
  total := by rw [h₂.total, h₁.total, add_assoc]
  changes a := by
    rw [h₂.changes, h₁.changes]
    simp [Function.comp_def, add_assoc]

variable {z z' : HostZone} {d : String → ℤ} {t : ℤ} {c : String → ℤ}

theorem addresses (h : BookEffect z z' d t c) : z'.addresses = z.addresses := by
  have haddr := congrArg (map Validator.address) h.frame
  simpa [map_map, Function.comp_def, Validator.frame] using haddr

theorem weights (h : BookEffect z z' d t c) : z'.weights = z.weights := by
  have hweights := congrArg
    (map fun v => (v.address, v.weight, v.slashQueryInProgress)) h.frame
  simpa [map_map, Function.comp_def, Validator.frame, HostZone.weights] using hweights

theorem chainId (h : BookEffect z z' d t c) : z'.chainId = z.chainId :=
  HostZone.chainId_eq_of_settings h.settings

/-- **Loop rule**: the effects of the steps add up to the effect of the loop. -/
theorem foldlM {α : Type} {f : HostZone → α → Result HostZone} {d : α → String → ℤ} {t : α → ℤ}
    {c : α → String → ℤ} (hf : ∀ z₁ x z₂, z₁.addresses = z.addresses →
      f z₁ x = .ok z₂ → BookEffect z₁ z₂ (d x) (t x) (c x))
    {l : List α} (h : l.foldlM f z = .ok z') :
    BookEffect z z' (l.map d).sum (l.map t).sum (l.map c).sum := by
  induction l generalizing z with
  | nil =>
    cases h
    exact refl _
  | cons x l ih =>
    obtain ⟨z₁, hstep, hrest⟩ := bind_eq_ok.mp h
    have hx := hf z x z₁ rfl hstep
    refine hx.trans (ih (fun w x w' hw => hf w x w' ?_) hrest)
    exact hw.trans hx.addresses

end BookEffect

/-! ## One validator -/

/-- Adding to the delegation and the counter of a validator. -/
def Validator.adjust (d c : ℤ) (v : Validator) : Validator :=
  { v with
    delegation := v.delegation + d
    delegationChangesInProgress := v.delegationChangesInProgress + c }

/-- Adding to one validator and to the total. -/
def adjustZone (z : HostZone) (address : String) (d t c : ℤ) : HostZone :=
  { z with
    validators := modifyValidator address (Validator.adjust d c) z.validators
    totalDelegations := z.totalDelegations + t }

/-- What an adjustment does to the book. -/
theorem bookEffect_adjustZone (z : HostZone) (a : String) (d t c : ℤ) :
    BookEffect z (adjustZone z a d t c) (Pi.single a d) t (Pi.single a c) := by
  have hview (g : Validator → ℤ) (n : ℤ) (hg : ∀ v, g (Validator.adjust d c v) = g v + n)
      (b : String) :
      (getValidatorFromAddress (adjustZone z a d t c).validators b).map g =
        ((getValidatorFromAddress z.validators b).map g).map
          (· + (Pi.single a n : String → ℤ) b) := by
    unfold adjustZone
    rw [getValidatorFromAddress_modifyValidator (f := Validator.adjust d c) fun _ => rfl]
    by_cases hb : b = a
    · subst hb
      simp [Option.map_map, Function.comp_def, hg]
    · simp [hb, Function.comp_def]
  exact ⟨rfl, map_modifyValidator (f := Validator.adjust d c) (fun _ => rfl) _ _,
    hview Validator.delegation d fun _ => rfl, rfl,
    hview Validator.delegationChangesInProgress c fun _ => rfl⟩

variable {addresses : List String} {a : String}

theorem changesInProgress_isSome_iff {z : HostZone} :
    (z.changesInProgress a).isSome ↔ a ∈ z.addresses := by
  unfold HostZone.changesInProgress getValidatorFromAddress
  simp

theorem recorded_isSome_iff {z : HostZone} : (z.recorded a).isSome ↔ a ∈ z.addresses := by
  unfold HostZone.recorded getValidatorFromAddress
  simp

theorem addDelegation_eq_adjust (n : ℤ) :
    (fun v : Validator => { v with delegation := v.delegation + n }) = Validator.adjust n 0 := by
  funext v
  simp [Validator.adjust]

/-- It fails for an unknown validator or too large a reduction. -/
theorem addDelegationToValidator_cases (z : HostZone) (a : String) (n : ℤ) :
    (a ∉ z.addresses ∧ ∃ message,
      addDelegationToValidator z a n = wrapf .errValidatorNotFound message) ∨
    (∃ d, z.recorded a = some d ∧ n < 0 ∧ (d < -n ∨ z.totalDelegations < -n) ∧ ∃ message,
      addDelegationToValidator z a n = wrapf .errValidatorDelegationChg message) ∨
    addDelegationToValidator z a n = .ok (adjustZone z a n n 0) := by
  rw [← recorded_isSome_iff]
  unfold HostZone.recorded addDelegationToValidator
  cases hv : getValidatorFromAddress z.validators a with
  | none => exact .inl ⟨Bool.false_ne_true, _, rfl⟩
  | some v =>
    right
    by_cases hdelegation : n < 0 ∧ v.delegation < -n
    · left
      exact ⟨_, rfl, hdelegation.1, .inl hdelegation.2, _, if_pos hdelegation⟩
    · by_cases htotal : n < 0 ∧ z.totalDelegations < -n
      · left
        exact ⟨_, rfl, htotal.1, .inr htotal.2, _,
          (if_neg hdelegation).trans (if_pos htotal)⟩
      · right
        dsimp only
        rw [if_neg hdelegation, if_neg htotal, addDelegation_eq_adjust]
        rfl

theorem addDelegationToValidator_ok {z z' : HostZone} {n : ℤ}
    (h : addDelegationToValidator z a n = .ok z') : BookEffect z z' (Pi.single a n) n 0 := by
  obtain ⟨-, message, herr⟩ | ⟨d, -, -, -, message, herr⟩ | hok :=
    addDelegationToValidator_cases z a n
  · rw [herr] at h
    cases h
  · rw [herr] at h
    cases h
  · rw [hok] at h
    cases h
    have heffect := bookEffect_adjustZone z a n n 0
    rw [Pi.single_zero] at heffect
    exact heffect

/-! ## The total -/

/-- The total is the sum of the recorded delegations. -/
def HostZone.TotalConsistent (hostZone : HostZone) : Prop :=
  hostZone.totalDelegations = (hostZone.validators.map Validator.delegation).sum

instance (hostZone : HostZone) : Decidable hostZone.TotalConsistent :=
  inferInstanceAs (Decidable (_ = _))

@[simp]
theorem sum_map_zero_fun {α : Type} (l : List α) : (l.map (0 : α → ℤ)).sum = 0 :=
  sum_map_zero

private theorem map_delegation_eq {z : HostZone} (hnd : z.addresses.Nodup) :
    z.validators.map Validator.delegation =
      z.addresses.map fun a => (z.recorded a).getD 0 := by
  rw [map_map]
  apply map_congr_left
  intro v hv
  unfold HostZone.recorded
  simp [getValidatorFromAddress_of_mem hnd hv]

/-- Deltas that add up to the change of the total keep it. -/
theorem BookEffect.totalConsistent {z z' : HostZone} {d : String → ℤ} {t : ℤ} {c : String → ℤ}
    (h : BookEffect z z' d t c) (hnd : z.addresses.Nodup)
    (hsum : (z.addresses.map d).sum = t) (hz : z.TotalConsistent) : z'.TotalConsistent := by
  have hnd' : z'.addresses.Nodup := by
    rw [h.addresses]
    exact hnd
  have hrecorded : ∀ a ∈ z.addresses,
      (z'.recorded a).getD 0 = (z.recorded a).getD 0 + d a := by
    intro a ha
    obtain ⟨n, hn⟩ := Option.isSome_iff_exists.mp (recorded_isSome_iff.mpr ha)
    simp [h.recorded, hn]
  unfold HostZone.TotalConsistent at hz ⊢
  rw [h.total, hz, ← hsum, map_delegation_eq hnd, map_delegation_eq hnd', h.addresses,
    map_congr_left hrecorded, sum_map_add]

/-- No delegation exceeds the total. -/
theorem HostZone.TotalConsistent.recorded_le {z : HostZone} (h : z.TotalConsistent)
    (hnd : z.addresses.Nodup) (hnn : ∀ a d, z.recorded a = some d → 0 ≤ d)
    {d : ℤ} (hd : z.recorded a = some d) : d ≤ z.totalDelegations := by
  obtain ⟨v, hv, rfl⟩ := Option.map_eq_some_iff.mp hd
  rw [h]
  apply single_le_sum
  · intro x hx
    obtain ⟨w, hw, rfl⟩ := mem_map.mp hx
    refine hnn w.address w.delegation ?_
    unfold HostZone.recorded
    rw [getValidatorFromAddress_of_mem hnd hw]
    rfl
  · exact mem_map_of_mem (mem_of_find?_eq_some hv)

/-! ## Counters -/

section Counters

variable {z z' : HostZone}

private theorem bookEffect_counter (z : HostZone) (a : String) (c : ℤ) :
    BookEffect z (adjustZone z a 0 0 c) 0 0 (Pi.single a c) := by
  have heffect := bookEffect_adjustZone z a 0 0 c
  rwa [Pi.single_zero] at heffect

private theorem getValidatorFromAddress_of_notMem (h : a ∉ z.addresses) :
    getValidatorFromAddress z.validators a = none := by
  rw [← changesInProgress_isSome_iff, HostZone.changesInProgress] at h
  simpa using h

private theorem mem_of_increment (h : incrementValidatorDelegationChangesInProgress z a = .ok z') :
    a ∈ z.addresses := by
  by_contra hnot
  unfold incrementValidatorDelegationChangesInProgress at h
  rw [getValidatorFromAddress_of_notMem hnot] at h
  cases h

private theorem increment_eq (h : a ∈ z.addresses) :
    incrementValidatorDelegationChangesInProgress z a = .ok (adjustZone z a 0 0 1) := by
  have hadjust : (fun v : Validator =>
      { v with delegationChangesInProgress := v.delegationChangesInProgress + 1 }) =
        Validator.adjust 0 1 := by
    funext v
    simp [Validator.adjust]
  obtain ⟨c, hc⟩ := Option.isSome_iff_exists.mp (changesInProgress_isSome_iff.mpr h)
  obtain ⟨v, hv, -⟩ := Option.map_eq_some_iff.mp hc
  unfold incrementValidatorDelegationChangesInProgress
  rw [hv]
  rw [hadjust]
  simp [adjustZone]

theorem incrementValidatorDelegationChangesInProgress_ok
    (h : incrementValidatorDelegationChangesInProgress z a = .ok z') :
    BookEffect z z' 0 0 (Pi.single a 1) := by
  rw [increment_eq (mem_of_increment h)] at h
  cases h
  exact bookEffect_counter z a 1

private theorem decrement_cases (z : HostZone) (a : String) : (a ∉ z.addresses ∧ ∃ message,
      decrementValidatorDelegationChangesInProgress z a = wrapf .errValidatorNotFound message) ∨
    (z.changesInProgress a = some 0 ∧ ∃ message,
      decrementValidatorDelegationChangesInProgress z a =
        wrapf .errInvalidValidatorDelegationUpdates message) ∨
    ∃ z', decrementValidatorDelegationChangesInProgress z a = .ok z' ∧
      BookEffect z z' 0 0 (Pi.single a (-1)) := by
  rw [← changesInProgress_isSome_iff]
  unfold HostZone.changesInProgress decrementValidatorDelegationChangesInProgress
  cases hv : getValidatorFromAddress z.validators a with
  | none => exact .inl ⟨Bool.false_ne_true, _, rfl⟩
  | some v =>
    right
    by_cases hzero : v.delegationChangesInProgress = 0
    · left
      exact ⟨by simp [hzero], _, if_pos hzero⟩
    · right
      refine ⟨adjustZone z a 0 0 (-1), ?_, bookEffect_counter z a (-1)⟩
      have hadjust : (fun v : Validator =>
          { v with delegationChangesInProgress := v.delegationChangesInProgress - 1 }) =
            Validator.adjust 0 (-1) := by
        funext v
        simp [Validator.adjust, sub_eq_add_neg]
      dsimp only
      rw [if_neg hzero, hadjust]
      simp [adjustZone]

theorem decrementValidatorDelegationChangesInProgress_ok
    (h : decrementValidatorDelegationChangesInProgress z a = .ok z') :
    BookEffect z z' 0 0 (Pi.single a (-1)) := by
  obtain ⟨-, message, herr⟩ | ⟨-, message, herr⟩ | ⟨z₁, hok, heffect⟩ := decrement_cases z a
  · rw [herr] at h
    cases h
  · rw [herr] at h
    cases h
  · obtain rfl : z₁ = z' := Except.ok.inj (hok.symm.trans h)
    exact heffect

private theorem mem_of_decrement (h : decrementValidatorDelegationChangesInProgress z a = .ok z') :
    a ∈ z.addresses := by
  by_contra hnot
  unfold decrementValidatorDelegationChangesInProgress at h
  rw [getValidatorFromAddress_of_notMem hnot] at h
  cases h

private theorem single_add_count (a : String) (addresses : List String) :
    (Pi.single a 1 : String → ℤ) + (fun b => (addresses.count b : ℤ)) =
      fun b => ((a :: addresses).count b : ℤ) := by
  funext b
  by_cases hb : b = a
  · subst hb
    simp [add_comm]
  · simp [hb, count_cons_of_ne (Ne.symm hb)]

/-- **Increments** go through for validators of the zone, and count how often each of them
    is named. -/
theorem foldlM_incrementValidatorDelegationChangesInProgress (addresses : List String)
    {z : HostZone} (h : ∀ a ∈ addresses, a ∈ z.addresses) :
    ∃ z', addresses.foldlM incrementValidatorDelegationChangesInProgress z = .ok z' ∧
      BookEffect z z' 0 0 fun a => (addresses.count a : ℤ) := by
  induction addresses generalizing z with
  | nil => exact ⟨z, rfl, .refl z⟩
  | cons a addresses ih =>
    obtain ⟨ha, hrest⟩ := forall_mem_cons.mp h
    have heffect := bookEffect_counter z a 1
    obtain ⟨z', hz', hrestEffect⟩ := ih (by rw [heffect.addresses]; exact hrest)
    refine ⟨z', ?_, ?_⟩
    · exact bind_eq_ok.mpr ⟨_, increment_eq ha, hz'⟩
    · have hboth := heffect.trans hrestEffect
      rw [single_add_count] at hboth
      exact hboth

/-- A loop over validators that stops at the first unknown one. -/
private theorem mem_of_foldlM {f : HostZone → String → Result HostZone}
    (hf : ∀ z z' a, f z a = .ok z' → a ∈ z.addresses ∧ z'.addresses = z.addresses)
    (h : addresses.foldlM f z = .ok z') : ∀ a ∈ addresses, a ∈ z.addresses := by
  induction addresses generalizing z with
  | nil => simp
  | cons a addresses ih =>
    obtain ⟨z₁, hz₁, hrest⟩ := bind_eq_ok.mp h
    obtain ⟨hmem, hsame⟩ := hf z z₁ a hz₁
    exact forall_mem_cons.mpr ⟨hmem, hsame ▸ ih hrest⟩

theorem mem_of_foldlM_incrementValidatorDelegationChangesInProgress
    (h : addresses.foldlM incrementValidatorDelegationChangesInProgress z = .ok z') :
    ∀ a ∈ addresses, a ∈ z.addresses :=
  mem_of_foldlM (fun _ _ _ h =>
    ⟨mem_of_increment h, (incrementValidatorDelegationChangesInProgress_ok h).addresses⟩) h

/-- **Decrements** that go through undo as many increments. -/
theorem foldlM_decrementValidatorDelegationChangesInProgress
    (h : addresses.foldlM decrementValidatorDelegationChangesInProgress z = .ok z') :
    BookEffect z z' 0 0 fun a => -(addresses.count a : ℤ) := by
  induction addresses generalizing z with
  | nil =>
    cases h
    exact .refl _
  | cons a addresses ih =>
    obtain ⟨z₁, hz₁, hrest⟩ := bind_eq_ok.mp h
    have hboth := (decrementValidatorDelegationChangesInProgress_ok hz₁).trans (ih hrest)
    have hcount : (Pi.single a (-1) : String → ℤ) + (fun b => -(addresses.count b : ℤ)) =
        fun b => -((a :: addresses).count b : ℤ) := by
      have hneg := congrArg Neg.neg (single_add_count a addresses)
      rw [neg_add, ← Pi.single_neg] at hneg
      exact hneg
    rw [hcount] at hboth
    exact hboth

theorem mem_of_foldlM_decrementValidatorDelegationChangesInProgress
    (h : addresses.foldlM decrementValidatorDelegationChangesInProgress z = .ok z') :
    ∀ a ∈ addresses, a ∈ z.addresses :=
  mem_of_foldlM (fun _ _ _ h =>
    ⟨mem_of_decrement h, (decrementValidatorDelegationChangesInProgress_ok h).addresses⟩) h

/-- Covered counters only fail for an unknown validator. -/
theorem foldlM_decrementValidatorDelegationChangesInProgress_error {e : SdkError}
    (hcover : ∀ a c, z.changesInProgress a = some c → (addresses.count a : ℤ) ≤ c)
    (h : addresses.foldlM decrementValidatorDelegationChangesInProgress z = .error e) :
    e.code = .errValidatorNotFound ∧ ∃ a ∈ addresses, a ∉ z.addresses := by
  induction addresses generalizing z with
  | nil => cases h
  | cons a addresses ih =>
    rw [foldlM_cons] at h
    obtain ⟨hmissing, message, herr⟩ | ⟨hzero, -⟩ | ⟨z₁, hok, heffect⟩ := decrement_cases z a
    · rw [herr] at h
      cases h
      exact ⟨rfl, a, mem_cons_self, hmissing⟩
    · -- a counter that covers the list is not 0
      have hpos := hcover a 0 hzero
      rw [count_cons_self] at hpos
      omega
    · rw [hok] at h
      have hcover₁ : ∀ b n, z₁.changesInProgress b = some n → (addresses.count b : ℤ) ≤ n := by
        intro b n hb
        rw [heffect.changes] at hb
        obtain ⟨m, hm, rfl⟩ := Option.map_eq_some_iff.mp hb
        have hle := hcover b m hm
        rw [Pi.single_apply]
        by_cases hba : b = a
        · subst hba
          rw [count_cons_self] at hle
          omega
        · rw [count_cons_of_ne (Ne.symm hba)] at hle
          rw [if_neg hba]
          omega
      obtain ⟨hcode, b, hb, hmissing⟩ := ih hcover₁ h
      rw [heffect.addresses] at hmissing
      exact ⟨hcode, b, mem_cons_of_mem a hb, hmissing⟩

end Counters

end Stride.Stakeibc
