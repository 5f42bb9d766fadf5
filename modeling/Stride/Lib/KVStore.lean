import Mathlib.Algebra.BigOperators.Group.List.Basic
import Mathlib.Algebra.Group.Basic
import Mathlib.Algebra.Order.BigOperators.Group.List
import Mathlib.Algebra.Order.Group.Defs
import Mathlib.Order.Basic
import Mathlib.Data.List.Basic
import Mathlib.Data.Prod.Basic
import Mathlib.Tactic.Abel

/-!
# Ordered Key-Value Stores

A store is a list of entries with strictly increasing keys, the order in which an
iterator of the store visits them. The order is a field of the structure, so that a
store with a repeated key cannot be built.
-/

namespace Stride.Lib

open List

/-! ## Totals over lists -/

theorem sum_map_eq_zero {α M : Type*} [AddMonoid M] {f : α → M} {l : List α}
    (h : ∀ a ∈ l, f a = 0) : (l.map f).sum = 0 :=
  sum_eq_zero (forall_mem_map.mpr h)

theorem sum_map_nonneg {α M : Type*} [AddMonoid M] [Preorder M] [AddLeftMono M] {f : α → M}
    {l : List α} (h : ∀ a ∈ l, 0 ≤ f a) : 0 ≤ (l.map f).sum :=
  sum_nonneg (forall_mem_map.mpr h)

/-! ## The store -/

/-- Entries with strictly increasing keys. -/
structure KVStore (K V : Type*) [LinearOrder K] where
  entries : List (K × V)
  sorted : entries.Pairwise fun a b => a.1 < b.1

namespace KVStore

variable {K V : Type*} [LinearOrder K] {k k' : K} {v v' : V} {l : List (K × V)}

/-! ## Point access on entry lists -/

/-- The value of the first entry with key `k`. -/
def lookupEntry (k : K) : List (K × V) → Option V
  | [] => none
  | (k', v) :: rest => if k = k' then some v else lookupEntry k rest

/-- Replaces the entry with key `k`, or inserts one at its place in the key order. -/
def setEntry (k : K) (v : V) : List (K × V) → List (K × V)
  | [] => [(k, v)]
  | (k', v') :: rest =>
    if k < k' then (k, v) :: (k', v') :: rest
    else if k = k' then (k, v) :: rest
    else (k', v') :: setEntry k v rest

private theorem mem_setEntry {e : K × V} (h : e ∈ setEntry k v l) : e = (k, v) ∨ e ∈ l := by
  induction l with
  | nil => exact .inl (by simpa [setEntry] using h)
  | cons e' rest ih =>
    simp only [setEntry] at h
    split at h
    · simpa using h
    · split at h
      · rcases mem_cons.mp h with rfl | hrest
        · exact .inl rfl
        · exact .inr (mem_cons_of_mem _ hrest)
      · rcases mem_cons.mp h with rfl | hrest
        · exact .inr (mem_cons_self ..)
        · rcases ih hrest with hnew | hold
          · exact .inl hnew
          · exact .inr (mem_cons_of_mem _ hold)

private theorem setEntry_sorted (h : l.Pairwise fun a b => a.1 < b.1) :
    (setEntry k v l).Pairwise fun a b => a.1 < b.1 := by
  induction l with
  | nil => simp [setEntry]
  | cons e' rest ih =>
    obtain ⟨hhead, htail⟩ := pairwise_cons.mp h
    simp only [setEntry]
    split
    · rename_i hlt
      refine pairwise_cons.mpr ⟨fun e he => ?_, h⟩
      rcases mem_cons.mp he with rfl | hrest
      · exact hlt
      · exact hlt.trans (hhead e hrest)
    · split
      · rename_i heq
        subst heq
        exact pairwise_cons.mpr ⟨hhead, htail⟩
      · rename_i hnlt hne
        refine pairwise_cons.mpr ⟨fun e he => ?_, ih htail⟩
        rcases mem_setEntry he with rfl | hold
        · exact lt_of_le_of_ne (not_lt.mp hnlt) (Ne.symm hne)
        · exact hhead e hold

private theorem lookupEntry_setEntry (k k' : K) (v : V) (l : List (K × V)) :
    lookupEntry k' (setEntry k v l) = if k' = k then some v else lookupEntry k' l := by
  induction l with
  | nil => simp [setEntry, lookupEntry]
  | cons e' rest ih =>
    obtain ⟨k₁, v₁⟩ := e'
    simp only [setEntry]
    split
    · simp only [lookupEntry]
    · split
      · rename_i heq
        subst heq
        simp only [lookupEntry]
        split <;> rfl
      · rename_i hne
        simp only [lookupEntry, ih]
        -- The keys `k` and `k₁` differ, so at most one of the two tests succeeds.
        by_cases h₁ : k' = k₁
        · simp [h₁, Ne.symm hne]
        · simp [h₁]

private theorem mem_of_lookupEntry (h : lookupEntry k l = some v) : (k, v) ∈ l := by
  induction l with
  | nil => simp [lookupEntry] at h
  | cons e' rest ih =>
    simp only [lookupEntry] at h
    split at h
    · rename_i heq
      cases h
      exact heq ▸ mem_cons_self ..
    · exact mem_cons_of_mem _ (ih h)

private theorem lookupEntry_of_mem (hs : l.Pairwise fun a b => a.1 < b.1) (h : (k, v) ∈ l) :
    lookupEntry k l = some v := by
  induction l with
  | nil => simp at h
  | cons e' rest ih =>
    obtain ⟨k', v'⟩ := e'
    obtain ⟨hhead, htail⟩ := pairwise_cons.mp hs
    simp only [lookupEntry]
    rcases mem_cons.mp h with heq | hrest
    · cases heq
      simp
    · have hlt : k' < k := hhead _ hrest
      rw [if_neg (ne_of_gt hlt), ih htail hrest]

/-! ## The store operations -/

def empty : KVStore K V := ⟨[], Pairwise.nil⟩

/-- The value stored under `k`. -/
def get? (s : KVStore K V) (k : K) : Option V := lookupEntry k s.entries

/-- Stores `v` under `k`, replacing what was there. -/
def set (s : KVStore K V) (k : K) (v : V) : KVStore K V :=
  ⟨setEntry k v s.entries, setEntry_sorted s.sorted⟩

/-- Removes the entry of `k`. -/
def delete (s : KVStore K V) (k : K) : KVStore K V :=
  ⟨s.entries.filter fun e => e.1 ≠ k, s.sorted.filter _⟩

/-- The entries in key order. -/
def toList (s : KVStore K V) : List (K × V) := s.entries

def keys (s : KVStore K V) : List K := s.entries.map Prod.fst

/-- The values in key order, as an iterator of the store returns them. -/
def values (s : KVStore K V) : List V := s.entries.map Prod.snd

/-- A write changes one key. -/
theorem get?_set (s : KVStore K V) (k k' : K) (v : V) :
    (s.set k v).get? k' = if k' = k then some v else s.get? k' :=
  lookupEntry_setEntry k k' v s.entries

@[simp]
theorem get?_set_self (s : KVStore K V) (k : K) (v : V) : (s.set k v).get? k = some v := by
  rw [get?_set, if_pos rfl]

theorem get?_set_of_ne (s : KVStore K V) (v : V) (h : k' ≠ k) :
    (s.set k v).get? k' = s.get? k' := by
  rw [get?_set, if_neg h]

/-- Iteration visits exactly what `get?` finds. -/
theorem mem_toList_iff {s : KVStore K V} : (k, v) ∈ s.toList ↔ s.get? k = some v :=
  ⟨lookupEntry_of_mem s.sorted, mem_of_lookupEntry⟩

/-- Stores that agree on every key are equal. -/
theorem ext_get? {s t : KVStore K V} (h : ∀ k, s.get? k = t.get? k) : s = t := by
  have hnodup (u : KVStore K V) : u.entries.Nodup := by
    apply u.sorted.imp
    rintro a b hlt rfl
    exact lt_irrefl _ hlt
  have hperm : s.entries.Perm t.entries := by
    apply (perm_ext_iff_of_nodup (hnodup s) (hnodup t)).mpr
    rintro ⟨k, v⟩
    exact mem_toList_iff.trans (h k ▸ mem_toList_iff.symm)
  have hentries : s.entries = t.entries := hperm.eq_of_pairwise
    (fun a b _ _ hab hba => absurd (hab.trans hba) (lt_irrefl _)) s.sorted t.sorted
  cases s
  cases t
  cases hentries
  rfl

/-- A removal changes one key. -/
theorem get?_delete (s : KVStore K V) (k k' : K) :
    (s.delete k).get? k' = if k' = k then none else s.get? k' := by
  have hmem (v : V) : (k', v) ∈ (s.delete k).toList ↔ (k', v) ∈ s.toList ∧ k' ≠ k := by
    simp [toList, delete, mem_filter]
  cases hget : (s.delete k).get? k' with
  | some v =>
    have hv := (hmem v).mp (mem_toList_iff.mpr hget)
    rw [if_neg hv.2, mem_toList_iff.mp hv.1]
  | none =>
    split
    · rfl
    · rename_i hne
      cases hold : s.get? k' with
      | none => rfl
      | some v =>
        have hv := mem_toList_iff.mp ((hmem v).mpr ⟨mem_toList_iff.mpr hold, hne⟩)
        rw [hget] at hv
        cases hv

theorem delete_set_empty (k : K) (v : V) : (empty.set k v).delete k = empty := by
  apply ext_get?
  intro k'
  rw [get?_delete, get?_set]
  split <;> rfl

theorem mem_keys_iff {s : KVStore K V} : k ∈ s.keys ↔ ∃ v, s.get? k = some v := by
  simp only [keys, mem_map, Prod.exists, exists_and_right, exists_eq_right]
  exact exists_congr fun v => mem_toList_iff

private theorem keys_sorted (s : KVStore K V) : s.keys.Pairwise (· < ·) :=
  pairwise_map.mpr s.sorted

theorem keys_nodup (s : KVStore K V) : s.keys.Nodup :=
  s.keys_sorted.imp ne_of_lt

private theorem map_fst_setEntry (hs : l.Pairwise fun a b => a.1 < b.1) (h : k ∈ l.map Prod.fst) :
    (setEntry k v l).map Prod.fst = l.map Prod.fst := by
  induction l with
  | nil => simp at h
  | cons e' rest ih =>
    obtain ⟨k', v'⟩ := e'
    obtain ⟨hhead, htail⟩ := pairwise_cons.mp hs
    simp only [setEntry]
    rcases mem_cons.mp h with heq | hrest
    · have hk : k = k' := heq
      simp [hk]
    · obtain ⟨e, he, hek⟩ := mem_map.mp hrest
      have hlt : k' < k := hek ▸ hhead e he
      rw [if_neg (not_lt_of_gt hlt), if_neg (ne_of_gt hlt), map_cons, map_cons,
        ih htail hrest]

/-- Overwriting a value keeps the keys. -/
theorem keys_set_of_mem {s : KVStore K V} (h : k ∈ s.keys) : (s.set k v).keys = s.keys :=
  map_fst_setEntry s.sorted h

/-! ## Totals over the values -/

section Totals

variable {M : Type*} [AddCommGroup M] (f : V → M)

private theorem sum_setEntry (hs : l.Pairwise fun a b => a.1 < b.1) :
    ((setEntry k v l).map fun e => f e.2).sum =
      (l.map fun e => f e.2).sum - (lookupEntry k l).elim 0 f + f v := by
  induction l with
  | nil => simp [setEntry, lookupEntry]
  | cons e' rest ih =>
    obtain ⟨k', v'⟩ := e'
    obtain ⟨hhead, htail⟩ := pairwise_cons.mp hs
    simp only [setEntry]
    split
    · rename_i hlt
      -- a key below the first one is not in the list
      have hnone : lookupEntry k ((k', v') :: rest) = none := by
        cases hl : lookupEntry k ((k', v') :: rest) with
        | none => rfl
        | some w =>
          rcases mem_cons.mp (mem_of_lookupEntry hl) with heq | hmem
          · cases heq
            exact absurd hlt (lt_irrefl k)
          · exact absurd (hlt.trans (hhead _ hmem)) (lt_irrefl k)
      rw [hnone]
      simp only [map_cons, sum_cons, Option.elim_none]
      abel
    · split
      · rename_i heq
        subst heq
        simp only [lookupEntry, if_true, Option.elim_some, map_cons, sum_cons]
        abel
      · rename_i hne
        simp only [lookupEntry, hne, if_false, map_cons, sum_cons, ih htail]
        abel

/-- A write replaces the summand of its key. -/
theorem sum_values_set (s : KVStore K V) (k : K) (v : V) :
    ((s.set k v).values.map f).sum = (s.values.map f).sum - (s.get? k).elim 0 f + f v := by
  simp only [values, map_map]
  exact sum_setEntry f s.sorted

private theorem sum_filter_ne (hs : l.Pairwise fun a b => a.1 < b.1) :
    ((l.filter fun e => e.1 ≠ k).map fun e => f e.2).sum =
      (l.map fun e => f e.2).sum - (lookupEntry k l).elim 0 f := by
  induction l with
  | nil => simp [lookupEntry]
  | cons e' rest ih =>
    obtain ⟨k', v'⟩ := e'
    obtain ⟨hhead, htail⟩ := pairwise_cons.mp hs
    by_cases hk : k = k'
    · subst hk
      have hrest : rest.filter (fun e => e.1 ≠ k) = rest := by
        apply filter_eq_self.mpr
        intro e he
        simpa using ne_of_gt (hhead e he)
      rw [filter_cons_of_neg (by simp), hrest]
      simp [lookupEntry]
    · rw [filter_cons_of_pos (by simpa using Ne.symm hk)]
      simp only [lookupEntry, hk, if_false, map_cons, sum_cons, ih htail]
      abel

/-- A removal takes off the summand of its key. -/
theorem sum_values_delete (s : KVStore K V) (k : K) :
    ((s.delete k).values.map f).sum = (s.values.map f).sum - (s.get? k).elim 0 f := by
  simp only [values, map_map]
  exact sum_filter_ne f s.sorted

end Totals

/-! ## Maps -/

/-- The store with `g v` in the place of each value `v`. -/
def mapValues (g : V → V) (s : KVStore K V) : KVStore K V :=
  ⟨s.entries.map fun e => (e.1, g e.2), pairwise_map.mpr s.sorted⟩

/-- `mapValues` acts on what is looked up. -/
theorem get?_mapValues (g : V → V) (s : KVStore K V) (k : K) :
    (s.mapValues g).get? k = (s.get? k).map g := by
  have hgen (l : List (K × V)) : lookupEntry k (l.map fun e => (e.1, g e.2)) =
      (lookupEntry k l).map g := by
    induction l with
    | nil => rfl
    | cons e l ih =>
      simp only [map_cons, lookupEntry, ih]
      split <;> rfl
  exact hgen s.entries

theorem values_mapValues (g : V → V) (s : KVStore K V) :
    (s.mapValues g).values = s.values.map g := by
  simp only [values, mapValues, map_map]
  rfl

end KVStore

/-! ## Stores of values that carry their key -/

/-- A store of values under the key that each of them carries. -/
structure KeyedStore {K V : Type*} [LinearOrder K] (key : V → K) where
  store : KVStore K V
  keyed : ∀ k v, store.get? k = some v → key v = k

namespace KeyedStore

variable {K V : Type*} [LinearOrder K] {key : V → K} {s : KeyedStore key} {k k' : K} {v v' : V}

def empty : KeyedStore key := ⟨KVStore.empty, fun _ _ h => by cases h⟩

def get? (s : KeyedStore key) (k : K) : Option V := s.store.get? k

def set (s : KeyedStore key) (v : V) : KeyedStore key :=
  ⟨s.store.set (key v) v, fun k w h => by
    rw [KVStore.get?_set] at h
    split at h
    · rename_i heq
      cases h
      exact heq.symm
    · exact s.keyed k w h⟩

def delete (s : KeyedStore key) (k : K) : KeyedStore key :=
  ⟨s.store.delete k, fun k' w h => by
    rw [KVStore.get?_delete] at h
    split at h
    · cases h
    exact s.keyed k' w h⟩

def values (s : KeyedStore key) : List V := s.store.values

/-- A value is found under its own key. -/
theorem key_of_get? (h : s.get? k = some v) : key v = k :=
  s.keyed k v h

section

variable (s : KeyedStore key)

theorem get?_set (v : V) (k : K) :
    (s.set v).get? k = if k = key v then some v else s.get? k :=
  KVStore.get?_set s.store (key v) k v

theorem get?_delete (k k' : K) :
    (s.delete k).get? k' = if k' = k then none else s.get? k' :=
  KVStore.get?_delete s.store k k'

theorem get?_set_self (v : V) : (s.set v).get? (key v) = some v := by
  rw [get?_set, if_pos rfl]

theorem get?_set_of_ne (v : V) (h : k ≠ key v) :
    (s.set v).get? k = s.get? k := by
  rw [get?_set, if_neg h]

theorem get?_delete_self (k : K) : (s.delete k).get? k = none := by
  rw [get?_delete, if_pos rfl]

theorem get?_delete_of_ne (h : k' ≠ k) : (s.delete k).get? k' = s.get? k' := by
  rw [get?_delete, if_neg h]

end

/-- Stores with the same lookups are equal. -/
theorem ext_get? {t : KeyedStore key} (h : ∀ k, s.get? k = t.get? k) : s = t := by
  have hstore : s.store = t.store := KVStore.ext_get? h
  cases s
  cases t
  cases hstore
  rfl

/-- The last write of a key counts. -/
theorem set_set (s : KeyedStore key) {w : V} (h : key v = key w) : (s.set v).set w = s.set w := by
  apply ext_get?
  intro k
  simp only [get?_set, h]
  split <;> rfl

/-- Writes and removals of different keys commute. -/
theorem set_delete (s : KeyedStore key) (h : key v ≠ k) :
    (s.delete k).set v = (s.set v).delete k := by
  apply ext_get?
  intro k'
  simp only [get?_set, get?_delete]
  by_cases hk : k' = key v
  · rw [if_pos hk, if_neg (hk ▸ h), if_pos hk]
  · rw [if_neg hk, if_neg hk]

/-- The values are what lookups find. -/
theorem mem_values_iff : v ∈ s.values ↔ s.get? (key v) = some v := by
  unfold values KVStore.values
  rw [mem_map]
  constructor
  · rintro ⟨⟨k, w⟩, hmem, rfl⟩
    have hget := KVStore.mem_toList_iff.mp hmem
    rw [s.keyed k w hget]
    exact hget
  · intro h
    exact ⟨(key v, v), KVStore.mem_toList_iff.mpr h, rfl⟩

instance decidableForallGet? {p : K → V → Prop} [∀ k v, Decidable (p k v)] (s : KeyedStore key) :
    Decidable (∀ k v, s.get? k = some v → p k v) :=
  decidable_of_iff (∀ v ∈ s.values, p (key v) v)
    ⟨fun h _ v hv => key_of_get? hv ▸ h v (mem_values_iff.mpr ((key_of_get? hv).symm ▸ hv)),
      fun h v hv => h _ v (mem_values_iff.mp hv)⟩

theorem mem_values_set {w : V} (h : w ∈ (s.set v).values) : w = v ∨ w ∈ s.values := by
  rw [mem_values_iff, get?_set] at h
  split at h
  · exact .inl (Option.some.inj h).symm
  · exact .inr (mem_values_iff.mpr h)

theorem mem_values_delete {w : V} (h : w ∈ (s.delete k).values) : w ∈ s.values := by
  rw [mem_values_iff, get?_delete] at h
  split at h
  · cases h
  exact mem_values_iff.mpr h

theorem map_key_values (s : KeyedStore key) : s.values.map key = s.store.keys := by
  unfold values KVStore.values
  rw [map_map]
  apply map_congr_left
  rintro ⟨k, v⟩ hmem
  exact s.keyed k v (KVStore.mem_toList_iff.mp hmem)

/-- No two values have the same key. -/
theorem nodup_map_key_values (s : KeyedStore key) : (s.values.map key).Nodup := by
  rw [map_key_values]
  exact s.store.keys_nodup

/-- A scan that finds nothing. -/
theorem filter_values_eq_nil {p : V → Prop} [DecidablePred p] :
    s.values.filter (fun v => p v) = [] ↔ ∀ k v, s.get? k = some v → ¬ p v := by
  rw [filter_eq_nil_iff]
  constructor
  · intro h k v hv
    have hkey : key v = k := s.keyed k v hv
    subst hkey
    simpa using h v (mem_values_iff.mpr hv)
  · intro h v hv
    simpa using h (key v) v (mem_values_iff.mp hv)

/-- A scan that finds exactly one value. -/
theorem filter_values_eq_singleton {p : V → Prop} [DecidablePred p] :
    s.values.filter (fun v => p v) = [v] ↔
      s.get? (key v) = some v ∧ p v ∧ ∀ k w, s.get? k = some w → p w → k = key v := by
  have hmem {w : V} : w ∈ s.values.filter (fun v => p v) ↔ s.get? (key w) = some w ∧ p w := by
    simp [mem_values_iff]
  constructor
  · intro h
    rw [h] at hmem
    obtain ⟨hstored, hv⟩ := hmem.mp (mem_singleton_self v)
    refine ⟨hstored, hv, ?_⟩
    intro k w hw hpw
    have hkey : key w = k := s.keyed k w hw
    subst hkey
    rw [mem_singleton.mp (hmem.mpr ⟨hw, hpw⟩)]
  · rintro ⟨hstored, hv, hone⟩
    have hnd : (s.values.filter fun v => p v).Nodup :=
      Pairwise.of_map key (fun _ _ h heq => h (congrArg key heq))
        (s.nodup_map_key_values.sublist (filter_sublist.map key))
    have hvmem := hmem.mpr ⟨hstored, hv⟩
    have hall : ∀ w ∈ s.values.filter (fun v => p v), w = v := by
      intro w hw
      obtain ⟨hwstored, hpw⟩ := hmem.mp hw
      rw [hone _ w hwstored hpw, hstored] at hwstored
      exact (Option.some.inj hwstored).symm
    -- without repetition no list but `[v]` has only `v`
    match hlist : s.values.filter (fun v => p v) with
    | [] => simp [hlist] at hvmem
    | [a] => rw [hall a (by simp [hlist])]
    | a :: b :: l =>
      rw [hlist] at hnd hall
      have hab : a = b := (hall a (by simp)).trans (hall b (by simp)).symm
      simp [hab] at hnd

theorem filter_of_nodup_map {f : V → K} {l : List V} (hnd : (l.map f).Nodup) (hv : v ∈ l) :
    l.filter (fun w => f w = f v) = [v] := by
  induction l with
  | nil => cases hv
  | cons w l ih =>
    rw [map_cons, nodup_cons] at hnd
    rcases mem_cons.mp hv with rfl | hmem
    · have hrest : l.filter (fun w => f w = f v) = [] := by
        apply filter_eq_nil_iff.mpr
        intro u hu
        have hne : f u ≠ f v := fun heq => hnd.1 (heq ▸ mem_map_of_mem hu)
        simpa using hne
      simp [hrest]
    · have hne : f w ≠ f v := fun heq => hnd.1 (heq ▸ mem_map_of_mem hmem)
      rw [filter_cons_of_neg (by simpa using hne)]
      exact ih hnd.2 hmem

/-- Iteration visits the value of a key once. -/
theorem filter_values (s : KeyedStore key) (k : K) :
    s.values.filter (fun v => key v = k) = (s.get? k).toList := by
  cases hget : s.get? k with
  | none =>
    apply filter_eq_nil_iff.mpr
    intro v hv
    have hne : key v ≠ k := by
      rintro rfl
      rw [mem_values_iff, hget] at hv
      cases hv
    simpa using hne
  | some v =>
    have hkey : key v = k := key_of_get? hget
    subst hkey
    exact filter_of_nodup_map s.nodup_map_key_values (mem_values_iff.mpr hget)

theorem sum_values_set {M : Type*} [AddCommGroup M] (f : V → M) (s : KeyedStore key) (v : V) :
    ((s.set v).values.map f).sum = (s.values.map f).sum - (s.get? (key v)).elim 0 f + f v :=
  KVStore.sum_values_set f s.store (key v) v

theorem sum_values_delete {M : Type*} [AddCommGroup M] (f : V → M) (s : KeyedStore key) (k : K) :
    ((s.delete k).values.map f).sum = (s.values.map f).sum - (s.get? k).elim 0 f :=
  KVStore.sum_values_delete f s.store k

/-- A total over some of the values. -/
theorem sum_get?_le {M : Type*} [AddCommGroup M] [LinearOrder M] [IsOrderedAddMonoid M] {f : V → M}
    {ks : List K} (hnd : ks.Nodup) (hf : ∀ k v, s.get? k = some v → 0 ≤ f v) :
    (ks.map fun k => (s.get? k).elim 0 f).sum ≤ (s.values.map f).sum := by
  induction ks generalizing s with
  | nil =>
    apply sum_map_nonneg
    intro v hv
    exact hf _ v (mem_values_iff.mp hv)
  | cons k ks ih =>
    obtain ⟨hk, hnd⟩ := nodup_cons.mp hnd
    -- the others are found in the store without `k`
    have hrest : ks.map (fun k' => (s.get? k').elim 0 f) =
        ks.map fun k' => ((s.delete k).get? k').elim 0 f := by
      apply map_congr_left
      intro k' hk'
      have hne : k' ≠ k := fun heq => hk (heq ▸ hk')
      rw [get?_delete, if_neg hne]
    have hdelete : ∀ k' v, (s.delete k).get? k' = some v → 0 ≤ f v := by
      intro k' v hv
      rw [get?_delete] at hv
      split at hv
      · cases hv
      exact hf k' v hv
    have hle := ih hnd hdelete
    rw [sum_values_delete, le_sub_iff_add_le] at hle
    rw [map_cons, sum_cons, hrest, add_comm]
    exact hle

/-- **Update loop**: rewriting the values that satisfy `p`, one by one. -/
theorem get?_foldl_set {p : V → Prop} [DecidablePred p] {g : V → V} (hg : ∀ v, key (g v) = key v)
    {l : List V} (hnd : (l.map key).Nodup) (s : KeyedStore key)
    (hl : ∀ v ∈ l, s.get? (key v) = some v) (k : K) :
    (l.foldl (fun t v => if p v then t.set (g v) else t) s).get? k =
      if k ∈ l.map key then (s.get? k).map fun v => if p v then g v else v else s.get? k := by
  induction l generalizing s with
  | nil => simp
  | cons v l ih =>
    rw [map_cons, nodup_cons] at hnd
    obtain ⟨hv, hl'⟩ := forall_mem_cons.mp hl
    have hsame (k : K) (hk : k ≠ key v) :
        (if p v then s.set (g v) else s).get? k = s.get? k := by
      split
      · rw [get?_set, hg, if_neg hk]
      · rfl
    -- the keys differ, so the rest of the list is still stored
    have hstored : ∀ w ∈ l, (if p v then s.set (g v) else s).get? (key w) = some w := by
      intro w hw
      rw [hsame _ fun heq => hnd.1 (heq ▸ mem_map_of_mem hw)]
      exact hl' w hw
    rw [foldl_cons, ih hnd.2 _ hstored, map_cons]
    by_cases hk : k = key v
    · subst hk
      rw [if_neg hnd.1, hv]
      by_cases hp : p v
      · simp [hp, get?_set, hg]
      · simp [hp, hv]
    · simp only [mem_cons, hk, false_or, hsame k hk]

/-- A loop that rewrites values in place. -/
theorem get?_foldl_set_values {p : V → Prop} [DecidablePred p] {g : V → V}
    (hg : ∀ v, key (g v) = key v) (s : KeyedStore key) (k : K) :
    (s.values.foldl (fun t v => if p v then t.set (g v) else t) s).get? k =
      (s.get? k).map fun v => if p v then g v else v := by
  rw [get?_foldl_set hg s.nodup_map_key_values s fun v hv => mem_values_iff.mp hv]
  split
  · rfl
  · rename_i hk
    cases hget : s.get? k with
    | none => rfl
    | some v =>
      have hkey := key_of_get? hget
      exact absurd (mem_map.mpr ⟨v, mem_values_iff.mpr (hkey ▸ hget), hkey⟩) hk

/-! ### Maps -/

/-- The store with `g v` in the place of each value `v`. -/
def mapValues (g : V → V) (hg : ∀ v, key (g v) = key v) (s : KeyedStore key) : KeyedStore key :=
  ⟨s.store.mapValues g, fun k w h => by
    rw [KVStore.get?_mapValues] at h
    obtain ⟨v, hv, rfl⟩ := Option.map_eq_some_iff.mp h
    rw [hg]
    exact s.keyed k v hv⟩

theorem get?_mapValues {g : V → V} (hg : ∀ v, key (g v) = key v) (s : KeyedStore key) (k : K) :
    (s.mapValues g hg).get? k = (s.get? k).map g :=
  KVStore.get?_mapValues g s.store k

theorem values_mapValues {g : V → V} (hg : ∀ v, key (g v) = key v) (s : KeyedStore key) :
    (s.mapValues g hg).values = s.values.map g :=
  KVStore.values_mapValues g s.store

/-- **Update loop**: writing the new version of each value that satisfies `p` maps the store. -/
theorem foldl_set_filter {p : V → Prop} [DecidablePred p] {g : V → V} (hg : ∀ v, key (g v) = key v)
    (s : KeyedStore key) :
    (s.values.filter fun v => p v).foldl (fun t v => t.set (g v)) s =
      s.mapValues (fun v => if p v then g v else v) (fun v => by split <;> simp [hg]) := by
  apply ext_get?
  intro k
  rw [get?_mapValues, foldl_filter]
  simp only [decide_eq_true_eq]
  exact get?_foldl_set_values hg s k

/-- **Write loop**: the values written are found, and nothing else changes. -/
theorem get?_foldl_set_of_notMem {l : List V} (hk : k ∉ l.map key) (s : KeyedStore key) :
    (l.foldl (fun t v => t.set v) s).get? k = s.get? k := by
  induction l generalizing s with
  | nil => rfl
  | cons v l ih =>
    rw [map_cons, mem_cons, not_or] at hk
    rw [foldl_cons, ih hk.2, get?_set_of_ne s v hk.1]

/-- A loop that writes values. -/
theorem get?_foldl_set_of_mem {l : List V} (hnd : (l.map key).Nodup) (hv : v ∈ l)
    (s : KeyedStore key) : (l.foldl (fun t v => t.set v) s).get? (key v) = some v := by
  induction l generalizing s with
  | nil => cases hv
  | cons w l ih =>
    rw [map_cons, nodup_cons] at hnd
    rw [foldl_cons]
    rcases mem_cons.mp hv with rfl | hmem
    · rw [get?_foldl_set_of_notMem hnd.1, get?_set_self]
    · exact ih hnd.2 hmem _

/-- **Removal loop**. -/
theorem get?_foldl_delete (ks : List K) (s : KeyedStore key) (k : K) :
    (ks.foldl (fun t k => t.delete k) s).get? k = if k ∈ ks then none else s.get? k := by
  induction ks generalizing s with
  | nil => simp
  | cons k' ks ih =>
    rw [foldl_cons, ih, get?_delete]
    by_cases hk : k = k'
    · simp [hk]
    · simp [hk]

/-- A removal filters the values. -/
theorem values_delete (s : KeyedStore key) (k : K) :
    (s.delete k).values = s.values.filter fun v => key v ≠ k := by
  have hkeyed : ∀ e ∈ s.store.entries, key e.2 = e.1 :=
    fun e he => s.keyed e.1 e.2 (KVStore.mem_toList_iff.mp he)
  show (s.store.entries.filter fun e => e.1 ≠ k).map Prod.snd =
    (s.store.entries.map Prod.snd).filter fun v => key v ≠ k
  rw [filter_map]
  apply congrArg (map Prod.snd)
  apply filter_congr
  intro e he
  simp [hkeyed e he]

/-- A loop that removes values. -/
theorem values_foldl_delete (ks : List K) (s : KeyedStore key) :
    (ks.foldl (fun t k => t.delete k) s).values = s.values.filter fun v => key v ∉ ks := by
  induction ks generalizing s with
  | nil => simp
  | cons k ks ih =>
    rw [foldl_cons, ih, values_delete, filter_filter]
    apply filter_congr
    simp [Bool.and_comm]

/-! ### Totals over some of the values -/

section FilteredTotals

variable {M : Type*} [AddCommGroup M] {p : V → Prop} [DecidablePred p]

theorem sum_filter_map (f : V → M) (l : List V) :
    ((l.filter fun v => p v).map f).sum = (l.map fun v => if p v then f v else 0).sum := by
  induction l with
  | nil => rfl
  | cons v l ih =>
    by_cases hv : p v
    · simp [hv, ih]
    · simp [hv, ih]

/-- A write, and a total over some of the values. -/
theorem sum_filter_set (f : V → M) (s : KeyedStore key) (v : V) :
    (((s.set v).values.filter fun w => p w).map f).sum =
      ((s.values.filter fun w => p w).map f).sum -
        (s.get? (key v)).elim 0 (fun w => if p w then f w else 0) + if p v then f v else 0 := by
  rw [sum_filter_map, sum_filter_map, sum_values_set]

/-- A removal, and a total over some of the values. -/
theorem sum_filter_delete (f : V → M) (s : KeyedStore key) (k : K) :
    (((s.delete k).values.filter fun w => p w).map f).sum =
      ((s.values.filter fun w => p w).map f).sum -
        (s.get? k).elim 0 (fun w => if p w then f w else 0) := by
  rw [sum_filter_map, sum_filter_map, sum_values_delete]

end FilteredTotals

/-- **Loop rule**: a loop over values read before it starts, in which a turn only writes the
    place of its own value. Each value is still stored when its turn comes. -/
theorem foldl_rule {S : Type*} (store : S → KeyedStore key) {f : S → V → S} {P : S → Prop}
    {l : List V} (hown : ∀ t v k, k ≠ key v → (store (f t v)).get? k = (store t).get? k)
    (hone : ∀ t, ∀ v ∈ l, P t → (store t).get? (key v) = some v → P (f t v))
    (hnd : (l.map key).Nodup) {s : S} (hl : ∀ v ∈ l, (store s).get? (key v) = some v) (hs : P s) :
    P (l.foldl f s) := by
  induction l generalizing s with
  | nil => exact hs
  | cons v l ih =>
    rw [map_cons, nodup_cons] at hnd
    obtain ⟨hv, hrest⟩ := forall_mem_cons.mp hl
    apply ih (fun t w hw => hone t w (mem_cons_of_mem v hw)) hnd.2
    · intro w hw
      have hne : key w ≠ key v := fun heq => hnd.1 (heq ▸ mem_map_of_mem hw)
      rw [hown s v (key w) hne]
      exact hrest w hw
    · exact hone s v mem_cons_self hs hv

/-! ### Views -/

/-- The second store looks like the first one to a view of its values. -/
def SameView {α : Type*} (view : V → α) (s t : KeyedStore key) : Prop :=
  ∀ k, (t.get? k).map view = (s.get? k).map view

namespace SameView

variable {α β : Type*} {view : V → α} {s t u : KeyedStore key}

theorem refl (view : V → α) (s : KeyedStore key) : SameView view s s := fun _ => rfl

variable (h : SameView view s t)

include h

theorem trans (h' : SameView view t u) : SameView view s u :=
  fun k => (h' k).trans (h k)

theorem comp (g : α → β) : SameView (fun v => g (view v)) s t := by
  intro k
  have hview := congrArg (Option.map g) (h k)
  rw [Option.map_map, Option.map_map] at hview
  exact hview

/-- A write that keeps the view. -/
theorem set {w : V} (hw : s.get? (key v) = some w) (hview : view v = view w) :
    SameView view s (t.set v) := by
  intro k
  rw [get?_set]
  split
  · rename_i hk
    rw [hk, hw, Option.map_some, Option.map_some, hview]
  · exact h k

/-- Every value comes from one with the same view. -/
theorem get? {w : V} (hw : t.get? k = some w) : ∃ v, s.get? k = some v ∧ view v = view w := by
  have hview := (h k).symm
  rw [hw] at hview
  exact Option.map_eq_some_iff.mp hview

theorem isSome (k : K) : (t.get? k).isSome = (s.get? k).isSome := by
  simpa using congrArg Option.isSome (h k)

theorem map_key_values : t.values.map key = s.values.map key := by
  rw [KeyedStore.map_key_values, KeyedStore.map_key_values]
  have hperm : t.store.keys.Perm s.store.keys := by
    apply (perm_ext_iff_of_nodup t.store.keys_nodup s.store.keys_nodup).mpr
    intro k
    rw [KVStore.mem_keys_iff, KVStore.mem_keys_iff, ← Option.isSome_iff_exists,
      ← Option.isSome_iff_exists]
    exact (congrArg (· = true) (h.isSome k)).to_iff
  exact hperm.eq_of_pairwise (fun a b _ _ hab hba => absurd (hab.trans hba) (lt_irrefl _))
    t.store.keys_sorted s.store.keys_sorted

/-- The views of all values are the same, in order. -/
theorem map_values : t.values.map view = s.values.map view := by
  have hvalues (u : KeyedStore key) : (u.values.map key).filterMap u.get? = u.values := by
    have hget : ∀ v ∈ u.values, (u.get? ∘ key) v = some v := fun v hv => mem_values_iff.mp hv
    rw [filterMap_map, filterMap_congr hget, filterMap_some]
  rw [← hvalues t, ← hvalues s, h.map_key_values, map_filterMap, map_filterMap]
  exact filterMap_congr fun k _ => h k

end SameView

end KeyedStore

end Stride.Lib
