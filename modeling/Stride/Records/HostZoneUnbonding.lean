import Mathlib.Data.String.Basic
import Stride.Lib.KVStore
import Stride.Lib.MapAccum
import Stride.Sdk.Math

/-!
# Epoch Unbonding Records and User Redemption Records

The store of epoch unbonding records of the `records` module, and the loops of the
keepers over the host zone unbondings of one chain.

Over distinct epochs the loop `forEachHostZoneUnbonding` is the list loop `mapAccum` over the
records that it fetches.
-/

namespace Stride.Records

open Lib Sdk Function List

/-! ## Records -/

/-- Stages of the undelegation of one epoch's redemptions on one host zone. -/
inductive UnbondingStatus where
  | unbondingQueue
  | unbondingInProgress
  | unbondingRetryQueue
  | exitTransferQueue
  | exitTransferInProgress
  | claimable
  deriving DecidableEq

/-- What a receiver on a host zone gets for the redemptions of one epoch. -/
structure UserRedemptionRecord where
  id : String
  receiver : String
  nativeTokenAmount : ℤ
  denom : String
  hostZoneId : String
  epochNumber : ℕ
  claimIsPending : Bool
  stTokenAmount : ℤ
  deriving DecidableEq

/-- User redemption records by id: `GetUserRedemptionRecord`, `SetUserRedemptionRecord` and
    `RemoveUserRedemptionRecord` are the operations of the store. -/
abbrev UserRedemptionStore := KeyedStore UserRedemptionRecord.id

def userRedemptionRecordKeyFormatter (chainId : String) (epochNumber : ℕ) (receiver : String) :
    String :=
  s!"{chainId}.{epochNumber}.{receiver}"

/-- Redemptions of one host zone in one epoch. -/
structure HostZoneUnbonding where
  stTokenAmount : ℤ
  nativeTokenAmount : ℤ
  stTokensToBurn : ℤ
  nativeTokensToUnbond : ℤ
  claimableNativeTokens : ℤ
  undelegationTxsInProgress : ℕ
  denom : String
  hostZoneId : String
  unbondingTime : ℕ
  status : UnbondingStatus
  userRedemptionRecords : List String
  deriving DecidableEq

/-- A record in status UNBONDING_QUEUE with a non-zero st token amount. -/
def HostZoneUnbonding.shouldInitiateUnbonding (r : HostZoneUnbonding) : Bool :=
  r.status = .unbondingQueue && 0 < r.stTokenAmount

/-- A record in status UNBONDING_RETRY_QUEUE with no undelegation in progress. -/
def HostZoneUnbonding.shouldRetryUnbonding (r : HostZoneUnbonding) : Bool :=
  0 < r.stTokenAmount && r.status = .unbondingRetryQueue && r.undelegationTxsInProgress = 0

/-- Unbondings of one host zone, with their epochs. -/
abbrev EpochRecords := List (ℕ × HostZoneUnbonding)

/-- The host zone unbondings of one epoch, one for each host zone. -/
structure EpochUnbondingRecord where
  epochNumber : ℕ
  hostZoneUnbondings : List HostZoneUnbonding
  deriving DecidableEq

/-- The store of epoch unbonding records. `SetEpochUnbondingRecord` takes the key from
    the record, so keys and epoch numbers agree. -/
abbrev EpochUnbondingStore := KeyedStore EpochUnbondingRecord.epochNumber

namespace EpochUnbondingStore

def empty : EpochUnbondingStore := KeyedStore.empty

def getEpochUnbondingRecord (s : EpochUnbondingStore) (epochNumber : ℕ) :
    Option EpochUnbondingRecord :=
  s.get? epochNumber

def setEpochUnbondingRecord (s : EpochUnbondingStore) (r : EpochUnbondingRecord) :
    EpochUnbondingStore :=
  s.set r

def removeEpochUnbondingRecord (s : EpochUnbondingStore) (epochNumber : ℕ) :
    EpochUnbondingStore :=
  s.delete epochNumber

/-- `GetAllEpochUnbondingRecord`: in the order of the epoch numbers. -/
def getAllEpochUnbondingRecord (s : EpochUnbondingStore) : List EpochUnbondingRecord :=
  s.values

def getHostZoneUnbondingByChainId (s : EpochUnbondingStore) (epochNumber : ℕ)
    (chainId : String) : Option HostZoneUnbonding :=
  (s.getEpochUnbondingRecord epochNumber).bind fun r =>
    r.hostZoneUnbondings.find? fun h => h.hostZoneId = chainId

end EpochUnbondingStore

open EpochUnbondingStore

/-- Replaces the unbonding of `chainId`, or appends `hzu` when there is none. -/
def replaceHostZoneUnbonding (chainId : String) (hzu : HostZoneUnbonding) :
    List HostZoneUnbonding → List HostZoneUnbonding
  | [] => [hzu]
  | h :: rest =>
    if h.hostZoneId = chainId then hzu :: rest
    else h :: replaceHostZoneUnbonding chainId hzu rest

def addHostZoneToEpochUnbondingRecord (s : EpochUnbondingStore) (epochNumber : ℕ)
    (chainId : String) (hzu : HostZoneUnbonding) : Result EpochUnbondingRecord :=
  match s.getEpochUnbondingRecord epochNumber with
  | none => wrapf .errEpochUnbondingRecordNotFound s!"epoch number {epochNumber}"
  | some r =>
    .ok { r with
      hostZoneUnbondings := replaceHostZoneUnbonding chainId hzu r.hostZoneUnbondings }

def setHostZoneUnbondingRecord (s : EpochUnbondingStore) (epochNumber : ℕ)
    (chainId : String) (hzu : HostZoneUnbonding) : Result EpochUnbondingStore := do
  let r ← addHostZoneToEpochUnbondingRecord s epochNumber chainId hzu
  return s.setEpochUnbondingRecord r

/-! ## What one chain sees of the store -/

/-- The unbondings of a chain, by epoch. -/
def hostZoneUnbondings (s : EpochUnbondingStore) (chainId : String) :
    ℕ → Option HostZoneUnbonding :=
  fun epochNumber => s.getHostZoneUnbondingByChainId epochNumber chainId

variable {r : HostZoneUnbonding} {P : HostZoneUnbonding → Bool}
  {g : HostZoneUnbonding → HostZoneUnbonding} {f : HostZoneUnbonding → ℤ}
  {out recs : EpochRecords} {l : List HostZoneUnbonding} {epochs : List ℕ}
  {c chainId : String} {s s' : EpochUnbondingStore} {e : ℕ} {hzu old : HostZoneUnbonding}
  {notFound : ℕ → SdkError}

theorem getEpochUnbondingRecord_set (s : EpochUnbondingStore) (eur : EpochUnbondingRecord) (e : ℕ) :
    (s.setEpochUnbondingRecord eur).getEpochUnbondingRecord e =
      if e = eur.epochNumber then some eur else s.getEpochUnbondingRecord e :=
  s.get?_set eur e

theorem hostZoneId_of_hostZoneUnbondings (h : hostZoneUnbondings s chainId e = some r) :
    r.hostZoneId = chainId := by
  obtain ⟨_, _, hfind⟩ := Option.bind_eq_some_iff.mp h
  simpa using find?_some hfind

private theorem find?_replaceHostZoneUnbonding (hid : hzu.hostZoneId = chainId)
    (l : List HostZoneUnbonding) :
    (replaceHostZoneUnbonding chainId hzu l).find? (fun h => h.hostZoneId = c) =
      if c = chainId then some hzu else l.find? fun h => h.hostZoneId = c := by
  induction l with
  | nil =>
    by_cases hc : c = chainId
    · simp [replaceHostZoneUnbonding, hid, hc]
    · simp [replaceHostZoneUnbonding, hid, hc, Ne.symm hc]
  | cons h rest ih =>
    simp only [replaceHostZoneUnbonding]
    split
    · rename_i hh
      by_cases hc : c = chainId
      · simp [hid, hc]
      · simp [hid, hh, hc, Ne.symm hc]
    · rename_i hh
      by_cases hc : c = chainId
      · subst hc
        simp [hh, ih]
      · simp only [find?_cons, ih, hc, if_false]

/-- **Point update**: storing the record of a known epoch changes what `chainId` sees at
    that epoch and nothing else. -/
theorem setHostZoneUnbondingRecord_ok (hold : hostZoneUnbondings s chainId e = some old)
    (hid : hzu.hostZoneId = chainId) :
    ∃ s', setHostZoneUnbondingRecord s e chainId hzu = .ok s' ∧
      (∀ c e', hostZoneUnbondings s' c e' =
        if c = chainId ∧ e' = e then some hzu else hostZoneUnbondings s c e') ∧
      s'.store.keys = s.store.keys := by
  obtain ⟨r, hr, _⟩ := Option.bind_eq_some_iff.mp hold
  have hepoch : r.epochNumber = e := s.keyed e r hr
  let r' : EpochUnbondingRecord :=
    { r with hostZoneUnbondings := replaceHostZoneUnbonding chainId hzu r.hostZoneUnbondings }
  have hget (e' : ℕ) : (s.setEpochUnbondingRecord r').getEpochUnbondingRecord e' =
      if e' = e then some r' else s.getEpochUnbondingRecord e' := by
    have hr'e : r'.epochNumber = e := hepoch
    rw [getEpochUnbondingRecord_set, hr'e]
  have hr' : s.getEpochUnbondingRecord e = some r := hr
  refine ⟨s.setEpochUnbondingRecord r', ?_, fun c e' => ?_, ?_⟩
  · simp only [setHostZoneUnbondingRecord, addHostZoneToEpochUnbondingRecord, hr']
    rfl
  · simp only [hostZoneUnbondings, getHostZoneUnbondingByChainId, hget]
    by_cases he : e' = e
    · have hfind := find?_replaceHostZoneUnbonding (c := c) hid r.hostZoneUnbondings
      simp only [he, if_true, Option.bind_some, r', hfind, and_true]
      by_cases hc : c = chainId
      · simp [hc]
      · simp [hc, hr']
    · simp [he]
  · exact KVStore.keys_set_of_mem (hepoch ▸ KVStore.mem_keys_iff.mpr ⟨r, hr⟩)

/-! ## Selecting the records of one chain -/

/-- The keepers' scans over all epochs: the records of `chainId` with the property `P`,
    and their epoch numbers, earliest first. -/
def selectHostZoneUnbondings (s : EpochUnbondingStore) (chainId : String)
    (P : HostZoneUnbonding → Bool) : EpochRecords :=
  s.getAllEpochUnbondingRecord.filterMap fun epochUnbondingRecord =>
    match s.getHostZoneUnbondingByChainId epochUnbondingRecord.epochNumber chainId with
    | none => none
    | some r => if P r then some (epochUnbondingRecord.epochNumber, r) else none

theorem mem_getAllEpochUnbondingRecord {r : EpochUnbondingRecord} :
    r ∈ s.getAllEpochUnbondingRecord ↔ s.getEpochUnbondingRecord r.epochNumber = some r :=
  KeyedStore.mem_values_iff

/-- A selection finds what the chain sees. -/
theorem mem_selectHostZoneUnbondings :
    (e, r) ∈ selectHostZoneUnbondings s chainId P ↔
      hostZoneUnbondings s chainId e = some r ∧ P r = true := by
  simp only [selectHostZoneUnbondings, mem_filterMap]
  constructor
  · rintro ⟨eur, -, hsel⟩
    cases hr : s.getHostZoneUnbondingByChainId eur.epochNumber chainId with
    | none => simp [hr] at hsel
    | some r' =>
      simp only [hr] at hsel
      split at hsel
      · rename_i hP
        cases hsel
        exact ⟨hr, hP⟩
      · cases hsel
  · rintro ⟨hview, hP⟩
    obtain ⟨eur, heur, -⟩ := Option.bind_eq_some_iff.mp hview
    have hepoch : eur.epochNumber = e := s.keyed e eur heur
    refine ⟨eur, mem_getAllEpochUnbondingRecord.mpr (hepoch ▸ heur), ?_⟩
    have hr : s.getHostZoneUnbondingByChainId e chainId = some r := hview
    simp only [hepoch, hr, hP, if_true]

theorem map_fst_selectHostZoneUnbondings (s : EpochUnbondingStore) (chainId : String)
    (P : HostZoneUnbonding → Bool) :
    (selectHostZoneUnbondings s chainId P).map Prod.fst =
      s.store.keys.filter fun e => (hostZoneUnbondings s chainId e).any P := by
  rw [← s.map_key_values]
  unfold selectHostZoneUnbondings hostZoneUnbondings getAllEpochUnbondingRecord
  induction s.values with
  | nil => rfl
  | cons eur rest ih =>
    rw [filterMap_cons, map_cons, filter_cons]
    cases hr : s.getHostZoneUnbondingByChainId eur.epochNumber chainId with
    | none => simpa using ih
    | some r =>
      by_cases hP : P r = true
      · simpa [hP] using ih
      · simpa [hP] using ih

theorem nodup_selectHostZoneUnbondings (s : EpochUnbondingStore) (chainId : String)
    (P : HostZoneUnbonding → Bool) :
    ((selectHostZoneUnbondings s chainId P).map Prod.fst).Nodup := by
  rw [map_fst_selectHostZoneUnbondings]
  exact s.store.keys_nodup.filter _

/-! ## Loops over the records of one chain -/

/-- The body of a loop: a record is changed, or left as it is. -/
abbrev RecordBody (σ : Type) := σ → ℕ → HostZoneUnbonding → Result (σ × Option HostZoneUnbonding)

/-- The loop over `epochNumbers`: fetch the record of `chainId`, let `body` change it or
    leave it (`none`, the `continue` of the source), store it, go on. -/
def forEachHostZoneUnbonding {σ : Type} (chainId : String) (notFound : ℕ → SdkError)
    (body : RecordBody σ) :
    List ℕ → σ → EpochUnbondingStore → Result (σ × EpochUnbondingStore)
  | [], acc, s => .ok (acc, s)
  | e :: es, acc, s =>
    match s.getHostZoneUnbondingByChainId e chainId with
    | none => .error (notFound e)
    | some hzu =>
      match body acc e hzu with
      | .error err => .error err
      | .ok (acc', none) => forEachHostZoneUnbonding chainId notFound body es acc' s
      | .ok (acc', some hzu') =>
        match setHostZoneUnbondingRecord s e chainId hzu' with
        | .error err => .error err
        | .ok s' => forEachHostZoneUnbonding chainId notFound body es acc' s'

/-- The loop over records that were fetched before it: `body` gets the copies. -/
def forEachFetched {σ : Type} (chainId : String)
    (body : RecordBody σ) :
    EpochRecords → σ → EpochUnbondingStore → Result (σ × EpochUnbondingStore)
  | [], acc, s => .ok (acc, s)
  | (e, hzu) :: rest, acc, s =>
    match body acc e hzu with
    | .error err => .error err
    | .ok (acc', none) => forEachFetched chainId body rest acc' s
    | .ok (acc', some hzu') =>
      match setHostZoneUnbondingRecord s e chainId hzu' with
      | .error err => .error err
      | .ok s' => forEachFetched chainId body rest acc' s'

def setHostZoneUnbondingStatus (s : EpochUnbondingStore) (chainId : String)
    (epochUnbondingRecordIds : List ℕ) (status : UnbondingStatus) :
    Result EpochUnbondingStore := do
  let (_, s) ← forEachHostZoneUnbonding chainId
    (fun e => ⟨.errHostUnbondingRecordNotFound, s!"epoch number {e}, chain {chainId}"⟩)
    (fun _ _ hzu => .ok ((), some { hzu with status := status }))
    epochUnbondingRecordIds () s
  return s

/-- The body of a loop as a step on a fetched record. -/
def recordStep {σ : Type}
    (body : RecordBody σ)
    (acc : σ) (p : ℕ × HostZoneUnbonding) : Result (σ × (ℕ × HostZoneUnbonding)) :=
  match body acc p.1 p.2 with
  | .error err => .error err
  | .ok (acc', changed) => .ok (acc', (p.1, changed.getD p.2))

/-- What a loop over the records of `chainId` at `epochs` leaves alone. -/
structure SameElsewhere (chainId : String) (epochs : List ℕ) (s s' : EpochUnbondingStore) :
    Prop where
  epoch : ∀ e ∉ epochs, hostZoneUnbondings s' chainId e = hostZoneUnbondings s chainId e
  chain : ∀ c, c ≠ chainId → hostZoneUnbondings s' c = hostZoneUnbondings s c
  keys : s'.store.keys = s.store.keys

/-- The pairs of `recs` are what `chainId` sees of the store. -/
def Fetched (s : EpochUnbondingStore) (chainId : String) (recs : EpochRecords) :
    Prop :=
  ∀ p ∈ recs, hostZoneUnbondings s chainId p.1 = some p.2

theorem fetched_selectHostZoneUnbondings (s : EpochUnbondingStore) (chainId : String)
    (P : HostZoneUnbonding → Bool) : Fetched s chainId (selectHostZoneUnbondings s chainId P) :=
  fun _ hp => (mem_selectHostZoneUnbondings.mp hp).1

/-- The epochs determine what is fetched. -/
theorem Fetched.ext {recs' : EpochRecords} (h : Fetched s chainId recs)
    (h' : Fetched s chainId recs') (hfst : recs.map Prod.fst = recs'.map Prod.fst) :
    recs = recs' := by
  induction recs generalizing recs' with
  | nil => exact (map_eq_nil_iff.mp hfst.symm).symm
  | cons p recs ih =>
    cases recs' with
    | nil => cases hfst
    | cons q recs' =>
      obtain ⟨hpq, hrest⟩ := cons.inj hfst
      have hp : hostZoneUnbondings s chainId p.1 = some p.2 := h p mem_cons_self
      have hq : hostZoneUnbondings s chainId q.1 = some q.2 := h' q mem_cons_self
      rw [hpq, hq, Option.some.injEq] at hp
      rw [Prod.ext hpq hp.symm, ih (fun x hx => h x (mem_cons_of_mem _ hx))
        (fun x hx => h' x (mem_cons_of_mem _ hx)) hrest]

/-- Records at the same epoch, related by `R`. -/
def AtSameEpoch (R : HostZoneUnbonding → HostZoneUnbonding → Prop)
    (p q : ℕ × HostZoneUnbonding) : Prop :=
  p.1 = q.1 ∧ R p.2 q.2

theorem map_fst_eq_of_atSameEpoch {R : HostZoneUnbonding → HostZoneUnbonding → Prop}
    (h : List.Forall₂ (AtSameEpoch R) recs out) : recs.map Prod.fst = out.map Prod.fst := by
  induction h with
  | nil => rfl
  | cons hpq _ ih => rw [map_cons, map_cons, hpq.1, ih]

/-- Changes every record of a list and keeps the epochs. -/
def mapRecords (g : HostZoneUnbonding → HostZoneUnbonding)
    (recs : EpochRecords) : EpochRecords :=
  recs.map fun p => (p.1, g p.2)

@[simp]
theorem map_fst_mapRecords (g : HostZoneUnbonding → HostZoneUnbonding)
    (recs : EpochRecords) :
    (mapRecords g recs).map Prod.fst = recs.map Prod.fst := by
  simp [mapRecords]

theorem forall₂_mapRecords (g : HostZoneUnbonding → HostZoneUnbonding)
    (recs : EpochRecords) :
    List.Forall₂ (AtSameEpoch fun r r' => r' = g r) recs (mapRecords g recs) := by
  unfold mapRecords
  rw [forall₂_map_right_iff, forall₂_same]
  exact fun _ _ => ⟨rfl, rfl⟩

/-- **Pointwise view of a loop**: a record of the chain is outside the epochs of the loop
    and unchanged, or it became a related one. -/
theorem view_of_forall₂ {R : HostZoneUnbonding → HostZoneUnbonding → Prop}
    (hrel : List.Forall₂ (AtSameEpoch R) recs out) (hrecs : Fetched s chainId recs)
    (hout : Fetched s' chainId out) (hsame : SameElsewhere chainId (recs.map Prod.fst) s s')
    (h : hostZoneUnbondings s chainId e = some r) :
    (e ∉ recs.map Prod.fst ∧ hostZoneUnbondings s' chainId e = some r) ∨
      (e ∈ recs.map Prod.fst ∧ ∃ r', hostZoneUnbondings s' chainId e = some r' ∧ R r r') := by
  by_cases he : e ∈ recs.map Prod.fst
  · right
    refine ⟨he, ?_⟩
    obtain ⟨p, hp, rfl⟩ := mem_map.mp he
    obtain ⟨q, hq, hpq⟩ := forall₂_exists_right hrel hp
    have hpr : p.2 = r := by
      rw [hrecs p hp, Option.some.injEq] at h
      exact h
    rw [hpq.1]
    exact ⟨q.2, hout q hq, hpr ▸ hpq.2⟩
  · exact .inl ⟨he, (hsame.epoch e he).trans h⟩

/-- The records of a chain at some epochs are rewritten by `g`, and no other record is. -/
structure Rewrites (chainId : String) (epochs : List ℕ)
    (g : HostZoneUnbonding → HostZoneUnbonding) (s s' : EpochUnbondingStore) : Prop where
  view : ∀ c e, hostZoneUnbondings s' c e =
    if c = chainId ∧ e ∈ epochs then (hostZoneUnbondings s c e).map g
    else hostZoneUnbondings s c e
  keys : s'.store.keys = s.store.keys

theorem rewrites_of_mapRecords (hfst : recs.map Prod.fst = epochs) (hrecs : Fetched s chainId recs)
    (hout : Fetched s' chainId (mapRecords g recs)) (hsame : SameElsewhere chainId epochs s s') :
    Rewrites chainId epochs g s s' := by
  refine ⟨fun c e => ?_, hsame.keys⟩
  split
  · rename_i hhere
    obtain ⟨rfl, he⟩ := hhere
    rw [← hfst] at he
    obtain ⟨p, hp, rfl⟩ := mem_map.mp he
    rw [hrecs p hp]
    exact hout (p.1, g p.2) (mem_map.mpr ⟨p, hp, rfl⟩)
  · rename_i hother
    by_cases hc : c = chainId
    · subst hc
      exact hsame.epoch e fun he => hother ⟨rfl, he⟩
    · rw [hsame.chain c hc]

theorem SameElsewhere.trans {s₁ s₂ s₃ : EpochUnbondingStore}
    (h₁ : SameElsewhere chainId epochs s₁ s₂) (h₂ : SameElsewhere chainId epochs s₂ s₃) :
    SameElsewhere chainId epochs s₁ s₃ :=
  ⟨fun e he => (h₂.epoch e he).trans (h₁.epoch e he),
    fun c hc => (h₂.chain c hc).trans (h₁.chain c hc), h₂.keys.trans h₁.keys⟩

section ForEach

variable {σ : Type} {acc acc' : σ}
  {body : RecordBody σ}

/-- The body keeps the chain of the record it changes. -/
def KeepsHostZoneId
    (body : RecordBody σ) : Prop :=
  ∀ acc e r acc' r', body acc e r = .ok (acc', some r') → r'.hostZoneId = r.hostZoneId

private theorem fst_mapAccum_recordStep
    (h : mapAccum (recordStep body) acc recs = .ok (acc', out)) :
    out.map Prod.fst = recs.map Prod.fst := by
  induction recs generalizing acc out with
  | nil =>
    cases h
    rfl
  | cons p recs ih =>
    obtain ⟨acc₁, q, out', hstep, hrest, rfl⟩ := mapAccum_cons_ok.mp h
    have hfst : q.1 = p.1 := by
      unfold recordStep at hstep
      split at hstep
      · cases hstep
      cases hstep
      rfl
    rw [map_cons, map_cons, hfst, ih hrest]

private theorem fetched_iff_of_update {x : Option HostZoneUnbonding} (he : e ∉ recs.map Prod.fst)
    (hs' : ∀ c e', hostZoneUnbondings s' c e' =
      if c = chainId ∧ e' = e then x else hostZoneUnbondings s c e') :
    Fetched s' chainId recs ↔ Fetched s chainId recs := by
  refine forall₂_congr fun p hp => ?_
  rw [hs', if_neg]
  exact fun h => he (h.2 ▸ mem_map_of_mem hp)

variable (notFound) in
/-- **One turn** of a loop, at a record that is there. -/
theorem forEachHostZoneUnbonding_cons {r' : HostZoneUnbonding} {e' : ℕ}
    (hkeep : KeepsHostZoneId body) (hr : hostZoneUnbondings s chainId e = some r)
    (hstep : recordStep body acc (e, r) = .ok (acc', (e', r'))) :
    e' = e ∧ ∃ s', (∀ es, forEachHostZoneUnbonding chainId notFound body (e :: es) acc s =
        forEachHostZoneUnbonding chainId notFound body es acc' s') ∧
      (∀ rest, forEachFetched chainId body ((e, r) :: rest) acc s =
        forEachFetched chainId body rest acc' s') ∧
      (∀ c e', hostZoneUnbondings s' c e' =
        if c = chainId ∧ e' = e then some r' else hostZoneUnbondings s c e') ∧
      s'.store.keys = s.store.keys := by
  have hget : s.getHostZoneUnbondingByChainId e chainId = some r := hr
  unfold recordStep at hstep
  cases hb : body acc e r with
  | error err => simp [hb] at hstep
  | ok res =>
    obtain ⟨acc₁, changed⟩ := res
    simp only [hb, Except.ok.injEq, Prod.mk.injEq] at hstep
    obtain ⟨rfl, rfl, rfl⟩ := hstep
    refine ⟨rfl, ?_⟩
    simp only [forEachHostZoneUnbonding, forEachFetched, hget, hb]
    cases changed with
    | none =>
      -- the body leaves the record as it is
      refine ⟨s, fun _ => rfl, fun _ => rfl, fun c e' => ?_, rfl⟩
      split
      · rename_i hhere
        rw [hhere.1, hhere.2, hr]
        rfl
      · rfl
    | some r' =>
      -- it writes the record back under the same chain
      have hid : r'.hostZoneId = chainId := by
        rw [hkeep _ _ _ _ _ hb]
        exact hostZoneId_of_hostZoneUnbondings hr
      obtain ⟨s₁, hset, hrest⟩ := setHostZoneUnbondingRecord_ok hr hid
      simp only [hset]
      exact ⟨s₁, fun _ => rfl, fun _ => rfl, hrest⟩

variable (notFound) in
/-- **Loop refinement**: over distinct epochs whose records are `recs`, the loop over the
    store is the loop over the list `recs`, written back. -/
theorem forEachHostZoneUnbonding_of_mapAccum (hkeep : KeepsHostZoneId body)
    (hnd : (recs.map Prod.fst).Nodup) (hrecs : Fetched s chainId recs)
    (hrun : mapAccum (recordStep body) acc recs = .ok (acc', out)) :
    ∃ s', forEachHostZoneUnbonding chainId notFound body (recs.map Prod.fst) acc s =
        .ok (acc', s') ∧ Fetched s' chainId out ∧
      SameElsewhere chainId (recs.map Prod.fst) s s' := by
  induction recs generalizing acc s out with
  | nil =>
    cases hrun
    exact ⟨s, rfl, forall_mem_nil _, ⟨fun _ _ => rfl, fun _ _ => rfl, rfl⟩⟩
  | cons p recs ih =>
    obtain ⟨e, r⟩ := p
    obtain ⟨acc₁, ⟨e₁, r'⟩, out', hstep, hrest, rfl⟩ := mapAccum_cons_ok.mp hrun
    obtain ⟨he, hnd'⟩ := nodup_cons.mp hnd
    obtain ⟨hr, hrecs'⟩ := forall_mem_cons.mp hrecs
    obtain ⟨rfl, s₁, hloop₁, -, hs₁, hk₁⟩ :=
      forEachHostZoneUnbonding_cons notFound hkeep hr hstep
    obtain ⟨s', hloop, hfetched, hsame⟩ :=
      ih hnd' ((fetched_iff_of_update he hs₁).mpr hrecs') hrest
    refine ⟨s', (hloop₁ _).trans hloop, forall_mem_cons.mpr ⟨?_, hfetched⟩, fun e' he' => ?_,
      fun c hc => ?_, hsame.keys.trans hk₁⟩
    · -- the head is written once: later turns are at other epochs
      rw [hsame.epoch e₁ he, hs₁, if_pos ⟨rfl, rfl⟩]
    · obtain ⟨hne, hnot⟩ := not_or.mp (mt mem_cons.mpr he')
      rw [hsame.epoch e' hnot, hs₁, if_neg fun h => hne h.2]
    · funext e'
      rw [hsame.chain c hc, hs₁, if_neg fun h => hc h.1]

private theorem exists_fetched_of_forEachHostZoneUnbonding (hkeep : KeepsHostZoneId body)
    (hnd : epochs.Nodup)
    (h : forEachHostZoneUnbonding chainId notFound body epochs acc s = .ok (acc', s')) :
    ∃ recs out, recs.map Prod.fst = epochs ∧ Fetched s chainId recs ∧
      mapAccum (recordStep body) acc recs = .ok (acc', out) := by
  induction epochs generalizing acc s with
  | nil =>
    cases h
    exact ⟨[], [], rfl, forall_mem_nil _, rfl⟩
  | cons e es ih =>
    obtain ⟨he, hnd'⟩ := nodup_cons.mp hnd
    cases hr : s.getHostZoneUnbondingByChainId e chainId with
    | none => simp [forEachHostZoneUnbonding, hr] at h
    | some r =>
      cases hb : body acc e r with
      | error err => simp [forEachHostZoneUnbonding, hr, hb] at h
      | ok res =>
        have hstep : recordStep body acc (e, r) = .ok (res.1, (e, res.2.getD r)) := by
          simp only [recordStep, hb]
        obtain ⟨-, s₁, hloop, -, hs₁, -⟩ := forEachHostZoneUnbonding_cons notFound hkeep hr hstep
        rw [hloop] at h
        obtain ⟨recs, out, rfl, hrecs, hrun⟩ := ih hnd' h
        -- records at the later epochs are those of the store before this turn
        exact ⟨(e, r) :: recs, _, rfl,
          forall_mem_cons.mpr ⟨hr, (fetched_iff_of_update he hs₁).mp hrecs⟩,
          mapAccum_cons_ok.mpr ⟨_, _, _, hstep, hrun, rfl⟩⟩

/-- **Loop inversion**: a loop over distinct epochs that ends well found a record at each
    of them, and what it stored is the list loop over these records. -/
theorem forEachHostZoneUnbonding_spec (hkeep : KeepsHostZoneId body) (hnd : epochs.Nodup)
    (h : forEachHostZoneUnbonding chainId notFound body epochs acc s = .ok (acc', s')) :
    ∃ recs out, recs.map Prod.fst = epochs ∧ out.map Prod.fst = epochs ∧
      Fetched s chainId recs ∧ Fetched s' chainId out ∧
      mapAccum (recordStep body) acc recs = .ok (acc', out) ∧
      SameElsewhere chainId epochs s s' := by
  obtain ⟨recs, out, rfl, hrecs, hrun⟩ := exists_fetched_of_forEachHostZoneUnbonding hkeep hnd h
  obtain ⟨s₁, hloop, hfetched, hsame⟩ :=
    forEachHostZoneUnbonding_of_mapAccum notFound hkeep hnd hrecs hrun
  rw [hloop] at h
  cases h
  exact ⟨recs, out, rfl, fst_mapAccum_recordStep hrun, hrecs, hfetched, hrun, hsame⟩

/-- A body that does not depend on the accumulator is a map. -/
theorem forEachHostZoneUnbonding_eq_map {P : HostZoneUnbonding → Prop}
    (hg : ∀ r, (g r).hostZoneId = r.hostZoneId)
    (hbody : ∀ acc e r acc' changed, body acc e r = .ok (acc', changed) →
      changed.getD r = g r ∧ P r) (hnd : epochs.Nodup)
    (h : forEachHostZoneUnbonding chainId notFound body epochs acc s = .ok (acc', s')) :
    ∃ recs, recs.map Prod.fst = epochs ∧ Fetched s chainId recs ∧ (∀ p ∈ recs, P p.2) ∧
      Fetched s' chainId (mapRecords g recs) ∧ SameElsewhere chainId epochs s s' := by
  have hkeep : KeepsHostZoneId body := by
    intro acc e r acc' r' hb
    have hr' : r' = g r := (hbody _ _ _ _ _ hb).1
    rw [hr', hg]
  obtain ⟨recs, out, hfst, -, hrecs, hout, hrun, hsame⟩ :=
    forEachHostZoneUnbonding_spec hkeep hnd h
  have hmap : out = mapRecords g recs ∧ ∀ p ∈ recs, P p.2 := by
    apply mapAccum_eq_map (P := fun p => P p.2) _ hrun
    intro acc p acc' q hstep
    unfold recordStep at hstep
    split at hstep
    · cases hstep
    rename_i _ changed hb
    cases hstep
    obtain ⟨hchanged, hP⟩ := hbody _ _ _ _ _ hb
    exact ⟨by rw [hchanged], hP⟩
  exact ⟨recs, hfst, hrecs, hmap.2, hmap.1 ▸ hout, hsame⟩

/-- Copies of the stored records are as good as the records. -/
theorem forEachFetched_eq_forEachHostZoneUnbonding (notFound : ℕ → SdkError)
    (hkeep : KeepsHostZoneId body) (hnd : (recs.map Prod.fst).Nodup)
    (hrecs : Fetched s chainId recs) :
    forEachFetched chainId body recs acc s =
      forEachHostZoneUnbonding chainId notFound body (recs.map Prod.fst) acc s := by
  induction recs generalizing acc s with
  | nil => rfl
  | cons p recs ih =>
    obtain ⟨e, r⟩ := p
    obtain ⟨he, hnd'⟩ := nodup_cons.mp hnd
    obtain ⟨hr, hrest⟩ := forall_mem_cons.mp hrecs
    cases hb : body acc e r with
    | error err =>
      have hget : s.getHostZoneUnbondingByChainId e chainId = some r := hr
      simp only [map_cons, forEachFetched, forEachHostZoneUnbonding, hget, hb]
    | ok res =>
      have hstep : recordStep body acc (e, r) = .ok (res.1, (e, res.2.getD r)) := by
        simp only [recordStep, hb]
      obtain ⟨-, s₁, hloop, hloop', hs₁, -⟩ :=
        forEachHostZoneUnbonding_cons notFound hkeep hr hstep
      rw [map_cons, hloop, hloop']
      exact ih hnd' ((fetched_iff_of_update he hs₁).mpr hrest)

end ForEach

/-- The status of the listed records is set. -/
theorem setHostZoneUnbondingStatus_ok {status : UnbondingStatus} (hnd : epochs.Nodup)
    (h : setHostZoneUnbondingStatus s chainId epochs status = .ok s') :
    Rewrites chainId epochs (fun r => { r with status := status }) s s' := by
  obtain ⟨res, hloop, h⟩ := bind_eq_ok.mp h
  cases h
  obtain ⟨recs, hfst, hrecs, -, hout, hsame⟩ := forEachHostZoneUnbonding_eq_map
    (g := fun r => { r with status := status }) (P := fun _ => True) (fun _ => rfl)
    (fun _ _ _ _ _ hb => by cases hb; exact ⟨rfl, trivial⟩) hnd hloop
  exact rewrites_of_mapRecords hfst hrecs hout hsame

/-! ## All the unbondings of a chain -/

/-- `r` is one of the unbondings of epoch `e`. -/
def EpochUnbondingStore.Holds (s : EpochUnbondingStore) (e : ℕ) (r : HostZoneUnbonding) : Prop :=
  ∃ eur, s.getEpochUnbondingRecord e = some eur ∧ r ∈ eur.hostZoneUnbondings

/-- Each epoch has at most one unbonding of each chain. -/
def EpochUnbondingStore.OnePerChain (s : EpochUnbondingStore) : Prop :=
  ∀ e eur, s.getEpochUnbondingRecord e = some eur →
    (eur.hostZoneUnbondings.map HostZoneUnbonding.hostZoneId).Nodup

/-- The total of `f` over the unbondings of a chain. -/
def chainTotal (s : EpochUnbondingStore) (chainId : String) (f : HostZoneUnbonding → ℤ) : ℤ :=
  (s.getAllEpochUnbondingRecord.map fun eur =>
    ((eur.hostZoneUnbondings.filter fun h => h.hostZoneId = chainId).map f).sum).sum

theorem chainTotal_le {g : HostZoneUnbonding → ℤ} (h : ∀ e r, s.Holds e r → f r ≤ g r) :
    chainTotal s chainId f ≤ chainTotal s chainId g := by
  apply sum_le_sum
  intro eur heur
  apply sum_le_sum
  intro r hr
  exact h eur.epochNumber r
    ⟨eur, mem_getAllEpochUnbondingRecord.mp heur, mem_of_mem_filter hr⟩

/-- With one unbonding for each chain, a chain sees all of its unbondings. -/
theorem EpochUnbondingStore.OnePerChain.holds_iff (h : s.OnePerChain) :
    s.Holds e r ↔ hostZoneUnbondings s r.hostZoneId e = some r := by
  constructor
  · rintro ⟨eur, heur, hr⟩
    have hnd := h e eur heur
    refine Option.bind_eq_some_iff.mpr ⟨eur, heur, ?_⟩
    generalize eur.hostZoneUnbondings = l at hr hnd
    induction l with
    | nil => cases hr
    | cons x l ih =>
      rw [map_cons, nodup_cons] at hnd
      rcases mem_cons.mp hr with rfl | hr
      · simp
      · have hne : x.hostZoneId ≠ r.hostZoneId := fun heq => hnd.1 (heq ▸ mem_map_of_mem hr)
        rw [find?_cons_of_neg (by simpa using hne)]
        exact ih hr hnd.2
  · intro hview
    obtain ⟨eur, heur, hfind⟩ := Option.bind_eq_some_iff.mp hview
    exact ⟨eur, heur, mem_of_find?_eq_some hfind⟩

private theorem exists_of_setHostZoneUnbondingRecord
    (h : setHostZoneUnbondingRecord s e chainId hzu = .ok s') :
    ∃ eur, s.getEpochUnbondingRecord e = some eur ∧ s' = s.setEpochUnbondingRecord { eur with
      hostZoneUnbondings := replaceHostZoneUnbonding chainId hzu eur.hostZoneUnbondings } := by
  obtain ⟨eur', hadd, h⟩ := bind_eq_ok.mp h
  cases h
  unfold addHostZoneToEpochUnbondingRecord at hadd
  split at hadd
  · cases hadd
  rename_i eur heur
  cases hadd
  exact ⟨eur, heur, rfl⟩

private theorem map_hostZoneId_replaceHostZoneUnbonding (hid : hzu.hostZoneId = chainId)
    (hold : (l.find? fun h => h.hostZoneId = chainId) = some old) :
    (replaceHostZoneUnbonding chainId hzu l).map HostZoneUnbonding.hostZoneId =
      l.map HostZoneUnbonding.hostZoneId := by
  induction l with
  | nil => cases hold
  | cons x l ih =>
    simp only [replaceHostZoneUnbonding]
    split
    · rename_i hx
      simp [hid, hx]
    · rename_i hx
      rw [find?_cons_of_neg (by simpa using hx)] at hold
      rw [map_cons, map_cons, ih hold]

private theorem sum_replaceHostZoneUnbonding (f : HostZoneUnbonding → ℤ)
    (hid : hzu.hostZoneId = chainId) (hold : (l.find? fun h => h.hostZoneId = chainId) = some old) :
    (((replaceHostZoneUnbonding chainId hzu l).filter fun h => h.hostZoneId = c).map f).sum =
      ((l.filter fun h => h.hostZoneId = c).map f).sum +
        if c = chainId then f hzu - f old else 0 := by
  induction l with
  | nil => cases hold
  | cons x l ih =>
    simp only [replaceHostZoneUnbonding]
    split
    · -- only the first record of the chain is replaced
      rename_i hx
      simp only [find?_cons, hx, decide_true, Option.some.injEq] at hold
      subst hold
      by_cases hc : chainId = c
      · simp only [filter_cons, hid, hx, hc, decide_true, if_true, map_cons,
          sum_cons]
        ring
      · simp [hid, hx, hc, Ne.symm hc]
    · rename_i hx
      rw [find?_cons_of_neg (by simpa using hx)] at hold
      rw [filter_cons, filter_cons]
      split
      · rw [map_cons, sum_cons, map_cons, sum_cons, ih hold]
        ring
      · exact ih hold

section SetHostZoneUnbonding

variable {s s' : EpochUnbondingStore} {e : ℕ} {chainId : String}

section

variable (hold : hostZoneUnbondings s chainId e = some old)
  (hid : hzu.hostZoneId = chainId)
  (h : setHostZoneUnbondingRecord s e chainId hzu = .ok s')
include hold hid h

/-- What every chain sees after a write. -/
theorem view_setHostZoneUnbondingRecord (c : String) (e' : ℕ) : hostZoneUnbondings s' c e' =
      if c = chainId ∧ e' = e then some hzu else hostZoneUnbondings s c e' := by
  obtain ⟨s₁, hset, hview, -⟩ := setHostZoneUnbondingRecord_ok hold hid
  obtain rfl : s₁ = s' := Except.ok.inj (hset.symm.trans h)
  exact hview c e'

theorem keys_setHostZoneUnbondingRecord : s'.store.keys = s.store.keys := by
  obtain ⟨s₁, hset, -, hkeys⟩ := setHostZoneUnbondingRecord_ok hold hid
  obtain rfl : s₁ = s' := Except.ok.inj (hset.symm.trans h)
  exact hkeys

end

theorem EpochUnbondingStore.OnePerChain.set (hs : s.OnePerChain)
    (hold : hostZoneUnbondings s chainId e = some old) (hid : hzu.hostZoneId = chainId)
    (h : setHostZoneUnbondingRecord s e chainId hzu = .ok s') : s'.OnePerChain := by
  obtain ⟨eur, heur, rfl⟩ := exists_of_setHostZoneUnbondingRecord h
  obtain ⟨eur', heur', hfind⟩ := Option.bind_eq_some_iff.mp hold
  obtain rfl : eur = eur' := Option.some.inj (heur.symm.trans heur')
  intro e' eur' heur'
  rw [getEpochUnbondingRecord_set] at heur'
  split at heur'
  · cases heur'
    rw [map_hostZoneId_replaceHostZoneUnbonding hid hfind]
    exact hs e eur heur
  · exact hs e' eur' heur'

/-- Loops keep one record per chain. -/
theorem EpochUnbondingStore.OnePerChain.forEach {σ : Type}
    {body : RecordBody σ}
    (hkeep : KeepsHostZoneId body) {acc acc' : σ} (hs : s.OnePerChain)
    (h : forEachHostZoneUnbonding chainId notFound body epochs acc s = .ok (acc', s')) :
    s'.OnePerChain := by
  induction epochs generalizing acc s with
  | nil =>
    cases h
    exact hs
  | cons e epochs ih =>
    rw [forEachHostZoneUnbonding] at h
    split at h
    · cases h
    rename_i r hr
    split at h
    · cases h
    · exact ih hs h
    · rename_i acc₁ r' hbody
      split at h
      · cases h
      rename_i s₁ hset
      have hid : r'.hostZoneId = chainId :=
        (hkeep _ _ _ _ _ hbody).trans (hostZoneId_of_hostZoneUnbondings hr)
      exact ih (hs.set hr hid hset) h

/-- **Totals**: writing one unbonding changes the totals of its chain by the difference, and
    those of no other chain. -/
theorem chainTotal_setHostZoneUnbondingRecord (f : HostZoneUnbonding → ℤ) (c : String)
    (hold : hostZoneUnbondings s chainId e = some old) (hid : hzu.hostZoneId = chainId)
    (h : setHostZoneUnbondingRecord s e chainId hzu = .ok s') :
    chainTotal s' c f = chainTotal s c f + if c = chainId then f hzu - f old else 0 := by
  obtain ⟨eur, heur, rfl⟩ := exists_of_setHostZoneUnbondingRecord h
  obtain ⟨eur', heur', hfind⟩ := Option.bind_eq_some_iff.mp hold
  obtain rfl : eur = eur' := Option.some.inj (heur.symm.trans heur')
  have hepoch : eur.epochNumber = e := s.keyed e eur heur
  have hget : s.get? eur.epochNumber = some eur := hepoch ▸ heur
  unfold chainTotal getAllEpochUnbondingRecord
  simp only [setEpochUnbondingRecord, KeyedStore.sum_values_set, hget, Option.elim_some,
    sum_replaceHostZoneUnbonding f (c := c) hid hfind]
  ring

end SetHostZoneUnbonding

theorem chainTotal_setEpochUnbondingRecord (f : HostZoneUnbonding → ℤ) (c : String)
    {eur : EpochUnbondingRecord} (hnew : s.getEpochUnbondingRecord eur.epochNumber = none) :
    chainTotal (s.setEpochUnbondingRecord eur) c f =
      chainTotal s c f +
        ((eur.hostZoneUnbondings.filter fun h => h.hostZoneId = c).map f).sum := by
  have hget : s.get? eur.epochNumber = none := hnew
  unfold chainTotal getAllEpochUnbondingRecord
  simp only [setEpochUnbondingRecord, KeyedStore.sum_values_set, hget, Option.elim_none, sub_zero]

end Stride.Records
