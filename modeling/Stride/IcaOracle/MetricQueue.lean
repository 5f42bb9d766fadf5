import Stride.IcaOracle.Metrics

/-!
# The Metric Queue

Metrics are stored under their ids, and the ids of those that are queued once more in an index. The
end blocker scans the index, and stops the chain if it finds no metric under an id.

## Main results

- `Keeper.InSync.setMetric`, `Keeper.InSync.removeMetric`: what writes metrics writes the index
- `mem_queue_iff_queued`
-/

namespace Stride.IcaOracle

open Lib Sdk KeyedStore List

/-! ## Messages of governance -/

namespace System

/-- The setup of an oracle that is set to active. -/
def validateActivation (s : System) (oracle : Oracle) (chainId : String) (active : Bool) :
    Result Unit :=
  if active then do
    oracle.validateICASetup
    oracle.validateContractInstantiated
    require (s.isOracleICAChannelOpen oracle) .errOracleICAChannelClosed
      s!"chain-id: {chainId}, channel-id: {oracle.channelId}"
  else .ok ()

def toggleOracle (govAuthority : String) (s : System) (authority oracleChainId : String)
    (active : Bool) : Result System := do
  require (govAuthority = authority) .errInvalidSigner
    s!"invalid authority; expected {govAuthority}, got {authority}"
  let oracle ← findOracle s.keeper oracleChainId
  s.validateActivation oracle oracleChainId active
  return { s with
    keeper := { s.keeper with oracles := s.keeper.oracles.set { oracle with active := active } } }

/-- `RemoveOracle`: the metrics of the oracle are removed one by one. -/
def removeOracle (govAuthority : String) (s : System) (authority oracleChainId : String) :
    Result System := do
  require (govAuthority = authority) .errInvalidSigner
    s!"invalid authority; expected {govAuthority}, got {authority}"
  let _ ← findOracle s.keeper oracleChainId
  let metrics := s.keeper.metrics.values.filter fun metric =>
    metric.destinationOracle = oracleChainId
  return { s with
    keeper := metrics.foldl (fun k metric => k.removeMetric metric.metricId)
      { s.keeper with oracles := s.keeper.oracles.delete oracleChainId } }

inductive OracleEvent where
  | chain (e : Event)
  | toggleOracle (authority oracleChainId : String) (active : Bool)
  | removeOracle (authority oracleChainId : String)

def oracleStep (govAuthority : String) (s : System) : OracleEvent → Option System
  | .chain e => s.step e
  | .toggleOracle authority oracleChainId active =>
    (s.toggleOracle govAuthority authority oracleChainId active).toOption
  | .removeOracle authority oracleChainId =>
    (s.removeOracle govAuthority authority oracleChainId).toOption

end System

namespace Keeper

def initGenesis (oracles : List Oracle) (metrics : List Metric) : Keeper :=
  metrics.foldl setMetric
    { oracles := oracles.foldl set .empty
      metrics := .empty
      metricQueue := .empty }

/-! ## The index -/

/-- A metric with this id is stored as queued. -/
def IsQueued (k : Keeper) (metricId : String) : Prop :=
  ∃ metric, k.metrics.get? metricId = some metric ∧ metric.status = .queued

/-- The index holds the ids of the queued metrics. -/
def InSync (k : Keeper) : Prop :=
  ∀ metricId, k.metricQueue.get? metricId = some () ↔ k.IsQueued metricId

variable {k : Keeper}

namespace InSync

private theorem setMetric (h : k.InSync) (metric : Metric) : (k.setMetric metric).InSync := by
  intro id
  have hid := h id
  unfold IsQueued at hid ⊢
  by_cases heq : id = metric.metricId
  · cases hstatus : metric.status with
    | queued => simp [Keeper.setMetric, hstatus, heq, get?_set]
    | inProgress =>
      simp [Keeper.setMetric, hstatus, heq, KVStore.get?_delete, get?_set]
  · -- other ids are not written
    cases hstatus : metric.status with
    | queued =>
      simpa [Keeper.setMetric, hstatus, heq, KVStore.get?_set, get?_set] using hid
    | inProgress =>
      simpa [Keeper.setMetric, hstatus, heq, KVStore.get?_delete, get?_set] using hid

private theorem removeMetric (h : k.InSync) (metricId : String) :
    (k.removeMetric metricId).InSync := by
  intro id
  have hid := h id
  unfold IsQueued at hid ⊢
  by_cases heq : id = metricId
  · simp [Keeper.removeMetric, heq, KVStore.get?_delete, get?_delete]
  · simpa [Keeper.removeMetric, heq, KVStore.get?_delete, get?_delete] using hid

private theorem foldl {α : Type*} {f : Keeper → α → Keeper} (hf : ∀ k a, k.InSync → (f k a).InSync)
    (h : k.InSync) (l : List α) : (l.foldl f k).InSync :=
  foldlRecOn l f h fun k hk a _ => hf k a hk

end InSync

private theorem inSync_initGenesis (oracles : List Oracle) (metrics : List Metric) :
    (initGenesis oracles metrics).InSync := by
  refine .foldl (fun k m hk => hk.setMetric m) (fun id => ?_) metrics
  constructor
  · intro hget
    cases hget
  · rintro ⟨metric, hget, -⟩
    cases hget

/-! ## The scan -/

/-- The scan of ids that are queued. -/
theorem mapM_queuedMetric {ids : List String} (h : ∀ id ∈ ids, k.IsQueued id) :
    ∃ metrics, ids.mapM k.queuedMetric = .ok metrics ∧ metrics.map Metric.metricId = ids ∧
      ∀ m ∈ metrics, k.metrics.get? m.metricId = some m ∧ m.status = .queued := by
  induction ids with
  | nil => exact ⟨[], rfl, rfl, by simp⟩
  | cons id ids ih =>
    obtain ⟨metric, hget, hstatus⟩ := h id mem_cons_self
    obtain ⟨metrics, hrest, hids, hqueued⟩ := ih fun id hid => h id (mem_cons_of_mem _ hid)
    have hid : metric.metricId = id := key_of_get? hget
    have hmetric : k.queuedMetric id = .ok metric := by simp [queuedMetric, hget]
    refine ⟨metric :: metrics, ?_, by rw [map_cons, hid, hids], ?_⟩
    · rw [mapM_cons, hmetric, hrest]
      rfl
    · intro m hm
      rcases mem_cons.mp hm with rfl | hm
      · exact ⟨hid ▸ hget, hstatus⟩
      · exact hqueued m hm

end Keeper

namespace System

variable {s s' : System} {metric : Metric}

private theorem postMetric_keeper (replies : String → Result Unit) (s : System) (metric : Metric) :
    (s.postMetric replies metric).keeper = s.keeper ∨
      (s.postMetric replies metric).keeper = s.keeper.updateMetricStatus metric .inProgress := by
  unfold postMetric
  split
  · exact .inl rfl
  split
  · right
    dsimp only
    split
    · split
      · rename_i hok
        exact (submitMetricUpdate_ok hok).1
      · rfl
    · rfl
  · exact .inl rfl

/-- The turns of other metrics leave a metric as it is. -/
theorem get?_foldl_postMetric {replies : String → Result Unit} {metrics : List Metric} {id : String}
    (h : id ∉ metrics.map Metric.metricId) (s : System) :
    (metrics.foldl (postMetric replies) s).keeper.metrics.get? id = s.keeper.metrics.get? id := by
  induction metrics generalizing s with
  | nil => rfl
  | cons m metrics ih =>
    rw [map_cons, mem_cons, not_or] at h
    rw [foldl_cons, ih h.2]
    rcases s.postMetric_keeper replies m with heq | heq
    · rw [heq]
    · rw [heq]
      exact get?_set_of_ne s.keeper.metrics { m with status := .inProgress } h.1

/-! ## Runs -/

/-- **Step lemma**: queue and statuses stay in step. -/
theorem step_inSync (h : s.keeper.InSync) {e : Event} (hstep : s.step e = some s') :
    s'.keeper.InSync := by
  cases e with
  | queueMetricUpdate =>
    cases hstep
    exact .foldl (fun k _ hk => hk.setMetric _) h _
  | endBlock replies =>
    obtain ⟨metrics, -, hpost⟩ := bind_eq_ok.mp (toOption_eq_some.mp hstep)
    cases hpost
    refine foldlRecOn (motive := fun s : System => s.keeper.InSync) metrics _ h ?_
    intro t ht m _
    rcases t.postMetric_keeper replies m with heq | heq
    · rwa [heq]
    · rw [heq]
      exact ht.setMetric _
  | answer ica status =>
    obtain ⟨_, -, hanswer⟩ := bind_eq_ok.mp (toOption_eq_some.mp hstep)
    obtain ⟨keeper, hcallback, hanswer⟩ := bind_eq_ok.mp hanswer
    cases hanswer
    -- the copy in the callback names the metric, whatever is stored under its id by now
    rcases callICACallback_ok hcallback with ⟨rfl, -⟩ | ⟨m, -, rfl⟩
    · exact h
    · exact h.removeMetric _
  | closeChannel =>
    cases hstep
    exact h
  | restoreOracleICA =>
    obtain ⟨_, _, -, -, -, rfl⟩ := restoreOracleICA_ok (toOption_eq_some.mp hstep)
    exact .foldl (fun k _ hk => hk.setMetric _) h _
  | chanOpenAck =>
    obtain ⟨_, -, hack⟩ := bind_eq_ok.mp (toOption_eq_some.mp hstep)
    dsimp only at hack
    split at hack
    · cases hack
      exact h
    · obtain ⟨_, -, hack⟩ := bind_eq_ok.mp hack
      cases hack
      exact h

private theorem oracleStep_inSync {govAuthority : String} (h : s.keeper.InSync) {e : OracleEvent}
    (hstep : s.oracleStep govAuthority e = some s') : s'.keeper.InSync := by
  cases e with
  | chain e => exact step_inSync h hstep
  | toggleOracle authority oracleChainId active =>
    obtain ⟨_, -, htoggle⟩ := bind_eq_ok.mp (toOption_eq_some.mp hstep)
    obtain ⟨_, -, htoggle⟩ := bind_eq_ok.mp htoggle
    obtain ⟨_, -, htoggle⟩ := bind_eq_ok.mp htoggle
    cases htoggle
    exact h
  | removeOracle =>
    obtain ⟨_, -, hremove⟩ := bind_eq_ok.mp (toOption_eq_some.mp hstep)
    obtain ⟨_, -, hremove⟩ := bind_eq_ok.mp hremove
    cases hremove
    refine .foldl (fun k m hk => hk.removeMetric _) ?_ _
    exact h

/-- **The queue is the set of the queued metrics** in every state. The end blocker goes through, and
    each metric it posts is queued when its turn comes. -/
theorem mem_queue_iff_queued {govAuthority : String} {s₀ : System} {oracles : List Oracle}
    {metrics : List Metric} (hstart : s₀.keeper = .initGenesis oracles metrics)
    (hrun : Reaches (oracleStep govAuthority) (fun _ _ => True) s₀ s) :
    (∀ metricId, metricId ∈ s.keeper.metricQueue.keys ↔
      ∃ metric, s.keeper.metrics.get? metricId = some metric ∧ metric.status = .queued) ∧
    ∃ posted, (∀ metric, metric ∈ posted ↔
        metric ∈ s.keeper.metrics.values ∧ metric.status = .queued) ∧
      ∀ replies, s.postAllQueuedMetrics replies = .ok (posted.foldl (postMetric replies) s) ∧
      ∀ before metric after, posted = before ++ metric :: after →
        (before.foldl (postMetric replies) s).keeper.metrics.get? metric.metricId = some metric ∧
          metric.status = .queued := by
  have hsync : s.keeper.InSync := by
    refine hrun.invariant (I := fun s => s.keeper.InSync) ?_ ?_
    · rw [hstart]
      exact Keeper.inSync_initGenesis oracles metrics
    · intro t e t' ht _ hstep
      exact oracleStep_inSync ht hstep
  have hqueue (id : String) : id ∈ s.keeper.metricQueue.keys ↔ s.keeper.IsQueued id := by
    rw [KVStore.mem_keys_iff, ← hsync id]
    exact ⟨fun ⟨_, hid⟩ => hid, fun hid => ⟨(), hid⟩⟩
  obtain ⟨posted, hscan, hids, hstored⟩ := Keeper.mapM_queuedMetric fun id hid => (hqueue id).mp hid
  refine ⟨hqueue, posted, fun metric => ?_,
    fun replies => ⟨bind_eq_ok.mpr ⟨posted, hscan, rfl⟩, ?_⟩⟩
  · rw [mem_values_iff]
    refine ⟨hstored metric, fun ⟨hget, hstatus⟩ => ?_⟩
    -- the id is in the index, and the scan has found what is stored under it
    have hmem : metric.metricId ∈ posted.map Metric.metricId := by
      rw [hids]
      exact (hqueue _).mpr ⟨metric, hget, hstatus⟩
    obtain ⟨m, hm, hid⟩ := mem_map.mp hmem
    have hgot := (hstored m hm).1
    rw [hid, hget] at hgot
    rwa [Option.some.inj hgot]
  · rintro before metric after rfl
    have hnodup := s.keeper.metricQueue.keys_nodup
    rw [← hids, map_append] at hnodup
    have hfresh : metric.metricId ∉ before.map Metric.metricId := by
      intro hmem
      exact (nodup_append.mp hnodup).2.2 _ hmem _ mem_cons_self rfl
    rw [get?_foldl_postMetric hfresh]
    exact hstored metric (by simp)

/-- An update times out after governance has set its oracle to inactive. -/
def lateRestore : List OracleEvent :=
  [.chain queueRate, .chain (.endBlock sent), .toggleOracle "gov" "juno-1" false,
    .chain (.answer rateUpdate .timeout), .chain (.restoreOracleICA "juno-1" "channel-1")]

/-- The restore queues the metric of an inactive oracle again. -/
theorem mem_queue_iff_queued_restored :
    ∃ s, runAllowed (oracleStep "gov") (fun _ _ => True) junoStart lateRestore = some s ∧
      s.keeper.metricQueue.keys = [rateMetric.metricId] ∧
      ∃ metric, s.keeper.metrics.get? rateMetric.metricId = some metric ∧
        metric.status = .queued := by
  have hstart : junoStart.keeper = .initGenesis [junoOracle] [] := rfl
  exact exists_run_end (by decide +kernel) ⟨by decide +kernel,
    ((mem_queue_iff_queued hstart (.of_get _)).1 _).mp (by decide +kernel)⟩

end System

end Stride.IcaOracle
