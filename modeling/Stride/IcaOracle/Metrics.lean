import Stride.IcaOracle.Keeper
import Stride.Lib.Runs

/-!
# Metrics in Progress

A metric in progress waits for the answer to an update, or for a restore of the channel that puts it
back into the queue. A restore only starts the handshake of the new channel. At the end of the same
block the metrics of the queue are in progress again, without an update, and when the handshake is
complete nothing takes care of them. A metric whose update the controller does not send is left in
progress too.

## Main results

- `Wired`
- `Followed.mono`
- `postMetric_kept`, `answer_kept`, `restoreOracleICA_kept`, `onChanOpenAck_kept`: one lemma for
  each transition
- `no_metric_stranded`
- `restored_metric_stranded`
-/

namespace Stride.IcaOracle

open Lib Sdk KeyedStore

/-! ## Runs -/

inductive Event where
  | queueMetricUpdate (blockTime blockHeight : ℤ) (key value metricType attributes : String)
  | endBlock (replies : String → Result Unit)
  | answer (ica : UpdateIca) (status : System.AckStatus)
  | closeChannel (portId channelId : String)
  | restoreOracleICA (oracleChainId newChannelId : String)
  | chanOpenAck (portId channelId address : String)

namespace System

/-- An event that goes through. -/
def step (s : System) : Event → Option System
  | .queueMetricUpdate blockTime blockHeight key value metricType attributes =>
    some { s with
      keeper := s.keeper.queueMetricUpdate blockTime blockHeight key value metricType attributes }
  | .endBlock replies => (s.postAllQueuedMetrics replies).toOption
  | .answer ica status => (s.answer ica status).toOption
  | .closeChannel portId channelId => some { s with ibc := s.ibc.closeChannel portId channelId }
  | .restoreOracleICA oracleChainId newChannelId =>
    (s.restoreOracleICA oracleChainId newChannelId).toOption
  | .chanOpenAck portId channelId address => (s.onChanOpenAck portId channelId address).toOption

/-- An update of the metric is outstanding on the channel of the oracle. -/
def HasUpdate (s : System) (oracle : Oracle) (metricId : String) : Prop :=
  ∃ ica ∈ s.outstanding, ica.portId = oracle.portId ∧ ica.channelId = oracle.channelId ∧
    ∃ metric, ica.callback = some metric ∧ metric.metricId = metricId

/-- An update is outstanding, or the channel is not open, so that it can be restored. -/
def Followed (s : System) (metric : Metric) : Prop :=
  ∀ oracle, s.keeper.oracles.get? metric.destinationOracle = some oracle →
    oracle.active = true → oracle.contractAddress ≠ "" →
    s.isOracleICAChannelOpen oracle = true → s.HasUpdate oracle metric.metricId

def NoneStranded (s : System) : Prop :=
  ∀ metric ∈ s.keeper.metrics.values, metric.status = .inProgress → s.Followed metric

/-- The controller sends what is posted on an open channel, and a handshake finds no metric of its
    oracle in progress. -/
def Undisturbed (s : System) : Event → Prop
  | .endBlock replies => ∀ metrics, s.keeper.getAllQueuedMetrics = .ok metrics →
    ∀ metric ∈ metrics, replies metric.metricId = .ok ()
  | .chanOpenAck portId channelId _ => ∀ channel oracle,
    s.ibc.channel portId channelId = some channel →
    oracleOfChannel s.keeper channel.connectionId portId = some oracle →
    ∀ metric ∈ s.keeper.metrics.values, metric.destinationOracle = oracle.chainId →
      metric.status ≠ .inProgress
  | _ => True

instance (s : System) (e : Event) : Decidable (s.Undisturbed e) := by
  apply @Event.casesOn _ e <;> intros <;> dsimp only [Undisturbed] <;> infer_instance

/-- The channels that are recorded on the oracles, and those in handshake. -/
structure Wired (s : System) : Prop where
  /-- an open channel of an oracle is the active one of its account -/
  ready : ∀ chainId oracle, s.keeper.oracles.get? chainId = some oracle →
    s.isOracleICAChannelOpen oracle = true → oracle.connectionId ≠ "" ∧ oracle.channelId ≠ "" ∧
      oracle.icaAddress ≠ "" ∧ oracle.portId = oraclePort oracle.chainId ∧
      s.ibc.activeChannel oracle.connectionId oracle.portId = some oracle.channelId
  /-- the channel of an oracle is not in handshake -/
  recorded : ∀ chainId oracle channel, s.keeper.oracles.get? chainId = some oracle →
    s.ibc.channel oracle.portId oracle.channelId = some channel → channel.state ≠ .init
  exists_recorded : ∀ chainId oracle, s.keeper.oracles.get? chainId = some oracle →
    oracle.channelId ≠ "" → (s.ibc.channel oracle.portId oracle.channelId).isSome = true
  handshake : ∀ portId channelId channel, s.ibc.channel portId channelId = some channel →
    channel.state = .init → channelId ≠ "" ∧ channel.connectionId ≠ ""

def Kept (s : System) : Prop := s.Wired ∧ s.NoneStranded

variable {s s' : System} {metric : Metric}

/-! ## What keeps a metric followed -/

theorem Followed.mono (h : s.Followed metric) (horacles : s'.keeper.oracles = s.keeper.oracles)
    (hopen : ∀ p c, s'.ibc.isOpen p c = true → s.ibc.isOpen p c = true)
    (hout : ∀ ica ∈ s.outstanding, ica ∈ s'.outstanding) : s'.Followed metric := by
  intro oracle horacle hactive hcontract hchannel
  rw [horacles] at horacle
  obtain ⟨ica, hica, hrest⟩ := h oracle horacle hactive hcontract (hopen _ _ hchannel)
  exact ⟨ica, hout ica hica, hrest⟩

/-- The oracles are the same, no channel is opened, and a channel in handshake was in handshake or
    is a new one. -/
theorem Wired.mono (h : s.Wired) (horacles : s'.keeper.oracles = s.keeper.oracles)
    (hactive : s'.ibc.activeChannel = s.ibc.activeChannel)
    (hopen : ∀ p c, s'.ibc.isOpen p c = true → s.ibc.isOpen p c = true)
    (hsome : ∀ p c, (s.ibc.channel p c).isSome = true → (s'.ibc.channel p c).isSome = true)
    (hinit : ∀ p c channel, s'.ibc.channel p c = some channel → channel.state = .init →
      s.ibc.channel p c = some channel ∨
        s.ibc.channel p c = none ∧ c ≠ "" ∧ channel.connectionId ≠ "") : s'.Wired := by
  refine ⟨?_, ?_, ?_, ?_⟩
  · rw [horacles, hactive]
    exact fun chainId oracle horacle hisOpen => h.ready chainId oracle horacle (hopen _ _ hisOpen)
  · rw [horacles]
    intro chainId oracle channel horacle hchannel hstate
    rcases hinit _ _ channel hchannel hstate with hold | ⟨hnone, hne, -⟩
    · exact h.recorded chainId oracle channel horacle hold hstate
    · have hrecorded := h.exists_recorded chainId oracle horacle hne
      rw [hnone] at hrecorded
      cases hrecorded
  · rw [horacles]
    exact fun chainId oracle horacle hne => hsome _ _ (h.exists_recorded chainId oracle horacle hne)
  · intro p c channel hchannel hstate
    rcases hinit p c channel hchannel hstate with hold | ⟨-, hnew⟩
    · exact h.handshake p c channel hold hstate
    · exact hnew

private theorem Wired.congr (h : s.Wired) (horacles : s'.keeper.oracles = s.keeper.oracles)
    (hchannel : s'.ibc.channel = s.ibc.channel)
    (hactive : s'.ibc.activeChannel = s.ibc.activeChannel) : s'.Wired := by
  refine h.mono horacles hactive ?_ ?_ ?_
  · simp only [Ibc.isOpen, hchannel, imp_self, implies_true]
  · simp only [hchannel, imp_self, implies_true]
  · rw [hchannel]
    exact fun _ _ _ hold _ => .inl hold

/-- A metric in progress was in progress before, or it is followed now. -/
theorem Kept.of_metrics (hkept : s.Kept) (horacles : s'.keeper.oracles = s.keeper.oracles)
    (hmetrics : ∀ metric ∈ s'.keeper.metrics.values, metric.status = .inProgress →
      metric ∈ s.keeper.metrics.values ∨ s'.Followed metric)
    (hchannel : s'.ibc.channel = s.ibc.channel)
    (hactive : s'.ibc.activeChannel = s.ibc.activeChannel)
    (hout : ∀ ica ∈ s.outstanding, ica ∈ s'.outstanding) : s'.Kept := by
  refine ⟨hkept.1.congr horacles hchannel hactive, ?_⟩
  intro metric hmetric hstatus
  rcases hmetrics metric hmetric hstatus with hold | hfollowed
  · refine (hkept.2 metric hold hstatus).mono horacles ?_ hout
    simp only [Ibc.isOpen, hchannel, imp_self, implies_true]
  · exact hfollowed

/-! ## Queues -/

variable {status : AckStatus} {ibc : Ibc} {k : Keeper} {oracle : Oracle} {reply : Result Unit}
  {replies : String → Result Unit}
  {address channelId newChannelId oracleChainId portId : String}

private theorem inProgress_setMetric {new : Metric} (hnew : new.status = .queued)
    (hmetric : metric ∈ (k.setMetric new).metrics.values) (hstatus : metric.status = .inProgress) :
    metric ∈ k.metrics.values := by
  rcases mem_values_set hmetric with rfl | hold
  · rw [hnew] at hstatus
    cases hstatus
  · exact hold

/-- **Loop lemma**: writes of queued metrics put nothing in progress. -/
theorem inProgress_foldl_setMetric {α : Type} {f : α → Metric} (hf : ∀ a, (f a).status = .queued)
    (l : List α) (k : Keeper) :
    (l.foldl (fun k a => k.setMetric (f a)) k).oracles = k.oracles ∧
      ∀ metric ∈ (l.foldl (fun k a => k.setMetric (f a)) k).metrics.values,
        metric.status = .inProgress → metric ∈ k.metrics.values := by
  induction l generalizing k with
  | nil => exact ⟨rfl, fun _ h _ => h⟩
  | cons a l ih =>
    obtain ⟨horacles, hmetrics⟩ := ih (k.setMetric (f a))
    refine ⟨horacles, ?_⟩
    intro metric hmetric hstatus
    exact inProgress_setMetric (hf a) (hmetrics metric hmetric hstatus) hstatus

private theorem queueMetricUpdate_kept (hkept : s.Kept) {blockTime blockHeight : ℤ}
    {key value metricType attributes : String} :
    Kept { s with
      keeper := s.keeper.queueMetricUpdate blockTime blockHeight key value metricType
        attributes } := by
  obtain ⟨horacles, hmetrics⟩ := inProgress_foldl_setMetric
    (f := fun oracle : Oracle => Metric.mk key value metricType blockTime blockHeight attributes
      oracle.chainId .queued) (fun _ => rfl) (s.keeper.oracles.values.filter fun o => o.active)
    s.keeper
  exact hkept.of_metrics horacles (fun m hm hstatus => .inl (hmetrics m hm hstatus)) rfl rfl
    fun _ h => h

/-! ## The end of a block -/

theorem submitMetricUpdate_ok (h : s.submitMetricUpdate reply oracle metric = .ok s') :
    s'.keeper = s.keeper ∧ s'.ibc.channel = s.ibc.channel ∧
      s'.ibc.activeChannel = s.ibc.activeChannel ∧
      ∀ ica ∈ s.outstanding, ica ∈ s'.outstanding := by
  obtain ⟨_, -, h⟩ := bind_eq_ok.mp h
  obtain ⟨_, -, h⟩ := bind_eq_ok.mp h
  obtain ⟨_, -, h⟩ := bind_eq_ok.mp h
  have h := wrapError_eq_ok.mp h
  obtain ⟨_, -, h⟩ := bind_eq_ok.mp h
  obtain ⟨_, -, h⟩ := bind_eq_ok.mp h
  obtain ⟨_, -, h⟩ := bind_eq_ok.mp h
  obtain ⟨⟨ibc, channelId, sequence⟩, hsend, h⟩ := bind_eq_ok.mp h
  cases h
  replace hsend := wrapError_eq_ok.mp hsend
  unfold Ibc.sendTx at hsend
  split at hsend
  · cases hsend
  split at hsend
  · obtain ⟨_, -, hsend⟩ := bind_eq_ok.mp hsend
    cases hsend
    exact ⟨rfl, rfl, rfl, fun ica hica => List.mem_append_left _ hica⟩
  · cases hsend

/-- With a contract, an update is outstanding on the channel if the controller sends it. -/
theorem Wired.hasUpdate_submit (h : s.Wired) (hreply : reply = .ok ()) (metric : Metric)
    {chainId : String}
    (horacle : s.keeper.oracles.get? chainId = some oracle) (hactive : oracle.active = true)
    (hcontract : oracle.contractAddress ≠ "") (hopen : s.isOracleICAChannelOpen oracle = true) :
    ∃ s', s.submitMetricUpdate reply oracle metric = .ok s' ∧
      s'.HasUpdate oracle metric.metricId := by
  obtain ⟨hconnection, hchannel, haddress, hport, hchannelActive⟩ :=
    h.ready chainId oracle horacle hopen
  have hportNe : oracle.portId ≠ "" := by
    rw [hport]
    intro hempty
    have hlength := congrArg String.length hempty
    simp [oraclePort, formatICAAccountOwner, String.length_append] at hlength
  -- an oracle with an open channel passes every check
  have hsetup : oracle.validateICASetup = .ok () :=
    bind_eq_ok.mpr ⟨(), require_eq_ok.mpr hconnection,
      bind_eq_ok.mpr ⟨(), require_eq_ok.mpr hchannel,
      bind_eq_ok.mpr ⟨(), require_eq_ok.mpr hportNe, require_eq_ok.mpr haddress⟩⟩⟩
  have hsend : ∃ ibc sequence, s.ibc.sendTx reply oracle.connectionId (oraclePort oracle.chainId) =
      .ok (ibc, oracle.channelId, sequence) := by
    unfold Ibc.sendTx
    rw [← hport, hchannelActive, hreply]
    exact ⟨_, _, if_pos hopen⟩
  obtain ⟨ibc, sequence, hsend⟩ := hsend
  have hsubmit : s.submitICATx reply oracle metric = .ok { s with
      ibc := ibc
      outstanding := s.outstanding ++
        [⟨oraclePort oracle.chainId, oracle.channelId, sequence, some metric⟩] } := by
    refine bind_eq_ok.mpr ⟨(), require_eq_ok.mpr hconnection, bind_eq_ok.mpr ⟨(),
      require_eq_ok.mpr hchannel, bind_eq_ok.mpr ⟨(), require_eq_ok.mpr hportNe,
        bind_eq_ok.mpr ⟨_, wrapError_eq_ok.mpr hsend, ?_⟩⟩⟩⟩
    dsimp only
    rw [if_pos ⟨hport, rfl⟩]
    rfl
  refine ⟨_, bind_eq_ok.mpr ⟨(), hsetup, bind_eq_ok.mpr ⟨(), require_eq_ok.mpr hcontract,
    bind_eq_ok.mpr ⟨(), require_eq_ok.mpr hactive, wrapError_eq_ok.mpr hsubmit⟩⟩⟩, ?_⟩
  exact ⟨_, List.mem_append_right _ (List.mem_singleton.mpr rfl), hport.symm, rfl, metric, rfl, rfl⟩

/-- **Posting**: the metric is in progress, and on an open channel its update is sent. -/
theorem postMetric_kept (hkept : s.Kept) (hreply : replies metric.metricId = .ok ()) :
    (s.postMetric replies metric).Kept := by
  unfold postMetric
  split
  · exact hkept
  rename_i oracle horacle
  split
  swap
  · exact hkept
  rename_i hactive
  have hwired : Wired { s with keeper := s.keeper.updateMetricStatus metric .inProgress } :=
    hkept.1.congr rfl rfl rfl
  -- the other metrics are followed as before
  have hposted {s' : System} (hkeeper : s'.keeper = s.keeper.updateMetricStatus metric .inProgress)
      (hchannel : s'.ibc.channel = s.ibc.channel)
      (hactiveChannel : s'.ibc.activeChannel = s.ibc.activeChannel)
      (hout : ∀ ica ∈ s.outstanding, ica ∈ s'.outstanding)
      (hnew : oracle.contractAddress ≠ "" → s'.isOracleICAChannelOpen oracle = true →
        s'.HasUpdate oracle metric.metricId) : s'.Kept := by
    refine hkept.of_metrics (by rw [hkeeper]; rfl) (fun m hm _ => ?_) hchannel hactiveChannel hout
    rw [hkeeper] at hm
    refine (mem_values_set hm).symm.imp_right ?_
    rintro rfl oracle' horacle' _ hcontract hopen
    rw [hkeeper] at horacle'
    cases horacle.symm.trans horacle'
    exact hnew hcontract hopen
  dsimp only
  split
  · rename_i hopen
    -- with a contract the submission goes through, as the controller sends it
    have hsent (hcontract : oracle.contractAddress ≠ "") :=
      hwired.hasUpdate_submit hreply metric horacle hactive hcontract hopen
    split
    · rename_i s₂ hsubmit
      obtain ⟨hkeeper, hchannel, hactiveChannel, hout⟩ := submitMetricUpdate_ok hsubmit
      refine hposted hkeeper hchannel hactiveChannel hout fun hcontract _ => ?_
      obtain ⟨_, hsubmit', hupdate⟩ := hsent hcontract
      cases hsubmit.symm.trans hsubmit'
      exact hupdate
    · rename_i hsubmit
      refine hposted rfl rfl rfl (fun _ h => h) fun hcontract _ => ?_
      obtain ⟨_, hsubmit', -⟩ := hsent hcontract
      cases hsubmit.symm.trans hsubmit'
  · rename_i hclosed
    exact hposted rfl rfl rfl (fun _ h => h) fun _ hopen => absurd hopen hclosed

/-- **The end of a block** keeps what every posting keeps. -/
theorem foldl_postMetric_kept (hkept : s.Kept) {metrics : List Metric}
    (hreplies : ∀ metric ∈ metrics, replies metric.metricId = .ok ()) :
    (metrics.foldl (postMetric replies) s).Kept :=
  List.foldlRecOn metrics _ hkept fun _ ht metric hmetric =>
    postMetric_kept ht (hreplies metric hmetric)

/-! ## Channels -/

private theorem channel_closeChannel (ibc : Ibc) (portId channelId p c : String) :
    (ibc.closeChannel portId channelId).channel p c = (ibc.channel p c).map fun channel =>
      if p = portId ∧ c = channelId then { channel with state := .closed } else channel := by
  unfold Ibc.closeChannel
  by_cases hsame : p = portId ∧ c = channelId
  · obtain ⟨rfl, rfl⟩ := hsame
    cases hchannel : ibc.channel p c <;> simp [Ibc.setChannel, hchannel]
  · cases hchannel : ibc.channel portId channelId <;> simp [Ibc.setChannel, hsame]

private theorem isOpen_closeChannel {p c : String}
    (h : (ibc.closeChannel portId channelId).isOpen p c = true) :
    ibc.isOpen p c = true ∧ ¬ (p = portId ∧ c = channelId) := by
  rw [Ibc.isOpen, channel_closeChannel, Option.any_map] at h
  by_cases hsame : p = portId ∧ c = channelId
  · simp [hsame] at h
  · exact ⟨by simpa [hsame, Function.comp_def, Ibc.isOpen] using h, hsame⟩

private theorem Wired.closeChannel (h : s.Wired) (horacles : s'.keeper.oracles = s.keeper.oracles)
    (hibc : s'.ibc = s.ibc.closeChannel portId channelId) : s'.Wired := by
  refine h.mono horacles ?_ ?_ ?_ ?_
  · rw [hibc, Ibc.closeChannel]
    split <;> rfl
  · rw [hibc]
    exact fun p c hopen => (isOpen_closeChannel hopen).1
  · simp [hibc, channel_closeChannel]
  · intro p c channel hchannel hinit
    rw [hibc, channel_closeChannel] at hchannel
    obtain ⟨old, hold, rfl⟩ := Option.map_eq_some_iff.mp hchannel
    split at hinit
    · cases hinit
    · rename_i hother
      rw [if_neg hother]
      exact .inl hold

private theorem closeChannel_kept (hkept : s.Kept) (portId channelId : String) :
    Kept { s with ibc := s.ibc.closeChannel portId channelId } := by
  refine ⟨hkept.1.closeChannel rfl rfl, ?_⟩
  intro metric hmetric hstatus
  exact (hkept.2 metric hmetric hstatus).mono rfl (fun _ _ h => (isOpen_closeChannel h).1)
    fun _ h => h

/-! ## Answers -/

/-- A callback removes the metric of its update, unless the update timed out. -/
theorem callICACallback_ok {k' : Keeper} {callback : Option Metric}
    (h : callICACallback k status callback = .ok k') :
    k' = k ∧ (status = .timeout ∨ callback = none) ∨
      ∃ m, callback = some m ∧ k' = k.removeMetric m.metricId := by
  cases callback with
  | none =>
    cases h
    exact .inl ⟨rfl, .inr rfl⟩
  | some m =>
    unfold callICACallback updateOracleCallback at h
    dsimp only at h
    split at h
    · rename_i htimeout
      cases h
      exact .inl ⟨rfl, .inl htimeout⟩
    · split at h
      · cases h
      cases h
      exact .inr ⟨m, rfl, rfl⟩

/-- **An answer** settles the metric of its update, or closes the channel. -/
theorem answer_kept (hkept : s.Kept) {ica : UpdateIca} (h : s.answer ica status = .ok s') :
    s'.Kept := by
  obtain ⟨_, -, h⟩ := bind_eq_ok.mp h
  obtain ⟨keeper, hcallback, h⟩ := bind_eq_ok.mp h
  cases h
  have hcases := callICACallback_ok hcallback
  have horacles : keeper.oracles = s.keeper.oracles := by
    rcases hcases with ⟨rfl, -⟩ | ⟨m, -, rfl⟩
    · rfl
    · rfl
  have hmetrics : ∀ m ∈ keeper.metrics.values, m ∈ s.keeper.metrics.values := by
    intro m hm
    rcases hcases with ⟨rfl, -⟩ | ⟨_, -, rfl⟩
    · exact hm
    · exact mem_values_delete hm
  refine ⟨?_, ?_⟩
  · by_cases htimeout : status = .timeout
    · exact hkept.1.closeChannel horacles (if_pos htimeout)
    · exact hkept.1.congr horacles (by rw [if_neg htimeout]) (by rw [if_neg htimeout])
  · intro metric hmetric hstatus oracle horacle hactive hcontract hopen
    rw [horacles] at horacle
    have hbefore : s.isOracleICAChannelOpen oracle = true := by
      split at hopen
      · exact (isOpen_closeChannel hopen).1
      · exact hopen
    obtain ⟨ica', hica', hport, hchannel, metric', hcallback', hid⟩ :=
      hkept.2 metric (hmetrics metric hmetric) hstatus oracle horacle hactive hcontract hbefore
    -- the update of the metric is another one than the one that was answered
    have hne : ica' ≠ ica := by
      rintro rfl
      by_cases htimeout : status = .timeout
      · rw [if_pos htimeout] at hopen
        exact (isOpen_closeChannel hopen).2 ⟨hport.symm, hchannel.symm⟩
      · rcases hcases with ⟨-, hnone⟩ | ⟨m, hm, rfl⟩
        · rcases hnone with htimeout' | hnone
          · exact htimeout htimeout'
          · rw [hcallback'] at hnone
            cases hnone
        · rw [hcallback'] at hm
          cases hm
          have hget := mem_values_iff.mp hmetric
          rw [← hid] at hget
          dsimp only [Keeper.removeMetric] at hget
          rw [get?_delete_self] at hget
          cases hget
    exact ⟨ica', (List.mem_erase_of_ne hne).mpr hica', hport, hchannel, metric', hcallback', hid⟩

/-! ## Restores and handshakes -/

theorem restoreOracleICA_ok (h : s.restoreOracleICA oracleChainId newChannelId = .ok s') :
    ∃ connectionId portId, connectionId ≠ "" ∧ newChannelId ≠ "" ∧
      s.ibc.channel portId newChannelId = none ∧
      s' = { s with
        keeper := requeueMetrics s.keeper oracleChainId
        ibc := s.ibc.setChannel portId newChannelId ⟨.init, connectionId⟩ } := by
  obtain ⟨oracle, -, h⟩ := bind_eq_ok.mp h
  obtain ⟨_, hsetup, h⟩ := bind_eq_ok.mp h
  obtain ⟨_, -, h⟩ := bind_eq_ok.mp h
  obtain ⟨_, -, h⟩ := bind_eq_ok.mp h
  obtain ⟨_, -, h⟩ := bind_eq_ok.mp h
  obtain ⟨ibc, hregister, h⟩ := bind_eq_ok.mp h
  cases h
  have hregister := wrapError_eq_ok.mp hregister
  obtain ⟨_, -, hregister⟩ := bind_eq_ok.mp hregister
  obtain ⟨_, hnew, hregister⟩ := bind_eq_ok.mp hregister
  cases hregister
  obtain ⟨hne, hnone⟩ := require_eq_ok.mp hnew
  have hsetup := wrapError_eq_ok.mp hsetup
  obtain ⟨_, hconnection, -⟩ := bind_eq_ok.mp hsetup
  exact ⟨oracle.connectionId, oraclePort oracle.chainId, require_eq_ok.mp hconnection, hne,
    Option.isNone_iff_eq_none.mp hnone, rfl⟩

/-- **A restore** puts the metrics of its oracle back into the queue. -/
theorem restoreOracleICA_kept (hkept : s.Kept)
    (h : s.restoreOracleICA oracleChainId newChannelId = .ok s') : s'.Kept := by
  obtain ⟨connectionId, portId, hconnection, hne, hnone, rfl⟩ := restoreOracleICA_ok h
  obtain ⟨horacles, hmetrics⟩ := inProgress_foldl_setMetric
    (f := fun m : Metric => { m with status := .queued }) (fun _ => rfl)
    (s.keeper.metrics.values.filter fun metric =>
      metric.destinationOracle = oracleChainId ∧ metric.status = .inProgress) s.keeper
  have hopen : ∀ p c, (s.ibc.setChannel portId newChannelId ⟨.init, connectionId⟩).isOpen p c =
      true → s.ibc.isOpen p c = true := by
    intro p c hisOpen
    unfold Ibc.isOpen Ibc.setChannel at hisOpen
    dsimp only at hisOpen
    split at hisOpen
    · cases hisOpen
    exact hisOpen
  refine ⟨hkept.1.mono horacles rfl hopen ?_ ?_, fun metric hmetric hstatus =>
    (hkept.2 metric (hmetrics metric hmetric hstatus) hstatus).mono horacles hopen fun _ h => h⟩
  · intro p c hsome
    dsimp only [Ibc.setChannel]
    split
    · rfl
    · exact hsome
  · -- the new channel has an identifier that no channel had
    intro p c channel hchannel hinit
    dsimp only [Ibc.setChannel] at hchannel
    split at hchannel
    · rename_i hsame
      cases hchannel
      obtain ⟨rfl, rfl⟩ := hsame
      exact .inr ⟨hnone, hne, hconnection⟩
    · exact .inl hchannel

private theorem ibc_onChanOpenAck_ok {ibc' : Ibc} {connectionId : String}
    (h : ibc.onChanOpenAck portId channelId address = .ok (ibc', connectionId)) :
    ∃ channel, ibc.channel portId channelId = some channel ∧ channel.state = .init ∧
      channel.connectionId = connectionId ∧ address ≠ "" ∧
      (∀ c, ibc.activeChannel connectionId portId = some c → ibc.isOpen portId c = false) ∧
      ibc'.channel = (ibc.setChannel portId channelId { channel with state := .opened }).channel ∧
      ibc'.activeChannel = (fun conn p => if conn = connectionId ∧ p = portId then some channelId
        else ibc.activeChannel conn p) ∧
      ibc'.interchainAccount connectionId portId = some address := by
  obtain ⟨channel, hchannel, h⟩ := bind_eq_ok.mp h
  obtain ⟨_, hactive, h⟩ := bind_eq_ok.mp h
  obtain ⟨_, haddress, h⟩ := bind_eq_ok.mp h
  cases h
  unfold Ibc.initChannel at hchannel
  split at hchannel
  · rename_i found hfound
    split at hchannel
    · rename_i hinit
      cases hchannel
      refine ⟨channel, hfound, hinit, rfl, require_eq_ok.mp haddress, ?_, rfl, rfl, ?_⟩
      · intro c hc
        have hnone := require_eq_ok.mp hactive
        rw [hc] at hnone
        exact Bool.eq_false_iff.mpr hnone
      · exact if_pos ⟨rfl, rfl⟩
    · cases hchannel
  · cases hchannel

/-- A handshake writes the oracle of its channel at most. -/
theorem onChanOpenAck_ok (h : s.onChanOpenAck portId channelId address = .ok s') :
    ∃ ibc connectionId, s.ibc.onChanOpenAck portId channelId address = .ok (ibc, connectionId) ∧
      s'.ibc = ibc ∧ s'.outstanding = s.outstanding ∧ s'.keeper.metrics = s.keeper.metrics ∧
      (oracleOfChannel s.keeper connectionId portId = none ∧
          s'.keeper.oracles = s.keeper.oracles ∨
        ∃ oracle, oracleOfChannel s.keeper connectionId portId = some oracle ∧
          s'.keeper.oracles = s.keeper.oracles.set { oracle with
            icaAddress := address, channelId := channelId, portId := portId }) := by
  obtain ⟨⟨ibc, connectionId⟩, hack, h⟩ := bind_eq_ok.mp h
  refine ⟨ibc, connectionId, hack, ?_⟩
  dsimp only at h
  split at h
  · rename_i hnone
    cases h
    exact ⟨rfl, rfl, rfl, .inl ⟨hnone, rfl⟩⟩
  · rename_i oracle hsome
    obtain ⟨icaAddress, haccount, h⟩ := bind_eq_ok.mp h
    cases h
    obtain ⟨_, -, -, -, -, -, -, -, haddress⟩ := ibc_onChanOpenAck_ok hack
    unfold findAccount at haccount
    rw [haddress] at haccount
    cases haccount
    exact ⟨rfl, rfl, rfl, .inr ⟨oracle, hsome, rfl⟩⟩

/-- **A handshake** that finds no metric of its oracle in progress. -/
theorem onChanOpenAck_kept (hkept : s.Kept)
    (hok : s.Undisturbed (.chanOpenAck portId channelId address))
    (h : s.onChanOpenAck portId channelId address = .ok s') : s'.Kept := by
  obtain ⟨ibc, connectionId, hack, hibc, hout, hmetrics, horacles⟩ := onChanOpenAck_ok h
  obtain ⟨channel, hchannel, hinit, rfl, haddress, hinactive, hchannels, hactives, -⟩ :=
    ibc_onChanOpenAck_ok hack
  subst hibc
  obtain ⟨hchannelNe, hconnectionNe⟩ := hkept.1.handshake portId channelId channel hchannel hinit
  -- no oracle has recorded a channel in handshake, so that the recorded ones stay as they are
  have hsame : ∀ chainId oracle, s.keeper.oracles.get? chainId = some oracle →
      s'.ibc.channel oracle.portId oracle.channelId =
        s.ibc.channel oracle.portId oracle.channelId := by
    intro chainId oracle horacle
    rw [hchannels]
    refine if_neg ?_
    rintro ⟨hport, hid⟩
    refine hkept.1.recorded chainId oracle channel horacle ?_ hinit
    rw [hport, hid]
    exact hchannel
  have hopenSame : ∀ chainId oracle, s.keeper.oracles.get? chainId = some oracle →
      s'.isOracleICAChannelOpen oracle = s.isOracleICAChannelOpen oracle := by
    intro chainId oracle horacle
    unfold isOracleICAChannelOpen Ibc.isOpen
    rw [hsame chainId oracle horacle]
  -- an oracle is an old one, or the one of the channel
  have hcases : ∀ chainId oracle, s'.keeper.oracles.get? chainId = some oracle →
      s.keeper.oracles.get? chainId = some oracle ∨ ∃ old,
        oracleOfChannel s.keeper channel.connectionId portId = some old ∧
          chainId = old.chainId ∧ oracle = { old with
            icaAddress := address, channelId := channelId, portId := portId } := by
    intro chainId oracle horacle
    rcases horacles with ⟨-, hold⟩ | ⟨old, hold, hset⟩
    · rw [hold] at horacle
      exact .inl horacle
    · rw [hset, get?_set] at horacle
      split at horacle
      · rename_i hid
        cases horacle
        exact .inr ⟨old, hold, hid, rfl⟩
      · exact .inl horacle
  have hopened : s'.ibc.channel portId channelId = some { channel with state := .opened } := by
    rw [hchannels]
    exact if_pos ⟨rfl, rfl⟩
  have hport : ∀ old, oracleOfChannel s.keeper channel.connectionId portId = some old →
      old.connectionId = channel.connectionId ∧ portId = oraclePort old.chainId := by
    intro old hold
    obtain ⟨hfind, hport⟩ := Option.filter_eq_some_iff.mp hold
    have hconnection := List.find?_some hfind
    exact ⟨of_decide_eq_true hconnection, of_decide_eq_true hport⟩
  refine ⟨⟨?_, ?_, ?_, ?_⟩, ?_⟩
  · intro chainId oracle horacle hisOpen
    rcases hcases chainId oracle horacle with hold | ⟨old, hold, -, rfl⟩
    · rw [hopenSame chainId oracle hold] at hisOpen
      obtain ⟨hconn, hid, haddr, hport', hactive⟩ := hkept.1.ready chainId oracle hold hisOpen
      refine ⟨hconn, hid, haddr, hport', ?_⟩
      rw [hactives]
      dsimp only
      -- the controller refuses a second channel while one is open
      rw [if_neg]
      · exact hactive
      · rintro ⟨hconn', hport''⟩
        rw [hconn', hport''] at hactive
        have hclosed := hinactive oracle.channelId hactive
        unfold isOracleICAChannelOpen at hisOpen
        rw [hport'', hclosed] at hisOpen
        cases hisOpen
    · obtain ⟨hconn, hport'⟩ := hport old hold
      refine ⟨by rw [hconn]; exact hconnectionNe, hchannelNe, haddress, hport', ?_⟩
      rw [hactives]
      exact if_pos ⟨hconn, rfl⟩
  · intro chainId oracle channel' horacle hchannel'
    rcases hcases chainId oracle horacle with hold | ⟨old, -, -, rfl⟩
    · rw [hsame chainId oracle hold] at hchannel'
      exact hkept.1.recorded chainId oracle channel' hold hchannel'
    · rw [hopened] at hchannel'
      cases hchannel'
      exact fun hinit => by cases hinit
  · intro chainId oracle horacle hne
    rcases hcases chainId oracle horacle with hold | ⟨old, -, -, rfl⟩
    · rw [hsame chainId oracle hold]
      exact hkept.1.exists_recorded chainId oracle hold hne
    · rw [hopened]
      rfl
  · intro p c channel' hchannel' hinit'
    rw [hchannels] at hchannel'
    dsimp only [Ibc.setChannel] at hchannel'
    split at hchannel'
    · cases hchannel'
      cases hinit'
    · exact hkept.1.handshake p c channel' hchannel' hinit'
  · intro metric hmetric hstatus oracle horacle hactive hcontract hisOpen
    rw [hmetrics] at hmetric
    rcases hcases metric.destinationOracle oracle horacle with hold | ⟨old, hold, hid, rfl⟩
    · rw [hopenSame _ oracle hold] at hisOpen
      obtain ⟨ica, hica, hrest⟩ :=
        hkept.2 metric hmetric hstatus oracle hold hactive hcontract hisOpen
      rw [← hout] at hica
      exact ⟨ica, hica, hrest⟩
    · exact absurd hstatus (hok channel old hchannel hold metric hmetric hid)

/-! ## Runs -/

private theorem step_kept (hkept : s.Kept) {e : Event} (hok : s.Undisturbed e)
    (hstep : s.step e = some s') : s'.Kept := by
  cases e with
  | queueMetricUpdate blockTime blockHeight key value metricType attributes =>
    cases hstep
    exact queueMetricUpdate_kept hkept
  | endBlock replies =>
    obtain ⟨metrics, hmetrics, hpost⟩ := bind_eq_ok.mp (toOption_eq_some.mp hstep)
    cases hpost
    exact foldl_postMetric_kept hkept (hok metrics hmetrics)
  | answer ica status => exact answer_kept hkept (toOption_eq_some.mp hstep)
  | closeChannel portId channelId =>
    cases hstep
    exact closeChannel_kept hkept portId channelId
  | restoreOracleICA oracleChainId newChannelId =>
    exact restoreOracleICA_kept hkept (toOption_eq_some.mp hstep)
  | chanOpenAck portId channelId address =>
    exact onChanOpenAck_kept hkept hok (toOption_eq_some.mp hstep)

/-- **No metric is stranded**, along every run in which the controller sends what is posted on an
    open channel and handshakes find no metric of their oracle in progress. -/
theorem no_metric_stranded {s₀ : System} (hwired : s₀.Wired) (hstart : s₀.NoneStranded)
    (hrun : Reaches step Undisturbed s₀ s) : s.NoneStranded := by
  have hkept : s.Kept := by
    refine hrun.invariant (I := Kept) ⟨hwired, hstart⟩ ?_
    intro t e t' hkept hok hstep
    exact step_kept hkept hok hstep
  exact hkept.2

/-! ### A restore -/

def junoPort : String := oraclePort "juno-1"

def junoOracle : Oracle where
  chainId := "juno-1"
  connectionId := "connection-1"
  channelId := "channel-0"
  portId := junoPort
  icaAddress := "juno1ica"
  contractAddress := "juno1contract"
  active := true

/-- One oracle, with an open channel and without metrics. -/
def junoStart : System where
  keeper :=
    { oracles := empty.set junoOracle
      metrics := empty
      metricQueue := KVStore.empty }
  ibc :=
    { channel := fun p c =>
        if p = junoPort ∧ c = "channel-0" then some ⟨.opened, "connection-1"⟩ else none
      connectionExists := fun connectionId => connectionId = "connection-1"
      activeChannel := fun conn p =>
        if conn = "connection-1" ∧ p = junoPort then some "channel-0" else none
      interchainAccount := fun conn p =>
        if conn = "connection-1" ∧ p = junoPort then some "juno1ica" else none
      nextSequence := fun _ _ => 1 }
  outstanding := []

def rateMetric : Metric where
  key := "stjuno_redemption_rate"
  value := "1.2"
  metricType := "redemption_rate"
  updateTime := 100
  blockHeight := 10
  attributes := "{}"
  destinationOracle := "juno-1"
  status := .queued

def queueRate : Event :=
  .queueMetricUpdate 100 10 "stjuno_redemption_rate" "1.2" "redemption_rate" "{}"

/-- The update of the rate, sent on the first channel. -/
def rateUpdate : UpdateIca := ⟨junoPort, "channel-0", 1, some rateMetric⟩

private theorem junoStart_wired : junoStart.Wired := by
  have hone : ∀ chainId oracle, junoStart.keeper.oracles.get? chainId = some oracle →
      oracle = junoOracle := by
    intro chainId oracle horacle
    dsimp only [junoStart] at horacle
    rw [get?_set] at horacle
    split at horacle
    · exact (Option.some.inj horacle).symm
    · cases horacle
  refine ⟨?_, ?_, ?_, ?_⟩
  · intro chainId oracle horacle _
    cases hone chainId oracle horacle
    decide
  · intro chainId oracle channel horacle hchannel
    cases hone chainId oracle horacle
    cases hchannel
    decide
  · intro chainId oracle horacle _
    cases hone chainId oracle horacle
    decide
  · intro portId channelId channel hchannel hinit
    dsimp only [junoStart] at hchannel
    split at hchannel
    · cases hchannel
      cases hinit
    · cases hchannel

private theorem junoStart_noneStranded : junoStart.NoneStranded := by
  intro metric hmetric
  cases hmetric

/-- The controller sends every update. -/
def sent (_ : String) : Result Unit := .ok ()

/-- An update is acknowledged, the channel is closed and restored, and the handshake of the new one
    is complete in a later block. The next update is sent there. -/
def quietRestore : List Event :=
  [queueRate, .endBlock sent, .answer rateUpdate .success, .closeChannel junoPort "channel-0",
    .restoreOracleICA "juno-1" "channel-1", .endBlock sent,
    .chanOpenAck junoPort "channel-1" "juno1ica", queueRate, .endBlock sent]

theorem no_metric_stranded_quietRestore :
    ∃ s, runAllowed step Undisturbed junoStart quietRestore = some s ∧
      s.keeper.metrics.values.map Metric.status = [.inProgress] ∧
      s.outstanding.map UpdateIca.channelId = ["channel-1"] ∧ s.NoneStranded := by
  exact exists_run_end (by decide +kernel) ⟨by decide +kernel, by decide +kernel,
    no_metric_stranded junoStart_wired junoStart_noneStranded (.of_get _)⟩

/-- **A restored metric is stranded**: its update times out, the channel is restored, the metric is
    in progress at the end of that block, and the handshake opens the new channel. Nothing is
    outstanding then, at the end of the next block either, and the channel is not restored again. -/
theorem restored_metric_stranded :
    ((runSteps step junoStart
      [queueRate, .endBlock sent, .answer rateUpdate .timeout,
        .restoreOracleICA "juno-1" "channel-1", .endBlock sent,
        .chanOpenAck junoPort "channel-1" "juno1ica", .endBlock sent]).map fun s =>
      (s.keeper.metrics.values.map Metric.status, s.outstanding.length,
        s.keeper.oracles.values.map s.isOracleICAChannelOpen,
        (s.step (.restoreOracleICA "juno-1" "channel-2")).isSome)) =
      some ([.inProgress], 0, [true], false) := by
  decide +kernel

/-- A metric that the controller does not send on an open channel is stranded as well. -/
example : ((runSteps step junoStart [queueRate, .endBlock fun _ => wrapf .errConnectionNotFound
      "client state is not active"]).map fun s =>
      (s.keeper.metrics.values.map Metric.status, s.outstanding.length,
        (s.step (.restoreOracleICA "juno-1" "channel-1")).isSome)) =
      some ([.inProgress], 0, false) := by
  decide +kernel

end System

end Stride.IcaOracle
