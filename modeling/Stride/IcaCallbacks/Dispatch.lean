import Stride.Lib.Runs
import Stride.Sdk.Math
import Stride.Sdk.PacketKeys

/-!
# Callbacks of Packets

A module that sends a packet may store callback data for it. When the packet is acknowledged or
times out, `icacallbacks` runs the callback that is registered for the data and removes the data.
If the callback fails, nothing changes and the response can be delivered again.
-/

namespace Stride.IcaCallbacks

open Sdk Lib List

/-- A packet on `channel-{sourceChannel}`. -/
structure Packet where
  sourcePort : String
  sourceChannel : UInt64
  sequence : UInt64
deriving DecidableEq

def Packet.id (packet : Packet) : String :=
  packetID packet.sourcePort (formatChannelIdentifier packet.sourceChannel) packet.sequence

private theorem Packet.id_inj {p q : Packet} : p.id = q.id ↔ p = q := by
  rw [Packet.id, Packet.id, packetID_eq_iff, Packet.mk.injEq]

structure CallbackData where
  callbackId : String
  callbackArgs : List UInt8

/-- The registered callbacks: whether a `CallbackFunc` succeeds in a state `σ` of the modules, on
    a packet, a response `ρ` and the stored arguments. None of them sends a packet. -/
abbrev ICACallbacks (σ ρ : Type) :=
  String → Option (σ → Packet → ρ → List UInt8 → Result Unit)

structure System where
  callbackData : KVStore String CallbackData
  /-- The packets whose commitments IBC holds. -/
  outstanding : List Packet
  /-- All packets so far, with their data. -/
  sent : List (Packet × Option CallbackData)
  /-- The callbacks that ran. -/
  called : List (Packet × CallbackData)

variable {σ ρ : Type} {callbacks : ICACallbacks σ ρ} {s s' : System} {p : Packet} {app : σ}
  {ackResponse : ρ}

/-- IBC numbers a packet and the module calls `SetCallbackData`. -/
def send (s : System) (packet : Packet) (data : Option CallbackData) : System :=
  { s with
    callbackData := data.elim s.callbackData (s.callbackData.set packet.id)
    outstanding := packet :: s.outstanding
    sent := (packet, data) :: s.sent }

def callRegisteredICACallback (callbacks : ICACallbacks σ ρ) (app : σ) (s : System)
    (packet : Packet) (ackResponse : ρ) : Result System :=
  match s.callbackData.get? packet.id with
  | none => .ok s
  | some data =>
    match callbacks data.callbackId with
    -- the data stays in the store
    | none => .ok s
    | some callback => do
      wrapError (callback app packet ackResponse data.callbackArgs)
        ("failed to invoke icacallback " ++ data.callbackId)
      return { s with
        callbackData := s.callbackData.delete packet.id
        called := (packet, data) :: s.called }

inductive Event (σ ρ : Type) where
  | send (packet : Packet) (data : Option CallbackData)
  /-- `OnAcknowledgementPacket` or `OnTimeoutPacket`, in any state of the modules. -/
  | respond (app : σ) (packet : Packet) (ackResponse : ρ)

def step (callbacks : ICACallbacks σ ρ) (s : System) : Event σ ρ → Option System
  -- a channel gives each sequence number once
  | .send packet data =>
    if packet ∈ s.sent.map Prod.fst then none else some (send s packet data)
  | .respond app packet ackResponse =>
    -- IBC delivers a response while it holds the commitment, which an error brings back
    if packet ∈ s.outstanding then
      (callRegisteredICACallback callbacks app s packet ackResponse).toOption.map fun s' =>
        { s' with outstanding := s'.outstanding.filter (· ≠ packet) }
    else none

/-! ## The invariant -/

structure ExactlyOnce (callbacks : ICACallbacks σ ρ) (s : System) : Prop where
  /-- At most one callback runs for a packet. -/
  once : (s.called.map Prod.fst).Nodup
  /-- It runs on the data of that packet. -/
  own : ∀ p data, (p, data) ∈ s.called → (p, some data) ∈ s.sent ∧ p ∉ s.outstanding
  /-- An outstanding packet has its data in the store. -/
  kept : ∀ p data, (p, some data) ∈ s.sent → p ∈ s.outstanding →
    s.callbackData.get? p.id = some data
  /-- An entry belongs to a packet, which is answered only if nothing is registered for it. -/
  stored : ∀ k data, s.callbackData.get? k = some data → ∃ p, p.id = k ∧
    (p, some data) ∈ s.sent ∧ (p ∈ s.outstanding ∨ callbacks data.callbackId = none)
  /-- When a packet is answered, the callback that is registered for it has run. -/
  ran : ∀ p data, (p, some data) ∈ s.sent → (callbacks data.callbackId).isSome →
    p ∉ s.outstanding → (p, data) ∈ s.called

/-- **A new packet** has not been answered. -/
theorem ExactlyOnce.send {data : Option CallbackData} (hinv : ExactlyOnce callbacks s)
    (hnew : p ∉ s.sent.map Prod.fst) : ExactlyOnce callbacks (send s p data) := by
  have hne {q : Packet} {d : Option CallbackData} (hq : (q, d) ∈ s.sent) : q ≠ p := by
    rintro rfl
    exact hnew (mem_map_of_mem (f := Prod.fst) hq)
  -- the other packets have their data under other keys
  have hget {key : String} (hkey : key ≠ p.id) :
      (IcaCallbacks.send s p data).callbackData.get? key = s.callbackData.get? key := by
    cases data with
    | none => rfl
    | some d => exact KVStore.get?_set_of_ne _ _ hkey
  refine ⟨hinv.once, fun q d hq => ?_, fun q d hsent hout => ?_, fun key d hkey => ?_,
    fun q d hsent hregistered hanswered => ?_⟩
  · obtain ⟨hsent, hanswered⟩ := hinv.own q d hq
    exact ⟨mem_cons_of_mem _ hsent, not_mem_cons_of_ne_of_not_mem (hne hsent) hanswered⟩
  · rcases mem_cons.mp hsent with heq | hsent
    · cases heq
      exact KVStore.get?_set_self ..
    · rw [hget fun hid => hne hsent (Packet.id_inj.mp hid)]
      exact hinv.kept q d hsent ((mem_cons.mp hout).resolve_left (hne hsent))
  · have hold (h : s.callbackData.get? key = some d) : ∃ q, q.id = key ∧
        (q, some d) ∈ (p, data) :: s.sent ∧
        (q ∈ p :: s.outstanding ∨ callbacks d.callbackId = none) := by
      obtain ⟨q, hid, hsent, hcase⟩ := hinv.stored key d h
      exact ⟨q, hid, mem_cons_of_mem _ hsent, hcase.imp_left (mem_cons_of_mem _)⟩
    by_cases hid : key = p.id
    · cases data with
      | none => exact hold hkey
      | some new =>
        rw [hid] at hkey
        cases (KVStore.get?_set_self ..).symm.trans hkey
        exact ⟨p, hid.symm, mem_cons_self, .inl mem_cons_self⟩
    · exact hold ((hget hid).symm.trans hkey)
  · rcases mem_cons.mp hsent with heq | hsent
    · cases heq
      exact absurd mem_cons_self hanswered
    · exact hinv.ran q d hsent hregistered fun hq => hanswered (mem_cons_of_mem _ hq)

/-- What a response does: nothing without a registered callback, or one call. -/
theorem callRegisteredICACallback_ok
    (h : callRegisteredICACallback callbacks app s p ackResponse = .ok s') :
    (s' = s ∧ ∀ data, s.callbackData.get? p.id = some data → callbacks data.callbackId = none) ∨
      ∃ data, s.callbackData.get? p.id = some data ∧ s' = { s with
        callbackData := s.callbackData.delete p.id
        called := (p, data) :: s.called } := by
  unfold callRegisteredICACallback at h
  split at h
  · rename_i hnone
    cases h
    exact .inl ⟨rfl, fun data hdata => by cases hnone.symm.trans hdata⟩
  rename_i data hdata
  split at h
  · rename_i hunknown
    cases h
    refine .inl ⟨rfl, fun data' hdata' => ?_⟩
    cases hdata.symm.trans hdata'
    exact hunknown
  obtain ⟨_, -, h⟩ := bind_eq_ok.mp h
  cases h
  exact .inr ⟨data, hdata, rfl⟩

/-- **An answer** runs the callback of its packet, and the packet is settled. -/
theorem ExactlyOnce.respond (hinv : ExactlyOnce callbacks s) (hp : p ∈ s.outstanding)
    (h : callRegisteredICACallback callbacks app s p ackResponse = .ok s') :
    ExactlyOnce callbacks { s' with outstanding := s'.outstanding.filter (· ≠ p) } := by
  have hout {q : Packet} : q ∈ s.outstanding.filter (· ≠ p) ↔ q ∈ s.outstanding ∧ q ≠ p := by simp
  obtain ⟨rfl, hskip⟩ | ⟨data, hdata, rfl⟩ := callRegisteredICACallback_ok h
  · refine ⟨hinv.once, fun q d hq => ?_, fun q d hsent hq => ?_, fun key d hkey => ?_,
      fun q d hsent hregistered hanswered => ?_⟩
    · obtain ⟨hsent, hanswered⟩ := hinv.own q d hq
      exact ⟨hsent, fun hq => hanswered (hout.mp hq).1⟩
    · exact hinv.kept q d hsent (hout.mp hq).1
    · obtain ⟨q, rfl, hsent, hcase⟩ := hinv.stored key d hkey
      by_cases hq : q = p
      · exact ⟨q, rfl, hsent, .inr (hskip d (hq ▸ hkey))⟩
      · exact ⟨q, rfl, hsent, hcase.imp_left fun hq' => hout.mpr ⟨hq', hq⟩⟩
    · by_cases hq : q = p
      · subst hq
        rw [hskip d (hinv.kept q d hsent hp)] at hregistered
        cases hregistered
      · exact hinv.ran q d hsent hregistered fun hq' => hanswered (hout.mpr ⟨hq', hq⟩)
  · -- the data under the key of the packet is its own
    obtain ⟨q, hid, hown, -⟩ := hinv.stored p.id data hdata
    obtain rfl := Packet.id_inj.mp hid
    refine ⟨nodup_cons.mpr ⟨fun hmem => ?_, hinv.once⟩, fun p d hp' => ?_, fun p d hsent hp' => ?_,
      fun key d hkey => ?_, fun p d hsent hregistered hanswered => ?_⟩
    · -- what ran before belongs to answered packets
      obtain ⟨⟨q', d⟩, hcalled, rfl⟩ := mem_map.mp hmem
      exact (hinv.own q' d hcalled).2 hp
    · rcases mem_cons.mp hp' with heq | hp'
      · cases heq
        exact ⟨hown, fun hq => (hout.mp hq).2 rfl⟩
      · obtain ⟨hsent, hanswered⟩ := hinv.own p d hp'
        exact ⟨hsent, fun hp => hanswered (hout.mp hp).1⟩
    · obtain ⟨hp', hne⟩ := hout.mp hp'
      show (s.callbackData.delete q.id).get? p.id = some d
      rw [KVStore.get?_delete, if_neg fun hid => hne (Packet.id_inj.mp hid)]
      exact hinv.kept p d hsent hp'
    · replace hkey : (s.callbackData.delete q.id).get? key = some d := hkey
      rw [KVStore.get?_delete] at hkey
      split at hkey
      · cases hkey
      rename_i hne
      obtain ⟨p, rfl, hsent, hcase⟩ := hinv.stored key d hkey
      exact ⟨p, rfl, hsent,
        hcase.imp_left fun hp' => hout.mpr ⟨hp', fun heq => hne (congrArg Packet.id heq)⟩⟩
    · by_cases hne : p = q
      · subst hne
        cases hdata.symm.trans (hinv.kept p d hsent hp)
        exact mem_cons_self
      · exact mem_cons_of_mem _
          (hinv.ran p d hsent hregistered fun hp' => hanswered (hout.mpr ⟨hp', hne⟩))

private theorem ExactlyOnce.step {e : Event σ ρ} (hinv : ExactlyOnce callbacks s)
    (h : step callbacks s e = some s') : ExactlyOnce callbacks s' := by
  cases e with
  | send packet data =>
    simp only [IcaCallbacks.step] at h
    split at h
    · cases h
    rename_i hnew
    cases h
    exact hinv.send hnew
  | respond app packet ackResponse =>
    simp only [IcaCallbacks.step] at h
    split at h
    · rename_i hp
      obtain ⟨t, ht, rfl⟩ := toOption_map_eq_some.mp h
      exact hinv.respond hp ht
    · cases h

/-- In every run a registered callback has run, once and on the data of its own packet, exactly when
    the packet is answered. -/
theorem callbacks_run_exactly_once
    (hrun : Reaches (step callbacks) (fun _ _ => True) ⟨.empty, [], [], []⟩ s) :
    ExactlyOnce callbacks s := by
  refine hrun.invariant ?_ fun _ _ _ hinv _ h => hinv.step h
  -- nothing was sent
  refine ⟨.nil, ?_, ?_, ?_, ?_⟩ <;> intro _ _ h <;> cases h

/-- A callback that succeeds or fails as the modules say. -/
def reporting : ICACallbacks Bool Unit :=
  fun _ => some fun succeeds _ _ _ => require succeeds .plain "failed"

/-- Two packets, of which the second is answered first. -/
def secondAnswered : List (Event Bool Unit) :=
  [.send ⟨"transfer", 0, 1⟩ (some ⟨"delegate", []⟩),
   .send ⟨"transfer", 0, 2⟩ (some ⟨"reinvest", []⟩),
    .respond true ⟨"transfer", 0, 2⟩ ()]

/-- The first packet is delivered again after its callback has failed. -/
theorem callbacks_run_exactly_once_secondAnswered :
    ∃ s,
      runAllowed (step reporting) (fun _ _ => True) ⟨.empty, [], [], []⟩ secondAnswered = some s ∧
      (step reporting s (.respond false ⟨"transfer", 0, 1⟩ ())).isNone ∧
      (step reporting s (.respond true ⟨"transfer", 0, 1⟩ ())).map
        (fun s' => s'.called.map fun c => (c.1.sequence, c.2.callbackId)) =
          some [(1, "delegate"), (2, "reinvest")] ∧
      ExactlyOnce reporting s :=
  exists_run_end (by decide +kernel) ⟨by decide +kernel, by decide +kernel,
    callbacks_run_exactly_once (.of_get (l := secondAnswered) (by decide +kernel))⟩

end Stride.IcaCallbacks
