import Stride.Lib.KVStore
import Stride.Sdk.Bytes
import Mathlib.Data.List.DropRight

/-!
# Keys of Packets

Three modules store an entry for a packet that is in flight. `autopilot` and `stakedym` write the
channel id into a buffer of fixed length, in front of the sequence number. `icacallbacks` joins the
port, the channel and the sequence number with dots.
-/

namespace Stride.Sdk

open Lib List

/-- `FormatChannelIdentifier`: the ids that the IBC module generates. -/
def formatChannelIdentifier (n : UInt64) : String := "channel-" ++ toString n.toNat

/-- `copy` into a new buffer: the bytes that fit, and zeros. -/
def fixedBuffer (length : ℕ) (s : String) : List UInt8 :=
  (bytes s).take length ++ replicate (length - (bytes s).length) 0

/-- A channel id in a buffer, and a sequence number. -/
def packetKey (bufferLength : ℕ) (channelId : String) (sequence : UInt64) : List UInt8 :=
  fixedBuffer bufferLength channelId ++ bigEndian 8 sequence.toNat

def getTransferFallbackAddressKey : String → UInt64 → List UInt8 := packetKey 16

def transferInProgressRecordKey : String → UInt64 → List UInt8 := packetKey 16

def packetID (portId channelId : String) (sequence : UInt64) : String :=
  portId ++ "." ++ channelId ++ "." ++ toString sequence.toNat

/-! ## Fallback addresses -/

abbrev FallbackStore := KVStore (List UInt8) String

namespace FallbackStore

def setTransferFallbackAddress (store : FallbackStore) (channelId : String) (sequence : UInt64)
    (address : String) : FallbackStore :=
  KVStore.set store (getTransferFallbackAddressKey channelId sequence) address

def removeTransferFallbackAddress (store : FallbackStore) (channelId : String)
    (sequence : UInt64) : FallbackStore :=
  KVStore.delete store (getTransferFallbackAddressKey channelId sequence)

/-- `GetTransferFallbackAddress`: an address without bytes counts as none. -/
def getTransferFallbackAddress (store : FallbackStore) (channelId : String) (sequence : UInt64) :
    Option String :=
  (KVStore.get? store (getTransferFallbackAddressKey channelId sequence)).filter (· ≠ "")

end FallbackStore

/-! ## Buffers -/

/-- The decimal digits of a channel number. -/
def channelDigits (n : UInt64) : List UInt8 := bytes (toString n.toNat)

private theorem zero_notMem_channelDigits (n : UInt64) : 0 ∉ channelDigits n := by
  have hbytes : channelDigits n = (Nat.toDigits 10 n.toNat).flatMap String.utf8EncodeChar := by
    simp [channelDigits, bytes, Nat.repr_eq_ofList_toDigits, List.utf8Encode]
  rw [hbytes, mem_flatMap]
  rintro ⟨c, hc, hzero⟩
  have hdigit : 48 ≤ c.toNat ∧ c.toNat ≤ 57 := by
    simpa [Char.isDigit, UInt32.le_iff_toNat_le] using
      Nat.isDigit_of_mem_toDigits (by decide) le_rfl hc
  -- a digit is one byte, its code
  have hsize : c.utf8Size = 1 := by
    rw [Char.utf8Size_eq_one_iff]
    show c.toNat ≤ 127
    omega
  rw [String.utf8EncodeChar_eq_singleton hsize, mem_singleton] at hzero
  have hcode : 0 = c.toNat % 256 := congrArg UInt8.toNat hzero
  omega

private theorem length_fixedBuffer (length : ℕ) (s : String) :
    (fixedBuffer length s).length = length := by
  simp [fixedBuffer]
  omega

/-- Texts without zero bytes are in the buffer as far as they fit. -/
theorem fixedBuffer_eq_iff {length : ℕ} {s t : String} (hs : 0 ∉ bytes s) (ht : 0 ∉ bytes t) :
    fixedBuffer length s = fixedBuffer length t ↔
      (bytes s).take length = (bytes t).take length := by
  have hfilter {u : String} (hu : 0 ∉ bytes u) :
      (fixedBuffer length u).filter (· ≠ 0) = (bytes u).take length := by
    have hrest : (replicate (length - (bytes u).length) (0 : UInt8)).filter (· ≠ 0) = [] := by simp
    rw [fixedBuffer, filter_append, hrest, append_nil, filter_eq_self]
    intro b hb
    have hne : b ≠ 0 := fun hzero => hu (hzero ▸ mem_of_mem_take hb)
    simpa using hne
  constructor
  · intro h
    rw [← hfilter hs, h, hfilter ht]
  · intro h
    -- equal beginnings have equal lengths, and so has what fills them up
    have hlength := congrArg List.length h
    rw [length_take, length_take] at hlength
    rw [fixedBuffer, fixedBuffer, h, show length - (bytes s).length = length - (bytes t).length by
      omega]

private theorem fixedBuffer_channel (n : UInt64) :
    fixedBuffer 16 (formatChannelIdentifier n) =
      bytes "channel-" ++ fixedBuffer 8 (toString n.toNat) := by
  have hlength : (bytes "channel-").length = 8 := rfl
  unfold fixedBuffer formatChannelIdentifier
  rw [bytes_append, take_append, length_append, hlength, take_of_length_le (by simp [hlength]),
    append_assoc, show 16 - (8 + (bytes (toString n.toNat)).length) =
      8 - (bytes (toString n.toNat)).length by omega]

variable {n₁ n₂ s₁ s₂ : UInt64}

/-- **Keys**: of a channel number, the buffer has the first eight digits. -/
theorem packetKey_eq_iff :
    packetKey 16 (formatChannelIdentifier n₁) s₁ = packetKey 16 (formatChannelIdentifier n₂) s₂ ↔
      (channelDigits n₁).take 8 = (channelDigits n₂).take 8 ∧ s₁ = s₂ := by
  constructor
  · intro h
    obtain ⟨hbuffer, hsequence⟩ := append_inj h (by simp only [length_fixedBuffer])
    rw [fixedBuffer_channel, fixedBuffer_channel, append_cancel_left_eq] at hbuffer
    exact ⟨(fixedBuffer_eq_iff (zero_notMem_channelDigits n₁) (zero_notMem_channelDigits n₂)).mp
      hbuffer, UInt64.toNat_inj.mp (bigEndian_inj s₁.toNat_lt s₂.toNat_lt hsequence)⟩
  · rintro ⟨hdigits, rfl⟩
    unfold packetKey
    rw [fixedBuffer_channel, fixedBuffer_channel, (fixedBuffer_eq_iff
      (zero_notMem_channelDigits n₁) (zero_notMem_channelDigits n₂)).mpr hdigits]

/-! ## Joined ids -/

private theorem toDigits_injective : Function.Injective (Nat.toDigits 10) := by
  intro m n h
  rw [← Nat.ofDigitChars_toDigits (n := m) (by decide) le_rfl, h]
  exact Nat.ofDigitChars_toDigits (by decide) le_rfl

private theorem dot_notMem_toDigits (n : ℕ) : '.' ∉ Nat.toDigits 10 n := by
  intro h
  have hdigit := Nat.isDigit_of_mem_toDigits (by decide) le_rfl h
  cases hdigit

/-- What stands after the last separator. -/
theorem append_cons_inj_of_notMem_right {α : Type*} [DecidableEq α] {a : α} {x₁ x₂ z₁ z₂ : List α}
    (h₁ : a ∉ z₁) (h₂ : a ∉ z₂) (h : x₁ ++ a :: z₁ = x₂ ++ a :: z₂) : x₁ = x₂ ∧ z₁ = z₂ := by
  have hlast {x z : List α} (hz : a ∉ z) : (x ++ a :: z).rtakeWhile (· ≠ a) = z := by
    have hall : ∀ b ∈ z.reverse, decide (b ≠ a) = true := by
      intro b hb
      have hne : b ≠ a := fun heq => hz (heq ▸ mem_reverse.mp hb)
      simpa using hne
    rw [rtakeWhile, reverse_append, reverse_cons, append_assoc, takeWhile_append_of_pos hall]
    simp
  have hz : z₁ = z₂ := by
    rw [← hlast h₁, h, hlast h₂]
  subst hz
  exact ⟨append_cancel_right h, rfl⟩

/-- **Ids**: ports may contain dots, but channels and sequence numbers do not. -/
theorem packetID_eq_iff {p₁ p₂ : String} :
    packetID p₁ (formatChannelIdentifier n₁) s₁ = packetID p₂ (formatChannelIdentifier n₂) s₂ ↔
      p₁ = p₂ ∧ n₁ = n₂ ∧ s₁ = s₂ := by
  refine ⟨fun h => ?_, fun ⟨hp, hn, hs⟩ => by rw [hp, hn, hs]⟩
  have hlist : (p₁.toList ++ '.' :: ("channel-".toList ++ Nat.toDigits 10 n₁.toNat)) ++
        '.' :: Nat.toDigits 10 s₁.toNat =
      (p₂.toList ++ '.' :: ("channel-".toList ++ Nat.toDigits 10 n₂.toNat)) ++
        '.' :: Nat.toDigits 10 s₂.toNat := by
    simpa [packetID, formatChannelIdentifier] using congrArg String.toList h
  obtain ⟨hrest, hs⟩ := append_cons_inj_of_notMem_right (dot_notMem_toDigits _)
    (dot_notMem_toDigits _) hlist
  have hdot (n : UInt64) : '.' ∉ "channel-".toList ++ Nat.toDigits 10 n.toNat := by
    rw [mem_append]
    rintro (hmem | hmem)
    · exact absurd hmem (by decide)
    · exact dot_notMem_toDigits _ hmem
  obtain ⟨hp, hn⟩ := append_cons_inj_of_notMem_right (hdot n₁) (hdot n₂) hrest
  exact ⟨String.toList_inj.mp hp, UInt64.toNat_inj.mp (toDigits_injective (append_cancel_left hn)),
    UInt64.toNat_inj.mp (toDigits_injective hs)⟩

/-! ## Packets in flight -/

/-- The packets have different sequence numbers, or channel numbers that differ in their first
    eight digits. -/
def Apart (n₁ s₁ n₂ s₂ : UInt64) : Prop :=
  s₁ ≠ s₂ ∨ (channelDigits n₁).take 8 ≠ (channelDigits n₂).take 8

private theorem packetKey_ne_iff :
    packetKey 16 (formatChannelIdentifier n₁) s₁ ≠ packetKey 16 (formatChannelIdentifier n₂) s₂ ↔
      Apart n₁ s₁ n₂ s₂ := by
  rw [ne_eq, packetKey_eq_iff, not_and_or, or_comm, Apart]

open FallbackStore

/-- **Entries of packets**: two packets share no entry if and only if they are apart. The ids of
    `icacallbacks` always differ. -/
theorem packet_entries_apart_iff (p₁ p₂ : String) (n₁ s₁ n₂ s₂ : UInt64) :
    (packetID p₁ (formatChannelIdentifier n₁) s₁ = packetID p₂ (formatChannelIdentifier n₂) s₂ ↔
      p₁ = p₂ ∧ n₁ = n₂ ∧ s₁ = s₂) ∧
    let c₁ := formatChannelIdentifier n₁
    let c₂ := formatChannelIdentifier n₂
    (getTransferFallbackAddressKey c₁ s₁ ≠ getTransferFallbackAddressKey c₂ s₂ ↔
      Apart n₁ s₁ n₂ s₂) ∧
    (transferInProgressRecordKey c₁ s₁ ≠ transferInProgressRecordKey c₂ s₂ ↔
      Apart n₁ s₁ n₂ s₂) ∧
    ((∀ store address,
      getTransferFallbackAddress (setTransferFallbackAddress store c₁ s₁ address) c₂ s₂ =
        getTransferFallbackAddress store c₂ s₂ ∧
      getTransferFallbackAddress (removeTransferFallbackAddress store c₁ s₁) c₂ s₂ =
        getTransferFallbackAddress store c₂ s₂) ↔ Apart n₁ s₁ n₂ s₂) := by
  refine ⟨packetID_eq_iff, packetKey_ne_iff, packetKey_ne_iff, ?_⟩
  rw [← packetKey_ne_iff]
  constructor
  · -- an entry in an empty store is found under its own key
    intro h heq
    have hset := (h KVStore.empty "a").1
    unfold getTransferFallbackAddress setTransferFallbackAddress getTransferFallbackAddressKey
      at hset
    rw [heq, KVStore.get?_set_self] at hset
    cases hset
  · intro hne store address
    unfold getTransferFallbackAddress setTransferFallbackAddress removeTransferFallbackAddress
      getTransferFallbackAddressKey
    rw [KVStore.get?_set_of_ne store address hne.symm, KVStore.get?_delete, if_neg hne.symm]
    exact ⟨rfl, rfl⟩

/-- The entry of a packet on one channel is overwritten by a packet on another channel. -/
theorem packet_entries_shared :
    getTransferFallbackAddress (setTransferFallbackAddress (setTransferFallbackAddress KVStore.empty
      "channel-100000000" 1 "alice") "channel-100000001" 1 "bob") "channel-100000000" 1 =
        some "bob" ∧
    formatChannelIdentifier 100000000 = "channel-100000000" ∧
    formatChannelIdentifier 100000001 = "channel-100000001" ∧
    transferInProgressRecordKey "channel-100000000" 1 =
      transferInProgressRecordKey "channel-100000001" 1 := by
  decide +kernel

end Stride.Sdk
