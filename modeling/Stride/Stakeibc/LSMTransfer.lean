import Stride.Stakeibc.DepositTransfer
import Stride.Stakeibc.IcaBatch
import Stride.Stakeibc.RateQueries

/-!
# From an LSM Deposit to a Delegation

At the end of each block, queued LSM tokens are sent to the delegation account of their zone by
IBC transfer, and tokens that have arrived there are redeemed for a delegation by ICA.

The deposits of a zone are found by a scan over a prefix, which also finds deposits of a zone
whose chain id is longer. Both loops treat them as deposits of the zone in hand.

The loops run outside of a cached context: where the transfer module returns an error after it has
taken the coins, they are gone. The callbacks rewrite the deposit from the copy that was stored with
the packet.
-/

namespace Stride.Stakeibc

open Lib Sdk Records KeyedStore List

/-! ## Transfers -/

/-- A transfer that was sent, with the deposit of its callback. -/
structure LSMTransfer where
  msg : MsgTransfer
  deposit : LSMTokenDeposit
  deriving DecidableEq

/-- The transfer of `IBCTransferLSMToken`. -/
def lsmTransferMsg (settings : ZoneSettings) (hostZone : HostZone) (deposit : LSMTokenDeposit) :
    MsgTransfer where
  sourceChannel := settings.transferChannelId
  token := (deposit.ibcDenom, deposit.amount)
  sender := settings.depositAddress
  receiver := hostZone.delegationIcaAddress

/-- The keeper after a deposit was written with a status. -/
def withDepositStatus (k : LSMKeeper) (deposit : LSMTokenDeposit)
    (status : LSMTokenDepositStatus) : LSMKeeper :=
  { k with
    lsmTokenDeposits := k.lsmTokenDeposits.updateLSMTokenDepositStatus deposit status }

/-- The inner loop body of `TransferAllLSMDeposits`, with the transfers sent. -/
def transferLSMDeposit (k : LSMKeeper) (hostZone : HostZone) (reply : TransferReply)
    (deposit : LSMTokenDeposit) : LSMKeeper × List LSMTransfer :=
  let msg := lsmTransferMsg (k.settings hostZone.chainId) hostZone deposit
  let (bank, sent) := transfer k.bank msg reply
  if sent then
    (withDepositStatus { k with bank := bank } deposit .transferInProgress, [⟨msg, deposit⟩])
  else (withDepositStatus { k with bank := bank } deposit .transferFailed, [])

/-- The outer loop body of `TransferAllLSMDeposits`. `replies` are the replies of the transfer
    module, by the key of the deposit. -/
def transferLSMDepositsOf (replies : List UInt8 → TransferReply)
    (out : LSMKeeper × List LSMTransfer) (hostZone : HostZone) : LSMKeeper × List LSMTransfer :=
  if hostZone.delegationIcaAddress = "" then out
  else
    (out.1.lsmTokenDeposits.getLSMDepositsForHostZoneWithStatus hostZone.chainId
      .transferQueue).foldl
      (fun (k, sent) deposit =>
        let (k, transfers) := transferLSMDeposit k hostZone (replies deposit.key) deposit
        (k, sent ++ transfers))
      out

/-- `TransferAllLSMDeposits`, with the transfers sent. -/
def transferAllLSMDeposits (k : LSMKeeper) (replies : List UInt8 → TransferReply) :
    LSMKeeper × List LSMTransfer :=
  (getAllActiveHostZone k.hostZones).foldl (transferLSMDepositsOf replies) (k, [])

def lsmStatusAfterTransfer : AckStatus → LSMTokenDepositStatus
  | .timeout => .transferQueue
  | .failure => .transferFailed
  | .success => .detokenizationQueue

def lsmTransferCallback (k : LSMKeeper) (deposit : LSMTokenDeposit) (status : AckStatus) :
    LSMKeeper :=
  withDepositStatus k deposit (lsmStatusAfterTransfer status)

/-! ## Detokenization -/

/-- What the loops over the deposits of a zone carry along: the keeper, the host zone in hand and
    the deposits of the ICAs sent. -/
structure DetokenizeLoop where
  keeper : LSMKeeper
  hostZone : HostZone
  sent : List LSMTokenDeposit

/-- `DetokenizeLSMDeposit`. The ICA controller rejects the deposits with a key in `rejected`. -/
def detokenizeLSMDeposit (rejected : List (List UInt8)) (loop : DetokenizeLoop)
    (deposit : LSMTokenDeposit) : DetokenizeLoop :=
  if loop.hostZone.delegationIcaAddress = "" ∨ deposit.key ∈ rejected then loop
  else
    let k := withDepositStatus loop.keeper deposit .detokenizationInProgress
    match incrementValidatorDelegationChangesInProgress loop.hostZone
        deposit.validatorAddress with
    -- the ICA is on its way, but its validator does not know
    | .error _ => { loop with keeper := k, sent := loop.sent ++ [deposit] }
    | .ok hostZone =>
      { keeper := { k with hostZones := k.hostZones.set hostZone }
        hostZone := hostZone
        sent := loop.sent ++ [deposit] }

/-- The outer loop body of `DetokenizeAllLSMDeposits`. Zones in `closed` have no open channel. -/
def detokenizeLSMDepositsOf (closed : List String) (rejected : List (List UInt8))
    (out : LSMKeeper × List LSMTokenDeposit) (hostZone : HostZone) :
    LSMKeeper × List LSMTokenDeposit :=
  if hostZone.chainId ∈ closed then out
  else
    let loop := (out.1.lsmTokenDeposits.getLSMDepositsForHostZoneWithStatus hostZone.chainId
      .detokenizationQueue).foldl (detokenizeLSMDeposit rejected) ⟨out.1, hostZone, out.2⟩
    (loop.keeper, loop.sent)

/-- `DetokenizeAllLSMDeposits`, with the deposits of the ICAs sent. -/
def detokenizeAllLSMDeposits (k : LSMKeeper) (closed : List String)
    (rejected : List (List UInt8)) : LSMKeeper × List LSMTokenDeposit :=
  (getAllActiveHostZone k.hostZones).foldl (detokenizeLSMDepositsOf closed rejected) (k, [])

/-- `DetokenizeCallback`. The messages of the response are the amounts that were redeemed. -/
def LSMKeeper.detokenizeCallback (k : LSMKeeper) (deposit : LSMTokenDeposit) (status : AckStatus)
    (msgResponses : List ℤ) : Result LSMKeeper :=
  match k.hostZones.get? deposit.chainId with
  | none => wrapf .errHostZoneNotFound s!"Host zone not found: {deposit.chainId}"
  | some hostZone => do
    let hostZone ← decrementValidatorDelegationChangesInProgress hostZone deposit.validatorAddress
    let k := { k with hostZones := k.hostZones.set hostZone }
    match status with
    | .timeout => return k
    | .failure => return withDepositStatus k deposit .detokenizationFailed
    | .success =>
      let k := { k with
        lsmTokenDeposits :=
          k.lsmTokenDeposits.removeLSMTokenDeposit deposit.chainId deposit.denom }
      match msgResponses with
      | [stakeAmount] =>
        let hostZone ← addDelegationToValidator hostZone deposit.validatorAddress stakeAmount
        return { k with hostZones := k.hostZones.set hostZone }
      | _ =>
        wrapf .plain
          s!"Invalid number of messages ({msgResponses.length}) in detokenize response: {msgResponses}"

/-! ## Turns of the loops -/

/-- **One transfer**: nothing is taken, the deposit is sent in full, or its coins are taken and not
    sent. -/
theorem transferLSMDeposit_cases (k : LSMKeeper) (z : HostZone) (reply : TransferReply)
    (deposit : LSMTokenDeposit) :
    transferLSMDeposit k z reply deposit = (withDepositStatus k deposit .transferFailed, []) ∨
    let msg := lsmTransferMsg (k.settings z.chainId) z deposit
    let taken := { k with bank := takeCoins k.bank msg }
    deposit.amount ≤ k.bank.balance msg.sender deposit.ibcDenom ∧
      (transferLSMDeposit k z reply deposit =
          (withDepositStatus taken deposit .transferInProgress, [⟨msg, deposit⟩]) ∨
        reply = .failed ∧ transferLSMDeposit k z reply deposit =
          (withDepositStatus taken deposit .transferFailed, [])) := by
  unfold transferLSMDeposit
  cases reply with
  | refused => exact .inl rfl
  | failed =>
    dsimp only [transfer]
    split
    · exact .inl rfl
    · rename_i hfunds
      exact .inr ⟨not_lt.mp hfunds, .inr ⟨rfl, rfl⟩⟩
  | sent =>
    dsimp only [transfer]
    split
    · exact .inl rfl
    · rename_i hfunds
      exact .inr ⟨not_lt.mp hfunds, .inl rfl⟩

theorem transferLSMDeposit_frame (k : LSMKeeper) (z : HostZone) (reply : TransferReply)
    (deposit : LSMTokenDeposit) :
    (transferLSMDeposit k z reply deposit).1 = { k with
      bank := (transferLSMDeposit k z reply deposit).1.bank
      lsmTokenDeposits := (transferLSMDeposit k z reply deposit).1.lsmTokenDeposits } ∧
    ∀ key, key ≠ deposit.key →
      (transferLSMDeposit k z reply deposit).1.lsmTokenDeposits.get? key =
        k.lsmTokenDeposits.get? key := by
  have hother (bank : Bank) (status : LSMTokenDepositStatus) (key : List UInt8)
      (hkey : key ≠ deposit.key) :
      (withDepositStatus { k with bank := bank } deposit status).lsmTokenDeposits.get? key =
        k.lsmTokenDeposits.get? key :=
    (get?_set ..).trans (if_neg hkey)
  unfold transferLSMDeposit
  dsimp only
  split
  · exact ⟨rfl, hother _ _⟩
  · exact ⟨rfl, hother _ _⟩

/-- **One detokenization**: the deposit is left alone, or its ICA is sent. The host zone in hand
    counts the ICA if it has the validator. -/
theorem detokenizeLSMDeposit_cases (rejected : List (List UInt8)) (loop : DetokenizeLoop)
    (deposit : LSMTokenDeposit) :
    detokenizeLSMDeposit rejected loop deposit = loop ∨
    ∃ z' : HostZone, BookEffect loop.hostZone z' 0 0
        (Pi.single deposit.validatorAddress 1) ∧
      detokenizeLSMDeposit rejected loop deposit =
        { keeper := { withDepositStatus loop.keeper deposit .detokenizationInProgress with
            hostZones := loop.keeper.hostZones.set z' }
          hostZone := z'
          sent := loop.sent ++ [deposit] } ∨
    detokenizeLSMDeposit rejected loop deposit =
      { loop with
        keeper := withDepositStatus loop.keeper deposit .detokenizationInProgress
        sent := loop.sent ++ [deposit] } := by
  unfold detokenizeLSMDeposit
  split
  · exact .inl rfl
  · split
    · exact .inr ⟨loop.hostZone, .inr rfl⟩
    · rename_i z' hz'
      exact .inr ⟨z', .inl ⟨incrementValidatorDelegationChangesInProgress_ok hz', rfl⟩⟩

/-! ## Acknowledgements of detokenizations -/

/-- The deposits after a detokenization was acknowledged. -/
def detokenizedDeposits (deposits : LSMTokenDepositStore) (deposit : LSMTokenDeposit) :
    AckStatus → LSMTokenDepositStore
  | .timeout => deposits
  | .failure => deposits.updateLSMTokenDepositStatus deposit .detokenizationFailed
  | .success => deposits.removeLSMTokenDeposit deposit.chainId deposit.denom

variable {status : AckStatus} {z z' : HostZone} {k k' : LSMKeeper} {deposit : LSMTokenDeposit}
  {msgResponses : List ℤ} {a : String} {stakeAmount : ℤ}

/-- **Acknowledgement**: the book of the zone takes the callback of a detokenization, with the
    amount of the response. -/
theorem LSMKeeper.detokenizeCallback_ok
    (h : k.detokenizeCallback deposit status msgResponses = .ok k') :
    ∃ z z' stakeAmount, k.hostZones.get? deposit.chainId = some z ∧
      Stakeibc.detokenizeCallback z deposit.validatorAddress stakeAmount status = .ok z' ∧
      (status = .success → msgResponses = [stakeAmount]) ∧
      k' = { k with
        hostZones := k.hostZones.set z'
        lsmTokenDeposits := detokenizedDeposits k.lsmTokenDeposits deposit status } := by
  unfold LSMKeeper.detokenizeCallback at h
  split at h
  · cases h
  rename_i z hz
  obtain ⟨z₁, hdec, h⟩ := bind_eq_ok.mp h
  cases status with
  | success =>
    dsimp only at h
    split at h
    · obtain ⟨z₂, hadd, h⟩ := bind_eq_ok.mp h
      cases h
      refine ⟨z, z₂, _, hz, bind_eq_ok.mpr ⟨z₁, hdec, hadd⟩, fun _ => rfl, ?_⟩
      -- the zone is stored twice
      have hid : z₁.chainId = z₂.chainId := (addDelegationToValidator_ok hadd).chainId.symm
      rw [set_set _ hid]
      rfl
    · cases h
  | _ =>
    cases h
    exact ⟨z, z₁, 0, hz, bind_eq_ok.mpr ⟨z₁, hdec, rfl⟩, by simp, rfl⟩

theorem detokenizeCallback_bookEffect (h : detokenizeCallback z a stakeAmount status = .ok z') :
    BookEffect z z' (if status = .success then Pi.single a stakeAmount else 0)
      (if status = .success then stakeAmount else 0) (Pi.single a (-1)) := by
  obtain ⟨z₁, hdec, h⟩ := bind_eq_ok.mp h
  have hcounted := decrementValidatorDelegationChangesInProgress_ok hdec
  cases status with
  | timeout =>
    cases h
    exact hcounted
  | failure =>
    cases h
    exact hcounted
  | success => simpa using hcounted.trans (addDelegationToValidator_ok h)

theorem mem_of_detokenizeCallback (h : detokenizeCallback z a stakeAmount status = .ok z') :
    a ∈ z.addresses := by
  obtain ⟨z₁, hdec, -⟩ := bind_eq_ok.mp h
  have hone : [a].foldlM decrementValidatorDelegationChangesInProgress z = .ok z₁ := by
    exact bind_eq_ok.mpr ⟨z₁, hdec, rfl⟩
  exact mem_of_foldlM_decrementValidatorDelegationChangesInProgress hone a mem_cons_self

private theorem BookEffect.haltedAndRates {d : String → ℤ} {t : ℤ} {c : String → ℤ}
    (h : BookEffect z z' d t c) : z'.haltedAndRates = z.haltedAndRates := by
  apply haltedAndRates_of_settings h.settings
  have hrates := congrArg (map fun v => (v.address, v.sharesToTokensRate)) h.frame
  simpa [map_map, Function.comp_def, Validator.frame, HostZone.rateTable] using hrates

/-! ## What the loops and acknowledgements leave alone -/

theorem LSMKeeper.detokenizeCallback_frame
    (h : k.detokenizeCallback deposit status msgResponses = .ok k') :
    SameView HostZone.haltedAndRates k.hostZones k'.hostZones ∧
      k' = { k with
        hostZones := k'.hostZones
        lsmTokenDeposits := k'.lsmTokenDeposits } := by
  obtain ⟨z, z', stakeAmount, hz, hcallback, -, rfl⟩ := LSMKeeper.detokenizeCallback_ok h
  have heffect := detokenizeCallback_bookEffect hcallback
  have hid : z'.chainId = deposit.chainId := heffect.chainId.trans (key_of_get? hz)
  exact ⟨(SameView.refl _ _).set (hid ▸ hz) heffect.haltedAndRates, rfl⟩

theorem transferAllLSMDeposits_frame (k : LSMKeeper) (replies : List UInt8 → TransferReply) :
    (transferAllLSMDeposits k replies).1 = { k with
      bank := (transferAllLSMDeposits k replies).1.bank
      lsmTokenDeposits := (transferAllLSMDeposits k replies).1.lsmTokenDeposits } := by
  refine foldlRecOn (motive := fun out : LSMKeeper × List LSMTransfer =>
    out.1 = { k with bank := out.1.bank, lsmTokenDeposits := out.1.lsmTokenDeposits }) _ _ rfl ?_
  intro out hout z _
  unfold transferLSMDepositsOf
  split
  · exact hout
  · refine foldlRecOn (motive := fun out : LSMKeeper × List LSMTransfer =>
      out.1 = { k with bank := out.1.bank, lsmTokenDeposits := out.1.lsmTokenDeposits }) _ _ hout ?_
    rintro ⟨t, sent⟩ ht deposit _
    dsimp only at ht ⊢
    rw [(transferLSMDeposit_frame t z _ deposit).1, ht]

theorem detokenizeAllLSMDeposits_frame (k : LSMKeeper) (closed : List String)
    (rejected : List (List UInt8)) :
    let out := detokenizeAllLSMDeposits k closed rejected
    SameView HostZone.haltedAndRates k.hostZones out.1.hostZones ∧
      out.1 = { k with
        hostZones := out.1.hostZones
        lsmTokenDeposits := out.1.lsmTokenDeposits } := by
  let Frame (t : LSMKeeper) : Prop :=
    SameView HostZone.haltedAndRates k.hostZones t.hostZones ∧
      t = { k with hostZones := t.hostZones, lsmTokenDeposits := t.lsmTokenDeposits }
  refine foldlRecOn (motive := fun out : LSMKeeper × List LSMTokenDeposit => Frame out.1)
    _ _ ⟨.refl _ _, rfl⟩ ?_
  intro out hout z hz
  have hstored : k.hostZones.get? z.chainId = some z :=
    mem_values_iff.mp (mem_filter.mp hz).1
  unfold detokenizeLSMDepositsOf
  split
  · exact hout
  · -- the zone in hand differs from the stored one in counters at most
    refine (foldlRecOn (motive := fun loop : DetokenizeLoop =>
      Frame loop.keeper ∧ loop.hostZone.chainId = z.chainId ∧
        loop.hostZone.haltedAndRates = z.haltedAndRates) _ _ ⟨hout, rfl, rfl⟩ ?_).1
    rintro loop ⟨⟨hview, hkeeper⟩, hid, hzone⟩ deposit _
    obtain heq | ⟨z', ⟨heffect, heq⟩ | heq⟩ := detokenizeLSMDeposit_cases rejected loop deposit
    · rw [heq]
      exact ⟨⟨hview, hkeeper⟩, hid, hzone⟩
    · rw [heq]
      have hid' : z'.chainId = z.chainId := heffect.chainId.trans hid
      have hzone' : z'.haltedAndRates = z.haltedAndRates := heffect.haltedAndRates.trans hzone
      refine ⟨⟨hview.set (hid' ▸ hstored) hzone', ?_⟩, hid', hzone'⟩
      unfold withDepositStatus
      rw [hkeeper]
    · rw [heq]
      refine ⟨⟨hview, ?_⟩, hid, hzone⟩
      unfold withDepositStatus
      rw [hkeeper]

end Stride.Stakeibc
