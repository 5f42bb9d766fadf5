import Stride.Stakeibc.LSMSystem

/-!
# Mints in Unsafe Zones

The begin of a block halts the zones whose redemption rate is outside of its safety bounds. A
native liquid stake checks the bounds again. An LSM liquid stake only checks that its zone is not
halted, and the end of one that was parked checks neither.
-/

namespace Stride.Stakeibc

open Lib Sdk Records InterchainQuery KeyedStore List

/-- The zone of the mint was not halted, and its redemption rate was inside of its bounds. -/
def Mint.Safe (k : LSMKeeper) (m : Mint) : Prop :=
  ∃ hostZone, m.hostZones.get? m.chainId = some hostZone ∧ hostZone.halted = false ∧
    k.rateSafe hostZone = true

variable {k k' : LSMKeeper} {mints : List Mint}

private theorem LSMKeeper.rateSafe_congr (hparams : k'.params = k.params)
    (hsettings : k'.settings = k.settings) : k'.rateSafe = k.rateSafe := by
  unfold LSMKeeper.rateSafe
  rw [hparams, hsettings]

private theorem safe_of_stakeNative {msg : MsgLiquidStake}
    (h : k.stakeNative msg = .ok (k', mints)) :
    ∀ m ∈ mints, m.Safe k := by
  obtain ⟨⟨staked, stCoin⟩, hstake, h⟩ := bind_eq_ok.mp h
  cases h
  obtain ⟨z, r, hstaked⟩ := liquidStake_ok hstake
  intro m hm
  obtain ⟨c, hc, rfl⟩ := mem_map.mp hm
  rw [hstaked.zone] at hc
  obtain rfl : c = z.chainId := by simpa using hc
  have hstored : k.hostZones.get? z.chainId = some z :=
    mem_values_iff.mp (mem_of_find?_eq_some hstaked.zone)
  refine ⟨z, hstored, hstaked.active, ?_⟩
  unfold LSMKeeper.rateSafe
  rw [hstaked.safe]
  rfl

structure CheckedSystem where
  system : LSMSystem
  /-- the host zones after the last begin of a block -/
  checked : HostZoneStore

namespace CheckedSystem

/-- The host zones after the last check, once the event has led to `s'`. -/
def checkedAfter (s : CheckedSystem) (s' : LSMSystem) : LSMEvent → HostZoneStore
  | .beginBlock .. => s'.keeper.hostZones
  | _ => s.checked

def step (s : CheckedSystem) (e : LSMEvent) : Option CheckedSystem :=
  (s.system.step e).map fun s' => ⟨s', s.checkedAfter s' e⟩

/-- The redemption rate of the zone is the one that was checked. -/
def RateUnchanged (s : CheckedSystem) (chainId : String) : Prop :=
  (s.system.keeper.hostZones.get? chainId).map HostZone.redemptionRate =
    (s.checked.get? chainId).map HostZone.redemptionRate

instance (s : CheckedSystem) (chainId : String) : Decidable (s.RateUnchanged chainId) :=
  inferInstanceAs (Decidable (_ = _))

/-- The redemption rate of a zone does not change between the check and an LSM liquid stake or
    the answer for a parked one, and no such answer arrives while the zone is halted. -/
def MintsAfterCheck (s : CheckedSystem) : LSMEvent → Prop
  | .lsmLiquidStake msg =>
    ∀ c denom, lsmOrigin s.system.ctx s.system.keeper.settings
        (chainIds s.system.keeper.hostZones) msg.lsmTokenIbcDenom = some (c, denom) →
      s.RateUnchanged c
  | .respondRate queryId _ =>
    ∀ query l, s.system.keeper.rateQueries.queries.get? queryId = some query →
      query.callbackData = .lsmLiquidStake l →
      s.RateUnchanged l.hostZone.chainId ∧
        ∀ z, s.system.keeper.hostZones.get? l.hostZone.chainId = some z → z.halted = false
  | _ => True

instance (s : CheckedSystem) (e : LSMEvent) : Decidable (s.MintsAfterCheck e) := by
  apply @LSMEvent.casesOn _ e <;> intros <;> dsimp only [MintsAfterCheck] <;> infer_instance

/-- The check was just made, and nothing was minted. -/
structure JustChecked (s : CheckedSystem) : Prop where
  checked : s.checked = s.system.keeper.hostZones
  safe : ∀ c z, s.checked.get? c = some z → z.halted = true ∨ s.system.keeper.rateSafe z = true
  mints : s.system.mints = []

/-- Between two checks nothing is halted, and a zone that is not halted was safe. -/
structure CheckedInv (s : CheckedSystem) : Prop where
  halted : SameView HostZone.halted s.checked s.system.keeper.hostZones
  safe : ∀ c z, s.checked.get? c = some z → z.halted = true ∨ s.system.keeper.rateSafe z = true
  mints : ∀ m ∈ s.system.mints, m.Safe s.system.keeper

private theorem JustChecked.checkedInv {s : CheckedSystem} (h : s.JustChecked) : s.CheckedInv where
  halted := by
    rw [h.checked]
    exact .refl _ _
  safe := h.safe
  mints m hm := by simp [h.mints] at hm

namespace CheckedInv

variable {s : CheckedSystem} {s' : LSMSystem}

private theorem rateSafe (hi : s.CheckedInv) {c : String} {z : HostZone}
    (hz : s.system.keeper.hostZones.get? c = some z) (hactive : z.halted = false)
    (hrate : s.RateUnchanged c) : s.system.keeper.rateSafe z = true := by
  obtain ⟨w, hw, hhalted⟩ := hi.halted.get? hz
  unfold RateUnchanged at hrate
  rw [hz, hw] at hrate
  have hsame : z.redemptionRate = w.redemptionRate := Option.some.inj hrate
  have hid : z.chainId = w.chainId :=
    (key_of_get? hz).trans (key_of_get? hw).symm
  have hsafe : s.system.keeper.rateSafe w = true := by
    refine (hi.safe c w hw).resolve_left ?_
    rw [hhalted, hactive]
    exact Bool.false_ne_true
  unfold LSMKeeper.rateSafe at hsafe ⊢
  rw [hid, hsame]
  exact hsafe

/-- Events inside of a block that mint in safe zones. -/
theorem of_view (hi : s.CheckedInv) (hparams : s'.keeper.params = s.system.keeper.params)
    (hsettings : s'.keeper.settings = s.system.keeper.settings)
    (hview : SameView HostZone.halted s.system.keeper.hostZones s'.keeper.hostZones)
    (hmints : s'.mints = s.system.mints ++ mints) (hsafe : ∀ m ∈ mints, m.Safe s.system.keeper) :
    CheckedInv ⟨s', s.checked⟩ := by
  have hrateSafe := LSMKeeper.rateSafe_congr hparams hsettings
  refine ⟨hi.halted.trans hview, fun c z hz => ?_, fun m hm => ?_⟩
  · rw [hrateSafe]
    exact hi.safe c z hz
  · show ∃ z, _ ∧ _ ∧ s'.keeper.rateSafe z = true
    rw [hrateSafe]
    rw [hmints] at hm
    rcases mem_append.mp hm with hm | hm
    · exact hi.mints m hm
    · exact hsafe m hm

/-! ## One event -/

/-- The check halts what is not safe. -/
theorem beginBlock (hi : s.CheckedInv) {ctx : LSMContext} :
    CheckedInv ⟨{ s.system with ctx := ctx, keeper := beginBlocker s.system.keeper },
      (beginBlocker s.system.keeper).hostZones⟩ := by
  refine ⟨.refl _ _, fun c z hz => ?_, hi.mints⟩
  rw [get?_beginBlocker] at hz
  obtain ⟨w, -, rfl⟩ := Option.map_eq_some_iff.mp hz
  split
  · exact .inl rfl
  · rename_i hsafe
    exact .inr (Bool.eq_true_of_not_eq_false hsafe)

/-- **A stake** is minted at the rate that was checked. -/
theorem lsmLiquidStake (hi : s.CheckedInv) {msg : MsgLSMLiquidStake}
    (hok : s.MintsAfterCheck (.lsmLiquidStake msg))
    (h : lsmLiquidStake s.system.ctx s.system.keeper msg = .ok (k, mints)) :
    CheckedInv ⟨s.system.after (k, mints), s.checked⟩ := by
  obtain ⟨started, l, hstart, hcases⟩ := lsmLiquidStake_ok h
  obtain ⟨hvalid, hactive, -, -, rfl⟩ := startLSMLiquidStake_ok hstart
  obtain ⟨rfl, hkeeper, -⟩ | ⟨rfl, hfinish⟩ := hcases
  · -- a parked stake mints nothing
    refine hi.of_view (by dsimp only [LSMSystem.after]; rw [hkeeper])
      (by dsimp only [LSMSystem.after]; rw [hkeeper]) ?_ rfl (by simp)
    rw [hkeeper]
    exact .refl _ _
  · have hkeeper := (finishLSMLiquidStake_ok hfinish).1.keeper
    refine hi.of_view (by dsimp only [LSMSystem.after]; rw [hkeeper])
      (by dsimp only [LSMSystem.after]; rw [hkeeper]) ?_ rfl fun m hm => ?_
    · rw [hkeeper]
      exact .refl _ _
    · obtain rfl := mem_singleton.mp hm
      have hzone : s.system.keeper.hostZones.get? l.hostZone.chainId = some l.hostZone := by
        rw [hvalid.chainId]
        exact hvalid.zone
      have hrate : s.RateUnchanged l.hostZone.chainId := by
        rw [hvalid.chainId]
        exact hok _ _ hvalid.origin
      exact ⟨l.hostZone, hzone, hactive, hi.rateSafe hzone hactive hrate⟩

/-- **An answer** mints at the rate that was checked, in a zone that is not halted. -/
theorem respondRate (hi : s.CheckedInv) {queryId : String} {result : Option QueriedValidator}
    (hok : s.MintsAfterCheck (.respondRate queryId result))
    (h : respondRate s.system.ctx s.system.keeper queryId result = .ok (k, mints)) :
    CheckedInv ⟨s.system.after (k, mints), s.checked⟩ := by
  obtain ⟨rfl, rfl⟩ | ⟨query, hquery, ⟨rfl, rfl⟩ | ⟨rfl, icq, -, rfl⟩ | ⟨rfl, rfl⟩ |
    ⟨args, z, zone, v, rate, slashed, -, -, hanswered⟩⟩ := respondRate_ok h
  · exact hi.of_view rfl rfl (.refl _ _) rfl (by simp)
  · exact hi.of_view rfl rfl (.refl _ _) rfl (by simp)
  · exact hi.of_view rfl rfl (.refl _ _) rfl (by simp)
  · refine hi.of_view ?_ ?_ ?_ rfl (by simp)
    all_goals
      rw [rateQueryTimeout_frame]
    · rfl
    · rfl
    · exact .refl _ _
  · have hframe := hanswered.settled.params_settings
    have hview := hanswered.sameHalted
    refine hi.of_view hframe.1 hframe.2 hview rfl fun m hm => ?_
    obtain ⟨l, hdata, -, rfl, hfinish⟩ := hanswered.settled.of_mem_mints hm
    obtain ⟨hrate, hactive⟩ := hok query l hquery hdata
    -- the zone of the stake has its new rate already, which is not its redemption rate
    obtain ⟨w, hw⟩ := (finishLSMLiquidStake_ok hfinish).1.registered
    obtain ⟨u, hu, hsettings⟩ := hanswered.sameSettings.get? hw
    have hsafe := hi.rateSafe hu (hactive u hu) hrate
    have hhalted : u.settings.halted = w.settings.halted := by rw [hsettings]
    refine ⟨w, hw, hhalted.symm.trans (hactive u hu), ?_⟩
    unfold LSMKeeper.rateSafe at hsafe ⊢
    rw [HostZone.chainId_eq_of_settings hsettings.symm,
      HostZone.redemptionRate_eq_of_settings hsettings.symm]
    exact hsafe

end CheckedInv

variable {e : LSMEvent}

/-- **Preservation**: every event that meets the condition keeps the invariant. -/
theorem CheckedInv.step {s s' : CheckedSystem} (hi : s.CheckedInv) (hok : s.MintsAfterCheck e)
    (h : s.step e = some s') : s'.CheckedInv := by
  obtain ⟨t, ht, rfl⟩ := Option.map_eq_some_iff.mp h
  cases e with
  | beginBlock blockTime blockHeight latestHeight =>
    dsimp only [LSMSystem.step] at ht
    split at ht
    · cases ht
      exact hi.beginBlock
    · cases ht
  | lsmLiquidStake msg =>
    dsimp only [LSMSystem.step] at ht
    split at ht
    · cases ht
    obtain ⟨⟨k, mints⟩, hk, rfl⟩ := toOption_map_eq_some.mp ht
    exact hi.lsmLiquidStake hok hk
  | liquidStake msg =>
    dsimp only [LSMSystem.step] at ht
    split at ht
    · cases ht
    obtain ⟨⟨k, mints⟩, hk, rfl⟩ := toOption_map_eq_some.mp ht
    obtain ⟨hframe, -⟩ := stakeNative_frame hk
    refine hi.of_view (by dsimp only [LSMSystem.after]; rw [hframe])
      (by dsimp only [LSMSystem.after]; rw [hframe]) ?_ rfl (safe_of_stakeNative hk)
    rw [hframe]
    exact .refl _ _
  | queryRate chainId validatorAddress =>
    obtain ⟨k, hk, rfl⟩ := toOption_map_eq_some.mp ht
    obtain ⟨hkeeper, -⟩ := submitValidatorSharesToTokensRateICQ_ok hk
    refine hi.of_view (by dsimp only; rw [hkeeper]) (by dsimp only; rw [hkeeper]) ?_
      (append_nil _).symm (by simp)
    rw [hkeeper]
    exact .refl _ _
  | respondRate queryId result =>
    obtain ⟨⟨k, mints⟩, hk, rfl⟩ := toOption_map_eq_some.mp ht
    exact hi.respondRate hok hk
  | send _ _ _ | respondDelegation _ _ | updateRedemptionRates | transfer _ | transferAck _ _
  | detokenize _ _ | detokenizeAck _ _ _ =>
    -- what the check reads stays the same
    obtain ⟨-, hsame, hmints⟩ := LSMSystem.step_of_isQuiet ht trivial
    exact hi.of_view hsame.params hsame.settings (hsame.hostZones.comp Prod.fst)
      (by rw [hmints, append_nil]) (by simp)

/-- **Safe mints**: in a run in which LSM liquid stakes meet the rates that were checked, stTokens
    are only minted in zones that are safe. -/
theorem minted_while_safe {s₀ s : CheckedSystem} (hstart : s₀.JustChecked)
    (hrun : Reaches step MintsAfterCheck s₀ s) :
    ∀ m ∈ s.system.mints, m.Safe s.system.keeper :=
  (hrun.invariant hstart.checkedInv fun _ _ _ hi hok hs => hi.step hok hs).mints

/-! ## Mints in unsafe zones -/

/-- The hub after the check at the begin of a block. -/
def checkedHub : CheckedSystem := ⟨lsmHub, lsmHub.keeper.hostZones⟩

private theorem checkedHub_justChecked : checkedHub.JustChecked where
  checked := rfl
  safe c z h := by
    have hzone : (empty.set twoValidatorZone).get? c = some z := h
    rw [get?_set] at hzone
    split at hzone
    · cases hzone
      right
      decide +kernel
    · cases hzone
  mints := rfl

/-- A query by hand finds that `val2` has lost half of its tokens, and the slash is recorded. -/
def slashOfVal2 (queries : ℕ) : List LSMEvent :=
  [.queryRate "host" "val2",
    .respondRate (lsmContext.sha256 (bigEndian 8 queries)) (some ⟨"val2", 100, 200 * 10 ^ 18⟩),
    .respondDelegation (QuerySystem.smallQueryId "delegation" "val2")
      (some ⟨"delegation", "val2", LegacyDec.fromInt 200⟩)]

/-- After the slash, tokens of `val1` are staked in the same block. -/
def stakeAfterSlash : List LSMEvent :=
  slashOfVal2 1 ++ [.lsmLiquidStake ⟨"staker", 5, "ibc/VAL1"⟩]

/-- A stake of tokens of `val1` is parked, and it is answered in the block after the slash. -/
def answerAfterHalt : List LSMEvent :=
  .lsmLiquidStake ⟨"staker", 50, "ibc/VAL1"⟩ :: slashOfVal2 2 ++
    [.beginBlock 1 2 lsmContext.latestHeight,
      .respondRate (lsmContext.sha256 (bigEndian 8 1)) (some ⟨"val1", 200, 200 * 10 ^ 18⟩)]

/-- The zones of the mints: are they halted, and are their rates safe? -/
def mintedZones (s : CheckedSystem) : List (Option (Bool × Bool)) :=
  s.system.mints.map fun m => (m.hostZones.get? m.chainId).map fun z =>
    (z.halted, s.system.keeper.rateSafe z)

/-- **Unsafe mints**: a zone is out of its bounds and not halted yet, and a zone is halted. -/
theorem zones_mint_out_of_bounds :
    checkedHub.JustChecked ∧
    (runSteps step checkedHub stakeAfterSlash).map mintedZones =
      some [some (false, false)] ∧
    (runSteps step checkedHub answerAfterHalt).map mintedZones =
      some [some (true, false)] := by
  refine ⟨checkedHub_justChecked, ?_, ?_⟩
  · decide +kernel
  · decide +kernel

/-- A stake in the block before the slash is parked and answered in that block. Then the slash
    is recorded, and the next block halts the zone. -/
def stakesBeforeSlash : List LSMEvent :=
  [.lsmLiquidStake ⟨"staker", 5, "ibc/VAL1"⟩, .lsmLiquidStake ⟨"staker", 50, "ibc/VAL1B"⟩,
    .respondRate (lsmContext.sha256 (bigEndian 8 1)) (some ⟨"val1", 200, 200 * 10 ^ 18⟩)] ++
    slashOfVal2 2 ++ [.beginBlock 1 2 lsmContext.latestHeight]

theorem minted_while_safe_stakesBeforeSlash :
    ∃ s, runAllowed step MintsAfterCheck checkedHub stakesBeforeSlash = some s ∧
      s.mintedZones = [some (false, true), some (false, true)] ∧
      (s.system.keeper.hostZones.get? "host").map HostZone.halted = some true ∧
      ∀ m ∈ s.system.mints, m.Safe s.system.keeper := by
  exact exists_run_end (by decide +kernel) ⟨by decide +kernel, by decide +kernel,
    minted_while_safe checkedHub_justChecked (.of_get _)⟩

end CheckedSystem

end Stride.Stakeibc
