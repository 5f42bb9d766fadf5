import Stride.Stakeibc.LSMSystem

/-!
# The Life of an LSM Deposit

A deposit is written when its stake is started. It is minted in the same transaction or when the
answer to a query arrives, transferred, and detokenized. Each of the asynchronous handlers
rewrites or removes it from a copy that was taken when its message was sent.

## Main results

- `LSMSystem.DepositInv.of_write`
- `LSMSystem.DepositInv.park`, `mint`, `drop`, `transferAll`, `transferAck`, `detokenizeAll`,
  `detokenizeAck`: what happens to deposits keeps the invariant
-/

namespace Stride.Stakeibc

open Lib Sdk Records InterchainQuery KeyedStore List LSMTokenDepositStore

/-- The deposit account of its zone holds the tokens of a deposit. -/
def LSMKeeper.Escrowed (k : LSMKeeper) (deposit : LSMTokenDeposit) : Prop :=
  deposit.amount ≤ k.bank.balance (k.settings deposit.chainId).depositAddress deposit.ibcDenom

variable {s s' : LSMSystem}

theorem mem_of_lsmOrigin {ctx : LSMContext} {settings : String → ZoneSettings} {ids : List String}
    {ibcDenom c denom : String} (h : lsmOrigin ctx settings ids ibcDenom = some (c, denom)) :
    c ∈ ids := by
  unfold lsmOrigin at h
  split at h
  · cases h
  obtain ⟨c', hc, heq⟩ := Option.map_eq_some_iff.mp h
  obtain ⟨rfl, -⟩ := Prod.mk.inj heq
  exact mem_of_find?_eq_some hc

namespace LSMSystem

/-! ## What an event can do -/

def deposit? (s : LSMSystem) (key : List UInt8) : Option LSMTokenDeposit :=
  s.keeper.lsmTokenDeposits.get? key

/-- Deposits that were minted change their status at most. -/
structure Relabelled (s s' : LSMSystem) : Prop where
  deposits : ∀ key, s'.deposit? key = s.deposit? key ∨
    ∃ deposit status, s.deposit? key = some deposit ∧ deposit.status ≠ .depositPending ∧
      status ≠ .depositPending ∧ s'.deposit? key = some { deposit with status := status }
  mints : ∃ nativeMints : List Mint, s'.mints = s.mints ++ nativeMints ∧
    ∀ m ∈ nativeMints, m.stake = none
  redeemed : s'.redeemed = s.redeemed

/-- A stake waits for an answer. -/
structure Parked (s s' : LSMSystem) (deposit : LSMTokenDeposit) : Prop where
  free : s.deposit? deposit.key = none
  stored : s'.deposit? deposit.key = some deposit
  pending : deposit.status = .depositPending
  others : ∀ key, key ≠ deposit.key → s'.deposit? key = s.deposit? key
  bank : s'.keeper.bank = s.keeper.bank
  mints : s'.mints = s.mints
  redeemed : s'.redeemed = s.redeemed

structure Dropped (s s' : LSMSystem) (deposit : LSMTokenDeposit) : Prop where
  stored : s.deposit? deposit.key = some deposit
  pending : deposit.status = .depositPending
  removed : s'.deposit? deposit.key = none
  others : ∀ key, key ≠ deposit.key → s'.deposit? key = s.deposit? key
  bank : s'.keeper.bank = s.keeper.bank
  mints : s'.mints = s.mints
  redeemed : s'.redeemed = s.redeemed

/-- A stake is minted, right away or after it has waited: the full amount goes from the staker to
    the deposit account of the zone, and the stTokens of the deposit are new. -/
structure Minted (s s' : LSMSystem) (l : LSMLiquidStake) : Prop where
  before : s.deposit? l.deposit.key = none ∨ s.deposit? l.deposit.key = some l.deposit
  pending : l.deposit.status = .depositPending
  stored : s'.deposit? l.deposit.key = some { l.deposit with status := .transferQueue }
  others : ∀ key, key ≠ l.deposit.key → s'.deposit? key = s.deposit? key
  nonneg : 0 ≤ l.deposit.amount
  staker : l.deposit.stakerAddress ≠ (s.keeper.settings l.deposit.chainId).depositAddress
  balance : ∀ a d, s'.keeper.bank.balance a d = s.keeper.bank.balance a d -
      (if a = l.deposit.stakerAddress ∧ d = l.deposit.ibcDenom then l.deposit.amount else 0) +
      (if a = (s.keeper.settings l.deposit.chainId).depositAddress ∧ d = l.deposit.ibcDenom then
        l.deposit.amount else 0) +
      (if a = l.deposit.stakerAddress ∧ d = l.deposit.stToken.1 then l.deposit.stToken.2 else 0)
  supply : ∀ d, s'.keeper.bank.supply d =
    s.keeper.bank.supply d + if d = l.deposit.stToken.1 then l.deposit.stToken.2 else 0
  mints : ∃ m : Mint, m.stake = some l ∧ m.stToken = l.deposit.stToken ∧
    s'.mints = s.mints ++ [m]
  redeemed : s'.redeemed = s.redeemed

/-- The delegation to a validator in the books of its zone. -/
def delegationOf (s : LSMSystem) (chainId validatorAddress : String) : Option ℤ :=
  (s.keeper.hostZones.get? chainId).bind fun hostZone =>
    hostZone.recorded validatorAddress

/-- The host has detokenized a deposit, and its validator is credited. -/
structure Redeemed (s : LSMSystem) (e : LSMEvent) (s' : LSMSystem) (deposit : LSMTokenDeposit)
    (amount : ℤ) : Prop where
  event : ∃ i copy, e = .detokenizeAck i .success [amount] ∧ s.detokenizations[i]? = some copy ∧
    deposit = { copy with status := .detokenizationInProgress }
  stored : s.deposit? deposit.key = some deposit
  removed : s'.deposit? deposit.key = none
  others : ∀ key, key ≠ deposit.key → s'.deposit? key = s.deposit? key
  credited : ∃ delegation,
    s.delegationOf deposit.chainId deposit.validatorAddress = some delegation ∧
    s'.delegationOf deposit.chainId deposit.validatorAddress = some (delegation + amount)
  mints : s'.mints = s.mints
  redeemed : ∃ copy, copy.key = deposit.key ∧ s'.redeemed = s.redeemed ++ [(copy, amount)]

/-- The effect of one event on the deposits. -/
inductive DepositEffect (s : LSMSystem) (e : LSMEvent) (s' : LSMSystem) : Prop where
  | relabelled (h : Relabelled s s')
  | parked (deposit : LSMTokenDeposit) (h : Parked s s' deposit)
  | dropped (deposit : LSMTokenDeposit) (h : Dropped s s' deposit)
  | minted (l : LSMLiquidStake) (h : Minted s s' l)
  | redeemed (deposit : LSMTokenDeposit) (amount : ℤ) (h : Redeemed s e s' deposit amount)

private theorem Relabelled.refl (s : LSMSystem) : Relabelled s s :=
  ⟨fun _ => .inl rfl, ⟨[], (append_nil _).symm, by simp⟩, rfl⟩

private theorem Relabelled.trans {t u : LSMSystem} (h : Relabelled s t) (h' : Relabelled t u) :
    Relabelled s u := by
  obtain ⟨nativeMints, hmints, hnative⟩ := h.mints
  obtain ⟨nativeMints', hmints', hnative'⟩ := h'.mints
  have happend : u.mints = s.mints ++ (nativeMints ++ nativeMints') := by
    rw [hmints', hmints, append_assoc]
  refine ⟨fun key => ?_, ⟨nativeMints ++ nativeMints', happend, ?_⟩, h'.redeemed.trans h.redeemed⟩
  · rcases h.deposits key with heq | ⟨d, status, hd, hpast, hstatus, heq⟩
    · rw [← heq]
      exact h'.deposits key
    · rcases h'.deposits key with heq' | ⟨d', status', hd', -, hstatus', heq'⟩
      · exact .inr ⟨d, status, hd, hpast, hstatus, heq'.trans heq⟩
      · -- the status of the first change is overwritten
        rw [heq] at hd'
        cases hd'
        exact .inr ⟨d, status', hd, hpast, hstatus', heq'⟩
  · intro m hm
    rcases mem_append.mp hm with hm | hm
    · exact hnative m hm
    · exact hnative' m hm

variable {d : LSMTokenDeposit}

/-! ## Copies of deposits -/

/-- The zone and the denom of a voucher. -/
def origin (s : LSMSystem) (ibcDenom : String) : Option (String × String) :=
  lsmOrigin s.ctx s.keeper.settings (chainIds s.keeper.hostZones) ibcDenom

/-- A stake that waits for an answer carries its deposit as it is stored. -/
structure HoldsParked (s : LSMSystem) (l : LSMLiquidStake) : Prop where
  stored : s.deposit? l.deposit.key = some l.deposit
  pending : l.deposit.status = .depositPending
  zone : l.hostZone.chainId = l.deposit.chainId
  staker : ¬s.keeper.IsDepositAccount l.deposit.stakerAddress

variable (s) (held : Prop)

/-- A transfer in flight carries the full amount. Where the deposits of a zone are found under the
    chain id of another one, the coins came from the account of that zone, and the own account
    still holds its own. -/
structure HoldsSent (t : LSMTransfer) : Prop where
  stored : s.deposit? t.deposit.key = some { t.deposit with status := .transferInProgress }
  token : t.msg.token = (t.deposit.ibcDenom, t.deposit.amount)
  sender : held → t.msg.sender = (s.keeper.settings t.deposit.chainId).depositAddress ∨
    s.keeper.Escrowed t.deposit

/-- What holds of a stored deposit by itself. -/
structure DepositOk (d : LSMTokenDeposit) : Prop where
  origin : s.origin d.ibcDenom = some (d.chainId, d.denom)
  nonneg : d.status ≠ .depositPending → 0 ≤ d.amount
  escrowed : held → d.status = .transferQueue ∨ d.status = .transferFailed → s.keeper.Escrowed d

/-- The invariant. That deposits are in escrow is part of it if `held`: it is lost when the transfer
    module fails after it has taken the coins. -/
structure DepositInv : Prop where
  deposits : ∀ key d, s.deposit? key = some d → s.DepositOk held d
  /-- deposit accounts are not overdrawn -/
  funds : ∀ c ∈ chainIds s.keeper.hostZones, ∀ denom,
    0 ≤ s.keeper.bank.balance (s.keeper.settings c).depositAddress denom
  parked : ∀ id l, s.Waits id l → s.HoldsParked l
  parkedOnce : ∀ id id' l l', s.Waits id l → s.Waits id' l' → l.deposit.key = l'.deposit.key →
    id = id'
  sent : ∀ t ∈ s.transfers, s.HoldsSent held t
  sentOnce : (s.transfers.map fun t => t.deposit.key).Nodup
  redeeming : ∀ d ∈ s.detokenizations,
    s.deposit? d.key = some { d with status := .detokenizationInProgress }
  redeemingOnce : (s.detokenizations.map LSMTokenDeposit.key).Nodup

variable {s held}

/-- Nothing is staked, sent or minted yet, and deposit accounts are not overdrawn. -/
structure NoDeposits (s : LSMSystem) : Prop where
  deposits : s.keeper.lsmTokenDeposits = .empty
  queries : s.keeper.rateQueries.queries = .empty
  transfers : s.transfers = []
  detokenizations : s.detokenizations = []
  mints : s.mints = []
  redeemed : s.redeemed = []
  funds : ∀ c ∈ chainIds s.keeper.hostZones, ∀ denom,
    0 ≤ s.keeper.bank.balance (s.keeper.settings c).depositAddress denom

theorem NoDeposits.depositInv (h : s.NoDeposits) : s.DepositInv held where
  deposits key d hd := by
    unfold deposit? at hd
    rw [h.deposits] at hd
    cases hd
  funds := h.funds
  parked id l hl := by
    obtain ⟨query, hquery, -⟩ := hl
    rw [h.queries] at hquery
    cases hquery
  parkedOnce id id' l l' hl := by
    obtain ⟨query, hquery, -⟩ := hl
    rw [h.queries] at hquery
    cases hquery
  sent t ht := by simp [h.transfers] at ht
  sentOnce := by simp [h.transfers]
  redeeming d hd := by simp [h.detokenizations] at hd
  redeemingOnce := by simp [h.detokenizations]

/-- The zones and what the transfer module knows of denoms do not change. -/
structure SameZones (s s' : LSMSystem) : Prop where
  origin : lsmOrigin s'.ctx = lsmOrigin s.ctx
  settings : s'.keeper.settings = s.keeper.settings
  chainIds : chainIds s'.keeper.hostZones = chainIds s.keeper.hostZones

namespace SameZones

private theorem origin_eq (h : SameZones s s') (ibcDenom : String) :
    s'.origin ibcDenom = s.origin ibcDenom := by
  unfold LSMSystem.origin
  rw [h.origin, h.settings, h.chainIds]

private theorem isDepositAccount_iff (h : SameZones s s') (a : String) :
    s'.keeper.IsDepositAccount a ↔ s.keeper.IsDepositAccount a := by
  unfold LSMKeeper.IsDepositAccount
  rw [h.settings, h.chainIds]

theorem of_sameView {α : Type*} {view : HostZone → α}
    (hview : SameView view s.keeper.hostZones s'.keeper.hostZones)
    (horigin : lsmOrigin s'.ctx = lsmOrigin s.ctx)
    (hsettings : s'.keeper.settings = s.keeper.settings) : SameZones s s' :=
  ⟨horigin, hsettings, hview.map_key_values⟩

end SameZones

/-- The deposits beside those in `touched` stay in escrow, and no account is overdrawn. -/
def Covers (touched : Set (List UInt8)) (s s' : LSMSystem) : Prop :=
  (∀ key d, key ∉ touched → s.deposit? key = some d → s.keeper.Escrowed d →
    s'.keeper.Escrowed d) ∧ ∀ c ∈ chainIds s.keeper.hostZones, ∀ denom,
      0 ≤ s'.keeper.bank.balance (s.keeper.settings c).depositAddress denom

/-- No deposit account loses coins. -/
def NoLoss (s s' : LSMSystem) : Prop :=
  ∀ c ∈ chainIds s.keeper.hostZones, ∀ denom,
    s.keeper.bank.balance (s.keeper.settings c).depositAddress denom ≤
      s'.keeper.bank.balance (s.keeper.settings c).depositAddress denom

theorem NoLoss.of_bank (h : s'.keeper.bank = s.keeper.bank) : NoLoss s s' := by
  intro c _ denom
  rw [h]

namespace DepositInv

variable {l : LSMLiquidStake} {t : LSMTransfer} {key : List UInt8} {query : RateQuery} {id : String}
  {i : ℕ}

section

variable (hi : s.DepositInv held)

include hi

private theorem mem_chainIds (hd : s.deposit? key = some d) :
    d.chainId ∈ chainIds s.keeper.hostZones := by
  have horigin := (hi.deposits key d hd).origin
  exact mem_of_lsmOrigin horigin

/-- **One deposit per voucher**: the voucher determines the key. -/
theorem eq_of_ibcDenom {key' : List UInt8} {d' : LSMTokenDeposit} (hd : s.deposit? key = some d)
    (hd' : s.deposit? key' = some d') (h : d.ibcDenom = d'.ibcDenom) : key = key' := by
  have horigin := (hi.deposits key d hd).origin
  rw [h, (hi.deposits key' d' hd').origin] at horigin
  obtain ⟨hchain, hdenom⟩ := Prod.mk.inj (Option.some.inj horigin)
  have hkey : d.key = key := key_of_get? hd
  have hkey' : d'.key = key' := key_of_get? hd'
  rw [← hkey, ← hkey']
  unfold LSMTokenDeposit.key
  rw [hchain, hdenom]

/-- Stakes only wait for pending deposits. -/
theorem parked_ne (h : ∀ d, s.deposit? key = some d → d.status ≠ .depositPending)
    (hl : s.Waits id l) : l.deposit.key ≠ key := by
  rintro rfl
  obtain ⟨hstored, hpending, -⟩ := hi.parked id l hl
  exact h _ hstored hpending

private theorem sent_ne (h : ∀ d, s.deposit? key = some d → d.status ≠ .transferInProgress)
    (ht : t ∈ s.transfers) : t.deposit.key ≠ key := by
  rintro rfl
  exact h _ (hi.sent t ht).stored rfl

private theorem redeeming_ne
    (h : ∀ d, s.deposit? key = some d → d.status ≠ .detokenizationInProgress)
    (hd : d ∈ s.detokenizations) : d.key ≠ key := by
  rintro rfl
  exact h _ (hi.redeeming d hd) rfl

section

variable (hzones : SameZones s s')
include hzones

/-- **Frame rule**: an event that writes the deposits in `touched`. What is in flight for other
    deposits was in flight before. -/
theorem of_write (touched : Set (List UInt8))
    (hother : ∀ key, key ∉ touched → s'.deposit? key = s.deposit? key)
    (hown : ∀ key d, key ∈ touched → s'.deposit? key = some d → s'.DepositOk held d)
    (hcovers : Covers touched s s')
    (hparked : ∀ id l, s'.Waits id l →
      l.deposit.key ∉ touched ∧ s.HoldsParked l ∨ s'.HoldsParked l)
    (hparkedOnce : ∀ id id' l l', s'.Waits id l → s'.Waits id' l' →
      l.deposit.key = l'.deposit.key → id = id')
    (hsent : ∀ t ∈ s'.transfers, t.deposit.key ∉ touched ∧ t ∈ s.transfers ∨ s'.HoldsSent held t)
    (hsentOnce : (s'.transfers.map fun t => t.deposit.key).Nodup)
    (hredeeming : ∀ d ∈ s'.detokenizations, d.key ∉ touched ∧ d ∈ s.detokenizations ∨
      s'.deposit? d.key = some { d with status := .detokenizationInProgress })
    (hredeemingOnce : (s'.detokenizations.map LSMTokenDeposit.key).Nodup) : s'.DepositInv held where
  deposits key d hd := by
    by_cases hkey : key ∈ touched
    · exact hown key d hkey hd
    · rw [hother key hkey] at hd
      obtain ⟨horigin, hnonneg, hescrowed⟩ := hi.deposits key d hd
      exact ⟨(hzones.origin_eq _).trans horigin, hnonneg,
        fun h hstatus => hcovers.1 key d hkey hd (hescrowed h hstatus)⟩
  funds c hc denom := by
    rw [hzones.settings]
    rw [hzones.chainIds] at hc
    exact hcovers.2 c hc denom
  parked id l hl := by
    rcases hparked id l hl with ⟨hkey, hstored, hpending, hzone, hstaker⟩ | h
    · exact ⟨(hother _ hkey).trans hstored, hpending, hzone,
        fun h => hstaker ((hzones.isDepositAccount_iff _).mp h)⟩
    · exact h
  parkedOnce := hparkedOnce
  sent t ht := by
    rcases hsent t ht with ⟨hkey, ht⟩ | h
    · obtain ⟨hstored, htoken, hsender⟩ := hi.sent t ht
      refine ⟨(hother _ hkey).trans hstored, htoken, ?_⟩
      rw [hzones.settings]
      have hheld := hcovers.1 _ _ hkey hstored
      exact fun h => (hsender h).imp_right hheld
    · exact h
  sentOnce := hsentOnce
  redeeming d hd := by
    rcases hredeeming d hd with ⟨hkey, hd⟩ | h
    · exact (hother _ hkey).trans (hi.redeeming d hd)
    · exact h
  redeemingOnce := hredeemingOnce

private theorem escrowed_of_noLoss (hloss : NoLoss s s')
    (hd : s.deposit? key = some d) (h : s.keeper.Escrowed d) : s'.keeper.Escrowed d := by
  unfold LSMKeeper.Escrowed at h ⊢
  rw [hzones.settings]
  exact h.trans (hloss _ (hi.mem_chainIds hd) _)

private theorem covers_of_noLoss {touched : Set (List UInt8)} (hloss : NoLoss s s') :
    Covers touched s s' :=
  ⟨fun _ _ _ hd => hi.escrowed_of_noLoss hzones hloss hd,
    fun c hc denom => (hi.funds c hc denom).trans (hloss c hc denom)⟩

/-- Deposits stay and accounts lose nothing. -/
theorem of_noLoss (hloss : NoLoss s s')
    (hdeposits : s'.keeper.lsmTokenDeposits = s.keeper.lsmTokenDeposits)
    (hwaits : ∀ id l, s'.Waits id l → s.Waits id l) (htransfers : s'.transfers <+ s.transfers)
    (hdetokenizations : s'.detokenizations <+ s.detokenizations) : s'.DepositInv held := by
  refine hi.of_write hzones ∅ (fun key _ => ?_) (fun key d hkey => hkey.elim)
    (hi.covers_of_noLoss hzones hloss)
    (fun id l hl => .inl ⟨Set.notMem_empty _, hi.parked id l (hwaits id l hl)⟩)
    (fun id id' l l' hl hl' => hi.parkedOnce id id' l l' (hwaits id l hl) (hwaits id' l' hl'))
    (fun t ht => .inl ⟨Set.notMem_empty _, htransfers.subset ht⟩)
    (hi.sentOnce.sublist (htransfers.map _))
    (fun d hd => .inl ⟨Set.notMem_empty _, hdetokenizations.subset hd⟩)
    (hi.redeemingOnce.sublist (hdetokenizations.map _))
  unfold deposit?
  rw [hdeposits]

/-- A pending deposit is written, and no stake waits for it any more. -/
theorem settle (hloss : NoLoss s s')
    (hold : ∀ d, s.deposit? key = some d → d.status = .depositPending)
    (hother : ∀ key', key' ≠ key → s'.deposit? key' = s.deposit? key')
    (hown : ∀ d, s'.deposit? key = some d → s'.DepositOk held d)
    (hwaits : ∀ id l, s'.Waits id l → s.Waits id l ∧ l.deposit.key ≠ key)
    (htransfers : s'.transfers = s.transfers)
    (hdetokenizations : s'.detokenizations = s.detokenizations) : s'.DepositInv held := by
  refine hi.of_write hzones {key} hother (fun key' d hkey hd => hown d (hkey ▸ hd))
    (hi.covers_of_noLoss hzones hloss) (fun id l hl => .inl ?_) (fun id id' l l' hl hl' => ?_)
    (fun t ht => .inl ?_) (htransfers ▸ hi.sentOnce) (fun d hd => .inl ?_)
    (hdetokenizations ▸ hi.redeemingOnce)
  · exact ⟨(hwaits id l hl).2, hi.parked id l (hwaits id l hl).1⟩
  · exact hi.parkedOnce id id' l l' (hwaits id l hl).1 (hwaits id' l' hl').1
  · rw [htransfers] at ht
    exact ⟨hi.sent_ne (fun d hd => by simp [hold d hd]) ht, ht⟩
  · rw [hdetokenizations] at hd
    exact ⟨hi.redeeming_ne (fun d hd => by simp [hold d hd]) hd, hd⟩

end

end

/-! ## Starting and minting -/

private theorem waits_set (hdata : query.callbackData = .lsmLiquidStake l)
    (h : s'.keeper.rateQueries.queries = s.keeper.rateQueries.queries.set query)
    {l' : LSMLiquidStake} (hl : s'.Waits id l') :
    id = query.id ∧ l' = l ∨ id ≠ query.id ∧ s.Waits id l' := by
  obtain ⟨query', hget, hdata'⟩ := hl
  rw [h, get?_set] at hget
  split at hget
  · rename_i hid
    cases hget
    rw [hdata] at hdata'
    cases hdata'
    exact .inl ⟨hid, rfl⟩
  · rename_i hid
    exact .inr ⟨hid, query', hget, hdata'⟩

/-- A new deposit waits for the rate. -/
theorem park (hi : s.DepositInv held) {msg : MsgLSMLiquidStake}
    (hvalid : ValidLSMLiquidStake s.ctx s.keeper msg l)
    (hsigner : ¬s.keeper.IsDepositAccount msg.creator) (hfree : s.deposit? l.deposit.key = none)
    (hdata : query.callbackData = .lsmLiquidStake l) {icq : IcqKeeper RateQueryData}
    (hqueries : icq.queries = s.keeper.rateQueries.queries.set query) :
    (s.after ({ s.keeper with
      lsmTokenDeposits := s.keeper.lsmTokenDeposits.set l.deposit
      rateQueries := icq }, [])).DepositInv held := by
  have hstored := get?_set_self s.keeper.lsmTokenDeposits l.deposit
  -- the staker has signed
  have hstaker : l.deposit.stakerAddress = msg.creator :=
    congrArg MsgLSMLiquidStake.creator hvalid.msg
  have hibc : l.deposit.ibcDenom = msg.lsmTokenIbcDenom :=
    congrArg MsgLSMLiquidStake.lsmTokenIbcDenom hvalid.msg
  have hne {id : String} {l' : LSMLiquidStake} (hl : s.Waits id l') :
      l'.deposit.key ≠ l.deposit.key :=
    hi.parked_ne (by simp [hfree]) hl
  refine hi.of_write ⟨rfl, rfl, rfl⟩ {l.deposit.key} (fun key hkey => get?_set_of_ne _ _ hkey)
    (fun key d hkey hd => ?_) ⟨fun _ _ _ _ h => h, hi.funds⟩ (fun id l' hl => ?_)
    (fun id id' l₁ l₂ hl₁ hl₂ hkey => ?_)
    (fun t ht => .inl ⟨hi.sent_ne (by simp [hfree]) ht, ht⟩) hi.sentOnce
    (fun d hd => .inl ⟨hi.redeeming_ne (by simp [hfree]) hd, hd⟩) hi.redeemingOnce
  · obtain rfl : key = l.deposit.key := hkey
    cases hstored.symm.trans hd
    refine ⟨hibc ▸ hvalid.origin, fun h => absurd hvalid.status h, fun _ h => ?_⟩
    rw [hvalid.status] at h
    simp at h
  · obtain ⟨-, rfl⟩ | ⟨-, hl⟩ := waits_set hdata hqueries hl
    · exact .inr ⟨hstored, hvalid.status, hvalid.chainId, hstaker ▸ hsigner⟩
    · exact .inl ⟨hne hl, hi.parked id l' hl⟩
  · obtain ⟨rfl, rfl⟩ | ⟨-, hold₁⟩ := waits_set hdata hqueries hl₁
    · obtain ⟨rfl, -⟩ | ⟨-, hold₂⟩ := waits_set hdata hqueries hl₂
      · rfl
      · exact absurd hkey.symm (hne hold₂)
    · obtain ⟨-, rfl⟩ | ⟨-, hold₂⟩ := waits_set hdata hqueries hl₂
      · exact absurd hkey (hne hold₁)
      · exact hi.parkedOnce id id' l₁ l₂ hold₁ hold₂ hkey

private theorem balance_of_minted (hminted : Minted s s' l)
    (hstaker : ¬s.keeper.IsDepositAccount l.deposit.stakerAddress) :
    ∀ c ∈ chainIds s.keeper.hostZones, ∀ denom,
      s'.keeper.bank.balance (s.keeper.settings c).depositAddress denom =
        s.keeper.bank.balance (s.keeper.settings c).depositAddress denom +
          if (s.keeper.settings c).depositAddress =
            (s.keeper.settings l.deposit.chainId).depositAddress ∧ denom = l.deposit.ibcDenom then
          l.deposit.amount else 0 := by
  intro c hc denom
  have hne : (s.keeper.settings c).depositAddress ≠ l.deposit.stakerAddress :=
    fun heq => hstaker ⟨c, hc, heq⟩
  rw [hminted.balance]
  simp [hne]

/-- A stake is minted, for a deposit that is new or was pending. The stake does not wait any
    more. -/
theorem mint (hi : s.DepositInv held) (hzones : SameZones s s') (hminted : Minted s s' l)
    (horigin : s.origin l.deposit.ibcDenom = some (l.deposit.chainId, l.deposit.denom))
    (hstaker : ¬s.keeper.IsDepositAccount l.deposit.stakerAddress)
    (hwaits : ∀ id l', s'.Waits id l' → s.Waits id l' ∧ l'.deposit.key ≠ l.deposit.key)
    (htransfers : s'.transfers = s.transfers)
    (hdetokenizations : s'.detokenizations = s.detokenizations) : s'.DepositInv held := by
  have hgain := balance_of_minted hminted hstaker
  have hloss : NoLoss s s' := by
    intro c hc denom
    rw [hgain c hc denom]
    have hamount := hminted.nonneg
    split <;> omega
  refine hi.settle hzones hloss (fun d hd => ?_) hminted.others (fun d hd => ?_) hwaits htransfers
    hdetokenizations
  · -- a deposit that was stored before was pending
    rcases hminted.before with hnone | hsome
    · cases hnone.symm.trans hd
    · cases hsome.symm.trans hd
      exact hminted.pending
  · cases hminted.stored.symm.trans hd
    refine ⟨(hzones.origin_eq _).trans horigin, fun _ => hminted.nonneg, fun _ _ => ?_⟩
    have hmem : l.deposit.chainId ∈ chainIds s.keeper.hostZones := mem_of_lsmOrigin horigin
    show l.deposit.amount ≤ s'.keeper.bank.balance
      (s'.keeper.settings l.deposit.chainId).depositAddress l.deposit.ibcDenom
    rw [hzones.settings, hgain _ hmem, if_pos ⟨rfl, rfl⟩]
    have hfunds := hi.funds _ hmem l.deposit.ibcDenom
    omega

/-- A waiting deposit is removed. -/
theorem drop (hi : s.DepositInv held) (hl : s.Waits id l) (hzones : SameZones s s')
    (hdropped : Dropped s s' l.deposit)
    (hwaits : ∀ id' l', s'.Waits id' l' → s.Waits id' l' ∧ id' ≠ id)
    (htransfers : s'.transfers = s.transfers)
    (hdetokenizations : s'.detokenizations = s.detokenizations) : s'.DepositInv held := by
  refine hi.settle hzones (.of_bank hdropped.bank) (fun d hd => ?_) hdropped.others (fun d hd => ?_)
    (fun id' l' hl' => ?_) htransfers hdetokenizations
  · cases hdropped.stored.symm.trans hd
    exact hdropped.pending
  · cases hdropped.removed.symm.trans hd
  · obtain ⟨hl', hid⟩ := hwaits id' l' hl'
    exact ⟨hl', fun hkey => hid (hi.parkedOnce id' id l' l hl' hl hkey)⟩

/-! ## Transfers and detokenizations -/

/-- **A new status** for a deposit that was minted. -/
theorem relabel (hi : s.DepositInv held) {status : LSMTokenDepositStatus}
    (hd : s.deposit? d.key = some d) (hpast : d.status ≠ .depositPending)
    (hstatus : status ≠ .depositPending) (hzones : SameZones s s')
    (hdeposits : s'.keeper.lsmTokenDeposits =
      s.keeper.lsmTokenDeposits.updateLSMTokenDepositStatus d status)
    (hown : held → status = .transferQueue ∨ status = .transferFailed → s'.keeper.Escrowed d)
    (hcovers : Covers {d.key} s s')
    (hqueries : s'.keeper.rateQueries = s.keeper.rateQueries)
    (hsent : ∀ t ∈ s'.transfers, t.deposit.key ≠ d.key ∧ t ∈ s.transfers ∨ s'.HoldsSent held t)
    (hsentOnce : (s'.transfers.map fun t => t.deposit.key).Nodup)
    (hredeeming : ∀ d' ∈ s'.detokenizations, d'.key ≠ d.key ∧ d' ∈ s.detokenizations ∨
      s'.deposit? d'.key = some { d' with status := .detokenizationInProgress })
    (hredeemingOnce : (s'.detokenizations.map LSMTokenDeposit.key).Nodup)
    (hmints : s'.mints = s.mints) (hredeemed : s'.redeemed = s.redeemed) :
    s'.DepositInv held ∧ Relabelled s s' := by
  have hwaits {id : String} {l : LSMLiquidStake} (hl : s'.Waits id l) : s.Waits id l := by
    unfold Waits at hl
    rw [hqueries] at hl
    exact hl
  have hstored : s'.deposit? d.key = some { d with status := status } := by
    unfold deposit?
    rw [hdeposits]
    exact get?_set_self s.keeper.lsmTokenDeposits { d with status := status }
  have hother {key : List UInt8} (hkey : key ≠ d.key) : s'.deposit? key = s.deposit? key := by
    unfold deposit?
    rw [hdeposits]
    exact get?_set_of_ne s.keeper.lsmTokenDeposits { d with status := status } hkey
  constructor
  · refine hi.of_write hzones {d.key} (fun key hkey => hother hkey) (fun key d' hkey hd' => ?_)
      hcovers (fun id l hl => .inl ⟨?_, hi.parked id l (hwaits hl)⟩)
      (fun id id' l l' hl hl' => hi.parkedOnce id id' l l' (hwaits hl) (hwaits hl')) hsent hsentOnce
      hredeeming hredeemingOnce
    · obtain rfl : key = d.key := hkey
      rw [hstored] at hd'
      cases hd'
      obtain ⟨horigin, hnonneg, -⟩ := hi.deposits _ d hd
      exact ⟨(hzones.origin_eq _).trans horigin, fun _ => hnonneg hpast, hown⟩
    · -- a stake waits for a pending deposit, which this is not
      exact hi.parked_ne (by simpa [hd] using hpast) (hwaits hl)
  · refine ⟨fun key => ?_, ⟨[], by rw [hmints, append_nil], by simp⟩, hredeemed⟩
    by_cases hkey : key = d.key
    · exact .inr ⟨d, status, hkey ▸ hd, hpast, hstatus, hkey ▸ hstored⟩
    · exact .inl (hother hkey)

private theorem nodup_map_concat {α β : Type*} {f : α → β} {l : List α} {a : α}
    (h : (l.map f).Nodup) (ha : ∀ b ∈ l, f b ≠ f a) : ((l ++ [a]).map f).Nodup := by
  rw [map_append]
  refine nodup_append.mpr ⟨h, nodup_singleton _, ?_⟩
  intro x hx y hy
  obtain ⟨b, hb, rfl⟩ := mem_map.mp hx
  rw [mem_singleton.mp hy]
  exact ha b hb

private theorem ne_of_mem_eraseIdx {α β : Type*} {f : α → β} {l : List α} {a b : α}
    (h : (l.map f).Nodup) (hi : l[i]? = some a) (hb : b ∈ l.eraseIdx i) : f b ≠ f a := by
  have hnd := ((perm_cons_eraseIdx hi).map f).nodup_iff.mp h
  rw [map_cons, nodup_cons] at hnd
  intro heq
  exact hnd.1 (heq ▸ mem_map_of_mem hb)

private theorem nodup_map_eraseIdx {α β : Type*} {f : α → β} {l : List α} (h : (l.map f).Nodup)
    (i : ℕ) : ((l.eraseIdx i).map f).Nodup :=
  h.sublist ((eraseIdx_sublist l i).map f)

variable (hi : s.DepositInv held)

include hi

/-- **One transfer**: it is sent, or the deposit has failed, with or without its coins. -/
theorem transferDeposit {z : HostZone} {reply : TransferReply} (hreply : held → reply ≠ .failed)
    (hd : s.deposit? d.key = some d) (hstatus : d.status = .transferQueue)
    {out : LSMKeeper × List LSMTransfer} (hout : transferLSMDeposit s.keeper z reply d = out) :
    let s' := { s with keeper := out.1, transfers := s.transfers ++ out.2 }
    s'.DepositInv held ∧ Relabelled s s' := by
  have hpast : d.status ≠ .depositPending := by simp [hstatus]
  have hheld (h : held) : s.keeper.Escrowed d := (hi.deposits _ d hd).escrowed h (.inl hstatus)
  have hsent {t : LSMTransfer} (ht : t ∈ s.transfers) : t.deposit.key ≠ d.key :=
    hi.sent_ne (by simp [hd, hstatus]) ht
  have hunsent {t : LSMTransfer} (ht : t ∈ s.transfers ++ []) :
      t.deposit.key ≠ d.key ∧ t ∈ s.transfers := by
    rw [append_nil] at ht
    exact ⟨hsent ht, ht⟩
  have hredeeming {d' : LSMTokenDeposit} (hd' : d' ∈ s.detokenizations) : d'.key ≠ d.key :=
    hi.redeeming_ne (by simp [hd, hstatus]) hd'
  obtain heq | ⟨hfunds, hcases⟩ := transferLSMDeposit_cases s.keeper z reply d
  · rw [heq] at hout
    subst hout
    exact hi.relabel hd hpast (by simp) ⟨rfl, rfl, rfl⟩ rfl (fun h _ => hheld h)
      ⟨fun _ _ _ _ h => h, hi.funds⟩ rfl (fun t ht => .inl (hunsent ht))
      (by simpa using hi.sentOnce) (fun d' hd' => .inl ⟨hredeeming hd', hd'⟩) hi.redeemingOnce
      rfl rfl
  -- only the sender has less, and only of this voucher
  have hbalance (a denom : String) :
      (takeCoins s.keeper.bank (lsmTransferMsg (s.keeper.settings z.chainId) z d)).balance a denom =
        s.keeper.bank.balance a denom +
          if a = (s.keeper.settings z.chainId).depositAddress ∧ denom = d.ibcDenom then
            -d.amount else 0 :=
    Bank.balance_addCoins ..
  have hcovers {s' : LSMSystem} (hsettings : s'.keeper.settings = s.keeper.settings)
      (hbank : s'.keeper.bank =
        takeCoins s.keeper.bank (lsmTransferMsg (s.keeper.settings z.chainId) z d)) :
      Covers {d.key} s s' := by
    refine ⟨fun key d' hkey hd' h => ?_, fun c hc denom => ?_⟩
    · have hdenom : d'.ibcDenom ≠ d.ibcDenom := fun heq => hkey (hi.eq_of_ibcDenom hd' hd heq)
      unfold LSMKeeper.Escrowed
      rw [hsettings, hbank, hbalance, if_neg fun h => hdenom h.2, add_zero]
      exact h
    · rw [hbank, hbalance]
      split
      · rename_i heq
        rw [heq.1, heq.2]
        have hcovered : d.amount ≤
          s.keeper.bank.balance (s.keeper.settings z.chainId).depositAddress d.ibcDenom := hfunds
        omega
      · rw [add_zero]
        exact hi.funds c hc denom
  obtain heq | ⟨hfailed, heq⟩ := hcases
  · rw [heq] at hout
    subst hout
    refine hi.relabel hd hpast (by simp) ⟨rfl, rfl, rfl⟩ rfl (by simp) (hcovers rfl rfl) rfl
      (fun t ht => ?_) (nodup_map_concat hi.sentOnce fun t ht => hsent ht)
      (fun d' hd' => .inl ⟨hredeeming hd', hd'⟩) hi.redeemingOnce rfl rfl
    rcases mem_append.mp ht with ht | ht
    · exact .inl ⟨hsent ht, ht⟩
    · obtain rfl := mem_singleton.mp ht
      refine .inr ⟨get?_set_self s.keeper.lsmTokenDeposits
        { d with status := .transferInProgress }, rfl, fun h => ?_⟩
      by_cases hsender : (s.keeper.settings z.chainId).depositAddress =
        (s.keeper.settings d.chainId).depositAddress
      · exact .inl hsender
      · right
        show d.amount ≤ (takeCoins _ _).balance _ _
        rw [hbalance, if_neg fun h => hsender h.1.symm, add_zero]
        exact hheld h
  · -- the coins are gone, and no packet will bring them back
    rw [heq] at hout
    subst hout
    exact hi.relabel hd hpast (by simp) ⟨rfl, rfl, rfl⟩ rfl (fun h => absurd hfailed (hreply h))
      (hcovers rfl rfl) rfl (fun t ht => .inl (hunsent ht)) (by simpa using hi.sentOnce)
      (fun d' hd' => .inl ⟨hredeeming hd', hd'⟩) hi.redeemingOnce rfl rfl

/-- The epoch sends the queued deposits. -/
theorem transferAll (replies : List UInt8 → TransferReply)
    (hwhole : held → ∀ key d, s.deposit? key = some d → replies key ≠ .failed) :
    let out := transferAllLSMDeposits s.keeper replies
    let s' := { s with keeper := out.1, transfers := s.transfers ++ out.2 }
    s'.DepositInv held ∧ Relabelled s s' := by
  let P (out : LSMKeeper × List LSMTransfer) : Prop :=
    ({ s with keeper := out.1, transfers := s.transfers ++ out.2 } : LSMSystem).DepositInv held ∧
      Relabelled s { s with keeper := out.1, transfers := s.transfers ++ out.2 }
  have hstart : P (s.keeper, []) := by
    simp only [P, append_nil]
    exact ⟨hi, .refl s⟩
  refine foldlRecOn (motive := P) _ _ hstart fun out hout z _ => ?_
  unfold transferLSMDepositsOf
  split
  · exact hout
  · -- the deposits were read before the loop, and a turn writes its own
    refine foldl_rule (fun out : LSMKeeper × List LSMTransfer => out.1.lsmTokenDeposits)
      (P := P) ?_ (fun t d hd ht hstored => ?_) ?_ (fun d hd => ?_) hout
    · rintro ⟨k, sent⟩ d key hkey
      exact (transferLSMDeposit_frame k z _ d).2 key hkey
    · have hstatus := (of_mem_getLSMDepositsForHostZoneWithStatus hd).2
      have hreply (h : held) : replies d.key ≠ .failed := by
        -- a turn keeps the keys
        rcases ht.2.deposits d.key with heq | ⟨d₀, _, hd₀, -⟩
        · exact hwhole h _ d (heq.symm.trans hstored)
        · exact hwhole h _ d₀ hd₀
      obtain ⟨hinv, hlabels⟩ := ht.1.transferDeposit (z := z) hreply hstored hstatus rfl
      simp only [append_assoc] at hinv hlabels
      exact ⟨hinv, ht.2.trans hlabels⟩
    · exact nodup_map_key_getLSMDepositsForHostZoneWithStatus ..
    · exact (of_mem_getLSMDepositsForHostZoneWithStatus hd).1

/-- A transfer is answered. -/
theorem transferAck (ht : s.transfers[i]? = some t) (status : AckStatus) :
    let k := lsmTransferCallback s.keeper t.deposit status
    let s' := { s with
      keeper := { k with
        bank := if status = .success then k.bank else k.bank.addCoins t.msg.sender t.msg.token }
      transfers := s.transfers.eraseIdx i }
    s'.DepositInv held ∧ Relabelled s s' := by
  intro k s'
  obtain ⟨hstored, htoken, hsender⟩ := hi.sent t (mem_of_getElem? ht)
  have hok := hi.deposits _ _ hstored
  have hnonneg : 0 ≤ t.deposit.amount := hok.nonneg (by simp)
  have hstatus : lsmStatusAfterTransfer status ≠ .depositPending := by
    cases status <;> simp [lsmStatusAfterTransfer]
  have hbalance (a denom : String) : s'.keeper.bank.balance a denom =
      s.keeper.bank.balance a denom +
        if status ≠ .success ∧ a = t.msg.sender ∧ denom = t.deposit.ibcDenom then t.deposit.amount
        else 0 := by
    show (if status = .success then s.keeper.bank
      else s.keeper.bank.addCoins t.msg.sender t.msg.token).balance a denom = _
    split
    · rename_i hsuccess
      simp [hsuccess]
    · rename_i hfailed
      rw [htoken]
      simp [hfailed]
  have hloss : NoLoss s s' := by
    intro c _ denom
    rw [hbalance]
    split <;> omega
  have hzones : SameZones s s' := ⟨rfl, rfl, rfl⟩
  have hother {d' : LSMTokenDeposit} (hd' : d' ∈ s.detokenizations) : d'.key ≠ t.deposit.key :=
    hi.redeeming_ne (by simp [hstored]) hd'
  refine hi.relabel (d := { t.deposit with status := .transferInProgress }) hstored (by simp)
    hstatus hzones rfl (fun h hqueued => ?_) (hi.covers_of_noLoss hzones hloss) rfl
    (fun u hu => .inl ⟨ne_of_mem_eraseIdx (f := fun u => u.deposit.key) hi.sentOnce ht hu,
      mem_of_mem_eraseIdx hu⟩)
    (nodup_map_eraseIdx hi.sentOnce i) (fun d' hd' => .inl ⟨hother hd', hd'⟩) hi.redeemingOnce
    rfl rfl
  have hnot : status ≠ .success := by
    rintro rfl
    simp [lsmStatusAfterTransfer] at hqueued
  rcases hsender h with hown | hheld
  · -- the coins are back in the account
    show t.deposit.amount ≤ s'.keeper.bank.balance
      (s.keeper.settings t.deposit.chainId).depositAddress t.deposit.ibcDenom
    rw [hbalance, if_pos ⟨hnot, hown.symm, rfl⟩]
    have hfunds := hi.funds _ (hi.mem_chainIds hstored) t.deposit.ibcDenom
    have hfunds' : 0 ≤ s.keeper.bank.balance
      (s.keeper.settings t.deposit.chainId).depositAddress t.deposit.ibcDenom := hfunds
    omega
  · exact hi.escrowed_of_noLoss hzones hloss hstored hheld

/-- **One detokenization** is sent. -/
theorem detokenizeDeposit (hd : s.deposit? d.key = some d)
    (hstatus : d.status = .detokenizationQueue) (hzones : SameZones s s')
    (hctx : s'.transfers = s.transfers) (hsent : s'.detokenizations = s.detokenizations ++ [d])
    (hdeposits : s'.keeper.lsmTokenDeposits =
      s.keeper.lsmTokenDeposits.updateLSMTokenDepositStatus d .detokenizationInProgress)
    (hbank : s'.keeper.bank = s.keeper.bank)
    (hqueries : s'.keeper.rateQueries = s.keeper.rateQueries) (hmints : s'.mints = s.mints)
    (hredeemed : s'.redeemed = s.redeemed) : s'.DepositInv held ∧ Relabelled s s' := by
  -- a queued deposit is not in flight
  have hredeeming {d' : LSMTokenDeposit} (hd' : d' ∈ s.detokenizations) : d'.key ≠ d.key :=
    hi.redeeming_ne (by simp [hd, hstatus]) hd'
  have hloss : NoLoss s s' := .of_bank hbank
  refine hi.relabel hd (by simp [hstatus]) (by simp) hzones hdeposits (by simp)
    (hi.covers_of_noLoss hzones hloss) hqueries
    (fun t ht => .inl ?_) (hctx ▸ hi.sentOnce) (fun d' hd' => ?_) ?_ hmints hredeemed
  · rw [hctx] at ht
    exact ⟨hi.sent_ne (by simp [hd, hstatus]) ht, ht⟩
  · rw [hsent] at hd'
    rcases mem_append.mp hd' with hd' | hd'
    · exact .inl ⟨hredeeming hd', hd'⟩
    · obtain rfl := mem_singleton.mp hd'
      right
      unfold deposit?
      rw [hdeposits]
      exact get?_set_self s.keeper.lsmTokenDeposits
        { d' with status := .detokenizationInProgress }
  · rw [hsent]
    exact nodup_map_concat hi.redeemingOnce fun d' hd' => hredeeming hd'

/-- The epoch detokenizes what has arrived. -/
theorem detokenizeAll (closed : List String) (rejected : List (List UInt8)) :
    let out := detokenizeAllLSMDeposits s.keeper closed rejected
    let s' := { s with keeper := out.1, detokenizations := s.detokenizations ++ out.2 }
    s'.DepositInv held ∧ Relabelled s s' := by
  let at' (k : LSMKeeper) (sent : List LSMTokenDeposit) : LSMSystem :=
    { s with keeper := k, detokenizations := s.detokenizations ++ sent }
  let P (k : LSMKeeper) (sent : List LSMTokenDeposit) : Prop :=
    ((at' k sent).DepositInv held ∧ Relabelled s (at' k sent)) ∧
      SameView HostZone.chainId s.keeper.hostZones k.hostZones
  have hstart : P s.keeper [] := by
    simp only [P, at', append_nil]
    exact ⟨⟨hi, .refl s⟩, .refl _ _⟩
  have hall : P (detokenizeAllLSMDeposits s.keeper closed rejected).1
      (detokenizeAllLSMDeposits s.keeper closed rejected).2 := by
    refine foldlRecOn (motive := fun out : LSMKeeper × List LSMTokenDeposit => P out.1 out.2)
      _ _ hstart fun out hout z hz => ?_
    have hzone : s.keeper.hostZones.get? z.chainId = some z :=
      mem_values_iff.mp (mem_filter.mp hz).1
    unfold detokenizeLSMDepositsOf
    split
    · exact hout
    · -- the zone in hand is the one of the store, up to its counters
      let Q (loop : DetokenizeLoop) : Prop :=
        P loop.keeper loop.sent ∧ loop.hostZone.chainId = z.chainId
      have hloop : Q ((out.1.lsmTokenDeposits.getLSMDepositsForHostZoneWithStatus z.chainId
          .detokenizationQueue).foldl (detokenizeLSMDeposit rejected) ⟨out.1, z, out.2⟩) := by
        refine foldl_rule (fun loop : DetokenizeLoop => loop.keeper.lsmTokenDeposits)
          (P := Q) (fun loop d key hkey => ?_) (fun loop d hd hloop hstored => ?_)
          (nodup_map_key_getLSMDepositsForHostZoneWithStatus ..)
          (fun d hd => (of_mem_getLSMDepositsForHostZoneWithStatus hd).1)
          ⟨hout, rfl⟩
        · obtain heq | ⟨z', ⟨-, heq⟩ | heq⟩ := detokenizeLSMDeposit_cases rejected loop d
          · rw [heq]
          · rw [heq]
            exact get?_set_of_ne _ _ hkey
          · rw [heq]
            exact get?_set_of_ne _ _ hkey
        · have hstatus := (of_mem_getLSMDepositsForHostZoneWithStatus hd).2
          obtain ⟨⟨⟨hinv, hlabels⟩, hview⟩, hid⟩ := hloop
          obtain heq | ⟨z', ⟨heffect, heq⟩ | heq⟩ := detokenizeLSMDeposit_cases rejected loop d
          · rw [heq]
            exact ⟨⟨⟨hinv, hlabels⟩, hview⟩, hid⟩
          · rw [heq]
            have hid' : z'.chainId = z.chainId := heffect.chainId.trans hid
            have hview' : SameView HostZone.chainId s.keeper.hostZones
                (loop.keeper.hostZones.set z') :=
              hview.set (hid' ▸ hzone) hid'
            have hids : chainIds (loop.keeper.hostZones.set z') = chainIds loop.keeper.hostZones :=
              hview'.map_key_values.trans hview.map_key_values.symm
            refine ⟨⟨.imp_right hlabels.trans ?_, hview'⟩, hid'⟩
            exact hinv.detokenizeDeposit hstored hstatus ⟨rfl, rfl, hids⟩ rfl
              (append_assoc ..).symm rfl rfl rfl rfl rfl
          · rw [heq]
            refine ⟨⟨.imp_right hlabels.trans ?_, hview⟩, hid⟩
            exact hinv.detokenizeDeposit hstored hstatus ⟨rfl, rfl, rfl⟩ rfl
              (append_assoc ..).symm rfl rfl rfl rfl rfl
      exact hloop.1
  exact hall.1

/-- A detokenization is acknowledged. Only a success removes the deposit, and it credits the
    validator. -/
theorem detokenizeAck {copy : LSMTokenDeposit} {status : AckStatus} {msgResponses : List ℤ}
    {k : LSMKeeper} (hcopy : s.detokenizations[i]? = some copy)
    (h : s.keeper.detokenizeCallback copy status msgResponses = .ok k) : let s' := { s with
      keeper := k
      detokenizations := s.detokenizations.eraseIdx i
      redeemed := s.redeemed ++ if status = .success then msgResponses.map (copy, ·) else [] }
    s'.DepositInv held ∧ DepositEffect s (.detokenizeAck i status msgResponses) s' := by
  intro s'
  obtain ⟨z, z', stakeAmount, hz, hcallback, hresponses, rfl⟩ := LSMKeeper.detokenizeCallback_ok h
  have heffect := detokenizeCallback_bookEffect hcallback
  have hstored := hi.redeeming copy (mem_of_getElem? hcopy)
  have hid : z'.chainId = copy.chainId := heffect.chainId.trans (key_of_get? hz)
  have hview : SameView HostZone.chainId s.keeper.hostZones s'.keeper.hostZones :=
    (SameView.refl _ _).set (hid ▸ hz) heffect.chainId
  have hzones : SameZones s s' := .of_sameView hview rfl rfl
  have hloss : NoLoss s s' := .of_bank rfl
  have hsent {t : LSMTransfer} (ht : t ∈ s.transfers) : t.deposit.key ≠ copy.key :=
    hi.sent_ne (by simp [hstored]) ht
  have hredeeming {d : LSMTokenDeposit} (hd : d ∈ s.detokenizations.eraseIdx i) :
      d.key ≠ copy.key ∧ d ∈ s.detokenizations :=
    ⟨ne_of_mem_eraseIdx hi.redeemingOnce hcopy hd, mem_of_mem_eraseIdx hd⟩
  have honce := nodup_map_eraseIdx hi.redeemingOnce i
  cases status with
  | timeout =>
    -- the deposit stays in progress, without a copy in flight
    refine ⟨?_, .relabelled ⟨fun key => .inl rfl, ⟨[], (append_nil _).symm, by simp⟩,
      append_nil _⟩⟩
    exact hi.of_noLoss hzones hloss rfl (fun _ _ hl => hl) (.refl _) (eraseIdx_sublist ..)
  | failure =>
    obtain ⟨hinv, hlabels⟩ : s'.DepositInv held ∧ Relabelled s s' := hi.relabel
      (d := { copy with status := .detokenizationInProgress }) hstored (by simp)
      (show LSMTokenDepositStatus.detokenizationFailed ≠ _ by simp) hzones rfl (by simp)
      (hi.covers_of_noLoss hzones hloss) rfl (fun t ht => .inl ⟨hsent ht, ht⟩) hi.sentOnce
      (fun d hd => .inl (hredeeming hd)) honce rfl (append_nil _)
    exact ⟨hinv, .relabelled hlabels⟩
  | success =>
    have hother (key : List UInt8) (hkey : key ≠ copy.key) : s'.deposit? key = s.deposit? key :=
      get?_delete_of_ne _ hkey
    have hremoved : s'.deposit? copy.key = none := get?_delete_self ..
    constructor
    · refine hi.of_write hzones {copy.key} hother (fun key d hkey hd => ?_)
        (hi.covers_of_noLoss hzones hloss)
        (fun id l hl => .inl ⟨hi.parked_ne (by simp [hstored]) hl, hi.parked id l hl⟩)
        hi.parkedOnce (fun t ht => .inl ⟨hsent ht, ht⟩) hi.sentOnce
        (fun d hd => .inl (hredeeming hd)) honce
      obtain rfl : key = copy.key := hkey
      rw [hremoved] at hd
      cases hd
    · have hresponse := hresponses rfl
      refine .redeemed { copy with status := .detokenizationInProgress } stakeAmount
        ⟨⟨i, copy, by rw [hresponse], hcopy, rfl⟩, hstored, hremoved, hother, ?_, rfl,
          ⟨copy, rfl, ?_⟩⟩
      · obtain ⟨delegation, hdelegation⟩ := Option.isSome_iff_exists.mp
          (recorded_isSome_iff.mpr (mem_of_detokenizeCallback hcallback))
        refine ⟨delegation, ?_, ?_⟩
        · show (s.keeper.hostZones.get? copy.chainId).bind _ = _
          rw [hz]
          exact hdelegation
        · show ((s.keeper.hostZones.set z').get? copy.chainId).bind _ = _
          rw [← hid, get?_set_self, Option.bind_some, heffect.recorded, hdelegation]
          simp
      · show s.redeemed ++ _ = _
        rw [hresponse]
        rfl

end DepositInv

end LSMSystem

end Stride.Stakeibc
