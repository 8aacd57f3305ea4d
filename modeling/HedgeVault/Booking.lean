import HedgeVault.Instructions.Dlmm
import HedgeVault.Trading

/-!
# Calls and their outcomes

The handlers on Phoenix and DLMM strategies are modelled from two sides: with the accounts they
are given and the bytes of their calls (`World.executePhoenix`, `World.executeDlmm`), and with
what the calls did to the holdings of the vault (`Custody.run`). Here the two meet. Where the
accounts of a Phoenix transaction show the holdings and the outcome is what its calls were
answered with, the holdings go along and the world they are left with is the handler's
(`executePhoenix_booked`). A DLMM transaction is booked by settling its payments from the world
that the handler left (`executeDlmm_booked`).
-/

namespace HedgeVault

open Lib

/-! ## Phoenix -/

/-- The transaction by its outcome. Hawkeye's verdict is part of what an order is answered with. -/
def PhoenixInstruction.booked (a : PhoenixAccounts) (outcome : OrderOutcome) :
    PhoenixInstruction → CustodyInstruction
  | .initializeStrategy =>
    .program (.initializeStrategy (.phoenixPerp a.traderAccount.key) (.ok ()))
  | .depositFunds amount =>
    .phoenixDepositFunds a.traderAccount.key amount (.ok outcome.toPhoenixOutcome)
  | .withdrawFunds amount =>
    .phoenixWithdrawFunds a.traderAccount.key amount (.ok outcome.toPhoenixOutcome)
  | .emberWithdraw traderAccount => .phoenixEmberWithdraw traderAccount
  | .placeLimitOrder params =>
    .phoenixPlaceLimitOrder a.traderAccount.key a.orderbook.key params (.ok outcome)
  | .placeMarketOrder params =>
    .phoenixPlaceMarketOrder a.traderAccount.key a.orderbook.key params (.ok outcome)
  | .cancelOrders mode =>
    .phoenixCancelOrders a.traderAccount.key a.orderbook.key mode (.ok outcome.toPhoenixOutcome)

/-- The outcome is what the calls were answered with. -/
structure OrderOutcome.Answers (outcome : OrderOutcome) (runtime : CpiRuntime)
    (calls : List Invocation) : Prop where
  order : ∀ c ∈ calls, ∀ p, c.Asks (.trade (.order p)) → ∃ returned,
    runtime c = .ok returned ∧ MatchingEngineResponse.fromReturnData returned = .ok outcome.response
  view : ∀ c ∈ calls, c.Asks .viewMargin → ∃ returned data, runtime c = .ok returned ∧
    returned.setBy HAWKEYE_PROGRAM_ID = .ok data ∧
    parseIsLiquidatable data = .ok outcome.liquidatable

/-- So the outcome of an order passes the checks that its answer passed. -/
theorem OrderOutcome.Answers.checked {outcome : OrderOutcome} {runtime : CpiRuntime}
    {E : PhoenixEnv} {w : World} {signer : Signer} {a : PhoenixAccounts} {p : OrderPacket}
    {least : U64} {order view : Invocation} (ha : outcome.Answers runtime [order, view])
    (hc : w.Checked E signer a runtime p least order view) :
    least ≤ outcome.response.baseLotsFilled ∧ outcome.liquidatable = false := by
  constructor
  · obtain ⟨answer, response, hruns, hresponse, hfilled⟩ := hc.filled
    obtain ⟨answer', hruns', hresponse'⟩ := ha.order order (by simp) p hc.asks.asks
    cases hruns.symm.trans hruns'
    cases hresponse.symm.trans hresponse'
    exact hfilled
  · obtain ⟨answer, data, hruns, hset, hhealthy⟩ := hc.healthy
    obtain ⟨answer', data', hruns', hset', hverdict⟩ := ha.view view (by simp) hc.views.asks
    cases hruns.symm.trans hruns'
    cases hset.symm.trans hset'
    exact Except.ok.inj (hverdict.symm.trans hhealthy)

namespace Custody

/-- The accounts of the transaction show the holdings, which the world does not keep. -/
structure Shown (V : Venues) (c : Custody) (a : PhoenixAccounts) : Prop where
  usdc : V.mints.depositMint = USDC_MINT
  apart : V.canonical.place V.mints = none
  canonical : c.balance V V.canonical = a.canonicalBalance
  trader : ∀ t, PhoenixTrader.load a.traderAccount.toAccount = .ok t →
    c.traders a.traderAccount.key = t

/-- What Phoenix did to the holdings: at a transfer of collateral it paid what the canonical
account has more, and at an order it can have moved the trader account as it did. -/
def Came (V : Venues) (c : Custody) (a : PhoenixAccounts) (outcome : PhoenixOutcome) :
    PhoenixInstruction → Prop
  | .depositFunds _ | .withdrawFunds _ =>
    a.reloadedBalance.toNat = a.canonicalBalance.toNat + outcome.received.toNat
  | .placeLimitOrder _ | .placeMarketOrder _ | .cancelOrders _ =>
    ∃ c', c.phoenixUpdate V a.traderAccount.key outcome = .ok c'
  | .initializeStrategy | .emberWithdraw _ => True

variable {V : Venues} {c : Custody} {w w' : World} {signer : Signer} {a : PhoenixAccounts}
  {runtime : CpiRuntime} {E : PhoenixEnv} {calls : List Invocation} {outcome : OrderOutcome}

/-- A payment of an account that the world keeps. -/
theorem settle_of_pay {p : Payment} {at_ : MintKind × Holder}
    (hplace : p.account.place V.mints = some at_) (h : w.pay V.mints p = .ok w') :
    settle V { c with world := w } p = .ok { c with world := w' } := by
  unfold World.pay at h
  unfold settle
  rw [hplace] at h ⊢
  dsimp only at h ⊢
  rw [h]
  rfl

/-- A payment of another account. -/
theorem settle_of_book {p : Payment} {b : U64} (hplace : p.account.place V.mints = none)
    (h : p.book (c.held p.account) = .ok b) :
    settle V c p = .ok { c with held := Function.update c.held p.account b } := by
  unfold settle
  rw [hplace]
  dsimp only
  rw [h]
  rfl

theorem Shown.usdc_placed (hs : Shown V c a) :
    USDC_ACCOUNT.place V.mints = some (.deposit, .vault) :=
  if_pos hs.usdc.symm

/-- Nothing is unwrapped of a withdrawal that was queued. -/
theorem Shown.pay_nothing (hs : Shown V c a) (payer : Pubkey) :
    w.pay V.mints (.received payer USDC_ACCOUNT 0) = .ok w := by
  have hzero : w.depositMint.transfer (.wallet payer) .vault 0 = .ok w.depositMint :=
    Mint.transfer_zero _ _ _
  unfold World.pay
  dsimp only [Payment.account]
  rw [hs.usdc_placed]
  change w.depositTransfer (.wallet payer) .vault 0 = .ok w
  unfold World.depositTransfer
  rw [hzero]
  rfl

theorem phoenixDepositFunds_booked {amount : U64} (hs : Shown V c a)
    (hcame : Came V c a outcome.toPhoenixOutcome (.depositFunds amount))
    (h : c.world.phoenixDepositFunds E signer a runtime V.mints amount = .ok (w', calls)) :
    ∃ c', c.phoenixDepositFunds V signer a.traderAccount.key amount
      (.ok outcome.toPhoenixOutcome) = .ok c' ∧ c'.world = w' := by
  simp only [World.phoenixDepositFunds, bind_eq_ok, pure_eq_ok, validate_eq_ok, Prod.mk.injEq] at h
  obtain ⟨_, _, w₁, hact, _, hpos, trader, htrader, _, hauthority, _, hready, _, _, _, _, _, _, _,
    _, _, _, w₂, hpaid, _, _, _, hwhole, rfl, _⟩ := h
  have hnone : outcome.received = 0 := by
    have hreceived : a.reloadedBalance.toNat = a.canonicalBalance.toNat + outcome.received.toNat :=
      hcame
    rw [hwhole] at hreceived
    apply BitVec.eq_of_toNat_eq
    change outcome.received.toNat = 0
    omega
  have hload := hs.trader trader htrader
  have hspent := settle_of_pay (c := c) hs.usdc_placed hpaid
  let traders := Function.update c.traders a.traderAccount.key outcome.trader
  refine ⟨{ c with world := w₂, traders }, ?_, rfl⟩
  simp only [phoenixDepositFunds, bind_eq_ok, pure_eq_ok, validate_eq_ok]
  refine ⟨w₁, hact, (), hpos, (), ?_, (), ?_, _, rfl, (), hnone, { c with world := w₂ }, ?_, rfl⟩
  · rw [hload]
    exact hauthority
  · rw [hload]
    exact hready
  · rw [settleAll_single]
    exact hspent

theorem phoenixWithdrawFunds_booked {amount : U64} (hs : Shown V c a)
    (hcame : Came V c a outcome.toPhoenixOutcome (.withdrawFunds amount))
    (h : c.world.phoenixWithdrawFunds E signer a runtime V.mints amount = .ok (w', calls)) :
    ∃ c', c.phoenixWithdrawFunds V signer a.traderAccount.key amount
      (.ok outcome.toPhoenixOutcome) = .ok c' ∧ c'.world = w' := by
  simp only [World.phoenixWithdrawFunds, bind_eq_ok, validate_eq_ok, safeSub_eq_ok] at h
  obtain ⟨_, _, w₁, hact, _, hpos, _, _, _, _, _, _, _, _, _, _, _, _, _, _, received, hreceived, _,
    hwhole, h⟩ := h
  have hsame : outcome.received = received := by
    have hpaid : a.reloadedBalance.toNat = a.canonicalBalance.toNat + outcome.received.toNat :=
      hcame
    apply BitVec.eq_of_toNat_eq
    omega
  subst hsame
  -- what was paid is unwrapped, and of nothing nothing is
  have hunwrapped : w₁.pay V.mints (.received EMBER_VAULT USDC_ACCOUNT outcome.received) =
      .ok w' := by
    split at h
    · simp only [bind_eq_ok, pure_eq_ok, Prod.mk.injEq] at h
      obtain ⟨_, _, w₂, hpaid, rfl, _⟩ := h
      exact hpaid
    · next hno =>
      simp only [pure_eq_ok, Prod.mk.injEq] at h
      obtain ⟨rfl, _⟩ := h
      have hzero : outcome.received = 0 := by
        rw [gt_iff_lt, BitVec.lt_def] at hno
        apply BitVec.eq_of_toNat_eq
        change outcome.received.toNat = 0
        have h0 : (0 : U64).toNat = 0 := rfl
        omega
      rw [hzero]
      exact hs.pay_nothing _
  have hreceivedAt := settle_of_pay (c := c) hs.usdc_placed hunwrapped
  let traders := Function.update c.traders a.traderAccount.key outcome.trader
  refine ⟨{ c with world := w', traders }, ?_, rfl⟩
  simp only [phoenixWithdrawFunds, bind_eq_ok, pure_eq_ok, validate_eq_ok]
  refine ⟨w₁, hact, (), hpos, _, rfl, (), hwhole, { c with world := w' }, ?_, rfl⟩
  rw [settleAll_single]
  exact hreceivedAt

theorem phoenixEmberWithdraw_booked {t : Pubkey} (hs : Shown V c a)
    (h : c.world.phoenixEmberWithdraw E signer a runtime V.mints t = .ok (w', calls)) :
    ∃ c', c.phoenixEmberWithdraw V signer t = .ok c' ∧ c'.world = w' := by
  simp only [World.phoenixEmberWithdraw, bind_eq_ok, pure_eq_ok, validate_eq_ok, Prod.mk.injEq] at h
  obtain ⟨_, _, w₁, hact, _, _, _, _, _, hpos, _, _, w₂, hpaid, rfl, _⟩ := h
  have hheld : c.held V.canonical = a.canonicalBalance := by
    rw [← hs.canonical, balance_held hs.apart]
  -- all of the canonical account is taken
  have hbook : (Payment.spent EMBER_VAULT V.canonical a.canonicalBalance).book
      (c.held V.canonical) = .ok 0 := by
    rw [hheld]
    simp [Payment.book, checkedSub]
  let emptied : Custody := { c with world := w₁, held := Function.update c.held V.canonical 0 }
  have hspent : settle V { c with world := w₁ }
      (.spent EMBER_VAULT V.canonical a.canonicalBalance) = .ok emptied :=
    settle_of_book (c := { c with world := w₁ }) hs.apart hbook
  have hreceived := settle_of_pay (c := emptied) hs.usdc_placed hpaid
  refine ⟨{ emptied with world := w₂ }, ?_, rfl⟩
  simp only [phoenixEmberWithdraw, bind_eq_ok, validate_eq_ok]
  refine ⟨w₁, hact, (), ?_, ?_⟩
  · rw [hs.canonical]
    exact hpos
  · rw [hs.canonical, settleAll_cons, hspent, ok_bind, settleAll_single]
    exact hreceived

/-- Phoenix moves what the world does not keep. -/
theorem phoenixUpdate_apart {t : Pubkey} {moved : PhoenixOutcome} {c' : Custody}
    (happart : V.canonical.place V.mints = none) (h : c.phoenixUpdate V t moved = .ok c') :
    ∃ c₁, phoenixUpdate V { c with world := w } t moved = .ok c₁ ∧ c₁.world = w := by
  unfold phoenixUpdate at h ⊢
  dsimp only at h ⊢
  split at h
  · next hnode =>
    simp only [bind_eq_ok, pure_eq_ok, settleAll_single] at h
    obtain ⟨c₁, hsettled, _⟩ := h
    unfold settle at hsettled
    dsimp only [Payment.account] at hsettled
    rw [happart] at hsettled
    obtain ⟨b, hb, _⟩ := bind_eq_ok.1 hsettled
    have hagain := settle_of_book (c := { c with world := w })
      (p := .received PHOENIX_PROGRAM_ID V.canonical moved.received) happart hb
    rw [if_pos hnode, settleAll_single, hagain]
    exact ⟨_, rfl, rfl⟩
  · next hnode =>
    rw [if_neg hnode]
    split at h
    · next hnone =>
      rw [if_pos hnone]
      exact ⟨_, rfl, rfl⟩
    · cases h

theorem phoenixPlaceLimitOrder_booked {params : PhoenixLimitOrderParams} (hs : Shown V c a)
    (hcame : Came V c a outcome.toPhoenixOutcome (.placeLimitOrder params))
    (hanswers : outcome.Answers runtime calls)
    (h : c.world.phoenixPlaceLimitOrder E signer a runtime params = .ok (w', calls)) :
    ∃ c', c.phoenixPlaceLimitOrder V signer a.traderAccount.key (.ok outcome) = .ok c' ∧
      c'.world = w' := by
  obtain ⟨c₁, hmoved⟩ := hcame
  have htraded : World.Traded E V.mints c.world signer a runtime (.placeLimitOrder params) w' calls :=
    World.phoenixPlaceLimitOrder_ok h
  simp only [World.phoenixPlaceLimitOrder, bind_eq_ok, pure_eq_ok, Prod.mk.injEq, Prod.exists] at h
  obtain ⟨_, _, w₁, hact, _, _, _, _, _, _, _, _, _, _, rfl, _⟩ := h
  cases htraded.exchange with
  | limit hchecked =>
    obtain ⟨_, hsafe⟩ := hanswers.checked hchecked
    obtain ⟨c₂, hagain, hworld⟩ := phoenixUpdate_apart (w := w₁) hs.apart hmoved
    refine ⟨c₂, ?_, hworld⟩
    simp only [phoenixPlaceLimitOrder, bind_eq_ok, validate_eq_ok]
    exact ⟨w₁, hact, _, rfl, (), hsafe, hagain⟩

theorem phoenixPlaceMarketOrder_booked {params : PhoenixMarketOrderParams} (hs : Shown V c a)
    (hcame : Came V c a outcome.toPhoenixOutcome (.placeMarketOrder params))
    (hanswers : outcome.Answers runtime calls)
    (h : c.world.phoenixPlaceMarketOrder E signer a runtime params = .ok (w', calls)) :
    ∃ c', c.phoenixPlaceMarketOrder V signer a.traderAccount.key params (.ok outcome) = .ok c' ∧
      c'.world = w' := by
  obtain ⟨c₁, hmoved⟩ := hcame
  have htraded : World.Traded E V.mints c.world signer a runtime (.placeMarketOrder params) w' calls :=
    World.phoenixPlaceMarketOrder_ok h
  simp only [World.phoenixPlaceMarketOrder, bind_eq_ok, pure_eq_ok, Prod.mk.injEq, Prod.exists] at h
  obtain ⟨_, _, w₁, hact, _, _, _, _, _, _, _, _, _, _, _, _, rfl, _⟩ := h
  cases htraded.exchange with
  | market hchecked =>
    obtain ⟨hfilled, hsafe⟩ := hanswers.checked hchecked
    obtain ⟨c₂, hagain, hworld⟩ := phoenixUpdate_apart (w := w₁) hs.apart hmoved
    refine ⟨c₂, ?_, hworld⟩
    simp only [phoenixPlaceMarketOrder, bind_eq_ok, validate_eq_ok]
    exact ⟨w₁, hact, _, rfl, (), hfilled, (), hsafe, hagain⟩

theorem phoenixCancelOrders_booked {mode : PhoenixCancelMode} (hs : Shown V c a)
    (hcame : Came V c a outcome.toPhoenixOutcome (.cancelOrders mode))
    (h : c.world.phoenixCancelOrders E signer a runtime mode = .ok (w', calls)) :
    ∃ c', c.phoenixCancelOrders V signer a.traderAccount.key (.ok outcome.toPhoenixOutcome) =
      .ok c' ∧ c'.world = w' := by
  obtain ⟨c₁, hmoved⟩ := hcame
  simp only [World.phoenixCancelOrders, bind_eq_ok, pure_eq_ok, Prod.mk.injEq] at h
  obtain ⟨_, _, w₁, hact, _, _, _, _, rfl, _⟩ := h
  obtain ⟨c₂, hagain, hworld⟩ := phoenixUpdate_apart (w := w₁) hs.apart hmoved
  refine ⟨c₂, ?_, hworld⟩
  simp only [phoenixCancelOrders, bind_eq_ok]
  exact ⟨w₁, hact, _, rfl, hagain⟩

theorem phoenixInitializeStrategy_booked (hs : Shown V c a)
    (h : c.world.phoenixInitializeStrategy E signer a runtime V.mints = .ok (w', calls)) :
    ∃ c', c.execute V signer (.initializeStrategy (.phoenixPerp a.traderAccount.key) (.ok ())) =
      .ok c' ∧ c'.world = w' := by
  rcases (World.phoenixInitializeStrategy_ok h).record with ⟨_, _, hinit⟩ | ⟨hno, _⟩
  · refine ⟨{ c with world := w' }, ?_, rfl⟩
    have hchecks : initializeChecks V (.phoenixPerp a.traderAccount.key) = .ok () :=
      validate_eq_ok.2 hs.usdc
    simp only [execute, permit, bind_eq_ok, pure_eq_ok]
    refine ⟨_, rfl, w', ?_, rfl⟩
    rw [hchecks]
    exact hinit
  · exact absurd rfl hno

/-- What the handlers of Phoenix do with accounts and calls is what is booked of them. -/
theorem executePhoenix_booked {ix : PhoenixInstruction} (hs : Shown V c a)
    (hcame : Came V c a outcome.toPhoenixOutcome ix) (hanswers : outcome.Answers runtime calls)
    (h : c.world.executePhoenix E V.mints signer a runtime ix = .ok (w', calls)) :
    ∃ c', run V c signer (ix.booked a outcome) = .ok c' ∧ c'.world = w' := by
  cases ix with
  | initializeStrategy => exact phoenixInitializeStrategy_booked hs h
  | depositFunds amount => exact phoenixDepositFunds_booked hs hcame h
  | withdrawFunds amount => exact phoenixWithdrawFunds_booked hs hcame h
  | emberWithdraw t => exact phoenixEmberWithdraw_booked hs h
  | placeLimitOrder params => exact phoenixPlaceLimitOrder_booked hs hcame hanswers h
  | placeMarketOrder params => exact phoenixPlaceMarketOrder_booked hs hcame hanswers h
  | cancelOrders mode => exact phoenixCancelOrders_booked hs hcame h

end Custody

/-! ## DLMM -/

/-- The transaction by its outcome. What an extension does, the holdings do not have. -/
def DlmmInstruction.booked (position : Pubkey) (outcome : DlmmOutcome) :
    DlmmInstruction → Option CustodyInstruction
  | .initializePosition _ _ =>
    some (.program (.initializeStrategy (.meteoraDlmm position) (.ok ())))
  | .extendPosition _ => none
  | .addLiquidity liquidityParameter _ => some (.dlmmAddLiquidity position
      liquidityParameter.amountX liquidityParameter.amountY (.ok outcome))
  | .removeLiquidity bpsToRemove _ _ =>
    some (.dlmmRemoveLiquidity position bpsToRemove (.ok outcome))
  | .claimFee treasuryAuthority _ _ => some (.dlmmClaimFee position treasuryAuthority (.ok outcome))

namespace Custody

variable {V : Venues} {c : Custody} {w' : World} {signer : Signer} {bump : U8} {P : Positions}
  {position lbPair : Pubkey} {call : DlmmCall}

/-- The accounts and the tokens, without the liquidity of the positions. -/
def tokens (c : Custody) : World × (VaultAccount → U64) := ⟨c.world, c.held⟩

theorem map_bind_pure {r : Result Custody} {f : Custody → Custody}
    (hf : ∀ c, (f c).tokens = c.tokens) :
    (r >>= fun c => pure (f c)).map tokens = r.map tokens := by
  cases r with
  | error => rfl
  | ok c => exact congrArg Except.ok (hf c)

/-- From the world that a handler on DLMM leaves, its payments are settled. -/
theorem executeDlmm_booked {ix : DlmmInstruction} {ix' : CustodyInstruction} {outcome : DlmmOutcome}
    (h : c.world.executeDlmm bump P signer position lbPair ix = .ok (w', call))
    (hix : ix.booked position outcome = some ix') :
    (run V c signer ix').map tokens =
      (settleAll V { c with world := w' } (ix'.payments V c signer)).map tokens := by
  cases ix with
  | initializePosition lowerBinId upperBinId =>
    cases hix
    simp only [World.executeDlmm, World.meteoraDlmmInitializePosition, bind_eq_ok, pure_eq_ok,
      Prod.mk.injEq] at h
    obtain ⟨w₁, hinit, _, _, rfl, _⟩ := h
    have hrun : c.execute V signer (.initializeStrategy (.meteoraDlmm position) (.ok ())) =
        .ok { c with world := w₁ } := by
      simp only [execute, permit, bind_eq_ok, pure_eq_ok]
      exact ⟨_, rfl, w₁, hinit, rfl⟩
    exact congrArg _ hrun
  | extendPosition => cases hix
  | addLiquidity liquidityParameter info =>
    cases hix
    simp only [World.executeDlmm, World.meteoraDlmmAddLiquidity, bind_eq_ok, pure_eq_ok,
      Prod.mk.injEq] at h
    obtain ⟨w₁, hact, rfl, _⟩ := h
    rw [payments_beside rfl]
    show (c.dlmmAddLiquidity V signer position (.ok outcome)).map tokens = _
    unfold dlmmAddLiquidity
    rw [hact, ok_bind, ok_bind]
    exact map_bind_pure fun _ => rfl
  | removeLiquidity bpsToRemove info range =>
    cases hix
    simp only [World.executeDlmm, World.meteoraDlmmRemoveLiquidity, bind_eq_ok, pure_eq_ok,
      Prod.mk.injEq] at h
    obtain ⟨_, _, w₁, hact, _, _, rfl, _⟩ := h
    rw [payments_beside rfl]
    show (c.dlmmRemoveLiquidity V signer position (.ok outcome)).map tokens = _
    unfold dlmmRemoveLiquidity
    rw [hact, ok_bind, ok_bind]
    exact map_bind_pure fun _ => rfl
  | claimFee treasuryAuthority info range =>
    cases hix
    simp only [World.executeDlmm, World.meteoraDlmmClaimFee, bind_eq_ok, pure_eq_ok,
      Prod.mk.injEq] at h
    obtain ⟨_, _, w₁, hact, _, _, rfl, _⟩ := h
    have hfees (c₁ : Custody) : (do
        let c ← c₁.transferTreasuryFee V treasuryAuthority (V.tokenX position) outcome.x
        c.transferTreasuryFee V treasuryAuthority (V.tokenY position) outcome.y) =
        settleAll V c₁ (CustodyInstruction.fees V
          (.dlmmClaimFee position treasuryAuthority (.ok outcome))) := by
      simp only [transferTreasuryFee_eq]
      exact settleAll_append.symm
    show (c.dlmmClaimFee V signer position treasuryAuthority (.ok outcome)).map tokens = _
    unfold dlmmClaimFee CustodyInstruction.payments
    dsimp only
    rw [hact, ok_bind, ok_bind]
    simp only [hfees]
    exact congrArg _ settleAll_append.symm

end Custody

end HedgeVault
