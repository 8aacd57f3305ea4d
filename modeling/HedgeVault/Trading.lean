import HedgeVault.Custody
import HedgeVault.PhoenixCalls
import HedgeVault.Stamps

/-!
# Trading on Phoenix

A Phoenix transaction moves one strategy record and talks to the venues; `Traded` is what its
handlers have in common and `Exchange` what each of them says. In the world of the vault a run
with trading is a run without it, up to the stamps of the records (`trading_refines`), so the
vault stays sound (`trading_sound`). Of the calls, those of a whole run are well formed
(`calls_relayed`), allowed by the statuses before them (`calls_allowed`), and no order goes
out without its margin check (`orders_checked`); collateral is wrapped as it goes in and
unwrapped as it comes out (`collateral_balanced`).
-/

namespace HedgeVault

open Lib

namespace VenueRequest

/-! The amount of a request, by what it asks for. -/

def wrapped : VenueRequest → Nat
  | wrap amount => amount.toNat
  | _ => 0

def funded : VenueRequest → Nat
  | depositFunds amount => amount.toNat
  | _ => 0

def pulled : VenueRequest → Nat
  | withdrawFunds amount => amount.toNat
  | _ => 0

def unwrapped : VenueRequest → Nat
  | unwrap (some amount) => amount.toNat
  | _ => 0

end VenueRequest

/-- The total over the requests that the calls ask for. -/
def requested (f : VenueRequest → Nat) (calls : List Invocation) : Nat :=
  ((calls.filterMap (·.asked)).map f).sum

/-- What Phoenix paid into the canonical account at a withdrawal. -/
def TradeTx.received (tx : TradeTx) : Nat :=
  match tx.ix with
  | .phoenix (.withdrawFunds _) a _ => a.reloadedBalance.toNat - a.canonicalBalance.toNat
  | _ => 0

/-- What Phoenix queued of a withdrawal. -/
def TradeTx.queued (tx : TradeTx) : Nat :=
  match tx.ix with
  | .phoenix (.withdrawFunds amount) a _ =>
    if a.reloadedBalance = a.canonicalBalance then amount.toNat else 0
  | _ => 0

/-- The fill an order asks for at least. -/
def OrderPacket.minBaseLots : OrderPacket → U64
  | .immediateOrCancel _ _ _ _ minBaseLotsToFill _ _ _ _ _ _ _ => minBaseLotsToFill
  | _ => 0

/-- What leaves the vault less exposed, and so stays open while it is reduce-only. -/
def PhoenixInstruction.isExit : PhoenixInstruction → Bool
  | .withdrawFunds _ => true
  | .emberWithdraw _ => true
  | .cancelOrders _ => true
  | .placeMarketOrder params => params.reduceOnly
  | _ => false

/-- The trader account whose record the instruction finds. -/
def PhoenixInstruction.trader (a : PhoenixAccounts) : PhoenixInstruction → Pubkey
  | .emberWithdraw t => t
  | _ => a.traderAccount.key

/-- The USDC that the vault and Ember exchange. -/
def PhoenixInstruction.payment (a : PhoenixAccounts) : PhoenixInstruction → Option Payment
  | .depositFunds amount => some (.spent EMBER_VAULT USDC_ACCOUNT amount)
  | .withdrawFunds _ =>
    if a.reloadedBalance = a.canonicalBalance then none
    else some (.received EMBER_VAULT USDC_ACCOUNT (a.reloadedBalance - a.canonicalBalance))
  | .emberWithdraw _ => some (.received EMBER_VAULT USDC_ACCOUNT a.canonicalBalance)
  | _ => none

/-- The transaction as the world of the vault sees it. -/
def TradeTx.program (mints : VaultMints) (tx : TradeTx) : Option Tx :=
  match tx.ix with
  | .program ix => some ⟨tx.signer, tx.now, ix.1⟩
  | .phoenix .initializeStrategy a _ =>
    some ⟨tx.signer, tx.now, .initializeStrategy (.phoenixPerp a.traderAccount.key) (.ok ())⟩
  | .phoenix ix a _ =>
    ((ix.payment a).bind (·.transfer mints)).map fun ix => ⟨tx.signer, tx.now, ix⟩

namespace World

/-- The vault signs for its trader account, `r` is what it asks for. -/
abbrev Talks (E : PhoenixEnv) (w : World) (signer : Signer) (a : PhoenixAccounts) (r : VenueRequest)
    (c : Invocation) : Prop :=
  Relayed w.key signer.key a.traderAccount.key (w.signerSeeds E) a.remainingAccounts r c

/-- The order was answered with a fill of at least `least` base lots, and Hawkeye found the
trader account not liquidatable after it. -/
structure Checked (E : PhoenixEnv) (w : World) (signer : Signer) (a : PhoenixAccounts)
    (runtime : CpiRuntime) (p : OrderPacket) (least : U64) (order view : Invocation) : Prop where
  asks : w.Talks E signer a (.trade (.order p)) order
  filled : ∃ returned response, runtime order = .ok returned ∧
    MatchingEngineResponse.fromReturnData returned = .ok response ∧ least ≤ response.baseLotsFilled
  views : w.Talks E signer a .viewMargin view
  healthy : ∃ returned data, runtime view = .ok returned ∧
    returned.setBy HAWKEYE_PROGRAM_ID = .ok data ∧ parseIsLiquidatable data = .ok false

/-- What a handler says to the venues. -/
inductive Exchange (E : PhoenixEnv) (w : World) (signer : Signer) (a : PhoenixAccounts)
    (runtime : CpiRuntime) : PhoenixInstruction → List Invocation → Prop
  | known : Exchange E w signer a runtime .initializeStrategy []
  | registered {args c} (asks : w.Talks E signer a (.registerTrader args) c) :
    Exchange E w signer a runtime .initializeStrategy [c]
  | funded {amount c d} (wraps : w.Talks E signer a (.wrap amount) c)
    (funds : w.Talks E signer a (.depositFunds amount) d)
    (whole : a.reloadedBalance = a.canonicalBalance) :
    Exchange E w signer a runtime (.depositFunds amount) [c, d]
  | queued {amount c} (asks : w.Talks E signer a (.withdrawFunds amount) c)
    (none : a.reloadedBalance = a.canonicalBalance) :
    Exchange E w signer a runtime (.withdrawFunds amount) [c]
  | paid {amount c d} (asks : w.Talks E signer a (.withdrawFunds amount) c)
    (all : a.reloadedBalance.toNat = a.canonicalBalance.toNat + amount.toNat)
    (unwraps : w.Talks E signer a (.unwrap (some amount)) d) :
    Exchange E w signer a runtime (.withdrawFunds amount) [c, d]
  | unwrapped {t c} (unwraps : w.Talks E signer a (.unwrap none) c) :
    Exchange E w signer a runtime (.emberWithdraw t) [c]
  | limit {params c d} (checked : w.Checked E signer a runtime params.packet 0 c d) :
    Exchange E w signer a runtime (.placeLimitOrder params) [c, d]
  | market {params c d}
    (checked : w.Checked E signer a runtime params.packet params.minBaseLotsToFill c d) :
    Exchange E w signer a runtime (.placeMarketOrder params) [c, d]
  | canceled {mode c} (asks : w.Talks E signer a (.trade (.cancel mode)) c) :
    Exchange E w signer a runtime (.cancelOrders mode) [c]

/-- What has to hold for a Phoenix instruction to pass. -/
structure Allowed (w : World) (signer : Signer) (ix : PhoenixInstruction) : Prop where
  authority : signer.key = w.vault.authority
  notPaused : w.config.status ≠ .paused ∧ w.vault.status ≠ .paused
  normal : ix.isExit = false → w.config.status = .normal ∧ w.vault.status = .normal

/-- The record of the trader account was stamped. -/
def Stamped (w : World) (t : Pubkey) (w' : World) : Prop :=
  ∃ s, w.strategies.lookup t = some s ∧ s.strategyType = .phoenixPerp t ∧
    w' = { w with strategies := w.strategies.insert t { s with lastActionTs := w.clock } }

/-- The USDC of a Phoenix transaction was moved, if it moves any. -/
def Moved (mints : VaultMints) (w : World) (p : Option Payment) (w' : World) : Prop :=
  match p with
  | some p => w.pay mints p = .ok w'
  | none => w' = w

/-- What a Phoenix transaction did. -/
structure Traded (E : PhoenixEnv) (mints : VaultMints) (w : World) (signer : Signer)
    (a : PhoenixAccounts) (runtime : CpiRuntime) (ix : PhoenixInstruction) (w' : World)
    (calls : List Invocation) : Prop where
  allowed : w.Allowed signer ix
  exchange : Exchange E w signer a runtime ix calls
  record : (ix = .initializeStrategy ∧ a.traderAccount.key = E.traderAddress w.key ∧
      w.initializeStrategy signer (.phoenixPerp a.traderAccount.key) (.ok ()) = .ok w') ∨
    (ix ≠ .initializeStrategy ∧
      ∃ w₁, w.Stamped (ix.trader a) w₁ ∧ w₁.Moved mints (ix.payment a) w')

section

variable {E : PhoenixEnv} {mints : VaultMints} {w w' w₀ : World} {signer : Signer}
  {a : PhoenixAccounts} {runtime : CpiRuntime} {ix : PhoenixInstruction} {calls : List Invocation}
  {h : List (Transition World TradeTx)}

/-! ## The handlers -/

theorem loadVault_eq_ok {u : Unit} : w.loadVault a = .ok u ↔ a.vault.key = w.key := by
  unfold loadVault
  split <;> simp_all [load]

theorem setBy_eq_ok {programId : Pubkey} {returned : ReturnData} {data : List Byte} :
    returned.setBy programId = .ok data ↔ returned = some (programId, data) := by
  unfold ReturnData.setBy
  cases returned with
  | none => exact ⟨nofun, nofun⟩
  | some answer =>
    obtain ⟨setter, bytes⟩ := answer
    simp only [bind_eq_ok, validate_eq_ok, pure_eq_ok, exists_const, Option.some.injEq,
      Prod.mk.injEq]

theorem actOn_stamped {t : Pubkey} {gate gate' : Result Unit}
    (h : w.actOn signer t gate gate' (·.validateTrader t) = .ok w') :
    signer.key = w.vault.authority ∧ gate = .ok () ∧ gate' = .ok () ∧ w.Stamped t w' := by
  simp only [actOn, Vault.validateAuthority, bind_eq_ok, pure_eq_ok, load_eq_ok,
    validate_eq_ok] at h
  obtain ⟨s, hs, _, hgate, _, hauthority, _, hgate', _, hcheck, rfl⟩ := h
  exact ⟨hauthority, hgate, hgate', s, hs, Custody.validateTrader_ok hcheck, rfl⟩

theorem Allowed.of_operational (hauthority : signer.key = w.vault.authority)
    (hprotocol : w.config.isProtocolOperational = .ok ())
    (hvault : w.vault.isVaultOperational = .ok ()) : w.Allowed signer ix := by
  have hc : w.config.status = .normal := validate_eq_ok.1 hprotocol
  have hv : w.vault.status = .normal := validate_eq_ok.1 hvault
  refine ⟨hauthority, ⟨?_, ?_⟩, fun _ => ⟨hc, hv⟩⟩
  · rw [hc]; decide
  · rw [hv]; decide

theorem Allowed.of_withdrawable (hexit : ix.isExit = true)
    (hauthority : signer.key = w.vault.authority)
    (hprotocol : w.config.isProtocolWithdrawable = .ok ())
    (hvault : w.vault.isVaultWithdrawable = .ok ()) : w.Allowed signer ix := by
  refine ⟨hauthority, ⟨validate_eq_ok.1 hprotocol, validate_eq_ok.1 hvault⟩, ?_⟩
  rw [hexit]
  exact nofun

/-- The trader signs as the vault once the vault account is loaded. -/
theorem talks_of {r : VenueRequest} {c : Invocation} (hv : a.vault.key = w.key)
    (h : Relayed a.vault.key signer.key a.traderAccount.key (w.signerSeeds E) a.remainingAccounts
      r c) : w.Talks E signer a r c := by
  rw [hv] at h
  exact h

theorem phoenixInitializeStrategy_ok
    (h : w.phoenixInitializeStrategy E signer a runtime mints = .ok (w', calls)) :
    Traded E mints w signer a runtime .initializeStrategy w' calls := by
  simp only [phoenixInitializeStrategy, bind_eq_ok, loadVault_eq_ok] at h
  obtain ⟨_, hv, w₁, hinit, h⟩ := h
  obtain ⟨hauthority, hprotocol, hvault, hchecks, hrecord⟩ := Custody.initializeStrategy_ok hinit
  simp only [bind_eq_ok, validate_eq_ok] at hchecks
  obtain ⟨_, _, _, haddress, _⟩ := hchecks
  have hallowed : w.Allowed signer .initializeStrategy :=
    .of_operational hauthority hprotocol hvault
  split at h
  · simp only [bind_eq_ok, pure_eq_ok, Prod.mk.injEq] at h
    obtain ⟨_, _, rfl, rfl⟩ := h
    exact ⟨hallowed, .registered (talks_of hv
      (registerTrader_relayed { a.phoenix with tail := [] } (a.payer signer) a.phoenixProgram_key)),
      .inl ⟨rfl, haddress, hrecord⟩⟩
  · simp only [bind_eq_ok, pure_eq_ok, Prod.mk.injEq] at h
    obtain ⟨_, _, _, _, rfl, rfl⟩ := h
    exact ⟨hallowed, .known, .inl ⟨rfl, haddress, hrecord⟩⟩

theorem phoenixDepositFunds_ok {amount : U64}
    (h : w.phoenixDepositFunds E signer a runtime mints amount = .ok (w', calls)) :
    Traded E mints w signer a runtime (.depositFunds amount) w' calls := by
  simp only [phoenixDepositFunds, bind_eq_ok, pure_eq_ok, loadVault_eq_ok, validate_eq_ok,
    Prod.mk.injEq] at h
  obtain ⟨_, hv, w₁, hact, _, _, _, _, _, _, _, _, _, _, _, _, _, _, _, _, _, _, w₂, hpaid, _, _, _,
    hwhole, rfl, rfl⟩ := h
  obtain ⟨hauthority, hprotocol, hvault, hstamped⟩ := actOn_stamped hact
  refine ⟨.of_operational hauthority hprotocol hvault, .funded ?_ ?_ hwhole,
    .inr ⟨by simp, w₁, hstamped, hpaid⟩⟩
  · exact talks_of hv (wrap_relayed a.ember a.emberProgram_key)
  · exact talks_of hv (depositFunds_relayed a.phoenix a.phoenixProgram_key)

theorem phoenixWithdrawFunds_ok {amount : U64}
    (h : w.phoenixWithdrawFunds E signer a runtime mints amount = .ok (w', calls)) :
    Traded E mints w signer a runtime (.withdrawFunds amount) w' calls := by
  simp only [phoenixWithdrawFunds, bind_eq_ok, loadVault_eq_ok, validate_eq_ok, safeSub_eq_ok] at h
  obtain ⟨_, hv, w₁, hact, _, hpos, _, _, _, _, _, _, _, _, _, _, _, _, _, _, received, hreceived, _,
    hwhole, h⟩ := h
  obtain ⟨hauthority, hprotocol, hvault, hstamped⟩ := actOn_stamped hact
  have hallowed : w.Allowed signer (.withdrawFunds amount) :=
    .of_withdrawable rfl hauthority hprotocol hvault
  have hasks : w.Talks E signer a (.withdrawFunds amount) (a.phoenix.withdrawFunds a.perpAssetMap
      a.globalVault a.vaultCanonicalTokenAccount a.tokenProgram a.withdrawQueue amount
      (w.signerSeeds E)) :=
    talks_of hv (withdrawFunds_relayed a.phoenix a.phoenixProgram_key)
  split at h
  · next hpositive =>
    simp only [bind_eq_ok, pure_eq_ok, Prod.mk.injEq] at h
    obtain ⟨_, _, w₂, hpaid, rfl, rfl⟩ := h
    have hall : received = amount := by
      rcases hwhole with hall | hnone
      · exact hall
      · subst hnone
        contradiction
    subst hall
    have hchanged : a.reloadedBalance ≠ a.canonicalBalance := by
      intro heq
      have hzero : (0 : U64).toNat = 0 := rfl
      rw [heq] at hreceived
      rw [gt_iff_lt, BitVec.lt_def] at hpositive
      omega
    refine ⟨hallowed, .paid hasks ?_ (talks_of hv (unwrap_relayed a.ember a.emberProgram_key)),
      .inr ⟨by simp, w₁, hstamped, ?_⟩⟩
    · omega
    · unfold PhoenixInstruction.payment
      rw [if_neg hchanged, ← eq_sub_of_toNat hreceived]
      exact hpaid
  · next hno =>
    simp only [pure_eq_ok, Prod.mk.injEq] at h
    obtain ⟨rfl, rfl⟩ := h
    have hsame : a.reloadedBalance = a.canonicalBalance := by
      rw [gt_iff_lt, BitVec.lt_def] at hno
      have hzero : received.toNat = 0 := by simpa using hno
      apply BitVec.eq_of_toNat_eq
      omega
    refine ⟨hallowed, .queued hasks hsame, .inr ⟨by simp, w₁, hstamped, ?_⟩⟩
    unfold PhoenixInstruction.payment
    rw [if_pos hsame]
    rfl

theorem phoenixEmberWithdraw_ok {t : Pubkey}
    (h : w.phoenixEmberWithdraw E signer a runtime mints t = .ok (w', calls)) :
    Traded E mints w signer a runtime (.emberWithdraw t) w' calls := by
  simp only [phoenixEmberWithdraw, bind_eq_ok, pure_eq_ok, loadVault_eq_ok, Prod.mk.injEq] at h
  obtain ⟨_, hv, w₁, hact, _, _, _, _, _, _, _, _, w₂, hpaid, rfl, rfl⟩ := h
  obtain ⟨hauthority, hprotocol, hvault, hstamped⟩ := actOn_stamped hact
  exact ⟨.of_withdrawable rfl hauthority hprotocol hvault,
    .unwrapped (talks_of hv (unwrap_relayed a.ember a.emberProgram_key)),
    .inr ⟨by simp, w₁, hstamped, hpaid⟩⟩

/-- An order that was answered. -/
theorem placeOrder_ok {p : OrderPacket} {response : MatchingEngineResponse} {order : Invocation}
    (hv : a.vault.key = w.key)
    (h : a.phoenix.placeOrder runtime a.market (w.signerSeeds E) p = .ok (response, order)) :
    w.Talks E signer a (.trade (.order p)) order ∧ ∃ returned, runtime order = .ok returned ∧
      MatchingEngineResponse.fromReturnData returned = .ok response := by
  simp only [PhoenixCpi.placeOrder, bind_eq_ok, pure_eq_ok, Prod.mk.injEq] at h
  obtain ⟨data, hdata, returned, hreturned, _, hresponse, rfl, rfl⟩ := h
  refine ⟨talks_of hv ?_, returned, hreturned, hresponse⟩
  have hp : (PhoenixRequest.order p).instructionData = .ok data := hdata
  exact marketAction_relayed a.phoenix a.phoenixProgram_key hp

/-- The margin view that an order ends with. -/
theorem isLiquidatable_ok {view : Invocation} {liquidatable : Bool} (hv : a.vault.key = w.key)
    (h : a.phoenix.isLiquidatable runtime a.hawkeyeProgram a.perpAssetMap =
      .ok (liquidatable, view)) :
    w.Talks E signer a .viewMargin view ∧ ∃ returned data, runtime view = .ok returned ∧
      returned.setBy HAWKEYE_PROGRAM_ID = .ok data ∧
      parseIsLiquidatable data = .ok liquidatable := by
  simp only [PhoenixCpi.isLiquidatable, bind_eq_ok, pure_eq_ok, Prod.mk.injEq] at h
  obtain ⟨returned, hreturned, data, hdata, _, hparsed, rfl, rfl⟩ := h
  refine ⟨talks_of hv ?_, returned, data, hreturned, hdata, hparsed⟩
  exact viewMargin_relayed a.phoenix a.hawkeyeProgram_key

theorem phoenixPlaceLimitOrder_ok {params : PhoenixLimitOrderParams}
    (h : w.phoenixPlaceLimitOrder E signer a runtime params = .ok (w', calls)) :
    Traded E mints w signer a runtime (.placeLimitOrder params) w' calls := by
  simp only [phoenixPlaceLimitOrder, bind_eq_ok, pure_eq_ok, loadVault_eq_ok, validate_eq_ok,
    Prod.mk.injEq, Prod.exists] at h
  obtain ⟨_, hv, w₁, hact, _, _, response, order, horder, liquidatable, view, hview, _, hsafe, rfl,
    rfl⟩ := h
  obtain ⟨hauthority, hprotocol, hvault, hstamped⟩ := actOn_stamped hact
  obtain ⟨hasks, returned, hreturned, hresponse⟩ := placeOrder_ok hv horder
  obtain ⟨hviews, hhealthy⟩ := isLiquidatable_ok hv hview
  rw [hsafe] at hhealthy
  refine ⟨.of_operational hauthority hprotocol hvault, .limit ⟨hasks, ?_, hviews, hhealthy⟩,
    .inr ⟨by simp, _, hstamped, rfl⟩⟩
  exact ⟨returned, response, hreturned, hresponse, BitVec.le_def.2 (Nat.zero_le _)⟩

theorem phoenixPlaceMarketOrder_ok {params : PhoenixMarketOrderParams}
    (h : w.phoenixPlaceMarketOrder E signer a runtime params = .ok (w', calls)) :
    Traded E mints w signer a runtime (.placeMarketOrder params) w' calls := by
  simp only [phoenixPlaceMarketOrder, bind_eq_ok, pure_eq_ok, loadVault_eq_ok, validate_eq_ok,
    Prod.mk.injEq, Prod.exists] at h
  obtain ⟨_, hv, w₁, hact, _, _, response, order, horder, _, hfilled, liquidatable, view, hview, _,
    hsafe, rfl, rfl⟩ := h
  obtain ⟨hauthority, _, hgate, hstamped⟩ := actOn_stamped hact
  obtain ⟨hasks, returned, hreturned, hresponse⟩ := placeOrder_ok hv horder
  obtain ⟨hviews, hhealthy⟩ := isLiquidatable_ok hv hview
  rw [hsafe] at hhealthy
  refine ⟨?_, .market ⟨hasks, ⟨returned, response, hreturned, hresponse, hfilled⟩, hviews, hhealthy⟩,
    .inr ⟨by simp, _, hstamped, rfl⟩⟩
  unfold marketOrderGate at hgate
  split at hgate
  · next hreduce =>
    obtain ⟨_, hprotocol, hvault⟩ := bind_eq_ok.1 hgate
    exact .of_withdrawable hreduce hauthority hprotocol hvault
  · obtain ⟨_, hprotocol, hvault⟩ := bind_eq_ok.1 hgate
    exact .of_operational hauthority hprotocol hvault

theorem phoenixCancelOrders_ok {mode : PhoenixCancelMode}
    (h : w.phoenixCancelOrders E signer a runtime mode = .ok (w', calls)) :
    Traded E mints w signer a runtime (.cancelOrders mode) w' calls := by
  simp only [phoenixCancelOrders, PhoenixCpi.cancelOrders, bind_eq_ok, pure_eq_ok, loadVault_eq_ok,
    Prod.mk.injEq] at h
  obtain ⟨_, hv, w₁, hact, _, _, _, ⟨data, hdata, _, _, rfl⟩, rfl, rfl⟩ := h
  obtain ⟨hauthority, hprotocol, hvault, hstamped⟩ := actOn_stamped hact
  have hp : (PhoenixRequest.cancel mode).instructionData = .ok data := hdata
  exact ⟨.of_withdrawable rfl hauthority hprotocol hvault,
    .canceled (talks_of hv (marketAction_relayed a.phoenix a.phoenixProgram_key hp)),
    .inr ⟨by simp, _, hstamped, rfl⟩⟩

theorem executePhoenix_ok
    (h : w.executePhoenix E mints signer a runtime ix = .ok (w', calls)) :
    Traded E mints w signer a runtime ix w' calls := by
  cases ix with
  | initializeStrategy => exact phoenixInitializeStrategy_ok h
  | depositFunds amount => exact phoenixDepositFunds_ok h
  | withdrawFunds amount => exact phoenixWithdrawFunds_ok h
  | emberWithdraw t => exact phoenixEmberWithdraw_ok h
  | placeLimitOrder params => exact phoenixPlaceLimitOrder_ok h
  | placeMarketOrder params => exact phoenixPlaceMarketOrder_ok h
  | cancelOrders mode => exact phoenixCancelOrders_ok h

/-! ## The world of the vault -/

/-- A step is one of the program or a Phoenix transaction. -/
theorem TradeStep.traded {tx : TradeTx} (st : w.TradeStep E mints tx w') :
    (∃ ix, tx.ix = .program ix ∧ w.Step ⟨tx.signer, tx.now, ix.1⟩ w' ∧
      sent E mints ⟨w, tx, w'⟩ = []) ∨
    ∃ ix a runtime, tx.ix = .phoenix ix a runtime ∧
      Traded E mints { w with clock := tx.now } tx.signer a runtime ix w' (sent E mints ⟨w, tx, w'⟩) := by
  obtain ⟨signer, now, ix⟩ := tx
  simp only [TradeStep, afterTrade, bind_eq_ok, pure_eq_ok, Prod.exists] at st
  obtain ⟨w₁, calls, htrade, rfl⟩ := st
  have hsent : sent E mints ⟨w, ⟨signer, now, ix⟩, w₁⟩ = calls := by
    simp only [sent, htrade]
  rw [hsent]
  cases ix with
  | program ix =>
    simp only [trade, bind_eq_ok, pure_eq_ok, Prod.mk.injEq] at htrade
    obtain ⟨w₂, st, rfl, rfl⟩ := htrade
    exact .inl ⟨ix, rfl, st, rfl⟩
  | phoenix ix a runtime => exact .inr ⟨ix, a, runtime, rfl, executePhoenix_ok htrade⟩

/-- What is moved is moved in the world of the vault. -/
theorem Moved.follows {now : I64} {u : World} {p : Option Payment} (hm : w.Moved mints p w')
    (hs : Restamped w u) (hclock : w.clock = now) :
    Follows Step Restamped ((p.bind (·.transfer mints)).map fun ix => ⟨signer, now, ix⟩) w' u := by
  subst hclock
  cases p with
  | none =>
    obtain rfl : w' = w := hm
    exact hs
  | some p =>
    change w.pay mints p = .ok w' at hm
    unfold pay at hm
    change Follows Step Restamped ((p.transfer mints).map _) w' u
    unfold Payment.transfer
    cases hplace : p.account.place mints with
    | none =>
      rw [hplace] at hm
      rw [← pure_eq_ok.1 hm]
      exact hs
    | some at_ =>
      obtain ⟨kind, holder⟩ := at_
      rw [hplace] at hm
      cases kind with
      | deposit =>
        have st : Step w ⟨signer, w.clock, .depositTransfer (p.src holder) (p.dst holder) _⟩ w' := hm
        exact hs.step st
      | share =>
        have st : Step w ⟨signer, w.clock, .shareTransfer (p.src holder) (p.dst holder) _⟩ w' := hm
        exact hs.step st

theorem Moved.mints_only {p : Option Payment} (hm : w.Moved mints p w') :
    ∃ d s, w' = { w with depositMint := d, shareMint := s } := by
  cases p with
  | none =>
    obtain rfl : w' = w := hm
    exact ⟨_, _, rfl⟩
  | some p =>
    change w.pay mints p = .ok w' at hm
    unfold pay at hm
    split at hm
    · exact Custody.transfer_mints hm
    · rw [← pure_eq_ok.1 hm]
      exact ⟨_, _, rfl⟩

theorem Traded.restamped {now : I64} {u : World}
    (ht : Traded E mints { w with clock := now } signer a runtime ix w' calls) (hs : Restamped w u) :
    Follows Step Restamped (TradeTx.program mints ⟨signer, now, .phoenix ix a runtime⟩) w' u := by
  rcases ht.record with ⟨rfl, _, hinit⟩ | ⟨hix, w₁, ⟨s, hk, _, rfl⟩, hmoved⟩
  · exact hs.step hinit
  · have hprogram : TradeTx.program mints ⟨signer, now, .phoenix ix a runtime⟩ =
        ((ix.payment a).bind (·.transfer mints)).map fun ix => ⟨signer, now, ix⟩ := by
      cases ix with
      | initializeStrategy => exact absurd rfl hix
      | _ => rfl
    rw [hprogram]
    exact hmoved.follows (hs.stamp hk _ _) rfl

/-- The run as the world of the vault sees it. -/
theorem run_program (hr : Run (TradeStep E mints) w₀ h w) :
    ∃ h₂ u, Run Step w₀ h₂ u ∧ labels h₂ = (labels h).filterMap (TradeTx.program mints) ∧
      Restamped w u := by
  refine hr.project .refl fun t _ st u hs => ?_
  obtain ⟨w, ⟨signer, now, ix⟩, w'⟩ := t
  rcases TradeStep.traded st with ⟨ix, hix, st, _⟩ | ⟨ix, a, runtime, hix, ht⟩
  · obtain rfl := hix
    exact hs.step st
  · obtain rfl := hix
    exact ht.restamped hs

/-- The vault has one trader account. -/
def OneTrader (E : PhoenixEnv) (w : World) : Prop :=
  ∀ k s t, w.strategies.lookup k = some s → s.strategyType = .phoenixPerp t →
    t = E.traderAddress w.key

theorem OneTrader.opens {now : I64} {ty : StrategyType} (hone : OneTrader E w)
    (ho : OpensStrategy w now ty w') (hty : ∀ t, ty = .phoenixPerp t → t = E.traderAddress w.key) :
    OneTrader E w' := by
  intro k s t hk hs
  rw [ho.strategies] at hk
  rw [ho.key]
  by_cases hnew : k = ty.protocolAccount
  · rw [hnew, Finmap.lookup_insert] at hk
    cases hk
    exact hty t hs
  · rw [Finmap.lookup_insert_of_ne _ hnew] at hk
    exact hone k s t hk hs

theorem OneTrader.step {tx : TradeTx} (wf : w.WellFormed) (hone : OneTrader E w)
    (st : w.TradeStep E mints tx w') : OneTrader E w' := by
  rcases TradeStep.traded st with ⟨ix, _, st, _⟩ | ⟨ix, a, runtime, _, ht⟩
  · cases Step.records wf st with
    | same h =>
      intro k s t hk hs
      rw [h.strategies] at hk
      rw [h.key]
      exact hone k s t hk hs
    | opens ty checks hix h =>
      refine hone.opens h ?_
      rintro t rfl
      -- the program part of the transactions opens no Phoenix strategy
      obtain ⟨ix, hno⟩ := ix
      obtain rfl : ix = .initializeStrategy (.phoenixPerp t) checks := hix
      cases hno
    | closes l checks hix h =>
      intro k s t hk hs
      rw [h.strategies] at hk
      rw [h.key]
      exact hone k s t (lookup_of_erase hk) hs
  · rcases ht.record with ⟨_, haddress, hinit⟩ | ⟨_, w₁, ⟨r, hr, _, rfl⟩, hmoved⟩
    · refine hone.opens (initializeStrategy_opens hinit) ?_
      rintro t ht
      cases ht
      exact haddress
    · intro k s t hk hs
      obtain ⟨_, _, rfl⟩ := hmoved.mints_only
      obtain ⟨s₀, hs₀, _, _, hty⟩ := Custody.record_lookup hr hk
      exact hone k s₀ t hs₀ (hty.symm.trans hs)

theorem run_oneTrader (h0 : w₀.Fresh) (hr : Run (TradeStep E mints) w₀ h w) : OneTrader E w := by
  have hsound : ∀ {v : World} {g}, Run (TradeStep E mints) w₀ g v → v.WellFormed := by
    intro v g hg
    obtain ⟨_, u, hru, _, hs⟩ := run_program hg
    exact (hs.sound (run_sound h0 hru)).wellFormed
  induction hr with
  | nil =>
    intro k s t hk
    rw [h0.1.strategies, Finmap.lookup_empty] at hk
    cases hk
  | snoc hr st ih => exact ih.step (hsound hr) st

/-- For the world of the vault a run with trading is a run of what the program did beside it,
up to the stamps of the records. The vault is sound after it, its records are counted and it
has no Phoenix record but that of its own trader address. -/
theorem trading_refines (h0 : w₀.Fresh) (hr : Run (TradeStep E mints) w₀ h w) :
    (∃ h₂ u, Run Step w₀ h₂ u ∧ labels h₂ = (labels h).filterMap (TradeTx.program mints) ∧
      Restamped w u) ∧
    w.Sound ∧ w.Census ∧ SameVault w₀ w ∧ OneTrader E w := by
  obtain ⟨_, u, hru, _, hs⟩ := run_program hr
  exact ⟨run_program hr, hs.sound (run_sound h0 hru), hs.census (run_census h0 hru),
    hs.sameVault (run_sameVault h0 hru), run_oneTrader h0 hr⟩

/-! ## The calls -/

/-- Every call of a handler is relayed; one that does not find the record by its trader account
does not name it either. -/
theorem Exchange.relayed (he : Exchange E w signer a runtime ix calls) {c : Invocation}
    (hc : c ∈ calls) : ∃ r, w.Talks E signer a r c ∧
      (ix.isExit = true → r.isExit = true) ∧
      (ix.trader a ≠ a.traderAccount.key → r.namesTrader = false) := by
  cases he with
  | known => cases hc
  | registered asks =>
    obtain rfl := List.mem_singleton.1 hc
    exact ⟨_, asks, nofun, fun h => absurd rfl h⟩
  | funded wraps funds _ =>
    rcases List.mem_pair.1 hc with rfl | rfl
    · exact ⟨_, wraps, nofun, fun h => absurd rfl h⟩
    · exact ⟨_, funds, nofun, fun h => absurd rfl h⟩
  | queued asks _ =>
    obtain rfl := List.mem_singleton.1 hc
    exact ⟨_, asks, fun _ => rfl, fun h => absurd rfl h⟩
  | paid asks _ unwraps =>
    rcases List.mem_pair.1 hc with rfl | rfl
    · exact ⟨_, asks, fun _ => rfl, fun h => absurd rfl h⟩
    · exact ⟨_, unwraps, fun _ => rfl, fun h => absurd rfl h⟩
  | unwrapped unwraps =>
    obtain rfl := List.mem_singleton.1 hc
    exact ⟨_, unwraps, fun _ => rfl, fun _ => rfl⟩
  | limit checked =>
    rcases List.mem_pair.1 hc with rfl | rfl
    · exact ⟨_, checked.asks, nofun, fun h => absurd rfl h⟩
    · exact ⟨_, checked.views, nofun, fun h => absurd rfl h⟩
  | @market params _ _ checked =>
    rcases List.mem_pair.1 hc with rfl | rfl
    · refine ⟨_, checked.asks, fun hexit => ?_, fun h => absurd rfl h⟩
      have hreduce : params.reduceOnly = true := hexit
      simp [PhoenixMarketOrderParams.packet, VenueRequest.isExit, OrderPacket.orderFlags, hreduce]
    · exact ⟨_, checked.views, fun _ => rfl, fun h => absurd rfl h⟩
  | canceled asks =>
    obtain rfl := List.mem_singleton.1 hc
    exact ⟨_, asks, fun _ => rfl, fun h => absurd rfl h⟩

theorem Traded.stamped {now : I64}
    (ht : Traded E mints { w with clock := now } signer a runtime ix w' calls) :
    ∃ s, w'.strategies.lookup (ix.trader a) = some s ∧ s.lastActionTs = now := by
  rcases ht.record with ⟨rfl, _, hinit⟩ | ⟨_, w₁, ⟨s, _, _, rfl⟩, hmoved⟩
  · have ho : OpensStrategy w now (.phoenixPerp a.traderAccount.key) w' :=
      initializeStrategy_opens hinit
    rw [ho.strategies]
    exact ⟨_, Finmap.lookup_insert _, rfl⟩
  · obtain ⟨_, _, rfl⟩ := hmoved.mints_only
    exact ⟨_, Finmap.lookup_insert _, rfl⟩

/-- A step of a run that sent a call: a Phoenix transaction on the one trader account. -/
theorem run_traded (h0 : w₀.Fresh) (hr : Run (TradeStep E mints) w₀ h w)
    {t : Transition World TradeTx} (ht : t ∈ h) {c : Invocation} (hc : c ∈ sent E mints t) :
    ∃ ix a runtime, t.label.ix = .phoenix ix a runtime ∧ SameVault w₀ t.pre ∧
      ix.trader a = E.traderAddress w₀.key ∧
      Traded E mints { t.pre with clock := t.label.now } t.label.signer a runtime ix t.post
        (sent E mints t) := by
  obtain ⟨newer, older, rfl⟩ := List.append_of_mem ht
  obtain ⟨hpre, st, _⟩ := hr.split
  obtain ⟨_, u, hru, _, hs⟩ := run_program hpre
  have hsame := hs.sameVault (run_sameVault h0 hru)
  rcases TradeStep.traded st with ⟨_, _, _, hnone⟩ | ⟨ix, a, runtime, hix, htraded⟩
  · rw [hnone] at hc
    cases hc
  · refine ⟨ix, a, runtime, hix, hsame, ?_, htraded⟩
    rw [← hsame.key]
    rcases htraded.record with ⟨rfl, haddress, _⟩ | ⟨_, _, ⟨s, hk, hs, _⟩, _⟩
    · exact haddress
    · exact run_oneTrader h0 hpre _ s _ hk hs

/-- Every call of a run asks for something that can be read off its bytes, under an authority
of the vault; the vault signs with its own seeds where the request is its own, the runtime finds
all accounts it names, the trader account is the vault's and the tail is handed on in order. -/
theorem calls_relayed (h0 : w₀.Fresh) (hr : Run (TradeStep E mints) w₀ h w) :
    ∀ t ∈ h, ∀ c ∈ sent E mints t, ∃ ix a runtime r, t.label.ix = .phoenix ix a runtime ∧
      Relayed w₀.key w₀.vault.authority (E.traderAddress w₀.key) (w₀.signerSeeds E)
        a.remainingAccounts r c := by
  intro t ht c hc
  obtain ⟨ix, a, runtime, hix, hsame, htrader, htraded⟩ := run_traded h0 hr ht hc
  obtain ⟨r, htalks, _, hnames⟩ := htraded.exchange.relayed hc
  refine ⟨ix, a, runtime, r, hix, htalks.asks, htalks.complete, ?_, ?_, ?_, htalks.tail⟩
  · rw [htalks.signers, htraded.allowed.authority]
    show r.signedBy t.pre.key t.pre.vault.authority = _
    rw [hsame.key, hsame.authority]
  · rw [htalks.seeds]
    show r.seeds (vaultSeeds t.pre.vault.id E.vaultBump) = _
    rw [hsame.id]
    rfl
  · intro hr
    rw [← htrader]
    by_cases hown : ix.trader a = a.traderAccount.key
    · rw [hown]
      exact htalks.trader hr
    · rw [hnames hown] at hr
      cases hr

/-- Calls go out only in transactions of the authority the vault was opened for, never while the
protocol or the vault is paused, and while one of them is reduce-only only what leaves the vault
less exposed; the record of the trader account has the time of the last of them. -/
theorem calls_allowed (h0 : w₀.Fresh) (hr : Run (TradeStep E mints) w₀ h w) :
    ∀ t ∈ h, ∀ c ∈ sent E mints t,
      t.label.signer.key = w₀.vault.authority ∧
      t.pre.config.status ≠ .paused ∧ t.pre.vault.status ≠ .paused ∧
      (∀ r, c.Asks r → r.isExit = false →
        t.pre.config.status = .normal ∧ t.pre.vault.status = .normal) ∧
      ∃ s, t.post.strategies.lookup (E.traderAddress w₀.key) = some s ∧
        s.lastActionTs = t.label.now := by
  intro t ht c hc
  obtain ⟨ix, a, runtime, _, hsame, htrader, htraded⟩ := run_traded h0 hr ht hc
  obtain ⟨r, htalks, hexit, _⟩ := htraded.exchange.relayed hc
  have hallowed := htraded.allowed
  refine ⟨hallowed.authority.trans hsame.authority, hallowed.notPaused.1, hallowed.notPaused.2, ?_,
    ?_⟩
  · intro r' hasks hrisk
    obtain rfl := htalks.asks.unique hasks
    refine hallowed.normal ?_
    rw [← Bool.not_eq_true]
    intro h
    rw [hexit h] at hrisk
    cases hrisk
  · rw [← htrader]
    exact htraded.stamped

/-- An order is followed by the margin view that decides on it, and by nothing else. -/
theorem Exchange.checked (he : Exchange E w signer a runtime ix calls) {c : Invocation}
    (hc : c ∈ calls) {p : OrderPacket} (hasks : c.Asks (.trade (.order p))) :
    ∃ view, calls = [c, view] ∧ w.Checked E signer a runtime p p.minBaseLots c view ∧
      ix.trader a = a.traderAccount.key := by
  -- what a call asks for is read off its bytes, so the other calls are out
  cases he with
  | known => cases hc
  | registered asks =>
    obtain rfl := List.mem_singleton.1 hc
    cases asks.asks.unique hasks
  | funded wraps funds _ =>
    rcases List.mem_pair.1 hc with rfl | rfl
    · cases wraps.asks.unique hasks
    · cases funds.asks.unique hasks
  | queued asks _ =>
    obtain rfl := List.mem_singleton.1 hc
    cases asks.asks.unique hasks
  | paid asks _ unwraps =>
    rcases List.mem_pair.1 hc with rfl | rfl
    · cases asks.asks.unique hasks
    · cases unwraps.asks.unique hasks
  | unwrapped unwraps =>
    obtain rfl := List.mem_singleton.1 hc
    cases unwraps.asks.unique hasks
  | @limit params order view checked =>
    rcases List.mem_pair.1 hc with rfl | rfl
    · have hp := checked.asks.asks.unique hasks
      cases hp
      refine ⟨view, rfl, ?_, rfl⟩
      have hleast : params.packet.minBaseLots = 0 := by
        unfold PhoenixLimitOrderParams.packet
        split <;> rfl
      rw [hleast]
      exact checked
    · cases checked.views.asks.unique hasks
  | @market params order view checked =>
    rcases List.mem_pair.1 hc with rfl | rfl
    · have hp := checked.asks.asks.unique hasks
      cases hp
      exact ⟨view, rfl, checked, rfl⟩
    · cases checked.views.asks.unique hasks
  | canceled asks =>
    obtain rfl := List.mem_singleton.1 hc
    cases asks.asks.unique hasks

/-- No order of a run goes out unchecked: behind it there is one more call, Hawkeye's view of
the same trader account, whose answer is Hawkeye's and finds it not liquidatable, and Phoenix
answered the order with the fill it asks for at least. -/
theorem orders_checked (h0 : w₀.Fresh) (hr : Run (TradeStep E mints) w₀ h w) :
    ∀ t ∈ h, ∀ c ∈ sent E mints t, ∀ p, c.Asks (.trade (.order p)) →
      ∃ ix a runtime view, t.label.ix = .phoenix ix a runtime ∧ sent E mints t = [c, view] ∧
        view.Asks .viewMargin ∧ E.traderAddress w₀.key ∈ c.keys ∧
        E.traderAddress w₀.key ∈ view.keys ∧
        (∃ data, runtime view = .ok (some (HAWKEYE_PROGRAM_ID, data)) ∧
          parseIsLiquidatable data = .ok false) ∧
        ∃ data response, runtime c = .ok (some (PHOENIX_PROGRAM_ID, data)) ∧
          MatchingEngineResponse.parse data = .ok response ∧
          p.minBaseLots ≤ response.baseLotsFilled := by
  intro t ht c hc p hasks
  obtain ⟨ix, a, runtime, hix, _, htrader, htraded⟩ := run_traded h0 hr ht hc
  obtain ⟨view, hsent, hchecked, hown⟩ := htraded.exchange.checked hc hasks
  obtain ⟨returned, response, hreturned, hresponse, hfilled⟩ := hchecked.filled
  obtain ⟨returned', data', hreturned', hset, hhealthy⟩ := hchecked.healthy
  simp only [MatchingEngineResponse.fromReturnData, bind_eq_ok] at hresponse
  obtain ⟨data, hdata, hparsed⟩ := hresponse
  rw [setBy_eq_ok] at hset hdata
  subst hset hdata
  rw [hown] at htrader
  refine ⟨ix, a, runtime, view, hix, hsent, hchecked.views.asks, ?_, ?_, ⟨data', hreturned', hhealthy⟩,
    data, response, hreturned, hparsed, hfilled⟩
  · rw [← htrader]
    exact hchecked.asks.trader rfl
  · rw [← htrader]
    exact hchecked.views.trader rfl

/-! ## Collateral -/

theorem requested_flatMap {α : Type} (f : VenueRequest → Nat) (g : α → List Invocation) (l : List α) :
    requested f (l.flatMap g) = (l.map fun x => requested f (g x)).sum := by
  induction l with
  | nil => rfl
  | cons x l ih =>
    rw [List.map_cons, List.sum_cons, ← ih, List.flatMap_cons]
    unfold requested
    rw [List.filterMap_append, List.map_append, List.sum_append]

/-- The amounts that one handler asks the venues to move. -/
theorem Exchange.balanced {now : I64} (he : Exchange E w signer a runtime ix calls) :
    requested VenueRequest.wrapped calls = requested VenueRequest.funded calls ∧
    requested VenueRequest.unwrapped calls =
      TradeTx.received ⟨signer, now, .phoenix ix a runtime⟩ ∧
    requested VenueRequest.pulled calls = requested VenueRequest.unwrapped calls +
      TradeTx.queued ⟨signer, now, .phoenix ix a runtime⟩ := by
  unfold requested
  cases he with
  | known => exact ⟨rfl, rfl, rfl⟩
  | registered asks =>
    rw [List.filterMap_cons_some asks.asks.asked]
    exact ⟨rfl, rfl, rfl⟩
  | funded wraps funds _ =>
    rw [List.filterMap_cons_some wraps.asks.asked, List.filterMap_cons_some funds.asks.asked]
    refine ⟨?_, rfl, rfl⟩
    simp [VenueRequest.wrapped, VenueRequest.funded]
  | queued asks none =>
    rw [List.filterMap_cons_some asks.asks.asked]
    refine ⟨rfl, ?_, ?_⟩
    · simp [VenueRequest.unwrapped, TradeTx.received, none]
    · simp [VenueRequest.pulled, VenueRequest.unwrapped, TradeTx.queued, none]
  | @paid amount _ _ asks all unwraps =>
    rw [List.filterMap_cons_some asks.asks.asked, List.filterMap_cons_some unwraps.asks.asked]
    refine ⟨rfl, ?_, ?_⟩
    · simp only [TradeTx.received, all]
      simp [VenueRequest.unwrapped]
    · have hqueued : TradeTx.queued
          ⟨signer, now, .phoenix (.withdrawFunds amount) a runtime⟩ = 0 := by
        unfold TradeTx.queued
        dsimp only
        split
        · next heq =>
          rw [heq] at all
          omega
        · rfl
      rw [hqueued]
      simp [VenueRequest.pulled, VenueRequest.unwrapped]
  | unwrapped unwraps =>
    rw [List.filterMap_cons_some unwraps.asks.asked]
    exact ⟨rfl, rfl, rfl⟩
  | limit checked =>
    rw [List.filterMap_cons_some checked.asks.asks.asked,
      List.filterMap_cons_some checked.views.asks.asked]
    exact ⟨rfl, rfl, rfl⟩
  | market checked =>
    rw [List.filterMap_cons_some checked.asks.asks.asked,
      List.filterMap_cons_some checked.views.asks.asked]
    exact ⟨rfl, rfl, rfl⟩
  | canceled asks =>
    rw [List.filterMap_cons_some asks.asks.asked]
    exact ⟨rfl, rfl, rfl⟩

theorem TradeStep.balanced {t : Transition World TradeTx}
    (st : t.pre.TradeStep E mints t.label t.post) :
    requested VenueRequest.wrapped (sent E mints t) =
      requested VenueRequest.funded (sent E mints t) ∧
    requested VenueRequest.unwrapped (sent E mints t) = t.label.received ∧
    requested VenueRequest.pulled (sent E mints t) =
      requested VenueRequest.unwrapped (sent E mints t) + t.label.queued := by
  obtain ⟨w, ⟨signer, now, ix⟩, w'⟩ := t
  rcases TradeStep.traded st with ⟨ix, hix, _, hnone⟩ | ⟨ix, a, runtime, hix, ht⟩
  · obtain rfl := hix
    rw [hnone]
    exact ⟨rfl, rfl, rfl⟩
  · obtain rfl := hix
    exact ht.exchange.balanced

/-- Over a run, what Ember is asked to wrap is what Phoenix is asked to take, and what Phoenix
is asked for is unwrapped as far as it came, in the transaction it came in, the rest of it
having been queued. -/
theorem collateral_balanced (hr : Run (TradeStep E mints) w₀ h w) :
    requested VenueRequest.wrapped (h.flatMap (sent E mints)) =
      requested VenueRequest.funded (h.flatMap (sent E mints)) ∧
    requested VenueRequest.unwrapped (h.flatMap (sent E mints)) =
      ((labels h).map TradeTx.received).sum ∧
    requested VenueRequest.pulled (h.flatMap (sent E mints)) =
      ((labels h).map TradeTx.received).sum + ((labels h).map TradeTx.queued).sum := by
  have hstep := fun t (ht : t ∈ h) => TradeStep.balanced (hr.step_of_mem ht)
  simp only [requested_flatMap, labels, List.map_map]
  refine ⟨?_, ?_, ?_⟩
  · rw [List.map_congr_left fun t ht => (hstep t ht).1]
  · rw [List.map_congr_left fun t ht => (hstep t ht).2.1]
    rfl
  · rw [List.map_congr_left fun t ht => (hstep t ht).2.2.trans (by rw [(hstep t ht).2.1]),
      ← List.sum_map_add]
    rfl

end

/-! ## A position -/

/-- An account with the data, at the key. -/
def sampleAccount (key owner : Pubkey) (data : List Byte) : FlaggedAccount :=
  ⟨⟨⟨owner, 1, data⟩, key⟩, false, true⟩

/-- A header of one arena. -/
def sampleHeader (discriminator : List Byte) : FlaggedAccount :=
  sampleAccount 0 PHOENIX_PROGRAM_ID
    (discriminator ++ List.replicate 44 0 ++ [1, 0, 1, 0] ++ List.replicate 24 0)

/-- The trader account of the vault once it is onboarded. -/
def sampleTrader : List Byte :=
  PhoenixTrader.discriminator ++ List.replicate 48 0 ++ leBytes 32 sample.key.toNat ++
    List.replicate 8 0 ++ leBytes 4 TRADER_READY_FLAGS.toNat ++ List.replicate 140 0

/-- The accounts of the manager's transactions, with the data of the trader account and the
canonical tokens of the vault before the calls and after them. -/
def samplePhoenix (trader : List Byte) (canonical reloaded : U64) : PhoenixAccounts where
  authority := ⟨0, 1, []⟩
  vault := sampleAccount sample.key 0 []
  traderAccount := sampleAccount (sampleKey 20).key PHOENIX_PROGRAM_ID trader
  usdcMint := sampleAccount USDC_MINT 0 []
  canonicalMint := sampleAccount 0 0 []
  vaultUsdcTokenAccount := sampleAccount (sampleKey 21).key 0 []
  vaultCanonicalTokenAccount := sampleAccount (sampleKey 22).key 0 []
  emberState := sampleAccount EMBER_STATE 0 []
  emberVault := sampleAccount EMBER_VAULT 0 []
  globalVault := sampleAccount 0 0 []
  perpAssetMap := sampleAccount 0 0 []
  withdrawQueue := sampleAccount 0 0 []
  orderbook := sampleAccount (sampleKey 23).key 0 []
  splineCollection := sampleAccount (sampleKey 24).key 0 []
  globalConfig := sampleAccount PHOENIX_GLOBAL_CONFIGURATION PHOENIX_PROGRAM_ID
    (PhoenixGlobalConfig.discriminator ++ List.replicate 768 0)
  logAuthority := sampleAccount PHOENIX_LOG_AUTHORITY 0 []
  phoenixProgram := sampleAccount PHOENIX_PROGRAM_ID 0 []
  hawkeyeProgram := sampleAccount HAWKEYE_PROGRAM_ID 0 []
  emberProgram := sampleAccount EMBER_PROGRAM_ID 0 []
  tokenProgram := sampleAccount TOKEN_ID 0 []
  systemProgram := sampleAccount 0 0 []
  remainingAccounts := [sampleHeader GLOBAL_TRADER_INDEX, sampleHeader ACTIVE_TRADER_BUFFER]
  canonicalBalance := canonical
  reloadedBalance := reloaded
  usdcMint_key := rfl
  emberState_key := rfl
  emberVault_key := rfl
  globalConfig_key := rfl
  logAuthority_key := rfl
  phoenixProgram_key := rfl
  hawkeyeProgram_key := rfl
  emberProgram_key := rfl

/-- A fill of 5 base lots, and a healthy trader account. -/
def sampleRuntime : CpiRuntime := fun c =>
  if c.instruction.programId = HAWKEYE_PROGRAM_ID then
    .ok (some (HAWKEYE_PROGRAM_ID, VIEW_MARGIN_RETURN_MAGIC ++ [1] ++ List.replicate 103 0))
  else .ok (some (PHOENIX_PROGRAM_ID, List.replicate 24 0 ++ [5] ++ List.replicate 39 0))

def sampleEnv : PhoenixEnv where
  traderAddress _ := (sampleKey 20).key
  splineCollectionAddress _ := (sampleKey 24).key
  vaultBump := 255

/-- A market order for 6 base lots at any price, of which 5 have to be filled. -/
def sampleOrder (reduceOnly : Bool) : PhoenixMarketOrderParams where
  side := .bid
  priceInTicks := none
  numBaseLots := 6
  numQuoteLots := none
  minBaseLotsToFill := 5
  minQuoteLotsToFill := 0
  selfTradeBehavior := .abort
  matchLimit := none
  clientOrderId := 7
  lastValidSlot := none
  reduceOnly := reduceOnly
  cancelExisting := false

/-- The order that closes the position. -/
def closeTx : TradeTx := ⟨manager, I64.literal 40 rfl,
  .phoenix (.placeMarketOrder (sampleOrder true)) (samplePhoenix sampleTrader 0 0) sampleRuntime⟩

/-- The vault gets 100 USDC of Alice, which the manager funds its trader account with. A position
is opened, the vault becomes reduce-only and the position is closed; of two withdrawals Phoenix
pays the first and queues the second, which is unwrapped when it has come. -/
def tradeTxs : List TradeTx := [
  ⟨manager, I64.literal 10 rfl, .phoenix .initializeStrategy (samplePhoenix [] 0 0) sampleRuntime⟩,
  ⟨alice, I64.literal 12 rfl,
    .program ⟨.depositTransfer (.wallet alice.key) .vault 100, rfl⟩⟩,
  ⟨manager, I64.literal 15 rfl,
    .phoenix (.depositFunds 100) (samplePhoenix sampleTrader 0 0) sampleRuntime⟩,
  ⟨manager, I64.literal 20 rfl,
    .phoenix (.placeMarketOrder (sampleOrder false)) (samplePhoenix sampleTrader 0 0)
      sampleRuntime⟩,
  ⟨manager, I64.literal 30 rfl, .program ⟨.vaultUpdate
    ⟨none, none, none, none, none, some .reduceOnly, none, none⟩, rfl⟩⟩,
  closeTx,
  ⟨manager, I64.literal 50 rfl,
    .phoenix (.withdrawFunds 60) (samplePhoenix sampleTrader 0 60) sampleRuntime⟩,
  ⟨manager, I64.literal 60 rfl,
    .phoenix (.withdrawFunds 40) (samplePhoenix sampleTrader 0 0) sampleRuntime⟩,
  ⟨manager, I64.literal 70 rfl,
    .phoenix (.emberWithdraw (sampleKey 20).key) (samplePhoenix sampleTrader 40 40)
      sampleRuntime⟩]

def sampleMints : VaultMints := ⟨USDC_MINT, 0⟩

def tradeHistory (n : Nat) : List (Transition World TradeTx) :=
  history (afterTrade sampleEnv sampleMints) sample (tradeTxs.take n)

/-- The world after the first `n` of the transactions. -/
def tradesAfter (n : Nat) : World :=
  final (afterTrade sampleEnv sampleMints) sample (tradeTxs.take n)

theorem trade_run {n : Nat} (h : (runAll (afterTrade sampleEnv sampleMints) sample []
    (tradeTxs.take n)).isOk = true := by decide +kernel) :
    Run (TradeStep sampleEnv sampleMints) sample (tradeHistory n) (tradesAfter n) :=
  run_final h

def closing : Transition World TradeTx := ⟨tradesAfter 5, closeTx, tradesAfter 6⟩

theorem closing_mem : closing ∈ tradeHistory 6 := by
  have hok : (runAll (afterTrade sampleEnv sampleMints) sample []
    (tradeTxs.take 5 ++ [closeTx])).isOk = true := by decide +kernel
  unfold tradeHistory
  rw [show tradeTxs.take 6 = tradeTxs.take 5 ++ [closeTx] from rfl, history_snoc hok]
  exact List.mem_cons_self

theorem closing_sends : sent sampleEnv sampleMints closing ≠ [] := by
  have hsent : (sent sampleEnv sampleMints closing).isEmpty = false := by decide +kernel
  intro h
  rw [h] at hsent
  cases hsent

/-- The call with the order. -/
def closeCall : Invocation := (sent sampleEnv sampleMints closing).head closing_sends

theorem closeCall_asks : closeCall.Asks (.trade (.order (sampleOrder true).packet)) := by
  have hprogram : closeCall.instruction.programId = PHOENIX_PROGRAM_ID := by decide +kernel
  have hdata : closeCall.instruction.data = (sampleOrder true).packet.discriminator ++
      serialize (sampleOrder true).packet := by decide +kernel
  unfold Invocation.Asks
  rw [hprogram, hdata]
  exact PhoenixRequest.reads_venue rfl

theorem trading_refines_sample :
    (∃ h₂ u, Run Step sample h₂ u ∧
      labels h₂ = (labels (tradeHistory 9)).filterMap (TradeTx.program sampleMints) ∧
      Restamped (tradesAfter 9) u) ∧
    (tradesAfter 9).Sound ∧ (tradesAfter 9).Census ∧ SameVault sample (tradesAfter 9) ∧
    OneTrader sampleEnv (tradesAfter 9) :=
  trading_refines sample_fresh trade_run

theorem calls_relayed_sample : ∃ ix a runtime r, closing.label.ix = .phoenix ix a runtime ∧
    Relayed sample.key sample.vault.authority (sampleEnv.traderAddress sample.key)
      (sample.signerSeeds sampleEnv) a.remainingAccounts r closeCall :=
  calls_relayed sample_fresh trade_run closing closing_mem closeCall (List.head_mem _)

theorem calls_allowed_sample :
    closing.label.signer.key = sample.vault.authority ∧
    closing.pre.config.status ≠ .paused ∧ closing.pre.vault.status ≠ .paused ∧
    (∀ r, closeCall.Asks r → r.isExit = false →
      closing.pre.config.status = .normal ∧ closing.pre.vault.status = .normal) ∧
    ∃ s, closing.post.strategies.lookup (sampleEnv.traderAddress sample.key) = some s ∧
      s.lastActionTs = closing.label.now :=
  calls_allowed sample_fresh trade_run closing closing_mem closeCall (List.head_mem _)

theorem orders_checked_sample :
    ∃ ix a runtime view, closing.label.ix = .phoenix ix a runtime ∧
      sent sampleEnv sampleMints closing = [closeCall, view] ∧ view.Asks .viewMargin ∧
      sampleEnv.traderAddress sample.key ∈ closeCall.keys ∧
      sampleEnv.traderAddress sample.key ∈ view.keys ∧
      (∃ data, runtime view = .ok (some (HAWKEYE_PROGRAM_ID, data)) ∧
        parseIsLiquidatable data = .ok false) ∧
      ∃ data response, runtime closeCall = .ok (some (PHOENIX_PROGRAM_ID, data)) ∧
        MatchingEngineResponse.parse data = .ok response ∧
        (sampleOrder true).packet.minBaseLots ≤ response.baseLotsFilled :=
  orders_checked sample_fresh trade_run closing closing_mem closeCall (List.head_mem _) _
    closeCall_asks

theorem collateral_balanced_sample :
    requested VenueRequest.wrapped ((tradeHistory 9).flatMap (sent sampleEnv sampleMints)) =
      requested VenueRequest.funded ((tradeHistory 9).flatMap (sent sampleEnv sampleMints)) ∧
    requested VenueRequest.unwrapped ((tradeHistory 9).flatMap (sent sampleEnv sampleMints)) =
      ((labels (tradeHistory 9)).map TradeTx.received).sum ∧
    requested VenueRequest.pulled ((tradeHistory 9).flatMap (sent sampleEnv sampleMints)) =
      ((labels (tradeHistory 9)).map TradeTx.received).sum +
        ((labels (tradeHistory 9)).map TradeTx.queued).sum :=
  collateral_balanced trade_run

end World

end HedgeVault
