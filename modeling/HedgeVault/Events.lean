import HedgeVault.Instructions.Venues
import HedgeVault.Lib.Journal

/-!
# Events

The events that the instructions on a vault, its strategies, its config and its managers emit,
and for a processed transaction the list of them (`emitted`): most handlers emit one at their
end, `config_update` a nomination before it. A field is read where the source reads it, from the
accounts before or after the handler, or from what a method returned.

A record in the log carries the signer of its transaction and the time of its block, which is
what the clock sysvar showed the handler. An event names a strategy record by its address, which
is derived from the protocol account that the record is kept under here. The mints in the events
of `vault_initialize` are left out, as they are in the world of a vault.
-/

namespace HedgeVault

open Lib

structure ConfigUpdated where
  admin : Pubkey
  navUpdater : Pubkey
  treasuryAuthority : Pubkey
  guardian : Pubkey
  platformPerformanceFeeBps : U16
  platformManagementFeeBps : U16
  maxNavDeviationBps : U16
  maxEpochOutflowBps : U16
  maxSlippageBps : U16
  status : ProtocolStatus

structure VaultUpdated where
  vault : Pubkey
  performanceFeeBps : U16
  managementFeeBps : U16
  pendingPerformanceFeeBps : U16
  pendingManagementFeeBps : U16
  feeEffectiveTs : I64
  depositCap : U64
  minDeposit : U64
  minWithdrawalShares : U64
  status : VaultStatus
  depositPaused : Bool
  withdrawalPaused : Bool

structure NavUpdated where
  vault : Pubkey
  epoch : U64
  totalAssets : U64
  navPerShare : U64
  highWaterMark : U64
  managerFeeShares : U64
  platformFeeShares : U64
  overridden : Bool

structure DepositRequested where
  vault : Pubkey
  authority : Pubkey
  amount : U64
  pendingAmount : U64
  epoch : U64

structure DepositResolved where
  vault : Pubkey
  authority : Pubkey
  amount : U64
  shares : U64
  navPerShare : U64

structure WithdrawalRequested where
  vault : Pubkey
  authority : Pubkey
  shares : U64
  pendingShares : U64
  epoch : U64

structure WithdrawalResolved where
  vault : Pubkey
  authority : Pubkey
  shares : U64
  amount : U64
  navPerShare : U64

structure StrategyInitialized where
  vault : Pubkey
  id : U32
  strategyType : StrategyType
  createdTs : I64

structure StrategyClosed where
  vault : Pubkey
  id : U32
  strategyType : StrategyType
  createdTs : I64
  closedTs : I64

/-! What the handlers on an open strategy did. -/

structure StrategyAction where
  vault : Pubkey
  /-- The record, by its protocol account. -/
  strategy : Pubkey
  strategyId : U32

structure JupiterSwapEvent extends StrategyAction, JupiterSwapped where
  sourceMint : Pubkey
  destinationMint : Pubkey
  amount : U64

structure MeteoraDlmmLiquidityAdded extends StrategyAction where
  position : Pubkey
  amountX : U64
  amountY : U64
  tokenXMint : Pubkey
  tokenYMint : Pubkey
  amountXSpent : U64
  amountYSpent : U64

structure MeteoraDlmmLiquidityRemoved extends StrategyAction where
  position : Pubkey
  bpsToRemove : U16
  tokenXMint : Pubkey
  tokenYMint : Pubkey
  amountXReceived : U64
  amountYReceived : U64

structure MeteoraDlmmFeeClaimed extends StrategyAction where
  position : Pubkey
  /-- Total fees claimed into the vault, including the treasury share. -/
  amountX : U64
  amountY : U64
  treasuryAmountX : U64
  treasuryAmountY : U64
  tokenXMint : Pubkey
  tokenYMint : Pubkey
  vaultRetainedX : U64
  vaultRetainedY : U64

structure PhoenixFundsDeposited extends StrategyAction where
  traderAccount : Pubkey
  amount : U64

structure PhoenixFundsWithdrawn extends StrategyAction where
  traderAccount : Pubkey
  requested : U64
  /-- Canonical tokens paid out now and unwrapped into USDC, zero when the throttle queued it. -/
  received : U64
  queued : Bool

structure PhoenixCanonicalUnwrapped extends StrategyAction where
  amount : U64

inductive PhoenixOrderKind where
  | market
  | limit
  | postOnly
  deriving DecidableEq

def PhoenixLimitOrderParams.kind (params : PhoenixLimitOrderParams) : PhoenixOrderKind :=
  if params.postOnly then .postOnly else .limit

structure PhoenixOrderPlaced extends StrategyAction where
  orderbook : Pubkey
  side : PhoenixSide
  kind : PhoenixOrderKind
  priceInTicks : Option U64
  numBaseLots : U64
  reduceOnly : Bool
  baseLotsFilled : U64
  quoteLotsFilled : U64
  baseLotsPosted : U64
  /-- Set when part of the order rested on the book, the id cancels it by id. -/
  orderSequenceNumber : Option U64

structure PhoenixOrdersCancelled extends StrategyAction where
  orderbook : Pubkey
  mode : PhoenixCancelMode

inductive ProgramEvent where
  | configUpdated (e : ConfigUpdated)
  | adminNominated (admin pendingAdmin : Pubkey)
  | adminAccepted (previousAdmin admin : Pubkey)
  | protocolPaused (guardian : Pubkey)
  | managerAdded (authority : Pubkey)
  | managerRemoved (authority : Pubkey)
  | vaultInitialized (id : U64) (authority : Pubkey)
  | vaultUpdated (e : VaultUpdated)
  | vaultPaused (vault guardian : Pubkey)
  | navUpdated (e : NavUpdated)
  | managerFeeClaimed (vault authority : Pubkey) (shares : U64)
  | platformFeeClaimed (vault authority : Pubkey) (shares : U64)
  | depositRequested (e : DepositRequested)
  | depositCancelled (vault authority : Pubkey) (amount : U64)
  | depositResolved (e : DepositResolved)
  | depositRejected (vault authority : Pubkey) (amount : U64)
  | withdrawalRequested (e : WithdrawalRequested)
  | withdrawalCancelled (vault authority : Pubkey) (shares : U64)
  | withdrawalResolved (e : WithdrawalResolved)
  | withdrawalRejected (vault authority : Pubkey) (shares : U64)
  | strategyInitialized (e : StrategyInitialized)
  | strategyClosed (e : StrategyClosed)
  | jupiterSwapped (e : JupiterSwapEvent)
  | meteoraDlmmLiquidityAdded (e : MeteoraDlmmLiquidityAdded)
  | meteoraDlmmLiquidityRemoved (e : MeteoraDlmmLiquidityRemoved)
  | meteoraDlmmFeeClaimed (e : MeteoraDlmmFeeClaimed)
  | phoenixFundsDeposited (e : PhoenixFundsDeposited)
  | phoenixFundsWithdrawn (e : PhoenixFundsWithdrawn)
  | phoenixCanonicalUnwrapped (e : PhoenixCanonicalUnwrapped)
  | phoenixOrderPlaced (e : PhoenixOrderPlaced)
  | phoenixOrdersCancelled (e : PhoenixOrdersCancelled)

/-- An event in the log. -/
structure LogRecord where
  time : I64
  signer : Pubkey
  event : ProgramEvent

/-- What a method of the vault returned beside it. -/
def returned {α : Type} (r : Result (Vault × α)) (default : α) : α :=
  match r with
  | .ok (_, x) => x
  | .error _ => default

@[simp] theorem returned_ok {α : Type} (v : Vault) (x default : α) :
    returned (.ok (v, x)) default = x := rfl

namespace World

def configUpdated (w : World) : ConfigUpdated where
  admin := w.config.admin
  navUpdater := w.config.navUpdater
  treasuryAuthority := w.config.treasuryAuthority
  guardian := w.config.guardian
  platformPerformanceFeeBps := w.config.platformPerformanceFeeBps
  platformManagementFeeBps := w.config.platformManagementFeeBps
  maxNavDeviationBps := w.config.maxNavDeviationBps
  maxEpochOutflowBps := w.config.maxEpochOutflowBps
  maxSlippageBps := w.config.maxSlippageBps
  status := w.config.status

def vaultUpdated (w : World) : VaultUpdated where
  vault := w.key
  performanceFeeBps := w.vault.performanceFeeBps
  managementFeeBps := w.vault.managementFeeBps
  pendingPerformanceFeeBps := w.vault.pendingPerformanceFeeBps
  pendingManagementFeeBps := w.vault.pendingManagementFeeBps
  feeEffectiveTs := w.vault.feeEffectiveTs
  depositCap := w.vault.depositCap
  minDeposit := w.vault.minDeposit
  minWithdrawalShares := w.vault.minWithdrawalShares
  status := w.vault.status
  depositPaused := decide w.vault.isDepositPaused
  withdrawalPaused := decide w.vault.isWithdrawalPaused

/-- `w` is the world after the post, `fees` what it charged. -/
def navUpdated (w : World) (fees : NavFeeShares) (overridden : Bool) : NavUpdated where
  vault := w.key
  epoch := w.vault.navEpoch
  totalAssets := w.vault.totalAssets
  navPerShare := w.vault.navPerShare
  highWaterMark := w.vault.highWaterMark
  managerFeeShares := fees.managerFeeShares
  platformFeeShares := fees.platformFeeShares
  overridden := overridden

/-- The fee shares of a post on `w`. -/
def postedFees (w : World) (totalAssets : U64) (maxNavDeviationBps : Option U16) : NavFeeShares :=
  returned (w.vault.updateNav (w.navUpdateArgs totalAssets maxNavDeviationBps)) ⟨0, 0⟩

/-- The events of the handler of `ix` that took `w` to `w'`. -/
def emitted (w w' : World) (signer : Signer) : Instruction → List ProgramEvent
  | .depositRequestCreate amount _ _ =>
    (w'.depositRequests.lookup signer.key).toList.map fun r =>
      .depositRequested ⟨w.key, signer.key, amount, r.amount, r.epoch⟩
  | .depositRequestCancel =>
    (w.depositRequests.lookup signer.key).toList.map fun r =>
      .depositCancelled w.key signer.key r.amount
  | .depositRequestReject depositor =>
    (w.depositRequests.lookup depositor).toList.map fun r =>
      .depositRejected w.key depositor r.amount
  | .depositRequestResolve depositor =>
    (w.depositRequests.lookup depositor).toList.map fun r =>
      .depositResolved ⟨w.key, depositor, r.amount, returned (w.vault.resolveDeposit r.amount) 0,
        w'.vault.navPerShare⟩
  | .withdrawalRequestCreate shares _ =>
    (w'.withdrawalRequests.lookup signer.key).toList.map fun r =>
      .withdrawalRequested ⟨w.key, signer.key, shares, r.shares, r.epoch⟩
  | .withdrawalRequestCancel =>
    (w.withdrawalRequests.lookup signer.key).toList.map fun r =>
      .withdrawalCancelled w.key signer.key r.shares
  | .withdrawalRequestReject withdrawer =>
    (w.withdrawalRequests.lookup withdrawer).toList.map fun r =>
      .withdrawalRejected w.key withdrawer r.shares
  | .withdrawalRequestResolve withdrawer =>
    (w.withdrawalRequests.lookup withdrawer).toList.map fun r =>
      .withdrawalResolved ⟨w.key, withdrawer, r.shares,
        returned (w.vault.resolveWithdrawal r.shares w.config.maxEpochOutflowBps) 0,
        w'.vault.navPerShare⟩
  | .navUpdate totalAssets =>
    [.navUpdated (w'.navUpdated (w.postedFees totalAssets (some w.config.maxNavDeviationBps)) false)]
  | .navOverride totalAssets => [.navUpdated (w'.navUpdated (w.postedFees totalAssets none) true)]
  | .vaultClaimManagerFee =>
    [.managerFeeClaimed w.key signer.key (returned w.vault.claimManagerFee 0)]
  | .configClaimPlatformFee =>
    [.platformFeeClaimed w.key signer.key (returned w.vault.claimPlatformFee 0)]
  | .vaultUpdate _ => [.vaultUpdated w'.vaultUpdated]
  | .vaultPause => [.vaultPaused w.key signer.key]
  | .otherVaultInitialize _ _ => [.vaultInitialized w.config.nextVaultId signer.key]
  | .configUpdate args =>
    args.pendingAdmin.toList.map (.adminNominated w.config.admin) ++
      [.configUpdated w'.configUpdated]
  | .configPause => [.protocolPaused signer.key]
  | .adminAccept => [.adminAccepted w.config.admin w'.config.admin]
  | .configAddManager authority => [.managerAdded authority]
  | .configRemoveManager authority => [.managerRemoved authority]
  | .initializeStrategy strategyType _ =>
    (w'.strategies.lookup strategyType.protocolAccount).toList.map fun s =>
      .strategyInitialized ⟨w.key, s.id, s.strategyType, w.clock⟩
  | .vaultCloseStrategy protocolAccount _ =>
    (w.strategies.lookup protocolAccount).toList.map fun s =>
      .strategyClosed ⟨w.key, s.id, s.strategyType, s.createdTs, w.clock⟩
  | _ => []

/-- What a processed transaction adds to the log. -/
def logged (t : Transition World Tx) : List LogRecord :=
  (emitted { t.pre with clock := t.label.now } t.post t.label.signer t.label.ix).map
    (⟨t.label.now, t.label.signer.key, ·⟩)

end World

namespace Custody

variable (V : Venues) (c : Custody)

/-- The event of a handler on the open record `k`. -/
def actionEvent (k : Pubkey) (event : StrategyAction → ProgramEvent) : List ProgramEvent :=
  (c.world.strategies.lookup k).toList.map fun s => event ⟨c.world.key, k, s.id⟩

/-- The fee that was transferred, for an amount of which it could be computed. -/
def treasuryAmount (claimed : U64) : U64 := (treasuryFee claimed).toOption.getD 0

def orderPlaced (a : StrategyAction) (orderbook : Pubkey) (side : PhoenixSide)
    (kind : PhoenixOrderKind) (priceInTicks : Option U64) (numBaseLots : U64) (reduceOnly : Bool)
    (response : MatchingEngineResponse) : PhoenixOrderPlaced :=
  { a with
    orderbook, side, kind, priceInTicks, numBaseLots, reduceOnly
    baseLotsFilled := response.baseLotsFilled
    quoteLotsFilled := response.quoteLotsFilled
    baseLotsPosted := response.numBaseLotsPosted
    orderSequenceNumber := response.orderSequenceNumber? }

/-- The events of the handler of `ix` that took `c` to `c'`. -/
def emitted (c c' : Custody) (signer : Signer) : CustodyInstruction → List ProgramEvent
  | .program ix => World.emitted c.world c'.world signer ix
  | .closeStrategy k _ => World.emitted c.world c'.world signer (.vaultCloseStrategy k (.ok ()))
  | .jupiterSwap strategyAccount sourceMint destinationMint _ _ args (.ok route) =>
    c.actionEvent strategyAccount fun a => .jupiterSwapped { a with
      sourceMint, destinationMint
      amount := args.amount
      sourceSpent := c.balance V (.associated sourceMint) - route.swap.sourceBalance
      destinationReceived :=
        route.swap.destinationBalance - c.balance V (.associated destinationMint) }
  | .dlmmAddLiquidity position amountX amountY (.ok outcome) =>
    c.actionEvent position fun a => .meteoraDlmmLiquidityAdded { a with
      position, amountX, amountY
      tokenXMint := (V.pair position).1
      tokenYMint := (V.pair position).2
      amountXSpent := outcome.x
      amountYSpent := outcome.y }
  | .dlmmRemoveLiquidity position bpsToRemove (.ok outcome) =>
    c.actionEvent position fun a => .meteoraDlmmLiquidityRemoved { a with
      position, bpsToRemove
      tokenXMint := (V.pair position).1
      tokenYMint := (V.pair position).2
      amountXReceived := outcome.x
      amountYReceived := outcome.y }
  | .dlmmClaimFee position _ (.ok outcome) =>
    c.actionEvent position fun a => .meteoraDlmmFeeClaimed { a with
      position
      amountX := outcome.x
      amountY := outcome.y
      treasuryAmountX := treasuryAmount outcome.x
      treasuryAmountY := treasuryAmount outcome.y
      tokenXMint := (V.pair position).1
      tokenYMint := (V.pair position).2
      vaultRetainedX := outcome.x - treasuryAmount outcome.x
      vaultRetainedY := outcome.y - treasuryAmount outcome.y }
  | .phoenixDepositFunds traderAccount amount _ =>
    c.actionEvent traderAccount fun a => .phoenixFundsDeposited { a with traderAccount, amount }
  | .phoenixWithdrawFunds traderAccount amount (.ok outcome) =>
    c.actionEvent traderAccount fun a => .phoenixFundsWithdrawn { a with
      traderAccount
      requested := amount
      received := outcome.received
      queued := outcome.received = 0 }
  | .phoenixEmberWithdraw traderAccount =>
    c.actionEvent traderAccount fun a =>
      .phoenixCanonicalUnwrapped { a with amount := c.balance V V.canonical }
  | .phoenixPlaceLimitOrder traderAccount orderbook params (.ok outcome) =>
    c.actionEvent traderAccount fun a => .phoenixOrderPlaced (orderPlaced a orderbook params.side
      params.kind (some params.priceInTicks) params.numBaseLots params.reduceOnly outcome.response)
  | .phoenixPlaceMarketOrder traderAccount orderbook params (.ok outcome) =>
    c.actionEvent traderAccount fun a => .phoenixOrderPlaced (orderPlaced a orderbook params.side
      .market params.priceInTicks params.numBaseLots params.reduceOnly outcome.response)
  | .phoenixCancelOrders traderAccount orderbook mode _ =>
    c.actionEvent traderAccount fun a => .phoenixOrdersCancelled { a with orderbook, mode }
  | _ => []

/-- What a processed transaction adds to the log. -/
def logged (t : Transition Custody CustodyTx) : List LogRecord :=
  (emitted V { t.pre with world := { t.pre.world with clock := t.label.now } } t.post
    t.label.signer t.label.ix).map (⟨t.label.now, t.label.signer.key, ·⟩)

end Custody

end HedgeVault
