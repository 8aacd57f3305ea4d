import HedgeVault.Instructions.Venues
import HedgeVault.Protocol.PhoenixCpi
import HedgeVault.Utils.Seeds

/-!
# Phoenix instructions

The seven handlers on a Phoenix strategy, with the accounts they are given and the calls they
make. A handler returns the world it leaves and the calls it sent, oldest first. Of what the
calls do, the world has the USDC that Ember takes from the vault and pays to it.
`PhoenixAccounts` are the accounts of all seven, of which each takes its own; Anchor refuses a
call whose pinned accounts are at other addresses, so these are fields.
-/

namespace HedgeVault

open Lib

structure PhoenixAccounts where
  /-- The account of the signer, who pays for a new trader account. -/
  authority : Account
  vault : FlaggedAccount
  traderAccount : FlaggedAccount
  usdcMint : FlaggedAccount
  canonicalMint : FlaggedAccount
  vaultUsdcTokenAccount : FlaggedAccount
  vaultCanonicalTokenAccount : FlaggedAccount
  emberState : FlaggedAccount
  emberVault : FlaggedAccount
  globalVault : FlaggedAccount
  perpAssetMap : FlaggedAccount
  withdrawQueue : FlaggedAccount
  orderbook : FlaggedAccount
  splineCollection : FlaggedAccount
  globalConfig : FlaggedAccount
  logAuthority : FlaggedAccount
  phoenixProgram : FlaggedAccount
  hawkeyeProgram : FlaggedAccount
  emberProgram : FlaggedAccount
  tokenProgram : FlaggedAccount
  systemProgram : FlaggedAccount
  remainingAccounts : List FlaggedAccount
  /-- `vault_canonical_token_account.amount` as it was loaded. -/
  canonicalBalance : U64
  /-- The amount that `reload` finds after the calls. -/
  reloadedBalance : U64
  usdcMint_key : usdcMint.key = USDC_MINT
  emberState_key : emberState.key = EMBER_STATE
  emberVault_key : emberVault.key = EMBER_VAULT
  globalConfig_key : globalConfig.key = PHOENIX_GLOBAL_CONFIGURATION
  logAuthority_key : logAuthority.key = PHOENIX_LOG_AUTHORITY
  phoenixProgram_key : phoenixProgram.key = PHOENIX_PROGRAM_ID
  hawkeyeProgram_key : hawkeyeProgram.key = HAWKEYE_PROGRAM_ID
  emberProgram_key : emberProgram.key = EMBER_PROGRAM_ID

/-- The addresses derived under Phoenix and the bump stored in the vault account. -/
structure PhoenixEnv where
  traderAddress : Pubkey → Pubkey
  splineCollectionAddress : Pubkey → Pubkey
  vaultBump : U8

namespace PhoenixAccounts

variable (a : PhoenixAccounts)

def market : PhoenixMarket := ⟨a.perpAssetMap, a.orderbook, a.splineCollection⟩

def phoenix : PhoenixCpi where
  phoenixProgram := a.phoenixProgram
  logAuthority := a.logAuthority
  globalConfig := a.globalConfig
  trader := a.vault
  traderAccount := a.traderAccount
  tail := a.remainingAccounts

def ember : EmberCpi where
  emberProgram := a.emberProgram
  trader := a.vault
  emberState := a.emberState
  usdcMint := a.usdcMint
  canonicalMint := a.canonicalMint
  traderUsdcAccount := a.vaultUsdcTokenAccount
  traderCanonicalAccount := a.vaultCanonicalTokenAccount
  emberVault := a.emberVault
  tokenProgram := a.tokenProgram

def remainingInfos : List AccountInfo := a.remainingAccounts.map (·.toAccountInfo)

def payer (authority : Signer) : FlaggedAccount := ⟨⟨a.authority, authority.key⟩, true, true⟩

end PhoenixAccounts

/-! ## Handlers -/

namespace World

variable (E : PhoenixEnv) (w : World) (authority : Signer) (a : PhoenixAccounts)
  (runtime : CpiRuntime) (mints : VaultMints)

/-- The seeds the vault signs its calls with. -/
def signerSeeds : List (List Byte) := vaultSeeds w.vault.id E.vaultBump

/-- The vault account of the call is that of this world. -/
def loadVault : Result Unit := load (if a.vault.key = w.key then some () else none)

/-- The accounts of an order, checked against the global configuration. -/
def checkMarket : Result Unit := do
  let phoenixConfig ← PhoenixGlobalConfig.load a.globalConfig.toAccount
  a.market.validate E.splineCollectionAddress phoenixConfig
  phoenixConfig.validateTraderTail a.remainingInfos

def phoenixInitializeStrategy : Result (World × List Invocation) := do
  w.loadVault a
  let checks : Result Unit := do
    validate (mints.depositMint = USDC_MINT) .invalidPhoenixDepositMint
    validate (a.traderAccount.key = E.traderAddress w.key) .invalidPhoenixTrader
    let phoenixConfig ← PhoenixGlobalConfig.load a.globalConfig.toAccount
    PhoenixGlobalConfig.validateAccount phoenixConfig.canonicalMint a.canonicalMint.key
  let w' ← w.initializeStrategy authority (.phoenixPerp a.traderAccount.key) checks
  -- the Phoenix builder API registers the trader itself when onboarding runs first
  if a.traderAccount.data = [] then do
    let call := { a.phoenix with tail := [] }.registerTrader (a.payer authority) a.systemProgram
    let _ ← runtime call
    pure (w', [call])
  else do
    let trader ← PhoenixTrader.load a.traderAccount.toAccount
    trader.validateAuthority w.key
    pure (w', [])

def phoenixDepositFunds (amount : U64) : Result (World × List Invocation) := do
  w.loadVault a
  let w' ← w.actOn authority a.traderAccount.key w.config.isProtocolOperational
    w.vault.isVaultOperational (·.validateTrader a.traderAccount.key)
  validate (amount > 0) .invalidTransferAmount
  let trader ← PhoenixTrader.load a.traderAccount.toAccount
  trader.validateAuthority w.key
  trader.isReady
  let phoenixConfig ← PhoenixGlobalConfig.load a.globalConfig.toAccount
  PhoenixGlobalConfig.validateAccount phoenixConfig.canonicalMint a.canonicalMint.key
  PhoenixGlobalConfig.validateAccount phoenixConfig.globalVault a.globalVault.key
  phoenixConfig.validateTraderTail a.remainingInfos
  let wrap := a.ember.deposit amount (w.signerSeeds E)
  let _ ← runtime wrap
  let w' ← w'.pay mints (.spent EMBER_VAULT USDC_ACCOUNT amount)
  let fund := a.phoenix.depositFunds a.vaultCanonicalTokenAccount a.globalVault a.tokenProgram
    amount (w.signerSeeds E)
  let _ ← runtime fund
  -- Ember minted exactly `amount` and Phoenix took exactly `amount`
  validate (a.reloadedBalance = a.canonicalBalance) .phoenixAmountMismatch
  pure (w', [wrap, fund])

def phoenixWithdrawFunds (amount : U64) : Result (World × List Invocation) := do
  w.loadVault a
  let w' ← w.actOn authority a.traderAccount.key w.config.isProtocolWithdrawable
    w.vault.isVaultWithdrawable (·.validateTrader a.traderAccount.key)
  validate (amount > 0) .invalidTransferAmount
  let phoenixConfig ← PhoenixGlobalConfig.load a.globalConfig.toAccount
  PhoenixGlobalConfig.validateAccount phoenixConfig.canonicalMint a.canonicalMint.key
  PhoenixGlobalConfig.validateAccount phoenixConfig.globalVault a.globalVault.key
  PhoenixGlobalConfig.validateAccount phoenixConfig.perpAssetMap a.perpAssetMap.key
  PhoenixGlobalConfig.validateAccount phoenixConfig.withdrawQueue a.withdrawQueue.key
  phoenixConfig.validateTraderTail a.remainingInfos
  let pull := a.phoenix.withdrawFunds a.perpAssetMap a.globalVault a.vaultCanonicalTokenAccount
    a.tokenProgram a.withdrawQueue amount (w.signerSeeds E)
  let _ ← runtime pull
  -- the withdraw throttle either pays the full amount now or queues all of it
  let received ← safeSub a.reloadedBalance a.canonicalBalance
  validate (received = amount ∨ received = 0) .phoenixAmountMismatch
  if received > 0 then do
    let unwrap := a.ember.withdraw (some received) (w.signerSeeds E)
    let _ ← runtime unwrap
    let w' ← w'.pay mints (.received EMBER_VAULT USDC_ACCOUNT received)
    pure (w', [pull, unwrap])
  else pure (w', [pull])

/-- The strategy is found by the trader account its record names. -/
def phoenixEmberWithdraw (traderAccount : Pubkey) : Result (World × List Invocation) := do
  w.loadVault a
  let w' ← w.actOn authority traderAccount w.config.isProtocolWithdrawable
    w.vault.isVaultWithdrawable (·.validateTrader traderAccount)
  let phoenixConfig ← PhoenixGlobalConfig.load a.globalConfig.toAccount
  PhoenixGlobalConfig.validateAccount phoenixConfig.canonicalMint a.canonicalMint.key
  validate (a.canonicalBalance > 0) .invalidTransferAmount
  let unwrap := a.ember.withdraw none (w.signerSeeds E)
  let _ ← runtime unwrap
  let w' ← w'.pay mints (.received EMBER_VAULT USDC_ACCOUNT a.canonicalBalance)
  pure (w', [unwrap])

/-- A resting order is new risk even when reduce-only, so it is never an exit path. -/
def phoenixPlaceLimitOrder (params : PhoenixLimitOrderParams) :
    Result (World × List Invocation) := do
  w.loadVault a
  let w' ← w.actOn authority a.traderAccount.key w.config.isProtocolOperational
    w.vault.isVaultOperational (·.validateTrader a.traderAccount.key)
  checkMarket E a
  let (_, order) ← a.phoenix.placeOrder runtime a.market (w.signerSeeds E) params.packet
  let (liquidatable, view) ← a.phoenix.isLiquidatable runtime a.hawkeyeProgram a.perpAssetMap
  validate (liquidatable = false) .phoenixAccountLiquidatable
  pure (w', [order, view])

/-- Closing a position is an exit path, so reduce-only orders stay open in reduce-only status. -/
def phoenixPlaceMarketOrder (params : PhoenixMarketOrderParams) :
    Result (World × List Invocation) := do
  w.loadVault a
  let w' ← w.actOn authority a.traderAccount.key (pure ()) (w.marketOrderGate params.reduceOnly)
    (·.validateTrader a.traderAccount.key)
  checkMarket E a
  let (response, order) ← a.phoenix.placeOrder runtime a.market (w.signerSeeds E) params.packet
  validate (response.baseLotsFilled ≥ params.minBaseLotsToFill) .phoenixOrderUnderfilled
  let (liquidatable, view) ← a.phoenix.isLiquidatable runtime a.hawkeyeProgram a.perpAssetMap
  validate (liquidatable = false) .phoenixAccountLiquidatable
  pure (w', [order, view])

def phoenixCancelOrders (mode : PhoenixCancelMode) : Result (World × List Invocation) := do
  w.loadVault a
  let w' ← w.actOn authority a.traderAccount.key w.config.isProtocolWithdrawable
    w.vault.isVaultWithdrawable (·.validateTrader a.traderAccount.key)
  checkMarket E a
  let cancel ← a.phoenix.cancelOrders runtime a.market (w.signerSeeds E) mode
  pure (w', [cancel])

end World

/-! ## Transactions -/

inductive PhoenixInstruction where
  | initializeStrategy
  | depositFunds (amount : U64)
  | withdrawFunds (amount : U64)
  | emberWithdraw (traderAccount : Pubkey)
  | placeLimitOrder (params : PhoenixLimitOrderParams)
  | placeMarketOrder (params : PhoenixMarketOrderParams)
  | cancelOrders (mode : PhoenixCancelMode)

/-- Whether the instruction opens a Phoenix strategy without the checks of its handler. -/
def Instruction.opensPhoenix : Instruction → Bool
  | .initializeStrategy (.phoenixPerp _) _ => true
  | _ => false

inductive TradeInstruction where
  | program (ix : { ix : Instruction // ix.opensPhoenix = false })
  | phoenix (ix : PhoenixInstruction) (accounts : PhoenixAccounts) (runtime : CpiRuntime)

structure TradeTx where
  signer : Signer
  now : I64
  ix : TradeInstruction

namespace World

variable (E : PhoenixEnv) (mints : VaultMints)

def executePhoenix (w : World) (signer : Signer) (a : PhoenixAccounts) (runtime : CpiRuntime) :
    PhoenixInstruction → Result (World × List Invocation)
  | .initializeStrategy => w.phoenixInitializeStrategy E signer a runtime mints
  | .depositFunds amount => w.phoenixDepositFunds E signer a runtime mints amount
  | .withdrawFunds amount => w.phoenixWithdrawFunds E signer a runtime mints amount
  | .emberWithdraw traderAccount => w.phoenixEmberWithdraw E signer a runtime mints traderAccount
  | .placeLimitOrder params => w.phoenixPlaceLimitOrder E signer a runtime params
  | .placeMarketOrder params => w.phoenixPlaceMarketOrder E signer a runtime params
  | .cancelOrders mode => w.phoenixCancelOrders E signer a runtime mode

/-- One transaction: the world it leaves and the calls it sent to the venues of Phoenix. -/
def trade (w : World) (tx : TradeTx) : Result (World × List Invocation) :=
  match tx.ix with
  | .program ix => do
    let w ← w.process ⟨tx.signer, tx.now, ix.1⟩
    pure (w, [])
  | .phoenix ix accounts runtime =>
    executePhoenix E mints { w with clock := tx.now } tx.signer accounts runtime ix

/-- The world a transaction leaves. -/
def afterTrade (w : World) (tx : TradeTx) : Result World := do
  let (w, _) ← w.trade E mints tx
  pure w

def TradeStep (w : World) (tx : TradeTx) (w' : World) : Prop := w.afterTrade E mints tx = .ok w'

/-- The calls that a step sent. -/
def sent (t : Transition World TradeTx) : List Invocation :=
  match t.pre.trade E mints t.label with
  | .ok (_, calls) => calls
  | .error _ => []

end World

end HedgeVault
