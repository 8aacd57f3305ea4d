import HedgeVault.Instructions.CloseStrategy
import HedgeVault.Instructions.JupiterSwap
import HedgeVault.Program
import HedgeVault.Protocol.PhoenixCpi
import HedgeVault.Utils.Payout

/-!
# What a vault owns, and the instructions that move it

A `Custody` is the world of a vault with what else the vault owns: every token account that
it has the authority of, its DLMM positions and its Phoenix trader account. Its accounts of
the deposit mint and the share mint stay with the world. The venues are outside: a call comes
with what it did (`RouteOutcome`, `DlmmOutcome`, `PhoenixOutcome`), which the handlers check and
book as payments. The bin ranges and the account tails that a venue gets are part of its call.
-/

namespace HedgeVault

open Lib

/-- A token account whose authority is the vault. -/
inductive VaultAccount where
  | depositEscrow
  | shareEscrow
  | associated (mint : Pubkey)
  /-- An account of the mint at another address, which anybody may open. -/
  | other (address mint : Pubkey)
  deriving DecidableEq

/-- Where the world of the vault keeps the account, if it does. -/
def VaultAccount.place (mints : VaultMints) : VaultAccount → Option (MintKind × Holder)
  | depositEscrow => some (.deposit, .escrow)
  | shareEscrow => some (.share, .escrow)
  | associated mint =>
    if mint = mints.depositMint then some (.deposit, .vault)
    else if mint = mints.shareMint then some (.share, .vault)
    else none
  | other _ _ => none

/-- What does not change about the mints and the venues. -/
structure Venues where
  mints : VaultMints
  /-- The token program that owns a mint. -/
  mintProgram : Pubkey → TokenProgram
  /-- The tokens X and Y of a DLMM position. -/
  pair : Pubkey → Pubkey × Pubkey
  /-- The mint that Phoenix collateral is wrapped in. -/
  canonicalMint : Pubkey

namespace Venues

variable (V : Venues)

/-! The accounts that the handlers on DLMM and Phoenix strategies name. -/

def tokenX (position : Pubkey) : VaultAccount := .associated (V.pair position).1

def tokenY (position : Pubkey) : VaultAccount := .associated (V.pair position).2

def canonical : VaultAccount := .associated V.canonicalMint

end Venues

def USDC_ACCOUNT : VaultAccount := .associated USDC_MINT

/-! ## Payments -/

/-- Tokens that an account of the vault and somebody else exchange. -/
inductive Payment where
  | spent (payee : Pubkey) (account : VaultAccount) (amount : U64)
  | received (payer : Pubkey) (account : VaultAccount) (amount : U64)
  deriving DecidableEq

namespace Payment

def account : Payment → VaultAccount
  | spent _ account _ => account
  | received _ account _ => account

def amount : Payment → U64
  | spent _ _ amount => amount
  | received _ _ amount => amount

def party : Payment → Pubkey
  | spent payee _ _ => payee
  | received payer _ _ => payer

/-- The source of the tokens, where the world has the vault's account as `holder`. -/
def src (holder : Holder) : Payment → Holder
  | spent _ _ _ => holder
  | received payer _ _ => .wallet payer

def dst (holder : Holder) : Payment → Holder
  | spent payee _ _ => .wallet payee
  | received _ _ _ => holder

/-- The transfer that the world of the vault sees, if it keeps the account. -/
def transfer (mints : VaultMints) (p : Payment) : Option Instruction :=
  match p.account.place mints with
  | some (.deposit, holder) => some (.depositTransfer (p.src holder) (p.dst holder) p.amount.toNat)
  | some (.share, holder) => some (.shareTransfer (p.src holder) (p.dst holder) p.amount.toNat)
  | none => none

/-- The balance that the payment leaves. -/
def book (balance : U64) : Payment → Result U64
  | spent _ _ amount => (checkedSub balance amount).elim (.error (.token .insufficientFunds)) .ok
  | received _ _ amount => (checkedAdd balance amount).elim (.error (.token .overflow)) .ok

/-- Whether the payment takes something out of an escrow. -/
def drains : Payment → Bool
  | spent _ account _ => account = .depositEscrow || account = .shareEscrow
  | received _ _ _ => false

end Payment

/-- A payment that a call makes beside those that the handler measures. The account lists of
these calls are the caller's and the vault signs them, so any account of the vault may be moved;
what is assumed of Jupiter and of DLMM is that they take nothing out of an escrow. -/
structure Aside where
  payment : Payment
  spares : payment.drains = false

/-- The payments on the side, to and from accounts that the handler does not measure. -/
def beside (measured : List VaultAccount) (aside : List Aside) : List Payment :=
  (aside.map (·.payment)).filter fun p => p.account ∉ measured

structure Custody where
  world : World
  /-- The balances of the accounts that are not kept by the world. -/
  held : VaultAccount → U64
  /-- The liquidity of a DLMM position. -/
  liquidity : Pubkey → Nat
  traders : Pubkey → PhoenixTrader

/-- What a DLMM call moved of the two tokens, the liquidity it left, and what else it moved. -/
structure DlmmOutcome where
  x : U64
  y : U64
  liquidity : Nat
  aside : List Aside

/-- What a Phoenix call paid into the canonical account, and the trader account it left. -/
structure PhoenixOutcome where
  received : U64
  trader : PhoenixTrader

/-- What an order was answered with, and what Hawkeye said of the trader account after it. -/
structure OrderOutcome extends PhoenixOutcome where
  response : MatchingEngineResponse
  liquidatable : Bool

/-- What a route left of the two balances that the handler measures, and what else it moved: a
route of several hops passes through accounts of other mints. -/
structure RouteOutcome where
  swap : SwapOutcome
  aside : List Aside

/-! ## Strategy handlers -/

def StrategyType.validatePosition (position : Pubkey) : StrategyType → Result Unit
  | .meteoraDlmm p => validate (p = position) .invalidPosition
  | _ => .error (.custom .invalidStrategyType)

def StrategyType.validateTrader (traderAccount : Pubkey) : StrategyType → Result Unit
  | .phoenixPerp t => validate (t = traderAccount) .invalidPhoenixTrader
  | _ => .error (.custom .invalidStrategyType)

namespace World

variable (w : World)

/-- A transfer of one of the vault's mints. -/
def transfer (kind : MintKind) (src dst : Holder) (amount : Nat) : Result World :=
  match kind with
  | .deposit => w.depositTransfer src dst amount
  | .share => w.shareTransfer src dst amount

/-- A payment, as far as the world of the vault keeps its account. -/
def pay (mints : VaultMints) (p : Payment) : Result World :=
  match p.account.place mints with
  | some (kind, holder) => w.transfer kind (p.src holder) (p.dst holder) p.amount.toNat
  | none => pure w

/-- What the handlers on an open DLMM or Phoenix strategy begin with. They differ in what the
protocol and the vault have to allow. -/
def actOn (authority : Signer) (protocolAccount : Pubkey) (protocolGate vaultGate : Result Unit)
    (validateType : StrategyType → Result Unit) : Result World := do
  let strategy ← load (w.strategies.lookup protocolAccount)
  protocolGate
  w.vault.validateAuthority authority.key
  vaultGate
  validateType strategy.strategyType
  pure { w with
    strategies := w.strategies.insert protocolAccount { strategy with lastActionTs := w.clock } }

/-- What the statuses have to allow for a market order. -/
def marketOrderGate (reduceOnly : Bool) : Result Unit :=
  if reduceOnly then do
    w.config.isProtocolWithdrawable
    w.vault.isVaultWithdrawable
  else do
    w.config.isProtocolOperational
    w.vault.isVaultOperational

end World

namespace Custody

variable (V : Venues) (c : Custody)

/-! ## Balances -/

def balance (account : VaultAccount) : U64 :=
  match account.place V.mints with
  | some (.deposit, holder) => c.world.depositMint.amountU64 holder
  | some (.share, holder) => c.world.shareMint.amountU64 holder
  | none => c.held account

def settle (p : Payment) : Result Custody :=
  match p.account.place V.mints with
  | some (kind, holder) => do
    pure { c with world := ← c.world.transfer kind (p.src holder) (p.dst holder) p.amount.toNat }
  | none => do
    pure { c with held := Function.update c.held p.account (← p.book (c.held p.account)) }

def settleAll (payments : List Payment) : Result Custody := payments.foldlM (settle V) c

/-! ## Jupiter -/

/-- The handler measures the source and the destination account and no other. -/
def jupiterSwap (authority : Signer) (strategyAccount sourceMint destinationMint : Pubkey)
    (vaultSourceTokenAccount : Pubkey) (remainingAccounts : List AccountInfo) (args : SwapArgs)
    (call : Result RouteOutcome) : Result Custody := do
  let source := .associated sourceMint
  let destination := .associated destinationMint
  let (world, swapped) ← c.world.jupiterSwap V.mints authority strategyAccount
    { sourceMint, destinationMint, vaultSourceTokenAccount, remainingAccounts
      sourceBalance := c.balance V source
      destinationBalance := c.balance V destination } args (call.map (·.swap))
  settleAll V { c with world } ([.spent JUPITER_ID source swapped.sourceSpent,
    .received JUPITER_ID destination swapped.destinationReceived] ++
      beside [source, destination] (← call).aside)

/-! ## DLMM -/

/-- The part of a claimed amount that goes to the treasury. -/
def treasuryFee (claimedAmount : U64) : Result U64 := do
  safeToU64 (← mulDiv (asU128 claimedAmount) (asU128 TREASURY_CLAIM_FEE_BPS) (asU128 MAX_BPS))

def dlmmAddLiquidity (authority : Signer) (position : Pubkey) (call : Result DlmmOutcome) :
    Result Custody := do
  let world ← c.world.actOn authority position c.world.config.isProtocolOperational
    c.world.vault.isVaultOperational (·.validatePosition position)
  let outcome ← call
  let c ← settleAll V { c with world } ([.spent position (V.tokenX position) outcome.x,
    .spent position (V.tokenY position) outcome.y] ++
      beside [V.tokenX position, V.tokenY position] outcome.aside)
  pure { c with liquidity := Function.update c.liquidity position outcome.liquidity }

def dlmmRemoveLiquidity (authority : Signer) (position : Pubkey) (call : Result DlmmOutcome) :
    Result Custody := do
  let world ← c.world.actOn authority position c.world.config.isProtocolOperational
    c.world.vault.isVaultWithdrawable (·.validatePosition position)
  let outcome ← call
  let c ← settleAll V { c with world } ([.received position (V.tokenX position) outcome.x,
    .received position (V.tokenY position) outcome.y] ++
      beside [V.tokenX position, V.tokenY position] outcome.aside)
  pure { c with liquidity := Function.update c.liquidity position outcome.liquidity }

/-- `transfer_treasury_fee`, which returns the fee as well. -/
def transferTreasuryFee (treasury : Pubkey) (account : VaultAccount) (claimedAmount : U64) :
    Result Custody := do
  let amount ← treasuryFee claimedAmount
  if amount > 0 then c.settle V (.spent treasury account amount) else pure c

/-- A claim leaves the liquidity as it is. -/
def dlmmClaimFee (authority : Signer) (position treasuryAuthority : Pubkey)
    (call : Result DlmmOutcome) : Result Custody := do
  let protocolGate : Result Unit := do
    c.world.config.isProtocolOperational
    c.world.config.validateTreasuryAuthority treasuryAuthority
  let world ← c.world.actOn authority position protocolGate c.world.vault.isVaultWithdrawable
    (·.validatePosition position)
  let outcome ← call
  let c ← settleAll V { c with world } ([.received position (V.tokenX position) outcome.x,
    .received position (V.tokenY position) outcome.y] ++
      beside [V.tokenX position, V.tokenY position] outcome.aside)
  let c ← c.transferTreasuryFee V treasuryAuthority (V.tokenX position) outcome.x
  c.transferTreasuryFee V treasuryAuthority (V.tokenY position) outcome.y

/-! ## Phoenix -/

/-- Ember wraps `amount` and Phoenix takes it, so the canonical account ends as it was. -/
def phoenixDepositFunds (authority : Signer) (traderAccount : Pubkey) (amount : U64)
    (call : Result PhoenixOutcome) : Result Custody := do
  let world ← c.world.actOn authority traderAccount c.world.config.isProtocolOperational
    c.world.vault.isVaultOperational (·.validateTrader traderAccount)
  validate (amount > 0) .invalidTransferAmount
  (c.traders traderAccount).validateAuthority c.world.key
  (c.traders traderAccount).isReady
  let outcome ← call
  validate (outcome.received = 0) .phoenixAmountMismatch
  let c ← settleAll V { c with world } [.spent EMBER_VAULT USDC_ACCOUNT amount]
  pure { c with traders := Function.update c.traders traderAccount outcome.trader }

/-- Phoenix pays all of the amount or queues it; what it pays is unwrapped at once. -/
def phoenixWithdrawFunds (authority : Signer) (traderAccount : Pubkey) (amount : U64)
    (call : Result PhoenixOutcome) : Result Custody := do
  let world ← c.world.actOn authority traderAccount c.world.config.isProtocolWithdrawable
    c.world.vault.isVaultWithdrawable (·.validateTrader traderAccount)
  validate (amount > 0) .invalidTransferAmount
  let outcome ← call
  validate (outcome.received = amount ∨ outcome.received = 0) .phoenixAmountMismatch
  let c ← settleAll V { c with world } [.received EMBER_VAULT USDC_ACCOUNT outcome.received]
  pure { c with traders := Function.update c.traders traderAccount outcome.trader }

/-- All of the canonical account is unwrapped. -/
def phoenixEmberWithdraw (authority : Signer) (traderAccount : Pubkey) : Result Custody := do
  let world ← c.world.actOn authority traderAccount c.world.config.isProtocolWithdrawable
    c.world.vault.isVaultWithdrawable (·.validateTrader traderAccount)
  let amount := c.balance V V.canonical
  validate (amount > 0) .invalidTransferAmount
  settleAll V { c with world }
    [.spent EMBER_VAULT V.canonical amount, .received EMBER_VAULT USDC_ACCOUNT amount]

/-- What Phoenix does to a trader account by itself or at an order: it can pay out what is
queued, and queues nothing. -/
def phoenixUpdate (traderAccount : Pubkey) (outcome : PhoenixOutcome) : Result Custody :=
  let traders := Function.update c.traders traderAccount outcome.trader
  if (c.traders traderAccount).withdrawQueueNode ≠ 0 then do
    let c ← settleAll V c [.received PHOENIX_PROGRAM_ID V.canonical outcome.received]
    pure { c with traders }
  else if outcome.received = 0 ∧ outcome.trader.withdrawQueueNode = 0 then pure { c with traders }
  else .error .programFailed

/-- A resting order is new risk even when reduce-only, so it is never an exit path. -/
def phoenixPlaceLimitOrder (authority : Signer) (traderAccount : Pubkey)
    (call : Result OrderOutcome) : Result Custody := do
  let world ← c.world.actOn authority traderAccount c.world.config.isProtocolOperational
    c.world.vault.isVaultOperational (·.validateTrader traderAccount)
  let outcome ← call
  validate (outcome.liquidatable = false) .phoenixAccountLiquidatable
  phoenixUpdate V { c with world } traderAccount outcome.toPhoenixOutcome

/-- Closing a position is an exit path, so reduce-only orders stay open in reduce-only status. -/
def phoenixPlaceMarketOrder (authority : Signer) (traderAccount : Pubkey)
    (params : PhoenixMarketOrderParams) (call : Result OrderOutcome) : Result Custody := do
  let world ← c.world.actOn authority traderAccount (pure ())
    (c.world.marketOrderGate params.reduceOnly) (·.validateTrader traderAccount)
  let outcome ← call
  validate (outcome.response.baseLotsFilled ≥ params.minBaseLotsToFill) .phoenixOrderUnderfilled
  validate (outcome.liquidatable = false) .phoenixAccountLiquidatable
  phoenixUpdate V { c with world } traderAccount outcome.toPhoenixOutcome

def phoenixCancelOrders (authority : Signer) (traderAccount : Pubkey)
    (call : Result PhoenixOutcome) : Result Custody := do
  let world ← c.world.actOn authority traderAccount c.world.config.isProtocolWithdrawable
    c.world.vault.isVaultWithdrawable (·.validateTrader traderAccount)
  phoenixUpdate V { c with world } traderAccount (← call)

/-! ## Opening and closing -/

/-- What the handlers check of a strategy they open. -/
def initializeChecks (strategyType : StrategyType) : Result Unit :=
  match strategyType with
  | .jupiterSwap destinationMint =>
    validate (destinationMint ≠ V.mints.depositMint ∧ destinationMint ≠ V.mints.shareMint)
      .invalidStrategyMint
  | .meteoraDlmm _ => pure ()
  | .phoenixPerp _ => validate (V.mints.depositMint = USDC_MINT) .invalidPhoenixDepositMint

/-- The token program closes an account of the vault, if there is one. -/
def closeAccount (account : VaultAccount) : Result Unit :=
  if c.balance V account = 0 then .ok () else .error (.token .nonNativeHasBalance)

/-- What the protocol part of a close asks of the holdings, when the caller names `program`:
an account under the program that does not own the mint never exists. -/
def closeHoldings (program : TokenProgram) : StrategyType → Result Unit
  | .jupiterSwap targetMint =>
    if program = V.mintProgram targetMint then c.closeAccount V (.associated targetMint)
    else pure ()
  | .meteoraDlmm position => if c.liquidity position = 0 then pure () else .error .programFailed
  | .phoenixPerp traderAccount => do
    (c.traders traderAccount).isEmpty
    c.closeAccount V V.canonical

def closeStrategy (authority : Signer) (protocolAccount : Pubkey) (program : TokenProgram) :
    Result Custody := do
  let strategy ← World.load (c.world.strategies.lookup protocolAccount)
  let world ← c.world.vaultCloseStrategy authority protocolAccount
    (c.closeHoldings V program strategy.strategyType)
  pure { c with world }

/-- Token movements outside the program that the vault would have to sign. -/
def ofVault : Instruction → Bool
  | .depositTransfer src _ _ => src = .vault
  | .depositBurn src _ => src = .vault
  | .shareTransfer src _ _ => src = .vault
  | .shareBurn src _ => src = .vault
  | _ => false

/-- The instruction as the world runs it. A close goes through `closeStrategy`, and what the
vault's own accounts pay goes through the handlers: the vault signs nothing else. (A mint whose
permanent delegate moves tokens of the vault is left out.) -/
def permit : Instruction → Result Instruction
  | .vaultCloseStrategy _ _ => .error .invalidInstructionData
  | .initializeStrategy strategyType checks =>
    let verdict : Result Unit := do
      initializeChecks V strategyType
      checks
    .ok (.initializeStrategy strategyType verdict)
  | ix => if ofVault ix then .error (.token .ownerMismatch) else .ok ix

/-- The other instructions of the program, and the token movements beside it. -/
def execute (signer : Signer) (ix : Instruction) : Result Custody := do
  let ix ← permit V ix
  pure { c with world := ← c.world.execute signer ix }

end Custody

/-! ## Transactions -/

/-- The amounts and order parameters of a call are those of its event. -/
inductive CustodyInstruction where
  | program (ix : Instruction)
  | jupiterSwap (strategyAccount sourceMint destinationMint vaultSourceTokenAccount : Pubkey)
    (remainingAccounts : List AccountInfo) (args : SwapArgs) (call : Result RouteOutcome)
  | dlmmAddLiquidity (position : Pubkey) (amountX amountY : U64) (call : Result DlmmOutcome)
  | dlmmRemoveLiquidity (position : Pubkey) (bpsToRemove : U16) (call : Result DlmmOutcome)
  | dlmmClaimFee (position treasuryAuthority : Pubkey) (call : Result DlmmOutcome)
  | phoenixDepositFunds (traderAccount : Pubkey) (amount : U64) (call : Result PhoenixOutcome)
  | phoenixWithdrawFunds (traderAccount : Pubkey) (amount : U64) (call : Result PhoenixOutcome)
  | phoenixEmberWithdraw (traderAccount : Pubkey)
  | phoenixPlaceLimitOrder (traderAccount orderbook : Pubkey) (params : PhoenixLimitOrderParams)
    (call : Result OrderOutcome)
  | phoenixPlaceMarketOrder (traderAccount orderbook : Pubkey) (params : PhoenixMarketOrderParams)
    (call : Result OrderOutcome)
  | phoenixCancelOrders (traderAccount orderbook : Pubkey) (mode : PhoenixCancelMode)
    (call : Result PhoenixOutcome)
  | closeStrategy (protocolAccount : Pubkey) (program : TokenProgram)
  -- outside the program
  | phoenixUpdate (traderAccount : Pubkey) (outcome : PhoenixOutcome)
  | donate (account : VaultAccount) (amount : U64)

structure CustodyTx where
  signer : Signer
  now : I64
  ix : CustodyInstruction

def CustodyInstruction.sentBy (ix : CustodyInstruction) (signer : Signer) (now : Int)
    (h : I64.inRange now = true := by exact Eq.refl true) : CustodyTx :=
  ⟨signer, I64.literal now h, ix⟩

namespace Custody

variable (V : Venues)

def run (c : Custody) (signer : Signer) : CustodyInstruction → Result Custody
  | .program ix => c.execute V signer ix
  | .jupiterSwap strategyAccount sourceMint destinationMint vaultSourceTokenAccount
      remainingAccounts args call =>
    c.jupiterSwap V signer strategyAccount sourceMint destinationMint vaultSourceTokenAccount
      remainingAccounts args call
  | .dlmmAddLiquidity position _ _ call => c.dlmmAddLiquidity V signer position call
  | .dlmmRemoveLiquidity position _ call => c.dlmmRemoveLiquidity V signer position call
  | .dlmmClaimFee position treasury call => c.dlmmClaimFee V signer position treasury call
  | .phoenixDepositFunds trader amount call => c.phoenixDepositFunds V signer trader amount call
  | .phoenixWithdrawFunds trader amount call => c.phoenixWithdrawFunds V signer trader amount call
  | .phoenixEmberWithdraw trader => c.phoenixEmberWithdraw V signer trader
  | .phoenixPlaceLimitOrder trader _ _ call => c.phoenixPlaceLimitOrder V signer trader call
  | .phoenixPlaceMarketOrder trader _ params call =>
    c.phoenixPlaceMarketOrder V signer trader params call
  | .phoenixCancelOrders trader _ _ call => c.phoenixCancelOrders V signer trader call
  | .closeStrategy protocolAccount program => c.closeStrategy V signer protocolAccount program
  | .phoenixUpdate trader outcome => c.phoenixUpdate V trader outcome
  | .donate account amount => c.settle V (.received signer.key account amount)

def process (c : Custody) (tx : CustodyTx) : Result Custody :=
  run V { c with world := { c.world with clock := tx.now } } tx.signer tx.ix

def Step (c : Custody) (tx : CustodyTx) (c' : Custody) : Prop := c.process V tx = .ok c'

end Custody

end HedgeVault
