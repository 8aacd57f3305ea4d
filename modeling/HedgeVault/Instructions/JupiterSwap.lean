import HedgeVault.Protocol.Jupiter
import HedgeVault.State.World
import HedgeVault.Utils.Account

/-!
# Swaps

`jupiter_swap` checks the call, relays the route to Jupiter and compares the balances of the
two vault accounts before and after (`settleSwap`). What Jupiter does to them is a
parameter: `call` is the error of the call, or the balances it left. The accounts that
Anchor pins by their address are left out.
-/

namespace HedgeVault

open Lib

/-- The two mints in the vault account, which nothing changes. -/
structure VaultMints where
  depositMint : Pubkey
  shareMint : Pubkey

/-- The swap accounts of a call, with the balances Anchor loaded. -/
structure SwapAccounts where
  sourceMint : Pubkey
  destinationMint : Pubkey
  vaultSourceTokenAccount : Pubkey
  sourceBalance : U64
  destinationBalance : U64
  remainingAccounts : List AccountInfo

structure SwapArgs where
  swapData : List Byte
  amount : U64
  slippageBps : U16

/-- The balances that Jupiter left. -/
structure SwapOutcome where
  sourceBalance : U64
  destinationBalance : U64

structure JupiterSwapped where
  sourceSpent : U64
  destinationReceived : U64

/-- One side of the swap is the deposit mint, the other the target mint of the strategy. -/
def swapTarget (mints : VaultMints) (sourceMint destinationMint : Pubkey) : Result Pubkey := do
  validate (sourceMint ≠ destinationMint) .invalidSwapMints
  validate (destinationMint ≠ mints.shareMint) .invalidStrategyMint
  if sourceMint = mints.depositMint then pure destinationMint
  else do
    validate (destinationMint = mints.depositMint) .invalidDepositMint
    pure sourceMint

/-- The target mint of a Jupiter strategy. -/
def StrategyType.jupiterTarget : StrategyType → Result Pubkey
  | .jupiterSwap targetMint => .ok targetMint
  | _ => .error (.custom .invalidStrategyType)

structure TokenLedger where
  tokenAccount : Pubkey
  amount : U64

namespace TokenLedger

def discriminator : List Byte := [156, 247, 9, 188, 54, 108, 85, 77]

def decoder : Decoder TokenLedger :=
  (Decoder.word 32).bind fun tokenAccount =>
  (Decoder.word 8).bind fun amount =>
  .pure { tokenAccount, amount }

end TokenLedger

/-- What `swap` checks before it invokes Jupiter. The shared routes index the first three
accounts. -/
def checkRemainingAccounts (variant : SwapVariant) (accounts : SwapAccounts) : Result Unit :=
  match variant with
  | .exactOutRoute => pure ()
  | .route => pure ()
  | .routeWithTokenLedger =>
    match accounts.remainingAccounts with
    | [] => .error (.custom .invalidRemainingAccounts)
    | tokenLedger :: _ => do
      validate (tokenLedger.owner = JUPITER_ID) .invalidProgramId
      let ledger ← tryDeserialize TokenLedger.discriminator TokenLedger.decoder tokenLedger.data
      validate (ledger.tokenAccount = accounts.vaultSourceTokenAccount) .invalidTokenAccountOwner
  | .sharedAccountsExactOutRoute | .sharedAccountsRoute =>
    if accounts.remainingAccounts.length < 3 then .error .programFailed else pure ()

/-- What the vault compares once Jupiter returns. -/
def settleSwap (variant : SwapVariant) (routeArgs : RouteArgs) (maxSlippageBps : U16)
    (accounts : SwapAccounts) (left : SwapOutcome) : Result JupiterSwapped := do
  let destinationReceived ← safeSub left.destinationBalance accounts.destinationBalance
  let sourceSpent ← safeSub accounts.sourceBalance left.sourceBalance
  match variant.mode with
  | .exactIn =>
    validate (destinationReceived ≥ (← minAmountOut routeArgs.quotedAmount maxSlippageBps))
      .swapOutputBelowMinimum
    pure { sourceSpent, destinationReceived }
  | .exactOut =>
    validate (destinationReceived ≥ routeArgs.amount) .swapOutputBelowMinimum
    validate (sourceSpent ≤ (← maxAmountIn routeArgs.quotedAmount maxSlippageBps))
      .swapOutputBelowMinimum
    pure { sourceSpent, destinationReceived }

namespace World

/-- The part of the handler before the call: the strategy with its target, and the route. -/
def jupiterSwapRoute (w : World) (mints : VaultMints) (authority : Signer)
    (strategyAccount : Pubkey) (accounts : SwapAccounts) (args : SwapArgs) :
    Result (Strategy × SwapVariant × RouteArgs) := do
  let strategy ← load (w.strategies.lookup strategyAccount)
  w.config.isProtocolOperational
  w.vault.validateAuthority authority.key
  w.vault.isVaultOperational
  let targetMint ← swapTarget mints accounts.sourceMint accounts.destinationMint
  validate (strategyAccount = targetMint) .invalidStrategy
  let strategyTargetMint ← strategy.strategyType.jupiterTarget
  validate (strategyTargetMint = targetMint) .invalidTargetMint
  let variant ← SwapVariant.fromSwapData args.swapData
  let routeArgs ← checkAmountAndSlippage args.swapData args.amount args.slippageBps
    w.config.effectiveMaxSlippageBps
  checkRemainingAccounts variant accounts
  pure (strategy, variant, routeArgs)

def jupiterSwap (w : World) (mints : VaultMints) (authority : Signer) (strategyAccount : Pubkey)
    (accounts : SwapAccounts) (args : SwapArgs) (call : Result SwapOutcome) :
    Result (World × JupiterSwapped) := do
  let (strategy, variant, routeArgs) ←
    w.jupiterSwapRoute mints authority strategyAccount accounts args
  let left ← call
  let swapped ← settleSwap variant routeArgs w.config.effectiveMaxSlippageBps accounts left
  pure ({ w with
    strategies := w.strategies.insert strategyAccount { strategy with lastActionTs := w.clock } },
    swapped)

end World

end HedgeVault
