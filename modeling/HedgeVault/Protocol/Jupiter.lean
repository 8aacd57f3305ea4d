import HedgeVault.Lib.Bytes
import HedgeVault.State.NavMath

/-!
# Jupiter routes

What the vault reads of a Jupiter instruction it relays: the variant from the discriminator
at the front, the arguments from the end of the data (`RouteArgs.parse`). Jupiter itself
decodes its arguments from the front (`jupiterDecode`): past the discriminator, the id of
the shared-accounts routes and the route plan. Its dispatch ignores what is left over.
-/

namespace HedgeVault

open Lib

def SLIPPAGE_TAIL : Nat := 2 + 1
def ARGS_TAIL : Nat := 8 * 2 + SLIPPAGE_TAIL
def TOKEN_LEDGER_ARGS_TAIL : Nat := 8 + SLIPPAGE_TAIL

/-- Which side of a routed swap the caller fixed. -/
inductive SwapMode where
  | exactIn
  | exactOut
  deriving DecidableEq

/-- The route instructions the vault is allowed to relay. -/
inductive SwapVariant where
  | route
  | routeWithTokenLedger
  | exactOutRoute
  | sharedAccountsRoute
  | sharedAccountsExactOutRoute
  deriving DecidableEq

namespace SwapVariant

def discriminator : SwapVariant → List Byte
  | .route => [229, 23, 203, 151, 122, 227, 173, 42]
  | .routeWithTokenLedger => [150, 86, 71, 116, 167, 93, 14, 104]
  | .exactOutRoute => [208, 51, 239, 151, 123, 43, 237, 92]
  | .sharedAccountsRoute => [193, 32, 155, 51, 65, 214, 156, 129]
  | .sharedAccountsExactOutRoute => [176, 209, 105, 168, 154, 125, 69, 62]

def fromSwapData (swapData : List Byte) : Result SwapVariant :=
  if exactOutRoute.discriminator <+: swapData then .ok .exactOutRoute
  else if route.discriminator <+: swapData then .ok .route
  else if routeWithTokenLedger.discriminator <+: swapData then .ok .routeWithTokenLedger
  else if sharedAccountsExactOutRoute.discriminator <+: swapData then
    .ok .sharedAccountsExactOutRoute
  else if sharedAccountsRoute.discriminator <+: swapData then .ok .sharedAccountsRoute
  else .error .invalidInstructionData

def mode : SwapVariant → SwapMode
  | .route => .exactIn
  | .routeWithTokenLedger => .exactIn
  | .sharedAccountsRoute => .exactIn
  | .exactOutRoute => .exactOut
  | .sharedAccountsExactOutRoute => .exactOut

def usesTokenLedger : SwapVariant → Bool
  | .routeWithTokenLedger => true
  | _ => false

/-- Whether Jupiter reads the id of a program authority before the plan. -/
def hasId : SwapVariant → Bool
  | .sharedAccountsRoute => true
  | .sharedAccountsExactOutRoute => true
  | _ => false

end SwapVariant

/-- Trailing arguments shared by every supported route instruction. -/
structure RouteArgs where
  /-- Input amount for an exact-in route, output amount for an exact-out route. -/
  amount : U64
  /-- Quoted output for an exact-in route, quoted input for an exact-out route. -/
  quotedAmount : U64
  slippageBps : U16
  deriving DecidableEq

namespace RouteArgs

def parse (swapData : List Byte) : Result RouteArgs := do
  validate (swapData.length ≥ ARGS_TAIL) .invalidInstructionData
  let bpsOffset := swapData.length - SLIPPAGE_TAIL
  let quotedOffset := bpsOffset - 8
  let amountOffset := quotedOffset - 8
  pure {
    amount := leWord 64 (slice swapData amountOffset quotedOffset)
    quotedAmount := leWord 64 (slice swapData quotedOffset bpsOffset)
    slippageBps := leWord 16 (slice swapData bpsOffset (bpsOffset + 2)) }

/-- Jupiter reads the input from the token ledger, so the amount is zero. -/
def parseWithTokenLedger (swapData : List Byte) : Result RouteArgs := do
  validate (swapData.length ≥ TOKEN_LEDGER_ARGS_TAIL) .invalidInstructionData
  let bpsOffset := swapData.length - SLIPPAGE_TAIL
  let quotedOffset := bpsOffset - 8
  pure {
    amount := 0
    quotedAmount := leWord 64 (slice swapData quotedOffset bpsOffset)
    slippageBps := leWord 16 (slice swapData bpsOffset (bpsOffset + 2)) }

end RouteArgs

/-- Smallest destination gain accepted for an exact-in route at the vault's slippage cap. -/
def minAmountOut (quotedOutAmount : U64) (maxSlippageBps : U16) : Result U64 := do
  let kept ← safeSub MAX_BPS maxSlippageBps
  safeToU64 (← mulDiv (asU128 quotedOutAmount) (asU128 kept) (asU128 MAX_BPS))

/-- Largest source spend accepted for an exact-out route at the vault's slippage cap. -/
def maxAmountIn (quotedInAmount : U64) (maxSlippageBps : U16) : Result U64 := do
  let allowed ← safeAdd (asU128 MAX_BPS) (asU128 maxSlippageBps)
  safeToU64 (← mulDiv (asU128 quotedInAmount) allowed (asU128 MAX_BPS))

/-- `require_eq!(a, b)`. -/
def requireEq (a b : U64) : Result Unit :=
  if a = b then .ok () else .error .requireEqViolated

/-- `require_gte!(a, b)`. -/
def requireGte (a b : U16) : Result Unit :=
  if a ≥ b then .ok () else .error .requireGteViolated

/-- The amount check of a route: the token ledger routes have no amount of their own. -/
def checkAmount (variant : SwapVariant) (swapData : List Byte) (amount : U64) :
    Result RouteArgs :=
  if variant.usesTokenLedger then do
    validate (amount > 0) .invalidInstructionData
    RouteArgs.parseWithTokenLedger swapData
  else do
    let args ← RouteArgs.parse swapData
    requireEq amount args.amount
    pure args

def checkAmountAndSlippage (swapData : List Byte) (amount : U64) (slippageBps maxSlippageBps : U16) :
    Result RouteArgs := do
  validate (swapData.length ≥ TOKEN_LEDGER_ARGS_TAIL) .invalidInstructionData
  let variant ← SwapVariant.fromSwapData swapData
  let args ← checkAmount variant swapData amount
  requireGte slippageBps args.slippageBps
  validate (args.slippageBps ≤ maxSlippageBps) .slippageExceedsCap
  validate (slippageBps ≤ maxSlippageBps) .slippageExceedsCap
  pure args

/-! ## Jupiter's side -/

/-- The arguments Jupiter decodes after the plan. -/
structure JupiterArgs where
  /-- `none` for the token ledger route. -/
  amount : Option U64
  quotedAmount : U64
  slippageBps : U16
  platformFeeBps : U8
  deriving DecidableEq

namespace SwapVariant

def idDecoder (v : SwapVariant) : Decoder (Option U8) :=
  if v.hasId then (Decoder.word 1).bind fun id => .pure (some id) else .pure none

def amountDecoder (v : SwapVariant) : Decoder (Option U64) :=
  if v.usesTokenLedger then .pure none else (Decoder.word 8).bind fun amount => .pure (some amount)

/-- The fields of the route instructions in the order of the IDL. -/
def argsDecoder (v : SwapVariant) : Decoder JupiterArgs :=
  v.amountDecoder.bind fun amount =>
  (Decoder.word 8).bind fun quotedAmount =>
  (Decoder.word 2).bind fun slippageBps =>
  (Decoder.word 1).bind fun platformFeeBps =>
  .pure { amount, quotedAmount, slippageBps, platformFeeBps }

def decoder {σ : Type} (step : Decoder σ) (v : SwapVariant) : Decoder JupiterArgs :=
  v.idDecoder.bind fun _ => step.vec.bind fun _ => v.argsDecoder

end SwapVariant

/-- Jupiter's dispatch among the route instructions: the arguments and what is left over. -/
def jupiterDecode {σ : Type} (step : Decoder σ) (swapData : List Byte) :
    Option (JupiterArgs × List Byte) := do
  let variant ← [SwapVariant.route, .routeWithTokenLedger, .exactOutRoute, .sharedAccountsRoute,
    .sharedAccountsExactOutRoute].find? fun v => v.discriminator = swapData.take 8
  (variant.decoder step).run (swapData.drop 8)

end HedgeVault
