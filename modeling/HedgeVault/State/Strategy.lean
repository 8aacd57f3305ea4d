import HedgeVault.Constants

/-!
# Strategy records

A strategy record says where a vault's funds are used. Its account is found by the
vault and the account of the protocol (`StrategyType.protocolAccount`), and it
holds no accounting.
-/

namespace HedgeVault

inductive StrategyType where
  | jupiterSwap (targetMint : Pubkey)
  | meteoraDlmm (position : Pubkey)
  | phoenixPerp (traderAccount : Pubkey)
  deriving DecidableEq

def StrategyType.protocolAccount : StrategyType → Pubkey
  | .jupiterSwap targetMint => targetMint
  | .meteoraDlmm position => position
  | .phoenixPerp traderAccount => traderAccount

structure Strategy where
  vault : Pubkey
  createdTs : I64
  lastActionTs : I64
  /-- Unique within the vault. -/
  id : U32
  strategyType : StrategyType
  deriving DecidableEq

def Strategy.new (vault : Pubkey) (id : U32) (createdTs : I64) (strategyType : StrategyType) :
    Strategy where
  vault := vault
  createdTs := createdTs
  lastActionTs := createdTs
  id := id
  strategyType := strategyType

end HedgeVault
