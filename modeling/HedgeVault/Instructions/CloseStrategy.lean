import HedgeVault.Instructions.Admin
import HedgeVault.Protocol.Phoenix

/-!
# Closing a strategy on the chain

The protocol part of `vault_close_strategy`: which of the remaining accounts it takes, what
it checks of them and what it closes (`closeHoldings`). The programs it calls, and what they
and the caller know of their accounts, are the fields of `Programs`; what the closing relies
on is `Programs.Faithful`.
-/

namespace HedgeVault

open Lib

/-- A token account, of either token program. -/
structure TokenAccount where
  mint : Pubkey
  owner : Pubkey
  amount : U64

inductive TokenProgram where
  | token
  | token2022
  deriving DecidableEq

def TokenProgram.id : TokenProgram → Pubkey
  | .token => TOKEN_ID
  | .token2022 => TOKEN_2022_ID

structure Programs where
  /-- `get_associated_token_address_with_program_id`, of a wallet, a mint and a token program. -/
  associatedTokenAddress : Pubkey → Pubkey → Pubkey → Pubkey
  /-- `TokenAccount::try_deserialize`. -/
  unpackToken : List Byte → Result TokenAccount
  /-- The program that owns a mint. -/
  mintProgram : Pubkey → TokenProgram
  /-- The liquidity in a DLMM position. -/
  liquidity : List Byte → Nat
  /-- The call of a token program that closes an account in favour of a destination. -/
  closeAccount : Accounts → (program account destination authority : Pubkey) → Result Accounts
  /-- The call of DLMM that closes a position in favour of a receiver. -/
  closePosition :
    Accounts → (position sender rentReceiver eventAuthority : Pubkey) → Result Accounts

namespace Programs

variable (P : Programs)

/-- The tokens in an account. -/
def balance (a : Accounts) (key : Pubkey) : Nat :=
  if (a key).lamports = 0 then 0 else
    match P.unpackToken (a key).data with
    | .ok t => t.amount.toNat
    | .error _ => 0

/-- The liquidity of a position. -/
def positionLiquidity (a : Accounts) (key : Pubkey) : Nat :=
  if (a key).lamports = 0 then 0 else P.liquidity (a key).data

/-- What closing an account refuses and does, and that two token programs derive two
addresses. -/
structure Faithful : Prop where
  closeAccount_ok : ∀ {a a' program account destination authority},
    P.closeAccount a program account destination authority = .ok a' →
      (a account).owner = program ∧ P.balance a account = 0 ∧ account ≠ destination ∧
        a' = a.close account destination
  closePosition_ok : ∀ {a a' position sender rentReceiver eventAuthority},
    P.closePosition a position sender rentReceiver eventAuthority = .ok a' →
      P.positionLiquidity a position = 0 ∧ position ≠ rentReceiver ∧
        a' = a.close position rentReceiver
  packed : ∀ t, ∃ data, P.unpackToken data = .ok t
  programs_ne : ∀ wallet mint, P.associatedTokenAddress wallet mint TOKEN_ID ≠
    P.associatedTokenAddress wallet mint TOKEN_2022_ID

/-- A token account is owned by the program of its mint. -/
def Consistent (a : Accounts) : Prop :=
  ∀ key t, (a key).lamports ≠ 0 → P.unpackToken (a key).data = .ok t →
    (a key).owner = (P.mintProgram t.mint).id

/-- The Jupiter part: the token account of the vault for the target mint. -/
def closeJupiter (a : Accounts) (vault authority targetMint : Pubkey) :
    List Pubkey → Result Accounts
  | [vaultTargetMintTokenAccount, tokenProgram] => do
    validate (tokenProgram = TOKEN_ID ∨ tokenProgram = TOKEN_2022_ID) .invalidTokenProgram
    validate (vaultTargetMintTokenAccount = P.associatedTokenAddress vault targetMint tokenProgram)
      .invalidTargetMintTokenAccount
    if (a vaultTargetMintTokenAccount).lamports = 0 then pure a
    else do
      let tokenAccount ← P.unpackToken (a vaultTargetMintTokenAccount).data
      validate (tokenAccount.mint = targetMint) .invalidTargetMintTokenAccount
      validate (tokenAccount.owner = vault) .invalidTokenAccountOwner
      P.closeAccount a tokenProgram vaultTargetMintTokenAccount authority vault
  | _ => .error (.custom .invalidRemainingAccounts)

/-- The DLMM part: the position. -/
def closeDlmm (a : Accounts) (vault authority position : Pubkey) : List Pubkey → Result Accounts
  | [positionAccount, dlmmProgram, dlmmEventAuthority] => do
    validate (positionAccount = position) .invalidPosition
    validate (dlmmProgram = DLMM_ID) .invalidProgramId
    P.closePosition a positionAccount vault authority dlmmEventAuthority
  | _ => .error (.custom .invalidRemainingAccounts)

/-- The Phoenix part: the trader account stays, the canonical token account is closed. -/
def closePhoenix (a : Accounts) (vault authority traderAccount : Pubkey) :
    List Pubkey → Result Accounts
  | [traderAccountInfo, globalConfig, vaultCanonicalTokenAccount, tokenProgram] => do
    validate (traderAccountInfo = traderAccount) .invalidPhoenixTrader
    validate (globalConfig = PHOENIX_GLOBAL_CONFIGURATION) .invalidPhoenixAccount
    validate (tokenProgram = TOKEN_ID) .invalidTokenProgram
    (← PhoenixTrader.load (a traderAccountInfo)).isEmpty
    let canonicalMint := (← PhoenixGlobalConfig.load (a globalConfig)).canonicalMint
    validate (vaultCanonicalTokenAccount = P.associatedTokenAddress vault canonicalMint tokenProgram)
      .invalidPhoenixAccount
    if (a vaultCanonicalTokenAccount).lamports = 0 then pure a
    else P.closeAccount a tokenProgram vaultCanonicalTokenAccount authority vault
  | _ => .error (.custom .invalidRemainingAccounts)

def closeHoldings (a : Accounts) (vault authority : Pubkey) (remaining : List Pubkey) :
    StrategyType → Result Accounts
  | .meteoraDlmm position => P.closeDlmm a vault authority position remaining
  | .jupiterSwap targetMint => P.closeJupiter a vault authority targetMint remaining
  | .phoenixPerp traderAccount => P.closePhoenix a vault authority traderAccount remaining

/-- `vault_close_strategy` on the record of `protocolAccount`, with the chain after it. -/
def vaultCloseStrategy (w : World) (a : Accounts) (authority : Signer) (protocolAccount : Pubkey)
    (remaining : List Pubkey) : Result (World × Accounts) := do
  let strategy ← World.load (w.strategies.lookup protocolAccount)
  let closed := P.closeHoldings a w.key authority.key remaining strategy.strategyType
  let w' ← w.vaultCloseStrategy authority protocolAccount (closed.map fun _ => ())
  pure (w', ← closed)

end Programs

end HedgeVault
