import HedgeVault.Lib.Purse
import HedgeVault.Utils.Account

/-!
# The rent of payout accounts

A request holds the rent for the token account it will pay out to. `escrowPayoutRent` charges
it, for the larger of the two mints; `createPayoutAccount` opens the account at settlement and
repays whoever paid for it. The addresses are those a request of one vault moves lamports
between; no two of them are the same account. The rent sysvar and the Token-2022 library are
a `Runtime`.
-/

namespace HedgeVault

open Lib

inductive Address where
  | wallet (k : Pubkey)
  | depositRequest (u : Pubkey)
  | withdrawalRequest (u : Pubkey)
  /-- The token account of a user for the deposit mint. -/
  | depositAccount (u : Pubkey)
  | shareAccount (u : Pubkey)
  deriving DecidableEq

inductive MintKind where
  | deposit
  | share

abbrev ExtensionType := U16

def IMMUTABLE_OWNER : ExtensionType := 7

structure Runtime where
  /-- `Rent::minimum_balance`. -/
  minimumBalance : Nat → U64
  /-- `StateWithExtensions::unpack` and `get_extension_types` of a mint. -/
  extensionTypes : List Byte → Option (List ExtensionType)
  requiredInitAccountExtensions : List ExtensionType → List ExtensionType
  calculateAccountLen : List ExtensionType → Option Nat

/-- The lamports, which payout addresses hold an account, and the two mints. -/
structure Bank where
  lamports : Address → Nat
  dataIsEmpty : Address → Bool
  depositMint : Account
  shareMint : Account

/-- `Account::LEN`. -/
def ACCOUNT_LEN : Nat := 165

/-- The discriminator and the fields of either request. -/
def REQUEST_LEN : Nat := 8 + 121

namespace Runtime

variable (rt : Runtime)

/-- The length of a token account for the mint. -/
def payoutAccountLen (mint : Account) : Result Nat :=
  if mint.owner ≠ TOKEN_2022_ID then .ok ACCOUNT_LEN
  else
    match rt.extensionTypes mint.data with
    | none => .error (.custom .invalidDepositMintExtension)
    | some extensions =>
      let required := rt.requiredInitAccountExtensions extensions ++ [IMMUTABLE_OWNER]
      match rt.calculateAccountLen required with
      | none => .error (.custom .invalidDepositMintExtension)
      | some len => .ok len

/-- The minimum balance of a request account. -/
def requestRent : Nat := (rt.minimumBalance REQUEST_LEN).toNat

end Runtime

namespace Bank

variable (b : Bank) (rt : Runtime)

def mint : MintKind → Account
  | .deposit => b.depositMint
  | .share => b.shareMint

def pay (src dst : Address) (n : Nat) : Bank := { b with lamports := Lib.pay b.lamports src dst n }

/-- The system program's `transfer`. A refusal ends the instruction. -/
def systemTransfer (src dst : Address) (lamports : Nat) : Result Bank :=
  if lamports ≤ b.lamports src then .ok (b.pay src dst lamports) else .error .programFailed

/-- The rent that `escrow_payout_rent` charges. -/
def payoutRent : Result U64 := do
  let share := rt.minimumBalance (← rt.payoutAccountLen b.shareMint)
  let deposit := rt.minimumBalance (← rt.payoutAccountLen b.depositMint)
  pure (if share ≤ deposit then deposit else share)

def escrowPayoutRent (payer request : Address) : Result (Bank × U64) := do
  let escrow ← b.payoutRent rt
  pure (← b.systemTransfer payer request escrow.toNat, escrow)

/-- The associated token program's `create_idempotent` at an address without an account. -/
def createIdempotent (payer payout : Address) (kind : MintKind) : Result Bank := do
  let len ← rt.payoutAccountLen (b.mint kind)
  let b ← b.systemTransfer payer payout ((rt.minimumBalance len).toNat - b.lamports payout)
  pure { b with dataIsEmpty := Function.update b.dataIsEmpty payout false }

/-- The bank with the account created, and the lamports drawn. -/
def createPayoutAccount (payer payout : Address) (kind : MintKind) (escrow : Address)
    (escrowLamports : U64) : Result (Bank × Nat) :=
  if ¬ b.dataIsEmpty payout then pure (b, 0)
  else do
    let len ← rt.payoutAccountLen (b.mint kind)
    let funded := (rt.minimumBalance len).toNat - b.lamports payout
    let b ← b.createIdempotent rt payer payout kind
    let drawn := min (min funded escrowLamports.toNat) (b.lamports escrow)
    pure (b.pay escrow payer drawn, drawn)

/-- Anchor's `init_if_needed` of a request account, with the authority it holds if it exists. -/
def initRequest (payer request : Address) : Option Pubkey → Result Bank
  | none => b.systemTransfer payer request (rt.requestRent - b.lamports request)
  | some _ => pure b

/-- Anchor's `init_if_needed` of a token account. -/
def initPayoutAccount (payer payout : Address) (kind : MintKind) : Result Bank :=
  if ¬ b.dataIsEmpty payout then pure b else b.createIdempotent rt payer payout kind

/-- Anchor's `close = owner`. -/
def close (request owner : Address) : Bank := b.pay request owner (b.lamports request)

end Bank

end HedgeVault
