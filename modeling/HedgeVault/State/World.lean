import HedgeVault.Lib.Registry
import HedgeVault.State.Request
import HedgeVault.State.Strategy
import HedgeVault.State.Vault

/-!
# The world of one vault

Everything the instructions on one vault read and write: the config with the
manager whitelist, the vault, its two mints with all balances, and the accounts
found by a key (requests by their owner, strategies by their protocol account).
`clock` is what the clock sysvar shows the instruction that runs.

The deposit mint and the share mint are exact: a transfer credits what it debits,
and nobody but the owner of an account moves its tokens. Lamports are left out,
so the rent of a payout account is settled elsewhere.
-/

namespace HedgeVault

open Lib

/-- Whose token account of a mint: a wallet's, the vault's escrow or the vault's own. -/
inductive Holder where
  | wallet (k : Pubkey)
  | escrow
  | vault
  deriving DecidableEq

abbrev SplMint := Mint U64_MAX Holder

namespace SplMint

theorem supply_lt (m : SplMint) : m.supply < 2 ^ 64 := by
  have := m.supply_le
  unfold U64_MAX at this
  omega

theorem amount_lt (m : SplMint) (k : Holder) : m.amount k < 2 ^ 64 :=
  Nat.lt_of_le_of_lt (m.amount_le k) m.supply_lt

/-- The `supply` field of the mint account. -/
def supplyU64 (m : SplMint) : U64 := BitVec.ofNatLT m.supply m.supply_lt

/-- The `amount` field of a token account. -/
def amountU64 (m : SplMint) (k : Holder) : U64 := BitVec.ofNatLT (m.amount k) (m.amount_lt k)

@[simp] theorem supplyU64_toNat (m : SplMint) : m.supplyU64.toNat = m.supply := by
  simp [supplyU64]

@[simp] theorem amountU64_toNat (m : SplMint) (k : Holder) :
    (m.amountU64 k).toNat = m.amount k := by
  simp [amountU64]

end SplMint

@[ext]
structure World where
  clock : I64
  /-- The address of the vault. -/
  key : Pubkey
  config : Config
  managers : Finset Pubkey
  vault : Vault
  depositMint : SplMint
  shareMint : SplMint
  depositRequests : Finmap fun _ : Pubkey => DepositRequest
  withdrawalRequests : Finmap fun _ : Pubkey => WithdrawalRequest
  strategies : Finmap fun _ : Pubkey => Strategy

namespace World

/-- `Account<'info, _>`: the account must exist. -/
def load {ρ : Type} : Option ρ → Result ρ
  | some r => .ok r
  | none => .error .accountNotInitialized

theorem load_eq_ok {ρ : Type} {o : Option ρ} {r : ρ} : load o = .ok r ↔ o = some r := by
  cases o <;> simp [load]

/-- Anchor's `init`: the account must not exist. -/
def allocate (c : Prop) [Decidable c] : Result Unit :=
  if c then .error .accountAlreadyInUse else .ok ()

/-- The idle balance of the vault. -/
def idle (w : World) : Nat := w.depositMint.amount .vault

/-- What `vault_initialize` leaves beside the vault: empty accounts. -/
structure Opened (w : World) : Prop where
  depositEscrow : w.depositMint.amount .escrow = 0
  shareMint : w.shareMint = Mint.empty
  depositRequests : w.depositRequests = ∅
  withdrawalRequests : w.withdrawalRequests = ∅
  strategies : w.strategies = ∅

/-- A world whose vault was just made by `Vault::new`. -/
def Fresh (w : World) : Prop :=
  w.Opened ∧ ∃ args : NewVaultArgs, args.currentTs = w.clock ∧ w.vault = Vault.new args

end World

end HedgeVault
