import HedgeVault.State.World

/-!
# Closing a vault

`vault_close` reads the counters of the vault and the supply of the share mint, then closes
the vault's own token account and both escrows, which the token program refuses for an
account that holds something. It does not look at the records of the vault: what it leaves
(`Closed`) has them as they were.
-/

namespace HedgeVault

open Lib

/-- What is there once the vault account and its token accounts are gone. -/
structure Closed where
  config : Config
  managers : Finset Pubkey
  depositMint : SplMint
  shareMint : SplMint
  depositRequests : Finmap fun _ : Pubkey => DepositRequest
  withdrawalRequests : Finmap fun _ : Pubkey => WithdrawalRequest
  strategies : Finmap fun _ : Pubkey => Strategy

namespace World

def vaultClose (w : World) (authority : Signer) : Result Closed := do
  w.vault.validateAuthority authority.key
  validate (w.shareMint.supplyU64 = 0) .vaultHasOutstandingShares
  validate (w.vault.pendingDeposits = 0 ∧ w.vault.pendingWithdrawalShares = 0)
    .vaultHasPendingRequests
  validate (w.vault.unclaimedManagerFeeShares = 0 ∧ w.vault.unclaimedPlatformFeeShares = 0)
    .vaultHasUnclaimedFees
  validate (w.vault.openStrategyCount = 0) .vaultHasOpenStrategies
  validate (w.vault.totalAssets = 0) .vaultHasAssets
  ofToken (w.depositMint.closeAccount .vault)
  ofToken (w.depositMint.closeAccount .escrow)
  ofToken (w.shareMint.closeAccount .escrow)
  pure {
    config := w.config
    managers := w.managers
    depositMint := w.depositMint
    shareMint := w.shareMint
    depositRequests := w.depositRequests
    withdrawalRequests := w.withdrawalRequests
    strategies := w.strategies }

/-- What an accepted close has checked. -/
structure VaultClosed (w : World) (c : Closed) : Prop where
  supply : w.shareMint.supply = 0
  pendingDeposits : w.vault.pendingDeposits.toNat = 0
  pendingWithdrawalShares : w.vault.pendingWithdrawalShares.toNat = 0
  unclaimedManager : w.vault.unclaimedManagerFeeShares.toNat = 0
  unclaimedPlatform : w.vault.unclaimedPlatformFeeShares.toNat = 0
  openStrategyCount : w.vault.openStrategyCount.toNat = 0
  totalAssets : w.vault.totalAssets.toNat = 0
  idle : w.idle = 0
  depositEscrow : w.depositMint.amount .escrow = 0
  shareEscrow : w.shareMint.amount .escrow = 0
  eq : c = ⟨w.config, w.managers, w.depositMint, w.shareMint, w.depositRequests,
    w.withdrawalRequests, w.strategies⟩

theorem vaultClose_ok {w : World} {authority : Signer} {c : Closed}
    (h : w.vaultClose authority = .ok c) : VaultClosed w c := by
  simp only [vaultClose, bind_eq_ok, pure_eq_ok, validate_eq_ok, ofToken_eq_ok,
    Mint.closeAccount_eq_ok] at h
  obtain ⟨_, _, _, hs, _, ⟨hd, hw⟩, _, ⟨hm, hp⟩, _, hn, _, ht, _, hv, _, hde, _, hse, rfl⟩ := h
  exact {
    supply := by rw [← SplMint.supplyU64_toNat, hs]; rfl
    pendingDeposits := congrArg BitVec.toNat hd
    pendingWithdrawalShares := congrArg BitVec.toNat hw
    unclaimedManager := congrArg BitVec.toNat hm
    unclaimedPlatform := congrArg BitVec.toNat hp
    openStrategyCount := congrArg BitVec.toNat hn
    totalAssets := congrArg BitVec.toNat ht
    idle := hv
    depositEscrow := hde
    shareEscrow := hse
    eq := rfl }

end World

end HedgeVault
