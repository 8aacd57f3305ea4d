import HedgeVault.State.World

/-!
# NAV posts and fee claims

`nav_update` is the updater's post, bound to the deviation limit of the config;
`nav_override` is the admin's, without the limit. Both read the supply of the share
mint. A claim mints the accrued fee shares.
-/

namespace HedgeVault

open Lib

namespace World

/-- The arguments of a post, read from the config, the share mint and the clock. -/
def navUpdateArgs (w : World) (totalAssets : U64) (maxNavDeviationBps : Option U16) :
    NavUpdateArgs where
  totalAssets := totalAssets
  shareSupply := w.shareMint.supplyU64
  platformPerformanceFeeBps := w.config.platformPerformanceFeeBps
  platformManagementFeeBps := w.config.platformManagementFeeBps
  maxNavDeviationBps := maxNavDeviationBps
  now := w.clock

/-- What the two posts share: the posted assets cover the idle balance. -/
def postNav (w : World) (totalAssets : U64) (maxNavDeviationBps : Option U16) : Result World := do
  validate (totalAssets ≥ w.depositMint.amountU64 .vault) .totalAssetsBelowIdleBalance
  let (vault, _) ← w.vault.updateNav (w.navUpdateArgs totalAssets maxNavDeviationBps)
  pure { w with vault }

def navUpdate (w : World) (navUpdater : Signer) (totalAssets : U64) : Result World := do
  w.config.validateNavUpdater navUpdater.key
  w.postNav totalAssets (some w.config.maxNavDeviationBps)

def navOverride (w : World) (admin : Signer) (totalAssets : U64) : Result World := do
  w.config.validateAdmin admin.key
  w.postNav totalAssets none

def vaultClaimManagerFee (w : World) (authority : Signer) : Result World := do
  w.vault.validateAuthority authority.key
  let (vault, shares) ← w.vault.claimManagerFee
  let shareMint ← ofToken (w.shareMint.mintTo (.wallet authority.key) shares.toNat)
  pure { w with vault, shareMint }

def configClaimPlatformFee (w : World) (treasuryAuthority : Signer) : Result World := do
  w.config.validateTreasuryAuthority treasuryAuthority.key
  let (vault, shares) ← w.vault.claimPlatformFee
  let shareMint ← ofToken (w.shareMint.mintTo (.wallet treasuryAuthority.key) shares.toNat)
  pure { w with vault, shareMint }

end World

end HedgeVault
