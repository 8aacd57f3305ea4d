import HedgeVault.State.World

/-!
# Instructions on the config and on the vault's settings

`vault_initialize` returns the config with the next id and the new vault.
`vault_update` touches the fees only when one is given (`askFees`), so an update of
other settings never restarts a pending delay. The strategy instructions keep the
strategy records and the vault's two counters; `checks` is the verdict of the
protocol accounts and calls each of them passes, which move no token of the two
mints.
-/

namespace HedgeVault

open Lib

structure VaultInitializeArgs where
  depositCap : U64
  minDeposit : U64
  minWithdrawalShares : U64
  performanceFeeBps : U16
  managementFeeBps : U16

/-- The manager account of `authority` is there when it is whitelisted. -/
def vaultInitialize (config : Config) (managers : Finset Pubkey) (authority : Pubkey)
    (args : VaultInitializeArgs) (mintExtensions : Result Unit) (now : I64) :
    Result (Config × Vault) := do
  World.load (if authority ∈ managers then some () else none)
  config.isProtocolOperational
  validate (args.performanceFeeBps ≤ MAX_BPS) .invalidBasisPoints
  validate (args.managementFeeBps ≤ MAX_BPS) .invalidBasisPoints
  validate (args.minDeposit > 0 ∧ args.minWithdrawalShares > 0) .invalidMinimumAmount
  mintExtensions
  let vault := Vault.new {
    id := config.nextVaultId
    authority
    depositCap := args.depositCap
    minDeposit := args.minDeposit
    minWithdrawalShares := args.minWithdrawalShares
    performanceFeeBps := args.performanceFeeBps
    managementFeeBps := args.managementFeeBps
    currentTs := now }
  pure (← config.incrementVaultId, vault)

structure VaultUpdateArgs where
  performanceFeeBps : Option U16
  managementFeeBps : Option U16
  depositCap : Option U64
  minDeposit : Option U64
  minWithdrawalShares : Option U64
  status : Option VaultStatus
  depositPaused : Option Bool
  withdrawalPaused : Option Bool

/-- Whether the update asks for a fee. -/
def VaultUpdateArgs.asksFees (args : VaultUpdateArgs) : Prop :=
  args.performanceFeeBps.isSome ∨ args.managementFeeBps.isSome

instance (args : VaultUpdateArgs) : Decidable args.asksFees := inferInstanceAs (Decidable (_ ∨ _))

namespace Vault

/-- The fee part of `vault_update`. -/
def askFees (v : Vault) (args : VaultUpdateArgs) (now : I64) : Result Vault :=
  if args.asksFees then v.updateFees args.performanceFeeBps args.managementFeeBps now else pure v

/-- `validate!(x > 0, ..)` on an optional minimum. -/
def validateMinimum (minimum : Option U64) : Result Unit :=
  match minimum with
  | some x => validate (x > 0) .invalidMinimumAmount
  | none => pure ()

/-- The body of `vault_update` after its authority check. -/
def update (v : Vault) (args : VaultUpdateArgs) (now : I64) : Result Vault := do
  let v ← v.askFees args now
  validateMinimum args.minDeposit
  validateMinimum args.minWithdrawalShares
  pure { v with
    depositCap := args.depositCap.getD v.depositCap
    minDeposit := args.minDeposit.getD v.minDeposit
    minWithdrawalShares := args.minWithdrawalShares.getD v.minWithdrawalShares
    status := args.status.getD v.status
    depositPaused := (args.depositPaused.map fun b => BitVec.ofNat 8 b.toNat).getD v.depositPaused
    withdrawalPaused :=
      (args.withdrawalPaused.map fun b => BitVec.ofNat 8 b.toNat).getD v.withdrawalPaused }

end Vault

namespace World

def vaultUpdate (w : World) (authority : Signer) (args : VaultUpdateArgs) : Result World := do
  w.vault.validateAuthority authority.key
  pure { w with vault := ← w.vault.update args w.clock }

def vaultPause (w : World) (guardian : Signer) : Result World := do
  w.config.validateGuardian guardian.key
  pure { w with vault := w.vault.pause }

/-- The initialisation of another vault, of which this world only sees the config. -/
def otherVaultInitialize (w : World) (authority : Signer) (args : VaultInitializeArgs)
    (mintExtensions : Result Unit) : Result World := do
  let (config, _) ←
    vaultInitialize w.config w.managers authority.key args mintExtensions w.clock
  pure { w with config }

def configUpdate (w : World) (admin : Signer) (args : ConfigUpdateArgs) : Result World := do
  w.config.validateAdmin admin.key
  pure { w with config := ← w.config.update args }

def configPause (w : World) (guardian : Signer) : Result World := do
  w.config.validateGuardian guardian.key
  pure { w with config := w.config.pause }

def adminAccept (w : World) (pendingAdmin : Signer) : Result World := do
  pure { w with config := ← w.config.acceptAdmin pendingAdmin.key }

def configAddManager (w : World) (admin : Signer) (authority : Pubkey) : Result World := do
  allocate (authority ∈ w.managers)
  w.config.validateAdmin admin.key
  pure { w with managers := insert authority w.managers }

def configRemoveManager (w : World) (admin : Signer) (authority : Pubkey) : Result World := do
  load (if authority ∈ w.managers then some () else none)
  w.config.validateAdmin admin.key
  pure { w with managers := w.managers.erase authority }

/-- What `jupiter_initialize_strategy`, `phoenix_initialize_strategy` and
`meteora_dlmm_initialize_position` share. -/
def initializeStrategy (w : World) (authority : Signer) (strategyType : StrategyType)
    (checks : Result Unit) : Result World := do
  allocate (w.strategies.lookup strategyType.protocolAccount).isSome
  w.config.isProtocolOperational
  w.vault.validateAuthority authority.key
  w.vault.isVaultOperational
  checks
  let strategy := Strategy.new w.key w.vault.nextStrategyId w.clock strategyType
  let vault ← w.vault.incrementStrategyId
  let vault ← vault.incrementOpenStrategies
  pure { w with
    vault
    strategies := w.strategies.insert strategyType.protocolAccount strategy }

def vaultCloseStrategy (w : World) (authority : Signer) (protocolAccount : Pubkey)
    (checks : Result Unit) : Result World := do
  let strategy ← load (w.strategies.lookup protocolAccount)
  w.config.isProtocolWithdrawable
  w.vault.validateAuthority authority.key
  w.vault.isVaultWithdrawable
  validate (strategy.vault = w.key) .invalidStrategy
  let vault ← w.vault.decrementOpenStrategies
  checks
  pure { w with vault, strategies := w.strategies.erase protocolAccount }

end World

end HedgeVault
