import HedgeVault.Events
import HedgeVault.State.VaultSpec

/-!
# Reading the log

What somebody who sees only the log can know of a vault. A `Mirror` is a copy of everything
the program keeps but token balances and the lamports set aside for payout accounts: config,
managers, the vault record as a whole, the open requests and the strategy records. `apply`
brings it up to date with one record of the log.

`Admits` is the audit of a record against the mirror: that the signer holds the role the
event needs, that statuses and pauses allow it, that amounts are those of the open request
or the accrued fees, and that shares and payouts are those of the recorded price.
-/

namespace HedgeVault

open Lib

def DepositRequest.withoutRent (r : DepositRequest) : DepositRequest := { r with rentEscrow := 0 }

def WithdrawalRequest.withoutRent (r : WithdrawalRequest) : WithdrawalRequest :=
  { r with rentEscrow := 0 }

@[ext]
structure Mirror where
  key : Pubkey
  config : Config
  managers : Finset Pubkey
  vault : Vault
  deposits : Pubkey → Option DepositRequest
  withdrawals : Pubkey → Option WithdrawalRequest
  strategies : Finmap fun _ : Pubkey => Strategy

/-- What a registry shows of its entries. -/
def shown {κ ρ τ : Type} [DecidableEq κ] (f : ρ → τ) (m : Finmap fun _ : κ => ρ) (k : κ) :
    Option τ :=
  (m.lookup k).map f

section

variable {κ ρ τ : Type} [DecidableEq κ] (f : ρ → τ) (m : Finmap fun _ : κ => ρ) (k : κ)

theorem shown_insert (r : ρ) :
    shown f (m.insert k r) = Function.update (shown f m) k (some (f r)) := by
  funext l
  unfold shown
  by_cases hl : l = k
  · rw [hl, Finmap.lookup_insert, Function.update_self]; rfl
  · rw [Finmap.lookup_insert_of_ne _ hl, Function.update_of_ne hl]

theorem shown_erase : shown f (m.erase k) = Function.update (shown f m) k none := by
  funext l
  unfold shown
  by_cases hl : l = k
  · rw [hl, Finmap.lookup_erase, Function.update_self]; rfl
  · rw [Finmap.lookup_erase_ne hl, Function.update_of_ne hl]

end

/-- The mirror that shows the world `w`. -/
def World.mirror (w : World) : Mirror where
  key := w.key
  config := w.config
  managers := w.managers
  vault := w.vault
  deposits := shown (·.withoutRent) w.depositRequests
  withdrawals := shown (·.withoutRent) w.withdrawalRequests
  strategies := w.strategies

/-! ## Keeping up -/

def ConfigUpdated.on (e : ConfigUpdated) (c : Config) : Config :=
  { c with
    admin := e.admin
    navUpdater := e.navUpdater
    treasuryAuthority := e.treasuryAuthority
    guardian := e.guardian
    platformPerformanceFeeBps := e.platformPerformanceFeeBps
    platformManagementFeeBps := e.platformManagementFeeBps
    maxNavDeviationBps := e.maxNavDeviationBps
    maxEpochOutflowBps := e.maxEpochOutflowBps
    maxSlippageBps := e.maxSlippageBps
    status := e.status }

def VaultUpdated.on (e : VaultUpdated) (v : Vault) : Vault :=
  { v with
    performanceFeeBps := e.performanceFeeBps
    managementFeeBps := e.managementFeeBps
    pendingPerformanceFeeBps := e.pendingPerformanceFeeBps
    pendingManagementFeeBps := e.pendingManagementFeeBps
    feeEffectiveTs := e.feeEffectiveTs
    depositCap := e.depositCap
    minDeposit := e.minDeposit
    minWithdrawalShares := e.minWithdrawalShares
    status := e.status
    depositPaused := BitVec.ofNat 8 e.depositPaused.toNat
    withdrawalPaused := BitVec.ofNat 8 e.withdrawalPaused.toNat }

/-- The event does not say whether a pending fee went live; the time of the block does. -/
def NavUpdated.on (e : NavUpdated) (v : Vault) (time : I64) : Vault :=
  { v.applyPendingFees time with
    totalAssets := e.totalAssets
    navPerShare := e.navPerShare
    highWaterMark := e.highWaterMark
    navEpoch := e.epoch
    lastNavTs := time
    unclaimedManagerFeeShares := v.unclaimedManagerFeeShares + e.managerFeeShares
    unclaimedPlatformFeeShares := v.unclaimedPlatformFeeShares + e.platformFeeShares
    epochOutflow := 0 }

namespace Mirror

variable (m : Mirror)

/-- A request keeps the time it was opened at. -/
def depositRequested (e : DepositRequested) (time : I64) : Mirror :=
  { m with
    vault := { m.vault with pendingDeposits := m.vault.pendingDeposits + e.amount }
    deposits := Function.update m.deposits e.authority (some {
      authority := e.authority
      vault := e.vault
      amount := e.pendingAmount
      epoch := e.epoch
      createdTs := (m.deposits e.authority).elim time (·.createdTs)
      rentEscrow := 0 }) }

/-- A cancellation or a rejection. -/
def depositReturned (authority : Pubkey) (amount : U64) : Mirror :=
  { m with
    vault := { m.vault with pendingDeposits := m.vault.pendingDeposits - amount }
    deposits := Function.update m.deposits authority none }

def depositResolved (e : DepositResolved) : Mirror :=
  { m with
    vault := { m.vault with
      pendingDeposits := m.vault.pendingDeposits - e.amount
      totalAssets := m.vault.totalAssets + e.amount }
    deposits := Function.update m.deposits e.authority none }

def withdrawalRequested (e : WithdrawalRequested) (time : I64) : Mirror :=
  { m with
    vault := { m.vault with
      pendingWithdrawalShares := m.vault.pendingWithdrawalShares + e.shares }
    withdrawals := Function.update m.withdrawals e.authority (some {
      authority := e.authority
      vault := e.vault
      shares := e.pendingShares
      epoch := e.epoch
      createdTs := (m.withdrawals e.authority).elim time (·.createdTs)
      rentEscrow := 0 }) }

def withdrawalReturned (authority : Pubkey) (shares : U64) : Mirror :=
  { m with
    vault := { m.vault with
      pendingWithdrawalShares := m.vault.pendingWithdrawalShares - shares }
    withdrawals := Function.update m.withdrawals authority none }

def withdrawalResolved (e : WithdrawalResolved) : Mirror :=
  { m with
    vault := { m.vault with
      pendingWithdrawalShares := m.vault.pendingWithdrawalShares - e.shares
      epochOutflow := m.vault.epochOutflow + e.amount
      totalAssets := m.vault.totalAssets - e.amount }
    withdrawals := Function.update m.withdrawals e.authority none }

def strategyInitialized (e : StrategyInitialized) : Mirror :=
  { m with
    vault := { m.vault with
      nextStrategyId := e.id + 1
      openStrategyCount := m.vault.openStrategyCount + 1 }
    strategies := m.strategies.insert e.strategyType.protocolAccount
      (Strategy.new e.vault e.id e.createdTs e.strategyType) }

def strategyClosed (e : StrategyClosed) : Mirror :=
  { m with
    vault := { m.vault with openStrategyCount := m.vault.openStrategyCount - 1 }
    strategies := m.strategies.erase e.strategyType.protocolAccount }

/-- The record has the time of its last action. -/
def acted (a : StrategyAction) (time : I64) : Mirror :=
  { m with
    strategies := match m.strategies.lookup a.strategy with
      | some s => m.strategies.insert a.strategy { s with lastActionTs := time }
      | none => m.strategies }

def apply (l : LogRecord) : Mirror :=
  match l.event with
  | .configUpdated e => { m with config := e.on m.config }
  | .adminNominated _ pendingAdmin => { m with config := m.config.nominateAdmin pendingAdmin }
  | .adminAccepted _ admin => { m with config := { m.config with admin, pendingAdmin := Pubkey.default } }
  | .protocolPaused _ => { m with config := m.config.pause }
  | .managerAdded authority => { m with managers := insert authority m.managers }
  | .managerRemoved authority => { m with managers := m.managers.erase authority }
  | .vaultInitialized id _ => { m with config := { m.config with nextVaultId := id + 1 } }
  | .vaultUpdated e => { m with vault := e.on m.vault }
  | .vaultPaused _ _ => { m with vault := m.vault.pause }
  | .navUpdated e => { m with vault := e.on m.vault l.time }
  | .managerFeeClaimed _ _ shares =>
    { m with vault := { m.vault with
        unclaimedManagerFeeShares := m.vault.unclaimedManagerFeeShares - shares } }
  | .platformFeeClaimed _ _ shares =>
    { m with vault := { m.vault with
        unclaimedPlatformFeeShares := m.vault.unclaimedPlatformFeeShares - shares } }
  | .depositRequested e => m.depositRequested e l.time
  | .depositCancelled _ authority amount => m.depositReturned authority amount
  | .depositResolved e => m.depositResolved e
  | .depositRejected _ authority amount => m.depositReturned authority amount
  | .withdrawalRequested e => m.withdrawalRequested e l.time
  | .withdrawalCancelled _ authority shares => m.withdrawalReturned authority shares
  | .withdrawalResolved e => m.withdrawalResolved e
  | .withdrawalRejected _ authority shares => m.withdrawalReturned authority shares
  | .strategyInitialized e => m.strategyInitialized e
  | .strategyClosed e => m.strategyClosed e
  | .jupiterSwapped e => m.acted e.toStrategyAction l.time
  | .meteoraDlmmLiquidityAdded e => m.acted e.toStrategyAction l.time
  | .meteoraDlmmLiquidityRemoved e => m.acted e.toStrategyAction l.time
  | .meteoraDlmmFeeClaimed e => m.acted e.toStrategyAction l.time
  | .phoenixFundsDeposited e => m.acted e.toStrategyAction l.time
  | .phoenixFundsWithdrawn e => m.acted e.toStrategyAction l.time
  | .phoenixCanonicalUnwrapped e => m.acted e.toStrategyAction l.time
  | .phoenixOrderPlaced e => m.acted e.toStrategyAction l.time
  | .phoenixOrdersCancelled e => m.acted e.toStrategyAction l.time

/-! ## The audit -/

/-- New money may come in and strategies may be opened. -/
def Operational : Prop := m.config.status = .normal ∧ m.vault.status = .normal

/-- Money may leave and strategies may be closed. -/
def Withdrawable : Prop := m.config.status ≠ .paused ∧ m.vault.status ≠ .paused

/-- What `u` has in a deposit request. -/
def depositOf (u : Pubkey) : Nat := (m.deposits u).elim 0 (·.amount.toNat)

/-- What `u` has in a withdrawal request. -/
def withdrawalOf (u : Pubkey) : Nat := (m.withdrawals u).elim 0 (·.shares.toNat)

variable (l : LogRecord)

structure AdmitsVaultUpdate (e : VaultUpdated) : Prop where
  signer : l.signer = m.vault.authority
  vault : e.vault = m.key
  /-- A fee never rises at once. -/
  performanceFee : e.performanceFeeBps.toNat ≤ m.vault.performanceFeeBps.toNat
  managementFee : e.managementFeeBps.toNat ≤ m.vault.managementFeeBps.toNat
  /-- The pending fees are those from before, none, or new and delayed. -/
  pending : (e.pendingPerformanceFeeBps = m.vault.pendingPerformanceFeeBps ∧
      e.pendingManagementFeeBps = m.vault.pendingManagementFeeBps ∧
      e.feeEffectiveTs = m.vault.feeEffectiveTs) ∨ e.feeEffectiveTs = 0 ∨
    e.feeEffectiveTs.val = l.time.val + FEE_INCREASE_DELAY.val

structure AdmitsNavUpdate (e : NavUpdated) : Prop where
  signer : l.signer = if e.overridden then m.config.admin else m.config.navUpdater
  vault : e.vault = m.key
  epoch : e.epoch = Vault.epoch l.time
  later : m.vault.navEpoch.toNat < e.epoch.toNat
  mark : e.highWaterMark.toNat = max m.vault.highWaterMark.toNat e.navPerShare.toNat
  /-- The updater stays within the deviation limit, or posts on an empty vault. -/
  deviation : e.overridden = true ∨ e.navPerShare = NAV_PRECISION ∨
    (e.navPerShare.toNat ≤ m.vault.navPerShare.toNat +
        m.vault.navPerShare.toNat * m.config.maxNavDeviationBps.toNat / 10000 ∧
      m.vault.navPerShare.toNat ≤ e.navPerShare.toNat +
        m.vault.navPerShare.toNat * m.config.maxNavDeviationBps.toNat / 10000)
  managerFee : m.vault.unclaimedManagerFeeShares.toNat + e.managerFeeShares.toNat < 2 ^ 64
  platformFee : m.vault.unclaimedPlatformFeeShares.toNat + e.platformFeeShares.toNat < 2 ^ 64

structure AdmitsDeposit (e : DepositRequested) : Prop where
  signer : l.signer = e.authority
  vault : e.vault = m.key
  operational : m.Operational
  notPaused : m.vault.depositPaused = 0
  pos : 0 < e.amount.toNat
  minimum : m.vault.minDeposit.toNat ≤ e.amount.toNat
  priced : 0 < m.vault.navPerShare.toNat
  cap : m.vault.totalAssets.toNat + m.vault.pendingDeposits.toNat + e.amount.toNat ≤
    m.vault.depositCap.toNat
  epoch : e.epoch = Vault.epoch l.time
  pending : e.pendingAmount.toNat = m.depositOf e.authority + e.amount.toNat
  sameEpoch : ∀ r, m.deposits e.authority = some r → r.epoch = e.epoch

structure AdmitsDepositResolve (e : DepositResolved) : Prop where
  vault : e.vault = m.key
  operational : m.Operational
  notPaused : m.vault.depositPaused = 0
  request : ∃ r, m.deposits e.authority = some r ∧ r.amount = e.amount ∧
    r.epoch.toNat < m.vault.navEpoch.toNat
  price : e.navPerShare = m.vault.navPerShare
  shares : e.shares.toNat = sharesFor NAV_SCALE e.amount.toNat m.vault.navPerShare.toNat
  pos : 0 < e.shares.toNat
  pending : e.amount.toNat ≤ m.vault.pendingDeposits.toNat
  assets : m.vault.totalAssets.toNat + e.amount.toNat < 2 ^ 64

structure AdmitsWithdrawal (e : WithdrawalRequested) : Prop where
  signer : l.signer = e.authority
  vault : e.vault = m.key
  withdrawable : m.Withdrawable
  notPaused : m.vault.withdrawalPaused = 0
  pos : 0 < e.shares.toNat
  room : m.vault.pendingWithdrawalShares.toNat + e.shares.toNat < 2 ^ 64
  epoch : e.epoch = Vault.epoch l.time
  pending : e.pendingShares.toNat = m.withdrawalOf e.authority + e.shares.toNat
  sameEpoch : ∀ r, m.withdrawals e.authority = some r → r.epoch = e.epoch

structure AdmitsWithdrawalResolve (e : WithdrawalResolved) : Prop where
  vault : e.vault = m.key
  withdrawable : m.Withdrawable
  notPaused : m.vault.withdrawalPaused = 0
  request : ∃ r, m.withdrawals e.authority = some r ∧ r.shares = e.shares ∧
    r.epoch.toNat < m.vault.navEpoch.toNat
  price : e.navPerShare = m.vault.navPerShare
  amount : e.amount.toNat = assetsFor NAV_SCALE e.shares.toNat m.vault.navPerShare.toNat
  pending : e.shares.toNat ≤ m.vault.pendingWithdrawalShares.toNat
  assets : e.amount.toNat ≤ m.vault.totalAssets.toNat
  outflow : m.vault.epochOutflow.toNat + e.amount.toNat < 2 ^ 64

/-- The request of `u` with `amount` in it is open, and `p` holds of it. -/
def HasDeposit (u : Pubkey) (amount : U64) (p : DepositRequest → Prop) : Prop :=
  ∃ r, m.deposits u = some r ∧ r.amount = amount ∧ amount.toNat ≤ m.vault.pendingDeposits.toNat ∧ p r

def HasWithdrawal (u : Pubkey) (shares : U64) (p : WithdrawalRequest → Prop) : Prop :=
  ∃ r, m.withdrawals u = some r ∧ r.shares = shares ∧
    shares.toNat ≤ m.vault.pendingWithdrawalShares.toNat ∧ p r

structure AdmitsStrategy (e : StrategyInitialized) : Prop where
  signer : l.signer = m.vault.authority
  vault : e.vault = m.key
  operational : m.Operational
  id : e.id = m.vault.nextStrategyId
  createdTs : e.createdTs = l.time
  new : m.strategies.lookup e.strategyType.protocolAccount = none

structure AdmitsStrategyClose (e : StrategyClosed) : Prop where
  signer : l.signer = m.vault.authority
  vault : e.vault = m.key
  withdrawable : m.Withdrawable
  closedTs : e.closedTs = l.time
  record : ∃ s, m.strategies.lookup e.strategyType.protocolAccount = some s ∧ s.vault = m.key ∧
    s.id = e.id ∧ s.strategyType = e.strategyType ∧ s.createdTs = e.createdTs

/-- Liquidity may leave DLMM: this waits while the protocol is reduce-only. -/
def Removable : Prop := m.config.status = .normal ∧ m.vault.status ≠ .paused

/-- What every event on an open strategy is checked for, where the handler needs the statuses of
`gate` and a record of the types `fits`. -/
structure AdmitsAction (a : StrategyAction) (gate : Prop) (fits : StrategyType → Prop) : Prop where
  signer : l.signer = m.vault.authority
  vault : a.vault = m.key
  gate : gate
  record : ∃ s, m.strategies.lookup a.strategy = some s ∧ s.vault = m.key ∧ s.id = a.strategyId ∧
    fits s.strategyType

/-- One side of a swap is the target of the record. -/
structure AdmitsSwap (e : JupiterSwapEvent) : Prop where
  action : m.AdmitsAction l e.toStrategyAction m.Operational (· = .jupiterSwap e.strategy)
  target : e.sourceMint = e.strategy ∨ e.destinationMint = e.strategy
  mints : e.sourceMint ≠ e.destinationMint

/-- The treasury gets a tenth of what was claimed, and the vault keeps the rest. -/
structure AdmitsFeeClaim (e : MeteoraDlmmFeeClaimed) : Prop where
  action : m.AdmitsAction l e.toStrategyAction m.Removable (· = .meteoraDlmm e.position)
  treasuryX : e.treasuryAmountX.toNat = e.amountX.toNat / 10
  treasuryY : e.treasuryAmountY.toNat = e.amountY.toNat / 10
  retainedX : e.vaultRetainedX.toNat + e.treasuryAmountX.toNat = e.amountX.toNat
  retainedY : e.vaultRetainedY.toNat + e.treasuryAmountY.toNat = e.amountY.toNat

/-- Phoenix pays all that was asked for or queues all of it. -/
structure AdmitsFundsWithdrawal (e : PhoenixFundsWithdrawn) : Prop where
  action : m.AdmitsAction l e.toStrategyAction m.Withdrawable (· = .phoenixPerp e.traderAccount)
  pos : 0 < e.requested.toNat
  received : e.received = if e.queued then 0 else e.requested

/-- Only a market order can be an exit. -/
structure AdmitsOrder (e : PhoenixOrderPlaced) : Prop where
  action : m.AdmitsAction l e.toStrategyAction
    (if e.kind = .market ∧ e.reduceOnly = true then m.Withdrawable else m.Operational)
    (· = .phoenixPerp e.strategy)
  priced : e.kind ≠ .market → e.priceInTicks.isSome = true

/-- The audit of a record against the mirror. -/
def Admits : Prop :=
  match l.event with
  | .configUpdated e => l.signer = m.config.admin ∧ e.admin = m.config.admin
  | .adminNominated admin pendingAdmin =>
    l.signer = m.config.admin ∧ admin = m.config.admin ∧ pendingAdmin ≠ Pubkey.default
  | .adminAccepted previousAdmin admin =>
    l.signer = admin ∧ previousAdmin = m.config.admin ∧ admin = m.config.pendingAdmin ∧
      admin ≠ Pubkey.default
  | .protocolPaused guardian => l.signer = guardian ∧ guardian = m.config.guardian
  | .managerAdded authority => l.signer = m.config.admin ∧ authority ∉ m.managers
  | .managerRemoved authority => l.signer = m.config.admin ∧ authority ∈ m.managers
  | .vaultInitialized id authority =>
    l.signer = authority ∧ authority ∈ m.managers ∧ m.config.status = .normal ∧
      id = m.config.nextVaultId
  | .vaultUpdated e => m.AdmitsVaultUpdate l e
  | .vaultPaused vault guardian =>
    l.signer = guardian ∧ guardian = m.config.guardian ∧ vault = m.key
  | .navUpdated e => m.AdmitsNavUpdate l e
  | .managerFeeClaimed vault authority shares =>
    l.signer = authority ∧ authority = m.vault.authority ∧ vault = m.key ∧
      shares = m.vault.unclaimedManagerFeeShares ∧ 0 < shares.toNat
  | .platformFeeClaimed vault authority shares =>
    l.signer = authority ∧ authority = m.config.treasuryAuthority ∧ vault = m.key ∧
      shares = m.vault.unclaimedPlatformFeeShares ∧ 0 < shares.toNat
  | .depositRequested e => m.AdmitsDeposit l e
  | .depositCancelled vault authority amount =>
    l.signer = authority ∧ vault = m.key ∧ m.HasDeposit authority amount fun r =>
      m.vault.navPerShare = 0 ∨ m.vault.navEpoch.toNat ≤ r.epoch.toNat
  | .depositResolved e => m.AdmitsDepositResolve e
  | .depositRejected vault authority amount =>
    l.signer = m.config.admin ∧ vault = m.key ∧ m.HasDeposit authority amount fun _ => True
  | .withdrawalRequested e => m.AdmitsWithdrawal l e
  | .withdrawalCancelled vault authority shares =>
    l.signer = authority ∧ vault = m.key ∧ m.HasWithdrawal authority shares fun r =>
      m.vault.navEpoch.toNat ≤ r.epoch.toNat
  | .withdrawalResolved e => m.AdmitsWithdrawalResolve e
  | .withdrawalRejected vault authority shares =>
    l.signer = m.config.admin ∧ vault = m.key ∧ m.HasWithdrawal authority shares fun _ => True
  | .strategyInitialized e => m.AdmitsStrategy l e
  | .strategyClosed e => m.AdmitsStrategyClose l e
  | .jupiterSwapped e => m.AdmitsSwap l e
  | .meteoraDlmmLiquidityAdded e =>
    m.AdmitsAction l e.toStrategyAction m.Operational (· = .meteoraDlmm e.position)
  | .meteoraDlmmLiquidityRemoved e =>
    m.AdmitsAction l e.toStrategyAction m.Removable (· = .meteoraDlmm e.position)
  | .meteoraDlmmFeeClaimed e => m.AdmitsFeeClaim l e
  | .phoenixFundsDeposited e =>
    m.AdmitsAction l e.toStrategyAction m.Operational (· = .phoenixPerp e.traderAccount) ∧
      0 < e.amount.toNat
  | .phoenixFundsWithdrawn e => m.AdmitsFundsWithdrawal l e
  | .phoenixCanonicalUnwrapped e =>
    m.AdmitsAction l e.toStrategyAction m.Withdrawable (· = .phoenixPerp e.strategy) ∧
      0 < e.amount.toNat
  | .phoenixOrderPlaced e => m.AdmitsOrder l e
  | .phoenixOrdersCancelled e =>
    m.AdmitsAction l e.toStrategyAction m.Withdrawable (· = .phoenixPerp e.strategy)

end Mirror

end HedgeVault
