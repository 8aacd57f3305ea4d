import HedgeVault.State.Config

/-!
# The vault account

The state and the methods of `Vault`. A method that takes `&mut self` returns the
new vault beside its result; where the source fails after a partial write, the
instruction reverts, so the failed case has no state. `updateNav` is the NAV
post: `accrueFees` is its branch for a nonzero supply.

The name of the vault, its mints, its bump and the reserved bytes are left out:
the accounts an instruction passes are the vault's own here.
-/

namespace HedgeVault

inductive VaultStatus where
  | normal
  | paused
  | reduceOnly
  deriving DecidableEq, Repr

structure NewVaultArgs where
  id : U64
  authority : Pubkey
  depositCap : U64
  minDeposit : U64
  minWithdrawalShares : U64
  performanceFeeBps : U16
  managementFeeBps : U16
  currentTs : I64

structure NavFeeShares where
  managerFeeShares : U64
  platformFeeShares : U64

structure NavUpdateArgs where
  /-- Total value of vault holdings across all strategies, in deposit mint. -/
  totalAssets : U64
  /-- Current supply of the share mint, excluding unclaimed fee shares. -/
  shareSupply : U64
  platformPerformanceFeeBps : U16
  platformManagementFeeBps : U16
  /-- Max NAV change allowed for this update, `none` skips the check. -/
  maxNavDeviationBps : Option U16
  now : I64

@[ext]
structure Vault where
  id : U64
  authority : Pubkey
  /-- Max total assets accepted including pending deposits. -/
  depositCap : U64
  /-- Last reported value of the holdings, adjusted on request resolution. -/
  totalAssets : U64
  /-- Last recorded value of one share, scaled by `NAV_PRECISION`. -/
  navPerShare : U64
  /-- All-time highest recorded NAV per share after fees. -/
  highWaterMark : U64
  /-- Epoch of the last NAV update. -/
  navEpoch : U64
  lastNavTs : I64
  /-- Total deposit mint held in deposit escrow awaiting resolution. -/
  pendingDeposits : U64
  /-- Total shares held in share escrow awaiting resolution. -/
  pendingWithdrawalShares : U64
  /-- Fee shares accrued to the vault manager, minted on claim. -/
  unclaimedManagerFeeShares : U64
  /-- Fee shares accrued to the platform, minted on claim. -/
  unclaimedPlatformFeeShares : U64
  /-- Deposit mint paid out to withdrawals since the last NAV update. -/
  epochOutflow : U64
  nextStrategyId : U32
  performanceFeeBps : U16
  managementFeeBps : U16
  status : VaultStatus
  depositPaused : U8
  withdrawalPaused : U8
  minDeposit : U64
  minWithdrawalShares : U64
  /-- Timestamp from which the pending fees apply, zero when none is pending. -/
  feeEffectiveTs : I64
  pendingPerformanceFeeBps : U16
  pendingManagementFeeBps : U16
  openStrategyCount : U32

/-- `a.safe_mul(b)?.safe_div(c)?`. -/
def mulDiv (a b c : U128) : Result U128 := do
  safeDiv (← safeMul a b) c

namespace Vault

def new (args : NewVaultArgs) : Vault where
  id := args.id
  authority := args.authority
  depositCap := args.depositCap
  totalAssets := 0
  navPerShare := NAV_PRECISION
  highWaterMark := NAV_PRECISION
  navEpoch := 0
  lastNavTs := args.currentTs
  pendingDeposits := 0
  pendingWithdrawalShares := 0
  unclaimedManagerFeeShares := 0
  unclaimedPlatformFeeShares := 0
  epochOutflow := 0
  nextStrategyId := 0
  performanceFeeBps := args.performanceFeeBps
  managementFeeBps := args.managementFeeBps
  status := .normal
  depositPaused := 0
  withdrawalPaused := 0
  minDeposit := args.minDeposit
  minWithdrawalShares := args.minWithdrawalShares
  feeEffectiveTs := 0
  pendingPerformanceFeeBps := 0
  pendingManagementFeeBps := 0
  openStrategyCount := 0

/-- `(now / EPOCH_DURATION) as u64`. -/
def epoch (now : I64) : U64 := BitVec.ofInt 64 (now.val.tdiv EPOCH_DURATION)

def validateAuthority (v : Vault) (authority : Pubkey) : Result Unit :=
  validate (authority = v.authority) .invalidVaultAuthority

def incrementStrategyId (v : Vault) : Result Vault := do
  pure { v with nextStrategyId := ← safeAdd v.nextStrategyId 1 }

def incrementOpenStrategies (v : Vault) : Result Vault := do
  pure { v with openStrategyCount := ← safeAdd v.openStrategyCount 1 }

def decrementOpenStrategies (v : Vault) : Result Vault := do
  pure { v with openStrategyCount := ← safeSub v.openStrategyCount 1 }

def pause (v : Vault) : Vault := { v with status := .paused }

def isVaultOperational (v : Vault) : Result Unit :=
  validate (v.status = .normal) .vaultNotOperational

def isVaultWithdrawable (v : Vault) : Result Unit :=
  validate (v.status ≠ .paused) .vaultNotWithdrawable

def isDepositPaused (v : Vault) : Prop := v.depositPaused ≠ 0

def isWithdrawalPaused (v : Vault) : Prop := v.withdrawalPaused ≠ 0

instance (v : Vault) : Decidable v.isDepositPaused := inferInstanceAs (Decidable (_ ≠ _))

instance (v : Vault) : Decidable v.isWithdrawalPaused := inferInstanceAs (Decidable (_ ≠ _))

def validateDepositNotPaused (v : Vault) : Result Unit :=
  validate (¬ v.isDepositPaused) .vaultDepositPaused

def validateWithdrawalNotPaused (v : Vault) : Result Unit :=
  validate (¬ v.isWithdrawalPaused) .vaultWithdrawalPaused

/-! ## NAV -/

def managementFee (totalAssets : U128) (feeBps : U16) (elapsed : U128) : Result U128 := do
  let charged ← safeMul totalAssets (asU128 feeBps)
  mulDiv charged elapsed (← safeMul SECONDS_PER_YEAR (asU128 MAX_BPS))

def performanceFee (eligibleProfit : U128) (feeBps : U16) : Result U128 :=
  mulDiv eligibleProfit (asU128 feeBps) (asU128 MAX_BPS)

def absDiff (a b : U64) : U64 := if a < b then b - a else a - b

def validateNavDeviation (v : Vault) (navPerShare : U64) (maxNavDeviationBps : U16) :
    Result Unit := do
  let deviation := asU128 (absDiff navPerShare v.navPerShare)
  let maxDeviation ← mulDiv (asU128 v.navPerShare) (asU128 maxNavDeviationBps) (asU128 MAX_BPS)
  validate (deviation ≤ maxDeviation) .navDeviationExceeded

/-- `if let Some(bps) = max_nav_deviation_bps { self.validate_nav_deviation(..)?; }`. -/
def checkNavDeviation (v : Vault) (navPerShare : U64) : Option U16 → Result Unit
  | some maxNavDeviationBps => v.validateNavDeviation navPerShare maxNavDeviationBps
  | none => pure ()

def eligibleProfit (v : Vault) (grossNav supply : U128) : Result U128 :=
  if grossNav > asU128 v.highWaterMark then do
    mulDiv (← safeSub grossNav (asU128 v.highWaterMark)) supply (asU128 NAV_PRECISION)
  else pure 0

/-- Management and performance fee of one recipient. -/
def recipientFee (totalAssets elapsed eligibleProfit : U128) (managementFeeBps performanceFeeBps : U16) :
    Result U128 := do
  let management ← managementFee totalAssets managementFeeBps elapsed
  safeAdd management (← performanceFee eligibleProfit performanceFeeBps)

/-- Fee shares are minted such that they are worth the fee at the new NAV. -/
def feeShares (managerFee platformFee totalFee supply netAssets : U128) : Result (U128 × U128) :=
  if totalFee > 0 then do
    let managerFeeShares ← mulDiv managerFee supply netAssets
    pure (managerFeeShares, ← mulDiv platformFee supply netAssets)
  else pure (0, 0)

/-- The branch of `update_nav` for a nonzero supply. -/
def accrueFees (v : Vault) (args : NavUpdateArgs) (supply : U128) :
    Result (Vault × NavFeeShares) := do
  let totalAssets := asU128 args.totalAssets
  let elapsed := (args.now.saturatingSub v.lastNavTs).asU128
  let grossNav ← mulDiv totalAssets (asU128 NAV_PRECISION) supply
  let eligibleProfit ← v.eligibleProfit grossNav supply
  let managerFee ← recipientFee totalAssets elapsed eligibleProfit
    v.managementFeeBps v.performanceFeeBps
  let platformFee ← recipientFee totalAssets elapsed eligibleProfit
    args.platformManagementFeeBps args.platformPerformanceFeeBps
  let totalFee ← safeAdd managerFee platformFee
  validate (totalFee = 0 ∨ totalFee < totalAssets) .feeExceedsTotalAssets
  let netAssets ← safeSub totalAssets totalFee
  let (managerFeeShares, platformFeeShares) ←
    feeShares managerFee platformFee totalFee supply netAssets
  let newSupply ← safeAdd (← safeAdd supply managerFeeShares) platformFeeShares
  let navPerShare ← safeToU64 (← mulDiv totalAssets (asU128 NAV_PRECISION) newSupply)
  v.checkNavDeviation navPerShare args.maxNavDeviationBps
  let managerFeeShares ← safeToU64 managerFeeShares
  let platformFeeShares ← safeToU64 platformFeeShares
  let unclaimedManagerFeeShares ← safeAdd v.unclaimedManagerFeeShares managerFeeShares
  let unclaimedPlatformFeeShares ← safeAdd v.unclaimedPlatformFeeShares platformFeeShares
  pure ({ v with
    unclaimedManagerFeeShares, unclaimedPlatformFeeShares, navPerShare
    highWaterMark := if navPerShare > v.highWaterMark then navPerShare else v.highWaterMark },
    ⟨managerFeeShares, platformFeeShares⟩)

/-- Fee settlement of `update_nav`: without supply there is nobody to charge. -/
def settleFees (v : Vault) (args : NavUpdateArgs) (supply : U128) :
    Result (Vault × NavFeeShares) :=
  if supply = 0 then pure ({ v with navPerShare := NAV_PRECISION }, ⟨0, 0⟩)
  else v.accrueFees args supply

def applyPendingFees (v : Vault) (now : I64) : Vault :=
  if v.feeEffectiveTs ≠ 0 ∧ now.val ≥ v.feeEffectiveTs.val then
    { v with
      performanceFeeBps := v.pendingPerformanceFeeBps
      managementFeeBps := v.pendingManagementFeeBps
      pendingPerformanceFeeBps := 0
      pendingManagementFeeBps := 0
      feeEffectiveTs := 0 }
  else v

/-- Settles fees as share dilution and records the new NAV. Callable once per epoch. -/
def updateNav (v : Vault) (args : NavUpdateArgs) : Result (Vault × NavFeeShares) := do
  let epoch := epoch args.now
  validate (epoch > v.navEpoch) .navAlreadyUpdatedThisEpoch
  -- unclaimed fee shares count as supply, so claiming later does not move the NAV
  let supply ← safeAdd (← safeAdd args.shareSupply v.unclaimedManagerFeeShares)
    v.unclaimedPlatformFeeShares
  let (v, navUpdate) ← v.settleFees args (asU128 supply)
  -- after fee accrual, so the period that just ended is charged at the old rate
  let v := v.applyPendingFees args.now
  pure ({ v with
    totalAssets := args.totalAssets
    navEpoch := epoch
    lastNavTs := args.now
    epochOutflow := 0 }, navUpdate)

/-! ## Requests -/

def requestDeposit (v : Vault) (amount : U64) : Result Vault := do
  validate (v.navPerShare > 0) .vaultNavIsZero
  validate (amount ≥ v.minDeposit) .depositBelowMinimum
  let pendingDeposits ← safeAdd v.pendingDeposits amount
  validate ((← safeAdd v.totalAssets pendingDeposits) ≤ v.depositCap) .depositCapReached
  pure { v with pendingDeposits }

def cancelDeposit (v : Vault) (amount : U64) : Result Vault := do
  pure { v with pendingDeposits := ← safeSub v.pendingDeposits amount }

/-- Returns shares to mint for a resolved deposit at the current NAV. -/
def resolveDeposit (v : Vault) (amount : U64) : Result (Vault × U64) := do
  validate (v.navPerShare > 0) .vaultNavIsZero
  let shares ← safeToU64 (← mulDiv (asU128 amount) (asU128 NAV_PRECISION) (asU128 v.navPerShare))
  validate (shares > 0) .zeroSharesMinted
  let pendingDeposits ← safeSub v.pendingDeposits amount
  let totalAssets ← safeAdd v.totalAssets amount
  pure ({ v with pendingDeposits, totalAssets }, shares)

def requestWithdrawal (v : Vault) (shares shareBalance : U64) : Result Vault := do
  -- a holder below the minimum can still exit with their full balance
  validate (shares ≥ v.minWithdrawalShares ∨ shares = shareBalance) .withdrawalBelowMinimum
  pure { v with pendingWithdrawalShares := ← safeAdd v.pendingWithdrawalShares shares }

def cancelWithdrawal (v : Vault) (shares : U64) : Result Vault := do
  pure { v with pendingWithdrawalShares := ← safeSub v.pendingWithdrawalShares shares }

/-- Returns deposit mint amount to transfer for a resolved withdrawal at the current
NAV. The outflow cap is computed but its check is disabled. -/
def resolveWithdrawal (v : Vault) (shares : U64) (maxEpochOutflowBps : U16) :
    Result (Vault × U64) := do
  let pendingWithdrawalShares ← safeSub v.pendingWithdrawalShares shares
  let amount ← safeToU64 (← mulDiv (asU128 shares) (asU128 v.navPerShare) (asU128 NAV_PRECISION))
  let _maxEpochOutflow ← mulDiv (← safeAdd (asU128 v.totalAssets) (asU128 v.epochOutflow))
    (asU128 maxEpochOutflowBps) (asU128 MAX_BPS)
  let epochOutflow ← safeAdd v.epochOutflow amount
  let totalAssets ← safeSub v.totalAssets amount
  pure ({ v with pendingWithdrawalShares, epochOutflow, totalAssets }, amount)

/-! ## Fees -/

/-- An omitted fee keeps its latest requested value. -/
def currentFees (v : Vault) : U16 × U16 :=
  if v.feeEffectiveTs = 0 then (v.performanceFeeBps, v.managementFeeBps)
  else (v.pendingPerformanceFeeBps, v.pendingManagementFeeBps)

/-- Fee decreases apply immediately. If either resulting fee is higher than the live
one, the pair is scheduled. -/
def setFees (v : Vault) (performanceFeeBps managementFeeBps : U16) (now : I64) : Result Vault :=
  if performanceFeeBps ≤ v.performanceFeeBps ∧ managementFeeBps ≤ v.managementFeeBps then
    pure { v with
      performanceFeeBps, managementFeeBps
      pendingPerformanceFeeBps := 0
      pendingManagementFeeBps := 0
      feeEffectiveTs := 0 }
  else do
    pure { v with
      pendingPerformanceFeeBps := performanceFeeBps
      pendingManagementFeeBps := managementFeeBps
      feeEffectiveTs := ← now.safeAdd FEE_INCREASE_DELAY }

def updateFees (v : Vault) (performanceFeeBps managementFeeBps : Option U16) (now : I64) :
    Result Vault := do
  let performanceFeeBps := performanceFeeBps.getD v.currentFees.1
  let managementFeeBps := managementFeeBps.getD v.currentFees.2
  validate (performanceFeeBps ≤ MAX_BPS ∧ managementFeeBps ≤ MAX_BPS) .invalidBasisPoints
  v.setFees performanceFeeBps managementFeeBps now

def claimManagerFee (v : Vault) : Result (Vault × U64) := do
  let shares := v.unclaimedManagerFeeShares
  validate (shares > 0) .noFeeToClaim
  pure ({ v with unclaimedManagerFeeShares := 0 }, shares)

def claimPlatformFee (v : Vault) : Result (Vault × U64) := do
  let shares := v.unclaimedPlatformFeeShares
  validate (shares > 0) .noFeeToClaim
  pure ({ v with unclaimedPlatformFeeShares := 0 }, shares)

end Vault

end HedgeVault
