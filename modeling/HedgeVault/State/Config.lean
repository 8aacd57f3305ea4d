import HedgeVault.Utils.SafeMath

/-!
# The protocol config

The config account and the methods of `Config`; `Config.update` is the body of
`config_update` after its admin check. The layout version and the reserved bytes
are left out.
-/

namespace HedgeVault

inductive ProtocolStatus where
  | normal
  | paused
  | reduceOnly
  deriving DecidableEq, Repr

@[ext]
structure Config where
  admin : Pubkey
  navUpdater : Pubkey
  treasuryAuthority : Pubkey
  guardian : Pubkey
  nextVaultId : U64
  platformPerformanceFeeBps : U16
  platformManagementFeeBps : U16
  /-- Max NAV per share change accepted from the updater in a single update. -/
  maxNavDeviationBps : U16
  maxEpochOutflowBps : U16
  status : ProtocolStatus
  /-- Nominated admin, the default key when there is none. -/
  pendingAdmin : Pubkey
  maxSlippageBps : U16

namespace Config

/-- `max_slippage_bps()`: configs written before the field existed carry zero. -/
def effectiveMaxSlippageBps (c : Config) : U16 :=
  if c.maxSlippageBps = 0 then DEFAULT_MAX_SLIPPAGE_BPS else c.maxSlippageBps

def validateAdmin (c : Config) (admin : Pubkey) : Result Unit :=
  validate (c.admin = admin) .invalidAdmin

def validateNavUpdater (c : Config) (navUpdater : Pubkey) : Result Unit :=
  validate (c.navUpdater = navUpdater) .invalidNavUpdater

def validateTreasuryAuthority (c : Config) (authority : Pubkey) : Result Unit :=
  validate (c.treasuryAuthority = authority) .invalidTreasuryAuthority

def validateGuardian (c : Config) (guardian : Pubkey) : Result Unit :=
  validate (c.guardian = guardian) .invalidGuardian

def nominateAdmin (c : Config) (pendingAdmin : Pubkey) : Config := { c with pendingAdmin }

def acceptAdmin (c : Config) (signer : Pubkey) : Result Config := do
  validate (c.pendingAdmin ≠ Pubkey.default ∧ c.pendingAdmin = signer) .invalidPendingAdmin
  pure { c with admin := signer, pendingAdmin := Pubkey.default }

def pause (c : Config) : Config := { c with status := .paused }

def incrementVaultId (c : Config) : Result Config := do
  pure { c with nextVaultId := ← safeAdd c.nextVaultId 1 }

def isProtocolOperational (c : Config) : Result Unit :=
  validate (c.status = .normal) .protocolNotOperational

def isProtocolWithdrawable (c : Config) : Result Unit :=
  validate (c.status ≠ .paused) .protocolNotWithdrawable

end Config

structure ConfigUpdateArgs where
  pendingAdmin : Option Pubkey
  navUpdater : Option Pubkey
  treasuryAuthority : Option Pubkey
  guardian : Option Pubkey
  platformPerformanceFeeBps : Option U16
  platformManagementFeeBps : Option U16
  maxNavDeviationBps : Option U16
  maxEpochOutflowBps : Option U16
  maxSlippageBps : Option U16
  status : Option ProtocolStatus

/-- `if let Some(x) = o { validate!(p x, e)?; c = set(c, x) }`. -/
def setIfSome {α : Type} (o : Option α) (p : α → Prop) [DecidablePred p] (e : HedgeVaultError)
    (set : Config → α → Config) (c : Config) : Result Config :=
  match o with
  | some x => do validate (p x) e; pure (set c x)
  | none => pure c

/-- The body of `config_update` after the admin check. -/
def Config.update (c : Config) (args : ConfigUpdateArgs) : Result Config := do
  let c ← setIfSome args.pendingAdmin (· ≠ Pubkey.default) .invalidPubkey nominateAdmin c
  let c ← setIfSome args.navUpdater (· ≠ Pubkey.default) .invalidPubkey
    (fun c x => { c with navUpdater := x }) c
  let c ← setIfSome args.treasuryAuthority (· ≠ Pubkey.default) .invalidPubkey
    (fun c x => { c with treasuryAuthority := x }) c
  let c ← setIfSome args.guardian (· ≠ Pubkey.default) .invalidPubkey
    (fun c x => { c with guardian := x }) c
  let c ← setIfSome args.platformPerformanceFeeBps (· ≤ MAX_BPS) .invalidBasisPoints
    (fun c x => { c with platformPerformanceFeeBps := x }) c
  let c ← setIfSome args.platformManagementFeeBps (· ≤ MAX_BPS) .invalidBasisPoints
    (fun c x => { c with platformManagementFeeBps := x }) c
  let c ← setIfSome args.maxNavDeviationBps (· ≤ MAX_BPS) .invalidBasisPoints
    (fun c x => { c with maxNavDeviationBps := x }) c
  let c ← setIfSome args.maxEpochOutflowBps (· ≤ MAX_BPS) .invalidBasisPoints
    (fun c x => { c with maxEpochOutflowBps := x }) c
  let c ← setIfSome args.maxSlippageBps (fun x => 0 < x ∧ x ≤ MAX_BPS) .invalidBasisPoints
    (fun c x => { c with maxSlippageBps := x }) c
  match args.status with
  | some status => pure { c with status }
  | none => pure c

end HedgeVault
