import HedgeVault.Genesis
import HedgeVault.Instructions.Close
import HedgeVault.Lib.TokenOp
import HedgeVault.Work

/-!
# The protocol

All vaults under one config. The config account is in the deployed v1 layout until
`config_migrate` grew it; the other instructions read it typed, which fails on the shorter
account. There is one ledger for each mint, with the accounts of everybody in it: vaults of one
deposit mint pay the same users, and the shares of a vault can be what another one takes. A vault
is opened under the next id of the config. An instruction on it runs in its `Custody`, as the
ledgers, the config and the managers of the protocol show it at that moment (`viewed`); what it
did to the two mints of the vault is put back (`commit`), and what it pays in other accounts is
paid on their ledgers (`Payment.onLedgers`).
-/

namespace HedgeVault

open Lib

/-- The v1 layout: the config up to its status. -/
structure ConfigV1 where
  admin : Pubkey
  navUpdater : Pubkey
  treasuryAuthority : Pubkey
  guardian : Pubkey
  nextVaultId : U64
  platformPerformanceFeeBps : U16
  platformManagementFeeBps : U16
  maxNavDeviationBps : U16
  maxEpochOutflowBps : U16
  status : ProtocolStatus

/-- The grown account: what follows the v1 fields is zeroed. -/
def ConfigV1.migrate (c : ConfigV1) : Config where
  admin := c.admin
  navUpdater := c.navUpdater
  treasuryAuthority := c.treasuryAuthority
  guardian := c.guardian
  nextVaultId := c.nextVaultId
  platformPerformanceFeeBps := c.platformPerformanceFeeBps
  platformManagementFeeBps := c.platformManagementFeeBps
  maxNavDeviationBps := c.maxNavDeviationBps
  maxEpochOutflowBps := c.maxEpochOutflowBps
  status := c.status
  pendingAdmin := 0
  maxSlippageBps := 0

inductive ConfigAccount where
  | v1 (c : ConfigV1)
  | current (c : Config)

namespace ConfigAccount

def admin : ConfigAccount → Pubkey
  | .v1 c => c.admin
  | .current c => c.admin

/-- A v1 config has no nomination. -/
def pendingAdmin : ConfigAccount → Pubkey
  | .v1 _ => Pubkey.default
  | .current c => c.pendingAdmin

def status : ConfigAccount → ProtocolStatus
  | .v1 c => c.status
  | .current c => c.status

def nextVaultId : ConfigAccount → U64
  | .v1 c => c.nextVaultId
  | .current c => c.nextVaultId

end ConfigAccount

structure ConfigInitializeArgs where
  navUpdater : Pubkey
  treasuryAuthority : Pubkey
  guardian : Pubkey
  platformPerformanceFeeBps : U16
  platformManagementFeeBps : U16
  maxNavDeviationBps : U16
  maxEpochOutflowBps : U16
  maxSlippageBps : U16

def Config.new (admin : Pubkey) (args : ConfigInitializeArgs) : Config where
  admin := admin
  navUpdater := args.navUpdater
  treasuryAuthority := args.treasuryAuthority
  guardian := args.guardian
  nextVaultId := 0
  platformPerformanceFeeBps := args.platformPerformanceFeeBps
  platformManagementFeeBps := args.platformManagementFeeBps
  maxNavDeviationBps := args.maxNavDeviationBps
  maxEpochOutflowBps := args.maxEpochOutflowBps
  status := .paused
  pendingAdmin := Pubkey.default
  maxSlippageBps := args.maxSlippageBps

/-! ## Addresses -/

/-- The accounts that the program derives for the vault `id`. -/
inductive VaultPda where
  | vault (id : U64)
  | depositEscrow (id : U64)
  | shareEscrow (id : U64)
  | shareMint (id : U64)
  deriving DecidableEq

/-- The vault that the account is derived for. -/
def VaultPda.id : VaultPda → U64
  | vault id => id
  | depositEscrow id => id
  | shareEscrow id => id
  | shareMint id => id

/-- Where the program and the venues are deployed. -/
structure Deployment where
  address : VaultPda → Pubkey
  address_inj : Function.Injective address
  /-- The vault that signs for what is at the address, if one does: nobody else can. -/
  custodian : Pubkey → Option U64
  custodian_address : ∀ a, custodian (address a) = some a.id
  mintProgram : Pubkey → TokenProgram
  pair : Pubkey → Pubkey × Pubkey
  canonicalMint : Pubkey

/-- The names of the accounts of a mint in the ledger and as a vault has them, which go both
ways: its own account is the wallet `own` of the ledger and its escrow the wallet `escrow`. -/
def seat (own escrow : Pubkey) : Holder → Holder
  | .vault => .wallet own
  | .escrow => .wallet escrow
  | .wallet k => if k = own then .vault else if k = escrow then .escrow else .wallet k

theorem seat_involutive {own escrow : Pubkey} (h : own ≠ escrow) :
    Function.Involutive (seat own escrow) := by
  intro k
  cases k with
  | vault => simp [seat]
  | escrow => simp [seat, h.symm]
  | wallet k =>
    by_cases hown : k = own
    · simp [seat, hown]
    · by_cases hescrow : k = escrow
      · simp [seat, hescrow, h.symm]
      · simp [seat, hown, hescrow]

theorem seat_other {own escrow k : Pubkey} (hown : k ≠ own) (hescrow : k ≠ escrow) :
    seat own escrow (.wallet k) = .wallet k := by
  simp only [seat, if_neg hown, if_neg hescrow]

namespace Deployment

variable (D : Deployment)

def vaultAddress (id : U64) : Pubkey := D.address (.vault id)

def shareMint (id : U64) : Pubkey := D.address (.shareMint id)

theorem vault_ne_depositEscrow (id id' : U64) :
    D.address (.vault id) ≠ D.address (.depositEscrow id') := D.address_inj.ne (by simp)

theorem vault_ne_shareEscrow (id id' : U64) :
    D.address (.vault id) ≠ D.address (.shareEscrow id') := D.address_inj.ne (by simp)

/-- The accounts of the deposit mint. -/
def depositSeat (id : U64) : Equiv.Perm Holder :=
  (seat_involutive (D.vault_ne_depositEscrow id id)).toPerm

/-- The accounts of the share mint. -/
def shareSeat (id : U64) : Equiv.Perm Holder :=
  (seat_involutive (D.vault_ne_shareEscrow id id)).toPerm

theorem depositSeat_involutive (id : U64) (k : Holder) :
    D.depositSeat id (D.depositSeat id k) = k := seat_involutive (D.vault_ne_depositEscrow id id) k

theorem shareSeat_involutive (id : U64) (k : Holder) : D.shareSeat id (D.shareSeat id k) = k :=
  seat_involutive (D.vault_ne_shareEscrow id id) k

def venues (id : U64) (mint : Pubkey) : Venues where
  mints := ⟨mint, D.shareMint id⟩
  mintProgram := D.mintProgram
  pair := D.pair
  canonicalMint := D.canonicalMint

/-- The name of an account of the vault in the ledger of its mint. -/
def ledgerKey (id : U64) : VaultAccount → Pubkey
  | .depositEscrow => D.address (.depositEscrow id)
  | .shareEscrow => D.address (.shareEscrow id)
  | .associated _ => D.vaultAddress id
  | .other address _ => address

/-- The names of the accounts that the world of the vault keeps. -/
def worldKeys (id : U64) : List Pubkey :=
  [D.vaultAddress id, D.address (.depositEscrow id), D.address (.shareEscrow id)]

theorem depositSeat_other {D : Deployment} {id : U64} {k : Pubkey} (h : k ∉ D.worldKeys id) :
    D.depositSeat id (.wallet k) = .wallet k := by
  simp only [worldKeys, List.mem_cons, not_or] at h
  exact seat_other h.1 h.2.1

theorem shareSeat_other {D : Deployment} {id : U64} {k : Pubkey} (h : k ∉ D.worldKeys id) :
    D.shareSeat id (.wallet k) = .wallet k := by
  simp only [worldKeys, List.mem_cons, not_or] at h
  exact seat_other h.1 h.2.2.1

/-- Whether the vault is the authority of the account. -/
def owns (id : U64) : VaultAccount → Bool
  | .other address _ => D.custodian address = some id ∧ address ∉ D.worldKeys id
  | _ => true

/-- Who signs a transaction. -/
structure Wallet extends Signer where
  outside : D.custodian key = none

end Deployment

/-- The mint of an account of the vault. -/
def VaultAccount.mint (mints : VaultMints) : VaultAccount → Pubkey
  | depositEscrow => mints.depositMint
  | shareEscrow => mints.shareMint
  | associated mint => mint
  | other _ mint => mint

/-! ## Instructions -/

/-- An instruction on the config or the manager whitelist. -/
def Instruction.isConfigLevel : Instruction → Bool
  | .otherVaultInitialize _ _ => true
  | .configUpdate _ => true
  | .configPause => true
  | .adminAccept => true
  | .configAddManager _ => true
  | .configRemoveManager _ => true
  | _ => false

/-- Whether the handler loads the config. -/
def Instruction.loadsConfig : Instruction → Bool
  | .depositRequestCancel => false
  | .withdrawalRequestCancel => false
  | .vaultClaimManagerFee => false
  | .vaultUpdate _ => false
  | .depositTransfer _ _ _ => false
  | .depositIssue _ _ => false
  | .depositBurn _ _ => false
  | .shareTransfer _ _ _ => false
  | .shareBurn _ _ => false
  | _ => true

/-- A movement of tokens outside the program. -/
def Instruction.movesTokens : Instruction → Bool
  | .depositTransfer _ _ _ => true
  | .depositIssue _ _ => true
  | .depositBurn _ _ => true
  | .shareTransfer _ _ _ => true
  | .shareBurn _ _ => true
  | _ => false

namespace CustodyInstruction

/-- Whether it is about one vault. -/
def isOnVault : CustodyInstruction → Bool
  | .program ix => !ix.isConfigLevel && !ix.movesTokens
  | _ => true

/-- Beside the program, the config is there and is not read. -/
def loadsConfig : CustodyInstruction → Bool
  | .program ix => ix.loadsConfig
  | _ => true

end CustodyInstruction

/-- Whether the payment is between the vault and somebody else: it pays nothing to itself, and no
vault signs what another one gets. -/
def Payment.isBetween (D : Deployment) (id : U64) (p : Payment) : Bool :=
  D.owns id p.account && match p with
    | spent payee _ _ => D.custodian payee ≠ some id
    | received payer _ _ => D.custodian payer = none

inductive ProtocolInstruction where
  | configInitialize (args : ConfigInitializeArgs)
  | configMigrate
  | configUpdate (args : ConfigUpdateArgs)
  | configPause
  | adminAccept
  | configAddManager (authority : Pubkey)
  | configRemoveManager (authority : Pubkey)
  | vaultInitialize (args : VaultInitializeArgs) (mintExtensions : Result Unit)
    (depositMint : Pubkey)
  | vaultClose (id : U64)
  | onVault (id : U64) (ix : { ix : CustodyInstruction // ix.isOnVault = true })
  -- outside the program
  | tokens (mint : Pubkey) (op : TokenOp Pubkey)

structure ProtocolTx (D : Deployment) where
  signer : D.Wallet
  now : I64
  ix : ProtocolInstruction

structure OpenVault where
  depositMint : Pubkey
  /-- Of what is kept elsewhere in the protocol, it has what the last instruction left. -/
  custody : Custody

structure Protocol where
  config : Option ConfigAccount
  managers : Finset Pubkey
  /-- The token accounts of every mint, by their owner. An escrow is found by its address. -/
  ledgers : Pubkey → SplMint
  /-- The open vaults by id. -/
  vaults : Finmap fun _ : U64 => OpenVault

namespace Protocol

/-- `AccountLoader<Config>::load`, which panics on the shorter v1 account. -/
def loadConfig (p : Protocol) : Result Config :=
  match p.config with
  | some (.current c) => .ok c
  | some (.v1 _) => .error .programFailed
  | none => .error .accountNotInitialized

def configInitialize (p : Protocol) (admin : Signer) (args : ConfigInitializeArgs) :
    Result Protocol := do
  World.allocate p.config.isSome
  validate (args.navUpdater ≠ Pubkey.default) .invalidPubkey
  validate (args.treasuryAuthority ≠ Pubkey.default) .invalidPubkey
  validate (args.guardian ≠ Pubkey.default) .invalidPubkey
  validate (args.platformPerformanceFeeBps ≤ MAX_BPS) .invalidBasisPoints
  validate (args.platformManagementFeeBps ≤ MAX_BPS) .invalidBasisPoints
  validate (args.maxNavDeviationBps ≤ MAX_BPS) .invalidBasisPoints
  validate (args.maxEpochOutflowBps ≤ MAX_BPS) .invalidBasisPoints
  validate (args.maxSlippageBps > 0 ∧ args.maxSlippageBps ≤ MAX_BPS) .invalidBasisPoints
  pure { p with config := some (.current (Config.new admin.key args)) }

def configMigrate (p : Protocol) (admin : Signer) : Result Protocol :=
  match p.config with
  | none => .error (.custom .invalidConfig)
  | some (.current _) => .error (.custom .invalidConfigVersion)
  | some (.v1 c) => do
    validate (c.admin = admin.key) .invalidAdmin
    pure { p with config := some (.current c.migrate) }

def configUpdate (p : Protocol) (admin : Signer) (args : ConfigUpdateArgs) : Result Protocol := do
  let config ← p.loadConfig
  config.validateAdmin admin.key
  let config ← config.update args
  pure { p with config := some (.current config) }

def configPause (p : Protocol) (guardian : Signer) : Result Protocol := do
  let config ← p.loadConfig
  config.validateGuardian guardian.key
  pure { p with config := some (.current config.pause) }

def adminAccept (p : Protocol) (pendingAdmin : Signer) : Result Protocol := do
  let config ← p.loadConfig
  let config ← config.acceptAdmin pendingAdmin.key
  pure { p with config := some (.current config) }

def configAddManager (p : Protocol) (admin : Signer) (authority : Pubkey) : Result Protocol := do
  World.allocate (authority ∈ p.managers)
  let config ← p.loadConfig
  config.validateAdmin admin.key
  pure { p with managers := insert authority p.managers }

def configRemoveManager (p : Protocol) (admin : Signer) (authority : Pubkey) : Result Protocol := do
  World.load (if authority ∈ p.managers then some () else none)
  let config ← p.loadConfig
  config.validateAdmin admin.key
  pure { p with managers := p.managers.erase authority }

end Protocol

/-- What the vault has in its accounts that its world does not keep, as the ledgers show it. -/
def Deployment.heldOn (D : Deployment) (id : U64) (mints : VaultMints)
    (ledgers : Pubkey → SplMint) (account : VaultAccount) : U64 :=
  if (account.place mints).isNone && D.owns id account then
    (ledgers (account.mint mints)).amountU64 (.wallet (D.ledgerKey id account))
  else 0

/-- The custody with the token accounts of the ledgers. -/
def Custody.over (D : Deployment) (id : U64) (mint : Pubkey) (c : Custody)
    (ledgers : Pubkey → SplMint) : Custody :=
  { c with
    world := { c.world with
      depositMint := (ledgers mint).rename (D.depositSeat id)
      shareMint := (ledgers (D.shareMint id)).rename (D.shareSeat id) }
    held := D.heldOn id (D.venues id mint).mints ledgers }

/-- The transfer of a payment in the ledger of its mint. -/
def Payment.ledgerOp (D : Deployment) (id : U64) (p : Payment) : TokenOp Holder :=
  let holder := .wallet (D.ledgerKey id p.account)
  .transfer (p.src holder) (p.dst holder) p.amount.toNat

/-- A payment on the ledgers, if it is on an account that the world of the vault does not keep. -/
def Payment.onLedgers (D : Deployment) (id : U64) (mints : VaultMints)
    (ledgers : Pubkey → SplMint) (p : Payment) : Result (Pubkey → SplMint) :=
  match p.account.place mints with
  | some _ => pure ledgers
  | none => do
    let ledger ← ofToken ((ledgers (p.account.mint mints)).run (p.ledgerOp D id))
    pure (Function.update ledgers (p.account.mint mints) ledger)

namespace Protocol

section

variable (D : Deployment) (p : Protocol)

/-- A vault as the ledgers show it. -/
def viewed (id : U64) (o : OpenVault) : Custody := o.custody.over D id o.depositMint p.ledgers

/-- What a new vault holds beside the accounts of its world. -/
def newCustody (world : World) : Custody where
  world
  held _ := 0
  liquidity _ := 0
  traders _ := ⟨0, 0, 0, 0, 0, 0, 0⟩

def vaultInitialize (authority : D.Wallet) (now : I64) (args : VaultInitializeArgs)
    (mintExtensions : Result Unit) (depositMint : Pubkey) : Result Protocol := do
  let config ← p.loadConfig
  let id := config.nextVaultId
  World.allocate (p.vaults.lookup id).isSome
  -- the share mint and the deposit escrow are new accounts
  World.allocate (depositMint = D.shareMint id ∨ (p.ledgers (D.shareMint id)).supply ≠ 0)
  let ledger := (p.ledgers depositMint).rename (D.depositSeat id)
  if hescrow : ledger.amount .escrow = 0 then do
    let world ← World.genesis now (D.vaultAddress id) config p.managers authority.toSigner args
      mintExtensions ⟨ledger, hescrow⟩
    pure { p with
      config := some (.current world.config)
      vaults := p.vaults.insert id ⟨depositMint, newCustody world⟩ }
  else .error .accountAlreadyInUse

def vaultClose (authority : D.Wallet) (id : U64) : Result Protocol := do
  let o ← World.load (p.vaults.lookup id)
  let _ ← (p.viewed D id o).world.vaultClose authority.toSigner
  pure { p with vaults := p.vaults.erase id }

/-- What an instruction on the vault runs on. -/
def custodyFor (id : U64) (o : OpenVault) (ix : CustodyInstruction) : Result Custody :=
  let c := p.viewed D id o
  if ix.loadsConfig then do
    let config ← p.loadConfig
    pure { c with world := { c.world with config, managers := p.managers } }
  else pure c

def validateParties (id : U64) (payments : List Payment) : Result Unit :=
  if payments.all (·.isBetween D id) then .ok () else .error (.token .ownerMismatch)

def commit (id : U64) (o : OpenVault) (c : Custody) : Protocol :=
  let shares := Function.update p.ledgers (D.shareMint id)
    (c.world.shareMint.rename (D.shareSeat id))
  { p with
    ledgers := Function.update shares o.depositMint
      (c.world.depositMint.rename (D.depositSeat id))
    vaults := p.vaults.insert id { o with custody := c } }

def onVault (signer : D.Wallet) (now : I64) (id : U64) (ix : CustodyInstruction) :
    Result Protocol := do
  let o ← World.load (p.vaults.lookup id)
  let V := D.venues id o.depositMint
  let c ← p.custodyFor D id o ix
  let payments := ix.payments V c signer.toSigner
  validateParties D id payments
  let c ← c.process V ⟨signer.toSigner, now, ix⟩
  let p := p.commit D id o c
  pure { p with ledgers := ← payments.foldlM (Payment.onLedgers D id V.mints) p.ledgers }

/-- Nobody else signs for an account of a vault, which alone mints its shares. -/
def validateOp (mint : Pubkey) (op : TokenOp Pubkey) : Result Unit :=
  if op.source.any (fun k => (D.custodian k).isSome) ∨ op.isMintTo ∧ (D.custodian mint).isSome then
    .error (.token .ownerMismatch)
  else .ok ()

def tokens (mint : Pubkey) (op : TokenOp Pubkey) : Result Protocol := do
  validateOp D mint op
  let ledger ← ofToken ((p.ledgers mint).run (op.map .wallet))
  pure { p with ledgers := Function.update p.ledgers mint ledger }

def process (tx : ProtocolTx D) : Result Protocol :=
  match tx.ix with
  | .configInitialize args => p.configInitialize tx.signer.toSigner args
  | .configMigrate => p.configMigrate tx.signer.toSigner
  | .configUpdate args => p.configUpdate tx.signer.toSigner args
  | .configPause => p.configPause tx.signer.toSigner
  | .adminAccept => p.adminAccept tx.signer.toSigner
  | .configAddManager authority => p.configAddManager tx.signer.toSigner authority
  | .configRemoveManager authority => p.configRemoveManager tx.signer.toSigner authority
  | .vaultInitialize args mintExtensions depositMint =>
    p.vaultInitialize D tx.signer tx.now args mintExtensions depositMint
  | .vaultClose id => p.vaultClose D tx.signer id
  | .onVault id ix => p.onVault D tx.signer tx.now id ix.1
  | .tokens mint op => p.tokens D mint op

/-- One processed transaction, by any signer. -/
def Step (tx : ProtocolTx D) (p' : Protocol) : Prop := p.process D tx = .ok p'

end

/-- A config just made by `config_initialize`, or the deployed v1 config. -/
def Initialised (p : Protocol) : Prop :=
  (∃ admin args, p.config = some (.current (Config.new admin args))) ∨
    ∃ c, p.config = some (.v1 c)

end Protocol

end HedgeVault
