import HedgeVault.Lib.Run
import HedgeVault.Instructions.Admin
import HedgeVault.Instructions.Deposit
import HedgeVault.Instructions.Nav
import HedgeVault.Instructions.Withdrawal

/-!
# The program

`process` runs one transaction: the clock sysvar is set, then the instruction's
handler runs, and a failed handler leaves no new world. Beside the program's own
instructions there are the token movements it does not control: transfers out of
any account but an escrow (a donation into an escrow is one), the moves of strategy
calls between the vault's own account and others, burns by share holders, and
whatever the issuer of the deposit mint does. Nobody but the program mints shares.

`Step` is one processed transaction at an arbitrary clock, `TimedStep` one at a
clock that does not go back.
-/

namespace HedgeVault

open Lib

inductive Instruction where
  | depositRequestCreate (amount : U64) (mintExtensions : Result Unit) (rentEscrow : U64)
  | depositRequestCancel
  | depositRequestReject (depositor : Pubkey)
  | depositRequestResolve (depositor : Pubkey)
  | withdrawalRequestCreate (shares rentEscrow : U64)
  | withdrawalRequestCancel
  | withdrawalRequestReject (withdrawer : Pubkey)
  | withdrawalRequestResolve (withdrawer : Pubkey)
  | navUpdate (totalAssets : U64)
  | navOverride (totalAssets : U64)
  | vaultClaimManagerFee
  | configClaimPlatformFee
  | vaultUpdate (args : VaultUpdateArgs)
  | vaultPause
  | otherVaultInitialize (args : VaultInitializeArgs) (mintExtensions : Result Unit)
  | configUpdate (args : ConfigUpdateArgs)
  | configPause
  | adminAccept
  | configAddManager (authority : Pubkey)
  | configRemoveManager (authority : Pubkey)
  | initializeStrategy (strategyType : StrategyType) (checks : Result Unit)
  | vaultCloseStrategy (protocolAccount : Pubkey) (checks : Result Unit)
  -- token movements outside the program
  | depositTransfer (src dst : Holder) (amount : Nat)
  | depositIssue (dst : Holder) (amount : Nat)
  | depositBurn (src : Holder) (amount : Nat)
  | shareTransfer (src dst : Holder) (shares : Nat)
  | shareBurn (src : Holder) (shares : Nat)

structure Tx where
  signer : Signer
  now : I64
  ix : Instruction

def Instruction.sentBy (ix : Instruction) (signer : Signer) (now : Int)
    (h : I64.inRange now = true := by exact Eq.refl true) : Tx := ⟨signer, I64.literal now h, ix⟩

namespace World

/-- Only the vault signs for its escrows. -/
def validateSource (src : Holder) : Result Unit :=
  if src = .escrow then .error (.token .ownerMismatch) else .ok ()

def depositTransfer (w : World) (src dst : Holder) (amount : Nat) : Result World := do
  validateSource src
  pure { w with depositMint := ← ofToken (w.depositMint.transfer src dst amount) }

def depositIssue (w : World) (dst : Holder) (amount : Nat) : Result World := do
  pure { w with depositMint := ← ofToken (w.depositMint.mintTo dst amount) }

def depositBurn (w : World) (src : Holder) (amount : Nat) : Result World := do
  validateSource src
  pure { w with depositMint := ← ofToken (w.depositMint.burn src amount) }

def shareTransfer (w : World) (src dst : Holder) (shares : Nat) : Result World := do
  validateSource src
  pure { w with shareMint := ← ofToken (w.shareMint.transfer src dst shares) }

def shareBurn (w : World) (src : Holder) (shares : Nat) : Result World := do
  validateSource src
  pure { w with shareMint := ← ofToken (w.shareMint.burn src shares) }

def execute (w : World) (signer : Signer) : Instruction → Result World
  | .depositRequestCreate amount mintExtensions rentEscrow =>
    w.depositRequestCreate signer amount mintExtensions rentEscrow
  | .depositRequestCancel => w.depositRequestCancel signer
  | .depositRequestReject depositor => w.depositRequestReject signer depositor
  | .depositRequestResolve depositor => w.depositRequestResolve depositor
  | .withdrawalRequestCreate shares rentEscrow =>
    w.withdrawalRequestCreate signer shares rentEscrow
  | .withdrawalRequestCancel => w.withdrawalRequestCancel signer
  | .withdrawalRequestReject withdrawer => w.withdrawalRequestReject signer withdrawer
  | .withdrawalRequestResolve withdrawer => w.withdrawalRequestResolve withdrawer
  | .navUpdate totalAssets => w.navUpdate signer totalAssets
  | .navOverride totalAssets => w.navOverride signer totalAssets
  | .vaultClaimManagerFee => w.vaultClaimManagerFee signer
  | .configClaimPlatformFee => w.configClaimPlatformFee signer
  | .vaultUpdate args => w.vaultUpdate signer args
  | .vaultPause => w.vaultPause signer
  | .otherVaultInitialize args mintExtensions => w.otherVaultInitialize signer args mintExtensions
  | .configUpdate args => w.configUpdate signer args
  | .configPause => w.configPause signer
  | .adminAccept => w.adminAccept signer
  | .configAddManager authority => w.configAddManager signer authority
  | .configRemoveManager authority => w.configRemoveManager signer authority
  | .initializeStrategy strategyType checks => w.initializeStrategy signer strategyType checks
  | .vaultCloseStrategy protocolAccount checks =>
    w.vaultCloseStrategy signer protocolAccount checks
  | .depositTransfer src dst amount => w.depositTransfer src dst amount
  | .depositIssue dst amount => w.depositIssue dst amount
  | .depositBurn src amount => w.depositBurn src amount
  | .shareTransfer src dst shares => w.shareTransfer src dst shares
  | .shareBurn src shares => w.shareBurn src shares

def process (w : World) (tx : Tx) : Result World :=
  { w with clock := tx.now }.execute tx.signer tx.ix

/-- One processed transaction. -/
def Step (w : World) (tx : Tx) (w' : World) : Prop := w.process tx = .ok w'

/-- One processed transaction at a clock that does not go back. -/
def TimedStep (w : World) (tx : Tx) (w' : World) : Prop :=
  w.clock.val ≤ tx.now.val ∧ w.Step tx w'

theorem TimedStep.step {w w' : World} {tx : Tx} (h : w.TimedStep tx w') : w.Step tx w' := h.2

end World

end HedgeVault
