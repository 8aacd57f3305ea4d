import HedgeVault.State.World

/-!
# Withdrawal request instructions

The counterparts for shares. `resolve` burns the escrowed shares and pays from the
vault's idle balance; a payout of zero moves no tokens and needs no account.
-/

namespace HedgeVault

open Lib

namespace World

/-- The request `create` works on, initialised when its account was just allocated. -/
def openWithdrawal (w : World) (withdrawer : Pubkey) (rentEscrow : U64) : WithdrawalRequest :=
  let request := (w.withdrawalRequests.lookup withdrawer).getD WithdrawalRequest.zeroed
  if request.authority = Pubkey.default then
    { WithdrawalRequest.new withdrawer w.key (Vault.epoch w.clock) w.clock with rentEscrow }
  else request

def withdrawalRequestCreate (w : World) (withdrawer : Signer) (shares rentEscrow : U64) :
    Result World := do
  validate (shares > 0) .invalidSharesAmount
  w.config.isProtocolWithdrawable
  w.vault.isVaultWithdrawable
  w.vault.validateWithdrawalNotPaused
  let request ← (w.openWithdrawal withdrawer.key rentEscrow).add shares (Vault.epoch w.clock)
  let vault ← w.vault.requestWithdrawal shares (w.shareMint.amountU64 (.wallet withdrawer.key))
  let shareMint ← ofToken <|
    w.shareMint.transfer (.wallet withdrawer.key) .escrow shares.toNat
  pure { w with
    vault, shareMint
    withdrawalRequests := w.withdrawalRequests.insert withdrawer.key request }

/-- The refund that `cancel` and `reject` share. -/
def refundWithdrawal (w : World) (withdrawer : Pubkey) (request : WithdrawalRequest) :
    Result World := do
  let vault ← w.vault.cancelWithdrawal request.shares
  let shareMint ← ofToken <|
    w.shareMint.transfer .escrow (.wallet withdrawer) request.shares.toNat
  pure { w with vault, shareMint, withdrawalRequests := w.withdrawalRequests.erase withdrawer }

def withdrawalRequestCancel (w : World) (withdrawer : Signer) : Result World := do
  let request ← load (w.withdrawalRequests.lookup withdrawer.key)
  request.validateAuthority withdrawer.key
  request.validateVault w.key
  request.isCancellable w.vault.navEpoch
  w.refundWithdrawal withdrawer.key request

def withdrawalRequestReject (w : World) (admin : Signer) (withdrawer : Pubkey) :
    Result World := do
  let request ← load (w.withdrawalRequests.lookup withdrawer)
  w.config.validateAdmin admin.key
  request.validateAuthority withdrawer
  request.validateVault w.key
  w.refundWithdrawal withdrawer request

/-- `if amount > 0 { .. transfer_checked(..)?; }`. -/
def payOut (m : SplMint) (withdrawer : Pubkey) (amount : U64) : Result SplMint :=
  if amount > 0 then ofToken (m.transfer .vault (.wallet withdrawer) amount.toNat) else pure m

def withdrawalRequestResolve (w : World) (withdrawer : Pubkey) : Result World := do
  let request ← load (w.withdrawalRequests.lookup withdrawer)
  w.config.isProtocolWithdrawable
  w.vault.isVaultWithdrawable
  w.vault.validateWithdrawalNotPaused
  request.validateAuthority withdrawer
  request.validateVault w.key
  request.isResolvable w.vault.navEpoch
  let (vault, amount) ←
    w.vault.resolveWithdrawal request.shares w.config.maxEpochOutflowBps
  validate (w.depositMint.amountU64 .vault ≥ amount) .insufficientFunds
  let shareMint ← ofToken (w.shareMint.burn .escrow request.shares.toNat)
  let depositMint ← payOut w.depositMint withdrawer amount
  pure { w with
    vault, depositMint, shareMint
    withdrawalRequests := w.withdrawalRequests.erase withdrawer }

end World

end HedgeVault
