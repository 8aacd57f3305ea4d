import HedgeVault.State.World

/-!
# Deposit request instructions

`deposit_request_create`, `cancel`, `reject` and `resolve`. The owner signs the
first two, the admin the third, anyone the last. A handler checks in the order of
the source. The request account is loaded before the handler runs; `create`
allocates it when it is missing (`init_if_needed`).
-/

namespace HedgeVault

open Lib

namespace World

/-- The request `create` works on, initialised when its account was just allocated. -/
def openDeposit (w : World) (depositor : Pubkey) (rentEscrow : U64) : DepositRequest :=
  let request := (w.depositRequests.lookup depositor).getD DepositRequest.zeroed
  if request.authority = Pubkey.default then
    { DepositRequest.new depositor w.key (Vault.epoch w.clock) w.clock with rentEscrow }
  else request

/-- `mintExtensions` is the verdict of `validate_deposit_mint_extensions` on the mint
as it is now, `rentEscrow` what `escrow_payout_rent` charged. -/
def depositRequestCreate (w : World) (depositor : Signer) (amount : U64)
    (mintExtensions : Result Unit) (rentEscrow : U64) : Result World := do
  validate (amount > 0) .invalidTransferAmount
  w.config.isProtocolOperational
  w.vault.isVaultOperational
  w.vault.validateDepositNotPaused
  mintExtensions
  let request ← (w.openDeposit depositor.key rentEscrow).add amount (Vault.epoch w.clock)
  let vault ← w.vault.requestDeposit amount
  let depositMint ← ofToken <|
    w.depositMint.transfer (.wallet depositor.key) .escrow amount.toNat
  pure { w with
    vault, depositMint
    depositRequests := w.depositRequests.insert depositor.key request }

/-- The refund that `cancel` and `reject` share: all of the request, which is closed. -/
def refundDeposit (w : World) (depositor : Pubkey) (request : DepositRequest) : Result World := do
  let vault ← w.vault.cancelDeposit request.amount
  let depositMint ← ofToken <|
    w.depositMint.transfer .escrow (.wallet depositor) request.amount.toNat
  pure { w with vault, depositMint, depositRequests := w.depositRequests.erase depositor }

def depositRequestCancel (w : World) (depositor : Signer) : Result World := do
  let request ← load (w.depositRequests.lookup depositor.key)
  request.validateAuthority depositor.key
  request.validateVault w.key
  request.isCancellable w.vault.navEpoch w.vault.navPerShare
  w.refundDeposit depositor.key request

def depositRequestReject (w : World) (admin : Signer) (depositor : Pubkey) : Result World := do
  let request ← load (w.depositRequests.lookup depositor)
  w.config.validateAdmin admin.key
  request.validateAuthority depositor
  request.validateVault w.key
  w.refundDeposit depositor request

def depositRequestResolve (w : World) (depositor : Pubkey) : Result World := do
  let request ← load (w.depositRequests.lookup depositor)
  w.config.isProtocolOperational
  w.vault.isVaultOperational
  w.vault.validateDepositNotPaused
  request.validateAuthority depositor
  request.validateVault w.key
  request.isResolvable w.vault.navEpoch
  let (vault, shares) ← w.vault.resolveDeposit request.amount
  let depositMint ← ofToken (w.depositMint.transfer .escrow .vault request.amount.toNat)
  let shareMint ← ofToken (w.shareMint.mintTo (.wallet depositor) shares.toNat)
  pure { w with
    vault, depositMint, shareMint
    depositRequests := w.depositRequests.erase depositor }

end World

end HedgeVault
