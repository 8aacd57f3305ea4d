import HedgeVault.Program
import HedgeVault.Utils.Payout

/-!
# The chain under a vault

A `Chain` is a world and the lamports behind it. The request instructions run as in the
world and move the rent along: a create charges the depositor once, a settlement opens the
payout account and closes the request, a cancel pays for its own token account. Between them
anything may happen to the lamports but a debit of a request account, which only the program
can make (`Bank.Outside`); the lengths of the token accounts stay.
-/

namespace HedgeVault

open Lib

structure Chain where
  world : World
  bank : Bank

namespace Bank

/-- What everybody else can do to the lamports. -/
structure Outside (rt : Runtime) (b b' : Bank) : Prop where
  depositRequest : ∀ u, b.lamports (.depositRequest u) ≤ b'.lamports (.depositRequest u)
  withdrawalRequest : ∀ u, b.lamports (.withdrawalRequest u) ≤ b'.lamports (.withdrawalRequest u)
  depositLen : rt.payoutAccountLen b'.depositMint = rt.payoutAccountLen b.depositMint
  shareLen : rt.payoutAccountLen b'.shareMint = rt.payoutAccountLen b.shareMint

/-- What a create charges its signer: the rent of a missing request and, for a request that
was not initialised, the payout rent. `authority` is that of the request account, if it
exists. -/
def chargeRequest (b : Bank) (rt : Runtime) (owner : Pubkey) (request : Address)
    (authority : Option Pubkey) : Result (Bank × U64) := do
  let b ← b.initRequest rt (.wallet owner) request authority
  if authority.getD Pubkey.default = Pubkey.default then
    b.escrowPayoutRent rt (.wallet owner) request
  else pure (b, 0)

/-- The payout account of a settlement that pays out. -/
def openPayout (b : Bank) (rt : Runtime) (payer payout : Address) (kind : MintKind)
    (request : Address) (rentEscrow : U64) (paysOut : Bool) : Result Bank :=
  if paysOut then do
    let (b, _) ← b.createPayoutAccount rt payer payout kind request rentEscrow
    pure b
  else pure b

end Bank

namespace Chain

section

variable (c : Chain) (rt : Runtime) (tx : Tx)

def depositRequestCreate (amount : U64) (mintExtensions : Result Unit) : Result Chain := do
  let depositor := tx.signer.key
  let (bank, rentEscrow) ← c.bank.chargeRequest rt depositor (.depositRequest depositor)
    ((c.world.depositRequests.lookup depositor).map (·.authority))
  let world ← c.world.process
    { tx with ix := .depositRequestCreate amount mintExtensions rentEscrow }
  pure { world, bank }

def withdrawalRequestCreate (shares : U64) : Result Chain := do
  let withdrawer := tx.signer.key
  let (bank, rentEscrow) ← c.bank.chargeRequest rt withdrawer (.withdrawalRequest withdrawer)
    ((c.world.withdrawalRequests.lookup withdrawer).map (·.authority))
  let world ← c.world.process { tx with ix := .withdrawalRequestCreate shares rentEscrow }
  pure { world, bank }

/-- The owner pays for the token account that the refund goes to. -/
def cancelRequest (kind : MintKind) (payout request : Address) : Result Chain := do
  let owner := .wallet tx.signer.key
  let bank ← c.bank.initPayoutAccount rt owner payout kind
  let world ← c.world.process tx
  pure { world, bank := bank.close request owner }

def depositRequestCancel : Result Chain :=
  c.cancelRequest rt tx .deposit (.depositAccount tx.signer.key) (.depositRequest tx.signer.key)

def withdrawalRequestCancel : Result Chain :=
  c.cancelRequest rt tx .share (.shareAccount tx.signer.key) (.withdrawalRequest tx.signer.key)

/-- Opens the payout account where one is needed and closes the request to its owner. -/
def settleRequest (kind : MintKind) (payout request : Address) (owner : Pubkey)
    (rentEscrow : U64) (paysOut : Bool) : Result Chain := do
  let world ← c.world.process tx
  let bank ← c.bank.openPayout rt (.wallet tx.signer.key) payout kind request rentEscrow paysOut
  pure { world, bank := bank.close request (.wallet owner) }

def depositRequestResolve (depositor : Pubkey) : Result Chain := do
  let request ← World.load (c.world.depositRequests.lookup depositor)
  c.settleRequest rt tx .share (.shareAccount depositor) (.depositRequest depositor) depositor
    request.rentEscrow true

def depositRequestReject (depositor : Pubkey) : Result Chain := do
  let request ← World.load (c.world.depositRequests.lookup depositor)
  c.settleRequest rt tx .deposit (.depositAccount depositor) (.depositRequest depositor) depositor
    request.rentEscrow true

/-- A payout of zero opens no account. -/
def withdrawalRequestResolve (withdrawer : Pubkey) : Result Chain := do
  let request ← World.load (c.world.withdrawalRequests.lookup withdrawer)
  let (_, amount) ← c.world.vault.resolveWithdrawal request.shares c.world.config.maxEpochOutflowBps
  c.settleRequest rt tx .deposit (.depositAccount withdrawer) (.withdrawalRequest withdrawer)
    withdrawer request.rentEscrow (amount > 0)

def withdrawalRequestReject (withdrawer : Pubkey) : Result Chain := do
  let request ← World.load (c.world.withdrawalRequests.lookup withdrawer)
  c.settleRequest rt tx .share (.shareAccount withdrawer) (.withdrawalRequest withdrawer)
    withdrawer request.rentEscrow true

def process : Result Chain :=
  match tx.ix with
  | .depositRequestCreate amount mintExtensions _ =>
    c.depositRequestCreate rt tx amount mintExtensions
  | .depositRequestCancel => c.depositRequestCancel rt tx
  | .depositRequestReject depositor => c.depositRequestReject rt tx depositor
  | .depositRequestResolve depositor => c.depositRequestResolve rt tx depositor
  | .withdrawalRequestCreate shares _ => c.withdrawalRequestCreate rt tx shares
  | .withdrawalRequestCancel => c.withdrawalRequestCancel rt tx
  | .withdrawalRequestReject withdrawer => c.withdrawalRequestReject rt tx withdrawer
  | .withdrawalRequestResolve withdrawer => c.withdrawalRequestResolve rt tx withdrawer
  | _ => do pure { c with world := ← c.world.process tx }

end

/-- A transaction of the vault, or something else on the chain (`none`). -/
def Step (rt : Runtime) (c : Chain) : Option Tx → Chain → Prop
  | some tx, c' => c.process rt tx = .ok c'
  | none, c' => c'.world = c.world ∧ c.bank.Outside rt c'.bank

end Chain

end HedgeVault
