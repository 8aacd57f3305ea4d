import HedgeVault.Utils.SafeMath

/-!
# Deposit and withdrawal requests

A request is stamped with the epoch it was made in and only accumulates within
that epoch (`add`). It is resolvable once the vault's NAV epoch is a later one. A
withdrawal is cancellable until then; a deposit is also cancellable while the
NAV is zero. `zeroed` is the record of an account that was just allocated.
-/

namespace HedgeVault

structure DepositRequest where
  authority : Pubkey
  vault : Pubkey
  /-- Deposit mint amount held in the vault's deposit escrow. -/
  amount : U64
  epoch : U64
  createdTs : I64
  rentEscrow : U64
  deriving DecidableEq

namespace DepositRequest

def zeroed : DepositRequest := ⟨Pubkey.default, Pubkey.default, 0, 0, 0, 0⟩

def new (authority vault : Pubkey) (epoch : U64) (createdTs : I64) : DepositRequest :=
  ⟨authority, vault, 0, epoch, createdTs, 0⟩

def validateAuthority (r : DepositRequest) (authority : Pubkey) : Result Unit :=
  validate (authority = r.authority) .invalidRequestAuthority

def validateVault (r : DepositRequest) (vault : Pubkey) : Result Unit :=
  validate (vault = r.vault) .invalidRequestVault

def add (r : DepositRequest) (amount epoch : U64) : Result DepositRequest := do
  validate (r.epoch = epoch) .pendingRequestNotResolved
  pure { r with amount := ← safeAdd r.amount amount }

def isResolvable (r : DepositRequest) (vaultNavEpoch : U64) : Result Unit :=
  validate (vaultNavEpoch > r.epoch) .requestNotResolvable

/-- Cancellable until a NAV is posted for the request, or while the vault NAV is
zero and the deposit cannot resolve. -/
def isCancellable (r : DepositRequest) (vaultNavEpoch vaultNavPerShare : U64) : Result Unit :=
  validate (vaultNavPerShare = 0 ∨ vaultNavEpoch ≤ r.epoch) .requestNotCancellable

theorem add_ok {r r' : DepositRequest} {amount epoch : U64} (h : r.add amount epoch = .ok r') :
    r.epoch = epoch ∧ r.amount.toNat + amount.toNat = r'.amount.toNat ∧
      r' = { r with amount := r'.amount } := by
  simp only [add, bind_eq_ok, validate_eq_ok, safeAdd_eq_ok, pure_eq_ok] at h
  obtain ⟨_, he, a, ha, rfl⟩ := h
  exact ⟨he, ha, rfl⟩

end DepositRequest

structure WithdrawalRequest where
  authority : Pubkey
  vault : Pubkey
  /-- Shares held in the vault's share escrow. -/
  shares : U64
  epoch : U64
  createdTs : I64
  rentEscrow : U64
  deriving DecidableEq

namespace WithdrawalRequest

def zeroed : WithdrawalRequest := ⟨Pubkey.default, Pubkey.default, 0, 0, 0, 0⟩

def new (authority vault : Pubkey) (epoch : U64) (createdTs : I64) : WithdrawalRequest :=
  ⟨authority, vault, 0, epoch, createdTs, 0⟩

def validateAuthority (r : WithdrawalRequest) (authority : Pubkey) : Result Unit :=
  validate (authority = r.authority) .invalidRequestAuthority

def validateVault (r : WithdrawalRequest) (vault : Pubkey) : Result Unit :=
  validate (vault = r.vault) .invalidRequestVault

def add (r : WithdrawalRequest) (shares epoch : U64) : Result WithdrawalRequest := do
  validate (r.epoch = epoch) .pendingRequestNotResolved
  pure { r with shares := ← safeAdd r.shares shares }

def isResolvable (r : WithdrawalRequest) (vaultNavEpoch : U64) : Result Unit :=
  validate (vaultNavEpoch > r.epoch) .requestNotResolvable

def isCancellable (r : WithdrawalRequest) (vaultNavEpoch : U64) : Result Unit :=
  validate (vaultNavEpoch ≤ r.epoch) .requestNotCancellable

theorem add_ok {r r' : WithdrawalRequest} {shares epoch : U64} (h : r.add shares epoch = .ok r') :
    r.epoch = epoch ∧ r.shares.toNat + shares.toNat = r'.shares.toNat ∧
      r' = { r with shares := r'.shares } := by
  simp only [add, bind_eq_ok, validate_eq_ok, safeAdd_eq_ok, pure_eq_ok] at h
  obtain ⟨_, he, a, ha, rfl⟩ := h
  exact ⟨he, ha, rfl⟩

end WithdrawalRequest

end HedgeVault
