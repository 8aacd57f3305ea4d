import HedgeVault.Lib.Token

/-!
# Errors

`HedgeVaultError` lists the program's errors in the order of their codes. An
instruction can also fail in the token program or because an account it names
does not exist. A failed instruction reverts: it leaves no new state, so a
fallible operation is a `Result` of the state after it.
-/

namespace HedgeVault

inductive HedgeVaultError where
  | invalidProgramId
  | invalidPubkey
  | invalidTransferAmount
  | mathOverflow
  | conversionFailed
  | invalidBasisPoints
  | invalidRemainingAccounts
  | invalidInstructionData
  | invalidMinimumAmount
  | invalidTokenAccountMint
  | invalidTokenAccountOwner
  | insufficientFunds
  | invalidTokenProgram
  | invalidConfig
  | invalidConfigVersion
  | invalidAdmin
  | invalidNavUpdater
  | invalidTreasuryAuthority
  | invalidGuardian
  | invalidPendingAdmin
  | protocolNotOperational
  | protocolNotWithdrawable
  | invalidManager
  | invalidManagerAuthority
  | invalidVault
  | invalidVaultAuthority
  | vaultNotOperational
  | vaultNotWithdrawable
  | depositCapReached
  | invalidDepositMint
  | invalidShareMint
  | vaultHasOutstandingShares
  | vaultHasPendingRequests
  | vaultHasUnclaimedFees
  | vaultHasOpenStrategies
  | vaultHasAssets
  | invalidSharesAmount
  | noFeeToClaim
  | invalidDepositMintExtension
  | vaultNavIsZero
  | depositBelowMinimum
  | withdrawalBelowMinimum
  | navAlreadyUpdatedThisEpoch
  | feeExceedsTotalAssets
  | navDeviationExceeded
  | totalAssetsBelowIdleBalance
  | epochOutflowCapReached
  | invalidRequest
  | invalidRequestAuthority
  | invalidRequestVault
  | pendingRequestNotResolved
  | requestNotResolvable
  | requestNotCancellable
  | zeroSharesMinted
  | invalidStrategy
  | invalidStrategyType
  | invalidTargetMint
  | invalidStrategyMint
  | invalidTargetMintTokenAccount
  | invalidSwapMints
  | slippageExceedsCap
  | swapOutputBelowMinimum
  | invalidPosition
  | vaultDepositPaused
  | vaultWithdrawalPaused
  | invalidPhoenixDepositMint
  | invalidPhoenixTrader
  | invalidPhoenixAccount
  | invalidPhoenixRemainingAccounts
  | phoenixTraderNotReady
  | phoenixAmountMismatch
  | phoenixReturnDataInvalid
  | phoenixAccountLiquidatable
  | phoenixOrderUnderfilled
  | phoenixStrategyNotEmpty
  | invalidPositionBinRange
  deriving DecidableEq, Repr

inductive Error where
  | custom (e : HedgeVaultError)
  | token (e : Lib.TokenError)
  /-- Anchor's refusal of an account that was never initialised or was closed. -/
  | accountNotInitialized
  /-- The system program's refusal to allocate an account that exists. -/
  | accountAlreadyInUse
  /-- The program panicked. -/
  | programFailed
  /-- `ProgramError::InvalidInstructionData`. -/
  | invalidInstructionData
  /-- `require_eq!` and `require_gte!`. -/
  | requireEqViolated
  | requireGteViolated
  /-- Anchor's refusals of the bytes of an account. -/
  | accountDiscriminatorNotFound
  | accountDiscriminatorMismatch
  | accountDidNotDeserialize
  deriving DecidableEq, Repr

abbrev Result := Except Error

/-- The error of a cross-program call into the token program. -/
def ofToken {α : Type} : Except Lib.TokenError α → Result α
  | .ok a => .ok a
  | .error e => .error (.token e)

/-- `validate!(c, e)?`. -/
def validate (c : Prop) [Decidable c] (e : HedgeVaultError) : Result Unit :=
  if c then .ok () else .error (.custom e)

section

variable {α β : Type} {x : Result α} {f : α → Result β} {r : β}

theorem bind_eq_ok : x >>= f = .ok r ↔ ∃ a, x = .ok a ∧ f a = .ok r := by
  cases x with
  | ok a =>
    constructor
    · exact fun h => ⟨a, rfl, h⟩
    · rintro ⟨_, h1, h2⟩; cases h1; exact h2
  | error e =>
    constructor
    · intro h; cases h
    · rintro ⟨_, h1, _⟩; cases h1

@[simp] theorem ok_bind (a : α) : (.ok a : Result α) >>= f = f a := rfl

theorem pure_eq_ok {a b : α} : (pure a : Result α) = .ok b ↔ a = b := by
  constructor
  · intro h; cases h; rfl
  · rintro rfl; rfl

theorem ofToken_eq_ok {y : Except Lib.TokenError α} {a : α} : ofToken y = .ok a ↔ y = .ok a := by
  cases y <;> simp [ofToken]

theorem validate_eq_ok {c : Prop} [Decidable c] {e : HedgeVaultError} {u : Unit} :
    validate c e = .ok u ↔ c := by
  unfold validate; split <;> simp_all

theorem validate_of {c : Prop} [Decidable c] {e : HedgeVaultError} (h : c) :
    validate c e = .ok () := if_pos h

end

/-- Every error that `x` can end with is in `p`. -/
def ErrorsIn {α : Type} (p : Error → Prop) (x : Result α) : Prop := ∀ e, x = .error e → p e

namespace ErrorsIn

variable {α β : Type} {p : Error → Prop} {x : Result α} {f : α → Result β}

theorem ok (a : α) : ErrorsIn p (.ok a : Result α) := fun _ h => by cases h

theorem error {e : Error} (he : p e) : ErrorsIn p (.error e : Result α) := fun _ h => by
  cases h
  exact he

theorem validate {c : Prop} [Decidable c] {e : HedgeVaultError} (he : p (.custom e)) :
    ErrorsIn p (validate c e) := by
  unfold HedgeVault.validate
  split
  · exact ok ()
  · exact error he

/-- A sequence ends with the errors of its parts. -/
theorem bind (hx : ErrorsIn p x) (hf : ∀ a, x = .ok a → ErrorsIn p (f a)) :
    ErrorsIn p (x >>= f) := by
  cases x with
  | ok a => exact hf a rfl
  | error e => exact error (hx e rfl)

theorem ne {e : Error} (h : ErrorsIn (· ≠ e) x) : x ≠ .error e := fun hx => h e hx rfl

end ErrorsIn

end HedgeVault
