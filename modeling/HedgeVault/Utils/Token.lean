import HedgeVault.Utils.Account

/-!
# Deposit mint extensions

The allowlist over the Token-2022 extensions of a deposit mint. A transfer fee is let through
when it is zero in the epoch of the check. Which of a mint's two fees an epoch has, and what
a fee withholds, is for Token-2022 to say (`FeeRules`).
-/

namespace HedgeVault

structure TransferFee where
  /-- First epoch of the fee. -/
  epoch : U64
  maximumFee : U64
  transferFeeBasisPoints : U16
  deriving DecidableEq

structure TransferFeeConfig where
  olderTransferFee : TransferFee
  newerTransferFee : TransferFee
  deriving DecidableEq

/-- The extensions of a mint that the check tells apart, with what it reads of them. -/
inductive MintExtension where
  | transferFeeConfig (config : TransferFeeConfig)
  | transferHook (programId : Option Pubkey)
  | defaultAccountState (state : U8)
  | mintCloseAuthority
  | confidentialTransferMint
  | confidentialTransferFeeConfig
  | interestBearingConfig
  | permanentDelegate
  | metadataPointer
  | tokenMetadata
  | groupPointer
  | tokenGroup
  | groupMemberPointer
  | tokenGroupMember
  | other (extensionType : U16)

/-- `AccountState::Frozen`. -/
def ACCOUNT_STATE_FROZEN : U8 := 2

/-- The mint account: the program that owns it, and its extensions unless the bytes do not
parse. -/
structure DepositMintAccount where
  owner : Pubkey
  extensions : Option (List MintExtension)

structure FeeRules where
  /-- `TransferFeeConfig::get_epoch_fee`. -/
  getEpochFee : TransferFeeConfig → U64 → TransferFee
  /-- `TransferFee::calculate_fee`: what is withheld of an amount. -/
  calculateFee : TransferFee → Nat → Nat

namespace FeeRules

variable (R : FeeRules)

def checkExtension (epoch : U64) : MintExtension → Result Unit
  -- a fee would make the escrow receive less than the recorded pending amount
  | .transferFeeConfig config =>
    validate ((R.getEpochFee config epoch).transferFeeBasisPoints = 0) .invalidDepositMintExtension
  | .transferHook programId => validate (programId = none) .invalidDepositMintExtension
  | .defaultAccountState state =>
    validate (state ≠ ACCOUNT_STATE_FROZEN) .invalidDepositMintExtension
  | .other _ => .error (.custom .invalidDepositMintExtension)
  | _ => pure ()

def checkExtensions (epoch : U64) : List MintExtension → Result Unit
  | [] => pure ()
  | e :: es => do
    checkExtension R epoch e
    checkExtensions epoch es

def checkDepositMintExtensions (extensions : Option (List MintExtension)) (epoch : U64) :
    Result Unit :=
  match extensions with
  | none => .error (.custom .invalidDepositMintExtension)
  | some es => R.checkExtensions epoch es

def validateDepositMintExtensions (mint : DepositMintAccount) (epoch : U64) : Result Unit :=
  if mint.owner ≠ TOKEN_2022_ID then pure ()
  else R.checkDepositMintExtensions mint.extensions epoch

/-- The transfer fees of a mint, if it has any. -/
def feeConfig (mint : DepositMintAccount) : Option TransferFeeConfig :=
  if mint.owner ≠ TOKEN_2022_ID then none
  else (mint.extensions.getD []).findSome? fun
    | .transferFeeConfig config => some config
    | _ => none

/-- What the recipient of a transfer of `amount` does not get. -/
def withheld (mint : DepositMintAccount) (epoch : U64) (amount : Nat) : Nat :=
  match feeConfig mint with
  | some config => R.calculateFee (R.getEpochFee config epoch) amount
  | none => 0

variable {R} {epoch : U64} {es : List MintExtension} {mint : DepositMintAccount}
  {config : TransferFeeConfig}

theorem checkExtensions_ok {u : Unit} : R.checkExtensions epoch es = .ok u ↔
    ∀ e ∈ es, R.checkExtension epoch e = .ok () := by
  induction es with
  | nil => exact ⟨fun _ _ he => absurd he List.not_mem_nil, fun _ => rfl⟩
  | cons e es ih =>
    simp only [checkExtensions, bind_eq_ok, ih, List.forall_mem_cons]
    constructor
    · rintro ⟨_, he, hes⟩
      exact ⟨he, hes⟩
    · rintro ⟨he, hes⟩
      exact ⟨(), he, hes⟩

/-- A mint that passes has no fee in the epoch of the check. -/
theorem validateDepositMintExtensions_ok {u : Unit}
    (h : R.validateDepositMintExtensions mint epoch = .ok u) (hc : feeConfig mint = some config) :
    (R.getEpochFee config epoch).transferFeeBasisPoints = 0 := by
  unfold feeConfig at hc
  unfold validateDepositMintExtensions at h
  split at hc
  · cases hc
  · next howner =>
    rw [if_neg howner] at h
    cases hes : mint.extensions with
    | none =>
      rw [hes] at h
      cases h
    | some es =>
      rw [hes] at h hc
      obtain ⟨e, he, hec⟩ := List.exists_of_findSome?_eq_some hc
      have hcheck := checkExtensions_ok.1 h e he
      cases e with
      | transferFeeConfig c =>
        cases hec
        exact validate_eq_ok.1 hcheck
      | _ => cases hec

end FeeRules

end HedgeVault
