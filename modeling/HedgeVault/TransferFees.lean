import HedgeVault.Genesis
import HedgeVault.Utils.Token

/-!
# Deposits in a mint with transfer fees

A `FeeWorld` is the world of a vault together with its deposit mint as Token-2022 sees it and
the epoch of the cluster. The transfers of an instruction are exact, what is withheld leaves
the recipient's account afterwards. The mint is checked when the vault is made and when a
request is created, against the epoch of that moment; between that and the resolution the
epoch goes on and the issuer can update the mint.
-/

namespace HedgeVault

open Lib

structure FeeWorld where
  world : World
  mint : DepositMintAccount
  epoch : U64

inductive FeeTx where
  | tx (tx : Tx)
  /-- A later epoch begins. -/
  | beginEpoch (epoch : U64)
  /-- The issuer updates the extensions of the mint. -/
  | updateMint (extensions : Option (List MintExtension))

/-- The instruction with the verdict on the mint as it is now. -/
def Instruction.withVerdict (verdict : Result Unit) : Instruction → Instruction
  | .depositRequestCreate amount _ rentEscrow => .depositRequestCreate amount verdict rentEscrow
  | ix => ix

namespace World

/-- The transfer of the deposit mint in a processed instruction: to whom and how much. -/
def depositLeg (w w' : World) (signer : Signer) : Instruction → Option (Holder × Nat)
  | .depositRequestCreate amount _ _ => some (.escrow, amount.toNat)
  | .depositRequestCancel =>
    some (.wallet signer.key, valueAt (·.amount.toNat) w.depositRequests signer.key)
  | .depositRequestReject depositor =>
    some (.wallet depositor, valueAt (·.amount.toNat) w.depositRequests depositor)
  | .depositRequestResolve depositor =>
    some (.vault, valueAt (·.amount.toNat) w.depositRequests depositor)
  | .withdrawalRequestResolve withdrawer => some (.wallet withdrawer, w.idle - w'.idle)
  | .depositTransfer src dst amount => if src = dst then none else some (dst, amount)
  | _ => none

end World

namespace FeeWorld

variable (R : FeeRules)

/-- The vault is new and its mint passed the check. -/
def Fresh (f : FeeWorld) : Prop :=
  f.world.Fresh ∧ R.validateDepositMintExtensions f.mint f.epoch = .ok ()

/-- What of the transfer is withheld from its recipient. -/
def withhold (f : FeeWorld) (w : World) : Option (Holder × Nat) → Result World
  | some (holder, amount) => do
    pure { w with
      depositMint := ← ofToken (w.depositMint.burn holder (R.withheld f.mint f.epoch amount)) }
  | none => pure w

def process (f : FeeWorld) : FeeTx → Result FeeWorld
  | .tx tx => do
    let ix := tx.ix.withVerdict (R.validateDepositMintExtensions f.mint f.epoch)
    let w ← f.world.process { tx with ix }
    pure { f with world := ← f.withhold R w (f.world.depositLeg w tx.signer ix) }
  | .beginEpoch epoch => if f.epoch ≤ epoch then .ok { f with epoch } else .error .programFailed
  | .updateMint extensions => pure { f with mint := { f.mint with extensions } }

def Step (f : FeeWorld) (tx : FeeTx) (f' : FeeWorld) : Prop := f.process R tx = .ok f'

/-- The amount of the request that the step resolves. -/
def resolvedAmount (t : Transition FeeWorld FeeTx) : Option Nat :=
  match t.label with
  | .tx tx =>
    match tx.ix with
    | .depositRequestResolve depositor =>
      some (valueAt (·.amount.toNat) t.pre.world.depositRequests depositor)
    | _ => none
  | _ => none

/-- A resolution credits the vault, and mints shares, for no more than its account got. -/
structure CreditedWithin (t : Transition FeeWorld FeeTx) : Prop where
  assets : t.post.world.vault.totalAssets.toNat + t.pre.world.idle ≤
    t.pre.world.vault.totalAssets.toNat + t.post.world.idle
  shares : t.post.world.shareMint.supply ≤ t.pre.world.shareMint.supply +
    sharesFor NAV_SCALE (t.post.world.idle - t.pre.world.idle) t.pre.world.vault.navPerShare.toNat

/-- Nothing of the request is withheld in the epoch of its resolution. -/
def NoFee (t : Transition FeeWorld FeeTx) : Prop :=
  ∀ amount, resolvedAmount t = some amount → R.withheld t.pre.mint t.pre.epoch amount = 0

end FeeWorld

/-! ## One resolution -/

theorem World.Change.resolved {w w' : World} {now : I64} {u : Pubkey}
    (h : Change w now (.depositSettle u) w') :
    w'.vault.totalAssets.toNat =
      w.vault.totalAssets.toNat + valueAt (·.amount.toNat) w.depositRequests u ∧
    w'.idle = w.idle + valueAt (·.amount.toNat) w.depositRequests u ∧
    w'.shareMint.supply = w.shareMint.supply +
      sharesFor NAV_SCALE (valueAt (·.amount.toNat) w.depositRequests u)
        w.vault.navPerShare.toNat := by
  cases h with
  | depositSettle h =>
    obtain ⟨_, hshares, _, _, htotal, _⟩ := Vault.resolveDeposit_ok h.resolve
    obtain ⟨_, _, _, hidle, _⟩ := Mint.transfer_ok (by decide) h.transfer
    obtain ⟨_, hsupply, _⟩ := Mint.mintTo_ok h.mint
    rw [valueAt_of_lookup h.found]
    refine ⟨htotal, hidle, ?_⟩
    rw [← hshares]
    exact hsupply

namespace FeeWorld

variable {R : FeeRules} {f f' f₀ : FeeWorld} {h : List (Transition FeeWorld FeeTx)}
  {t : Transition FeeWorld FeeTx} {amount : Nat}

/-- What an executed resolution moves, with what is withheld. -/
theorem resolution_moved (st : Step R t.pre t.label t.post) (ha : resolvedAmount t = some amount) :
    t.post.world.vault.totalAssets.toNat = t.pre.world.vault.totalAssets.toNat + amount ∧
    t.post.world.idle + R.withheld t.pre.mint t.pre.epoch amount = t.pre.world.idle + amount ∧
    t.post.world.shareMint.supply = t.pre.world.shareMint.supply +
      sharesFor NAV_SCALE amount t.pre.world.vault.navPerShare.toNat := by
  obtain ⟨pre, label, post⟩ := t
  unfold resolvedAmount at ha
  split at ha
  · next tx hlabel =>
    split at ha
    · next depositor hix =>
      cases ha
      subst hlabel
      simp only [Step, process, hix, Instruction.withVerdict, bind_eq_ok, pure_eq_ok] at st
      obtain ⟨w, hw, w', hw', rfl⟩ := st
      simp only [withhold, World.depositLeg, bind_eq_ok, pure_eq_ok, ofToken_eq_ok] at hw'
      obtain ⟨m, hburn, rfl⟩ := hw'
      obtain ⟨htotal, hidle, hsupply⟩ := (World.depositRequestResolve_change hw).resolved
      obtain ⟨hle, _, hamount⟩ := Mint.burn_ok hburn
      have hpost := congrFun hamount .vault
      rw [Function.update_self] at hpost
      have hgot : m.amount .vault + R.withheld pre.mint pre.epoch
            (valueAt (·.amount.toNat) pre.world.depositRequests depositor) =
          w.depositMint.amount .vault := by
        omega
      exact ⟨htotal, hgot.trans hidle, hsupply⟩
    · cases ha
  · cases ha

theorem creditedWithin_iff (st : Step R t.pre t.label t.post)
    (ha : resolvedAmount t = some amount) :
    CreditedWithin t ↔ R.withheld t.pre.mint t.pre.epoch amount = 0 := by
  obtain ⟨htotal, hidle, hsupply⟩ := resolution_moved st ha
  constructor
  · intro hc
    have hassets := hc.assets
    omega
  · intro hzero
    have hgot : t.post.world.idle - t.pre.world.idle = amount := by omega
    refine ⟨by omega, ?_⟩
    rw [hgot]
    omega

/-! ## Runs -/

/-- In every run, the resolutions credit no more than the vault's account got, if and only if
nothing is withheld of the requests in the epochs of their resolutions. It is enough that the
mint would pass the check again there. -/
theorem credited_iff_no_fee (hr : Run (Step R) f₀ h f) :
    ((∀ t ∈ h, (resolvedAmount t).isSome → CreditedWithin t) ↔ ∀ t ∈ h, NoFee R t) ∧
    ((∀ fee amount, fee.transferFeeBasisPoints = 0 → R.calculateFee fee amount = 0) →
      ∀ t ∈ h, R.validateDepositMintExtensions t.pre.mint t.pre.epoch = .ok () → NoFee R t) := by
  refine ⟨⟨?_, ?_⟩, ?_⟩
  · intro hall t ht amount ha
    have hcredited := hall t ht (by rw [ha]; rfl)
    exact (creditedWithin_iff (hr.step_of_mem ht) ha).1 hcredited
  · intro hno t ht hsome
    obtain ⟨amount, ha⟩ := Option.isSome_iff_exists.1 hsome
    exact (creditedWithin_iff (hr.step_of_mem ht) ha).2 (hno t ht amount ha)
  · intro hzero t _ hpass amount _
    unfold FeeRules.withheld
    split
    · next config hconfig =>
      exact hzero _ _ (FeeRules.validateDepositMintExtensions_ok hpass hconfig)
    · rfl

/-! ## A fee that begins in between -/

/-- The newer fee from its first epoch on, and a part of the amount rounded up to at most the
maximum. -/
def sampleRules : FeeRules where
  getEpochFee config epoch :=
    if config.newerTransferFee.epoch ≤ epoch then config.newerTransferFee
    else config.olderTransferFee
  calculateFee fee amount :=
    min fee.maximumFee.toNat ((amount * fee.transferFeeBasisPoints.toNat + 9999) / 10000)

/-- A mint with a fee of 1% from epoch 12 on, in epoch 10. -/
def sample : FeeWorld where
  world := World.sample
  mint := {
    owner := TOKEN_2022_ID
    extensions := some [.metadataPointer, .transferFeeConfig ⟨⟨0, 0, 0⟩, ⟨12, 1000000, 100⟩⟩] }
  epoch := 10

def sampleTxs : List FeeTx := [
  .tx ((Instruction.depositRequestCreate 1000 (.ok ()) 0).sentBy World.alice 100),
  .beginEpoch 12,
  .tx ((Instruction.navUpdate 0).sentBy World.updater 14400),
  .tx ((Instruction.depositRequestResolve World.alice.key).sentBy World.bob 14401)]

def sampleHistory : List (Transition FeeWorld FeeTx) := history (process sampleRules) sample sampleTxs

theorem sample_run : Run (Step sampleRules) sample sampleHistory
    (final (process sampleRules) sample sampleTxs) := run_final (by rfl)

theorem credited_iff_no_fee_sample :
    ((∀ t ∈ sampleHistory, (resolvedAmount t).isSome → CreditedWithin t) ↔
      ∀ t ∈ sampleHistory, NoFee sampleRules t) ∧
    ((∀ fee amount, fee.transferFeeBasisPoints = 0 → sampleRules.calculateFee fee amount = 0) →
      ∀ t ∈ sampleHistory, sampleRules.validateDepositMintExtensions t.pre.mint t.pre.epoch = .ok () →
        NoFee sampleRules t) :=
  credited_iff_no_fee sample_run

theorem late_fee_credits_too_much : sample.Fresh sampleRules ∧
    ∃ t ∈ sampleHistory, resolvedAmount t = some 1000 ∧
      t.pre.world.vault.totalAssets = 0 ∧ t.post.world.vault.totalAssets = 1000 ∧
      t.pre.world.idle = 0 ∧ t.post.world.idle = 990 ∧ ¬ CreditedWithin t :=
  ⟨⟨World.sample_fresh, rfl⟩, _, List.mem_cons_self, rfl, rfl, rfl, rfl, rfl,
    fun h => absurd h.assets (by decide)⟩

end FeeWorld

end HedgeVault
