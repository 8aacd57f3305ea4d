import HedgeVault.Program
import HedgeVault.State.VaultSpec

/-!
# What a transaction can do

`Change w now e w'` says once what a processed transaction did to the world `w`, as
an update of it: each constructor is one kind of step with the vault method and the
token movements it went through, and `e` is the `Event` the transaction stands for.
`process_change` inverts `process`; later proofs split on `Change` and never unfold
a handler.

The inversion needs that the open requests are stored under their owner
(`WellFormed`), which `Change` keeps.
-/

namespace HedgeVault

open Lib

/-- What a transaction is about. -/
inductive Event where
  | depositPut (u : Pubkey) (amount : U64)
  | depositRefund (u : Pubkey)
  | depositSettle (u : Pubkey)
  | withdrawalPut (u : Pubkey) (shares : U64)
  | withdrawalRefund (u : Pubkey)
  | withdrawalSettle (u : Pubkey)
  | navPost (totalAssets : U64) (overridden : Bool)
  | claimManager
  | claimPlatform
  | vaultUpdate (args : VaultUpdateArgs)
  /-- Deposit tokens moved outside the program, `n` of them into the escrow. -/
  | depositGift (n : Nat)
  /-- Shares moved by their holders, `n` of them into the escrow. -/
  | shareGift (n : Nat)
  | shareBurn (n : Nat)
  | other

/-- Whether the step is a post or an update, which may write the fees. -/
def Event.touchesFees : Event → Bool
  | .vaultUpdate _ => true
  | .navPost _ _ => true
  | _ => false

/-- Whether the step is a request or a token movement, which write no more of the vault than its
request counters and its assets. -/
def Event.onlyCounts : Event → Bool
  | .navPost _ _ => false
  | .claimManager => false
  | .claimPlatform => false
  | .vaultUpdate _ => false
  | .other => false
  | _ => true

/-- What arrives in the escrow by a movement to `dst`. -/
def Holder.gift (dst : Holder) (n : Nat) : Nat := if dst = .escrow then n else 0

def Tx.event (tx : Tx) : Event :=
  match tx.ix with
  | .depositRequestCreate amount _ _ => .depositPut tx.signer.key amount
  | .depositRequestCancel => .depositRefund tx.signer.key
  | .depositRequestReject depositor => .depositRefund depositor
  | .depositRequestResolve depositor => .depositSettle depositor
  | .withdrawalRequestCreate shares _ => .withdrawalPut tx.signer.key shares
  | .withdrawalRequestCancel => .withdrawalRefund tx.signer.key
  | .withdrawalRequestReject withdrawer => .withdrawalRefund withdrawer
  | .withdrawalRequestResolve withdrawer => .withdrawalSettle withdrawer
  | .navUpdate totalAssets => .navPost totalAssets false
  | .navOverride totalAssets => .navPost totalAssets true
  | .vaultClaimManagerFee => .claimManager
  | .configClaimPlatformFee => .claimPlatform
  | .vaultUpdate args => .vaultUpdate args
  | .depositTransfer _ dst amount => .depositGift (dst.gift amount)
  | .depositIssue dst amount => .depositGift (dst.gift amount)
  | .depositBurn _ _ => .depositGift 0
  | .shareTransfer _ dst shares => .shareGift (dst.gift shares)
  | .shareBurn _ shares => .shareBurn shares
  | _ => .other

namespace World

/-- The open requests are stored under their owner, name the vault and hold something. -/
structure WellFormed (w : World) : Prop where
  deposit : ∀ u r, w.depositRequests.lookup u = some r →
    r.authority = u ∧ u ≠ Pubkey.default ∧ r.vault = w.key ∧ 0 < r.amount.toNat
  withdrawal : ∀ u r, w.withdrawalRequests.lookup u = some r →
    r.authority = u ∧ u ≠ Pubkey.default ∧ r.vault = w.key ∧ 0 < r.shares.toNat

/-! ## The kinds of steps -/

section

variable (w : World) (now : I64) (u : Pubkey)

structure DepositPut (amount : U64) (r : DepositRequest) (v : Vault) (m : SplMint) : Prop where
  ne_default : u ≠ Pubkey.default
  pos : 0 < amount.toNat
  authority : r.authority = u
  vault_eq : r.vault = w.key
  epoch : r.epoch = Vault.epoch now
  amount_eq : r.amount.toNat = valueAt (·.amount.toNat) w.depositRequests u + amount.toNat
  same_epoch : ∀ q, w.depositRequests.lookup u = some q → q.epoch = Vault.epoch now
  request : w.vault.requestDeposit amount = .ok v
  transfer : w.depositMint.transfer (.wallet u) .escrow amount.toNat = .ok m

structure DepositRefund (r : DepositRequest) (v : Vault) (m : SplMint) : Prop where
  found : w.depositRequests.lookup u = some r
  cancel : w.vault.cancelDeposit r.amount = .ok v
  transfer : w.depositMint.transfer .escrow (.wallet u) r.amount.toNat = .ok m

structure DepositSettle (r : DepositRequest) (v : Vault) (shares : U64) (m s : SplMint) : Prop where
  found : w.depositRequests.lookup u = some r
  resolvable : r.epoch.toNat < w.vault.navEpoch.toNat
  resolve : w.vault.resolveDeposit r.amount = .ok (v, shares)
  transfer : w.depositMint.transfer .escrow .vault r.amount.toNat = .ok m
  mint : w.shareMint.mintTo (.wallet u) shares.toNat = .ok s

structure WithdrawalPut (shares : U64) (r : WithdrawalRequest) (v : Vault) (s : SplMint) : Prop where
  ne_default : u ≠ Pubkey.default
  pos : 0 < shares.toNat
  authority : r.authority = u
  vault_eq : r.vault = w.key
  epoch : r.epoch = Vault.epoch now
  shares_eq : r.shares.toNat = valueAt (·.shares.toNat) w.withdrawalRequests u + shares.toNat
  same_epoch : ∀ q, w.withdrawalRequests.lookup u = some q → q.epoch = Vault.epoch now
  request : ∃ balance, w.vault.requestWithdrawal shares balance = .ok v
  transfer : w.shareMint.transfer (.wallet u) .escrow shares.toNat = .ok s

structure WithdrawalRefund (r : WithdrawalRequest) (v : Vault) (s : SplMint) : Prop where
  found : w.withdrawalRequests.lookup u = some r
  cancel : w.vault.cancelWithdrawal r.shares = .ok v
  transfer : w.shareMint.transfer .escrow (.wallet u) r.shares.toNat = .ok s

structure WithdrawalSettle (r : WithdrawalRequest) (v : Vault) (amount : U64) (m s : SplMint) :
    Prop where
  found : w.withdrawalRequests.lookup u = some r
  resolvable : r.epoch.toNat < w.vault.navEpoch.toNat
  resolve : w.vault.resolveWithdrawal r.shares w.config.maxEpochOutflowBps = .ok (v, amount)
  burn : w.shareMint.burn .escrow r.shares.toNat = .ok s
  transfer : w.depositMint.transfer .vault (.wallet u) amount.toNat = .ok m

end

/-- The deviation limit of a post. -/
def navLimit (w : World) (overridden : Bool) : Option U16 :=
  if overridden then none else some w.config.maxNavDeviationBps

inductive Change (w : World) (now : I64) : Event → World → Prop where
  | depositPut {u amount r v m} (h : w.DepositPut now u amount r v m) :
    Change w now (.depositPut u amount) { w with
      clock := now, vault := v, depositMint := m
      depositRequests := w.depositRequests.insert u r }
  | depositRefund {u r v m} (h : w.DepositRefund u r v m) :
    Change w now (.depositRefund u) { w with
      clock := now, vault := v, depositMint := m
      depositRequests := w.depositRequests.erase u }
  | depositSettle {u r v shares m s} (h : w.DepositSettle u r v shares m s) :
    Change w now (.depositSettle u) { w with
      clock := now, vault := v, depositMint := m, shareMint := s
      depositRequests := w.depositRequests.erase u }
  | withdrawalPut {u shares r v s} (h : w.WithdrawalPut now u shares r v s) :
    Change w now (.withdrawalPut u shares) { w with
      clock := now, vault := v, shareMint := s
      withdrawalRequests := w.withdrawalRequests.insert u r }
  | withdrawalRefund {u r v s} (h : w.WithdrawalRefund u r v s) :
    Change w now (.withdrawalRefund u) { w with
      clock := now, vault := v, shareMint := s
      withdrawalRequests := w.withdrawalRequests.erase u }
  | withdrawalSettle {u r v amount m s} (h : w.WithdrawalSettle u r v amount m s) :
    Change w now (.withdrawalSettle u) { w with
      clock := now, vault := v, depositMint := m, shareMint := s
      withdrawalRequests := w.withdrawalRequests.erase u }
  | navPost {totalAssets overridden v fs} (idle : w.idle ≤ totalAssets.toNat)
      (h : w.vault.updateNav (navUpdateArgs { w with clock := now } totalAssets
        (w.navLimit overridden)) = .ok (v, fs)) :
    Change w now (.navPost totalAssets overridden) { w with clock := now, vault := v }
  | claimManager {k v shares s} (h : w.vault.claimManagerFee = .ok (v, shares))
      (mint : w.shareMint.mintTo (.wallet k) shares.toNat = .ok s) :
    Change w now .claimManager { w with clock := now, vault := v, shareMint := s }
  | claimPlatform {k v shares s} (h : w.vault.claimPlatformFee = .ok (v, shares))
      (mint : w.shareMint.mintTo (.wallet k) shares.toNat = .ok s) :
    Change w now .claimPlatform { w with clock := now, vault := v, shareMint := s }
  | vaultUpdate {args v} (h : w.vault.update args now = .ok v) :
    Change w now (.vaultUpdate args) { w with clock := now, vault := v }
  | depositGift {n m} (h : m.amount .escrow = w.depositMint.amount .escrow + n) :
    Change w now (.depositGift n) { w with clock := now, depositMint := m }
  | shareGift {n s} (supply : s.supply = w.shareMint.supply)
      (h : s.amount .escrow = w.shareMint.amount .escrow + n) :
    Change w now (.shareGift n) { w with clock := now, shareMint := s }
  | shareBurn {n s} (supply : s.supply + n = w.shareMint.supply)
      (h : s.amount .escrow = w.shareMint.amount .escrow) :
    Change w now (.shareBurn n) { w with clock := now, shareMint := s }
  | other {v c ms ss} (h : v = { w.vault with
        status := v.status
        nextStrategyId := v.nextStrategyId
        openStrategyCount := v.openStrategyCount }) :
    Change w now .other { w with
      clock := now, vault := v, config := c, managers := ms, strategies := ss }

/-! ## The settings of a vault -/

end World

namespace Vault

/-- A vault that differs from `v` in its settings and fees alone. -/
def SameButSettings (v v' : Vault) : Prop :=
  v' = { v.withFees v'.performanceFeeBps v'.managementFeeBps v'.pendingPerformanceFeeBps
      v'.pendingManagementFeeBps v'.feeEffectiveTs with
    depositCap := v'.depositCap
    minDeposit := v'.minDeposit
    minWithdrawalShares := v'.minWithdrawalShares
    status := v'.status
    depositPaused := v'.depositPaused
    withdrawalPaused := v'.withdrawalPaused }

theorem askFees_sameButFees {v v' : Vault} {args : VaultUpdateArgs} {now : I64}
    (h : v.askFees args now = .ok v') : v.SameButFees v' := by
  unfold askFees at h
  split at h
  · exact updateFees_sameButFees h
  · rw [pure_eq_ok] at h
    subst h; exact rfl

/-- `vault_update` first settles the fees, then sets the other settings. -/
theorem update_ok {v v' : Vault} {args : VaultUpdateArgs} {now : I64}
    (h : v.update args now = .ok v') :
    ∃ v₁, v.askFees args now = .ok v₁ ∧ v₁.SameButSettings v' ∧
      v'.performanceFeeBps = v₁.performanceFeeBps ∧ v'.managementFeeBps = v₁.managementFeeBps ∧
      v'.pendingPerformanceFeeBps = v₁.pendingPerformanceFeeBps ∧
      v'.pendingManagementFeeBps = v₁.pendingManagementFeeBps ∧
      v'.feeEffectiveTs = v₁.feeEffectiveTs := by
  simp only [update, bind_eq_ok, pure_eq_ok] at h
  obtain ⟨v₁, h1, _, _, _, _, rfl⟩ := h
  exact ⟨v₁, h1, rfl, rfl, rfl, rfl, rfl, rfl⟩

theorem update_sameButSettings {v v' : Vault} {args : VaultUpdateArgs} {now : I64}
    (h : v.update args now = .ok v') : v.SameButSettings v' := by
  obtain ⟨v₁, h1, e, _⟩ := update_ok h
  have e1 := askFees_sameButFees h1
  unfold SameButFees at e1
  unfold SameButSettings at *
  rw [e, e1]; rfl

end Vault

namespace World

/-! ## Inversion of the handlers -/

section

variable {w w' : World} {now : I64} {signer : Signer}

theorem openDeposit_of_wellFormed (wf : w.WellFormed) (u : Pubkey) (rent : U64) :
    (w.openDeposit u rent).authority = u ∧ (w.openDeposit u rent).vault = w.key ∧
    (w.openDeposit u rent).amount.toNat = valueAt (·.amount.toNat) w.depositRequests u ∧
    ∀ q, w.depositRequests.lookup u = some q → w.openDeposit u rent = q := by
  unfold openDeposit valueAt
  cases h : w.depositRequests.lookup u with
  | none =>
    refine ⟨rfl, rfl, rfl, ?_⟩
    intro q hq
    cases hq
  | some q =>
    obtain ⟨ha, hu, hv, _⟩ := wf.deposit u q h
    have hne : q.authority ≠ Pubkey.default := ha ▸ hu
    simp only [Option.getD_some, if_neg hne]
    refine ⟨ha, hv, rfl, ?_⟩
    intro r hr
    cases hr; rfl

theorem openWithdrawal_of_wellFormed (wf : w.WellFormed) (u : Pubkey) (rent : U64) :
    (w.openWithdrawal u rent).authority = u ∧ (w.openWithdrawal u rent).vault = w.key ∧
    (w.openWithdrawal u rent).shares.toNat = valueAt (·.shares.toNat) w.withdrawalRequests u ∧
    ∀ q, w.withdrawalRequests.lookup u = some q → w.openWithdrawal u rent = q := by
  unfold openWithdrawal valueAt
  cases h : w.withdrawalRequests.lookup u with
  | none =>
    refine ⟨rfl, rfl, rfl, ?_⟩
    intro q hq
    cases hq
  | some q =>
    obtain ⟨ha, hu, hv, _⟩ := wf.withdrawal u q h
    have hne : q.authority ≠ Pubkey.default := ha ▸ hu
    simp only [Option.getD_some, if_neg hne]
    refine ⟨ha, hv, rfl, ?_⟩
    intro r hr
    cases hr; rfl

theorem depositRequestCreate_change (wf : w.WellFormed) {amount rent : U64} {verdict : Result Unit}
    (h : depositRequestCreate { w with clock := now } signer amount verdict rent = .ok w') :
    Change w now (.depositPut signer.key amount) w' := by
  simp only [depositRequestCreate, bind_eq_ok, pure_eq_ok, validate_eq_ok, ofToken_eq_ok] at h
  obtain ⟨_, hpos, _, _, _, _, _, _, _, _, r, hr, v, hv, m, hm, rfl⟩ := h
  have wf' : WellFormed { w with clock := now } := ⟨wf.deposit, wf.withdrawal⟩
  obtain ⟨ha, hk, hamount, hold⟩ := openDeposit_of_wellFormed wf' signer.key rent
  obtain ⟨hepoch, hadd, hr'⟩ := DepositRequest.add_ok hr
  exact .depositPut {
    ne_default := signer.ne_default
    pos := hpos
    authority := by rw [hr']; exact ha
    vault_eq := by rw [hr']; exact hk
    epoch := by rw [hr']; exact hepoch
    amount_eq := by rw [← hadd, hamount]
    same_epoch := fun q hq => by rw [← hold q hq]; exact hepoch
    request := hv
    transfer := hm }

theorem withdrawalRequestCreate_change (wf : w.WellFormed) {shares rent : U64}
    (h : withdrawalRequestCreate { w with clock := now } signer shares rent = .ok w') :
    Change w now (.withdrawalPut signer.key shares) w' := by
  simp only [withdrawalRequestCreate, bind_eq_ok, pure_eq_ok, validate_eq_ok, ofToken_eq_ok] at h
  obtain ⟨_, hpos, _, _, _, _, _, _, r, hr, v, hv, s, hs, rfl⟩ := h
  have wf' : WellFormed { w with clock := now } := ⟨wf.deposit, wf.withdrawal⟩
  obtain ⟨ha, hk, hshares, hold⟩ :=
    openWithdrawal_of_wellFormed wf' signer.key rent
  obtain ⟨hepoch, hadd, hr'⟩ := WithdrawalRequest.add_ok hr
  exact .withdrawalPut {
    ne_default := signer.ne_default
    pos := hpos
    authority := by rw [hr']; exact ha
    vault_eq := by rw [hr']; exact hk
    epoch := by rw [hr']; exact hepoch
    shares_eq := by rw [← hadd, hshares]
    same_epoch := fun q hq => by rw [← hold q hq]; exact hepoch
    request := ⟨_, hv⟩
    transfer := hs }

theorem refundDeposit_change {u : Pubkey} {r : DepositRequest}
    (found : w.depositRequests.lookup u = some r)
    (h : refundDeposit { w with clock := now } u r = .ok w') :
    Change w now (.depositRefund u) w' := by
  simp only [refundDeposit, bind_eq_ok, pure_eq_ok, ofToken_eq_ok] at h
  obtain ⟨v, hv, m, hm, rfl⟩ := h
  exact .depositRefund ⟨found, hv, hm⟩

theorem refundWithdrawal_change {u : Pubkey} {r : WithdrawalRequest}
    (found : w.withdrawalRequests.lookup u = some r)
    (h : refundWithdrawal { w with clock := now } u r = .ok w') :
    Change w now (.withdrawalRefund u) w' := by
  simp only [refundWithdrawal, bind_eq_ok, pure_eq_ok, ofToken_eq_ok] at h
  obtain ⟨v, hv, s, hs, rfl⟩ := h
  exact .withdrawalRefund ⟨found, hv, hs⟩

theorem depositRequestCancel_change
    (h : depositRequestCancel { w with clock := now } signer = .ok w') :
    Change w now (.depositRefund signer.key) w' := by
  simp only [depositRequestCancel, bind_eq_ok, load_eq_ok] at h
  obtain ⟨r, found, _, _, _, _, _, _, h⟩ := h
  exact refundDeposit_change found h

theorem depositRequestReject_change {u : Pubkey}
    (h : depositRequestReject { w with clock := now } signer u = .ok w') :
    Change w now (.depositRefund u) w' := by
  simp only [depositRequestReject, bind_eq_ok, load_eq_ok] at h
  obtain ⟨r, found, _, _, _, _, _, _, h⟩ := h
  exact refundDeposit_change found h

theorem withdrawalRequestCancel_change
    (h : withdrawalRequestCancel { w with clock := now } signer = .ok w') :
    Change w now (.withdrawalRefund signer.key) w' := by
  simp only [withdrawalRequestCancel, bind_eq_ok, load_eq_ok] at h
  obtain ⟨r, found, _, _, _, _, _, _, h⟩ := h
  exact refundWithdrawal_change found h

theorem withdrawalRequestReject_change {u : Pubkey}
    (h : withdrawalRequestReject { w with clock := now } signer u = .ok w') :
    Change w now (.withdrawalRefund u) w' := by
  simp only [withdrawalRequestReject, bind_eq_ok, load_eq_ok] at h
  obtain ⟨r, found, _, _, _, _, _, _, h⟩ := h
  exact refundWithdrawal_change found h

theorem depositRequestResolve_change {u : Pubkey}
    (h : depositRequestResolve { w with clock := now } u = .ok w') :
    Change w now (.depositSettle u) w' := by
  simp only [depositRequestResolve, DepositRequest.isResolvable, bind_eq_ok, load_eq_ok,
    pure_eq_ok, validate_eq_ok, ofToken_eq_ok] at h
  obtain ⟨r, found, _, _, _, _, _, _, _, _, _, _, _, hres, ⟨v, shares⟩, hv, m, hm, s, hs, rfl⟩ := h
  exact .depositSettle ⟨found, hres, hv, hm, hs⟩

theorem payOut_eq_ok {m m' : SplMint} {u : Pubkey} {amount : U64} :
    payOut m u amount = .ok m' ↔ m.transfer .vault (.wallet u) amount.toNat = .ok m' := by
  unfold payOut
  split
  · exact ofToken_eq_ok
  · next h =>
    have h0 : amount.toNat = 0 := Nat.eq_zero_of_not_pos h
    rw [pure_eq_ok, h0, Mint.transfer_zero]
    simp

theorem withdrawalRequestResolve_change {u : Pubkey}
    (h : withdrawalRequestResolve { w with clock := now } u = .ok w') :
    Change w now (.withdrawalSettle u) w' := by
  simp only [withdrawalRequestResolve, WithdrawalRequest.isResolvable, bind_eq_ok, load_eq_ok,
    pure_eq_ok, validate_eq_ok, ofToken_eq_ok, payOut_eq_ok] at h
  obtain ⟨r, found, _, _, _, _, _, _, _, _, _, _, _, hres, ⟨v, amount⟩, hv, _, _, s, hs, m, hm,
    rfl⟩ := h
  exact .withdrawalSettle ⟨found, hres, hv, hs, hm⟩

theorem postNav_change {totalAssets : U64} {overridden : Bool}
    (h : postNav { w with clock := now } totalAssets (w.navLimit overridden) = .ok w') :
    Change w now (.navPost totalAssets overridden) w' := by
  simp only [postNav, bind_eq_ok, pure_eq_ok, validate_eq_ok] at h
  obtain ⟨_, hidle, ⟨v, fs⟩, hv, rfl⟩ := h
  have hle : w.idle ≤ totalAssets.toNat := by
    have hle' : (w.depositMint.amountU64 .vault).toNat ≤ totalAssets.toNat := hidle
    rwa [SplMint.amountU64_toNat] at hle'
  exact .navPost hle hv

theorem navUpdate_change {totalAssets : U64}
    (h : navUpdate { w with clock := now } signer totalAssets = .ok w') :
    Change w now (.navPost totalAssets false) w' := by
  simp only [navUpdate, bind_eq_ok] at h
  obtain ⟨_, _, h⟩ := h
  exact postNav_change h

theorem navOverride_change {totalAssets : U64}
    (h : navOverride { w with clock := now } signer totalAssets = .ok w') :
    Change w now (.navPost totalAssets true) w' := by
  simp only [navOverride, bind_eq_ok] at h
  obtain ⟨_, _, h⟩ := h
  exact postNav_change h

theorem vaultClaimManagerFee_change
    (h : vaultClaimManagerFee { w with clock := now } signer = .ok w') :
    Change w now .claimManager w' := by
  simp only [vaultClaimManagerFee, bind_eq_ok, pure_eq_ok, ofToken_eq_ok] at h
  obtain ⟨_, _, ⟨v, shares⟩, hv, s, hs, rfl⟩ := h
  exact .claimManager hv hs

theorem configClaimPlatformFee_change
    (h : configClaimPlatformFee { w with clock := now } signer = .ok w') :
    Change w now .claimPlatform w' := by
  simp only [configClaimPlatformFee, bind_eq_ok, pure_eq_ok, ofToken_eq_ok] at h
  obtain ⟨_, _, ⟨v, shares⟩, hv, s, hs, rfl⟩ := h
  exact .claimPlatform hv hs

theorem vaultUpdate_change {args : VaultUpdateArgs}
    (h : vaultUpdate { w with clock := now } signer args = .ok w') :
    Change w now (.vaultUpdate args) w' := by
  simp only [vaultUpdate, bind_eq_ok, pure_eq_ok] at h
  obtain ⟨_, _, v, hv, rfl⟩ := h
  exact .vaultUpdate hv

/-! The instructions on the settings leave the books of the vault alone. -/

theorem vaultPause_change (h : vaultPause { w with clock := now } signer = .ok w') :
    Change w now .other w' := by
  simp only [vaultPause, bind_eq_ok, pure_eq_ok] at h
  obtain ⟨_, _, rfl⟩ := h
  exact .other rfl

theorem otherVaultInitialize_change {args : VaultInitializeArgs} {verdict : Result Unit}
    (h : otherVaultInitialize { w with clock := now } signer args verdict = .ok w') :
    Change w now .other w' := by
  simp only [otherVaultInitialize, bind_eq_ok, pure_eq_ok] at h
  obtain ⟨⟨c, v⟩, _, rfl⟩ := h
  exact .other rfl

theorem configUpdate_change {args : ConfigUpdateArgs}
    (h : configUpdate { w with clock := now } signer args = .ok w') : Change w now .other w' := by
  simp only [configUpdate, bind_eq_ok, pure_eq_ok] at h
  obtain ⟨_, _, c, _, rfl⟩ := h
  exact .other rfl

theorem configPause_change (h : configPause { w with clock := now } signer = .ok w') :
    Change w now .other w' := by
  simp only [configPause, bind_eq_ok, pure_eq_ok] at h
  obtain ⟨_, _, rfl⟩ := h
  exact .other rfl

theorem adminAccept_change (h : adminAccept { w with clock := now } signer = .ok w') :
    Change w now .other w' := by
  simp only [adminAccept, bind_eq_ok, pure_eq_ok] at h
  obtain ⟨c, _, rfl⟩ := h
  exact .other rfl

theorem configAddManager_change {u : Pubkey}
    (h : configAddManager { w with clock := now } signer u = .ok w') :
    Change w now .other w' := by
  simp only [configAddManager, bind_eq_ok, pure_eq_ok] at h
  obtain ⟨_, _, _, _, rfl⟩ := h
  exact .other rfl

theorem configRemoveManager_change {u : Pubkey}
    (h : configRemoveManager { w with clock := now } signer u = .ok w') :
    Change w now .other w' := by
  simp only [configRemoveManager, bind_eq_ok, pure_eq_ok] at h
  obtain ⟨_, _, _, _, rfl⟩ := h
  exact .other rfl

theorem initializeStrategy_change {ty : StrategyType} {checks : Result Unit}
    (h : initializeStrategy { w with clock := now } signer ty checks = .ok w') :
    Change w now .other w' := by
  simp only [initializeStrategy, Vault.incrementStrategyId, Vault.incrementOpenStrategies,
    bind_eq_ok, pure_eq_ok] at h
  obtain ⟨_, _, _, _, _, _, _, _, _, _, v, ⟨i, _, rfl⟩, v2, ⟨n, _, rfl⟩, rfl⟩ := h
  exact .other rfl

theorem vaultCloseStrategy_change {k : Pubkey} {checks : Result Unit}
    (h : vaultCloseStrategy { w with clock := now } signer k checks = .ok w') :
    Change w now .other w' := by
  simp only [vaultCloseStrategy, Vault.decrementOpenStrategies, bind_eq_ok, pure_eq_ok] at h
  obtain ⟨_, _, _, _, _, _, _, _, _, _, v, ⟨n, _, rfl⟩, _, _, rfl⟩ := h
  exact .other rfl

/-! Token movements outside the program never debit an escrow. -/

theorem validateSource_eq_ok {src : Holder} {r : Unit} :
    validateSource src = .ok r ↔ src ≠ .escrow := by
  unfold validateSource; split <;> simp_all

theorem transfer_gift {m m' : SplMint} {src dst : Holder} {n : Nat} (hsrc : src ≠ .escrow)
    (h : m.transfer src dst n = .ok m') :
    m'.amount .escrow = m.amount .escrow + dst.gift n := by
  unfold Holder.gift
  split
  · next hdst =>
    subst hdst
    obtain ⟨_, _, _, hto, _⟩ := Mint.transfer_ok hsrc h
    exact hto
  · next hdst => exact Mint.transfer_other h hsrc.symm (Ne.symm hdst)

theorem depositTransfer_change {src dst : Holder} {n : Nat}
    (h : depositTransfer { w with clock := now } src dst n = .ok w') :
    Change w now (.depositGift (dst.gift n)) w' := by
  simp only [depositTransfer, bind_eq_ok, pure_eq_ok, ofToken_eq_ok, validateSource_eq_ok] at h
  obtain ⟨_, hsrc, m, hm, rfl⟩ := h
  exact .depositGift (transfer_gift hsrc hm)

theorem depositIssue_change {dst : Holder} {n : Nat}
    (h : depositIssue { w with clock := now } dst n = .ok w') :
    Change w now (.depositGift (dst.gift n)) w' := by
  simp only [depositIssue, bind_eq_ok, pure_eq_ok, ofToken_eq_ok] at h
  obtain ⟨m, hm, rfl⟩ := h
  obtain ⟨_, _, hamount⟩ := Mint.mintTo_ok hm
  refine .depositGift ?_
  rw [hamount, Function.update_apply]
  unfold Holder.gift
  by_cases hd : dst = .escrow
  · subst hd; simp
  · rw [if_neg hd, if_neg (Ne.symm hd)]; rfl

theorem depositBurn_change {src : Holder} {n : Nat}
    (h : depositBurn { w with clock := now } src n = .ok w') :
    Change w now (.depositGift 0) w' := by
  simp only [depositBurn, bind_eq_ok, pure_eq_ok, ofToken_eq_ok, validateSource_eq_ok] at h
  obtain ⟨_, hsrc, m, hm, rfl⟩ := h
  obtain ⟨_, _, hamount⟩ := Mint.burn_ok hm
  refine .depositGift ?_
  rw [hamount, Function.update_of_ne hsrc.symm]; rfl

theorem shareTransfer_change {src dst : Holder} {n : Nat}
    (h : shareTransfer { w with clock := now } src dst n = .ok w') :
    Change w now (.shareGift (dst.gift n)) w' := by
  simp only [shareTransfer, bind_eq_ok, pure_eq_ok, ofToken_eq_ok, validateSource_eq_ok] at h
  obtain ⟨_, hsrc, s, hs, rfl⟩ := h
  exact .shareGift (Mint.transfer_supply hs) (transfer_gift hsrc hs)

theorem shareBurn_change {src : Holder} {n : Nat}
    (h : shareBurn { w with clock := now } src n = .ok w') :
    Change w now (.shareBurn n) w' := by
  simp only [shareBurn, bind_eq_ok, pure_eq_ok, ofToken_eq_ok, validateSource_eq_ok] at h
  obtain ⟨_, hsrc, s, hs, rfl⟩ := h
  obtain ⟨hle, hsupply, hamount⟩ := Mint.burn_ok hs
  have hback := w.shareMint.amount_le src
  refine .shareBurn ?_ ?_
  · show s.supply + n = w.shareMint.supply
    have hle' : n ≤ w.shareMint.amount src := hle
    have hsupply' : s.supply = w.shareMint.supply - n := hsupply
    omega
  · rw [hamount, Function.update_of_ne hsrc.symm]

end

/-- A processed transaction is one of the kinds of steps. -/
theorem process_change {w w' : World} {tx : Tx} (wf : w.WellFormed) (h : w.Step tx w') :
    Change w tx.now tx.event w' := by
  obtain ⟨signer, now, ix⟩ := tx
  change execute { w with clock := now } signer ix = .ok w' at h
  cases ix with
  | depositRequestCreate => exact depositRequestCreate_change wf h
  | depositRequestCancel => exact depositRequestCancel_change h
  | depositRequestReject => exact depositRequestReject_change h
  | depositRequestResolve => exact depositRequestResolve_change h
  | withdrawalRequestCreate => exact withdrawalRequestCreate_change wf h
  | withdrawalRequestCancel => exact withdrawalRequestCancel_change h
  | withdrawalRequestReject => exact withdrawalRequestReject_change h
  | withdrawalRequestResolve => exact withdrawalRequestResolve_change h
  | navUpdate => exact navUpdate_change h
  | navOverride => exact navOverride_change h
  | vaultClaimManagerFee => exact vaultClaimManagerFee_change h
  | configClaimPlatformFee => exact configClaimPlatformFee_change h
  | vaultUpdate => exact vaultUpdate_change h
  | vaultPause => exact vaultPause_change h
  | otherVaultInitialize => exact otherVaultInitialize_change h
  | configUpdate => exact configUpdate_change h
  | configPause => exact configPause_change h
  | adminAccept => exact adminAccept_change h
  | configAddManager => exact configAddManager_change h
  | configRemoveManager => exact configRemoveManager_change h
  | initializeStrategy => exact initializeStrategy_change h
  | vaultCloseStrategy => exact vaultCloseStrategy_change h
  | depositTransfer => exact depositTransfer_change h
  | depositIssue => exact depositIssue_change h
  | depositBurn => exact depositBurn_change h
  | shareTransfer => exact shareTransfer_change h
  | shareBurn => exact shareBurn_change h

/-! ## Well-formed worlds -/

section

variable {w w' w₀ : World} {now : I64} {e : Event}

theorem Change.clock_eq (h : Change w now e w') : w'.clock = now := by
  cases h <;> rfl

theorem Opened.wellFormed (h : w.Opened) : w.WellFormed := by
  refine ⟨?_, ?_⟩
  · intro u r hr
    rw [h.depositRequests, Finmap.lookup_empty] at hr; cases hr
  · intro u r hr
    rw [h.withdrawalRequests, Finmap.lookup_empty] at hr; cases hr

theorem Change.wellFormed (wf : w.WellFormed) (h : Change w now e w') : w'.WellFormed := by
  cases h with
  | @depositPut u amount r v m h =>
    refine ⟨?_, wf.withdrawal⟩
    intro x q hq
    by_cases hx : x = u
    · subst hx
      rw [Finmap.lookup_insert] at hq
      cases hq
      have := h.amount_eq
      have := h.pos
      exact ⟨h.authority, h.ne_default, h.vault_eq, by omega⟩
    · rw [Finmap.lookup_insert_of_ne _ hx] at hq
      exact wf.deposit x q hq
  | @withdrawalPut u shares r v s h =>
    refine ⟨wf.deposit, ?_⟩
    intro x q hq
    by_cases hx : x = u
    · subst hx
      rw [Finmap.lookup_insert] at hq
      cases hq
      have := h.shares_eq
      have := h.pos
      exact ⟨h.authority, h.ne_default, h.vault_eq, by omega⟩
    · rw [Finmap.lookup_insert_of_ne _ hx] at hq
      exact wf.withdrawal x q hq
  | depositRefund h => exact ⟨fun x q hq => wf.deposit x q (lookup_of_erase hq), wf.withdrawal⟩
  | depositSettle h => exact ⟨fun x q hq => wf.deposit x q (lookup_of_erase hq), wf.withdrawal⟩
  | withdrawalRefund h => exact ⟨wf.deposit, fun x q hq => wf.withdrawal x q (lookup_of_erase hq)⟩
  | withdrawalSettle h => exact ⟨wf.deposit, fun x q hq => wf.withdrawal x q (lookup_of_erase hq)⟩
  | _ => exact ⟨wf.deposit, wf.withdrawal⟩

theorem Step.wellFormed {tx : Tx} (wf : w.WellFormed) (h : w.Step tx w') : w'.WellFormed :=
  (process_change wf h).wellFormed wf

end

/-! ## The fields of the vault -/

theorem Change.counters_eq {w w' : World} {now : I64} {e : Event} (h : Change w now e w')
    (he : e.onlyCounts = true) :
    w'.vault = { w.vault with
      totalAssets := w'.vault.totalAssets
      pendingDeposits := w'.vault.pendingDeposits
      pendingWithdrawalShares := w'.vault.pendingWithdrawalShares
      epochOutflow := w'.vault.epochOutflow } := by
  cases h with
  | depositPut h =>
    obtain ⟨_, _, _, _, e⟩ := Vault.requestDeposit_ok h.request
    rw [e]
  | depositRefund h =>
    obtain ⟨_, e⟩ := Vault.cancelDeposit_ok h.cancel
    rw [e]
  | depositSettle h =>
    obtain ⟨_, _, _, _, _, e⟩ := Vault.resolveDeposit_ok h.resolve
    rw [e]
  | withdrawalPut h =>
    obtain ⟨_, hb⟩ := h.request
    obtain ⟨_, e⟩ := Vault.requestWithdrawal_ok hb
    rw [e]
  | withdrawalRefund h =>
    obtain ⟨_, e⟩ := Vault.cancelWithdrawal_ok h.cancel
    rw [e]
  | withdrawalSettle h =>
    obtain ⟨_, _, _, _, e⟩ := Vault.resolveWithdrawal_ok h.resolve
    rw [e]
  | depositGift => rfl
  | shareGift => rfl
  | shareBurn => rfl
  | _ => cases he

/-- The other steps write the counters of the vault and its status alone. -/
theorem Change.vault_eq {w w' : World} {now : I64} {e : Event} (h : Change w now e w')
    (he : e.touchesFees = false) :
    w'.vault = { w.vault with
      totalAssets := w'.vault.totalAssets
      pendingDeposits := w'.vault.pendingDeposits
      pendingWithdrawalShares := w'.vault.pendingWithdrawalShares
      unclaimedManagerFeeShares := w'.vault.unclaimedManagerFeeShares
      unclaimedPlatformFeeShares := w'.vault.unclaimedPlatformFeeShares
      epochOutflow := w'.vault.epochOutflow
      status := w'.vault.status
      nextStrategyId := w'.vault.nextStrategyId
      openStrategyCount := w'.vault.openStrategyCount } := by
  have hcounters := h.counters_eq
  cases h with
  | claimManager h _ =>
    obtain ⟨_, _, rfl⟩ := Vault.claimManagerFee_ok h
    rfl
  | claimPlatform h _ =>
    obtain ⟨_, _, rfl⟩ := Vault.claimPlatformFee_ok h
    rfl
  | other e => rw [e]
  | navPost => cases he
  | vaultUpdate => cases he
  | _ => rw [hcounters rfl]

/-! ## The NAV record -/

/-- What a post of `totalAssets` computes with. -/
def postInputs (w : World) (now : I64) (totalAssets : U64) (overridden : Bool) : NavInputs :=
  w.vault.navInputs (navUpdateArgs { w with clock := now } totalAssets (w.navLimit overridden))

/-- A post, with what it computes from the world before it. -/
theorem Change.posted_ok {w w' : World} {now : I64} {totalAssets : U64} {overridden : Bool}
    (h : Change w now (.navPost totalAssets overridden) w') :
    w' = { w with clock := now, vault := w'.vault } ∧ ∃ fs, Vault.NavPosted w.vault
      (navUpdateArgs { w with clock := now } totalAssets (w.navLimit overridden)) w'.vault fs := by
  cases h with
  | navPost _ h => exact ⟨rfl, _, Vault.updateNav_ok h⟩

theorem Change.accrued {w w' : World} {now : I64} {totalAssets : U64} {overridden : Bool}
    (h : Change w now (.navPost totalAssets overridden) w') :
    w'.vault.unclaimedManagerFeeShares.toNat = w.vault.unclaimedManagerFeeShares.toNat +
      (w.postInputs now totalAssets overridden).managerFeeShares ∧
    w'.vault.unclaimedPlatformFeeShares.toNat = w.vault.unclaimedPlatformFeeShares.toNat +
      (w.postInputs now totalAssets overridden).platformFeeShares := by
  obtain ⟨_, fs, post⟩ := h.posted_ok
  exact ⟨post.unclaimedManager.trans (congrArg _ post.managerFeeShares),
    post.unclaimedPlatform.trans (congrArg _ post.platformFeeShares)⟩

/-- The fields that only a NAV post writes. -/
structure SameNav (v v' : Vault) : Prop where
  navPerShare : v'.navPerShare = v.navPerShare
  highWaterMark : v'.highWaterMark = v.highWaterMark
  navEpoch : v'.navEpoch = v.navEpoch
  lastNavTs : v'.lastNavTs = v.lastNavTs

/-- No step but a NAV post changes the NAV record. -/
theorem Change.sameNav {w w' : World} {now : I64} {e : Event} (h : Change w now e w')
    (hne : ∀ totalAssets overridden, e ≠ .navPost totalAssets overridden) :
    SameNav w.vault w'.vault := by
  have hvault := h.vault_eq
  cases h with
  | navPost => exact absurd rfl (hne _ _)
  | vaultUpdate h =>
    rw [Vault.update_sameButSettings h]
    exact ⟨rfl, rfl, rfl, rfl⟩
  | _ =>
    rw [hvault rfl]
    exact ⟨rfl, rfl, rfl, rfl⟩

end World

end HedgeVault
