import HedgeVault.Lib.Lockstep
import HedgeVault.OrderIndependence

/-!
# Claiming fees never moves the price

A claim moves shares from an unclaimed counter into the share mint and touches nothing
else, so two runs that differ in their claims go through worlds that are `Alike`: equal but
for the clock, the share mint and the two counters, with the same pool of shares. A common
instruction keeps worlds alike and moves the same shares in both (`Alike.step`), so the
runs stay in lockstep (`claims_neutral`).
-/

namespace HedgeVault

open Lib

/-- Who a fee accrues to. -/
inductive Recipient where
  | manager
  | platform
  deriving DecidableEq

/-- The claim of a recipient. -/
def Recipient.claim : Recipient → Event
  | .manager => .claimManager
  | .platform => .claimPlatform

/-- The recipient a claim is for. -/
def Event.claimant : Event → Option Recipient
  | .claimManager => some .manager
  | .claimPlatform => some .platform
  | _ => none

/-- Whether the step posts a NAV. -/
def Event.isPost : Event → Bool
  | .navPost _ _ => true
  | _ => false

theorem Event.isPost_of_isClaim {e : Event} (h : e.isClaim = true) : e.isPost = false := by
  cases e with
  | navPost => cases h
  | _ => rfl

theorem Event.claimant_of_isClaim {e : Event} (h : e.isClaim = false) : e.claimant = none := by
  cases e with
  | claimManager => cases h
  | claimPlatform => cases h
  | _ => rfl

/-- Whether the transaction is any other than a fee claim. -/
def Tx.isCommon (tx : Tx) : Bool := !tx.event.isClaim

theorem Tx.isClaim_of_isCommon {tx : Tx} (h : tx.isCommon = false) : tx.event.isClaim = true := by
  unfold isCommon at h
  rwa [Bool.not_eq_eq_eq_not, Bool.not_false] at h

namespace Vault

/-- A vault with other unclaimed fee shares. -/
def withUnclaimed (v : Vault) (a b : U64) : Vault :=
  { v with unclaimedManagerFeeShares := a, unclaimedPlatformFeeShares := b }

section

variable {v v' : Vault} {a b amount shares : U64} {now : I64}

/-! The methods beside `updateNav` and the claims do not read the unclaimed shares. -/

theorem requestDeposit_withUnclaimed (h : v.requestDeposit amount = .ok v') :
    (v.withUnclaimed a b).requestDeposit amount = .ok (v'.withUnclaimed a b) := by
  simp only [requestDeposit, bind_eq_ok, pure_eq_ok] at h ⊢
  obtain ⟨_, h1, _, h2, p, hp, s, hs, _, h3, rfl⟩ := h
  exact ⟨(), h1, (), h2, p, hp, s, hs, (), h3, rfl⟩

theorem cancelDeposit_withUnclaimed (h : v.cancelDeposit amount = .ok v') :
    (v.withUnclaimed a b).cancelDeposit amount = .ok (v'.withUnclaimed a b) := by
  simp only [cancelDeposit, bind_eq_ok, pure_eq_ok] at h ⊢
  obtain ⟨p, hp, rfl⟩ := h
  exact ⟨p, hp, rfl⟩

theorem resolveDeposit_withUnclaimed (h : v.resolveDeposit amount = .ok (v', shares)) :
    (v.withUnclaimed a b).resolveDeposit amount = .ok (v'.withUnclaimed a b, shares) := by
  simp only [resolveDeposit, bind_eq_ok, pure_eq_ok] at h ⊢
  obtain ⟨_, h1, q, hq, s, hs, _, h2, p, hp, t, ht, e⟩ := h
  obtain ⟨rfl, rfl⟩ := Prod.mk.inj e
  exact ⟨(), h1, q, hq, s, hs, (), h2, p, hp, t, ht, rfl⟩

/-- The share balance only decides whether a small withdrawal is accepted. -/
theorem requestWithdrawal_withUnclaimed {balance balance' : U64} {v₂ : Vault}
    (h : v.requestWithdrawal shares balance = .ok v')
    (h₂ : (v.withUnclaimed a b).requestWithdrawal shares balance' = .ok v₂) :
    v₂ = v'.withUnclaimed a b := by
  simp only [requestWithdrawal, bind_eq_ok, pure_eq_ok] at h h₂
  obtain ⟨_, _, p, hp, rfl⟩ := h
  obtain ⟨_, _, q, hq, rfl⟩ := h₂
  obtain rfl : p = q := Except.ok.inj (hp.symm.trans hq)
  rfl

theorem cancelWithdrawal_withUnclaimed (h : v.cancelWithdrawal shares = .ok v') :
    (v.withUnclaimed a b).cancelWithdrawal shares = .ok (v'.withUnclaimed a b) := by
  simp only [cancelWithdrawal, bind_eq_ok, pure_eq_ok] at h ⊢
  obtain ⟨p, hp, rfl⟩ := h
  exact ⟨p, hp, rfl⟩

theorem resolveWithdrawal_withUnclaimed {bps : U16}
    (h : v.resolveWithdrawal shares bps = .ok (v', amount)) :
    (v.withUnclaimed a b).resolveWithdrawal shares bps = .ok (v'.withUnclaimed a b, amount) := by
  simp only [resolveWithdrawal, bind_eq_ok, pure_eq_ok] at h ⊢
  obtain ⟨p, hp, q, hq, r, hr, c, hc, d, hd, o, ho, t, ht, e⟩ := h
  obtain ⟨rfl, rfl⟩ := Prod.mk.inj e
  exact ⟨p, hp, q, hq, r, hr, c, hc, d, hd, o, ho, t, ht, rfl⟩

theorem setFees_withUnclaimed {p m : U16} (h : v.setFees p m now = .ok v') :
    (v.withUnclaimed a b).setFees p m now = .ok (v'.withUnclaimed a b) := by
  by_cases hle : p ≤ v.performanceFeeBps ∧ m ≤ v.managementFeeBps
  · rw [setFees, if_pos hle] at h
    rw [setFees, if_pos (show p ≤ (v.withUnclaimed a b).performanceFeeBps ∧
      m ≤ (v.withUnclaimed a b).managementFeeBps from hle)]
    cases h; rfl
  · rw [setFees, if_neg hle] at h
    rw [setFees, if_neg (show ¬ (p ≤ (v.withUnclaimed a b).performanceFeeBps ∧
      m ≤ (v.withUnclaimed a b).managementFeeBps) from hle)]
    simp only [bind_eq_ok, pure_eq_ok] at h ⊢
    obtain ⟨ts, hts, rfl⟩ := h
    exact ⟨ts, hts, rfl⟩

theorem update_withUnclaimed {args : VaultUpdateArgs} (h : v.update args now = .ok v') :
    (v.withUnclaimed a b).update args now = .ok (v'.withUnclaimed a b) := by
  simp only [update, bind_eq_ok, pure_eq_ok] at h ⊢
  obtain ⟨v₁, h1, _, h2, _, h3, rfl⟩ := h
  refine ⟨v₁.withUnclaimed a b, ?_, (), h2, (), h3, rfl⟩
  unfold askFees at h1 ⊢
  by_cases hask : args.asksFees
  · rw [if_pos hask] at h1 ⊢
    simp only [updateFees, bind_eq_ok] at h1 ⊢
    obtain ⟨_, hbps, h1⟩ := h1
    exact ⟨(), hbps, setFees_withUnclaimed h1⟩
  · rw [if_neg hask] at h1 ⊢
    cases h1; rfl

theorem applyPendingFees_withUnclaimed :
    (v.withUnclaimed a b).applyPendingFees now = (v.applyPendingFees now).withUnclaimed a b := by
  unfold applyPendingFees
  by_cases hdue : v.feeEffectiveTs ≠ 0 ∧ now.val ≥ v.feeEffectiveTs.val
  · rw [if_pos hdue]
    exact if_pos hdue
  · rw [if_neg hdue]
    exact if_neg hdue

/-- Two posts that compute with the same inputs record the same price and mark. -/
theorem NavPosted.same_price {v₂ v₂' : Vault} {args args₂ : NavUpdateArgs} {fs fs₂ : NavFeeShares}
    (h : NavPosted v args v' fs) (h₂ : NavPosted v₂ args₂ v₂' fs₂)
    (hi : v₂.navInputs args₂ = v.navInputs args) (hmark : v₂.highWaterMark = v.highWaterMark) :
    v₂'.navPerShare = v'.navPerShare ∧ v₂'.highWaterMark = v'.highWaterMark := by
  by_cases hz : (v.navInputs args).supply = 0
  · have hz₂ : (v₂.navInputs args₂).supply = 0 := by rw [hi, hz]
    exact ⟨(h₂.nav_of_zero hz₂).trans (h.nav_of_zero hz).symm,
      (h₂.mark_of_zero hz₂).trans (hmark.trans (h.mark_of_zero hz).symm)⟩
  · have hz₂ : (v₂.navInputs args₂).supply ≠ 0 := by rwa [hi]
    have hnav : v₂'.navPerShare = v'.navPerShare :=
      BitVec.eq_of_toNat_eq (by rw [h₂.nav_of_pos hz₂, h.nav_of_pos hz, hi])
    refine ⟨hnav, BitVec.eq_of_toNat_eq ?_⟩
    rw [h₂.mark_of_pos hz₂, h.mark_of_pos hz, hnav, hmark]

end

end Vault

namespace World

def unclaimed (w : World) : Recipient → Nat
  | .manager => w.vault.unclaimedManagerFeeShares.toNat
  | .platform => w.vault.unclaimedPlatformFeeShares.toNat

/-- A world with another share mint and other unclaimed fee shares. -/
def withShares (w : World) (s : SplMint) (a b : U64) : World :=
  { w with shareMint := s, vault := w.vault.withUnclaimed a b }

/-- Equal but for the clock and where the shares are counted. -/
structure Alike (w v : World) : Prop where
  eq : ∃ c s a b, v = { w.withShares s a b with clock := c }
  shares : v.pool.shares = w.pool.shares

/-- Two steps that add the same to the share mint and to the unclaimed shares. -/
structure SameMove (w w' v v' : World) : Prop where
  minted : ∃ d f, w.shareMint.Moved w'.shareMint d f ∧ v.shareMint.Moved v'.shareMint d f
  accrued : ∀ r, (w'.unclaimed r : Int) - w.unclaimed r = v'.unclaimed r - v.unclaimed r

/-- A step of both worlds that keeps them alike. -/
structure Together (w w' v v' : World) : Prop where
  eq : ∃ s a b, v' = w'.withShares s a b
  move : SameMove w w' v v'

/-- A handler that neither reads nor moves shares. -/
def ShareFree (f : World → Result World) : Prop :=
  ∀ w w' s a b, f w = .ok w' → f (w.withShares s a b) = .ok (w'.withShares s a b)

section

variable {w w' v v' : World} {now : I64} {s : SplMint} {a b : U64} {signer : Signer} {u : Pubkey}

theorem pool_shares_eq (w : World) :
    w.pool.shares = w.shareMint.supply + w.unclaimed .manager + w.unclaimed .platform := rfl

theorem SameMove.shares (h : SameMove w w' v v') (hs : v.pool.shares = w.pool.shares) :
    v'.pool.shares = w'.pool.shares := by
  obtain ⟨d, f, h1, h2⟩ := h.minted
  have hw := h1.supply
  have hv := h2.supply
  have hm := h.accrued .manager
  have hp := h.accrued .platform
  rw [pool_shares_eq, pool_shares_eq] at *
  omega

/-- A handler without shares runs the same beside other shares. -/
theorem ShareFree.together {f : World → Result World} (hf : ShareFree f) (h : f w = .ok w')
    (h' : f (w.withShares s a b) = .ok v') : Together w w' (w.withShares s a b) v' := by
  obtain rfl : w'.withShares s a b = v' := Except.ok.inj ((hf _ _ s a b h).symm.trans h')
  -- beside its own shares it ends in its own result
  have hself : w'.withShares w.shareMint w.vault.unclaimedManagerFeeShares
      w.vault.unclaimedPlatformFeeShares = w' := Except.ok.inj ((hf _ _ _ _ _ h).symm.trans h)
  refine ⟨⟨s, a, b, rfl⟩, ⟨0, 0, ?_, .refl s⟩, ?_⟩
  · rw [← hself]
    exact .refl w.shareMint
  · intro r
    rw [← hself]
    cases r with
    | manager => exact (Int.sub_self _).trans (Int.sub_self _).symm
    | platform => exact (Int.sub_self _).trans (Int.sub_self _).symm

/-! ## The handlers without shares -/

theorem depositRequestCreate_shareFree {amount rent : U64} {verdict : Result Unit} :
    ShareFree (depositRequestCreate · signer amount verdict rent) := by
  intro w w' s a b h
  simp only [depositRequestCreate, bind_eq_ok, pure_eq_ok] at h ⊢
  obtain ⟨_, h1, _, h2, _, h3, _, h4, _, h5, r, hr, v, hv, m, hm, rfl⟩ := h
  exact ⟨(), h1, (), h2, (), h3, (), h4, (), h5, r, hr, _,
    Vault.requestDeposit_withUnclaimed hv, m, hm, rfl⟩

theorem refundDeposit_shareFree {r : DepositRequest} : ShareFree (refundDeposit · u r) := by
  intro w w' s a b h
  simp only [refundDeposit, bind_eq_ok, pure_eq_ok] at h ⊢
  obtain ⟨v, hv, m, hm, rfl⟩ := h
  exact ⟨_, Vault.cancelDeposit_withUnclaimed hv, m, hm, rfl⟩

theorem depositRequestCancel_shareFree : ShareFree (depositRequestCancel · signer) := by
  intro w w' s a b h
  simp only [depositRequestCancel, bind_eq_ok] at h ⊢
  obtain ⟨r, hr, _, h1, _, h2, _, h3, h⟩ := h
  exact ⟨r, hr, (), h1, (), h2, (), h3, refundDeposit_shareFree _ _ s a b h⟩

theorem depositRequestReject_shareFree : ShareFree (depositRequestReject · signer u) := by
  intro w w' s a b h
  simp only [depositRequestReject, bind_eq_ok] at h ⊢
  obtain ⟨r, hr, _, h1, _, h2, _, h3, h⟩ := h
  exact ⟨r, hr, (), h1, (), h2, (), h3, refundDeposit_shareFree _ _ s a b h⟩

theorem vaultUpdate_shareFree {args : VaultUpdateArgs} :
    ShareFree (vaultUpdate · signer args) := by
  intro w w' s a b h
  simp only [vaultUpdate, bind_eq_ok, pure_eq_ok] at h ⊢
  obtain ⟨_, h1, v, hv, rfl⟩ := h
  exact ⟨(), h1, _, Vault.update_withUnclaimed hv, rfl⟩

theorem vaultPause_shareFree : ShareFree (vaultPause · signer) := by
  intro w w' s a b h
  simp only [vaultPause, bind_eq_ok, pure_eq_ok] at h ⊢
  obtain ⟨_, h1, rfl⟩ := h
  exact ⟨(), h1, rfl⟩

theorem otherVaultInitialize_shareFree {args : VaultInitializeArgs} {verdict : Result Unit} :
    ShareFree (otherVaultInitialize · signer args verdict) := by
  intro w w' s a b h
  simp only [otherVaultInitialize, bind_eq_ok, pure_eq_ok] at h ⊢
  obtain ⟨p, hp, rfl⟩ := h
  exact ⟨p, hp, rfl⟩

theorem configUpdate_shareFree {args : ConfigUpdateArgs} :
    ShareFree (configUpdate · signer args) := by
  intro w w' s a b h
  simp only [configUpdate, bind_eq_ok, pure_eq_ok] at h ⊢
  obtain ⟨_, h1, c, hc, rfl⟩ := h
  exact ⟨(), h1, c, hc, rfl⟩

theorem configPause_shareFree : ShareFree (configPause · signer) := by
  intro w w' s a b h
  simp only [configPause, bind_eq_ok, pure_eq_ok] at h ⊢
  obtain ⟨_, h1, rfl⟩ := h
  exact ⟨(), h1, rfl⟩

theorem adminAccept_shareFree : ShareFree (adminAccept · signer) := by
  intro w w' s a b h
  simp only [adminAccept, bind_eq_ok, pure_eq_ok] at h ⊢
  obtain ⟨c, hc, rfl⟩ := h
  exact ⟨c, hc, rfl⟩

theorem configAddManager_shareFree : ShareFree (configAddManager · signer u) := by
  intro w w' s a b h
  simp only [configAddManager, bind_eq_ok, pure_eq_ok] at h ⊢
  obtain ⟨_, h1, _, h2, rfl⟩ := h
  exact ⟨(), h1, (), h2, rfl⟩

theorem configRemoveManager_shareFree : ShareFree (configRemoveManager · signer u) := by
  intro w w' s a b h
  simp only [configRemoveManager, bind_eq_ok, pure_eq_ok] at h ⊢
  obtain ⟨_, h1, _, h2, rfl⟩ := h
  exact ⟨(), h1, (), h2, rfl⟩

theorem initializeStrategy_shareFree {ty : StrategyType} {checks : Result Unit} :
    ShareFree (initializeStrategy · signer ty checks) := by
  intro w w' s a b h
  simp only [initializeStrategy, Vault.incrementStrategyId, Vault.incrementOpenStrategies,
    bind_eq_ok, pure_eq_ok] at h ⊢
  obtain ⟨_, h1, _, h2, _, h3, _, h4, _, h5, _, ⟨i, hi, rfl⟩, _, ⟨n, hn, rfl⟩, rfl⟩ := h
  exact ⟨(), h1, (), h2, (), h3, (), h4, (), h5, _, ⟨i, hi, rfl⟩, _, ⟨n, hn, rfl⟩, rfl⟩

theorem vaultCloseStrategy_shareFree {checks : Result Unit} :
    ShareFree (vaultCloseStrategy · signer u checks) := by
  intro w w' s a b h
  simp only [vaultCloseStrategy, Vault.decrementOpenStrategies, bind_eq_ok, pure_eq_ok] at h ⊢
  obtain ⟨r, hr, _, h1, _, h2, _, h3, _, h4, _, ⟨n, hn, rfl⟩, _, h5, rfl⟩ := h
  exact ⟨r, hr, (), h1, (), h2, (), h3, (), h4, _, ⟨n, hn, rfl⟩, (), h5, rfl⟩

theorem depositTransfer_shareFree {src dst : Holder} {n : Nat} :
    ShareFree (depositTransfer · src dst n) := by
  intro w w' s a b h
  simp only [depositTransfer, bind_eq_ok, pure_eq_ok] at h ⊢
  obtain ⟨_, h1, m, hm, rfl⟩ := h
  exact ⟨(), h1, m, hm, rfl⟩

theorem depositIssue_shareFree {dst : Holder} {n : Nat} : ShareFree (depositIssue · dst n) := by
  intro w w' s a b h
  simp only [depositIssue, bind_eq_ok, pure_eq_ok] at h ⊢
  obtain ⟨m, hm, rfl⟩ := h
  exact ⟨m, hm, rfl⟩

theorem depositBurn_shareFree {src : Holder} {n : Nat} : ShareFree (depositBurn · src n) := by
  intro w w' s a b h
  simp only [depositBurn, bind_eq_ok, pure_eq_ok] at h ⊢
  obtain ⟨_, h1, m, hm, rfl⟩ := h
  exact ⟨(), h1, m, hm, rfl⟩

/-! ## The handlers that move shares -/

theorem together_of_shares {w₁ : World} {n : SplMint} {d : Int} {f : Holder → Int}
    (hw : w.shareMint.Moved w₁.shareMint d f) (hv : s.Moved n d f)
    (hm : w₁.vault.unclaimedManagerFeeShares = w.vault.unclaimedManagerFeeShares)
    (hp : w₁.vault.unclaimedPlatformFeeShares = w.vault.unclaimedPlatformFeeShares)
    (hv' : v' = w₁.withShares n a b) : Together w w₁ (w.withShares s a b) v' := by
  subst hv'
  refine ⟨⟨n, a, b, rfl⟩, ⟨d, f, hw, hv⟩, ?_⟩
  intro r
  cases r with
  | manager =>
    show (w₁.vault.unclaimedManagerFeeShares.toNat : Int) - w.vault.unclaimedManagerFeeShares.toNat =
      a.toNat - a.toNat
    rw [hm, Int.sub_self, Int.sub_self]
  | platform =>
    show (w₁.vault.unclaimedPlatformFeeShares.toNat : Int) -
      w.vault.unclaimedPlatformFeeShares.toNat = b.toNat - b.toNat
    rw [hp, Int.sub_self, Int.sub_self]

theorem depositRequestResolve_together (h : w.depositRequestResolve u = .ok w')
    (h' : (w.withShares s a b).depositRequestResolve u = .ok v') :
    Together w w' (w.withShares s a b) v' := by
  simp only [depositRequestResolve, bind_eq_ok, pure_eq_ok, ofToken_eq_ok] at h h'
  obtain ⟨r, hr, _, _, _, _, _, _, _, _, _, _, _, _, ⟨x, n⟩, hx, m, hm, t, ht, rfl⟩ := h
  obtain ⟨r₂, hr₂, _, _, _, _, _, _, _, _, _, _, _, _, ⟨x₂, n₂⟩, hx₂, m₂, hm₂, t₂, ht₂, rfl⟩ := h'
  obtain rfl : r = r₂ := Except.ok.inj (hr.symm.trans hr₂)
  have hx' := Vault.resolveDeposit_withUnclaimed (a := a) (b := b) hx
  obtain ⟨rfl, rfl⟩ := Prod.mk.inj (Except.ok.inj (hx'.symm.trans hx₂))
  obtain rfl : m = m₂ := Except.ok.inj (hm.symm.trans hm₂)
  obtain ⟨_, _, _, _, _, e⟩ := Vault.resolveDeposit_ok hx
  exact together_of_shares (Mint.mintTo_moved ht) (Mint.mintTo_moved ht₂) (by rw [e]) (by rw [e]) rfl

theorem withdrawalRequestCreate_together {shares rent : U64}
    (h : w.withdrawalRequestCreate signer shares rent = .ok w')
    (h' : (w.withShares s a b).withdrawalRequestCreate signer shares rent = .ok v') :
    Together w w' (w.withShares s a b) v' := by
  simp only [withdrawalRequestCreate, bind_eq_ok, pure_eq_ok, ofToken_eq_ok] at h h'
  obtain ⟨_, _, _, _, _, _, _, _, r, hr, x, hx, t, ht, rfl⟩ := h
  obtain ⟨_, _, _, _, _, _, _, _, r₂, hr₂, x₂, hx₂, t₂, ht₂, rfl⟩ := h'
  obtain rfl : r = r₂ := Except.ok.inj (hr.symm.trans hr₂)
  obtain rfl := Vault.requestWithdrawal_withUnclaimed hx hx₂
  obtain ⟨_, e⟩ := Vault.requestWithdrawal_ok hx
  exact together_of_shares (Mint.transfer_moved ht) (Mint.transfer_moved ht₂) (by rw [e])
    (by rw [e]) rfl

theorem refundWithdrawal_together {r : WithdrawalRequest} (h : w.refundWithdrawal u r = .ok w')
    (h' : (w.withShares s a b).refundWithdrawal u r = .ok v') :
    Together w w' (w.withShares s a b) v' := by
  simp only [refundWithdrawal, bind_eq_ok, pure_eq_ok, ofToken_eq_ok] at h h'
  obtain ⟨x, hx, t, ht, rfl⟩ := h
  obtain ⟨x₂, hx₂, t₂, ht₂, rfl⟩ := h'
  have hx' := Vault.cancelWithdrawal_withUnclaimed (a := a) (b := b) hx
  obtain rfl := Except.ok.inj (hx'.symm.trans hx₂)
  obtain ⟨_, e⟩ := Vault.cancelWithdrawal_ok hx
  exact together_of_shares (Mint.transfer_moved ht) (Mint.transfer_moved ht₂) (by rw [e])
    (by rw [e]) rfl

theorem withdrawalRequestCancel_together (h : w.withdrawalRequestCancel signer = .ok w')
    (h' : (w.withShares s a b).withdrawalRequestCancel signer = .ok v') :
    Together w w' (w.withShares s a b) v' := by
  simp only [withdrawalRequestCancel, bind_eq_ok] at h h'
  obtain ⟨r, hr, _, _, _, _, _, _, h⟩ := h
  obtain ⟨r₂, hr₂, _, _, _, _, _, _, h'⟩ := h'
  obtain rfl : r = r₂ := Except.ok.inj (hr.symm.trans hr₂)
  exact refundWithdrawal_together h h'

theorem withdrawalRequestReject_together (h : w.withdrawalRequestReject signer u = .ok w')
    (h' : (w.withShares s a b).withdrawalRequestReject signer u = .ok v') :
    Together w w' (w.withShares s a b) v' := by
  simp only [withdrawalRequestReject, bind_eq_ok] at h h'
  obtain ⟨r, hr, _, _, _, _, _, _, h⟩ := h
  obtain ⟨r₂, hr₂, _, _, _, _, _, _, h'⟩ := h'
  obtain rfl : r = r₂ := Except.ok.inj (hr.symm.trans hr₂)
  exact refundWithdrawal_together h h'

theorem withdrawalRequestResolve_together (h : w.withdrawalRequestResolve u = .ok w')
    (h' : (w.withShares s a b).withdrawalRequestResolve u = .ok v') :
    Together w w' (w.withShares s a b) v' := by
  simp only [withdrawalRequestResolve, bind_eq_ok, pure_eq_ok, ofToken_eq_ok] at h h'
  obtain ⟨r, hr, _, _, _, _, _, _, _, _, _, _, _, _, ⟨x, n⟩, hx, _, _, t, ht, m, hm, rfl⟩ := h
  obtain ⟨r₂, hr₂, _, _, _, _, _, _, _, _, _, _, _, _, ⟨x₂, n₂⟩, hx₂, _, _, t₂, ht₂, m₂, hm₂,
    rfl⟩ := h'
  obtain rfl : r = r₂ := Except.ok.inj (hr.symm.trans hr₂)
  have hx' := Vault.resolveWithdrawal_withUnclaimed (a := a) (b := b) hx
  obtain ⟨rfl, rfl⟩ := Prod.mk.inj (Except.ok.inj (hx'.symm.trans hx₂))
  obtain rfl : m = m₂ := Except.ok.inj (hm.symm.trans hm₂)
  obtain ⟨_, _, _, _, e⟩ := Vault.resolveWithdrawal_ok hx
  exact together_of_shares (Mint.burn_moved ht) (Mint.burn_moved ht₂) (by rw [e]) (by rw [e]) rfl

theorem shareTransfer_together {src dst : Holder} {n : Nat} (h : w.shareTransfer src dst n = .ok w')
    (h' : (w.withShares s a b).shareTransfer src dst n = .ok v') :
    Together w w' (w.withShares s a b) v' := by
  simp only [shareTransfer, bind_eq_ok, pure_eq_ok, ofToken_eq_ok] at h h'
  obtain ⟨_, _, t, ht, rfl⟩ := h
  obtain ⟨_, _, t₂, ht₂, rfl⟩ := h'
  exact together_of_shares (Mint.transfer_moved ht) (Mint.transfer_moved ht₂) rfl rfl rfl

theorem shareBurn_together {src : Holder} {n : Nat} (h : w.shareBurn src n = .ok w')
    (h' : (w.withShares s a b).shareBurn src n = .ok v') :
    Together w w' (w.withShares s a b) v' := by
  simp only [shareBurn, bind_eq_ok, pure_eq_ok, ofToken_eq_ok] at h h'
  obtain ⟨_, _, t, ht, rfl⟩ := h
  obtain ⟨_, _, t₂, ht₂, rfl⟩ := h'
  exact together_of_shares (Mint.burn_moved ht) (Mint.burn_moved ht₂) rfl rfl rfl

/-! ## A post reads the sum of the shares -/

theorem navInputs_withShares (totalAssets : U64) (limit : Option U16)
    (hs : (w.withShares s a b).pool.shares = w.pool.shares) :
    (w.withShares s a b).vault.navInputs ((w.withShares s a b).navUpdateArgs totalAssets limit) =
      w.vault.navInputs (w.navUpdateArgs totalAssets limit) := by
  have hsupply : s.supplyU64.toNat + a.toNat + b.toNat = w.shareMint.supplyU64.toNat +
      w.vault.unclaimedManagerFeeShares.toNat + w.vault.unclaimedPlatformFeeShares.toNat := by
    rw [SplMint.supplyU64_toNat, SplMint.supplyU64_toNat]
    exact hs
  unfold Vault.navInputs
  exact congrArg (fun supply => NavInputs.mk _ supply _ _ _ _ _ _) hsupply

/-- Beside other shares that add up to the same, a post computes the same. -/
theorem postNav_together {totalAssets : U64} {limit : Option U16}
    (hs : (w.withShares s a b).pool.shares = w.pool.shares)
    (h : w.postNav totalAssets limit = .ok w')
    (h' : (w.withShares s a b).postNav totalAssets limit = .ok v') :
    Together w w' (w.withShares s a b) v' := by
  simp only [postNav, bind_eq_ok, pure_eq_ok] at h h'
  obtain ⟨_, _, ⟨x, fs⟩, hx, rfl⟩ := h
  obtain ⟨_, _, ⟨y, gs⟩, hy, rfl⟩ := h'
  have px := Vault.updateNav_ok hx
  have py := Vault.updateNav_ok hy
  have hi := navInputs_withShares totalAssets limit hs
  obtain ⟨hnav, hmark⟩ := px.same_price py hi rfl
  have hmanager := py.managerFeeShares
  have hplatform := py.platformFeeShares
  rw [hi, ← px.managerFeeShares] at hmanager
  rw [hi, ← px.platformFeeShares] at hplatform
  refine ⟨⟨s, y.unclaimedManagerFeeShares, y.unclaimedPlatformFeeShares, ?_⟩,
    ⟨0, 0, .refl _, .refl s⟩, ?_⟩
  · have e : y = x.withUnclaimed y.unclaimedManagerFeeShares y.unclaimedPlatformFeeShares := by
      have hfees : (w.withShares s a b).vault.applyPendingFees
          ((w.withShares s a b).navUpdateArgs totalAssets limit).now =
          (w.vault.applyPendingFees w.clock).withUnclaimed a b :=
        Vault.applyPendingFees_withUnclaimed
      refine py.eq.trans (Eq.trans ?_ (congrArg (·.withUnclaimed y.unclaimedManagerFeeShares
        y.unclaimedPlatformFeeShares) px.eq).symm)
      rw [hfees, hnav, hmark]
      rfl
    exact congrArg (fun v => { w with vault := v, shareMint := s }) e
  · intro r
    have hxm := px.unclaimedManager
    have hym := py.unclaimedManager
    have hxp := px.unclaimedPlatform
    have hyp := py.unclaimedPlatform
    cases r with
    | manager =>
      show (x.unclaimedManagerFeeShares.toNat : Int) - w.vault.unclaimedManagerFeeShares.toNat =
        y.unclaimedManagerFeeShares.toNat - (w.withShares s a b).vault.unclaimedManagerFeeShares.toNat
      omega
    | platform =>
      show (x.unclaimedPlatformFeeShares.toNat : Int) - w.vault.unclaimedPlatformFeeShares.toNat =
        y.unclaimedPlatformFeeShares.toNat -
          (w.withShares s a b).vault.unclaimedPlatformFeeShares.toNat
      omega

theorem navUpdate_together {totalAssets : U64}
    (hs : (w.withShares s a b).pool.shares = w.pool.shares)
    (h : w.navUpdate signer totalAssets = .ok w')
    (h' : (w.withShares s a b).navUpdate signer totalAssets = .ok v') :
    Together w w' (w.withShares s a b) v' := by
  simp only [navUpdate, bind_eq_ok] at h h'
  obtain ⟨_, _, h⟩ := h
  obtain ⟨_, _, h'⟩ := h'
  exact postNav_together hs h h'

theorem navOverride_together {totalAssets : U64}
    (hs : (w.withShares s a b).pool.shares = w.pool.shares)
    (h : w.navOverride signer totalAssets = .ok w')
    (h' : (w.withShares s a b).navOverride signer totalAssets = .ok v') :
    Together w w' (w.withShares s a b) v' := by
  simp only [navOverride, bind_eq_ok] at h h'
  obtain ⟨_, _, h⟩ := h
  obtain ⟨_, _, h'⟩ := h'
  exact postNav_together hs h h'

/-! ## One instruction -/

/-- Beside other shares that add up to the same, an instruction that is no claim keeps the
worlds alike and moves the same shares. -/
theorem execute_together {ix : Instruction}
    (hc : Tx.isCommon ⟨signer, now, ix⟩ = true)
    (hs : (w.withShares s a b).pool.shares = w.pool.shares)
    (h : w.execute signer ix = .ok w') (h' : (w.withShares s a b).execute signer ix = .ok v') :
    Together w w' (w.withShares s a b) v' := by
  cases ix with
  | depositRequestCreate => exact depositRequestCreate_shareFree.together h h'
  | depositRequestCancel => exact depositRequestCancel_shareFree.together h h'
  | depositRequestReject => exact depositRequestReject_shareFree.together h h'
  | depositRequestResolve => exact depositRequestResolve_together h h'
  | withdrawalRequestCreate => exact withdrawalRequestCreate_together h h'
  | withdrawalRequestCancel => exact withdrawalRequestCancel_together h h'
  | withdrawalRequestReject => exact withdrawalRequestReject_together h h'
  | withdrawalRequestResolve => exact withdrawalRequestResolve_together h h'
  | navUpdate => exact navUpdate_together hs h h'
  | navOverride => exact navOverride_together hs h h'
  | vaultClaimManagerFee => cases hc
  | configClaimPlatformFee => cases hc
  | vaultUpdate => exact vaultUpdate_shareFree.together h h'
  | vaultPause => exact vaultPause_shareFree.together h h'
  | otherVaultInitialize => exact otherVaultInitialize_shareFree.together h h'
  | configUpdate => exact configUpdate_shareFree.together h h'
  | configPause => exact configPause_shareFree.together h h'
  | adminAccept => exact adminAccept_shareFree.together h h'
  | configAddManager => exact configAddManager_shareFree.together h h'
  | configRemoveManager => exact configRemoveManager_shareFree.together h h'
  | initializeStrategy => exact initializeStrategy_shareFree.together h h'
  | vaultCloseStrategy => exact vaultCloseStrategy_shareFree.together h h'
  | depositTransfer => exact depositTransfer_shareFree.together h h'
  | depositIssue => exact depositIssue_shareFree.together h h'
  | depositBurn => exact depositBurn_shareFree.together h h'
  | shareTransfer => exact shareTransfer_together h h'
  | shareBurn => exact shareBurn_together h h'

end

/-! ## Two runs -/

/-- What one recipient's claims of a history minted. -/
def claimed (r : Recipient) (h : List (Transition World Tx)) : Int :=
  (h.map fun t => if t.label.event.claimant = some r then
    (t.post.shareMint.supply : Int) - t.pre.shareMint.supply else 0).sum

/-- The fee shares a step accrues to a recipient. -/
def accruedBy (r : Recipient) (t : Transition World Tx) : Int :=
  if t.label.event.isPost then (t.post.unclaimed r : Int) - t.pre.unclaimed r else 0

def accrued (r : Recipient) (h : List (Transition World Tx)) : Int := (h.map (accruedBy r)).sum

/-- The same instruction in two runs: what it recorded, accrued and paid out. -/
structure SameOutcome (t₁ t₂ : Transition World Tx) : Prop where
  label : t₁.label = t₂.label
  navPerShare : t₁.post.vault.navPerShare = t₂.post.vault.navPerShare
  highWaterMark : t₁.post.vault.highWaterMark = t₂.post.vault.highWaterMark
  totalAssets : t₁.post.vault.totalAssets = t₂.post.vault.totalAssets
  accrued : ∀ r, accruedBy r t₁ = accruedBy r t₂
  received : ∀ u, received u t₁ = received u t₂

section

variable {w w' v v' w₀ w₁ w₂ : World} {now : I64} {e : Event} {tx : Tx}
  {h h₁ h₂ : List (Transition World Tx)}

/-! A claim is silent: it keeps the world alike. -/

theorem Alike.refl (w : World) : Alike w w := ⟨⟨w.clock, _, _, _, rfl⟩, rfl⟩

theorem Alike.symm (hA : Alike w v) : Alike v w := by
  obtain ⟨⟨c, s, a, b, rfl⟩, hs⟩ := hA
  exact ⟨⟨w.clock, _, _, _, rfl⟩, hs.symm⟩

theorem Alike.trans (h₁ : Alike w v) (h₂ : Alike v v') : Alike w v' := by
  obtain ⟨⟨c, s, a, b, rfl⟩, hs⟩ := h₁
  obtain ⟨⟨c', s', a', b', rfl⟩, hs'⟩ := h₂
  exact ⟨⟨c', s', a', b', rfl⟩, hs'.trans hs⟩

theorem Change.claim_alike (he : e.isClaim = true) (h : Change w now e w') : Alike w w' := by
  refine ⟨?_, h.claim_pool he ▸ rfl⟩
  cases h with
  | @claimManager k x shares s h mint =>
    obtain ⟨_, _, rfl⟩ := Vault.claimManagerFee_ok h
    exact ⟨now, s, 0, w.vault.unclaimedPlatformFeeShares, rfl⟩
  | @claimPlatform k x shares s h mint =>
    obtain ⟨_, _, rfl⟩ := Vault.claimPlatformFee_ok h
    exact ⟨now, s, w.vault.unclaimedManagerFeeShares, 0, rfl⟩
  | _ => cases he

theorem Step.claim_alike (wf : w.WellFormed) (hc : tx.isCommon = false) (st : w.Step tx w') :
    Alike w w' :=
  (process_change wf st).claim_alike (Tx.isClaim_of_isCommon hc)

/-! A common instruction has the same outcome in both. -/

theorem Together.outcome (tx : Tx) (h : Together w w' v v') (hs : v.pool.shares = w.pool.shares)
    (hv : ∃ s a b, v = w.withShares s a b) :
    Alike w' v' ∧ SameOutcome ⟨w, tx, w'⟩ ⟨v, tx, v'⟩ := by
  obtain ⟨⟨s', a', b', rfl⟩, hm⟩ := h
  obtain ⟨s, a, b, rfl⟩ := hv
  refine ⟨⟨⟨w'.clock, s', a', b', rfl⟩, hm.shares hs⟩, rfl, rfl, rfl, rfl, ?_, ?_⟩
  · intro r
    unfold accruedBy
    split
    · exact hm.accrued r
    · rfl
  · intro u
    obtain ⟨d, f, hw, hv⟩ := hm.minted
    have h1 := hw.amount (.wallet u)
    have h2 := hv.amount (.wallet u)
    have hshares : (w'.shareMint.amount (.wallet u) : Int) - w.shareMint.amount (.wallet u) =
        s'.amount (.wallet u) - s.amount (.wallet u) := by
      have h2' : (s'.amount (.wallet u) : Int) = s.amount (.wallet u) + f (.wallet u) := h2
      omega
    exact Prod.ext hshares rfl

theorem Alike.step (hA : Alike w v) (hc : tx.isCommon = true) (st : w.Step tx w')
    (st' : v.Step tx v') : Alike w' v' ∧ SameOutcome ⟨w, tx, w'⟩ ⟨v, tx, v'⟩ := by
  obtain ⟨⟨c, s, a, b, rfl⟩, hs⟩ := hA
  -- both handlers run at the clock of the transaction
  have ht : Together { w with clock := tx.now } w' (withShares { w with clock := tx.now } s a b) v' :=
    execute_together hc hs st st'
  obtain ⟨hA', ho⟩ := ht.outcome tx hs ⟨s, a, b, rfl⟩
  exact ⟨hA', ⟨rfl, ho.navPerShare, ho.highWaterMark, ho.totalAssets, ho.accrued, ho.received⟩⟩

theorem claims_lockstep : Lockstep Step Step Tx.isCommon
    (fun w v => Alike w v ∧ w.WellFormed ∧ v.WellFormed) SameOutcome where
  silent₁ := by
    intro w v tx w' ⟨hA, hw, hv⟩ hc st
    exact ⟨(Step.claim_alike hw hc st).symm.trans hA, st.wellFormed hw, hv⟩
  silent₂ := by
    intro w v tx v' ⟨hA, hw, hv⟩ hc st
    exact ⟨hA.trans (Step.claim_alike hv hc st), hw, st.wellFormed hv⟩
  both := by
    intro w v tx w' v' ⟨hA, hw, hv⟩ hc st st'
    obtain ⟨hA', ho⟩ := hA.step hc st st'
    exact ⟨⟨hA', st.wellFormed hw, st'.wellFormed hv⟩, ho⟩

/-! ## The books of a recipient -/

theorem Change.unclaimed_eq (h : Change w now e w') (hp : e.isPost = false)
    (hc : e.isClaim = false) (r : Recipient) : w'.unclaimed r = w.unclaimed r := by
  have hv : w'.vault.unclaimedManagerFeeShares = w.vault.unclaimedManagerFeeShares ∧
      w'.vault.unclaimedPlatformFeeShares = w.vault.unclaimedPlatformFeeShares := by
    have hcounters := h.counters_eq
    cases h with
    | vaultUpdate h =>
      rw [Vault.update_sameButSettings h]
      exact ⟨rfl, rfl⟩
    | other e =>
      rw [e]
      exact ⟨rfl, rfl⟩
    | navPost => cases hp
    | claimManager => cases hc
    | claimPlatform => cases hc
    | _ =>
      rw [hcounters rfl]
      exact ⟨rfl, rfl⟩
  cases r with
  | manager => exact congrArg BitVec.toNat hv.1
  | platform => exact congrArg BitVec.toNat hv.2

/-- The shares a claim mints for a recipient. -/
theorem Change.claimed_eq (h : Change w now e w') (hc : e.isClaim = true) (r : Recipient) :
    (if e.claimant = some r then (w'.shareMint.supply : Int) - w.shareMint.supply else 0) +
      w'.unclaimed r = w.unclaimed r := by
  cases h with
  | @claimManager k x shares s h mint =>
    obtain ⟨rfl, _, rfl⟩ := Vault.claimManagerFee_ok h
    obtain ⟨_, hsupply, _⟩ := Mint.mintTo_ok mint
    cases r with
    | manager =>
      show (s.supply : Int) - w.shareMint.supply + 0 = w.vault.unclaimedManagerFeeShares.toNat
      omega
    | platform => exact Int.zero_add _
  | @claimPlatform k x shares s h mint =>
    obtain ⟨rfl, _, rfl⟩ := Vault.claimPlatformFee_ok h
    obtain ⟨_, hsupply, _⟩ := Mint.mintTo_ok mint
    cases r with
    | manager => exact Int.zero_add _
    | platform =>
      show (s.supply : Int) - w.shareMint.supply + 0 = w.vault.unclaimedPlatformFeeShares.toNat
      omega
  | _ => cases hc

/-- What is claimed leaves the unclaimed shares, what is accrued joins them. -/
theorem Change.books (h : Change w now e w') (r : Recipient) :
    (if e.claimant = some r then (w'.shareMint.supply : Int) - w.shareMint.supply else 0) +
      w'.unclaimed r =
    w.unclaimed r + if e.isPost then (w'.unclaimed r : Int) - w.unclaimed r else 0 := by
  cases hc : e.isClaim with
  | true =>
    rw [h.claimed_eq hc r, Event.isPost_of_isClaim hc, if_neg Bool.false_ne_true, add_zero]
  | false =>
    rw [Event.claimant_of_isClaim hc, if_neg (by simp), zero_add]
    cases hp : e.isPost with
    | true => rw [if_pos rfl]; omega
    | false => rw [if_neg Bool.false_ne_true, h.unclaimed_eq hp hc r, add_zero]

theorem Fresh.unclaimed_eq (h0 : w₀.Fresh) (r : Recipient) : w₀.unclaimed r = 0 := by
  obtain ⟨_, _, _, e⟩ := h0
  unfold unclaimed
  rw [e]
  cases r <;> rfl

theorem run_books (h0 : w₀.Fresh) (hr : Run Step w₀ h w) (r : Recipient) :
    claimed r h + w.unclaimed r = accrued r h := by
  induction hr with
  | nil => rw [h0.unclaimed_eq]; rfl
  | @snoc h w w' tx hr st ih =>
    have hstep := (process_change (run_wellFormed h0 hr) st).books r
    unfold claimed accrued at *
    simp only [List.map_cons, List.sum_cons, accruedBy] at *
    omega

/-- Claims accrue nothing. -/
theorem accrued_commonSteps (r : Recipient) (h : List (Transition World Tx)) :
    accrued r (commonSteps Tx.isCommon h) = accrued r h := by
  induction h with
  | nil => rfl
  | cons t h ih =>
    unfold accrued at *
    cases hc : t.label.isCommon with
    | true => rw [commonSteps_cons_of_pos hc, List.map_cons, List.map_cons, List.sum_cons,
        List.sum_cons, ih]
    | false =>
      have hzero : accruedBy r t = 0 := by
        unfold accruedBy
        rw [Event.isPost_of_isClaim (Tx.isClaim_of_isCommon hc)]
        exact if_neg Bool.false_ne_true
      rw [commonSteps_cons_of_neg hc, List.map_cons, List.sum_cons, hzero, zero_add, ih]

theorem accrued_same (r : Recipient) (hall : List.Forall₂ SameOutcome h₁ h₂) :
    accrued r h₁ = accrued r h₂ := by
  unfold accrued
  induction hall with
  | nil => rfl
  | cons ho _ ih => rw [List.map_cons, List.map_cons, List.sum_cons, List.sum_cons, ho.accrued r, ih]

/-- Two runs of a vault that differ in their fee claims alone: every other instruction records
the same price, mark and assets, accrues the same fee shares and pays every user the same. In
both, what a recipient claimed and what is unclaimed add up to what was accrued. -/
theorem claims_neutral (h0 : w₀.Fresh) (hr₁ : Run Step w₀ h₁ w₁) (hr₂ : Run Step w₀ h₂ w₂)
    (hsame : commonLabels Tx.isCommon h₁ = commonLabels Tx.isCommon h₂) :
    List.Forall₂ SameOutcome (commonSteps Tx.isCommon h₁) (commonSteps Tx.isCommon h₂) ∧
    ∀ r, claimed r h₁ + w₁.unclaimed r = accrued r h₁ ∧
      claimed r h₂ + w₂.unclaimed r = accrued r h₂ ∧ accrued r h₁ = accrued r h₂ := by
  obtain ⟨_, hall⟩ := claims_lockstep.run ⟨.refl w₀, h0.wellFormed, h0.wellFormed⟩ hr₁ hr₂ hsame
  refine ⟨hall, ?_⟩
  intro r
  have haccrued := accrued_same r hall
  rw [accrued_commonSteps, accrued_commonSteps] at haccrued
  exact ⟨run_books h0 hr₁ r, run_books h0 hr₂ r, haccrued⟩

/-- The sample transactions with the manager's claim at the end. -/
def lateClaimTxs : List Tx := (sampleTxs.take 4 ++ sampleTxs.drop 5) ++
  [Instruction.vaultClaimManagerFee.sentBy manager 43202]

theorem claims_neutral_sample :
    List.Forall₂ SameOutcome (commonSteps Tx.isCommon (sampleHistory 8))
      (commonSteps Tx.isCommon (history process sample lateClaimTxs)) ∧
    ∀ r, claimed r (sampleHistory 8) + (sampleAfter 8).unclaimed r = accrued r (sampleHistory 8) ∧
      claimed r (history process sample lateClaimTxs) +
        (final process sample lateClaimTxs).unclaimed r =
        accrued r (history process sample lateClaimTxs) ∧
      accrued r (sampleHistory 8) = accrued r (history process sample lateClaimTxs) :=
  claims_neutral sample_fresh (TimedStep.run_step sample_timed) (run_final (by rfl)) (by rfl)

end

end World

end HedgeVault
