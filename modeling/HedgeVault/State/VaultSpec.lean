import HedgeVault.State.NavMath
import HedgeVault.Lib.Pool

/-!
# What the vault methods do

One lemma for each method of `Vault` beside `updateNav`: what an accepted call
requires, what it returns, and the vault after it as an update of the vault
before it. Conversions are those of a share pool: `sharesFor` for deposits,
`assetsFor` for withdrawals. Where a result must be shown to exist
(`exists_resolveDeposit`, `exists_resolveWithdrawal`) the checks are conditions
on natural numbers.
-/

namespace HedgeVault

open Lib

namespace Vault

/-! ## Epochs -/

theorem epoch_toNat {now : I64} (h : 0 ≤ now.val) : (epoch now).toNat = now.val.toNat / 14400 := by
  have hlt := now.lt
  obtain ⟨n, hn⟩ := Int.eq_ofNat_of_zero_le h
  have hq : (n : Int).tdiv 14400 = ((n / 14400 : Nat) : Int) := rfl
  unfold epoch EPOCH_DURATION
  rw [hn, hq, BitVec.ofInt_natCast, BitVec.toNat_ofNat, Int.toNat_natCast]
  omega

theorem epoch_mono {a b : I64} (ha : 0 ≤ a.val) (hab : a.val ≤ b.val) :
    (epoch a).toNat ≤ (epoch b).toNat := by
  rw [epoch_toNat ha, epoch_toNat (ha.trans hab)]
  omega

theorem lt_of_epoch_lt {a b : I64} (ha : 0 ≤ a.val) (hb : 0 ≤ b.val)
    (h : (epoch a).toNat < (epoch b).toNat) : a.val < b.val := by
  rw [epoch_toNat ha, epoch_toNat hb] at h
  omega

section

variable {v v' : Vault} {amount shares : U64} {now : I64}

/-! ## Deposits -/

theorem requestDeposit_ok (h : v.requestDeposit amount = .ok v') :
    0 < v.navPerShare.toNat ∧ v.minDeposit.toNat ≤ amount.toNat ∧
    v'.pendingDeposits.toNat = v.pendingDeposits.toNat + amount.toNat ∧
    v.totalAssets.toNat + v'.pendingDeposits.toNat ≤ v.depositCap.toNat ∧
    v' = { v with pendingDeposits := v'.pendingDeposits } := by
  simp only [requestDeposit, bind_eq_ok, validate_eq_ok, safeAdd_eq_ok, pure_eq_ok] at h
  obtain ⟨_, h1, _, h2, p, hp, s, hs, _, h3, rfl⟩ := h
  exact ⟨h1, h2, hp.symm, hs ▸ h3, rfl⟩

theorem cancelDeposit_ok (h : v.cancelDeposit amount = .ok v') :
    v'.pendingDeposits.toNat + amount.toNat = v.pendingDeposits.toNat ∧
    v' = { v with pendingDeposits := v'.pendingDeposits } := by
  simp only [cancelDeposit, bind_eq_ok, safeSub_eq_ok, pure_eq_ok] at h
  obtain ⟨p, hp, rfl⟩ := h
  exact ⟨hp, rfl⟩

theorem exists_cancelDeposit (h : amount.toNat ≤ v.pendingDeposits.toNat) :
    ∃ v', v.cancelDeposit amount = .ok v' := by
  obtain ⟨p, hp, _⟩ := exists_safeSub h
  exact ⟨{ v with pendingDeposits := p }, by simp only [cancelDeposit, hp]; rfl⟩

theorem resolveDeposit_ok (h : v.resolveDeposit amount = .ok (v', shares)) :
    0 < v.navPerShare.toNat ∧ shares.toNat = sharesFor NAV_SCALE amount.toNat v.navPerShare.toNat ∧
    0 < shares.toNat ∧ v'.pendingDeposits.toNat + amount.toNat = v.pendingDeposits.toNat ∧
    v'.totalAssets.toNat = v.totalAssets.toNat + amount.toNat ∧
    v' = { v with pendingDeposits := v'.pendingDeposits, totalAssets := v'.totalAssets } := by
  simp only [resolveDeposit, bind_eq_ok, validate_eq_ok, mulDiv_eq_ok, safeToU64_eq_ok,
    safeSub_eq_ok, safeAdd_eq_ok, pure_eq_ok, Prod.mk.injEq, asU128_toNat_u64] at h
  obtain ⟨_, h1, q, ⟨_, _, hq⟩, s, hs, _, h2, p, hp, t, ht, rfl, rfl⟩ := h
  exact ⟨h1, hs.symm.trans hq.symm, h2, hp, ht.symm, rfl⟩

theorem exists_resolveDeposit (hnav : 0 < v.navPerShare.toNat)
    (hpos : 0 < sharesFor NAV_SCALE amount.toNat v.navPerShare.toNat)
    (hmax : sharesFor NAV_SCALE amount.toNat v.navPerShare.toNat ≤ U64_MAX)
    (hpending : amount.toNat ≤ v.pendingDeposits.toNat)
    (hassets : v.totalAssets.toNat + amount.toNat ≤ U64_MAX) :
    ∃ v' s, v.resolveDeposit amount = .ok (v', s) := by
  unfold U64_MAX at hmax hassets
  have hmul : (asU128 amount).toNat * (asU128 NAV_PRECISION).toNat < 2 ^ 128 := by
    rw [asU128_toNat_u64, asU128_toNat_u64, navPrecision_toNat]
    unfold NAV_SCALE; omega
  obtain ⟨x, hx, ex⟩ := exists_safeMul hmul
  obtain ⟨q, hq, eq⟩ := exists_safeDiv (a := x) (b := asU128 v.navPerShare)
    (by rw [asU128_toNat_u64]; omega)
  have eshares : q.toNat = sharesFor NAV_SCALE amount.toNat v.navPerShare.toNat := by
    rw [eq, ex, asU128_toNat_u64, asU128_toNat_u64, asU128_toNat_u64, navPrecision_toNat]; rfl
  obtain ⟨s, hs, es⟩ := exists_safeToU64 (a := q) (by omega)
  obtain ⟨p, hp, _⟩ := exists_safeSub hpending
  obtain ⟨t, ht, _⟩ := exists_safeAdd (a := v.totalAssets) (b := amount) (by omega)
  have hshares : s > 0 := show 0 < s.toNat by omega
  refine ⟨{ v with pendingDeposits := p, totalAssets := t }, s, ?_⟩
  simp only [resolveDeposit, bind_eq_ok, pure_eq_ok]
  exact ⟨(), validate_of hnav, q, mulDiv_eq_ok.2 ⟨hmul, by rw [asU128_toNat_u64]; omega,
    by rw [eq, ex]⟩, s, hs, (), validate_of hshares, p, hp, t, ht, rfl⟩

/-! ## Withdrawals -/

theorem requestWithdrawal_ok {balance : U64} (h : v.requestWithdrawal shares balance = .ok v') :
    v'.pendingWithdrawalShares.toNat = v.pendingWithdrawalShares.toNat + shares.toNat ∧
    v' = { v with pendingWithdrawalShares := v'.pendingWithdrawalShares } := by
  simp only [requestWithdrawal, bind_eq_ok, validate_eq_ok, safeAdd_eq_ok, pure_eq_ok] at h
  obtain ⟨_, _, p, hp, rfl⟩ := h
  exact ⟨hp.symm, rfl⟩

theorem cancelWithdrawal_ok (h : v.cancelWithdrawal shares = .ok v') :
    v'.pendingWithdrawalShares.toNat + shares.toNat = v.pendingWithdrawalShares.toNat ∧
    v' = { v with pendingWithdrawalShares := v'.pendingWithdrawalShares } := by
  simp only [cancelWithdrawal, bind_eq_ok, safeSub_eq_ok, pure_eq_ok] at h
  obtain ⟨p, hp, rfl⟩ := h
  exact ⟨hp, rfl⟩

theorem resolveWithdrawal_ok {bps : U16} (h : v.resolveWithdrawal shares bps = .ok (v', amount)) :
    amount.toNat = assetsFor NAV_SCALE shares.toNat v.navPerShare.toNat ∧
    v'.pendingWithdrawalShares.toNat + shares.toNat = v.pendingWithdrawalShares.toNat ∧
    v'.epochOutflow.toNat = v.epochOutflow.toNat + amount.toNat ∧
    v'.totalAssets.toNat + amount.toNat = v.totalAssets.toNat ∧
    v' = { v with
      pendingWithdrawalShares := v'.pendingWithdrawalShares
      epochOutflow := v'.epochOutflow
      totalAssets := v'.totalAssets } := by
  simp only [resolveWithdrawal, bind_eq_ok, mulDiv_eq_ok, safeToU64_eq_ok, safeSub_eq_ok,
    safeAdd_eq_ok, pure_eq_ok, Prod.mk.injEq, asU128_toNat_u64] at h
  obtain ⟨p, hp, q, ⟨_, _, hq⟩, a, ha, _, _, _, _, o, ho, t, ht, rfl, rfl⟩ := h
  exact ⟨ha.symm.trans hq.symm, hp, ho.symm, ht, rfl⟩

theorem exists_resolveWithdrawal (bps : U16)
    (hpending : shares.toNat ≤ v.pendingWithdrawalShares.toNat)
    (hassets : assetsFor NAV_SCALE shares.toNat v.navPerShare.toNat ≤ v.totalAssets.toNat)
    (houtflow : v.epochOutflow.toNat + assetsFor NAV_SCALE shares.toNat v.navPerShare.toNat ≤
      U64_MAX) :
    ∃ v' a, v.resolveWithdrawal shares bps = .ok (v', a) := by
  unfold U64_MAX at houtflow
  have hs := shares.isLt
  have hn := v.navPerShare.isLt
  have hmul : (asU128 shares).toNat * (asU128 v.navPerShare).toNat < 2 ^ 128 := by
    rw [asU128_toNat_u64, asU128_toNat_u64]
    calc shares.toNat * v.navPerShare.toNat < 2 ^ 64 * 2 ^ 64 := Nat.mul_lt_mul'' hs hn
      _ = 2 ^ 128 := by decide
  obtain ⟨p, hp, _⟩ := exists_safeSub hpending
  obtain ⟨x, hx, ex⟩ := exists_safeMul hmul
  have hP : (asU128 NAV_PRECISION).toNat ≠ 0 := by decide
  obtain ⟨q, hq, eq⟩ := exists_safeDiv (a := x) hP
  have eamount : q.toNat = assetsFor NAV_SCALE shares.toNat v.navPerShare.toNat := by
    rw [eq, ex, asU128_toNat_u64, asU128_toNat_u64, asU128_toNat_u64]; rfl
  have hmax := toNat_le_max v.totalAssets
  unfold U64_MAX at hmax
  obtain ⟨a, ha, ea⟩ := exists_safeToU64 (a := q) (by omega)
  obtain ⟨o, ho, _⟩ := exists_safeAdd (a := v.epochOutflow) (b := a) (by omega)
  obtain ⟨t, ht, _⟩ := exists_safeSub (a := v.totalAssets) (b := a) (by omega)
  -- the disabled cap: its operands are far below 128 bits
  obtain ⟨c, hc, ec⟩ := exists_safeAdd (a := asU128 v.totalAssets) (b := asU128 v.epochOutflow)
    (by rw [asU128_toNat_u64, asU128_toNat_u64]; omega)
  rw [asU128_toNat_u64, asU128_toNat_u64] at ec
  obtain ⟨d, hd, _⟩ := exists_safeMul (a := c) (b := asU128 bps) (by
    rw [asU128_toNat_u16]
    calc c.toNat * bps.toNat < 2 ^ 65 * 2 ^ 16 := Nat.mul_lt_mul'' (by omega) bps.isLt
      _ ≤ 2 ^ 128 := by decide)
  obtain ⟨e, he, _⟩ := exists_safeDiv (a := d) (b := asU128 MAX_BPS) (by decide)
  refine ⟨{ v with pendingWithdrawalShares := p, epochOutflow := o, totalAssets := t }, a, ?_⟩
  simp only [resolveWithdrawal, mulDiv, bind_eq_ok, pure_eq_ok]
  exact ⟨p, hp, q, ⟨x, hx, hq⟩, a, ha, c, hc, e, ⟨d, hd, he⟩, o, ho, t, ht, rfl⟩

/-! ## Fees -/

/-- The fee fields of a vault replaced. -/
def withFees (v : Vault) (performance management pendingPerformance pendingManagement : U16)
    (effectiveTs : I64) : Vault :=
  { v with
    performanceFeeBps := performance
    managementFeeBps := management
    pendingPerformanceFeeBps := pendingPerformance
    pendingManagementFeeBps := pendingManagement
    feeEffectiveTs := effectiveTs }

/-- A vault that differs from `v` in its fee fields alone. -/
def SameButFees (v v' : Vault) : Prop :=
  v' = v.withFees v'.performanceFeeBps v'.managementFeeBps v'.pendingPerformanceFeeBps
    v'.pendingManagementFeeBps v'.feeEffectiveTs

theorem applyPendingFees_sameButFees (v : Vault) (now : I64) :
    v.SameButFees (v.applyPendingFees now) := by
  unfold applyPendingFees
  split
  · exact rfl
  · exact rfl

/-- Either the requested pair goes live at once and nothing is pending, or it is pending. -/
theorem setFees_ok {p m : U16} (h : v.setFees p m now = .ok v') :
    (p ≤ v.performanceFeeBps ∧ m ≤ v.managementFeeBps ∧ v' = v.withFees p m 0 0 0) ∨
    (¬ (p ≤ v.performanceFeeBps ∧ m ≤ v.managementFeeBps) ∧
      now.val + FEE_INCREASE_DELAY.val = v'.feeEffectiveTs.val ∧
      v' = v.withFees v.performanceFeeBps v.managementFeeBps p m v'.feeEffectiveTs) := by
  unfold setFees at h
  split at h
  · next hc =>
    rw [pure_eq_ok] at h
    subst h
    exact .inl ⟨hc.1, hc.2, rfl⟩
  · next hc =>
    simp only [bind_eq_ok, pure_eq_ok, I64.safeAdd_eq_ok] at h
    obtain ⟨ts, hts, rfl⟩ := h
    exact .inr ⟨hc, hts, rfl⟩

theorem updateFees_ok {p m : Option U16} (h : v.updateFees p m now = .ok v') :
    p.getD v.currentFees.1 ≤ MAX_BPS ∧ m.getD v.currentFees.2 ≤ MAX_BPS ∧
    v.setFees (p.getD v.currentFees.1) (m.getD v.currentFees.2) now = .ok v' := by
  simp only [updateFees, bind_eq_ok, validate_eq_ok] at h
  obtain ⟨_, ⟨hp, hm⟩, h⟩ := h
  exact ⟨hp, hm, h⟩

theorem updateFees_sameButFees {p m : Option U16} (h : v.updateFees p m now = .ok v') :
    v.SameButFees v' := by
  obtain ⟨_, _, h⟩ := updateFees_ok h
  rcases setFees_ok h with ⟨_, _, rfl⟩ | ⟨_, _, e⟩
  · exact rfl
  · rw [e]; exact rfl

/-! What a NAV post leaves in the fields it does not compute. -/

section

variable {args : NavUpdateArgs} {fs : NavFeeShares} (h : NavPosted v args v' fs)

include h

theorem NavPosted.totalAssets : v'.totalAssets = args.totalAssets := by rw [h.eq]

theorem NavPosted.navEpoch : v'.navEpoch = epoch args.now := by rw [h.eq]

theorem NavPosted.lastNavTs : v'.lastNavTs = args.now := by rw [h.eq]

theorem NavPosted.epochOutflow : v'.epochOutflow = 0 := by rw [h.eq]

theorem NavPosted.pendingDeposits : v'.pendingDeposits = v.pendingDeposits := by
  rw [h.eq, applyPendingFees_sameButFees v args.now]; rfl

theorem NavPosted.pendingWithdrawalShares :
    v'.pendingWithdrawalShares = v.pendingWithdrawalShares := by
  rw [h.eq, applyPendingFees_sameButFees v args.now]; rfl

end

theorem claimManagerFee_ok (h : v.claimManagerFee = .ok (v', shares)) :
    shares = v.unclaimedManagerFeeShares ∧ 0 < shares.toNat ∧
    v' = { v with unclaimedManagerFeeShares := 0 } := by
  simp only [claimManagerFee, bind_eq_ok, validate_eq_ok, pure_eq_ok, Prod.mk.injEq] at h
  obtain ⟨_, h1, rfl, rfl⟩ := h
  exact ⟨rfl, h1, rfl⟩

theorem claimPlatformFee_ok (h : v.claimPlatformFee = .ok (v', shares)) :
    shares = v.unclaimedPlatformFeeShares ∧ 0 < shares.toNat ∧
    v' = { v with unclaimedPlatformFeeShares := 0 } := by
  simp only [claimPlatformFee, bind_eq_ok, validate_eq_ok, pure_eq_ok, Prod.mk.injEq] at h
  obtain ⟨_, h1, rfl, rfl⟩ := h
  exact ⟨rfl, h1, rfl⟩

end

end Vault

end HedgeVault
