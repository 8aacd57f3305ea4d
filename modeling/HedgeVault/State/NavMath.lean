import HedgeVault.State.Vault

/-!
# The NAV formulas

What a NAV post computes, in natural numbers: `NavInputs` holds the quantities
`update_nav` reads and its functions are the gross NAV, the eligible profit, the
fees, the fee shares and the NAV. `updateNav_ok` says that the checked arithmetic
of `Vault.updateNav` computes exactly these, and what else the post changes.
-/

namespace HedgeVault

structure NavInputs where
  /-- Posted total assets. -/
  assets : Nat
  /-- Share supply with the unclaimed fee shares. -/
  supply : Nat
  highWaterMark : Nat
  elapsed : Nat
  managerManagementBps : Nat
  managerPerformanceBps : Nat
  platformManagementBps : Nat
  platformPerformanceBps : Nat

namespace NavInputs

variable (i : NavInputs)

def grossNav : Nat := i.assets * NAV_SCALE / i.supply

def eligibleProfit : Nat := (i.grossNav - i.highWaterMark) * i.supply / NAV_SCALE

def managementFee (bps : Nat) : Nat := i.assets * bps * i.elapsed / (31536000 * 10000)

def performanceFee (bps : Nat) : Nat := i.eligibleProfit * bps / 10000

def managerFee : Nat :=
  i.managementFee i.managerManagementBps + i.performanceFee i.managerPerformanceBps

def platformFee : Nat :=
  i.managementFee i.platformManagementBps + i.performanceFee i.platformPerformanceBps

def totalFee : Nat := i.managerFee + i.platformFee

def netAssets : Nat := i.assets - i.totalFee

def managerFeeShares : Nat := i.managerFee * i.supply / i.netAssets

def platformFeeShares : Nat := i.platformFee * i.supply / i.netAssets

def newSupply : Nat := i.supply + i.managerFeeShares + i.platformFeeShares

def navPerShare : Nat := i.assets * NAV_SCALE / i.newSupply

theorem managerFeeShares_of_supply (h : i.supply = 0) : i.managerFeeShares = 0 := by
  simp [managerFeeShares, h]

theorem platformFeeShares_of_supply (h : i.supply = 0) : i.platformFeeShares = 0 := by
  simp [platformFeeShares, h]

theorem shares_of_totalFee (h : i.totalFee = 0) :
    i.managerFeeShares = 0 ∧ i.platformFeeShares = 0 := by
  have hm : i.managerFee = 0 := by unfold totalFee at h; omega
  have hp : i.platformFee = 0 := by unfold totalFee at h; omega
  simp [managerFeeShares, platformFeeShares, hm, hp]

/-- There is a profit to share only above the high-water mark. -/
theorem eligibleProfit_eq_zero (h : i.grossNav ≤ i.highWaterMark) : i.eligibleProfit = 0 := by
  simp [eligibleProfit, Nat.sub_eq_zero_of_le h]

theorem lt_grossNav_of_performanceFee {bps : Nat} (h : 0 < i.performanceFee bps) :
    i.highWaterMark < i.grossNav := by
  by_contra hle
  have hprofit := i.eligibleProfit_eq_zero (Nat.not_lt.1 hle)
  unfold performanceFee at h
  rw [hprofit, Nat.zero_mul, Nat.zero_div] at h
  exact absurd h (Nat.lt_irrefl 0)

/-- Neither profit nor management rates, no fee. -/
theorem totalFee_eq_zero (h : i.grossNav ≤ i.highWaterMark) (hm : i.managerManagementBps = 0)
    (hp : i.platformManagementBps = 0) : i.totalFee = 0 := by
  have hprofit := i.eligibleProfit_eq_zero h
  simp [totalFee, managerFee, platformFee, managementFee, performanceFee, hprofit, hm, hp]

theorem navPerShare_of_totalFee (h : i.totalFee = 0) : i.navPerShare = i.grossNav := by
  obtain ⟨hm, hp⟩ := i.shares_of_totalFee h
  unfold navPerShare newSupply grossNav
  rw [hm, hp, add_zero, add_zero]

end NavInputs

theorem mulDiv_eq_ok {a b c r : U128} : mulDiv a b c = .ok r ↔
    a.toNat * b.toNat < 2 ^ 128 ∧ c.toNat ≠ 0 ∧ a.toNat * b.toNat / c.toNat = r.toNat := by
  simp only [mulDiv, bind_eq_ok, safeMul_eq_ok, safeDiv_eq_ok]
  constructor
  · rintro ⟨x, hx, h0, h⟩
    exact ⟨hx ▸ x.isLt, h0, by rw [hx]; exact h⟩
  · rintro ⟨hlt, h0, h⟩
    exact ⟨BitVec.ofNatLT _ hlt, by simp, h0, by simpa using h⟩

namespace Vault

/-- What a post with `args` computes with. -/
def navInputs (v : Vault) (args : NavUpdateArgs) : NavInputs where
  assets := args.totalAssets.toNat
  supply := args.shareSupply.toNat + v.unclaimedManagerFeeShares.toNat +
    v.unclaimedPlatformFeeShares.toNat
  highWaterMark := v.highWaterMark.toNat
  elapsed := (args.now.saturatingSub v.lastNavTs).asU128.toNat
  managerManagementBps := v.managementFeeBps.toNat
  managerPerformanceBps := v.performanceFeeBps.toNat
  platformManagementBps := args.platformManagementFeeBps.toNat
  platformPerformanceBps := args.platformPerformanceFeeBps.toNat

theorem managementFee_ok {T e r : U128} {bps : U16} (h : managementFee T bps e = .ok r) :
    T.toNat * bps.toNat * e.toNat / (31536000 * 10000) = r.toNat := by
  simp only [managementFee, bind_eq_ok, safeMul_eq_ok, mulDiv_eq_ok, asU128_toNat_u16] at h
  obtain ⟨x, hx, y, hy, _, _, hr⟩ := h
  have hy' : y.toNat = 31536000 * 10000 := hy.symm
  rw [hx, ← hr, hy']

theorem performanceFee_ok {p r : U128} {bps : U16} (h : performanceFee p bps = .ok r) :
    p.toNat * bps.toNat / 10000 = r.toNat := by
  simp only [performanceFee, mulDiv_eq_ok, asU128_toNat_u16] at h
  exact h.2.2

theorem eligibleProfit_ok {v : Vault} {g s r : U128} (h : v.eligibleProfit g s = .ok r) :
    (g.toNat - v.highWaterMark.toNat) * s.toNat / NAV_SCALE = r.toNat := by
  unfold eligibleProfit at h
  split at h
  · simp only [bind_eq_ok, safeSub_eq_ok, mulDiv_eq_ok, asU128_toNat_u64, navPrecision_toNat] at h
    obtain ⟨x, hx, _, _, hr⟩ := h
    rw [← hr, ← hx, Nat.add_sub_cancel]
  · next hle =>
    cases h
    have : g.toNat ≤ v.highWaterMark.toNat := by
      rw [← asU128_toNat_u64 v.highWaterMark]; exact Nat.le_of_not_lt hle
    simp [Nat.sub_eq_zero_of_le this]

theorem recipientFee_ok {T e p r : U128} {m q : U16} (h : recipientFee T e p m q = .ok r) :
    T.toNat * m.toNat * e.toNat / (31536000 * 10000) + p.toNat * q.toNat / 10000 = r.toNat := by
  simp only [recipientFee, bind_eq_ok, safeAdd_eq_ok] at h
  obtain ⟨x, hx, y, hy, hr⟩ := h
  rw [managementFee_ok hx, performanceFee_ok hy, hr]

theorem absDiff_toNat (a b : U64) :
    (absDiff a b).toNat = a.toNat - b.toNat + (b.toNat - a.toNat) := by
  unfold absDiff
  split
  · next h =>
    have hlt : a.toNat < b.toNat := h
    rw [BitVec.toNat_sub_of_le (BitVec.le_def.2 hlt.le)]
    omega
  · next h =>
    have hle : b.toNat ≤ a.toNat := Nat.le_of_not_lt h
    rw [BitVec.toNat_sub_of_le (BitVec.le_def.2 hle)]
    omega

theorem checkNavDeviation_ok {v : Vault} {nav : U64} {o : Option U16} {u : Unit}
    (h : v.checkNavDeviation nav o = .ok u) : ∀ b, o = some b →
      nav.toNat ≤ v.navPerShare.toNat + v.navPerShare.toNat * b.toNat / 10000 ∧
      v.navPerShare.toNat ≤ nav.toNat + v.navPerShare.toNat * b.toNat / 10000 := by
  rintro b rfl
  simp only [checkNavDeviation, validateNavDeviation, bind_eq_ok, mulDiv_eq_ok, validate_eq_ok,
    asU128_toNat_u64, asU128_toNat_u16] at h
  obtain ⟨m, ⟨_, _, hm⟩, hd⟩ := h
  have hle : (asU128 (absDiff nav v.navPerShare)).toNat ≤ m.toNat := hd
  rw [asU128_toNat_u64, absDiff_toNat, ← hm, maxBps_toNat] at hle
  omega

/-- What the branch for a nonzero supply leaves, with `i` the inputs of the post. -/
structure Accrued (v : Vault) (args : NavUpdateArgs) (v' : Vault) (fs : NavFeeShares) : Prop where
  fee_lt : (v.navInputs args).totalFee = 0 ∨ (v.navInputs args).totalFee < args.totalAssets.toNat
  managerFeeShares : fs.managerFeeShares.toNat = (v.navInputs args).managerFeeShares
  platformFeeShares : fs.platformFeeShares.toNat = (v.navInputs args).platformFeeShares
  navPerShare : v'.navPerShare.toNat = (v.navInputs args).navPerShare
  deviation : ∀ b, args.maxNavDeviationBps = some b →
    v'.navPerShare.toNat ≤ v.navPerShare.toNat + v.navPerShare.toNat * b.toNat / 10000 ∧
    v.navPerShare.toNat ≤ v'.navPerShare.toNat + v.navPerShare.toNat * b.toNat / 10000
  unclaimedManager : v'.unclaimedManagerFeeShares.toNat =
    v.unclaimedManagerFeeShares.toNat + fs.managerFeeShares.toNat
  unclaimedPlatform : v'.unclaimedPlatformFeeShares.toNat =
    v.unclaimedPlatformFeeShares.toNat + fs.platformFeeShares.toNat
  highWaterMark : v'.highWaterMark.toNat = max v.highWaterMark.toNat v'.navPerShare.toNat
  eq : v' = { v with
    navPerShare := v'.navPerShare
    highWaterMark := v'.highWaterMark
    unclaimedManagerFeeShares := v'.unclaimedManagerFeeShares
    unclaimedPlatformFeeShares := v'.unclaimedPlatformFeeShares }

theorem feeShares_ok {m p t s n a b : U128} (h : feeShares m p t s n = .ok (a, b))
    (ht : m.toNat + p.toNat = t.toNat) :
    a.toNat = m.toNat * s.toNat / n.toNat ∧ b.toNat = p.toNat * s.toNat / n.toNat := by
  unfold feeShares at h
  split at h
  · simp only [bind_eq_ok, mulDiv_eq_ok, pure_eq_ok, Prod.mk.injEq] at h
    obtain ⟨x, ⟨_, _, hx⟩, y, ⟨_, _, hy⟩, rfl, rfl⟩ := h
    exact ⟨hx.symm, hy.symm⟩
  · next h0 =>
    have h0' : t.toNat = 0 := Nat.eq_zero_of_not_pos h0
    have hm : m.toNat = 0 := by omega
    have hp : p.toNat = 0 := by omega
    cases h
    simp [hm, hp]

theorem accrueFees_ok {v v' : Vault} {args : NavUpdateArgs} {supply : U128} {fs : NavFeeShares}
    (hs : supply.toNat = (v.navInputs args).supply) (h : v.accrueFees args supply = .ok (v', fs)) :
    Accrued v args v' fs := by
  simp only [accrueFees, bind_eq_ok] at h
  obtain ⟨gross, hgross, profit, hprofit, mfee, hmfee, pfee, hpfee, tfee, htfee, _, hval, net, hnet,
    ⟨ms, ps⟩, hshares, s1, hs1, s2, hs2, nav128, hnav128, nav, hnav, _, hdev, mfs, hmfs, pfs, hpfs,
    um, hum, up, hup, hout⟩ := h
  cases hout
  simp only [mulDiv_eq_ok, asU128_toNat_u64, navPrecision_toNat] at hgross hnav128
  simp only [safeAdd_eq_ok, safeSub_eq_ok, safeToU64_eq_ok] at htfee hnet hs1 hs2 hnav hmfs hpfs hum hup
  rw [asU128_toNat_u64] at hnet
  -- every intermediate value is the formula of its name
  have egross : gross.toNat = (v.navInputs args).grossNav := by
    rw [← hgross.2.2, hs]; rfl
  have eprofit : profit.toNat = (v.navInputs args).eligibleProfit := by
    rw [← eligibleProfit_ok hprofit, egross, hs]; rfl
  have emfee : mfee.toNat = (v.navInputs args).managerFee := by
    rw [← recipientFee_ok hmfee, eprofit, asU128_toNat_u64]; rfl
  have epfee : pfee.toNat = (v.navInputs args).platformFee := by
    rw [← recipientFee_ok hpfee, eprofit, asU128_toNat_u64]; rfl
  have etfee : tfee.toNat = (v.navInputs args).totalFee := by
    rw [← htfee, emfee, epfee]; rfl
  have enet : net.toNat = (v.navInputs args).netAssets := by
    show _ = args.totalAssets.toNat - _
    rw [← etfee]; omega
  obtain ⟨ems, eps⟩ := feeShares_ok hshares htfee
  rw [emfee, hs, enet] at ems
  rw [epfee, hs, enet] at eps
  have esupply : s2.toNat = (v.navInputs args).newSupply := by
    rw [← hs2, ← hs1, ems, eps, hs]; rfl
  have enav : nav.toNat = (v.navInputs args).navPerShare := by
    rw [← hnav, ← hnav128.2.2, esupply]; rfl
  refine ⟨?_, hmfs.symm.trans ems, hpfs.symm.trans eps, enav, checkNavDeviation_ok hdev, hum.symm,
    hup.symm, ?_, rfl⟩
  · rw [← etfee]
    refine (validate_eq_ok.1 hval).imp (fun h => by rw [h]; rfl) fun h => ?_
    have hlt : tfee.toNat < (asU128 args.totalAssets).toNat := h
    rwa [asU128_toNat_u64] at hlt
  · show (if nav > v.highWaterMark then nav else v.highWaterMark).toNat =
      max v.highWaterMark.toNat nav.toNat
    split
    · next hgt => exact (Nat.max_eq_right (Nat.le_of_lt hgt)).symm
    · next hle => exact (Nat.max_eq_left (Nat.le_of_not_lt hle)).symm

/-- The NAV fields of a vault replaced. -/
def withNav (v : Vault) (navPerShare highWaterMark unclaimedManager unclaimedPlatform : U64) : Vault :=
  { v with
    navPerShare, highWaterMark
    unclaimedManagerFeeShares := unclaimedManager
    unclaimedPlatformFeeShares := unclaimedPlatform }

theorem applyPendingFees_withNav (v : Vault) (n h m p : U64) (now : I64) :
    (v.withNav n h m p).applyPendingFees now = (v.applyPendingFees now).withNav n h m p := by
  unfold applyPendingFees
  by_cases hc : v.feeEffectiveTs ≠ 0 ∧ now.val ≥ v.feeEffectiveTs.val
  · rw [if_pos hc]; exact if_pos hc
  · rw [if_neg hc]; exact if_neg hc

/-- What a NAV post does, with `v.navInputs args` its inputs. -/
structure NavPosted (v : Vault) (args : NavUpdateArgs) (v' : Vault) (fs : NavFeeShares) : Prop where
  epoch_lt : v.navEpoch.toNat < (epoch args.now).toNat
  supply_lt : (v.navInputs args).supply < 2 ^ 64
  fee_lt : (v.navInputs args).supply ≠ 0 →
    (v.navInputs args).totalFee = 0 ∨ (v.navInputs args).totalFee < args.totalAssets.toNat
  managerFeeShares : fs.managerFeeShares.toNat = (v.navInputs args).managerFeeShares
  platformFeeShares : fs.platformFeeShares.toNat = (v.navInputs args).platformFeeShares
  nav_of_zero : (v.navInputs args).supply = 0 → v'.navPerShare = NAV_PRECISION
  nav_of_pos : (v.navInputs args).supply ≠ 0 →
    v'.navPerShare.toNat = (v.navInputs args).navPerShare
  deviation : (v.navInputs args).supply ≠ 0 → ∀ b, args.maxNavDeviationBps = some b →
    v'.navPerShare.toNat ≤ v.navPerShare.toNat + v.navPerShare.toNat * b.toNat / 10000 ∧
    v.navPerShare.toNat ≤ v'.navPerShare.toNat + v.navPerShare.toNat * b.toNat / 10000
  unclaimedManager : v'.unclaimedManagerFeeShares.toNat =
    v.unclaimedManagerFeeShares.toNat + fs.managerFeeShares.toNat
  unclaimedPlatform : v'.unclaimedPlatformFeeShares.toNat =
    v.unclaimedPlatformFeeShares.toNat + fs.platformFeeShares.toNat
  mark_of_zero : (v.navInputs args).supply = 0 → v'.highWaterMark = v.highWaterMark
  mark_of_pos : (v.navInputs args).supply ≠ 0 →
    v'.highWaterMark.toNat = max v.highWaterMark.toNat v'.navPerShare.toNat
  eq : v' = { (v.applyPendingFees args.now).withNav v'.navPerShare v'.highWaterMark
      v'.unclaimedManagerFeeShares v'.unclaimedPlatformFeeShares with
    totalAssets := args.totalAssets
    navEpoch := epoch args.now
    lastNavTs := args.now
    epochOutflow := 0 }

theorem updateNav_ok {v v' : Vault} {args : NavUpdateArgs} {fs : NavFeeShares}
    (h : v.updateNav args = .ok (v', fs)) : NavPosted v args v' fs := by
  simp only [updateNav, bind_eq_ok, validate_eq_ok, safeAdd_eq_ok] at h
  obtain ⟨_, hepoch, s1, hs1, s2, hs2, ⟨v1, fs1⟩, hfees, hout⟩ := h
  cases hout
  have hs : (asU128 s2).toNat = (v.navInputs args).supply := by
    rw [asU128_toNat_u64, ← hs2, ← hs1]; rfl
  have hlt : (v.navInputs args).supply < 2 ^ 64 := by
    rw [← hs, asU128_toNat_u64]; exact s2.isLt
  unfold settleFees at hfees
  split at hfees
  · next h0 =>
    have hzero : (v.navInputs args).supply = 0 := by rw [← hs, h0]; rfl
    cases hfees
    rw [show ({ v with navPerShare := NAV_PRECISION } : Vault) = v.withNav NAV_PRECISION
      v.highWaterMark v.unclaimedManagerFeeShares v.unclaimedPlatformFeeShares from rfl,
      applyPendingFees_withNav]
    exact {
      epoch_lt := hepoch
      supply_lt := hlt
      fee_lt := fun h => absurd hzero h
      managerFeeShares := ((v.navInputs args).managerFeeShares_of_supply hzero).symm
      platformFeeShares := ((v.navInputs args).platformFeeShares_of_supply hzero).symm
      nav_of_zero := fun _ => rfl
      nav_of_pos := fun h => absurd hzero h
      deviation := fun h => absurd hzero h
      unclaimedManager := rfl
      unclaimedPlatform := rfl
      mark_of_zero := fun _ => rfl
      mark_of_pos := fun h => absurd hzero h
      eq := rfl }
  · next h0 =>
    have hne : (v.navInputs args).supply ≠ 0 := by
      rw [← hs]; exact fun h => h0 (BitVec.eq_of_toNat_eq h)
    have acc := accrueFees_ok hs hfees
    have e : v1 = v.withNav v1.navPerShare v1.highWaterMark v1.unclaimedManagerFeeShares
        v1.unclaimedPlatformFeeShares := acc.eq
    rw [e, applyPendingFees_withNav]
    exact {
      epoch_lt := hepoch
      supply_lt := hlt
      fee_lt := fun _ => acc.fee_lt
      managerFeeShares := acc.managerFeeShares
      platformFeeShares := acc.platformFeeShares
      nav_of_zero := fun h => absurd h hne
      nav_of_pos := fun _ => acc.navPerShare
      deviation := fun _ => acc.deviation
      unclaimedManager := acc.unclaimedManager
      unclaimedPlatform := acc.unclaimedPlatform
      mark_of_zero := fun h => absurd h hne
      mark_of_pos := fun _ => acc.highWaterMark
      eq := rfl }

end Vault

end HedgeVault
