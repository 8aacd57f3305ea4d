import HedgeVault.State.VaultSpec

/-!
# Exactness of the NAV arithmetic

When a NAV post is refused, and that nothing but the listed checks refuses it. The
128-bit operations of `Vault.accrueFees` come in two stages: up to the total fee
(`FeesExact`) and, once the fee is below the assets, up to the NAV (`SharesExact`).
In each, every operation returns the value of its formula in `NavInputs`; the bounds
are those of the formulas (`NavInputs.profit_le`, `NavInputs.newSupply_le`).
`updateNav_exact` assembles them.
-/

namespace HedgeVault

/-! ## Bounds on the formulas -/

namespace NavInputs

variable {i : NavInputs}

theorem grossNav_mul_le (i : NavInputs) : i.grossNav * i.supply ≤ i.assets * NAV_SCALE :=
  Nat.div_mul_le_self _ _

theorem profit_le (i : NavInputs) : i.eligibleProfit ≤ i.assets := by
  refine Nat.div_le_of_le_mul ?_
  calc (i.grossNav - i.highWaterMark) * i.supply ≤ i.grossNav * i.supply :=
        Nat.mul_le_mul_right _ (Nat.sub_le _ _)
    _ ≤ i.assets * NAV_SCALE := i.grossNav_mul_le
    _ = NAV_SCALE * i.assets := Nat.mul_comm _ _

theorem performanceFee_le {bps : Nat} (hb : bps ≤ 10000) : i.performanceFee bps ≤ i.assets := by
  refine Nat.div_le_of_le_mul ?_
  rw [Nat.mul_comm]
  exact Nat.mul_le_mul hb i.profit_le

/-- The product under a management fee. -/
theorem charged_lt {bps : Nat} (ha : i.assets < 2 ^ 64) (hb : bps ≤ 10000)
    (he : i.elapsed < 2 ^ 48) : i.assets * bps * i.elapsed < 2 ^ 126 := by
  have hcharged : i.assets * bps < 2 ^ 64 * 2 ^ 14 := Nat.mul_lt_mul'' ha (by omega)
  calc i.assets * bps * i.elapsed < 2 ^ 64 * 2 ^ 14 * 2 ^ 48 := Nat.mul_lt_mul'' hcharged he
    _ = 2 ^ 126 := by decide

theorem managementFee_lt {bps : Nat} (ha : i.assets < 2 ^ 64) (hb : bps ≤ 10000)
    (he : i.elapsed < 2 ^ 48) : i.managementFee bps < 2 ^ 126 :=
  Nat.lt_of_le_of_lt (Nat.div_le_self _ _) (charged_lt ha hb he)

/-- The supply after a post grows at most by the total fee times itself. -/
theorem newSupply_le (i : NavInputs) : i.newSupply ≤ i.supply * (1 + i.totalFee) := by
  have hm : i.managerFeeShares ≤ i.managerFee * i.supply := Nat.div_le_self _ _
  have hp : i.platformFeeShares ≤ i.platformFee * i.supply := Nat.div_le_self _ _
  have hexpand : i.supply * (1 + i.totalFee) =
      i.supply + i.managerFee * i.supply + i.platformFee * i.supply := by
    unfold totalFee
    rw [Nat.mul_comm, Nat.add_mul, Nat.add_mul, Nat.one_mul, Nat.add_assoc]
  unfold newSupply
  omega

theorem newSupply_lt (hs : i.supply < 2 ^ 64) (hf : i.totalFee < 2 ^ 64 - 1) :
    i.newSupply < 2 ^ 128 := by
  refine Nat.lt_of_le_of_lt i.newSupply_le ?_
  calc i.supply * (1 + i.totalFee) < 2 ^ 64 * 2 ^ 64 := Nat.mul_lt_mul'' hs (by omega)
    _ = 2 ^ 128 := by decide

theorem newSupply_pos (hs : i.supply ≠ 0) : i.newSupply ≠ 0 := by
  unfold newSupply
  omega

end NavInputs

theorem exists_mulDiv {a b c : U128} (hlt : a.toNat * b.toNat < 2 ^ 128) (h0 : c.toNat ≠ 0) :
    ∃ r, mulDiv a b c = .ok r ∧ r.toNat = a.toNat * b.toNat / c.toNat := by
  obtain ⟨x, hx, ex⟩ := exists_safeMul hlt
  obtain ⟨r, hr, er⟩ := exists_safeDiv (a := x) h0
  refine ⟨r, ?_, by rw [er, ex]⟩
  unfold mulDiv
  rw [hx, ok_bind, hr]

namespace Vault

/-! ## The operations of one fee -/

theorem exists_managementFee (assets elapsed : U128) (bps : U16)
    (hmul : assets.toNat * bps.toNat < 2 ^ 128)
    (hlt : assets.toNat * bps.toNat * elapsed.toNat < 2 ^ 128) :
    ∃ r, managementFee assets bps elapsed = .ok r ∧
      r.toNat = assets.toNat * bps.toNat * elapsed.toNat / (31536000 * 10000) := by
  rw [← asU128_toNat_u16 bps] at *
  obtain ⟨charged, hcharged, ecd⟩ := exists_safeMul hmul
  obtain ⟨year, hyear, ey⟩ :=
    exists_safeMul (a := SECONDS_PER_YEAR) (b := asU128 MAX_BPS) (by decide)
  have hy : year.toNat = 31536000 * 10000 := ey
  obtain ⟨r, hr, er⟩ := exists_mulDiv (a := charged) (b := elapsed) (c := year)
    (by rw [ecd]; exact hlt) (by omega)
  refine ⟨r, ?_, by rw [er, ecd, hy]⟩
  unfold managementFee
  rw [hcharged, ok_bind, hyear, ok_bind, hr]

theorem exists_performanceFee (profit : U128) (bps : U16)
    (hlt : profit.toNat * bps.toNat < 2 ^ 128) :
    ∃ r, performanceFee profit bps = .ok r ∧ r.toNat = profit.toNat * bps.toNat / 10000 := by
  rw [← asU128_toNat_u16 bps] at *
  exact exists_mulDiv hlt (by decide)

theorem exists_eligibleProfit (v : Vault) (gross supply : U128)
    (hlt : gross.toNat * supply.toNat < 2 ^ 128) :
    ∃ r, v.eligibleProfit gross supply = .ok r ∧
      r.toNat = (gross.toNat - v.highWaterMark.toNat) * supply.toNat / NAV_SCALE := by
  unfold eligibleProfit
  by_cases hgt : gross > asU128 v.highWaterMark
  · have hle : (asU128 v.highWaterMark).toNat ≤ gross.toNat := Nat.le_of_lt hgt
    obtain ⟨x, hx, ex⟩ := exists_safeSub hle
    rw [asU128_toNat_u64] at ex
    have hmul : x.toNat * supply.toNat ≤ gross.toNat * supply.toNat :=
      Nat.mul_le_mul_right _ (by omega)
    obtain ⟨r, hr, er⟩ := exists_mulDiv (a := x) (b := supply) (c := asU128 NAV_PRECISION)
      (by omega) (by decide)
    rw [if_pos hgt, hx, ok_bind]
    exact ⟨r, hr, by rw [er, ex, asU128_toNat_u64, navPrecision_toNat]⟩
  · have hle : gross.toNat ≤ v.highWaterMark.toNat := by
      rw [← asU128_toNat_u64 v.highWaterMark]; exact Nat.le_of_not_lt hgt
    rw [if_neg hgt]
    exact ⟨0, rfl, by simp [Nat.sub_eq_zero_of_le hle]⟩

theorem exists_recipientFee {i : NavInputs} {assets elapsed profit : U128}
    {management performance : U16}
    (ea : assets.toNat = i.assets) (ee : elapsed.toNat = i.elapsed)
    (ep : profit.toNat = i.eligibleProfit) (ha : i.assets < 2 ^ 64) (he : i.elapsed < 2 ^ 48)
    (hm : management.toNat ≤ 10000) (hp : performance.toNat ≤ 10000) :
    ∃ r, recipientFee assets elapsed profit management performance = .ok r ∧
      r.toNat = i.managementFee management.toNat + i.performanceFee performance.toNat ∧
      r.toNat < 2 ^ 127 := by
  have hmul : i.assets * management.toNat < 2 ^ 64 * 2 ^ 14 := Nat.mul_lt_mul'' ha (by omega)
  have hcharged := NavInputs.charged_lt (i := i) ha hm he
  obtain ⟨m, hmok, em⟩ := exists_managementFee assets elapsed management
    (by rw [ea]; omega) (by rw [ea, ee]; omega)
  have hprofit := i.profit_le
  have hshare : i.eligibleProfit * performance.toNat < 2 ^ 64 * 2 ^ 14 :=
    Nat.mul_lt_mul'' (by omega) (by omega)
  obtain ⟨p, hpok, eperf⟩ := exists_performanceFee profit performance
    (by rw [ep]; omega)
  have em' : m.toNat = i.managementFee management.toNat := by rw [em, ea, ee]; rfl
  have ep' : p.toNat = i.performanceFee performance.toNat := by rw [eperf, ep]; rfl
  have hmlt := NavInputs.managementFee_lt (i := i) ha hm he
  have hple := NavInputs.performanceFee_le (i := i) hp
  obtain ⟨r, hr, er⟩ := exists_safeAdd (a := m) (b := p) (by omega)
  refine ⟨r, ?_, by omega, by omega⟩
  unfold recipientFee
  rw [hmok, ok_bind, hpok, ok_bind, hr]

/-! ## The two stages -/

/-- Up to the total fee, every operation returns its formula. -/
structure FeesExact (v : Vault) (args : NavUpdateArgs)
    (supply gross profit managerFee platformFee totalFee : U128) : Prop where
  gross_ok : mulDiv (asU128 args.totalAssets) (asU128 NAV_PRECISION) supply = .ok gross
  profit_ok : v.eligibleProfit gross supply = .ok profit
  manager_ok : recipientFee (asU128 args.totalAssets) (args.now.saturatingSub v.lastNavTs).asU128
    profit v.managementFeeBps v.performanceFeeBps = .ok managerFee
  platform_ok : recipientFee (asU128 args.totalAssets) (args.now.saturatingSub v.lastNavTs).asU128
    profit args.platformManagementFeeBps args.platformPerformanceFeeBps = .ok platformFee
  total_ok : safeAdd managerFee platformFee = .ok totalFee
  gross_eq : gross.toNat = (v.navInputs args).grossNav
  profit_eq : profit.toNat = (v.navInputs args).eligibleProfit
  manager_eq : managerFee.toNat = (v.navInputs args).managerFee
  platform_eq : platformFee.toNat = (v.navInputs args).platformFee
  total_eq : totalFee.toNat = (v.navInputs args).totalFee

/-- From the total fee to the NAV, every operation returns its formula. -/
structure SharesExact (v : Vault) (args : NavUpdateArgs)
    (supply managerFee platformFee totalFee net managerShares platformShares nav : U128) :
    Prop where
  net_ok : safeSub (asU128 args.totalAssets) totalFee = .ok net
  shares_ok : feeShares managerFee platformFee totalFee supply net =
    .ok (managerShares, platformShares)
  nav_ok : (do
    let newSupply ← safeAdd (← safeAdd supply managerShares) platformShares
    mulDiv (asU128 args.totalAssets) (asU128 NAV_PRECISION) newSupply) = .ok nav
  net_eq : net.toNat = (v.navInputs args).netAssets
  manager_eq : managerShares.toNat = (v.navInputs args).managerFeeShares
  platform_eq : platformShares.toNat = (v.navInputs args).platformFeeShares
  nav_eq : nav.toNat = (v.navInputs args).navPerShare

/-- What the arithmetic of a post relies on. -/
structure NavRanges (v : Vault) (args : NavUpdateArgs) : Prop where
  elapsed : (v.navInputs args).elapsed < 2 ^ 48
  managerManagement : v.managementFeeBps.toNat ≤ 10000
  managerPerformance : v.performanceFeeBps.toNat ≤ 10000
  platformManagement : args.platformManagementFeeBps.toNat ≤ 10000
  platformPerformance : args.platformPerformanceFeeBps.toNat ≤ 10000

section

variable {v : Vault} {args : NavUpdateArgs} {supply : U128}

/-- The assets times the precision, far below 128 bits. -/
theorem scaled_lt (assets : U64) :
    (asU128 assets).toNat * (asU128 NAV_PRECISION).toNat < 2 ^ 128 := by
  rw [asU128_toNat_u64, asU128_toNat_u64, navPrecision_toNat]
  have hlt := assets.isLt
  unfold NAV_SCALE
  omega

theorem exists_feesExact (hr : NavRanges v args) (hs : supply.toNat = (v.navInputs args).supply)
    (hpos : (v.navInputs args).supply ≠ 0) :
    ∃ gross profit managerFee platformFee totalFee,
      FeesExact v args supply gross profit managerFee platformFee totalFee := by
  have ha : (v.navInputs args).assets < 2 ^ 64 := args.totalAssets.isLt
  have eassets : (asU128 args.totalAssets).toNat = (v.navInputs args).assets :=
    asU128_toNat_u64 _
  obtain ⟨gross, hgross, eg⟩ := exists_mulDiv (c := supply) (scaled_lt args.totalAssets)
    (by rw [hs]; exact hpos)
  have egross : gross.toNat = (v.navInputs args).grossNav := by
    rw [eg, hs, asU128_toNat_u64, asU128_toNat_u64, navPrecision_toNat]; rfl
  have hbound := (v.navInputs args).grossNav_mul_le
  obtain ⟨profit, hprofit, ep⟩ := v.exists_eligibleProfit gross supply
    (by rw [egross, hs]; unfold NAV_SCALE at hbound; omega)
  have eprofit : profit.toNat = (v.navInputs args).eligibleProfit := by
    rw [ep, egross, hs]; rfl
  obtain ⟨managerFee, hmanager, em, hmlt⟩ := exists_recipientFee eassets rfl eprofit ha hr.elapsed
    hr.managerManagement hr.managerPerformance
  obtain ⟨platformFee, hplatform, epf, hplt⟩ := exists_recipientFee eassets rfl eprofit ha
    hr.elapsed hr.platformManagement hr.platformPerformance
  obtain ⟨totalFee, htotal, et⟩ := exists_safeAdd (a := managerFee) (b := platformFee) (by omega)
  exact ⟨gross, profit, managerFee, platformFee, totalFee, {
    gross_ok := hgross
    profit_ok := hprofit
    manager_ok := hmanager
    platform_ok := hplatform
    total_ok := htotal
    gross_eq := egross
    profit_eq := eprofit
    manager_eq := em
    platform_eq := epf
    total_eq := by rw [et, em, epf]; rfl }⟩

/-- Fee shares exist when the fee is below the assets. -/
theorem exists_feeShares (net : U128) {managerFee platformFee totalFee : U128}
    (hsum : managerFee.toNat + platformFee.toNat = totalFee.toNat)
    (hfee : totalFee.toNat ≠ 0 → totalFee.toNat < 2 ^ 64 ∧ 0 < net.toNat)
    (hs : supply.toNat < 2 ^ 64) :
    ∃ s, feeShares managerFee platformFee totalFee supply net = .ok s := by
  unfold feeShares
  by_cases hpos : totalFee > 0
  · have hne : 0 < totalFee.toNat := hpos
    obtain ⟨hlt, hnet⟩ := hfee (by omega)
    have hmul : managerFee.toNat * supply.toNat < 2 ^ 64 * 2 ^ 64 :=
      Nat.mul_lt_mul'' (by omega) hs
    have hmul' : platformFee.toNat * supply.toNat < 2 ^ 64 * 2 ^ 64 :=
      Nat.mul_lt_mul'' (by omega) hs
    obtain ⟨m, hm, _⟩ := exists_mulDiv (c := net) (Nat.lt_of_lt_of_eq hmul (by decide)) (by omega)
    obtain ⟨p, hp, _⟩ := exists_mulDiv (c := net) (Nat.lt_of_lt_of_eq hmul' (by decide)) (by omega)
    rw [if_pos hpos, hm, ok_bind, hp]
    exact ⟨(m, p), rfl⟩
  · rw [if_neg hpos]
    exact ⟨(0, 0), rfl⟩

theorem exists_sharesExact {gross profit managerFee platformFee totalFee : U128}
    (hf : FeesExact v args supply gross profit managerFee platformFee totalFee)
    (hs : supply.toNat = (v.navInputs args).supply) (hpos : (v.navInputs args).supply ≠ 0)
    (hlt : (v.navInputs args).supply < 2 ^ 64)
    (hfee : (v.navInputs args).totalFee = 0 ∨
      (v.navInputs args).totalFee < args.totalAssets.toNat) :
    ∃ net managerShares platformShares nav, SharesExact v args supply managerFee platformFee
      totalFee net managerShares platformShares nav := by
  have ha : args.totalAssets.toNat < 2 ^ 64 := args.totalAssets.isLt
  have et := hf.total_eq
  have hle : totalFee.toNat ≤ args.totalAssets.toNat := by omega
  obtain ⟨net, hnet, en⟩ := exists_safeSub (a := asU128 args.totalAssets) (b := totalFee)
    (by rw [asU128_toNat_u64]; exact hle)
  rw [asU128_toNat_u64] at en
  have enet : net.toNat = (v.navInputs args).netAssets := by
    rw [en, et]; rfl
  have hsum := safeAdd_eq_ok.1 hf.total_ok
  obtain ⟨⟨ms, ps⟩, hshares⟩ := exists_feeShares net hsum (by omega) (hs ▸ hlt)
  obtain ⟨em, ep⟩ := feeShares_ok hshares hsum
  have em' : ms.toNat = (v.navInputs args).managerFeeShares := by
    rw [em, hf.manager_eq, hs, enet]; rfl
  have ep' : ps.toNat = (v.navInputs args).platformFeeShares := by
    rw [ep, hf.platform_eq, hs, enet]; rfl
  have hsupply := NavInputs.newSupply_lt (i := v.navInputs args) hlt (by omega)
  have hnew : (v.navInputs args).newSupply = supply.toNat + ms.toNat + ps.toNat := by
    rw [hs, em', ep']; rfl
  obtain ⟨s1, hs1, es1⟩ := exists_safeAdd (a := supply) (b := ms) (by omega)
  obtain ⟨s2, hs2, es2⟩ := exists_safeAdd (a := s1) (b := ps) (by omega)
  have es2' : s2.toNat = (v.navInputs args).newSupply := by rw [es2, es1, hnew]
  obtain ⟨nav, hnav, enav⟩ := exists_mulDiv (c := s2) (scaled_lt args.totalAssets)
    (by rw [es2']; exact NavInputs.newSupply_pos hpos)
  exact ⟨net, ms, ps, nav, {
    net_ok := hnet
    shares_ok := hshares
    nav_ok := by rw [hs1, ok_bind, hs2, ok_bind, hnav]
    net_eq := enet
    manager_eq := em'
    platform_eq := ep'
    nav_eq := by rw [enav, es2', asU128_toNat_u64, asU128_toNat_u64, navPrecision_toNat]; rfl }⟩

/-! ## The checks -/

/-- The NAV moved by more than the limit allows, in either direction. -/
def DeviationExceeded (v : Vault) (nav : Nat) (limit : Option U16) : Prop :=
  ∃ bps, limit = some bps ∧ v.navPerShare.toNat * bps.toNat / 10000 <
    nav - v.navPerShare.toNat + (v.navPerShare.toNat - nav)

theorem exists_maxDeviation (v : Vault) (bps : U16) :
    ∃ r, mulDiv (asU128 v.navPerShare) (asU128 bps) (asU128 MAX_BPS) = .ok r ∧
      r.toNat = v.navPerShare.toNat * bps.toNat / 10000 := by
  have hmul : v.navPerShare.toNat * bps.toNat < 2 ^ 64 * 2 ^ 16 :=
    Nat.mul_lt_mul'' v.navPerShare.isLt bps.isLt
  obtain ⟨r, hr, er⟩ := exists_mulDiv (a := asU128 v.navPerShare) (b := asU128 bps)
    (c := asU128 MAX_BPS) (by rw [asU128_toNat_u64, asU128_toNat_u16]; omega) (by decide)
  refine ⟨r, hr, ?_⟩
  rw [er, asU128_toNat_u64, asU128_toNat_u16, asU128_toNat_u16, maxBps_toNat]

theorem checkNavDeviation_of (v : Vault) (nav : U64) (limit : Option U16)
    (h : ¬ v.DeviationExceeded nav.toNat limit) : v.checkNavDeviation nav limit = .ok () := by
  cases limit with
  | none => rfl
  | some bps =>
    obtain ⟨r, hr, er⟩ := v.exists_maxDeviation bps
    have hle : ¬ r.toNat < nav.toNat - v.navPerShare.toNat + (v.navPerShare.toNat - nav.toNat) :=
      fun hlt => h ⟨bps, rfl, er ▸ hlt⟩
    have hd : asU128 (absDiff nav v.navPerShare) ≤ r := by
      show (asU128 (absDiff nav v.navPerShare)).toNat ≤ r.toNat
      rw [asU128_toNat_u64, absDiff_toNat]
      omega
    simp only [checkNavDeviation, validateNavDeviation]
    rw [hr, ok_bind, validate_of hd]

/-- The conditions under which the branch for a nonzero supply refuses a post. -/
structure AccrualAccepted (v : Vault) (args : NavUpdateArgs) : Prop where
  fee : (v.navInputs args).totalFee = 0 ∨ (v.navInputs args).totalFee < args.totalAssets.toNat
  nav : (v.navInputs args).navPerShare < 2 ^ 64
  deviation : ¬ v.DeviationExceeded (v.navInputs args).navPerShare args.maxNavDeviationBps
  manager : (v.navInputs args).managerFeeShares < 2 ^ 64
  platform : (v.navInputs args).platformFeeShares < 2 ^ 64
  unclaimedManager :
    v.unclaimedManagerFeeShares.toNat + (v.navInputs args).managerFeeShares < 2 ^ 64
  unclaimedPlatform :
    v.unclaimedPlatformFeeShares.toNat + (v.navInputs args).platformFeeShares < 2 ^ 64

theorem exists_accrueFees (hr : NavRanges v args) (hs : supply.toNat = (v.navInputs args).supply)
    (hpos : (v.navInputs args).supply ≠ 0) (hlt : (v.navInputs args).supply < 2 ^ 64)
    (ha : AccrualAccepted v args) : ∃ r, v.accrueFees args supply = .ok r := by
  obtain ⟨gross, profit, mfee, pfee, tfee, hf⟩ := exists_feesExact hr hs hpos
  obtain ⟨net, ms, ps, nav128, hx⟩ := exists_sharesExact hf hs hpos hlt ha.fee
  obtain ⟨s1, hs1, hnav⟩ := bind_eq_ok.1 hx.nav_ok
  obtain ⟨s2, hs2, hnav⟩ := bind_eq_ok.1 hnav
  have hfee : tfee = 0 ∨ tfee < asU128 args.totalAssets := by
    refine ha.fee.imp (fun h => ?_) fun h => ?_
    · exact BitVec.eq_of_toNat_eq (by rw [hf.total_eq, h]; rfl)
    · show tfee.toNat < (asU128 args.totalAssets).toNat
      rw [hf.total_eq, asU128_toNat_u64]
      exact h
  obtain ⟨nav, hnav64, enav⟩ := exists_safeToU64 (a := nav128) (by rw [hx.nav_eq]; exact ha.nav)
  have hdev := v.checkNavDeviation_of nav args.maxNavDeviationBps
    (by rw [enav, hx.nav_eq]; exact ha.deviation)
  obtain ⟨mfs, hmfs, emfs⟩ := exists_safeToU64 (a := ms) (by rw [hx.manager_eq]; exact ha.manager)
  obtain ⟨pfs, hpfs, epfs⟩ := exists_safeToU64 (a := ps) (by rw [hx.platform_eq]; exact ha.platform)
  obtain ⟨um, hum, _⟩ := exists_safeAdd (a := v.unclaimedManagerFeeShares) (b := mfs)
    (by rw [emfs, hx.manager_eq]; exact ha.unclaimedManager)
  obtain ⟨up, hup, _⟩ := exists_safeAdd (a := v.unclaimedPlatformFeeShares) (b := pfs)
    (by rw [epfs, hx.platform_eq]; exact ha.unclaimedPlatform)
  let mark := if nav > v.highWaterMark then nav else v.highWaterMark
  refine ⟨(v.withNav nav mark um up, ⟨mfs, pfs⟩), ?_⟩
  simp only [accrueFees, bind_eq_ok, pure_eq_ok]
  exact ⟨gross, hf.gross_ok, profit, hf.profit_ok, mfee, hf.manager_ok, pfee, hf.platform_ok, tfee,
    hf.total_ok, (), validate_of hfee, net, hx.net_ok, (ms, ps), hx.shares_ok, s1, hs1, s2, hs2,
    nav128, hnav, nav, hnav64, (), hdev, mfs, hmfs, pfs, hpfs, um, hum, up, hup, rfl⟩

/-- A post is refused for its epoch, for its supply or in the branch for a nonzero supply. -/
def NavRefused (v : Vault) (args : NavUpdateArgs) : Prop :=
  (epoch args.now).toNat ≤ v.navEpoch.toNat ∨
  2 ^ 64 ≤ (v.navInputs args).supply ∨
  (v.navInputs args).supply ≠ 0 ∧
    ((v.navInputs args).totalFee ≠ 0 ∧ args.totalAssets.toNat ≤ (v.navInputs args).totalFee ∨
    2 ^ 64 ≤ (v.navInputs args).navPerShare ∨
    v.DeviationExceeded (v.navInputs args).navPerShare args.maxNavDeviationBps ∨
    2 ^ 64 ≤ (v.navInputs args).managerFeeShares ∨
    2 ^ 64 ≤ (v.navInputs args).platformFeeShares ∨
    2 ^ 64 ≤ v.unclaimedManagerFeeShares.toNat + (v.navInputs args).managerFeeShares ∨
    2 ^ 64 ≤ v.unclaimedPlatformFeeShares.toNat + (v.navInputs args).platformFeeShares)

theorem AccrualAccepted.of_not_refused (h : ¬ NavRefused v args)
    (hpos : (v.navInputs args).supply ≠ 0) : AccrualAccepted v args := by
  unfold NavRefused at h
  simp only [not_or, not_and, Nat.not_le] at h
  obtain ⟨_, _, h⟩ := h
  obtain ⟨hfee, hnav, hdev, hm, hp, hum, hup⟩ := h hpos
  exact {
    fee := Decidable.or_iff_not_imp_left.2 hfee
    nav := hnav
    deviation := hdev
    manager := hm
    platform := hp
    unclaimedManager := hum
    unclaimedPlatform := hup }

theorem exists_updateNav (hr : NavRanges v args) (h : ¬ NavRefused v args) :
    ∃ r, v.updateNav args = .ok r := by
  have hepoch : epoch args.now > v.navEpoch :=
    Nat.lt_of_not_le fun hle => h (.inl hle)
  have hlt : (v.navInputs args).supply < 2 ^ 64 :=
    Nat.lt_of_not_le fun hle => h (.inr (.inl hle))
  have hsum : (v.navInputs args).supply = args.shareSupply.toNat +
    v.unclaimedManagerFeeShares.toNat + v.unclaimedPlatformFeeShares.toNat := rfl
  obtain ⟨s1, hs1, es1⟩ := exists_safeAdd (a := args.shareSupply) (b := v.unclaimedManagerFeeShares)
    (by omega)
  obtain ⟨s2, hs2, es2⟩ := exists_safeAdd (a := s1) (b := v.unclaimedPlatformFeeShares) (by omega)
  have hs : (asU128 s2).toNat = (v.navInputs args).supply := by
    rw [asU128_toNat_u64, es2, es1, hsum]
  have hsettle : ∃ r, v.settleFees args (asU128 s2) = .ok r := by
    unfold settleFees
    by_cases h0 : asU128 s2 = 0
    · rw [if_pos h0]
      exact ⟨_, rfl⟩
    · have hpos : (v.navInputs args).supply ≠ 0 := by
        rw [← hs]; exact fun e => h0 (BitVec.eq_of_toNat_eq e)
      rw [if_neg h0]
      exact exists_accrueFees hr hs hpos hlt (.of_not_refused h hpos)
  obtain ⟨⟨v1, fs⟩, hfees⟩ := hsettle
  simp only [updateNav]
  rw [validate_of hepoch, ok_bind, hs1, ok_bind, hs2, ok_bind, hfees, ok_bind]
  exact ⟨_, rfl⟩

/-- A refused post has no result. -/
theorem NavPosted.not_refused {v' : Vault} {fs : NavFeeShares} (h : NavPosted v args v' fs) :
    ¬ NavRefused v args := by
  rintro (hle | hle | ⟨hpos, hrefused⟩)
  · exact absurd h.epoch_lt (Nat.not_lt.2 hle)
  · exact absurd h.supply_lt (Nat.not_lt.2 hle)
  · have hnav := h.nav_of_pos hpos
    have hm := h.managerFeeShares
    have hp := h.platformFeeShares
    have hum := h.unclaimedManager
    have hup := h.unclaimedPlatform
    rcases hrefused with ⟨hne, hle⟩ | hle | ⟨bps, e, hlt⟩ | hle | hle | hle | hle
    · rcases h.fee_lt hpos with h0 | hlt
      · exact hne h0
      · omega
    · omega
    · have hdev := h.deviation hpos bps e
      omega
    all_goals omega

theorem elapsed_eq (v : Vault) (args : NavUpdateArgs) (h0 : 0 ≤ v.lastNavTs.val)
    (h1 : v.lastNavTs.val ≤ args.now.val) :
    (v.navInputs args).elapsed = (args.now.val - v.lastNavTs.val).toNat := by
  have hlt := args.now.lt
  show (args.now.saturatingSub v.lastNavTs).asU128.toNat = _
  unfold I64.saturatingSub I64.asU128
  simp only [BitVec.toNat_ofInt]
  omega

/-- The arithmetic of a NAV post is that of the formulas, and a post fails exactly when it is
refused. -/
theorem updateNav_exact (h0 : 0 ≤ v.lastNavTs.val) (h1 : v.lastNavTs.val ≤ args.now.val)
    (h2 : args.now.val < 2 ^ 48) (hmm : v.managementFeeBps ≤ MAX_BPS)
    (hmp : v.performanceFeeBps ≤ MAX_BPS) (hpm : args.platformManagementFeeBps ≤ MAX_BPS)
    (hpp : args.platformPerformanceFeeBps ≤ MAX_BPS) :
    (v.navInputs args).elapsed = (args.now.val - v.lastNavTs.val).toNat ∧
    (∀ supply : U128, supply.toNat = (v.navInputs args).supply → supply.toNat ≠ 0 →
      supply.toNat < 2 ^ 64 → ∃ gross profit managerFee platformFee totalFee,
        FeesExact v args supply gross profit managerFee platformFee totalFee ∧
        (totalFee = 0 ∨ totalFee < asU128 args.totalAssets →
          ∃ net managerShares platformShares nav, SharesExact v args supply managerFee platformFee
            totalFee net managerShares platformShares nav)) ∧
    (∀ bps : U16, ∃ r, mulDiv (asU128 v.navPerShare) (asU128 bps) (asU128 MAX_BPS) = .ok r ∧
      r.toNat = v.navPerShare.toNat * bps.toNat / 10000) ∧
    ((∃ e, v.updateNav args = .error e) ↔ NavRefused v args) ∧
    ∀ v' fs, v.updateNav args = .ok (v', fs) → NavPosted v args v' fs := by
  have helapsed := v.elapsed_eq args h0 h1
  have hr : NavRanges v args := {
    elapsed := by omega
    managerManagement := hmm
    managerPerformance := hmp
    platformManagement := hpm
    platformPerformance := hpp }
  refine ⟨helapsed, ?_, v.exists_maxDeviation, ?_, fun _ _ h => updateNav_ok h⟩
  · intro supply hs hpos hlt
    obtain ⟨gross, profit, mfee, pfee, tfee, hf⟩ := exists_feesExact hr hs (hs ▸ hpos)
    refine ⟨gross, profit, mfee, pfee, tfee, hf, fun hfee => ?_⟩
    refine exists_sharesExact hf hs (hs ▸ hpos) (hs ▸ hlt) ?_
    rw [← hf.total_eq]
    refine hfee.imp (fun h => by rw [h]; rfl) fun h => ?_
    have hlt : tfee.toNat < (asU128 args.totalAssets).toNat := h
    rwa [asU128_toNat_u64] at hlt
  · constructor
    · rintro ⟨e, he⟩
      by_contra hn
      obtain ⟨r, hok⟩ := exists_updateNav hr hn
      rw [he] at hok
      cases hok
    · intro hrefused
      cases h : v.updateNav args with
      | error e => exact ⟨e, rfl⟩
      | ok r => exact absurd hrefused (updateNav_ok h).not_refused

end

/-! A day after the first post, 1000 shares over assets of 1500 with fees of 2% and 20%. -/

def sampleAccruing : Vault :=
  { new {
      id := 0, authority := 3, depositCap := 1000000, minDeposit := 1, minWithdrawalShares := 1
      performanceFeeBps := 2000, managementFeeBps := 200, currentTs := 0 } with
    totalAssets := 1000
    navEpoch := 1
    lastNavTs := ⟨14400, by decide, by decide⟩ }

def sampleAccrualArgs : NavUpdateArgs where
  totalAssets := 1500
  shareSupply := 1000
  platformPerformanceFeeBps := 500
  platformManagementFeeBps := 100
  maxNavDeviationBps := some 6000
  now := ⟨100800, by decide, by decide⟩

theorem updateNav_exact_sample :
    (∃ e, sampleAccruing.updateNav sampleAccrualArgs = .error e) ↔
      NavRefused sampleAccruing sampleAccrualArgs :=
  (@updateNav_exact sampleAccruing sampleAccrualArgs (by decide) (by decide) (by decide)
    (by decide) (by decide) (by decide) (by decide)).2.2.2.1

example : (sampleAccruing.updateNav sampleAccrualArgs).isOk = true := by rfl

end Vault

end HedgeVault
