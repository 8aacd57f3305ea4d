import HedgeVault.Settlement
import Mathlib.Order.Bounds.Basic

/-!
# The high-water mark

The mark is the greatest of `NAV_PRECISION` and all recorded NAVs
(`run_highWaterMark`), so a post charges performance fee only when its gross NAV is above
all of them. The mark is compared before the fee and advanced after it. Still no gain is
charged twice: a post prices its assets exactly over the shares it leaves (`Priced`),
claims keep these, and a later post of the same assets has that price as its gross NAV.
-/

namespace HedgeVault

open Lib

namespace World

/-- The NAVs recorded so far, with the one of a new vault. -/
def recordedNavs (h : List (Transition World Tx)) : Set Nat :=
  {n | n = NAV_SCALE ∨ ∃ t ∈ h, t.label.isNavPost = true ∧ t.post.vault.navPerShare.toNat = n}

/-- The price is the assets over the shares, `NAV_PRECISION` when there are none. -/
def Priced (p : Pool) : Prop :=
  p.price = if p.shares = 0 then NAV_SCALE else p.assets * NAV_SCALE / p.shares

section

variable {w w' w₀ : World} {now : I64} {e : Event} {tx : Tx} {totalAssets : U64}
  {overridden : Bool} {h : List (Transition World Tx)}

/-! ## The mark -/

theorem recordedNavs_nil : recordedNavs [] = {NAV_SCALE} := by
  ext n
  simp [recordedNavs]

theorem recordedNavs_cons_post {t : Transition World Tx} (ht : t.label.isNavPost = true) :
    recordedNavs (t :: h) = insert t.post.vault.navPerShare.toNat (recordedNavs h) := by
  ext n
  simp only [recordedNavs, List.mem_cons, exists_eq_or_imp, ht, true_and, Set.mem_insert_iff,
    Set.mem_ofPred_eq]
  rw [or_left_comm, eq_comm]

theorem recordedNavs_cons_other {t : Transition World Tx} (ht : t.label.isNavPost = false) :
    recordedNavs (t :: h) = recordedNavs h := by
  ext n
  simp only [recordedNavs, List.mem_cons, exists_eq_or_imp, ht, Bool.false_eq_true, false_and,
    false_or]

/-- A post raises the mark to the new NAV; without supply the new NAV is below it. -/
theorem Change.posted_mark (hP : NAV_SCALE ≤ w.vault.highWaterMark.toNat)
    (h : Change w now (.navPost totalAssets overridden) w') :
    w'.vault.highWaterMark.toNat =
      max w'.vault.navPerShare.toNat w.vault.highWaterMark.toNat := by
  obtain ⟨_, _, post⟩ := h.posted_ok
  by_cases hz : (w.postInputs now totalAssets overridden).supply = 0
  · have hnav : w'.vault.navPerShare.toNat = NAV_SCALE :=
      congrArg BitVec.toNat (post.nav_of_zero hz)
    rw [post.mark_of_zero hz, hnav, max_eq_right hP]
  · rw [post.mark_of_pos hz, max_comm]

theorem run_highWaterMark (h0 : w₀.Fresh) (hr : Run Step w₀ h w) :
    IsGreatest (recordedNavs h) w.vault.highWaterMark.toNat := by
  induction hr with
  | nil =>
    obtain ⟨_, args, _, e⟩ := h0
    rw [recordedNavs_nil, e]
    exact isGreatest_singleton
  | @snoc h s s' tx hr st ih =>
    have hch := process_change (run_wellFormed h0 hr) st
    cases htx : tx.isNavPost with
    | true =>
      obtain ⟨T, o, he⟩ := Tx.event_of_isNavPost htx
      rw [he] at hch
      rw [recordedNavs_cons_post htx, hch.posted_mark (ih.2 (.inl rfl))]
      exact ih.insert _
    | false =>
      have hsame := hch.sameNav (Tx.event_ne_of_isNavPost htx)
      rw [recordedNavs_cons_other htx, hsame.highWaterMark]
      exact ih

/-- The recorded NAV is one of the recorded ones. -/
theorem run_nav_mem (h0 : w₀.Fresh) (hr : Run Step w₀ h w) :
    w.vault.navPerShare.toNat ∈ recordedNavs h := by
  induction hr with
  | nil =>
    obtain ⟨_, args, _, e⟩ := h0
    rw [e]
    exact .inl rfl
  | @snoc h s s' tx hr st ih =>
    have hch := process_change (run_wellFormed h0 hr) st
    cases htx : tx.isNavPost with
    | true =>
      rw [recordedNavs_cons_post htx]
      exact .inl rfl
    | false =>
      have hsame := hch.sameNav (Tx.event_ne_of_isNavPost htx)
      rw [recordedNavs_cons_other htx, hsame.navPerShare]
      exact ih

/-! ## The same assets again -/

theorem Change.posted_priced (h : Change w now (.navPost totalAssets overridden) w') :
    Priced w'.pool := by
  unfold Priced
  by_cases hz : w.pool.shares = 0
  · obtain ⟨hshares, hprice⟩ := h.posted_zero hz
    rw [if_pos hshares, hprice]
  · -- the shares after the post are at least those before
    have hle : (w.postInputs now totalAssets overridden).supply ≤
        (w.postInputs now totalAssets overridden).newSupply := by
      unfold NavInputs.newSupply
      omega
    rw [postInputs_supply] at hle
    rw [h.posted_shares, h.posted_price hz, h.posted_assets, if_neg (by omega)]; rfl

/-- The gross NAV of assets that are priced already is no news. -/
theorem Priced.grossNav_le (hp : Priced w.pool) (hassets : w.pool.assets = totalAssets.toNat)
    (hmark : w.vault.navPerShare.toNat ≤ w.vault.highWaterMark.toNat) :
    (w.postInputs now totalAssets overridden).grossNav ≤ w.vault.highWaterMark.toNat := by
  show totalAssets.toNat * NAV_SCALE / (w.postInputs now totalAssets overridden).supply ≤ _
  rw [postInputs_supply]
  by_cases hz : w.pool.shares = 0
  · rw [hz, Nat.div_zero]
    exact Nat.zero_le _
  · have hprice : w.pool.price = _ := hp
    rw [if_neg hz, hassets] at hprice
    rw [← hprice]
    exact hmark

/-- Without management rates, posting assets that are priced already changes no fee and no
price. -/
theorem Change.same_post (h : Change w now (.navPost totalAssets overridden) w')
    (hp : Priced w.pool) (hassets : w.pool.assets = totalAssets.toNat)
    (hP : NAV_SCALE ≤ w.vault.highWaterMark.toNat)
    (hmark : w.vault.navPerShare.toNat ≤ w.vault.highWaterMark.toNat)
    (hmanager : w.vault.managementFeeBps = 0) (hplatform : w.config.platformManagementFeeBps = 0) :
    w'.vault.unclaimedManagerFeeShares = w.vault.unclaimedManagerFeeShares ∧
    w'.vault.unclaimedPlatformFeeShares = w.vault.unclaimedPlatformFeeShares ∧
    w'.vault.navPerShare = w.vault.navPerShare ∧
    w'.vault.highWaterMark = w.vault.highWaterMark := by
  have hfee : (w.postInputs now totalAssets overridden).totalFee = 0 :=
    NavInputs.totalFee_eq_zero _ (hp.grossNav_le hassets hmark)
      (congrArg BitVec.toNat hmanager) (congrArg BitVec.toNat hplatform)
  obtain ⟨hm0, hp0⟩ := NavInputs.shares_of_totalFee _ hfee
  obtain ⟨haccm, haccp⟩ := h.accrued
  have hnav : w'.vault.navPerShare.toNat = w.vault.navPerShare.toNat := by
    have hprice : w.pool.price = _ := hp
    by_cases hz : w.pool.shares = 0
    · rw [if_pos hz] at hprice
      exact (h.posted_zero hz).2.trans hprice.symm
    · rw [if_neg hz, hassets] at hprice
      have hnew := h.posted_price hz
      rw [NavInputs.navPerShare_of_totalFee _ hfee] at hnew
      refine hnew.trans (Eq.trans ?_ hprice.symm)
      show totalAssets.toNat * NAV_SCALE / (w.postInputs now totalAssets overridden).supply = _
      rw [postInputs_supply]
  refine ⟨BitVec.eq_of_toNat_eq ?_, BitVec.eq_of_toNat_eq ?_, BitVec.eq_of_toNat_eq hnav,
    BitVec.eq_of_toNat_eq ?_⟩
  · rw [haccm, hm0, add_zero]
  · rw [haccp, hp0, add_zero]
  · rw [h.posted_mark hP, hnav, max_eq_right hmark]

/-- Claims change neither the pool nor the mark. -/
theorem run_claims {h : List (Transition World Tx)} (wf : w.WellFormed) (hr : Run Step w h w')
    (hclaims : ∀ t ∈ h, t.label.event.isClaim = true) :
    w'.pool = w.pool ∧ w'.vault.highWaterMark = w.vault.highWaterMark := by
  have hchange : ∀ t ∈ h, Change t.pre t.label.now t.label.event t.post := by
    intro t ht
    obtain ⟨newer, older, rfl⟩ := List.append_of_mem ht
    obtain ⟨hpre, st, _⟩ := hr.split
    exact process_change (hpre.inv wf fun _ _ _ wf st => st.wellFormed wf) st
  constructor
  · exact hr.frame fun t ht => (hchange t ht).claim_pool (hclaims t ht)
  · refine hr.frame (f := fun w => w.vault.highWaterMark) fun t ht => ?_
    refine ((hchange t ht).sameNav fun T o he => ?_).highWaterMark
    have hclaim := hclaims t ht
    rw [he] at hclaim
    cases hclaim

theorem run_nav_le (h0 : w₀.Fresh) (hr : Run Step w₀ h w) :
    w.vault.navPerShare.toNat ≤ w.vault.highWaterMark.toNat :=
  (run_highWaterMark h0 hr).2 (run_nav_mem h0 hr)

/-- A performance fee is charged only above all NAVs recorded before. -/
theorem lt_grossNav_of_performanceFee (h0 : w₀.Fresh) (hr : Run Step w₀ h w) {bps n : Nat}
    (hfee : 0 < (w.postInputs now totalAssets overridden).performanceFee bps)
    (hn : n ∈ recordedNavs h) : n < (w.postInputs now totalAssets overridden).grossNav :=
  ((run_highWaterMark h0 hr).2 hn).trans_lt (NavInputs.lt_grossNav_of_performanceFee _ hfee)

/-- Two posts of the same assets, with only claims between them. -/
theorem post_again {s s' : World} {claims : List (Transition World Tx)} {overridden' : Bool}
    {now' : I64} (h0 : w₀.Fresh) (hr : Run Step w₀ h w) (hr' : Run Step w₀ (claims ++ h) s)
    (hfirst : ∃ v, Change v now (.navPost totalAssets overridden) w)
    (hbetween : Run Step w claims s) (hclaims : ∀ c ∈ claims, c.label.event.isClaim = true)
    (hpost : Change s now' (.navPost totalAssets overridden') s')
    (hmanager : s.vault.managementFeeBps = 0) (hplatform : s.config.platformManagementFeeBps = 0) :
    s'.vault.unclaimedManagerFeeShares = s.vault.unclaimedManagerFeeShares ∧
    s'.vault.unclaimedPlatformFeeShares = s.vault.unclaimedPlatformFeeShares ∧
    s'.vault.navPerShare = w.vault.navPerShare ∧
    s'.vault.highWaterMark = w.vault.highWaterMark := by
  obtain ⟨v, hfirst⟩ := hfirst
  obtain ⟨hpool, hmark⟩ := run_claims (run_wellFormed h0 hr) hbetween hclaims
  have hpriced : Priced s.pool := by
    rw [hpool]
    exact hfirst.posted_priced
  have hassets : s.pool.assets = totalAssets.toNat := by
    rw [hpool]
    exact hfirst.posted_assets
  have hP : NAV_SCALE ≤ s.vault.highWaterMark.toNat := (run_highWaterMark h0 hr').2 (.inl rfl)
  obtain ⟨hm, hp, hnav, hmark'⟩ := hpost.same_post hpriced hassets hP (run_nav_le h0 hr')
    hmanager hplatform
  have hprice : s.vault.navPerShare = w.vault.navPerShare :=
    BitVec.eq_of_toNat_eq (congrArg Pool.price hpool)
  exact ⟨hm, hp, hnav.trans hprice, hmark'.trans hmark⟩

/-! ## Main result -/

/-- The mark is the greatest recorded NAV; a post charges performance fee only above all
NAVs recorded before it; and posting the same assets again, without management rates and
with claims alone in between, accrues nothing and keeps the NAV and the mark. -/
theorem high_water_mark (h0 : w₀.Fresh) (hr : Run Step w₀ h w) :
    IsGreatest (recordedNavs h) w.vault.highWaterMark.toNat ∧
    w.vault.navPerShare ≤ w.vault.highWaterMark ∧
    (∀ newer (t : Transition World Tx) older T o, h = newer ++ t :: older →
      t.label.event = .navPost T o →
      t.post.vault.unclaimedManagerFeeShares.toNat =
        t.pre.vault.unclaimedManagerFeeShares.toNat +
          (t.pre.postInputs t.label.now T o).managerFeeShares ∧
      t.post.vault.unclaimedPlatformFeeShares.toNat =
        t.pre.vault.unclaimedPlatformFeeShares.toNat +
          (t.pre.postInputs t.label.now T o).platformFeeShares ∧
      ∀ bps, 0 < (t.pre.postInputs t.label.now T o).performanceFee bps →
        ∀ n ∈ recordedNavs older, n < (t.pre.postInputs t.label.now T o).grossNav) ∧
    ∀ newer (t : Transition World Tx) claims (first : Transition World Tx) older T o o',
      h = newer ++ t :: (claims ++ first :: older) →
      first.label.event = .navPost T o → (∀ c ∈ claims, c.label.event.isClaim = true) →
      t.label.event = .navPost T o' → t.pre.vault.managementFeeBps = 0 →
      t.pre.config.platformManagementFeeBps = 0 →
      t.post.vault.unclaimedManagerFeeShares = t.pre.vault.unclaimedManagerFeeShares ∧
      t.post.vault.unclaimedPlatformFeeShares = t.pre.vault.unclaimedPlatformFeeShares ∧
      t.post.vault.navPerShare = first.post.vault.navPerShare ∧
      t.post.vault.highWaterMark = first.post.vault.highWaterMark := by
  refine ⟨run_highWaterMark h0 hr, run_nav_le h0 hr, ?_, ?_⟩
  · rintro newer t older T o rfl he
    obtain ⟨hpre, st, _⟩ := hr.split
    have hch := process_change (run_wellFormed h0 hpre) st
    rw [he] at hch
    obtain ⟨hm, hp⟩ := hch.accrued
    exact ⟨hm, hp, fun bps hfee n hn => lt_grossNav_of_performanceFee h0 hpre hfee hn⟩
  · rintro newer t claims first older T o o' rfl hfirst hclaims he hmanager hplatform
    obtain ⟨hpre, st, _⟩ := hr.split
    obtain ⟨hold, stFirst, hbetween⟩ := hpre.split
    have hchFirst := process_change (run_wellFormed h0 hold) stFirst
    have hch := process_change (run_wellFormed h0 hpre) st
    rw [hfirst] at hchFirst
    rw [he] at hch
    exact post_again h0 (hold.snoc stFirst) hpre ⟨_, hchFirst⟩ hbetween hclaims hch hmanager
      hplatform

/-! The price rises by half, the manager claims the performance fee, and the same assets are
posted again. -/

def againPost : Tx := (Instruction.navUpdate 1500).sentBy updater 43200

theorem high_water_mark_sample :
    (final process sample (sampleTxs.take 5 ++ [againPost])).vault.unclaimedManagerFeeShares =
      (sampleAfter 5).vault.unclaimedManagerFeeShares ∧
    (final process sample (sampleTxs.take 5 ++ [againPost])).vault.navPerShare =
      (sampleAfter 4).vault.navPerShare := by
  have hok : (runAll process sample [] (sampleTxs.take 5 ++ [againPost])).isOk = true := by rfl
  obtain ⟨_, _, _, hagain⟩ := high_water_mark sample_fresh (run_final hok)
  have hclaim : sampleHistory 5 =
      [⟨sampleAfter 4, Instruction.vaultClaimManagerFee.sentBy manager 28801, sampleAfter 5⟩] ++
        ⟨sampleAfter 3, (Instruction.navUpdate 1500).sentBy updater 28800, sampleAfter 4⟩ ::
          sampleHistory 3 := by rfl
  have hhistory := (history_snoc hok).trans (congrArg (List.cons _) hclaim)
  obtain ⟨hm, _, hnav, _⟩ := hagain [] _ _ _ _ 1500 false false hhistory rfl
    (fun c hc => by rw [List.mem_singleton.1 hc]; rfl) rfl (by rfl) (by rfl)
  exact ⟨hm, hnav⟩

example : (sampleAfter 4).vault.highWaterMark = 1400560224 ∧
    (sampleAfter 4).vault.unclaimedManagerFeeShares = 71 := by decide

end

end World

end HedgeVault
