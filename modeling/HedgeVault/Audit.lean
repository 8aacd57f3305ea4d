import HedgeVault.Census
import HedgeVault.ConfigAuthority
import HedgeVault.HighWaterMark
import HedgeVault.Mirror

/-!
# The audit of the program

Every processed instruction of the program is `Followed`: its records pass the audit and take
the mirror of the world before it to the mirror of the world after it. There is one lemma for
each handler; it needs of the world before (`Legible`) that requests and strategies are stored
under their keys, that the mark is at least the first price, and that the pause flags are
booleans, as the log shows them.
-/

namespace HedgeVault

open Lib

namespace World

/-- The pause flags are booleans. -/
structure Flags (v : Vault) : Prop where
  deposit : v.depositPaused = 0 ∨ v.depositPaused = 1
  withdrawal : v.withdrawalPaused = 0 ∨ v.withdrawalPaused = 1

/-- What the log relies on beside the handlers. -/
structure Legible (w : World) : Prop where
  wellFormed : w.WellFormed
  mark : NAV_SCALE ≤ w.vault.highWaterMark.toNat
  flags : Flags w.vault
  stored : ∀ k s, w.strategies.lookup k = some s →
    s.vault = w.key ∧ s.strategyType.protocolAccount = k

/-- The log of the step passes the audit and takes the mirror along. -/
def Followed (w : World) (tx : Tx) (w' : World) : Prop :=
  Accepts Mirror.Admits Mirror.apply w.mirror (logged ⟨w, tx, w'⟩) w'.mirror

section

variable {w w' w₀ : World} {now : I64} {signer : Signer} {u : Pubkey} {ix : Instruction}
  {older : List (Transition World Tx)}

theorem Followed.single {e : ProgramEvent}
    (hlog : emitted { w with clock := now } w' signer ix = [e])
    (ha : w.mirror.Admits ⟨now, signer.key, e⟩)
    (he : w.mirror.apply ⟨now, signer.key, e⟩ = w'.mirror) : Followed w ⟨signer, now, ix⟩ w' := by
  have hrecord : logged ⟨w, ⟨signer, now, ix⟩, w'⟩ = [⟨now, signer.key, e⟩] := by
    unfold logged
    rw [hlog]; rfl
  unfold Followed
  rw [hrecord]
  exact .single ha he

/-- The one event a handler emits about a record it found. -/
theorem event_of_found {ρ : Type} {o : Option ρ} {r : ρ} (f : ρ → ProgramEvent) (ho : o = some r) :
    o.toList.map f = [f r] := by
  rw [ho]; rfl

/-! ## Deposits -/

theorem mirror_deposit (u : Pubkey) :
    w.mirror.deposits u = (w.depositRequests.lookup u).map (·.withoutRent) := rfl

theorem mirror_depositOf (u : Pubkey) :
    w.mirror.depositOf u = valueAt (·.amount.toNat) w.depositRequests u := by
  unfold Mirror.depositOf valueAt
  rw [mirror_deposit]
  cases w.depositRequests.lookup u with
  | none => rfl
  | some r => rfl

theorem openDeposit_createdTs (wf : w.WellFormed) (u : Pubkey) (rent : U64) :
    (w.openDeposit u rent).createdTs = (w.mirror.deposits u).elim w.clock (·.createdTs) := by
  obtain ⟨_, _, _, hold⟩ := openDeposit_of_wellFormed wf u rent
  cases hu : w.depositRequests.lookup u with
  | none => simp [openDeposit, mirror_deposit, hu, DepositRequest.zeroed, DepositRequest.new]
  | some q => rw [hold q hu, mirror_deposit, hu]; rfl

theorem depositRequestCreate_followed (wf : w.WellFormed) {amount rent : U64}
    {verdict : Result Unit}
    (h : depositRequestCreate { w with clock := now } signer amount verdict rent = .ok w') :
    Followed w ⟨signer, now, .depositRequestCreate amount verdict rent⟩ w' := by
  simp only [depositRequestCreate, Config.isProtocolOperational, Vault.isVaultOperational,
    Vault.validateDepositNotPaused, Vault.isDepositPaused, not_not, bind_eq_ok, pure_eq_ok,
    validate_eq_ok, ofToken_eq_ok] at h
  obtain ⟨_, hpos, _, hconfig, _, hvault, _, hpaused, _, _, r, hr, v, hv, m, _, rfl⟩ := h
  have wf' : WellFormed { w with clock := now } := ⟨wf.deposit, wf.withdrawal⟩
  obtain ⟨ha, hk, hamount, hold⟩ := openDeposit_of_wellFormed wf' signer.key rent
  have hts := openDeposit_createdTs wf' signer.key rent
  obtain ⟨hepoch, hadd, hr'⟩ := DepositRequest.add_ok hr
  obtain ⟨hnav, hmin, hpending, hcap, hv'⟩ := Vault.requestDeposit_ok hv
  refine .single (e := .depositRequested ⟨w.key, signer.key, amount, r.amount, r.epoch⟩) ?_ ?_ ?_
  · exact event_of_found _ (Finmap.lookup_insert _)
  · exact {
      signer := rfl
      vault := rfl
      operational := ⟨hconfig, hvault⟩
      notPaused := hpaused
      pos := hpos
      minimum := hmin
      priced := hnav
      cap := by
        show w.vault.totalAssets.toNat + w.vault.pendingDeposits.toNat + amount.toNat ≤ _
        rw [Nat.add_assoc, ← hpending]
        exact hcap
      epoch := by rw [hr']; exact hepoch
      pending := by rw [mirror_depositOf, ← hadd, hamount]
      sameEpoch := by
        intro q hq
        rw [mirror_deposit] at hq
        obtain ⟨p, hp, rfl⟩ := Option.map_eq_some_iff.1 hq
        rw [hr', ← hold p hp]; rfl }
  · refine Mirror.ext rfl rfl rfl ?_ ?_ rfl rfl
    · show { w.vault with pendingDeposits := w.vault.pendingDeposits + amount } = v
      rw [hv', eq_add_of_toNat hpending]
    · show Function.update w.mirror.deposits signer.key _ = shown _ (w.depositRequests.insert _ r)
      rw [shown_insert]
      refine congrArg (fun q => Function.update w.mirror.deposits signer.key (some q)) ?_
      rw [hr']
      exact (DepositRequest.mk.injEq ..).mpr ⟨ha.symm, hk.symm, rfl, rfl, hts.symm, rfl⟩

theorem refundDeposit_mirror {r : DepositRequest}
    (h : refundDeposit { w with clock := now } u r = .ok w') :
    w.mirror.depositReturned u r.amount = w'.mirror ∧
      r.amount.toNat ≤ w.vault.pendingDeposits.toNat := by
  simp only [refundDeposit, bind_eq_ok, pure_eq_ok, ofToken_eq_ok] at h
  obtain ⟨v, hv, m, _, rfl⟩ := h
  obtain ⟨hpending, hv'⟩ := Vault.cancelDeposit_ok hv
  refine ⟨Mirror.ext rfl rfl rfl ?_ ?_ rfl rfl, by omega⟩
  · show { w.vault with pendingDeposits := w.vault.pendingDeposits - r.amount } = v
    rw [hv', eq_sub_of_toNat hpending]
  · exact (shown_erase _ _ _).symm

theorem depositRequestCancel_followed
    (h : depositRequestCancel { w with clock := now } signer = .ok w') :
    Followed w ⟨signer, now, .depositRequestCancel⟩ w' := by
  simp only [depositRequestCancel, DepositRequest.isCancellable, bind_eq_ok, load_eq_ok,
    validate_eq_ok] at h
  obtain ⟨r, found, _, _, _, _, _, hopen, h⟩ := h
  obtain ⟨hmirror, hle⟩ := refundDeposit_mirror h
  refine .single (e := .depositCancelled w.key signer.key r.amount) ?_ ?_ hmirror
  · exact event_of_found _ found
  · refine ⟨rfl, rfl, r.withoutRent, ?_, rfl, hle, hopen⟩
    rw [mirror_deposit, found]; rfl

theorem depositRequestReject_followed
    (h : depositRequestReject { w with clock := now } signer u = .ok w') :
    Followed w ⟨signer, now, .depositRequestReject u⟩ w' := by
  simp only [depositRequestReject, Config.validateAdmin, bind_eq_ok, load_eq_ok,
    validate_eq_ok] at h
  obtain ⟨r, found, _, hadmin, _, _, _, _, h⟩ := h
  obtain ⟨hmirror, hle⟩ := refundDeposit_mirror h
  refine .single (e := .depositRejected w.key u r.amount) ?_ ?_ hmirror
  · exact event_of_found _ found
  · refine ⟨hadmin.symm, rfl, r.withoutRent, ?_, rfl, hle, trivial⟩
    rw [mirror_deposit, found]; rfl

theorem depositRequestResolve_followed
    (h : depositRequestResolve { w with clock := now } u = .ok w') :
    Followed w ⟨signer, now, .depositRequestResolve u⟩ w' := by
  simp only [depositRequestResolve, Config.isProtocolOperational, Vault.isVaultOperational,
    Vault.validateDepositNotPaused, Vault.isDepositPaused, DepositRequest.isResolvable, not_not,
    bind_eq_ok, load_eq_ok, pure_eq_ok, validate_eq_ok, ofToken_eq_ok] at h
  obtain ⟨r, found, _, hconfig, _, hvault, _, hpaused, _, _, _, _, _, hlater, ⟨v, shares⟩, hv, m, _,
    s, _, rfl⟩ := h
  obtain ⟨_, hshares, hpos, hpending, hassets, hv'⟩ := Vault.resolveDeposit_ok hv
  have hprice : v.navPerShare = w.vault.navPerShare := by rw [hv']
  have hmax := v.totalAssets.isLt
  have hreturned : returned (w.vault.resolveDeposit r.amount) 0 = shares := by rw [hv]; rfl
  refine .single (e := .depositResolved ⟨w.key, u, r.amount, shares, v.navPerShare⟩) ?_ ?_ ?_
  · rw [← hreturned]
    exact event_of_found _ found
  · exact {
      vault := rfl
      operational := ⟨hconfig, hvault⟩
      notPaused := hpaused
      request := by
        refine ⟨r.withoutRent, ?_, rfl, hlater⟩
        rw [mirror_deposit, found]; rfl
      price := hprice
      shares := hshares
      pos := hpos
      pending := by
        show r.amount.toNat ≤ w.vault.pendingDeposits.toNat
        omega
      assets := by
        show w.vault.totalAssets.toNat + r.amount.toNat < 2 ^ 64
        omega }
  · refine Mirror.ext rfl rfl rfl ?_ ?_ rfl rfl
    · show { w.vault with
        pendingDeposits := w.vault.pendingDeposits - r.amount
        totalAssets := w.vault.totalAssets + r.amount } = v
      rw [hv', eq_sub_of_toNat hpending, eq_add_of_toNat hassets]
    · exact (shown_erase _ _ _).symm

/-! ## Withdrawals -/

theorem mirror_withdrawal (u : Pubkey) :
    w.mirror.withdrawals u = (w.withdrawalRequests.lookup u).map (·.withoutRent) := rfl

theorem mirror_withdrawalOf (u : Pubkey) :
    w.mirror.withdrawalOf u = valueAt (·.shares.toNat) w.withdrawalRequests u := by
  unfold Mirror.withdrawalOf valueAt
  rw [mirror_withdrawal]
  cases w.withdrawalRequests.lookup u with
  | none => rfl
  | some r => rfl

theorem openWithdrawal_createdTs (wf : w.WellFormed) (u : Pubkey) (rent : U64) :
    (w.openWithdrawal u rent).createdTs = (w.mirror.withdrawals u).elim w.clock (·.createdTs) := by
  obtain ⟨_, _, _, hold⟩ := openWithdrawal_of_wellFormed wf u rent
  cases hu : w.withdrawalRequests.lookup u with
  | none =>
    simp [openWithdrawal, mirror_withdrawal, hu, WithdrawalRequest.zeroed, WithdrawalRequest.new]
  | some q => rw [hold q hu, mirror_withdrawal, hu]; rfl

theorem withdrawalRequestCreate_followed (wf : w.WellFormed) {shares rent : U64}
    (h : withdrawalRequestCreate { w with clock := now } signer shares rent = .ok w') :
    Followed w ⟨signer, now, .withdrawalRequestCreate shares rent⟩ w' := by
  simp only [withdrawalRequestCreate, Config.isProtocolWithdrawable, Vault.isVaultWithdrawable,
    Vault.validateWithdrawalNotPaused, Vault.isWithdrawalPaused, not_not, bind_eq_ok, pure_eq_ok,
    validate_eq_ok, ofToken_eq_ok] at h
  obtain ⟨_, hpos, _, hconfig, _, hvault, _, hpaused, r, hr, v, hv, s, _, rfl⟩ := h
  have wf' : WellFormed { w with clock := now } := ⟨wf.deposit, wf.withdrawal⟩
  obtain ⟨ha, hk, hshares, hold⟩ := openWithdrawal_of_wellFormed wf' signer.key rent
  have hts := openWithdrawal_createdTs wf' signer.key rent
  obtain ⟨hepoch, hadd, hr'⟩ := WithdrawalRequest.add_ok hr
  obtain ⟨hpending, hv'⟩ := Vault.requestWithdrawal_ok hv
  have hmax := v.pendingWithdrawalShares.isLt
  refine .single (e := .withdrawalRequested ⟨w.key, signer.key, shares, r.shares, r.epoch⟩) ?_ ?_ ?_
  · exact event_of_found _ (Finmap.lookup_insert _)
  · exact {
      signer := rfl
      vault := rfl
      withdrawable := ⟨hconfig, hvault⟩
      notPaused := hpaused
      pos := hpos
      room := by
        show w.vault.pendingWithdrawalShares.toNat + shares.toNat < 2 ^ 64
        omega
      epoch := by rw [hr']; exact hepoch
      pending := by rw [mirror_withdrawalOf, ← hadd, hshares]
      sameEpoch := by
        intro q hq
        rw [mirror_withdrawal] at hq
        obtain ⟨p, hp, rfl⟩ := Option.map_eq_some_iff.1 hq
        rw [hr', ← hold p hp]; rfl }
  · refine Mirror.ext rfl rfl rfl ?_ rfl ?_ rfl
    · show { w.vault with
        pendingWithdrawalShares := w.vault.pendingWithdrawalShares + shares } = v
      rw [hv', eq_add_of_toNat hpending]
    · show Function.update w.mirror.withdrawals signer.key _ = shown _ (w.withdrawalRequests.insert _ r)
      rw [shown_insert]
      refine congrArg (fun q => Function.update w.mirror.withdrawals signer.key (some q)) ?_
      rw [hr']
      exact (WithdrawalRequest.mk.injEq ..).mpr ⟨ha.symm, hk.symm, rfl, rfl, hts.symm, rfl⟩

theorem refundWithdrawal_mirror {r : WithdrawalRequest}
    (h : refundWithdrawal { w with clock := now } u r = .ok w') :
    w.mirror.withdrawalReturned u r.shares = w'.mirror ∧
      r.shares.toNat ≤ w.vault.pendingWithdrawalShares.toNat := by
  simp only [refundWithdrawal, bind_eq_ok, pure_eq_ok, ofToken_eq_ok] at h
  obtain ⟨v, hv, s, _, rfl⟩ := h
  obtain ⟨hpending, hv'⟩ := Vault.cancelWithdrawal_ok hv
  refine ⟨Mirror.ext rfl rfl rfl ?_ rfl ?_ rfl, by omega⟩
  · show { w.vault with pendingWithdrawalShares := w.vault.pendingWithdrawalShares - r.shares } = v
    rw [hv', eq_sub_of_toNat hpending]
  · exact (shown_erase _ _ _).symm

theorem withdrawalRequestCancel_followed
    (h : withdrawalRequestCancel { w with clock := now } signer = .ok w') :
    Followed w ⟨signer, now, .withdrawalRequestCancel⟩ w' := by
  simp only [withdrawalRequestCancel, WithdrawalRequest.isCancellable, bind_eq_ok, load_eq_ok,
    validate_eq_ok] at h
  obtain ⟨r, found, _, _, _, _, _, hopen, h⟩ := h
  obtain ⟨hmirror, hle⟩ := refundWithdrawal_mirror h
  refine .single (e := .withdrawalCancelled w.key signer.key r.shares) ?_ ?_ hmirror
  · exact event_of_found _ found
  · refine ⟨rfl, rfl, r.withoutRent, ?_, rfl, hle, hopen⟩
    rw [mirror_withdrawal, found]; rfl

theorem withdrawalRequestReject_followed
    (h : withdrawalRequestReject { w with clock := now } signer u = .ok w') :
    Followed w ⟨signer, now, .withdrawalRequestReject u⟩ w' := by
  simp only [withdrawalRequestReject, Config.validateAdmin, bind_eq_ok, load_eq_ok,
    validate_eq_ok] at h
  obtain ⟨r, found, _, hadmin, _, _, _, _, h⟩ := h
  obtain ⟨hmirror, hle⟩ := refundWithdrawal_mirror h
  refine .single (e := .withdrawalRejected w.key u r.shares) ?_ ?_ hmirror
  · exact event_of_found _ found
  · refine ⟨hadmin.symm, rfl, r.withoutRent, ?_, rfl, hle, trivial⟩
    rw [mirror_withdrawal, found]; rfl

theorem withdrawalRequestResolve_followed
    (h : withdrawalRequestResolve { w with clock := now } u = .ok w') :
    Followed w ⟨signer, now, .withdrawalRequestResolve u⟩ w' := by
  simp only [withdrawalRequestResolve, Config.isProtocolWithdrawable, Vault.isVaultWithdrawable,
    Vault.validateWithdrawalNotPaused, Vault.isWithdrawalPaused, WithdrawalRequest.isResolvable,
    not_not, bind_eq_ok, load_eq_ok, pure_eq_ok, validate_eq_ok, ofToken_eq_ok, payOut_eq_ok] at h
  obtain ⟨r, found, _, hconfig, _, hvault, _, hpaused, _, _, _, _, _, hlater, ⟨v, amount⟩, hv, _, _,
    s, _, m, _, rfl⟩ := h
  obtain ⟨hamount, hpending, houtflow, hassets, hv'⟩ := Vault.resolveWithdrawal_ok hv
  have hprice : v.navPerShare = w.vault.navPerShare := by rw [hv']
  have hmax := v.epochOutflow.isLt
  have hreturned : returned (w.vault.resolveWithdrawal r.shares w.config.maxEpochOutflowBps) 0 =
      amount := by rw [hv]; rfl
  refine .single (e := .withdrawalResolved ⟨w.key, u, r.shares, amount, v.navPerShare⟩) ?_ ?_ ?_
  · rw [← hreturned]
    exact event_of_found _ found
  · exact {
      vault := rfl
      withdrawable := ⟨hconfig, hvault⟩
      notPaused := hpaused
      request := by
        refine ⟨r.withoutRent, ?_, rfl, hlater⟩
        rw [mirror_withdrawal, found]; rfl
      price := hprice
      amount := hamount
      pending := by
        show r.shares.toNat ≤ w.vault.pendingWithdrawalShares.toNat
        omega
      assets := by
        show amount.toNat ≤ w.vault.totalAssets.toNat
        omega
      outflow := by
        show w.vault.epochOutflow.toNat + amount.toNat < 2 ^ 64
        omega }
  · refine Mirror.ext rfl rfl rfl ?_ rfl ?_ rfl
    · show { w.vault with
        pendingWithdrawalShares := w.vault.pendingWithdrawalShares - r.shares
        epochOutflow := w.vault.epochOutflow + amount
        totalAssets := w.vault.totalAssets - amount } = v
      rw [hv', eq_sub_of_toNat hpending, eq_add_of_toNat houtflow, eq_sub_of_toNat hassets]
    · exact (shown_erase _ _ _).symm

/-! ## NAV and fees -/

theorem navUpdated_on {v v' : Vault} {args : NavUpdateArgs} {fees : NavFeeShares}
    (post : Vault.NavPosted v args v' fees) (key : Pubkey) (overridden : Bool) :
    NavUpdated.on ⟨key, v'.navEpoch, v'.totalAssets, v'.navPerShare, v'.highWaterMark,
      fees.managerFeeShares, fees.platformFeeShares, overridden⟩ v args.now = v' := by
  refine Eq.trans ?_ post.eq.symm
  simp only [NavUpdated.on, Vault.withNav, post.totalAssets, post.navEpoch,
    eq_add_of_toNat post.unclaimedManager, eq_add_of_toNat post.unclaimedPlatform]

theorem postNav_followed (mark : NAV_SCALE ≤ w.vault.highWaterMark.toNat) (overridden : Bool)
    {totalAssets : U64}
    (hsigner : signer.key = if overridden then w.config.admin else w.config.navUpdater)
    (hlog : emitted { w with clock := now } w' signer ix = [.navUpdated (w'.navUpdated
      (postedFees { w with clock := now } totalAssets (w.navLimit overridden)) overridden)])
    (h : postNav { w with clock := now } totalAssets (w.navLimit overridden) = .ok w') :
    Followed w ⟨signer, now, ix⟩ w' := by
  simp only [postNav, bind_eq_ok, pure_eq_ok, validate_eq_ok] at h
  obtain ⟨_, _, ⟨v, fs⟩, hv, rfl⟩ := h
  have post := Vault.updateNav_ok hv
  have hfees : postedFees { w with clock := now } totalAssets (w.navLimit overridden) = fs := by
    unfold postedFees
    rw [hv]; rfl
  have hm := v.unclaimedManagerFeeShares.isLt
  have hp := v.unclaimedPlatformFeeShares.isLt
  have hmanager := post.unclaimedManager
  have hplatform := post.unclaimedPlatform
  rw [hfees] at hlog
  refine .single hlog ?_ ?_
  · exact {
      signer := hsigner
      vault := rfl
      epoch := post.navEpoch
      later := by
        show w.vault.navEpoch.toNat < v.navEpoch.toNat
        rw [post.navEpoch]
        exact post.epoch_lt
      mark := by
        show v.highWaterMark.toNat = max w.vault.highWaterMark.toNat v.navPerShare.toNat
        by_cases h0 : (w.vault.navInputs (navUpdateArgs { w with clock := now } totalAssets
            (w.navLimit overridden))).supply = 0
        · rw [post.mark_of_zero h0, post.nav_of_zero h0, navPrecision_toNat, max_eq_left mark]
        · exact post.mark_of_pos h0
      deviation := by
        cases overridden with
        | true => exact .inl rfl
        | false =>
          by_cases h0 : (w.vault.navInputs (navUpdateArgs { w with clock := now } totalAssets
              (w.navLimit false))).supply = 0
          · exact .inr (.inl (post.nav_of_zero h0))
          · exact .inr (.inr (post.deviation h0 _ rfl))
      managerFee := by
        show w.vault.unclaimedManagerFeeShares.toNat + fs.managerFeeShares.toNat < 2 ^ 64
        omega
      platformFee := by
        show w.vault.unclaimedPlatformFeeShares.toNat + fs.platformFeeShares.toNat < 2 ^ 64
        omega }
  · have hvault := navUpdated_on post w.key overridden
    exact Mirror.ext rfl rfl rfl hvault rfl rfl rfl

theorem navUpdate_followed (mark : NAV_SCALE ≤ w.vault.highWaterMark.toNat) {totalAssets : U64}
    (h : navUpdate { w with clock := now } signer totalAssets = .ok w') :
    Followed w ⟨signer, now, .navUpdate totalAssets⟩ w' := by
  simp only [navUpdate, Config.validateNavUpdater, bind_eq_ok, validate_eq_ok] at h
  obtain ⟨_, hupdater, h⟩ := h
  exact postNav_followed mark false hupdater.symm rfl h

theorem navOverride_followed (mark : NAV_SCALE ≤ w.vault.highWaterMark.toNat) {totalAssets : U64}
    (h : navOverride { w with clock := now } signer totalAssets = .ok w') :
    Followed w ⟨signer, now, .navOverride totalAssets⟩ w' := by
  simp only [navOverride, Config.validateAdmin, bind_eq_ok, validate_eq_ok] at h
  obtain ⟨_, hadmin, h⟩ := h
  exact postNav_followed mark true hadmin.symm rfl h

theorem vaultClaimManagerFee_followed
    (h : vaultClaimManagerFee { w with clock := now } signer = .ok w') :
    Followed w ⟨signer, now, .vaultClaimManagerFee⟩ w' := by
  simp only [vaultClaimManagerFee, Vault.validateAuthority, bind_eq_ok, validate_eq_ok,
    pure_eq_ok, ofToken_eq_ok] at h
  obtain ⟨_, hauthority, ⟨v, shares⟩, hv, s, _, rfl⟩ := h
  obtain ⟨hshares, hpos, hv'⟩ := Vault.claimManagerFee_ok hv
  have hreturned : returned w.vault.claimManagerFee 0 = shares := by rw [hv]; rfl
  refine .single (e := .managerFeeClaimed w.key signer.key shares) ?_ ?_ ?_
  · rw [← hreturned]; rfl
  · exact ⟨rfl, hauthority, rfl, hshares, hpos⟩
  · refine Mirror.ext rfl rfl rfl ?_ rfl rfl rfl
    show { w.vault with
      unclaimedManagerFeeShares := w.vault.unclaimedManagerFeeShares - shares } = v
    rw [hv', hshares, BitVec.sub_self]; rfl

theorem configClaimPlatformFee_followed
    (h : configClaimPlatformFee { w with clock := now } signer = .ok w') :
    Followed w ⟨signer, now, .configClaimPlatformFee⟩ w' := by
  simp only [configClaimPlatformFee, Config.validateTreasuryAuthority, bind_eq_ok, validate_eq_ok,
    pure_eq_ok, ofToken_eq_ok] at h
  obtain ⟨_, hauthority, ⟨v, shares⟩, hv, s, _, rfl⟩ := h
  obtain ⟨hshares, hpos, hv'⟩ := Vault.claimPlatformFee_ok hv
  have hreturned : returned w.vault.claimPlatformFee 0 = shares := by rw [hv]; rfl
  refine .single (e := .platformFeeClaimed w.key signer.key shares) ?_ ?_ ?_
  · rw [← hreturned]; rfl
  · exact ⟨rfl, hauthority.symm, rfl, hshares, hpos⟩
  · refine Mirror.ext rfl rfl rfl ?_ rfl rfl rfl
    show { w.vault with
      unclaimedPlatformFeeShares := w.vault.unclaimedPlatformFeeShares - shares } = v
    rw [hv', hshares, BitVec.sub_self]; rfl

/-! ## Settings -/

/-- What an update asks of the fees: none rises at once, and a new pair waits. -/
theorem askFees_delayed {v v' : Vault} {args : VaultUpdateArgs} (h : v.askFees args now = .ok v') :
    v'.performanceFeeBps.toNat ≤ v.performanceFeeBps.toNat ∧
    v'.managementFeeBps.toNat ≤ v.managementFeeBps.toNat ∧
    ((v'.pendingPerformanceFeeBps = v.pendingPerformanceFeeBps ∧
        v'.pendingManagementFeeBps = v.pendingManagementFeeBps ∧
        v'.feeEffectiveTs = v.feeEffectiveTs) ∨ v'.feeEffectiveTs = 0 ∨
      v'.feeEffectiveTs.val = now.val + FEE_INCREASE_DELAY.val) := by
  unfold Vault.askFees at h
  split at h
  · obtain ⟨_, _, h⟩ := Vault.updateFees_ok h
    rcases Vault.setFees_ok h with ⟨hp, hm, rfl⟩ | ⟨_, hts, e⟩
    · exact ⟨hp, hm, .inr (.inl rfl)⟩
    · refine ⟨?_, ?_, .inr (.inr hts.symm)⟩
      · rw [e]; exact le_rfl
      · rw [e]; exact le_rfl
  · rw [pure_eq_ok] at h
    subst h
    exact ⟨le_rfl, le_rfl, .inl ⟨rfl, rfl, rfl⟩⟩

/-- A pause flag is what its boolean says. -/
theorem flag_eq {x : U8} (hx : x = 0 ∨ x = 1) : BitVec.ofNat 8 (decide (x ≠ 0)).toNat = x := by
  rcases hx with rfl | rfl
  · rfl
  · rfl

theorem vaultUpdate_followed (hl : w'.Legible) {args : VaultUpdateArgs}
    (h : vaultUpdate { w with clock := now } signer args = .ok w') :
    Followed w ⟨signer, now, .vaultUpdate args⟩ w' := by
  simp only [vaultUpdate, Vault.validateAuthority, bind_eq_ok, validate_eq_ok, pure_eq_ok] at h
  obtain ⟨_, hauthority, v, hv, rfl⟩ := h
  have hsame := Vault.update_sameButSettings hv
  obtain ⟨v₁, hask, _, hp, hm, hpp, hpm, hts⟩ := Vault.update_ok hv
  obtain ⟨hperformance, hmanagement, hpending⟩ := askFees_delayed hask
  refine .single rfl ?_ ?_
  · exact {
      signer := hauthority
      vault := rfl
      performanceFee := by
        show v.performanceFeeBps.toNat ≤ _
        rw [hp]; exact hperformance
      managementFee := by
        show v.managementFeeBps.toNat ≤ _
        rw [hm]; exact hmanagement
      pending := by
        show (v.pendingPerformanceFeeBps = _ ∧ v.pendingManagementFeeBps = _ ∧
          v.feeEffectiveTs = _) ∨ v.feeEffectiveTs = 0 ∨ v.feeEffectiveTs.val = _
        rw [hpp, hpm, hts]; exact hpending }
  · refine Mirror.ext rfl rfl rfl (Eq.trans ?_ hsame.symm) rfl rfl rfl
    have hd : BitVec.ofNat 8 (decide v.isDepositPaused).toNat = v.depositPaused :=
      flag_eq hl.flags.deposit
    have hw : BitVec.ofNat 8 (decide v.isWithdrawalPaused).toNat = v.withdrawalPaused :=
      flag_eq hl.flags.withdrawal
    rw [← hd, ← hw]; rfl

theorem vaultPause_followed (h : vaultPause { w with clock := now } signer = .ok w') :
    Followed w ⟨signer, now, .vaultPause⟩ w' := by
  simp only [vaultPause, Config.validateGuardian, bind_eq_ok, validate_eq_ok, pure_eq_ok] at h
  obtain ⟨_, hguardian, rfl⟩ := h
  exact .single rfl ⟨rfl, hguardian.symm, rfl⟩ rfl

theorem configPause_followed (h : configPause { w with clock := now } signer = .ok w') :
    Followed w ⟨signer, now, .configPause⟩ w' := by
  simp only [configPause, Config.validateGuardian, bind_eq_ok, validate_eq_ok, pure_eq_ok] at h
  obtain ⟨_, hguardian, rfl⟩ := h
  exact .single rfl ⟨rfl, hguardian.symm⟩ rfl

theorem adminAccept_followed (h : adminAccept { w with clock := now } signer = .ok w') :
    Followed w ⟨signer, now, .adminAccept⟩ w' := by
  simp only [adminAccept, Config.acceptAdmin, bind_eq_ok, validate_eq_ok, pure_eq_ok] at h
  obtain ⟨c, ⟨_, ⟨hne, hpending⟩, rfl⟩, rfl⟩ := h
  exact .single rfl ⟨rfl, rfl, hpending.symm, hpending ▸ hne⟩ rfl

theorem otherVaultInitialize_followed {args : VaultInitializeArgs} {verdict : Result Unit}
    (h : otherVaultInitialize { w with clock := now } signer args verdict = .ok w') :
    Followed w ⟨signer, now, .otherVaultInitialize args verdict⟩ w' := by
  simp only [otherVaultInitialize, vaultInitialize, Config.isProtocolOperational,
    Config.incrementVaultId, bind_eq_ok, validate_eq_ok, load_eq_ok, pure_eq_ok, safeAdd_eq_ok] at h
  obtain ⟨⟨c, v⟩, ⟨_, hmanager, _, hstatus, _, _, _, _, _, _, _, _, c', ⟨n, hn, rfl⟩, e⟩, rfl⟩ := h
  cases e
  have hin : signer.key ∈ w.managers := by
    by_contra hno
    rw [if_neg hno] at hmanager
    cases hmanager
  refine .single rfl ⟨rfl, hin, hstatus, rfl⟩ ?_
  refine Mirror.ext rfl ?_ rfl rfl rfl rfl rfl
  show { w.config with nextVaultId := w.config.nextVaultId + 1 } = { w.config with nextVaultId := n }
  rw [eq_add_of_toNat (c := n) hn.symm]

theorem configAddManager_followed
    (h : configAddManager { w with clock := now } signer u = .ok w') :
    Followed w ⟨signer, now, .configAddManager u⟩ w' := by
  simp only [configAddManager, allocate, Config.validateAdmin, bind_eq_ok, validate_eq_ok,
    pure_eq_ok] at h
  obtain ⟨_, hnew, _, hadmin, rfl⟩ := h
  have hno : u ∉ w.managers := by
    intro hin
    rw [if_pos hin] at hnew
    cases hnew
  exact .single rfl ⟨hadmin.symm, hno⟩ rfl

theorem configRemoveManager_followed
    (h : configRemoveManager { w with clock := now } signer u = .ok w') :
    Followed w ⟨signer, now, .configRemoveManager u⟩ w' := by
  simp only [configRemoveManager, Config.validateAdmin, bind_eq_ok, validate_eq_ok, load_eq_ok,
    pure_eq_ok] at h
  obtain ⟨_, hfound, _, hadmin, rfl⟩ := h
  have hin : u ∈ w.managers := by
    by_contra hno
    rw [if_neg hno] at hfound
    cases hfound
  exact .single rfl ⟨hadmin.symm, hin⟩ rfl

theorem emitted_configUpdate (args : ConfigUpdateArgs) : emitted w w' signer (.configUpdate args) =
    args.pendingAdmin.toList.map (.adminNominated w.config.admin) ++
      [.configUpdated w'.configUpdated] :=
  rfl

theorem configUpdated_on {c : Config} (hid : w'.config.nextVaultId = c.nextVaultId)
    (hpending : w'.config.pendingAdmin = c.pendingAdmin) : w'.configUpdated.on c = w'.config :=
  Config.ext rfl rfl rfl rfl hid.symm rfl rfl rfl rfl rfl hpending.symm rfl

/-- The one handler that writes two records: the nomination goes first. -/
theorem configUpdate_followed {args : ConfigUpdateArgs}
    (h : configUpdate { w with clock := now } signer args = .ok w') :
    Followed w ⟨signer, now, .configUpdate args⟩ w' := by
  simp only [configUpdate, Config.validateAdmin, bind_eq_ok, validate_eq_ok, pure_eq_ok] at h
  obtain ⟨_, hadmin, c, hc, rfl⟩ := h
  obtain ⟨ha, hid, hpending, hne, _⟩ := Config.update_ok hc
  cases hp : args.pendingAdmin with
  | none =>
    rw [hp] at hpending
    refine .single (e := .configUpdated (configUpdated { w with clock := now, config := c }))
      ?_ ⟨hadmin.symm, ha⟩ ?_
    · rw [emitted_configUpdate, hp]; rfl
    · exact Mirror.ext rfl (configUpdated_on hid hpending) rfl rfl rfl rfl rfl
  | some pendingAdmin =>
    rw [hp] at hpending
    have hlog : logged ⟨w, ⟨signer, now, .configUpdate args⟩, { w with clock := now, config := c }⟩ =
        [⟨now, signer.key, .adminNominated w.config.admin pendingAdmin⟩, ⟨now, signer.key,
          .configUpdated (configUpdated { w with clock := now, config := c })⟩] := by
      unfold logged
      rw [emitted_configUpdate, hp]; rfl
    unfold Followed
    refine hlog ▸ .cons ⟨hadmin.symm, rfl, hne _ hp⟩ (.single ⟨hadmin.symm, ha⟩ ?_)
    have hon : (configUpdated { w with clock := now, config := c }).on
        (w.config.nominateAdmin pendingAdmin) = c := configUpdated_on hid hpending
    exact Mirror.ext rfl hon rfl rfl rfl rfl rfl

/-! ## Strategies -/

theorem initializeStrategy_followed {ty : StrategyType} {checks : Result Unit}
    (h : initializeStrategy { w with clock := now } signer ty checks = .ok w') :
    Followed w ⟨signer, now, .initializeStrategy ty checks⟩ w' := by
  have hnew := (initializeStrategy_opens h).new
  simp only [initializeStrategy, Config.isProtocolOperational, Vault.validateAuthority,
    Vault.isVaultOperational, Vault.incrementStrategyId, Vault.incrementOpenStrategies, bind_eq_ok,
    validate_eq_ok, pure_eq_ok, safeAdd_eq_ok] at h
  obtain ⟨_, _, _, hconfig, _, hauthority, _, hvault, _, _, v, ⟨i, hi, rfl⟩, v2, ⟨n, hn, rfl⟩,
    rfl⟩ := h
  have hfound : (w.strategies.insert ty.protocolAccount
      (Strategy.new w.key w.vault.nextStrategyId now ty)).lookup ty.protocolAccount =
      some (Strategy.new w.key w.vault.nextStrategyId now ty) := Finmap.lookup_insert _
  refine .single (e := .strategyInitialized ⟨w.key, w.vault.nextStrategyId, ty, now⟩) ?_ ?_ ?_
  · exact event_of_found _ hfound
  · exact ⟨hauthority, rfl, ⟨hconfig, hvault⟩, rfl, rfl, hnew⟩
  · refine Mirror.ext rfl rfl rfl ?_ rfl rfl rfl
    show { w.vault with
      nextStrategyId := w.vault.nextStrategyId + 1
      openStrategyCount := w.vault.openStrategyCount + 1 } =
      { w.vault with nextStrategyId := i, openStrategyCount := n }
    rw [eq_add_of_toNat hi.symm, eq_add_of_toNat hn.symm]

theorem vaultCloseStrategy_followed (hl : w.Legible) {k : Pubkey} {checks : Result Unit}
    (h : vaultCloseStrategy { w with clock := now } signer k checks = .ok w') :
    Followed w ⟨signer, now, .vaultCloseStrategy k checks⟩ w' := by
  simp only [vaultCloseStrategy, Config.isProtocolWithdrawable, Vault.validateAuthority,
    Vault.isVaultWithdrawable, Vault.decrementOpenStrategies, bind_eq_ok, validate_eq_ok,
    load_eq_ok, pure_eq_ok, safeSub_eq_ok] at h
  obtain ⟨r, found, _, hconfig, _, hauthority, _, hvault, _, hkey, v, ⟨n, hn, rfl⟩, _, _, rfl⟩ := h
  obtain ⟨_, hk⟩ := hl.stored k r found
  refine .single (e := .strategyClosed ⟨w.key, r.id, r.strategyType, r.createdTs, now⟩) ?_ ?_ ?_
  · exact event_of_found _ found
  · exact ⟨hauthority, rfl, ⟨hconfig, hvault⟩, rfl, r, hk ▸ found, hkey, rfl, rfl, rfl⟩
  · refine Mirror.ext rfl rfl rfl ?_ rfl rfl ?_
    · show { w.vault with openStrategyCount := w.vault.openStrategyCount - 1 } =
        { w.vault with openStrategyCount := n }
      rw [eq_sub_of_toNat hn]
    · show w.strategies.erase r.strategyType.protocolAccount = w.strategies.erase k
      rw [hk]

/-! ## Runs -/

theorem update_flag {x : U8} (hx : x = 0 ∨ x = 1) (asked : Option Bool) :
    (asked.map fun b => BitVec.ofNat 8 b.toNat).getD x = 0 ∨
      (asked.map fun b => BitVec.ofNat 8 b.toNat).getD x = 1 := by
  cases asked with
  | none => exact hx
  | some b =>
    cases b with
    | false => exact .inl rfl
    | true => exact .inr rfl

theorem Change.flags {e : Event} (hf : Flags w.vault) (h : Change w now e w') :
    Flags w'.vault := by
  have hvault := h.vault_eq
  cases h with
  | navPost _ h =>
    rw [(Vault.updateNav_ok h).eq, Vault.applyPendingFees_sameButFees]
    exact ⟨hf.deposit, hf.withdrawal⟩
  | vaultUpdate h =>
    simp only [Vault.update, bind_eq_ok, pure_eq_ok] at h
    obtain ⟨v₁, h1, _, _, _, _, rfl⟩ := h
    have e1 := Vault.askFees_sameButFees h1
    unfold Vault.SameButFees at e1
    refine ⟨update_flag ?_ _, update_flag ?_ _⟩
    · rw [e1]; exact hf.deposit
    · rw [e1]; exact hf.withdrawal
  | _ =>
    rw [hvault rfl]
    exact ⟨hf.deposit, hf.withdrawal⟩

theorem Step.followed {tx : Tx} (hl : w.Legible) (hl' : w'.Legible) (st : w.Step tx w') :
    Followed w tx w' := by
  obtain ⟨signer, now, ix⟩ := tx
  change execute { w with clock := now } signer ix = .ok w' at st
  cases ix with
  | depositRequestCreate => exact depositRequestCreate_followed hl.wellFormed st
  | depositRequestCancel => exact depositRequestCancel_followed st
  | depositRequestReject => exact depositRequestReject_followed st
  | depositRequestResolve => exact depositRequestResolve_followed st
  | withdrawalRequestCreate => exact withdrawalRequestCreate_followed hl.wellFormed st
  | withdrawalRequestCancel => exact withdrawalRequestCancel_followed st
  | withdrawalRequestReject => exact withdrawalRequestReject_followed st
  | withdrawalRequestResolve => exact withdrawalRequestResolve_followed st
  | navUpdate => exact navUpdate_followed hl.mark st
  | navOverride => exact navOverride_followed hl.mark st
  | vaultClaimManagerFee => exact vaultClaimManagerFee_followed st
  | configClaimPlatformFee => exact configClaimPlatformFee_followed st
  | vaultUpdate => exact vaultUpdate_followed hl' st
  | vaultPause => exact vaultPause_followed st
  | otherVaultInitialize => exact otherVaultInitialize_followed st
  | configUpdate => exact configUpdate_followed st
  | configPause => exact configPause_followed st
  | adminAccept => exact adminAccept_followed st
  | configAddManager => exact configAddManager_followed st
  | configRemoveManager => exact configRemoveManager_followed st
  | initializeStrategy => exact initializeStrategy_followed st
  | vaultCloseStrategy => exact vaultCloseStrategy_followed hl st
  -- token movements outside the program write no record
  | depositTransfer =>
    simp only [execute, depositTransfer, bind_eq_ok, pure_eq_ok] at st
    obtain ⟨_, _, _, _, rfl⟩ := st
    exact .nil _
  | depositIssue =>
    simp only [execute, depositIssue, bind_eq_ok, pure_eq_ok] at st
    obtain ⟨_, _, rfl⟩ := st
    exact .nil _
  | depositBurn =>
    simp only [execute, depositBurn, bind_eq_ok, pure_eq_ok] at st
    obtain ⟨_, _, _, _, rfl⟩ := st
    exact .nil _
  | shareTransfer =>
    simp only [execute, shareTransfer, bind_eq_ok, pure_eq_ok] at st
    obtain ⟨_, _, _, _, rfl⟩ := st
    exact .nil _
  | shareBurn =>
    simp only [execute, shareBurn, bind_eq_ok, pure_eq_ok] at st
    obtain ⟨_, _, _, _, rfl⟩ := st
    exact .nil _

theorem run_legible (h0 : w₀.Fresh) (hr : Run Step w₀ older w) : w.Legible := by
  have hcensus := run_census h0 hr
  have wf := h0.wellFormed
  have hflags := hr.inv (I := fun w => w.WellFormed ∧ Flags w.vault) ?_ ?_
  · exact {
      wellFormed := run_wellFormed h0 hr
      mark := (run_highWaterMark h0 hr).2 (.inl rfl)
      flags := hflags.2
      stored := fun k s hs => ⟨(hcensus.stored k s hs).1, (hcensus.stored k s hs).2.1⟩ }
  · obtain ⟨_, args, _, e⟩ := h0
    refine ⟨wf, ?_⟩
    rw [e]
    exact ⟨.inl rfl, .inl rfl⟩
  · intro w tx w' hw st
    exact ⟨st.wellFormed hw.1, (process_change hw.1 st).flags hw.2⟩

/-- The log of a run is accepted. -/
theorem run_followed (h0 : w₀.Fresh) (hr : Run Step w₀ older w) :
    Accepts Mirror.Admits Mirror.apply w₀.mirror (journal logged older) w.mirror := by
  have hstep : ∀ h s tx s', Run Step w₀ h s → Step s tx s' → Followed s tx s' :=
    fun h s tx s' hs st => st.followed (run_legible h0 hs) (run_legible h0 (hs.snoc st))
  exact hr.accepts hstep

end

end World

end HedgeVault
