import HedgeVault.Reachable

/-!
# Withdrawals are never blocked

`World.window` is the redemption window of the vault: the recorded NAV, the shares of
the requests it is resolvable for, and what was paid since it was posted. A request
made after a post carries that post's epoch or a later one, so it is not due before
the next post, and a post can only make due what the share escrow holds. So the window
stays covered by `U64_MAX` (`run_window_covered`), which leaves no check of
`Vault::resolve_withdrawal` to fail.
-/

namespace HedgeVault

open Lib

/-- The shares of a request that the NAV of epoch `navEpoch` makes resolvable. -/
def WithdrawalRequest.due (navEpoch : U64) (r : WithdrawalRequest) : Nat :=
  if r.epoch < navEpoch then r.shares.toNat else 0

namespace World

def window (w : World) : Window where
  price := w.vault.navPerShare.toNat
  due := total (WithdrawalRequest.due w.vault.navEpoch) w.withdrawalRequests
  paid := w.vault.epochOutflow.toNat

section

variable {w w' w₀ : World} {now : I64} {e : Event} {tx : Tx} {h : List (Transition World Tx)}

/-- A step that keeps the window's fields is idle. -/
theorem window_idle (hnav : SameNav w.vault w'.vault)
    (hrequests : w'.withdrawalRequests = w.withdrawalRequests)
    (houtflow : w'.vault.epochOutflow = w.vault.epochOutflow) :
    ∃ m, Window.Step NAV_SCALE U64_MAX w.window m w'.window := by
  refine ⟨.idle, Window.ext ?_ ?_ (congrArg BitVec.toNat houtflow)⟩
  · exact congrArg BitVec.toNat hnav.navPerShare
  · show total (WithdrawalRequest.due w'.vault.navEpoch) w'.withdrawalRequests = _
    rw [hnav.navEpoch, hrequests]; rfl

/-- All due shares are in escrow. -/
theorem Sound.due_le (s : w.Sound) : w.window.due ≤ w.pool.shares := by
  refine Nat.le_trans ?_ s.pendingShares_le
  rw [s.pendingShares]
  apply total_le_total
  intro u r _
  unfold WithdrawalRequest.due
  split
  · exact Nat.le_refl _
  · exact Nat.zero_le _

/-- A request made at a clock past the NAV epoch is not due. -/
theorem due_eq_zero {r : WithdrawalRequest} (hc : w.Clocked) (hle : w.clock.val ≤ now.val)
    (hr : r.epoch = Vault.epoch now) : r.due w.vault.navEpoch = 0 := by
  have hep := Vault.epoch_mono hc.nonneg hle
  have hnav := hc.navEpoch
  unfold WithdrawalRequest.due
  rw [hr, if_neg]
  intro hlt
  have : (Vault.epoch now).toNat < w.vault.navEpoch.toNat := hlt
  omega

/-- A withdrawal is redeemed from what is due. -/
theorem WithdrawalSettle.window_redeem {u : Pubkey} {r : WithdrawalRequest} {v : Vault}
    {amount : U64} {m s : SplMint} (h : w.WithdrawalSettle u r v amount m s) :
    Window.Step NAV_SCALE U64_MAX w.window (.redeem r.shares.toNat)
      ({ w with clock := now, vault := v, depositMint := m, shareMint := s
                withdrawalRequests := w.withdrawalRequests.erase u } : World).window := by
  obtain ⟨hamount, _, houtflow, _, e⟩ := Vault.resolveWithdrawal_ok h.resolve
  have hnav : v.navEpoch = w.vault.navEpoch := by rw [e]
  have hprice : v.navPerShare = w.vault.navPerShare := by rw [e]
  have hdue : r.due w.vault.navEpoch = r.shares.toNat := if_pos h.resolvable
  have hers := total_erase_add (WithdrawalRequest.due w.vault.navEpoch) w.withdrawalRequests u
  rw [valueAt_of_lookup h.found, hdue] at hers
  refine ⟨?_, Window.ext (congrArg BitVec.toNat hprice) ?_ ?_⟩
  · show _ ≤ total _ _
    omega
  · show total (WithdrawalRequest.due v.navEpoch) (w.withdrawalRequests.erase u) = _
    rw [hnav]
    show _ = total _ _ - _
    omega
  · show v.epochOutflow.toNat = _
    rw [houtflow, hamount]; rfl

/-- Every step of the world is a step of its window. -/
theorem Change.window_step (hc : w.Clocked) (hs : w'.Sound) (hle : w.clock.val ≤ now.val)
    (h : Change w now e w') : ∃ m, Window.Step NAV_SCALE U64_MAX w.window m w'.window := by
  have hnav := h.sameNav
  cases h with
  | @withdrawalPut u shares r v s h =>
    have hsame := hnav nofun
    obtain ⟨_, hb⟩ := h.request
    obtain ⟨_, e⟩ := Vault.requestWithdrawal_ok hb
    refine ⟨.idle, Window.ext (congrArg BitVec.toNat hsame.navPerShare) ?_ ?_⟩
    · show total (WithdrawalRequest.due v.navEpoch) (w.withdrawalRequests.insert u r) = w.window.due
      have hins := total_insert_add (WithdrawalRequest.due v.navEpoch) w.withdrawalRequests u r
      have hnew : r.due v.navEpoch = 0 := by
        rw [show v.navEpoch = w.vault.navEpoch from hsame.navEpoch]
        exact due_eq_zero hc hle h.epoch
      -- the record it replaces, if any, was made in the same epoch
      have hold : valueAt (WithdrawalRequest.due v.navEpoch) w.withdrawalRequests u = 0 := by
        unfold valueAt
        cases hq : w.withdrawalRequests.lookup u with
        | none => rfl
        | some q =>
          show q.due v.navEpoch = 0
          rw [show v.navEpoch = w.vault.navEpoch from hsame.navEpoch]
          exact due_eq_zero hc hle (h.same_epoch q hq)
      have hdue : w.window.due = total (WithdrawalRequest.due v.navEpoch) w.withdrawalRequests := by
        rw [show v.navEpoch = w.vault.navEpoch from hsame.navEpoch]; rfl
      omega
    · show v.epochOutflow.toNat = _
      rw [e]; rfl
  | @withdrawalRefund u r v s h =>
    have hsame := hnav nofun
    obtain ⟨_, e⟩ := Vault.cancelWithdrawal_ok h.cancel
    refine ⟨.release (r.due w.vault.navEpoch),
      Window.ext (congrArg BitVec.toNat hsame.navPerShare) ?_ ?_⟩
    · show total (WithdrawalRequest.due v.navEpoch) (w.withdrawalRequests.erase u) = _
      have hers := total_erase_add (WithdrawalRequest.due w.vault.navEpoch) w.withdrawalRequests u
      rw [valueAt_of_lookup h.found] at hers
      rw [show v.navEpoch = w.vault.navEpoch from hsame.navEpoch]
      show _ = total _ _ - _
      omega
    · show v.epochOutflow.toNat = _
      rw [e]; rfl
  | @withdrawalSettle u r v amount m s h => exact ⟨_, h.window_redeem⟩
  | @navPost totalAssets overridden v fs _ h =>
    have post := Vault.updateNav_ok h
    refine ⟨.reprice v.navPerShare.toNat _, ?_, Window.ext rfl rfl ?_⟩
    · -- the new NAV is solvent with every pending share
      have hsolvent := hs.solvent
      have hdue := hs.due_le
      have hmax := toNat_le_max v.totalAssets
      exact (Nat.mul_le_mul_right _ hdue).trans
        (hsolvent.trans (Nat.mul_le_mul_right _ hmax))
    · show v.epochOutflow.toNat = 0
      rw [post.epochOutflow]; rfl
  | depositPut h =>
    obtain ⟨_, _, _, _, e⟩ := Vault.requestDeposit_ok h.request
    exact window_idle (hnav nofun) rfl (by rw [e])
  | depositRefund h =>
    obtain ⟨_, e⟩ := Vault.cancelDeposit_ok h.cancel
    exact window_idle (hnav nofun) rfl (by rw [e])
  | depositSettle h =>
    obtain ⟨_, _, _, _, _, e⟩ := Vault.resolveDeposit_ok h.resolve
    exact window_idle (hnav nofun) rfl (by rw [e])
  | claimManager h _ =>
    obtain ⟨_, _, rfl⟩ := Vault.claimManagerFee_ok h
    exact window_idle (hnav nofun) rfl rfl
  | claimPlatform h _ =>
    obtain ⟨_, _, rfl⟩ := Vault.claimPlatformFee_ok h
    exact window_idle (hnav nofun) rfl rfl
  | vaultUpdate h =>
    exact window_idle (hnav nofun) rfl (by rw [Vault.update_sameButSettings h]; rfl)
  | depositGift => exact window_idle (hnav nofun) rfl rfl
  | shareGift => exact window_idle (hnav nofun) rfl rfl
  | shareBurn => exact window_idle (hnav nofun) rfl rfl
  | other e => exact window_idle (hnav nofun) rfl (by rw [e])

theorem Fresh.window_covered (h0 : w₀.Fresh) : w₀.window.Covered NAV_SCALE U64_MAX := by
  obtain ⟨ho, args, _, e⟩ := h0
  unfold Window.Covered window
  rw [e, ho.withdrawalRequests]
  simp [Vault.new]

theorem run_window_covered (h0 : w₀.Fresh) (hc : 0 ≤ w₀.clock.val) (hr : Run TimedStep w₀ h w) :
    w.window.Covered NAV_SCALE U64_MAX := by
  -- along the run, every world is reached by a run of its own
  have hsim : ∃ h₂, Run (Window.Step NAV_SCALE U64_MAX) w₀.window h₂ w.window := by
    refine hr.exists_sim (I := fun w => ∃ h, Run TimedStep w₀ h w) window ⟨[], .nil⟩
      (fun _ _ _ hi st => ?_) fun w tx w' hi st => ?_
    · obtain ⟨h, hr⟩ := hi
      exact ⟨_, hr.snoc st⟩
    · obtain ⟨h, hr⟩ := hi
      have hpre := run_sound h0 (TimedStep.run_step hr)
      have hpost := run_sound h0 (TimedStep.run_step (hr.snoc st))
      exact (process_change hpre.wellFormed st.2).window_step (run_clocked h0 hc hr) hpost st.1
  obtain ⟨h₂, hwindow⟩ := hsim
  exact Window.run_covered h0.window_covered hwindow

/-- The payout of a resolvable request passes every check of `resolve_withdrawal`. -/
theorem exists_resolveWithdrawal (s : w.Sound) (hcov : w.window.Covered NAV_SCALE U64_MAX)
    {u : Pubkey} {r : WithdrawalRequest} (found : w.withdrawalRequests.lookup u = some r)
    (hres : r.epoch < w.vault.navEpoch) (bps : U16) :
    ∃ v amount, w.vault.resolveWithdrawal r.shares bps = .ok (v, amount) := by
  have hpending := s.shares_le found
  have hdue : r.shares.toNat ≤ w.window.due := by
    have hle := valueAt_le_total (WithdrawalRequest.due w.vault.navEpoch) w.withdrawalRequests u
    rw [valueAt_of_lookup found] at hle
    rwa [WithdrawalRequest.due, if_pos hres] at hle
  refine Vault.exists_resolveWithdrawal bps hpending ?_ (hcov.paid_le NAV_SCALE_pos hdue)
  exact s.solvent.assetsFor_le NAV_SCALE_pos (hpending.trans s.pendingShares_le)

/-- Nothing pauses withdrawals. -/
def WithdrawalsOpen (w : World) : Prop :=
  w.config.status ≠ .paused ∧ w.vault.status ≠ .paused ∧ ¬ w.vault.isWithdrawalPaused

/-- The handler refuses a resolvable request for a pause or for want of idle tokens. -/
theorem withdrawalRequestResolve_accepted_iff (s : w.Sound)
    (hcov : w.window.Covered NAV_SCALE U64_MAX) {u : Pubkey} {r : WithdrawalRequest} (found : w.withdrawalRequests.lookup u = some r)
    (hres : r.epoch < w.vault.navEpoch) :
    (∃ w', w.withdrawalRequestResolve u = .ok w') ↔
      w.WithdrawalsOpen ∧
      assetsFor NAV_SCALE r.shares.toNat w.vault.navPerShare.toNat ≤ w.idle := by
  obtain ⟨ha, _, hk, _⟩ := s.wellFormed.withdrawal u r found
  simp only [withdrawalRequestResolve, Config.isProtocolWithdrawable, Vault.isVaultWithdrawable,
    Vault.validateWithdrawalNotPaused, WithdrawalRequest.validateAuthority,
    WithdrawalRequest.validateVault, WithdrawalRequest.isResolvable, bind_eq_ok, load_eq_ok,
    pure_eq_ok, validate_eq_ok, ofToken_eq_ok, payOut_eq_ok]
  constructor
  · rintro ⟨w', r', found', _, h1, _, h2, _, h3, _, _, _, _, _, _, ⟨v, amount⟩, hv, _, hidle, _⟩
    rw [found] at found'
    cases found'
    obtain ⟨hamount, _⟩ := Vault.resolveWithdrawal_ok hv
    refine ⟨⟨h1, h2, h3⟩, ?_⟩
    rw [← hamount]
    have hle : amount.toNat ≤ (w.depositMint.amountU64 .vault).toNat := hidle
    rwa [SplMint.amountU64_toNat] at hle
  · rintro ⟨⟨h1, h2, h3⟩, hidle⟩
    obtain ⟨v, amount, hv⟩ := exists_resolveWithdrawal s hcov found hres w.config.maxEpochOutflowBps
    obtain ⟨hamount, _⟩ := Vault.resolveWithdrawal_ok hv
    rw [← hamount] at hidle
    have hescrow : r.shares.toNat ≤ w.shareMint.amount .escrow :=
      (s.shares_le found).trans s.shareEscrow
    obtain ⟨m, hm⟩ := Mint.exists_burn hescrow
    obtain ⟨d, hd⟩ := Mint.exists_transfer (.wallet u) hidle
    have hge : w.depositMint.amountU64 .vault ≥ amount := by
      show amount.toNat ≤ (w.depositMint.amountU64 .vault).toNat
      rwa [SplMint.amountU64_toNat]
    exact ⟨_, r, found, (), h1, (), h2, (), h3, (), ha.symm, (), hk.symm, (), hres,
      (v, amount), hv, (), hge, m, hm, d, hd, rfl⟩

/-- For every open request a NAV of a later epoch was posted for, `resolve_withdrawal`
succeeds whatever the outflow cap, and a transaction that resolves it is accepted
unless withdrawals are paused or the idle balance is below the payout. -/
theorem withdrawals_never_blocked (h0 : w₀.Fresh) (hc : 0 ≤ w₀.clock.val)
    (hr : Run TimedStep w₀ h w) {u : Pubkey} {r : WithdrawalRequest}
    (found : w.withdrawalRequests.lookup u = some r) (hres : r.epoch < w.vault.navEpoch) :
    (∀ bps, ∃ v amount, w.vault.resolveWithdrawal r.shares bps = .ok (v, amount)) ∧
    ∀ resolver now, (∃ w', w.process ⟨resolver, now, .withdrawalRequestResolve u⟩ = .ok w') ↔
      w.WithdrawalsOpen ∧
      assetsFor NAV_SCALE r.shares.toNat w.vault.navPerShare.toNat ≤ w.idle := by
  have s := run_sound h0 (TimedStep.run_step hr)
  have hcov := run_window_covered h0 hc hr
  refine ⟨exists_resolveWithdrawal s hcov found hres, ?_⟩
  intro resolver now
  exact withdrawalRequestResolve_accepted_iff (s.atClock now) hcov found hres

theorem withdrawals_never_blocked_sample :
    (∀ bps, ∃ v amount, (sampleAfter 7).vault.resolveWithdrawal 300 bps = .ok (v, amount)) ∧
    ∀ resolver now, (∃ w', (sampleAfter 7).process
        ⟨resolver, now, .withdrawalRequestResolve alice.key⟩ = .ok w') ↔
      (sampleAfter 7).WithdrawalsOpen ∧
        assetsFor NAV_SCALE 300 (sampleAfter 7).vault.navPerShare.toNat ≤ (sampleAfter 7).idle :=
  withdrawals_never_blocked sample_fresh (by decide) (sample_timed (n := 7)) (u := alice.key)
    (r := ⟨alice.key, sample.key, 300, 2, ⟨28802, by decide, by decide⟩, 0⟩) (by rfl) (by decide)

end

end World

end HedgeVault
