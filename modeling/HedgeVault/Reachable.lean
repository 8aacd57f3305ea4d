import HedgeVault.Ledger
import HedgeVault.Solvency

/-!
# Reachable worlds

`Sound` collects what holds of the world after any run from a fresh one: it is well
formed and solvent, and both escrows hold what the open requests claim. `Clocked` is
what a clock that does not go back adds: no NAV was posted in a later epoch than the
clock's, and no open request was made in one.
-/

namespace HedgeVault

open Lib

namespace World

structure Sound (w : World) : Prop where
  wellFormed : w.WellFormed
  solvent : w.pool.Solvent NAV_SCALE
  pendingDeposits : w.vault.pendingDeposits.toNat = total (·.amount.toNat) w.depositRequests
  depositEscrow : w.vault.pendingDeposits.toNat ≤ w.depositMint.amount .escrow
  pendingShares : w.vault.pendingWithdrawalShares.toNat =
    total (·.shares.toNat) w.withdrawalRequests
  shareEscrow : w.vault.pendingWithdrawalShares.toNat ≤ w.shareMint.amount .escrow

structure Clocked (w : World) : Prop where
  nonneg : 0 ≤ w.clock.val
  navEpoch : w.vault.navEpoch.toNat ≤ (Vault.epoch w.clock).toNat
  deposit : ∀ u r, w.depositRequests.lookup u = some r →
    r.epoch.toNat ≤ (Vault.epoch w.clock).toNat
  withdrawal : ∀ u r, w.withdrawalRequests.lookup u = some r →
    r.epoch.toNat ≤ (Vault.epoch w.clock).toNat

section

variable {w w' w₀ : World} {now : I64} {e : Event} {tx : Tx} {h : List (Transition World Tx)}

theorem run_sound (h0 : w₀.Fresh) (hr : Run Step w₀ h w) : w.Sound := by
  have hd := run_deposit_balanced h0 hr
  have hs := run_withdrawal_balanced h0 hr
  exact {
    wellFormed := run_wellFormed h0 hr
    solvent := run_pool_solvent h0 hr
    pendingDeposits := hd.pending_eq
    depositEscrow := Nat.le_of_add_right_le hd.held_eq.ge
    pendingShares := hs.pending_eq
    shareEscrow := Nat.le_of_add_right_le hs.held_eq.ge }

/-- `Sound` does not read the clock. -/
theorem Sound.atClock (s : w.Sound) (now : I64) : Sound { w with clock := now } :=
  ⟨⟨s.wellFormed.deposit, s.wellFormed.withdrawal⟩, s.solvent, s.pendingDeposits,
    s.depositEscrow, s.pendingShares, s.shareEscrow⟩

/-- What is open is in escrow. -/
theorem Sound.amount_le (s : w.Sound) {u : Pubkey} {r : DepositRequest}
    (found : w.depositRequests.lookup u = some r) :
    r.amount.toNat ≤ w.vault.pendingDeposits.toNat := by
  have hle := valueAt_le_total (fun r : DepositRequest => r.amount.toNat) w.depositRequests u
  rw [valueAt_of_lookup found] at hle
  rw [s.pendingDeposits]
  exact hle

theorem Sound.shares_le (s : w.Sound) {u : Pubkey} {r : WithdrawalRequest}
    (found : w.withdrawalRequests.lookup u = some r) :
    r.shares.toNat ≤ w.vault.pendingWithdrawalShares.toNat := by
  have hle := valueAt_le_total (fun r : WithdrawalRequest => r.shares.toNat) w.withdrawalRequests u
  rw [valueAt_of_lookup found] at hle
  rw [s.pendingShares]
  exact hle

/-- The escrowed shares are part of the supply. -/
theorem Sound.pendingShares_le (s : w.Sound) :
    w.vault.pendingWithdrawalShares.toNat ≤ w.pool.shares := by
  have h1 := s.shareEscrow
  have h2 := w.shareMint.amount_le .escrow
  show _ ≤ w.shareMint.supply + _ + _
  omega

theorem Change.clocked (hc : w.Clocked) (hle : w.clock.val ≤ now.val) (h : Change w now e w') :
    w'.Clocked := by
  have hnow : 0 ≤ now.val := hc.nonneg.trans hle
  have hep := Vault.epoch_mono hc.nonneg hle
  -- an old request was made by the old clock
  have hdeposit : ∀ u r, w.depositRequests.lookup u = some r →
      r.epoch.toNat ≤ (Vault.epoch now).toNat := fun u r hr => (hc.deposit u r hr).trans hep
  have hwithdrawal : ∀ u r, w.withdrawalRequests.lookup u = some r →
      r.epoch.toNat ≤ (Vault.epoch now).toNat := fun u r hr => (hc.withdrawal u r hr).trans hep
  have hnav : w'.vault.navEpoch.toNat ≤ (Vault.epoch now).toNat := by
    by_cases hpost : ∃ T o, e = .navPost T o
    · obtain ⟨T, o, rfl⟩ := hpost
      cases h with
      | navPost _ h => exact (congrArg BitVec.toNat (Vault.updateNav_ok h).navEpoch).le
    · have hsame := h.sameNav fun T o he => hpost ⟨T, o, he⟩
      rw [hsame.navEpoch]
      exact hc.navEpoch.trans hep
  cases h with
  | @depositPut u amount r v m h =>
    refine ⟨hnow, hnav, ?_, hwithdrawal⟩
    intro x q hq
    by_cases hx : x = u
    · subst hx
      rw [Finmap.lookup_insert] at hq
      cases hq
      rw [h.epoch]
    · rw [Finmap.lookup_insert_of_ne _ hx] at hq
      exact hdeposit x q hq
  | @withdrawalPut u shares r v s h =>
    refine ⟨hnow, hnav, hdeposit, ?_⟩
    intro x q hq
    by_cases hx : x = u
    · subst hx
      rw [Finmap.lookup_insert] at hq
      cases hq
      rw [h.epoch]
    · rw [Finmap.lookup_insert_of_ne _ hx] at hq
      exact hwithdrawal x q hq
  | depositRefund => exact ⟨hnow, hnav, fun x q hq => hdeposit x q (lookup_of_erase hq), hwithdrawal⟩
  | depositSettle => exact ⟨hnow, hnav, fun x q hq => hdeposit x q (lookup_of_erase hq), hwithdrawal⟩
  | withdrawalRefund =>
    exact ⟨hnow, hnav, hdeposit, fun x q hq => hwithdrawal x q (lookup_of_erase hq)⟩
  | withdrawalSettle =>
    exact ⟨hnow, hnav, hdeposit, fun x q hq => hwithdrawal x q (lookup_of_erase hq)⟩
  | _ => exact ⟨hnow, hnav, hdeposit, hwithdrawal⟩

theorem Fresh.clocked (h0 : w₀.Fresh) (hc : 0 ≤ w₀.clock.val) : w₀.Clocked := by
  obtain ⟨ho, args, _, e⟩ := h0
  refine ⟨hc, ?_, ?_, ?_⟩
  · rw [e]
    exact Nat.zero_le _
  · intro u r hr
    rw [ho.depositRequests, Finmap.lookup_empty] at hr; cases hr
  · intro u r hr
    rw [ho.withdrawalRequests, Finmap.lookup_empty] at hr; cases hr

theorem TimedStep.clocked (wf : w.WellFormed) (hc : w.Clocked) (st : w.TimedStep tx w') :
    w'.Clocked :=
  (process_change wf st.2).clocked hc st.1

theorem run_clocked (h0 : w₀.Fresh) (hc : 0 ≤ w₀.clock.val) (hr : Run TimedStep w₀ h w) :
    w.Clocked := by
  have hboth : w.WellFormed ∧ w.Clocked :=
    hr.inv (I := fun w => w.WellFormed ∧ w.Clocked) ⟨h0.wellFormed, h0.clocked hc⟩
      fun _ _ _ hi st => ⟨st.step.wellFormed hi.1, TimedStep.clocked hi.1 hi.2 st⟩
  exact hboth.2

end

end World

end HedgeVault
