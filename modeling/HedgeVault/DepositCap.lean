import HedgeVault.Lib.Cap
import HedgeVault.Settlement

/-!
# The deposit cap between two posts

The cap is checked when a deposit is requested, against the assets and the pending deposits
together. To the cap a vault is a `Booking` of these two counters: every step but a post
makes one of its moves (`Change.book_step`), a deposit being booked by its request and held
once it is resolved. So deposits alone never take a vault past its cap, and no resolve
overflows below it (`deposit_cap`).
-/

namespace HedgeVault

open Lib

/-- A deposit resolves unless its conversion fails: the assets have room for it. -/
theorem Vault.resolveDeposit_iff {v : Vault} {amount : U64}
    (hpending : amount.toNat ≤ v.pendingDeposits.toNat)
    (hassets : v.totalAssets.toNat + amount.toNat ≤ U64_MAX) :
    (∃ v' shares, v.resolveDeposit amount = .ok (v', shares)) ↔
      0 < v.navPerShare.toNat ∧ 0 < sharesFor NAV_SCALE amount.toNat v.navPerShare.toNat ∧
      sharesFor NAV_SCALE amount.toNat v.navPerShare.toNat ≤ U64_MAX := by
  constructor
  · rintro ⟨v', shares, h⟩
    obtain ⟨hnav, hshares, hpos, _⟩ := resolveDeposit_ok h
    have hmax := toNat_le_max shares
    exact ⟨hnav, by omega, by omega⟩
  · rintro ⟨hnav, hpos, hmax⟩
    exact exists_resolveDeposit hnav hpos hmax hpending hassets

namespace World

/-- The assets and the deposits that wait to become assets. -/
def booking (w : World) : Booking where
  held := w.vault.totalAssets.toNat
  booked := w.vault.pendingDeposits.toNat

/-- A step that posts no NAV and leaves the deposit cap. -/
def KeepsCap (t : Transition World Tx) : Prop :=
  t.label.isNavPost = false ∧ t.post.vault.depositCap = t.pre.vault.depositCap

instance (t : Transition World Tx) : Decidable (KeepsCap t) := inferInstanceAs (Decidable (_ ∧ _))

section

variable {w w' w₀ : World} {now : I64} {e : Event} {h l : List (Transition World Tx)}
  {u : Pubkey} {r : DepositRequest}

theorem Change.book_step (h : Change w now e w')
    (hne : ∀ totalAssets overridden, e ≠ .navPost totalAssets overridden) :
    ∃ m, w.booking.Step w.vault.depositCap.toNat m w'.booking := by
  cases h with
  | @depositPut u amount r v m h =>
    obtain ⟨_, _, hpending, hcap, hv⟩ := Vault.requestDeposit_ok h.request
    have hheld : v.totalAssets = w.vault.totalAssets := by rw [hv]
    refine ⟨.book amount.toNat, hpending, congrArg BitVec.toNat hheld, ?_⟩
    simp only [Booking.committed, booking, hheld]
    exact hcap
  | @depositRefund u r v m h =>
    obtain ⟨hpending, hv⟩ := Vault.cancelDeposit_ok h.cancel
    refine ⟨.unbook r.amount.toNat, hpending, ?_⟩
    rw [hv]
    rfl
  | @depositSettle u r v shares m s h =>
    obtain ⟨_, _, _, hpending, hassets, _⟩ := Vault.resolveDeposit_ok h.resolve
    exact ⟨.settle r.amount.toNat, hpending, hassets⟩
  | @withdrawalSettle u r v amount m s h =>
    obtain ⟨_, _, _, hassets, hv⟩ := Vault.resolveWithdrawal_ok h.resolve
    refine ⟨.pay amount.toNat, ?_, hassets⟩
    rw [hv]
    rfl
  | withdrawalPut h =>
    obtain ⟨_, hrequest⟩ := h.request
    obtain ⟨_, hv⟩ := Vault.requestWithdrawal_ok hrequest
    refine ⟨.keep, ?_⟩
    rw [hv]
    rfl
  | withdrawalRefund h =>
    obtain ⟨_, hv⟩ := Vault.cancelWithdrawal_ok h.cancel
    refine ⟨.keep, ?_⟩
    rw [hv]
    rfl
  | navPost => exact absurd rfl (hne _ _)
  | vaultUpdate h =>
    refine ⟨.keep, ?_⟩
    rw [Vault.update_sameButSettings h]
    rfl
  | claimManager h _ =>
    refine ⟨.keep, ?_⟩
    rw [(Vault.claimManagerFee_ok h).2.2]
    rfl
  | claimPlatform h _ =>
    refine ⟨.keep, ?_⟩
    rw [(Vault.claimPlatformFee_ok h).2.2]
    rfl
  | other hv =>
    refine ⟨.keep, ?_⟩
    rw [hv]
    rfl
  | depositGift | shareGift | shareBurn => exact ⟨.keep, rfl⟩

/-- A segment without posts under one cap is a run of bookings. -/
theorem run_bookings (h0 : w₀.Fresh) (hr : Run Step w₀ h w) (hr' : Run Step w l w')
    (hl : ∀ t ∈ l, KeepsCap t) :
    ∃ ms, Run (Booking.Step w.vault.depositCap.toNat) w.booking ms w'.booking := by
  have hkept : Run (fun x tx y => x.Step tx y ∧ KeepsCap ⟨x, tx, y⟩) w l w' :=
    hr'.of_forall fun t ht => ⟨hr'.step_of_mem ht, hl t ht⟩
  refine hkept.exists_sim (I := fun x => x.WellFormed ∧ x.vault.depositCap = w.vault.depositCap)
    booking ⟨run_wellFormed h0 hr, rfl⟩ ?_ ?_
  · rintro x tx y ⟨wf, hcap⟩ ⟨st, hk⟩
    exact ⟨Step.wellFormed wf st, hk.2.trans hcap⟩
  · rintro x tx y ⟨wf, hcap⟩ ⟨st, hk⟩
    rw [← hcap]
    exact (process_change wf st).book_step (Tx.event_ne_of_isNavPost hk.1)

/-- Over a segment without a post under one deposit cap, assets and pending deposits stay under
the cap or where they were, and from below the cap every open deposit has room in the assets. -/
theorem deposit_cap (h0 : w₀.Fresh) (hr : Run Step w₀ h w) (hr' : Run Step w l w')
    (hl : ∀ t ∈ l, KeepsCap t) :
    w'.vault.totalAssets.toNat + w'.vault.pendingDeposits.toNat ≤
      max w.vault.depositCap.toNat
        (w.vault.totalAssets.toNat + w.vault.pendingDeposits.toNat) ∧
    (w.vault.totalAssets.toNat + w.vault.pendingDeposits.toNat ≤ w.vault.depositCap.toNat →
      ∀ u r, w'.depositRequests.lookup u = some r →
        (∃ t, safeAdd w'.vault.totalAssets r.amount = .ok t ∧ t ≤ w.vault.depositCap) ∧
        ((∃ v shares, w'.vault.resolveDeposit r.amount = .ok (v, shares)) ↔
          0 < w'.vault.navPerShare.toNat ∧
          0 < sharesFor NAV_SCALE r.amount.toNat w'.vault.navPerShare.toNat ∧
          sharesFor NAV_SCALE r.amount.toNat w'.vault.navPerShare.toNat ≤ U64_MAX)) := by
  obtain ⟨ms, hms⟩ := run_bookings h0 hr hr' hl
  have hrun := Booking.run_committed_le hms
  refine ⟨hrun, fun hstart u r found => ?_⟩
  have hamount := (run_sound h0 (hr.trans hr')).amount_le found
  have hcap : w'.booking.committed ≤ w.vault.depositCap.toNat :=
    hrun.trans (max_le (Nat.le_refl _) hstart)
  have hroom : w'.vault.totalAssets.toNat + r.amount.toNat ≤ w.vault.depositCap.toNat :=
    Booking.settled_le hcap hamount
  have hmax := toNat_le_max w.vault.depositCap
  refine ⟨?_, Vault.resolveDeposit_iff hamount (hroom.trans hmax)⟩
  obtain ⟨t, ht, et⟩ := exists_safeAdd (a := w'.vault.totalAssets) (b := r.amount)
    (Nat.lt_of_le_of_lt hroom w.vault.depositCap.isLt)
  refine ⟨t, ht, ?_⟩
  rw [BitVec.le_def, et]
  exact hroom

/-! ## A sample segment -/

/-- Alice has 1000 shares and asks 300 of them back before the segment starts. -/
def capStartTxs : List Tx := sampleTxs.take 3 ++ [
  (Instruction.withdrawalRequestCreate 300 0).sentBy alice 14402,
  (Instruction.navUpdate 1000).sentBy updater 28800]

/-- Alice asks to deposit 200, is paid for her shares and cancels; Bob asks for 500 and then 100
more. -/
def capTxs : List Tx := [
  (Instruction.depositIssue (.wallet bob.key) 700).sentBy admin 28801,
  (Instruction.depositRequestCreate 500 (.ok ()) 0).sentBy bob 28802,
  (Instruction.depositRequestCreate 200 (.ok ()) 0).sentBy alice 28803,
  (Instruction.withdrawalRequestResolve alice.key).sentBy bob 28804,
  Instruction.depositRequestCancel.sentBy alice 28805,
  (Instruction.depositRequestCreate 100 (.ok ()) 0).sentBy bob 28806]

def capStart : World := final process sample capStartTxs

def capEnd : World := final process capStart capTxs

theorem deposit_cap_sample :
    capEnd.vault.totalAssets.toNat + capEnd.vault.pendingDeposits.toNat = 1300 ∧
    ∃ t, safeAdd capEnd.vault.totalAssets 600 = .ok t ∧ t ≤ capStart.vault.depositCap := by
  have hstart : Run Step sample (history process sample capStartTxs) capStart :=
    run_final (by rfl)
  have hsegment : Run Step capStart (history process capStart capTxs) capEnd := run_final (by rfl)
  have hcap := deposit_cap sample_fresh hstart hsegment (by decide)
  exact ⟨by decide, (hcap.2 (by decide) bob.key _ rfl).1⟩

end

end World

end HedgeVault
