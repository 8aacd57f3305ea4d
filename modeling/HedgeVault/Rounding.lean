import HedgeVault.Lib.Floors
import HedgeVault.Settlement

/-!
# Rounding over many settlements

A vault between two NAV updates: `Vault.Serve` settles deposits and withdrawals in
any order, and whatever else happens keeps the price (`SettleCall.other`). The totals
of a history are those of its calls with what they returned, so `run_conversions`
reads them as `issued` and `redeemed` at the recorded price and `run_rounding` bounds
them. A run of a world that posts no NAV is such a history of its vault
(`World.run_serve`).
-/

namespace HedgeVault

open Lib

/-- A call with what it returned. -/
inductive SettleCall where
  | resolveDeposit (amount shares : U64)
  | resolveWithdrawal (shares : U64) (maxEpochOutflowBps : U16) (amount : U64)
  /-- Anything that keeps the price. -/
  | other

namespace SettleCall

/-- What a deposit paid in and was minted. -/
def deposit? : SettleCall → Option (U64 × U64)
  | resolveDeposit amount shares => some (amount, shares)
  | _ => none

/-- What a withdrawal burnt and was paid. -/
def withdrawal? : SettleCall → Option (U64 × U64)
  | resolveWithdrawal shares _ amount => some (shares, amount)
  | _ => none

end SettleCall

namespace Vault

def Serve (v : Vault) : SettleCall → Vault → Prop
  | .resolveDeposit amount shares, v' => v.resolveDeposit amount = .ok (v', shares)
  | .resolveWithdrawal shares bps amount, v' => v.resolveWithdrawal shares bps = .ok (v', amount)
  | .other, v' => v'.navPerShare = v.navPerShare

/-! ## The totals of a history -/

section

variable (h : List (Transition Vault SettleCall))

def deposits : List (U64 × U64) := h.filterMap fun t => t.label.deposit?

def withdrawals : List (U64 × U64) := h.filterMap fun t => t.label.withdrawal?

def paidIn : Nat := ((deposits h).map fun c => c.1.toNat).sum

def minted : Nat := ((deposits h).map fun c => c.2.toNat).sum

def burnt : Nat := ((withdrawals h).map fun c => c.1.toNat).sum

def paidOut : Nat := ((withdrawals h).map fun c => c.2.toNat).sum

end

section

variable {v v' v₀ : Vault} {c : SettleCall} {h : List (Transition Vault SettleCall)}

theorem Serve.navPerShare_eq (st : v.Serve c v') : v'.navPerShare = v.navPerShare := by
  cases c with
  | resolveDeposit amount shares =>
    obtain ⟨_, _, _, _, _, e⟩ := resolveDeposit_ok st
    rw [e]
  | resolveWithdrawal shares bps amount =>
    obtain ⟨_, _, _, _, e⟩ := resolveWithdrawal_ok st
    rw [e]
  | other => exact st

theorem run_navPerShare (hr : Run Serve v₀ h v) : v.navPerShare = v₀.navPerShare :=
  hr.frame fun _ ht => (hr.step_of_mem ht).navPerShare_eq

/-- A call of a run was served at the price the run started with. -/
theorem run_served (hr : Run Serve v₀ h v) {f : SettleCall → Option (U64 × U64)} {d : U64 × U64}
    (hd : d ∈ h.filterMap fun t => f t.label) :
    ∃ pre c post, f c = some d ∧ Serve pre c post ∧ pre.navPerShare = v₀.navPerShare := by
  obtain ⟨t, ht, hlabel⟩ := List.mem_filterMap.1 hd
  obtain ⟨newer, older, rfl⟩ := List.append_of_mem ht
  obtain ⟨hpre, st, _⟩ := hr.split
  exact ⟨t.pre, t.label, t.post, hlabel, st, run_navPerShare hpre⟩

theorem run_deposit_eq (hr : Run Serve v₀ h v) {d : U64 × U64} (hd : d ∈ deposits h) :
    d.2.toNat = sharesFor NAV_SCALE d.1.toNat v₀.navPerShare.toNat := by
  obtain ⟨pre, c, post, hlabel, st, hprice⟩ := run_served hr hd
  rw [← hprice]
  cases c with
  | resolveDeposit amount shares =>
    cases hlabel
    exact (resolveDeposit_ok st).2.1
  | _ => cases hlabel

theorem run_withdrawal_eq (hr : Run Serve v₀ h v) {d : U64 × U64} (hd : d ∈ withdrawals h) :
    d.2.toNat = assetsFor NAV_SCALE d.1.toNat v₀.navPerShare.toNat := by
  obtain ⟨pre, c, post, hlabel, st, hprice⟩ := run_served hr hd
  rw [← hprice]
  cases c with
  | resolveWithdrawal shares bps amount =>
    cases hlabel
    exact (resolveWithdrawal_ok st).1
  | _ => cases hlabel

/-- The settlements of a run convert at the price it started with. -/
theorem run_conversions (hr : Run Serve v₀ h v) :
    minted h = issued NAV_SCALE v₀.navPerShare.toNat ((deposits h).map fun c => c.1.toNat) ∧
    paidOut h =
      redeemed NAV_SCALE v₀.navPerShare.toNat ((withdrawals h).map fun c => c.1.toNat) := by
  unfold minted paidOut issued redeemed
  simp only [List.map_map]
  constructor
  · exact congrArg List.sum (List.map_congr_left fun d hd => run_deposit_eq hr hd)
  · exact congrArg List.sum (List.map_congr_left fun d hd => run_withdrawal_eq hr hd)

/-- A round trip in one piece, at a positive price. -/
theorem run_roundTrip (hn : 0 < v₀.navPerShare.toNat) (hr : Run Serve v₀ h v)
    (hsame : burnt h = minted h) (hd : (deposits h).length = 1) (hw : (withdrawals h).length = 1) :
    (paidIn h - paidOut h) * NAV_SCALE < v₀.navPerShare.toNat + NAV_SCALE := by
  obtain ⟨em, eo⟩ := run_conversions hr
  obtain ⟨d, ed⟩ := List.length_eq_one_iff.1 hd
  obtain ⟨x, ex⟩ := List.length_eq_one_iff.1 hw
  rw [← hsame] at em
  unfold burnt issued at em
  unfold redeemed at eo
  unfold paidIn
  simp only [ed, ex, List.map_cons, List.map_nil, List.sum_cons, List.sum_nil,
    Nat.add_zero] at em eo ⊢
  rw [eo, em]
  exact roundTrip_lt NAV_SCALE_pos hn

/-- At one price `n`, what is minted and paid out is at most the exact value and short of it by
less than a unit for each settlement, so a round trip never gains. -/
theorem run_rounding (hn : 0 < v₀.navPerShare.toNat) (hr : Run Serve v₀ h v) :
    (0 < (deposits h).length →
      v₀.navPerShare.toNat * minted h ≤ paidIn h * NAV_SCALE ∧
      paidIn h * NAV_SCALE < v₀.navPerShare.toNat * (minted h + (deposits h).length)) ∧
    (0 < (withdrawals h).length →
      paidOut h * NAV_SCALE ≤ v₀.navPerShare.toNat * burnt h ∧
      v₀.navPerShare.toNat * burnt h < (paidOut h + (withdrawals h).length) * NAV_SCALE) ∧
    (burnt h = minted h → paidOut h ≤ paidIn h ∧
      ((deposits h).length = 1 → (withdrawals h).length = 1 →
        (paidIn h - paidOut h) * NAV_SCALE < v₀.navPerShare.toNat + NAV_SCALE)) := by
  obtain ⟨em, eo⟩ := run_conversions hr
  refine ⟨?_, ?_, ?_⟩
  · intro hd
    rw [em, Nat.mul_comm, Nat.mul_comm _ (_ + _)]
    have hlt := lt_issued (P := NAV_SCALE) ((deposits h).map fun c => c.1.toNat) hn
      (by rwa [List.length_map])
    rw [List.length_map] at hlt
    exact ⟨issued_mul_le NAV_SCALE _ _, hlt⟩
  · intro hw
    rw [eo, Nat.mul_comm _ (burnt h)]
    have hlt := lt_redeemed (q := v₀.navPerShare.toNat)
      ((withdrawals h).map fun c => c.1.toNat) NAV_SCALE_pos (by rwa [List.length_map])
    rw [List.length_map] at hlt
    exact ⟨redeemed_mul_le NAV_SCALE _ _, hlt⟩
  · intro hsame
    refine ⟨?_, run_roundTrip hn hr hsame⟩
    rw [eo]
    exact redeemed_le_of_issued NAV_SCALE_pos (by rw [← em, ← hsame]; exact Nat.le_refl _)

end

/-! A deposit of 1000 at a price of 1.5 mints 666 shares, which redeem for 999. -/

def sampleServe (pendingDeposits pendingShares assets outflow : U64) : Vault :=
  { new {
      id := 0, authority := 3, depositCap := 1000000, minDeposit := 1, minWithdrawalShares := 1
      performanceFeeBps := 0, managementFeeBps := 0, currentTs := 0 } with
    navPerShare := 1500000000
    pendingDeposits := pendingDeposits
    pendingWithdrawalShares := pendingShares
    totalAssets := assets
    epochOutflow := outflow }

theorem run_rounding_sample :
    0 < (sampleServe 1000 0 0 0).navPerShare.toNat ∧
    (1000 - 999) * NAV_SCALE < (sampleServe 1000 0 0 0).navPerShare.toNat + NAV_SCALE := by
  have hr : Run Serve (sampleServe 1000 0 0 0)
      [⟨sampleServe 0 666 1000 0, .resolveWithdrawal 666 0 999, sampleServe 0 0 1 999⟩,
        ⟨sampleServe 0 0 1000 0, .other, sampleServe 0 666 1000 0⟩,
        ⟨sampleServe 1000 0 0 0, .resolveDeposit 1000 666, sampleServe 0 0 1000 0⟩]
      (sampleServe 0 0 1 999) :=
    ((Run.nil.snoc rfl).snoc rfl).snoc rfl
  exact ⟨by decide, (((run_rounding (by decide) hr).2.2 rfl).2 rfl rfl)⟩

end Vault

/-! ## Worlds between two posts -/

namespace World

variable {w w' : World} {l : List (Transition World Tx)}

/-- Every step but a NAV post serves the vault. -/
theorem Change.serve {now : I64} {e : Event} (h : Change w now e w')
    (hne : ∀ totalAssets overridden, e ≠ .navPost totalAssets overridden) :
    ∃ c, w.vault.Serve c w'.vault := by
  have hnav := (h.sameNav hne).navPerShare
  cases h with
  | @depositSettle u r v shares m s h => exact ⟨.resolveDeposit r.amount shares, h.resolve⟩
  | @withdrawalSettle u r v amount m s h =>
    exact ⟨.resolveWithdrawal r.shares w.config.maxEpochOutflowBps amount, h.resolve⟩
  | _ => exact ⟨.other, hnav⟩

theorem run_serve (wf : w.WellFormed) (hr : Run Step w l w')
    (hl : ∀ t ∈ l, t.label.isNavPost = false) :
    ∃ h, Run Vault.Serve w.vault h w'.vault := by
  have hserved : Run (fun x tx y => x.Step tx y ∧ tx.isNavPost = false) w l w' :=
    hr.of_forall fun t ht => ⟨hr.step_of_mem ht, hl t ht⟩
  refine hserved.exists_sim (I := WellFormed) (fun x => x.vault) wf
    (fun _ _ _ wf st => Step.wellFormed wf st.1) ?_
  intro x tx y wf st
  exact (process_change wf st.1).serve (Tx.event_ne_of_isNavPost st.2)

end World

end HedgeVault
