import HedgeVault.Solvency

/-!
# The share supply and 64 bits

A NAV post starts by adding the supply of the share mint and the two unclaimed counters in
64 bits, so a vault whose sum is larger accepts no post again (`post_refused`). The post
itself bounds each fee amount and each counter but not the sum, and a resolved deposit only
meets the limit of the mint. The sum stays in range exactly in the runs where every post and
every resolved deposit leaves room for the shares it adds (`supply_fits_iff`).
-/

namespace HedgeVault

open Lib

namespace World

/-- The sum a NAV post starts from fits 64 bits. -/
def SupplyFits (w : World) : Prop :=
  w.shareMint.supply + w.vault.unclaimedManagerFeeShares.toNat +
    w.vault.unclaimedPlatformFeeShares.toNat ≤ U64_MAX

/-- The shares outstanding or unclaimed before a post or a resolved deposit, with the shares
it adds. -/
def sharesNeeded (t : Transition World Tx) : Nat :=
  match t.label.event with
  | .navPost totalAssets overridden =>
    let i := t.pre.postInputs t.label.now totalAssets overridden
    i.supply + i.managerFee * i.supply / (i.assets - i.totalFee) +
      i.platformFee * i.supply / (i.assets - i.totalFee)
  | .depositSettle u =>
    t.pre.pool.shares + sharesFor NAV_SCALE (valueAt (·.amount.toNat) t.pre.depositRequests u)
      t.pre.vault.navPerShare.toNat
  | _ => 0

/-- The step leaves room for the shares it adds. -/
def LeavesRoom (t : Transition World Tx) : Prop := sharesNeeded t ≤ U64_MAX

instance (t : Transition World Tx) : Decidable (LeavesRoom t) := inferInstanceAs (Decidable (_ ≤ _))

/-- The sum of `update_nav` succeeds. -/
def SumSucceeds (w : World) : Prop :=
  ∃ s₁ s₂, safeAdd w.shareMint.supplyU64 w.vault.unclaimedManagerFeeShares = .ok s₁ ∧
    safeAdd s₁ w.vault.unclaimedPlatformFeeShares = .ok s₂

section

variable {w w' w₀ : World} {now : I64} {e : Event} {tx : Tx} {h : List (Transition World Tx)}

theorem SupplyFits.sumSucceeds (hfit : w.SupplyFits) : w.SumSucceeds := by
  unfold SupplyFits U64_MAX at hfit
  have hm : w.shareMint.supplyU64.toNat = w.shareMint.supply := SplMint.supplyU64_toNat _
  obtain ⟨s₁, h1, e1⟩ := exists_safeAdd (a := w.shareMint.supplyU64)
    (b := w.vault.unclaimedManagerFeeShares) (by omega)
  obtain ⟨s₂, h2, _⟩ := exists_safeAdd (a := s₁)
    (b := w.vault.unclaimedPlatformFeeShares) (by omega)
  exact ⟨s₁, s₂, h1, h2⟩

/-- Both fee claims fit the mint, also one after the other. -/
theorem SupplyFits.exists_mintTo (hfit : w.SupplyFits) (k l : Holder) :
    ∃ m m', w.shareMint.mintTo k w.vault.unclaimedManagerFeeShares.toNat = .ok m ∧
      m.mintTo l w.vault.unclaimedPlatformFeeShares.toNat = .ok m' := by
  unfold SupplyFits at hfit
  obtain ⟨m, hm⟩ := Mint.exists_mintTo (m := w.shareMint) (k := k)
    (n := w.vault.unclaimedManagerFeeShares.toNat) (by omega)
  obtain ⟨_, hsupply, _⟩ := Mint.mintTo_ok hm
  obtain ⟨m', hm'⟩ := Mint.exists_mintTo (m := m) (k := l)
    (n := w.vault.unclaimedPlatformFeeShares.toNat) (by omega)
  exact ⟨m, m', hm, hm'⟩

/-- Past 64 bits no post is accepted, with or without the deviation limit. -/
theorem post_refused (wf : w.WellFormed) (hfit : ¬ w.SupplyFits) {totalAssets : U64}
    {overridden : Bool} (he : tx.event = .navPost totalAssets overridden) : ¬ w.Step tx w' := by
  intro st
  have hchange := process_change wf st
  rw [he] at hchange
  obtain ⟨_, _, post⟩ := hchange.posted_ok
  have hlt : (w.postInputs tx.now totalAssets overridden).supply < 2 ^ 64 := post.supply_lt
  rw [postInputs_supply] at hlt
  apply hfit
  show w.pool.shares ≤ U64_MAX
  unfold U64_MAX
  omega

/-- The pool's capacity condition is the room the step leaves. -/
theorem leavesRoom_iff {t : Transition World Tx} :
    LeavesRoom t ↔ ((t.pre.poolMove t.label.now t.label.event).mayGrow = true →
      t.pre.pool.sharesAfter NAV_SCALE (t.pre.poolMove t.label.now t.label.event) ≤ U64_MAX) := by
  unfold LeavesRoom sharesNeeded
  cases he : t.label.event with
  | depositSettle u =>
    constructor
    · intro hroom _
      exact hroom
    · intro hroom
      exact hroom rfl
  | navPost totalAssets overridden =>
    simp only [poolMove]
    by_cases hz : t.pre.pool.shares = 0
    · have hs : (t.pre.postInputs t.label.now totalAssets overridden).supply = 0 :=
        postInputs_supply.trans hz
      rw [if_pos hz, hs]
      simp [PoolMove.mayGrow]
    · rw [if_neg hz]
      constructor
      · intro hroom _
        exact hroom
      · intro hroom
        exact hroom rfl
  | withdrawalSettle => simp [poolMove, PoolMove.mayGrow]
  | shareBurn => simp [poolMove, PoolMove.mayGrow]
  | _ => simp [poolMove, PoolMove.mayGrow]

theorem Fresh.supplyFits (h0 : w₀.Fresh) : w₀.SupplyFits := by
  obtain ⟨ho, args, _, e⟩ := h0
  unfold SupplyFits
  rw [e, ho.shareMint]
  exact Nat.zero_le _

theorem run_supplyFits_iff (h0 : w₀.Fresh) (hr : Run Step w₀ h w) :
    (∀ t ∈ h, t.post.SupplyFits) ↔ ∀ t ∈ h, LeavesRoom t := by
  have hcap := Pool.run_capped (show w₀.pool.shares ≤ U64_MAX from h0.supplyFits) (run_pool h0 hr)
  simp only [List.forall_mem_map] at hcap
  simp only [leavesRoom_iff]
  exact hcap

/-- The supply with the unclaimed fee shares fits 64 bits in every state of a run if and only
if every post and every resolved deposit of it leaves room for the shares it adds. Then every
later post gets past its sum, and every fee claim fits the mint. -/
theorem supply_fits_iff (h0 : w₀.Fresh) (hr : Run Step w₀ h w) :
    ((∀ t ∈ h, t.post.SupplyFits) ↔ ∀ t ∈ h, LeavesRoom t) ∧
    ((∀ t ∈ h, LeavesRoom t) → w.SumSucceeds ∧ ∀ k l, ∃ m m',
      w.shareMint.mintTo k w.vault.unclaimedManagerFeeShares.toNat = .ok m ∧
      m.mintTo l w.vault.unclaimedPlatformFeeShares.toNat = .ok m') := by
  refine ⟨run_supplyFits_iff h0 hr, ?_⟩
  intro hroom
  have hall := (run_supplyFits_iff h0 hr).2 hroom
  have hfit : w.SupplyFits := by
    cases hr with
    | nil => exact h0.supplyFits
    | snoc => exact hall _ List.mem_cons_self
  exact ⟨hfit.sumSucceeds, hfit.exists_mintTo⟩

theorem supply_fits_iff_sample : (sampleAfter 8).SumSucceeds ∧
    ∀ k l, ∃ m m', (sampleAfter 8).shareMint.mintTo k
        (sampleAfter 8).vault.unclaimedManagerFeeShares.toNat = .ok m ∧
      m.mintTo l (sampleAfter 8).vault.unclaimedPlatformFeeShares.toNat = .ok m' := by
  have hroom : (sampleHistory 8).all (fun t => decide (LeavesRoom t)) = true := by rfl
  rw [List.all_eq_true] at hroom
  exact (supply_fits_iff sample_fresh (TimedStep.run_step sample_timed)).2
    fun t ht => of_decide_eq_true (hroom t ht)

/-! ## A post that leaves no room -/

/-- A vault with a performance fee of 100% beside a platform performance fee of 0.01%. -/
def wideSample : World := { sample with
  config := { sampleConfig with platformPerformanceFeeBps := 1 }
  vault := Vault.new {
    id := 0
    authority := manager.key
    depositCap := BitVec.ofNat 64 U64_MAX
    minDeposit := 1
    minWithdrawalShares := 1
    performanceFeeBps := 10000
    managementFeeBps := 0
    currentTs := 0 }
  depositMint := Mint.heldBy (.wallet alice.key) (2 ^ 63) (by decide) }

/-- Alice deposits half of the 64-bit range, and the next post doubles its value. -/
def wideTxs : List Tx := [
  (Instruction.depositRequestCreate (BitVec.ofNat 64 (2 ^ 63)) (.ok ()) 0).sentBy alice 100,
  (Instruction.navUpdate 0).sentBy updater 14400,
  (Instruction.depositRequestResolve alice.key).sentBy bob 14401,
  (Instruction.navUpdate (BitVec.ofNat 64 U64_MAX)).sentBy updater 28800]

theorem wideSample_fresh : wideSample.Fresh := ⟨⟨by decide, rfl, rfl, rfl, rfl⟩, _, rfl, rfl⟩

theorem fee_shares_overflow : ∃ (w₀ w : World) (h : List (Transition World Tx)), w₀.Fresh ∧
    Run TimedStep w₀ h w ∧ ¬ w.SupplyFits ∧ ∀ tx totalAssets overridden w',
      tx.event = .navPost totalAssets overridden → ¬ w.Step tx w' := by
  have hok : (runAll process wideSample [] wideTxs).isOk = true := by rfl
  have hr := timed_final hok (by rfl)
  have hshares : (final process wideSample wideTxs).pool.shares = 18448588914150532895 := by rfl
  have hfit : ¬ (final process wideSample wideTxs).SupplyFits := by
    show ¬ (final process wideSample wideTxs).pool.shares ≤ U64_MAX
    rw [hshares]
    decide
  exact ⟨wideSample, _, _, wideSample_fresh, hr, hfit, fun tx _ _ _ he =>
    post_refused (run_wellFormed wideSample_fresh (TimedStep.run_step hr)) hfit he⟩

end

end World

end HedgeVault
