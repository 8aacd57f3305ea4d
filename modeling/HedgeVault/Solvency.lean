import HedgeVault.Genesis
import HedgeVault.Lib.Pool

/-!
# Share solvency

The vault as a share pool: `World.pool` counts the supply of the share mint and the
unclaimed fee shares, at the recorded NAV. Every step of the world is a step of the
pool (`Change.pool_step`): requests are idle until they are resolved, a claim moves
shares between two parts of the count, and a NAV post prices the posted assets over
the old and the new fee shares. So the pool stays solvent.
-/

namespace HedgeVault

open Lib

/-- Whether the step claims fee shares. -/
def Event.isClaim : Event → Bool
  | .claimManager => true
  | .claimPlatform => true
  | _ => false

namespace World

def pool (w : World) : Pool where
  shares := w.shareMint.supply + w.vault.unclaimedManagerFeeShares.toNat +
    w.vault.unclaimedPlatformFeeShares.toNat
  assets := w.vault.totalAssets.toNat
  price := w.vault.navPerShare.toNat

/-- The move of the pool an event stands for. -/
def poolMove (w : World) (now : I64) : Event → PoolMove
  | .depositSettle u => .issue (valueAt (·.amount.toNat) w.depositRequests u)
  | .withdrawalSettle u => .redeem (valueAt (·.shares.toNat) w.withdrawalRequests u)
  | .navPost totalAssets overridden =>
    if w.pool.shares = 0 then .reset totalAssets.toNat NAV_SCALE
    else .reprice totalAssets.toNat (w.postInputs now totalAssets overridden).newSupply
  | .shareBurn n => .burn n
  | _ => .idle

section

variable {w w' w₀ : World} {now : I64} {e : Event} {totalAssets : U64} {overridden : Bool}
  {h : List (Transition World Tx)}

/-- A post counts the shares of the pool, unclaimed ones included. -/
theorem postInputs_supply : (w.postInputs now totalAssets overridden).supply = w.pool.shares := by
  show (SplMint.supplyU64 w.shareMint).toNat + _ + _ = w.shareMint.supply + _ + _
  rw [SplMint.supplyU64_toNat]

theorem Change.posted_shares (h : Change w now (.navPost totalAssets overridden) w') :
    w'.pool.shares = (w.postInputs now totalAssets overridden).newSupply := by
  obtain ⟨hm, hp⟩ := h.accrued
  obtain ⟨e, _⟩ := h.posted_ok
  have hmint : w'.shareMint = w.shareMint := by rw [e]
  unfold NavInputs.newSupply
  rw [postInputs_supply]
  show w'.shareMint.supply + w'.vault.unclaimedManagerFeeShares.toNat +
    w'.vault.unclaimedPlatformFeeShares.toNat = w.shareMint.supply + _ + _ + _ + _
  rw [hmint]
  omega

theorem Change.posted_assets (h : Change w now (.navPost totalAssets overridden) w') :
    w'.pool.assets = totalAssets.toNat := by
  obtain ⟨_, _, post⟩ := h.posted_ok
  exact congrArg BitVec.toNat post.totalAssets

/-- Without supply a post leaves no share, at the price of a new vault. -/
theorem Change.posted_zero (h : Change w now (.navPost totalAssets overridden) w')
    (hz : w.pool.shares = 0) : w'.pool.shares = 0 ∧ w'.pool.price = NAV_SCALE := by
  obtain ⟨_, _, post⟩ := h.posted_ok
  have hz' : (w.postInputs now totalAssets overridden).supply = 0 := postInputs_supply.trans hz
  refine ⟨?_, congrArg BitVec.toNat (post.nav_of_zero hz')⟩
  rw [h.posted_shares, NavInputs.newSupply, hz', NavInputs.managerFeeShares_of_supply _ hz',
    NavInputs.platformFeeShares_of_supply _ hz']

theorem Change.posted_price (h : Change w now (.navPost totalAssets overridden) w')
    (hz : w.pool.shares ≠ 0) :
    w'.pool.price = (w.postInputs now totalAssets overridden).navPerShare := by
  obtain ⟨_, _, post⟩ := h.posted_ok
  exact post.nav_of_pos fun h0 => hz (postInputs_supply.symm.trans h0)

theorem Change.post_step (h : Change w now (.navPost totalAssets overridden) w') :
    Pool.Step NAV_SCALE w.pool (w.poolMove now (.navPost totalAssets overridden)) w'.pool := by
  simp only [poolMove]
  by_cases hz : w.pool.shares = 0
  · obtain ⟨hshares, hprice⟩ := h.posted_zero hz
    rw [if_pos hz]
    exact Pool.ext hshares h.posted_assets hprice
  · rw [if_neg hz]
    exact Pool.ext h.posted_shares h.posted_assets (h.posted_price hz)

/-- A claim mints what it stops counting as unclaimed. -/
theorem Change.claim_pool (he : e.isClaim = true) (h : Change w now e w') : w'.pool = w.pool := by
  cases h with
  | @claimManager k v shares s h mint =>
    obtain ⟨rfl, _, rfl⟩ := Vault.claimManagerFee_ok h
    obtain ⟨_, hsupply, _⟩ := Mint.mintTo_ok mint
    refine Pool.ext ?_ rfl rfl
    show s.supply + 0 + w.vault.unclaimedPlatformFeeShares.toNat = w.shareMint.supply + _ + _
    omega
  | @claimPlatform k v shares s h mint =>
    obtain ⟨rfl, _, rfl⟩ := Vault.claimPlatformFee_ok h
    obtain ⟨_, hsupply, _⟩ := Mint.mintTo_ok mint
    refine Pool.ext ?_ rfl rfl
    show s.supply + w.vault.unclaimedManagerFeeShares.toNat + 0 = w.shareMint.supply + _ + _
    omega
  | _ => cases he

/-- Every step of the world is a step of its pool. -/
theorem Change.pool_step (h : Change w now e w') :
    Pool.Step NAV_SCALE w.pool (w.poolMove now e) w'.pool := by
  cases h with
  | @depositPut u amount r v m h =>
    obtain ⟨_, _, _, _, e⟩ := Vault.requestDeposit_ok h.request
    show _ = _
    rw [e]; rfl
  | @depositRefund u r v m h =>
    obtain ⟨_, e⟩ := Vault.cancelDeposit_ok h.cancel
    show _ = _
    rw [e]; rfl
  | @depositSettle u r v shares m s h =>
    obtain ⟨_, hshares, _, _, hassets, e⟩ := Vault.resolveDeposit_ok h.resolve
    obtain ⟨_, hsupply, _⟩ := Mint.mintTo_ok h.mint
    have hr : valueAt (fun r : DepositRequest => r.amount.toNat) w.depositRequests u =
      r.amount.toNat := valueAt_of_lookup h.found
    have hm : v.unclaimedManagerFeeShares = w.vault.unclaimedManagerFeeShares := by rw [e]
    have hp : v.unclaimedPlatformFeeShares = w.vault.unclaimedPlatformFeeShares := by rw [e]
    simp only [poolMove, hr]
    refine Pool.ext ?_ hassets ?_
    · show s.supply + v.unclaimedManagerFeeShares.toNat + v.unclaimedPlatformFeeShares.toNat =
        w.shareMint.supply + w.vault.unclaimedManagerFeeShares.toNat +
        w.vault.unclaimedPlatformFeeShares.toNat +
        sharesFor NAV_SCALE r.amount.toNat w.vault.navPerShare.toNat
      rw [hsupply, hshares, hm, hp]
      omega
    · show v.navPerShare.toNat = _
      rw [e]; rfl
  | @withdrawalPut u shares r v s h =>
    obtain ⟨b, hb⟩ := h.request
    obtain ⟨_, e⟩ := Vault.requestWithdrawal_ok hb
    have hsupply := Mint.transfer_supply h.transfer
    show ({ w with clock := now, vault := v, shareMint := s, withdrawalRequests := _ } : World).pool = _
    unfold pool
    simp only [hsupply]
    rw [e]
  | @withdrawalRefund u r v s h =>
    obtain ⟨_, e⟩ := Vault.cancelWithdrawal_ok h.cancel
    have hsupply := Mint.transfer_supply h.transfer
    show ({ w with clock := now, vault := v, shareMint := s, withdrawalRequests := _ } : World).pool = _
    unfold pool
    simp only [hsupply]
    rw [e]
  | @withdrawalSettle u r v amount m s h =>
    obtain ⟨hamount, _, _, hassets, e⟩ := Vault.resolveWithdrawal_ok h.resolve
    obtain ⟨hle, hsupply, _⟩ := Mint.burn_ok h.burn
    have hback := w.shareMint.amount_le .escrow
    have hr : valueAt (fun r : WithdrawalRequest => r.shares.toNat) w.withdrawalRequests u =
      r.shares.toNat := valueAt_of_lookup h.found
    have hm : v.unclaimedManagerFeeShares = w.vault.unclaimedManagerFeeShares := by rw [e]
    have hp : v.unclaimedPlatformFeeShares = w.vault.unclaimedPlatformFeeShares := by rw [e]
    rw [hamount] at hassets
    simp only [poolMove, hr]
    refine ⟨?_, ?_, Pool.ext ?_ ?_ ?_⟩
    · show r.shares.toNat ≤ w.shareMint.supply + _ + _
      omega
    · show _ ≤ w.vault.totalAssets.toNat
      exact Nat.le_of_add_left_le hassets.le
    · show s.supply + v.unclaimedManagerFeeShares.toNat + v.unclaimedPlatformFeeShares.toNat =
        w.shareMint.supply + w.vault.unclaimedManagerFeeShares.toNat +
        w.vault.unclaimedPlatformFeeShares.toNat - r.shares.toNat
      rw [hsupply, hm, hp]
      omega
    · exact Nat.eq_sub_of_add_eq hassets
    · show v.navPerShare.toNat = _
      rw [e]; rfl
  | navPost idle h => exact Change.post_step (.navPost idle h)
  | claimManager h mint => exact Change.claim_pool rfl (.claimManager h mint)
  | claimPlatform h mint => exact Change.claim_pool rfl (.claimPlatform h mint)
  | vaultUpdate h =>
    show _ = _
    rw [Vault.update_sameButSettings h]; rfl
  | depositGift => exact rfl
  | @shareGift n s supply =>
    refine Pool.ext ?_ rfl rfl
    show s.supply + _ + _ = w.shareMint.supply + _ + _
    rw [supply]
  | @shareBurn n s supply =>
    refine Pool.ext ?_ rfl rfl
    show s.supply + w.vault.unclaimedManagerFeeShares.toNat +
      w.vault.unclaimedPlatformFeeShares.toNat = w.shareMint.supply + _ + _ - n
    omega
  | other e =>
    show _ = _
    rw [e]; rfl

/-- A run of the world is a run of its pool. -/
theorem run_pool (h0 : w₀.Fresh) (hr : Run Step w₀ h w) :
    Run (Pool.Step NAV_SCALE) w₀.pool
      (h.map fun t => ⟨t.pre.pool, t.pre.poolMove t.label.now t.label.event, t.post.pool⟩) w.pool :=
  hr.sim pool (fun w tx => w.poolMove tx.now tx.event) h0.wellFormed
    (fun _ _ _ wf st => st.wellFormed wf) fun _ _ _ wf st => (process_change wf st).pool_step

theorem Fresh.pool_solvent (h0 : w₀.Fresh) : w₀.pool.Solvent NAV_SCALE := by
  obtain ⟨ho, args, _, e⟩ := h0
  unfold Pool.Solvent pool
  rw [e, ho.shareMint]
  simp [Vault.new, Mint.empty]

theorem run_pool_solvent (h0 : w₀.Fresh) (hr : Run Step w₀ h w) : w.pool.Solvent NAV_SCALE := by
  exact Pool.run_solvent h0.pool_solvent (run_pool h0 hr)

/-- Redeeming every outstanding and accrued share at the recorded NAV never asks for
more than the total assets. -/
theorem share_solvency (h0 : w₀.Fresh) (hr : Run Step w₀ h w) :
    (w.shareMint.supply + w.vault.unclaimedManagerFeeShares.toNat +
      w.vault.unclaimedPlatformFeeShares.toNat) * w.vault.navPerShare.toNat ≤
    w.vault.totalAssets.toNat * NAV_PRECISION.toNat :=
  run_pool_solvent h0 hr

theorem share_solvency_sample : (sampleAfter 8).shareMint.supply = 771 ∧
    ((sampleAfter 8).shareMint.supply + (sampleAfter 8).vault.unclaimedManagerFeeShares.toNat +
      (sampleAfter 8).vault.unclaimedPlatformFeeShares.toNat) *
        (sampleAfter 8).vault.navPerShare.toNat ≤
    (sampleAfter 8).vault.totalAssets.toNat * NAV_PRECISION.toNat :=
  ⟨rfl, share_solvency sample_fresh (TimedStep.run_step sample_timed)⟩

end

end World

end HedgeVault
