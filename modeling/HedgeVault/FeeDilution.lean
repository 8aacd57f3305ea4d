import HedgeVault.Lib.Dilution
import HedgeVault.Genesis

/-!
# Fees as dilution

A NAV post over a nonzero supply pays the two fees as new shares (`Lib.diluted`): the
manager's and the platform's, each rounded down. `fee_dilution` is the two-sided bound on
the enlarged supply and what follows for holders, recipients and the recorded NAV.
-/

namespace HedgeVault

open Lib

namespace NavInputs

variable (i : NavInputs)

/-- The fees of a post, in the order they are paid. -/
def fees : List Nat := [i.managerFee, i.platformFee]

theorem fees_sum : i.fees.sum = i.totalFee := by
  unfold fees totalFee
  rw [List.sum_cons, List.sum_singleton]

theorem issued_sum : (i.fees.map (issuedFor i.supply i.netAssets)).sum =
    i.managerFeeShares + i.platformFeeShares := by
  unfold fees managerFeeShares platformFeeShares issuedFor
  rw [List.map_cons, List.map_cons, List.map_nil, List.sum_cons, List.sum_singleton]

theorem newSupply_eq : i.newSupply = diluted i.supply i.netAssets i.fees := by
  unfold newSupply diluted
  rw [issued_sum, Nat.add_assoc]

theorem netAssets_add_fees (h : i.totalFee ≤ i.assets) :
    i.netAssets + i.fees.sum = i.assets := by
  rw [fees_sum]
  exact Nat.sub_add_cancel h

end NavInputs

namespace Vault

variable {v v' : Vault} {args : NavUpdateArgs} {fs : NavFeeShares}

/-- The supply a post counts, with the fee shares it adds. -/
def enlargedSupply (v : Vault) (args : NavUpdateArgs) (fs : NavFeeShares) : Nat :=
  args.shareSupply.toNat + v.unclaimedManagerFeeShares.toNat +
    v.unclaimedPlatformFeeShares.toNat + fs.managerFeeShares.toNat + fs.platformFeeShares.toNat

theorem NavPosted.enlargedSupply_eq (post : NavPosted v args v' fs) :
    v.enlargedSupply args fs = (v.navInputs args).newSupply := by
  unfold enlargedSupply
  rw [post.managerFeeShares, post.platformFeeShares]
  rfl

theorem NavPosted.fee_le (post : NavPosted v args v' fs) (hs : 0 < (v.navInputs args).supply) :
    (v.navInputs args).totalFee ≤ args.totalAssets.toNat := by
  rcases post.fee_lt hs.ne' with h | h <;> omega

/-- A post with supply `S`, assets `T`, fee `f` and net assets `T - f` enlarges the supply to
`N` with `(T - f) * N ≤ S * T < (T - f) * (N + 2)`: the old holders keep at least the net
assets, and the new shares are worth at most the fee. -/
theorem fee_dilution (h : v.updateNav args = .ok (v', fs)) (hs : 0 < (v.navInputs args).supply) :
    let S := (v.navInputs args).supply
    let T := args.totalAssets.toNat
    let f := (v.navInputs args).totalFee
    let N := v.enlargedSupply args fs
    (0 < f → (T - f) * N ≤ S * T ∧ S * T < (T - f) * (N + 2)) ∧
    (T : ℚ) - f ≤ S * T / N ∧
    ((fs.managerFeeShares.toNat + fs.platformFeeShares.toNat : Nat) : ℚ) * (T / N) ≤ f ∧
    (T - f) * NAV_SCALE / S ≤ v'.navPerShare.toNat ∧ v'.navPerShare.toNat ≤ T * NAV_SCALE / S ∧
    (f = 0 → v'.navPerShare.toNat = T * NAV_SCALE / S) := by
  intro S T f N
  have post := updateNav_ok h
  have hle : f ≤ T := post.fee_le hs
  have hN : N = diluted S (T - f) (v.navInputs args).fees :=
    post.enlargedSupply_eq.trans (NavInputs.newSupply_eq _)
  have hT : T - f + (v.navInputs args).fees.sum = T := NavInputs.netAssets_add_fees _ hle
  have hf : (v.navInputs args).fees.sum = f := NavInputs.fees_sum _
  have hnav : v'.navPerShare.toNat = T * NAV_SCALE / N := by
    rw [post.nav_of_pos hs.ne', NavInputs.navPerShare, ← post.enlargedSupply_eq]
    rfl
  refine ⟨?_, ?_, ?_, ?_, ?_, ?_⟩
  · intro hpos
    have hlt : f < T := (post.fee_lt hs.ne').resolve_left hpos.ne'
    have hlow := mul_diluted_le S (T - f) (v.navInputs args).fees
    have hhigh := lt_mul_diluted (S := S) (n := T - f) (F := (v.navInputs args).fees)
      (by omega) Nat.two_pos
    rw [← hN, hT] at hlow hhigh
    exact ⟨hlow, hhigh⟩
  · have hold := net_le_old_claim (n := T - f) (F := (v.navInputs args).fees) hs
    rw [hT, ← hN, Nat.cast_sub hle] at hold
    exact hold
  · have hnew := new_claim_le_fees (n := T - f) (F := (v.navInputs args).fees) hs
    have hissued : ((v.navInputs args).fees.map (issuedFor S (T - f))).sum =
        fs.managerFeeShares.toNat + fs.platformFeeShares.toNat := by
      rw [post.managerFeeShares, post.platformFeeShares]
      exact NavInputs.issued_sum _
    rw [hT, ← hN, hf, hissued] at hnew
    exact hnew
  · have hprice := le_diluted_price (n := T - f) (F := (v.navInputs args).fees) NAV_SCALE hs
    rw [hT, ← hN] at hprice
    rw [hnav]
    exact hprice
  · rw [hnav, hN]
    exact diluted_price_le T NAV_SCALE hs
  · intro h0
    rw [post.nav_of_pos hs.ne', NavInputs.navPerShare_of_totalFee _ h0]
    rfl

/-- The post of the sample run that charges a performance fee of 100 on a profit of 500. -/
def samplePost : NavUpdateArgs :=
  { (World.sampleAfter 3).navUpdateArgs 1500 none with now := ⟨28800, by decide, by decide⟩ }

theorem fee_dilution_sample :
    (World.sampleAfter 3).vault.updateNav samplePost =
      .ok ((World.sampleAfter 4).vault, ⟨71, 0⟩) ∧
    1400 * 1071 ≤ 1000 * 1500 ∧ 1000 * 1500 < 1400 * 1073 := by
  have hpost : (World.sampleAfter 3).vault.updateNav samplePost =
      .ok ((World.sampleAfter 4).vault, ⟨71, 0⟩) := rfl
  exact ⟨hpost, (fee_dilution hpost (by decide)).1 (by decide)⟩

end Vault

end HedgeVault
