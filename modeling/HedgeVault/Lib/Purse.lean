import Mathlib.Algebra.BigOperators.Group.Finset.Basic
import Mathlib.Logic.Function.Basic

/-!
# Balances

`pay b src dst n` moves `n` between two accounts of a family of balances. Nothing else
changes (`pay_of_ne`) and the sum over any accounts that include both stays (`sum_pay`). An
advance that a third account repays is a payment of the third one (`pay_repaid`).
-/

namespace HedgeVault.Lib

section

variable {α : Type*} [DecidableEq α] {b : α → Nat} {src dst a : α} {n : Nat}

/-- `n` out of `src` into `dst`. -/
def pay (b : α → Nat) (src dst : α) (n : Nat) : α → Nat :=
  let debited := Function.update b src (b src - n)
  Function.update debited dst (debited dst + n)

theorem pay_src (h : src ≠ dst) : pay b src dst n src = b src - n := by
  simp [pay, h]

theorem pay_dst (h : src ≠ dst) : pay b src dst n dst = b dst + n := by
  simp [pay, h.symm]

theorem pay_of_ne (hs : a ≠ src) (hd : a ≠ dst) : pay b src dst n a = b a := by
  simp [pay, hs, hd]

/-- Nobody but the payer has less. -/
theorem le_pay (hs : a ≠ src) : b a ≤ pay b src dst n a := by
  by_cases hd : a = dst
  · subst hd
    rw [pay_dst hs.symm]
    omega
  · rw [pay_of_ne hs hd]

@[simp] theorem pay_zero : pay b src dst 0 = b := by
  simp [pay]

theorem sum_update {S : Finset α} (ha : a ∈ S) (x : Nat) :
    ∑ k ∈ S, Function.update b a x k + b a = ∑ k ∈ S, b k + x := by
  have hrest : ∑ k ∈ S.erase a, Function.update b a x k = ∑ k ∈ S.erase a, b k :=
    Finset.sum_congr rfl fun k hk => Function.update_of_ne (Finset.ne_of_mem_erase hk) _ _
  rw [← Finset.add_sum_erase S b ha, ← Finset.add_sum_erase S _ ha, hrest,
    Function.update_self]
  omega

/-- A payment out of what there is keeps the sum. -/
theorem sum_pay {S : Finset α} (hs : src ∈ S) (hd : dst ∈ S) (hn : n ≤ b src) :
    ∑ k ∈ S, pay b src dst n k = ∑ k ∈ S, b k := by
  have h1 := sum_update (b := b) hs (b src - n)
  have h2 := sum_update (b := Function.update b src (b src - n)) hd
    (Function.update b src (b src - n) dst + n)
  unfold pay
  omega

/-- `payer` advances `n` to `dst`, and `reserve` repays it. -/
theorem pay_repaid {payer reserve : α} (hd : payer ≠ dst) (hr : payer ≠ reserve)
    (hrd : reserve ≠ dst) (hn : n ≤ b payer) :
    pay (pay b payer dst n) reserve payer n = pay b reserve dst n := by
  funext k
  by_cases hkp : k = payer
  · subst hkp
    rw [pay_dst hr.symm, pay_src hd, pay_of_ne hr hd]
    omega
  by_cases hkr : k = reserve
  · subst hkr
    rw [pay_src hr.symm, pay_of_ne hr.symm hrd, pay_src hrd]
  by_cases hkd : k = dst
  · subst hkd
    rw [pay_of_ne hkr hkp, pay_dst hd, pay_dst hrd]
  · rw [pay_of_ne hkr hkp, pay_of_ne hkp hkd, pay_of_ne hkr hkd]

end

end HedgeVault.Lib
