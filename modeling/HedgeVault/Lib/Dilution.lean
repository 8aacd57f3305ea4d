import Mathlib.Algebra.Order.Ring.Nat
import Mathlib.Algebra.Order.Field.Rat
import Mathlib.Algebra.BigOperators.Group.List.Basic
import Mathlib.Data.Nat.Cast.Order.Field
import Mathlib.Tactic.FieldSimp
import Mathlib.Tactic.Linarith

/-!
# Fees taken as new shares

A pool of `S` shares and assets `n + F.sum` pays the fees `F` by issuing shares: a fee
`f` gets `f * S / n`, rounded down, so that at most `f` of the assets are behind its shares
and `n` stay behind the old ones. `diluted S n F` is the enlarged number of shares.

The floors are on the side of the old holders (`mul_diluted_le`), and there is one for each
fee, so together they cost the recipients less than `F.length` shares (`lt_mul_diluted`).
The price of the enlarged pool lies between the price of the net assets and the price
without a fee (`le_diluted_price`, `diluted_price_le`).
-/

namespace HedgeVault.Lib

/-- Shares issued for the fee `f` at the price that `n` assets give `S` shares. -/
def issuedFor (S n f : Nat) : Nat := f * S / n

def diluted (S n : Nat) (F : List Nat) : Nat := S + (F.map (issuedFor S n)).sum

section

variable {S n : Nat} {F : List Nat}

theorem mul_issuedFor_le (S n f : Nat) : n * issuedFor S n f ≤ S * f := by
  rw [Nat.mul_comm S]
  exact Nat.mul_div_le _ _

theorem lt_mul_issuedFor (hn : 0 < n) (f : Nat) : S * f < n * issuedFor S n f + n := by
  rw [Nat.mul_comm S]
  exact Nat.lt_mul_div_succ _ hn

theorem mul_sum_issuedFor_le (S n : Nat) (F : List Nat) :
    n * (F.map (issuedFor S n)).sum ≤ S * F.sum := by
  induction F with
  | nil => simp
  | cons f F ih =>
    have hf := mul_issuedFor_le S n f
    simp only [List.map_cons, List.sum_cons, Nat.mul_add]
    omega

theorem le_mul_sum_issuedFor (hn : 0 < n) (F : List Nat) :
    S * F.sum + F.length ≤ n * (F.map (issuedFor S n)).sum + n * F.length := by
  induction F with
  | nil => simp
  | cons f F ih =>
    have hf := lt_mul_issuedFor (S := S) hn f
    simp only [List.map_cons, List.sum_cons, List.length_cons, Nat.mul_add, Nat.mul_one]
    omega

theorem mul_diluted_le (S n : Nat) (F : List Nat) :
    n * diluted S n F ≤ S * (n + F.sum) := by
  have hsum := mul_sum_issuedFor_le S n F
  have hcomm := Nat.mul_comm n S
  simp only [diluted, Nat.mul_add]
  omega

/-- Each fee loses less than one share to its floor. -/
theorem lt_mul_diluted (hn : 0 < n) (hfs : 0 < F.length) :
    S * (n + F.sum) < n * (diluted S n F + F.length) := by
  have hsum := le_mul_sum_issuedFor (S := S) hn F
  have hcomm := Nat.mul_comm n S
  simp only [diluted, Nat.mul_add]
  omega

theorem le_diluted (S n : Nat) (F : List Nat) : S ≤ diluted S n F := Nat.le_add_right _ _

/-! ## Prices -/

/-- A smaller ratio has a smaller floor. -/
theorem div_le_div_of_cross {a b c d : Nat} (hb : 0 < b) (hd : 0 < d) (h : a * d ≤ c * b) :
    a / b ≤ c / d := by
  rw [Nat.le_div_iff_mul_le hd]
  apply Nat.le_of_mul_le_mul_right _ hb
  calc a / b * d * b = a / b * b * d := Nat.mul_right_comm _ _ _
    _ ≤ a * d := Nat.mul_le_mul_right _ (Nat.div_mul_le_self _ _)
    _ ≤ c * b := h

/-- The diluted price is no less than the price of the net assets over the old shares. -/
theorem le_diluted_price (P : Nat) (hS : 0 < S) :
    n * P / S ≤ (n + F.sum) * P / diluted S n F := by
  have hpos : 0 < diluted S n F := Nat.lt_of_lt_of_le hS (le_diluted S n F)
  apply div_le_div_of_cross hS hpos
  calc n * P * diluted S n F = n * diluted S n F * P := Nat.mul_right_comm _ _ _
    _ ≤ S * (n + F.sum) * P := Nat.mul_le_mul_right _ (mul_diluted_le S n F)
    _ = (n + F.sum) * P * S := by rw [Nat.mul_comm S, Nat.mul_right_comm]

theorem diluted_price_le (T P : Nat) (hS : 0 < S) : T * P / diluted S n F ≤ T * P / S :=
  Nat.div_le_div_left (le_diluted S n F) hS

/-- What the old shares claim of all the assets is at least the net assets. -/
theorem net_le_old_claim (hS : 0 < S) :
    (n : ℚ) ≤ S * ((n + F.sum : Nat) : ℚ) / diluted S n F := by
  have hpos : 0 < diluted S n F := Nat.lt_of_lt_of_le hS (le_diluted S n F)
  rw [le_div_iff₀ (by exact_mod_cast hpos)]
  exact_mod_cast mul_diluted_le S n F

/-- What the new shares claim of all the assets is at most the fees. -/
theorem new_claim_le_fees (hS : 0 < S) :
    ((F.map (issuedFor S n)).sum : ℚ) * (((n + F.sum : Nat) : ℚ) / diluted S n F) ≤
      F.sum := by
  have hpos : 0 < diluted S n F := Nat.lt_of_lt_of_le hS (le_diluted S n F)
  rw [mul_div_assoc', div_le_iff₀ (by exact_mod_cast hpos)]
  have hle := mul_diluted_le S n F
  have hnat : (F.map (issuedFor S n)).sum * (n + F.sum) ≤ F.sum * diluted S n F := by
    unfold diluted at *
    generalize (F.map (issuedFor S n)).sum = q at *
    nlinarith only [hle]
  exact_mod_cast hnat

end

end HedgeVault.Lib
