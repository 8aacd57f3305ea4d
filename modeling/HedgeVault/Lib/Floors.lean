import HedgeVault.Lib.Pool

/-!
# Totals of rounded conversions

Assets turned into shares and shares turned into assets at one price, in any
number of pieces. Each piece is rounded down, so a total is at most the exact
value and short of it by less than one unit for each piece: `issued_mul_le` with
`lt_issued`, `redeemed_mul_le` with `lt_redeemed`. What is issued and redeemed
again at the same price therefore never gains (`redeemed_le_of_issued`), and in one
piece loses less than one share and one unit of assets (`roundTrip_lt`).
-/

namespace HedgeVault.Lib

/-- Shares issued for the amounts at price `q`, each rounded down. -/
def issued (P q : Nat) (amounts : List Nat) : Nat := (amounts.map fun a => sharesFor P a q).sum

/-- Assets paid for the pieces at price `q`, each rounded down. -/
def redeemed (P q : Nat) (pieces : List Nat) : Nat := (pieces.map fun s => assetsFor P s q).sum

section

variable {P q : Nat}

theorem lt_sharesFor_succ_mul (P a : Nat) (hq : 0 < q) : a * P < (sharesFor P a q + 1) * q := by
  rw [Nat.mul_comm _ q]
  exact Nat.lt_mul_div_succ _ hq

theorem lt_assetsFor_succ_mul (s q : Nat) (hP : 0 < P) : s * q < (assetsFor P s q + 1) * P := by
  rw [Nat.mul_comm _ P]
  exact Nat.lt_mul_div_succ _ hP

theorem issued_mul_le (P q : Nat) (amounts : List Nat) :
    issued P q amounts * q ≤ amounts.sum * P := by
  unfold issued
  induction amounts with
  | nil => simp
  | cons a amounts ih =>
    have hfloor := sharesFor_mul_le P a q
    simp only [List.map_cons, List.sum_cons, Nat.add_mul]
    omega

theorem redeemed_mul_le (P q : Nat) (pieces : List Nat) :
    redeemed P q pieces * P ≤ pieces.sum * q := by
  unfold redeemed
  induction pieces with
  | nil => simp
  | cons s pieces ih =>
    have hfloor := assetsFor_mul_le P s q
    simp only [List.map_cons, List.sum_cons, Nat.add_mul]
    omega

/-- No more than one share is withheld for each piece. -/
theorem le_issued (hq : 0 < q) (amounts : List Nat) :
    amounts.sum * P + amounts.length ≤ (issued P q amounts + amounts.length) * q := by
  unfold issued
  induction amounts with
  | nil => simp
  | cons a amounts ih =>
    have hfloor := lt_sharesFor_succ_mul P a hq
    simp only [List.map_cons, List.sum_cons, List.length_cons, Nat.add_mul, Nat.one_mul] at *
    omega

/-- No more than one unit of assets is withheld for each piece. -/
theorem le_redeemed (hP : 0 < P) (q : Nat) (pieces : List Nat) :
    pieces.sum * q + pieces.length ≤ (redeemed P q pieces + pieces.length) * P := by
  unfold redeemed
  induction pieces with
  | nil => simp
  | cons s pieces ih =>
    have hfloor := lt_assetsFor_succ_mul s q hP
    simp only [List.map_cons, List.sum_cons, List.length_cons, Nat.add_mul, Nat.one_mul] at *
    omega

theorem lt_issued (amounts : List Nat) (hq : 0 < q) (ha : 0 < amounts.length) :
    amounts.sum * P < (issued P q amounts + amounts.length) * q := by
  have hle := le_issued (P := P) hq amounts
  omega

theorem lt_redeemed (pieces : List Nat) (hP : 0 < P) (hs : 0 < pieces.length) :
    pieces.sum * q < (redeemed P q pieces + pieces.length) * P := by
  have hle := le_redeemed hP q pieces
  omega

/-- Redeeming no more than what was issued returns no more than what was paid in. -/
theorem redeemed_le_of_issued {amounts pieces : List Nat} (hP : 0 < P)
    (h : pieces.sum ≤ issued P q amounts) : redeemed P q pieces ≤ amounts.sum := by
  refine Nat.le_of_mul_le_mul_right ?_ hP
  calc redeemed P q pieces * P ≤ pieces.sum * q := redeemed_mul_le P q pieces
    _ ≤ issued P q amounts * q := Nat.mul_le_mul_right q h
    _ ≤ amounts.sum * P := issued_mul_le P q amounts

/-- One issue redeemed in one piece: the loss is below the value of a share and a unit. -/
theorem roundTrip_lt {a : Nat} (hP : 0 < P) (hq : 0 < q) :
    (a - assetsFor P (sharesFor P a q) q) * P < q + P := by
  have hissue := lt_sharesFor_succ_mul P a hq
  have hredeem := lt_assetsFor_succ_mul (sharesFor P a q) q hP
  rw [Nat.add_mul, Nat.one_mul] at hissue hredeem
  rw [Nat.sub_mul]
  omega

end

end HedgeVault.Lib
