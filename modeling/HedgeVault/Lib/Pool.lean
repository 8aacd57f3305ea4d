import HedgeVault.Lib.Run
import Mathlib.Algebra.Order.Ring.Nat

/-!
# Share pools

A `Pool` issues shares against its assets at a recorded price per share, in
units of `1 / P`. Shares and payouts are rounded down (`sharesFor`, `assetsFor`),
so redeeming every share at the recorded price never asks for more than the
assets: `Solvent`, kept by every `Pool.Step` (`Pool.run_solvent`).

A `Window` is the redemption side between two prices: `due` shares may still be
redeemed at `price`, and `paid` was paid out since that price was recorded.
`Covered cap` bounds what was paid and what is due together by `cap`, so neither
the sum nor a single payout leaves that range, in whatever order the due shares
come (`Covered.paid_le`).
-/

namespace HedgeVault.Lib

/-- Shares issued for `a` assets at price `q`. -/
def sharesFor (P a q : Nat) : Nat := a * P / q

/-- Assets paid for `s` shares at price `q`. -/
def assetsFor (P s q : Nat) : Nat := s * q / P

theorem sharesFor_mul_le (P a q : Nat) : sharesFor P a q * q ≤ a * P := Nat.div_mul_le_self _ _

theorem assetsFor_mul_le (P s q : Nat) : assetsFor P s q * P ≤ s * q := Nat.div_mul_le_self _ _

/-- A claim within `n` is paid within `n`. -/
theorem assetsFor_le {P s q n : Nat} (hP : 0 < P) (h : s * q ≤ n * P) : assetsFor P s q ≤ n :=
  Nat.le_of_mul_le_mul_right ((assetsFor_mul_le P s q).trans h) hP

@[ext]
structure Pool where
  shares : Nat
  assets : Nat
  price : Nat

inductive PoolMove where
  /-- Shares issued for assets at the recorded price. -/
  | issue (a : Nat)
  /-- Shares redeemed at the recorded price. -/
  | redeem (s : Nat)
  /-- Shares given up for nothing. -/
  | burn (s : Nat)
  /-- New assets and a new number of shares, priced at their ratio. -/
  | reprice (assets shares : Nat)
  /-- New assets and any price, without a share outstanding. -/
  | reset (assets price : Nat)
  | idle

/-- Redeeming every share at the recorded price asks for no more than the assets. -/
def Pool.Solvent (P : Nat) (p : Pool) : Prop := p.shares * p.price ≤ p.assets * P

def Pool.Step (P : Nat) (p : Pool) : PoolMove → Pool → Prop
  | .issue a, p' => p' = ⟨p.shares + sharesFor P a p.price, p.assets + a, p.price⟩
  | .redeem s, p' => s ≤ p.shares ∧ assetsFor P s p.price ≤ p.assets ∧
      p' = ⟨p.shares - s, p.assets - assetsFor P s p.price, p.price⟩
  | .burn s, p' => p' = ⟨p.shares - s, p.assets, p.price⟩
  | .reprice T n, p' => p' = ⟨n, T, T * P / n⟩
  | .reset T q, p' => p' = ⟨0, T, q⟩
  | .idle, p' => p' = p

section

variable {P : Nat} {p p' : Pool} {s : Nat}

/-- A redemption from a solvent pool is covered by its assets. -/
theorem Pool.Solvent.assetsFor_le (hP : 0 < P) (h : p.Solvent P) (hs : s ≤ p.shares) :
    assetsFor P s p.price ≤ p.assets :=
  Lib.assetsFor_le hP ((Nat.mul_le_mul_right _ hs).trans h)

theorem Pool.Step.solvent {m : PoolMove} (h : p.Solvent P) (st : p.Step P m p') :
    p'.Solvent P := by
  unfold Pool.Solvent at *
  cases m with
  | issue a =>
    cases st
    simp only [Nat.add_mul]
    exact Nat.add_le_add h (sharesFor_mul_le P a p.price)
  | redeem s =>
    obtain ⟨_, _, rfl⟩ := st
    -- the payout is rounded down, so the claim falls by at least what the assets fall by
    have hfloor := assetsFor_mul_le P s p.price
    simp only [Nat.sub_mul]
    omega
  | burn s =>
    cases st
    exact (Nat.mul_le_mul_right _ (Nat.sub_le _ _)).trans h
  | reprice T n =>
    cases st
    rw [Nat.mul_comm]
    exact Nat.div_mul_le_self _ _
  | reset T q =>
    cases st
    simp
  | idle =>
    cases st
    exact h

/-- The number of shares after a move. -/
def Pool.sharesAfter (P : Nat) (p : Pool) : PoolMove → Nat
  | .issue a => p.shares + sharesFor P a p.price
  | .redeem s => p.shares - s
  | .burn s => p.shares - s
  | .reprice _ n => n
  | .reset _ _ => 0
  | .idle => p.shares

theorem Pool.Step.shares_eq {m : PoolMove} (st : p.Step P m p') :
    p'.shares = p.sharesAfter P m := by
  cases m with
  | redeem s =>
    obtain ⟨_, _, rfl⟩ := st
    rfl
  | _ => cases st; rfl

/-- Only an issue and a new price can raise the number of shares. -/
def PoolMove.mayGrow : PoolMove → Bool
  | .issue _ => true
  | .reprice _ _ => true
  | _ => false

theorem Pool.sharesAfter_le {m : PoolMove} (hm : m.mayGrow = false) :
    p.sharesAfter P m ≤ p.shares := by
  cases m with
  | issue => cases hm
  | reprice => cases hm
  | reset => exact Nat.zero_le _
  | idle => exact Nat.le_refl _
  | _ => exact Nat.sub_le _ _

/-- The shares stay within `cap` in every state of a run if and only if every issue and every
new price of it keeps within `cap`. -/
theorem Pool.run_capped {cap : Nat} {p₀ : Pool} {h : List (Transition Pool PoolMove)}
    (h0 : p₀.shares ≤ cap) (hr : Run (Pool.Step P) p₀ h p) :
    (∀ t ∈ h, t.post.shares ≤ cap) ↔
      ∀ t ∈ h, t.label.mayGrow = true → t.pre.sharesAfter P t.label ≤ cap := by
  constructor
  · intro hcap t ht _
    rw [← (hr.step_of_mem ht).shares_eq]
    exact hcap t ht
  · intro hkeep
    induction hr with
    | nil => exact fun t ht => nomatch ht
    | @snoc h s s' m hr st ih =>
      have hold := ih fun t ht => hkeep t (List.mem_cons_of_mem _ ht)
      have hs : s.shares ≤ cap := by
        cases hr with
        | nil => exact h0
        | snoc => exact hold _ List.mem_cons_self
      intro t ht
      rcases List.mem_cons.1 ht with rfl | ht
      · have hlast : s'.shares = s.sharesAfter P m := st.shares_eq
        show s'.shares ≤ cap
        rw [hlast]
        cases hm : m.mayGrow with
        | true => exact hkeep _ List.mem_cons_self hm
        | false => exact (Pool.sharesAfter_le hm).trans hs
      · exact hold t ht

theorem Pool.run_solvent {p₀ : Pool} {h : List (Transition Pool PoolMove)} (h0 : p₀.Solvent P)
    (hr : Run (Pool.Step P) p₀ h p) : p.Solvent P :=
  hr.inv h0 fun _ _ _ hs st => st.solvent hs

end

/-! ## Redemption windows -/

@[ext]
structure Window where
  price : Nat
  /-- Shares that may still be redeemed at the price. -/
  due : Nat
  /-- Assets paid out since the price was recorded. -/
  paid : Nat

inductive WindowMove where
  | redeem (s : Nat)
  /-- Due shares that leave the window unredeemed. -/
  | release (s : Nat)
  | reprice (price due : Nat)
  | idle

def Window.Covered (P cap : Nat) (w : Window) : Prop :=
  w.paid * P + w.due * w.price ≤ cap * P

/-- A new price may only be due what `cap` covers at it. -/
def Window.Step (P cap : Nat) (w : Window) : WindowMove → Window → Prop
  | .redeem s, w' => s ≤ w.due ∧
      w' = ⟨w.price, w.due - s, w.paid + assetsFor P s w.price⟩
  | .release s, w' => w' = ⟨w.price, w.due - s, w.paid⟩
  | .reprice q d, w' => d * q ≤ cap * P ∧ w' = ⟨q, d, 0⟩
  | .idle, w' => w' = w

section

variable {P cap : Nat} {w w' : Window} {s : Nat}

/-- What was paid together with one more payout stays within the cap. -/
theorem Window.Covered.paid_le (hP : 0 < P) (h : w.Covered P cap) (hs : s ≤ w.due) :
    w.paid + assetsFor P s w.price ≤ cap := by
  have hfloor := assetsFor_mul_le P s w.price
  have hdue : s * w.price ≤ w.due * w.price := Nat.mul_le_mul_right _ hs
  unfold Window.Covered at h
  refine Nat.le_of_mul_le_mul_right (c := P) ?_ hP
  rw [Nat.add_mul]
  omega

theorem Window.Step.covered {m : WindowMove} (h : w.Covered P cap) (st : w.Step P cap m w') :
    w'.Covered P cap := by
  unfold Window.Covered at *
  cases m with
  | redeem s =>
    obtain ⟨_, rfl⟩ := st
    have hfloor := assetsFor_mul_le P s w.price
    have hdue : s * w.price ≤ w.due * w.price := Nat.mul_le_mul_right _ ‹_›
    simp only [Nat.add_mul, Nat.sub_mul]
    omega
  | release s =>
    cases st
    simp only [Nat.sub_mul]
    omega
  | reprice q d =>
    obtain ⟨hd, rfl⟩ := st
    simpa using hd
  | idle =>
    cases st
    exact h

theorem Window.run_covered {w₀ : Window} {h : List (Transition Window WindowMove)}
    (h0 : w₀.Covered P cap) (hr : Run (Window.Step P cap) w₀ h w) : w.Covered P cap :=
  hr.inv h0 fun _ _ _ hs st => st.covered hs

end

end HedgeVault.Lib
