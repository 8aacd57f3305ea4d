import HedgeVault.Lib.Run
import Mathlib.Algebra.Order.Ring.Defs

/-!
# Rates along a run

When the steps with `p` move a measure by at most a factor and the others leave it alone,
a run with `k` of them moves it by at most the `k`-th power (`Run.le_of_shrink`,
`Run.le_of_grow`). When they advance a counter and the others never set it back, `k` is at
most the advance (`Run.count_le`).
-/

namespace HedgeVault.Lib

section

variable {σ α : Type*} {step : σ → α → σ → Prop} {s₀ s : σ} {h : List (Transition σ α)}
  {p : Transition σ α → Bool}

theorem Run.count_le {g : σ → Nat} (hr : Run step s₀ h s)
    (hp : ∀ t ∈ h, p t = true → g t.pre < g t.post)
    (hother : ∀ t ∈ h, p t = false → g t.pre ≤ g t.post) : g s₀ + h.countP p ≤ g s := by
  induction hr with
  | nil => exact Nat.le_refl _
  | @snoc h s s' a hr st ih =>
    have hold := ih (fun t ht => hp t (List.mem_cons_of_mem _ ht))
      fun t ht => hother t (List.mem_cons_of_mem _ ht)
    cases hlast : p ⟨s, a, s'⟩ with
    | true =>
      have hlt : g s < g s' := hp _ List.mem_cons_self hlast
      rw [List.countP_cons_of_pos hlast]
      omega
    | false =>
      have hle : g s ≤ g s' := hother _ List.mem_cons_self hlast
      rw [List.countP_cons_of_neg (by rw [hlast]; exact Bool.false_ne_true)]
      omega

variable {R : Type*} [CommSemiring R] [PartialOrder R] [IsOrderedRing R] {f : σ → R} {a c : R}

/-- Steps that relate the measure before, times `a`, to the one after, times `c`, compound. -/
theorem Run.compound {r : R → R → Prop} (hrefl : ∀ x, r x x)
    (htrans : ∀ x y z, r x y → r y z → r x z)
    (hmul : ∀ x y z, 0 ≤ z → r x y → r (x * z) (y * z)) (ha : 0 ≤ a) (hc : 0 ≤ c)
    (hr : Run step s₀ h s) (hp : ∀ t ∈ h, p t = true → r (f t.pre * a) (f t.post * c))
    (hother : ∀ t ∈ h, p t = false → f t.post = f t.pre) :
    r (f s₀ * a ^ h.countP p) (f s * c ^ h.countP p) := by
  induction hr with
  | nil =>
    rw [List.countP_nil, pow_zero, pow_zero]
    exact hrefl _
  | @snoc h s s' x hr st ih =>
    have hold := ih (fun t ht => hp t (List.mem_cons_of_mem _ ht))
      fun t ht => hother t (List.mem_cons_of_mem _ ht)
    cases hlast : p ⟨s, x, s'⟩ with
    | true =>
      have hstep : r (f s * a) (f s' * c) := hp _ List.mem_cons_self hlast
      have h1 := hmul _ _ _ ha hold
      have h2 := hmul _ _ _ (pow_nonneg hc (h.countP p)) hstep
      rw [mul_right_comm] at h2
      rw [List.countP_cons_of_pos hlast, pow_succ, pow_succ, ← mul_assoc, ← mul_assoc,
        mul_right_comm (f s')]
      exact htrans _ _ _ h1 h2
    | false =>
      have hframe : f s' = f s := hother _ List.mem_cons_self hlast
      rw [List.countP_cons_of_neg (by rw [hlast]; exact Bool.false_ne_true), hframe]
      exact hold

/-- No step with `p` shrinks the measure below `a / c` of it. -/
theorem Run.le_of_shrink (ha : 0 ≤ a) (hc : 0 ≤ c) (hr : Run step s₀ h s)
    (hp : ∀ t ∈ h, p t = true → f t.pre * a ≤ f t.post * c)
    (hother : ∀ t ∈ h, p t = false → f t.post = f t.pre) :
    f s₀ * a ^ h.countP p ≤ f s * c ^ h.countP p :=
  hr.compound (r := fun x y => x ≤ y) (fun _ => le_rfl) (fun _ _ _ => le_trans)
    (fun _ _ _ hz hxy => mul_le_mul_of_nonneg_right hxy hz) ha hc hp hother

/-- No step with `p` grows the measure above `a / c` of it. -/
theorem Run.le_of_grow (ha : 0 ≤ a) (hc : 0 ≤ c) (hr : Run step s₀ h s)
    (hp : ∀ t ∈ h, p t = true → f t.post * c ≤ f t.pre * a)
    (hother : ∀ t ∈ h, p t = false → f t.post = f t.pre) :
    f s * c ^ h.countP p ≤ f s₀ * a ^ h.countP p :=
  hr.compound (r := fun x y => y ≤ x) (fun _ => le_rfl) (fun _ _ _ hxy hyz => hyz.trans hxy)
    (fun _ _ _ hz hxy => mul_le_mul_of_nonneg_right hxy hz) ha hc hp hother

end

end HedgeVault.Lib
