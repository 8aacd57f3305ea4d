import HedgeVault.Lib.Run
import Mathlib.Algebra.BigOperators.Group.List.Basic

/-!
# Runs that add up

When every executed step adds a contribution of its label to a measure, the run adds
the sum of them (`Run.tally`), so two runs over the same labels in any order leave the
same measure (`Run.tally_perm`). `Run.removed` is the same for what steps remove from a
table: an entry is gone exactly when some step removed it.
-/

namespace HedgeVault.Lib

section

variable {σ α κ ρ M : Type*} {step : σ → α → σ → Prop} {s₀ s s' : σ}
  {h h' : List (Transition σ α)}

theorem Run.tally [AddCommMonoid M] {f : σ → M} {d : α → M} (hr : Run step s₀ h s)
    (hd : ∀ t ∈ h, f t.post = f t.pre + d t.label) :
    f s = f s₀ + (h.map fun t => d t.label).sum := by
  induction hr with
  | nil => exact (add_zero _).symm
  | @snoc h s s' a hr st ih =>
    have hlast : f s' = f s + d a := hd _ List.mem_cons_self
    have hold := ih fun t ht => hd t (List.mem_cons_of_mem _ ht)
    rw [hlast, hold, List.map_cons, List.sum_cons, add_assoc, add_comm _ (d a)]

theorem Run.tally_perm [AddCommMonoid M] {β : Type*} {f : σ → M} {e : α → β} {d : β → M}
    (hr : Run step s₀ h s) (hr' : Run step s₀ h' s')
    (hd : ∀ t ∈ h, f t.post = f t.pre + d (e t.label))
    (hd' : ∀ t ∈ h', f t.post = f t.pre + d (e t.label))
    (hperm : (h.map fun t => e t.label).Perm (h'.map fun t => e t.label)) : f s = f s' := by
  have hsum := (hperm.map d).sum_eq
  rw [List.map_map, List.map_map] at hsum
  rw [hr.tally (d := fun a => d (e a)) hd, hr'.tally (d := fun a => d (e a)) hd']
  exact congrArg (f s₀ + ·) hsum

/-- What is in the table after the run was in it before and removed by no step. -/
theorem Run.removed [DecidableEq κ] {g : σ → κ → Option ρ} {c : α → Option κ}
    (hr : Run step s₀ h s)
    (hg : ∀ t ∈ h, ∀ k, g t.post k = if c t.label = some k then none else g t.pre k) (k : κ) :
    g s k = if ∃ t ∈ h, c t.label = some k then none else g s₀ k := by
  classical
  induction hr with
  | nil => simp
  | @snoc h s s' a hr st ih =>
    have hlast : g s' k = if c a = some k then none else g s k := hg _ List.mem_cons_self k
    have hold := ih fun t ht => hg t (List.mem_cons_of_mem _ ht)
    rw [hlast, hold]
    by_cases ha : c a = some k
    · rw [if_pos ha, if_pos ⟨_, List.mem_cons_self, ha⟩]
    · rw [if_neg ha]
      apply if_congr _ rfl rfl
      constructor
      · rintro ⟨t, ht, hk⟩
        exact ⟨t, List.mem_cons_of_mem _ ht, hk⟩
      · rintro ⟨t, ht, hk⟩
        rcases List.mem_cons.1 ht with rfl | ht
        · exact absurd hk ha
        · exact ⟨t, ht, hk⟩

end

end HedgeVault.Lib
