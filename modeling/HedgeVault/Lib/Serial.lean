import HedgeVault.Lib.Run
import Mathlib.Data.List.Pairwise

/-!
# Serial numbers

A counter that a step either leaves alone or hands out and increments. The numbers handed
out along a run are strictly increasing (`Run.issued_pairwise`, newest first) and stay below
the counter, so none is handed out twice (`Run.issued_nodup`).
-/

namespace HedgeVault.Lib

variable {σ α : Type*} {step : σ → α → σ → Prop} {s₀ s : σ} {h : List (Transition σ α)}
  {next : σ → Nat} {issued : Transition σ α → Option Nat}

/-- The step hands out the counter and increments it, or leaves it alone. -/
def Serial (next : σ → Nat) (issued : Transition σ α → Option Nat) (t : Transition σ α) : Prop :=
  match issued t with
  | some n => n = next t.pre ∧ next t.post = n + 1
  | none => next t.post = next t.pre

theorem Run.issued_lt (hr : Run step s₀ h s) (hs : ∀ t ∈ h, Serial next issued t) :
    ∀ n ∈ h.filterMap issued, n < next s := by
  induction hr with
  | nil => exact fun n hn => nomatch hn
  | @snoc h s s' a hr _ ih =>
    have hold := ih fun t ht => hs t (List.mem_cons_of_mem _ ht)
    have hlast := hs _ List.mem_cons_self
    unfold Serial at hlast
    intro n hn
    rw [List.filterMap_cons] at hn
    split at hn
    · next hnone =>
      rw [hnone] at hlast
      have hnext : next s' = next s := hlast
      rw [hnext]
      exact hold n hn
    · next m hsome =>
      rw [hsome] at hlast
      obtain ⟨hm, hnext⟩ := hlast
      have hm' : m = next s := hm
      have hnext' : next s' = m + 1 := hnext
      rcases List.mem_cons.1 hn with rfl | hn
      · omega
      · have := hold n hn
        omega

theorem Run.next_le (hr : Run step s₀ h s) (hs : ∀ t ∈ h, Serial next issued t) :
    next s₀ ≤ next s := by
  induction hr with
  | nil => exact Nat.le_refl _
  | @snoc h s s' a hr _ ih =>
    have hold := ih fun t ht => hs t (List.mem_cons_of_mem _ ht)
    have hlast := hs _ List.mem_cons_self
    unfold Serial at hlast
    split at hlast
    · obtain ⟨hm, hnext⟩ := hlast
      have hm' : _ = next s := hm
      have hnext' : next s' = _ + 1 := hnext
      omega
    · have hnext : next s' = next s := hlast
      omega

/-- A number handed out was not yet used before the run. -/
theorem Run.le_issued (hr : Run step s₀ h s) (hs : ∀ t ∈ h, Serial next issued t) :
    ∀ n ∈ h.filterMap issued, next s₀ ≤ n := by
  intro n hn
  obtain ⟨t, ht, hissued⟩ := List.mem_filterMap.1 hn
  obtain ⟨newer, older, rfl⟩ := List.append_of_mem ht
  obtain ⟨hpre, _, _⟩ := hr.split
  have hle := hpre.next_le fun u hu => hs u (List.mem_append_right _ (List.mem_cons_of_mem _ hu))
  have hlast := hs t ht
  unfold Serial at hlast
  rw [hissued] at hlast
  rw [hlast.1]
  exact hle

theorem Run.issued_pairwise (hr : Run step s₀ h s) (hs : ∀ t ∈ h, Serial next issued t) :
    (h.filterMap issued).Pairwise (· > ·) := by
  induction hr with
  | nil => exact .nil
  | @snoc h s s' a hr _ ih =>
    have hold := fun t ht => hs t (List.mem_cons_of_mem _ ht)
    have hlast := hs _ List.mem_cons_self
    unfold Serial at hlast
    rw [List.filterMap_cons]
    split
    · exact ih hold
    · next n hsome =>
      rw [hsome] at hlast
      refine .cons ?_ (ih hold)
      intro m hm
      have hlt := hr.issued_lt hold m hm
      have hn : n = next s := hlast.1
      omega

/-- No number is handed out twice. -/
theorem Run.issued_nodup (hr : Run step s₀ h s) (hs : ∀ t ∈ h, Serial next issued t) :
    (h.filterMap issued).Nodup :=
  (hr.issued_pairwise hs).imp fun hgt => Nat.ne_of_gt hgt

end HedgeVault.Lib
