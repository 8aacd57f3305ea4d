import HedgeVault.Lib.Run
import Mathlib.Data.List.Forall2

/-!
# Two runs in lockstep

Two runs that take the same common steps in the same order, each with silent steps of its
own in between. `Lockstep` says what has to be shown of single steps: the silent ones keep
the relation of the two states on either side, and a common one keeps it when both runs
take it. Then the runs stay related, and their common steps match pairwise
(`Lockstep.run`).
-/

namespace HedgeVault.Lib

variable {σ τ α : Type*}

/-- The steps of a history with a common label. -/
def commonSteps (common : α → Bool) (h : List (Transition σ α)) : List (Transition σ α) :=
  h.filter fun t => common t.label

/-- The common labels of a history. -/
def commonLabels (common : α → Bool) (h : List (Transition σ α)) : List α :=
  (commonSteps common h).map fun t => t.label

structure Lockstep (step₁ : σ → α → σ → Prop) (step₂ : τ → α → τ → Prop) (common : α → Bool)
    (R : σ → τ → Prop) (G : Transition σ α → Transition τ α → Prop) : Prop where
  silent₁ : ∀ s t a s', R s t → common a = false → step₁ s a s' → R s' t
  silent₂ : ∀ s t a t', R s t → common a = false → step₂ t a t' → R s t'
  both : ∀ s t a s' t', R s t → common a = true → step₁ s a s' → step₂ t a t' →
    R s' t' ∧ G ⟨s, a, s'⟩ ⟨t, a, t'⟩

section

variable {step₁ : σ → α → σ → Prop} {step₂ : τ → α → τ → Prop} {common : α → Bool}
  {R : σ → τ → Prop} {G : Transition σ α → Transition τ α → Prop}
  {h : List (Transition σ α)} {h₂ : List (Transition τ α)} {s₀ s s' : σ} {t₀ t : τ} {a : α}

theorem commonSteps_cons_of_pos {u : Transition σ α} (hu : common u.label = true) :
    commonSteps common (u :: h) = u :: commonSteps common h :=
  List.filter_cons_of_pos hu

theorem commonSteps_cons_of_neg {u : Transition σ α} (hu : common u.label = false) :
    commonSteps common (u :: h) = commonSteps common h :=
  List.filter_cons_of_neg (Bool.eq_false_iff.1 hu)

/-- The second run has no common step left: all its steps are silent. -/
theorem Lockstep.run_silent (L : Lockstep step₁ step₂ common R G) (h0 : R s t₀)
    (hr : Run step₂ t₀ h₂ t) (hnone : commonLabels common h₂ = []) :
    R s t ∧ commonSteps common h₂ = [] := by
  have hnil : commonSteps common h₂ = [] := List.map_eq_nil_iff.1 hnone
  refine ⟨?_, hnil⟩
  induction hr with
  | nil => exact h0
  | @snoc h t t' a _ st ih =>
    have ha : common a = false := by
      cases ha : common a with
      | false => rfl
      | true =>
        rw [commonSteps_cons_of_pos (u := ⟨t, a, t'⟩) ha] at hnil
        cases hnil
    rw [commonSteps_cons_of_neg (u := ⟨t, a, t'⟩) ha] at hnil
    exact L.silent₂ _ _ _ _ (ih (List.map_eq_nil_iff.2 hnil) hnil) ha st

theorem Lockstep.run (L : Lockstep step₁ step₂ common R G) (h0 : R s₀ t₀)
    (hr₁ : Run step₁ s₀ h s) (hr₂ : Run step₂ t₀ h₂ t)
    (hsame : commonLabels common h = commonLabels common h₂) :
    R s t ∧ List.Forall₂ G (commonSteps common h) (commonSteps common h₂) := by
  induction hr₁ generalizing h₂ t with
  | nil =>
    obtain ⟨hR, hnil⟩ := L.run_silent h0 hr₂ hsame.symm
    exact ⟨hR, hnil ▸ .nil⟩
  | @snoc h s s' a hr₁ st ih =>
    unfold commonLabels at hsame ih
    cases ha : common a with
    | false =>
      rw [commonSteps_cons_of_neg (u := ⟨s, a, s'⟩) ha] at hsame ⊢
      obtain ⟨hR, hall⟩ := ih hr₂ hsame
      exact ⟨L.silent₁ _ _ _ _ hR ha st, hall⟩
    | true =>
      rw [commonSteps_cons_of_pos (u := ⟨s, a, s'⟩) ha] at hsame ⊢
      -- the second run took the same step, with silent ones after it
      induction hr₂ with
      | nil => cases hsame
      | @snoc h₂ t t' b hr₂ st₂ ih₂ =>
        cases hb : common b with
        | false =>
          rw [commonSteps_cons_of_neg (u := ⟨t, b, t'⟩) hb] at hsame ⊢
          obtain ⟨hR, hall⟩ := ih₂ hsame
          exact ⟨L.silent₂ _ _ _ _ hR hb st₂, hall⟩
        | true =>
          rw [commonSteps_cons_of_pos (u := ⟨t, b, t'⟩) hb] at hsame ⊢
          obtain ⟨hab, htail⟩ := List.cons.inj hsame
          obtain rfl : a = b := hab
          obtain ⟨hR, hall⟩ := ih hr₂ htail
          obtain ⟨hR', hG⟩ := L.both _ _ _ _ _ hR ha st st₂
          exact ⟨hR', .cons hG hall⟩

end

end HedgeVault.Lib
