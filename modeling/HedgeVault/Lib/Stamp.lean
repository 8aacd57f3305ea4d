import HedgeVault.Lib.Escrow

/-!
# Stamped claims

An owner's claim in an escrow carries a stamp, given when the claim is opened; more
may only be put in under the same stamp. `StampStep` is that rule for one `Move`.
`contributions` lists the steps that put something into the claim that is open now:
those since it was last taken. Along a run they all carry the stamp of the open claim
(`contributions_stamped`), and a closed claim has none.
-/

namespace HedgeVault.Lib

open Function

section

variable {σ α κ τ : Type*} [DecidableEq κ]

/-- A move at stamp `x` takes the stamps `s` of the open claims to `s'`. -/
def StampStep (s : κ → Option τ) (x : τ) : Move κ → (κ → Option τ) → Prop
  | .put k _, s' => (∀ y, s k = some y → y = x) ∧ s' = update s k (some x)
  | .take k _, s' => s' = update s k none
  | _, s' => s' = s

/-- The steps that put something into the open claim of `k`, newest first. -/
def contributions (move : α → Move κ) (k : κ) : List (Transition σ α) → List (Transition σ α)
  | [] => []
  | t :: h =>
    match move t.label with
    | .put l _ => if l = k then t :: contributions move k h else contributions move k h
    | .take l _ => if l = k then [] else contributions move k h
    | _ => contributions move k h

/-- What a stamp says about the steps behind it. -/
def Stamped (time : α → τ) (s : Option τ) (cs : List (Transition σ α)) : Prop :=
  (s = none → cs = []) ∧ ∀ x, s = some x → cs ≠ [] ∧ ∀ c ∈ cs, time c.label = x

variable {step : σ → α → σ → Prop} {s₀ s : σ} {h : List (Transition σ α)}
  {move : α → Move κ} {time : α → τ} {stamp : σ → κ → Option τ}

theorem contributions_subset (k : κ) : contributions move k h ⊆ h := by
  induction h with
  | nil => exact List.nil_subset _
  | cons t h ih =>
    have hcons : contributions move k h ⊆ t :: h := fun c hc => List.mem_cons_of_mem _ (ih hc)
    unfold contributions
    split
    · split
      · exact List.cons_subset_cons _ ih
      · exact hcons
    · split
      · exact List.nil_subset _
      · exact hcons
    · exact hcons

/-- One step keeps every stamp in accord with the steps behind it. -/
theorem StampStep.stamped {s s' : κ → Option τ} {t : Transition σ α}
    (st : StampStep s (time t.label) (move t.label) s') {k : κ}
    (hk : Stamped time (s k) (contributions move k h)) :
    Stamped time (s' k) (contributions move k (t :: h)) := by
  unfold contributions
  cases hm : move t.label with
  | put l n =>
    rw [hm] at st
    obtain ⟨hsame, rfl⟩ := st
    by_cases hl : l = k
    · subst hl
      simp only [update_self, if_true]
      refine ⟨nofun, fun x hx => ⟨List.cons_ne_nil _ _, fun c hc => ?_⟩⟩
      cases hx
      rcases List.mem_cons.1 hc with rfl | hc
      · rfl
      · -- an older contribution means the claim was open, under the same stamp
        cases hs : s l with
        | none => rw [hk.1 hs] at hc; cases hc
        | some y => rw [(hk.2 y hs).2 c hc, hsame y hs]
    · simp only [if_neg hl, update_of_ne (Ne.symm hl)]
      exact hk
  | take l x =>
    rw [hm] at st
    cases st
    by_cases hl : l = k
    · subst hl
      simp only [update_self, if_true]
      exact ⟨fun _ => rfl, nofun⟩
    · simp only [if_neg hl, update_of_ne (Ne.symm hl)]
      exact hk
  | gift n =>
    rw [hm] at st
    cases st
    exact hk
  | idle =>
    rw [hm] at st
    cases st
    exact hk

/-- A claim open after a move under another stamp than the move's was open before it. -/
theorem StampStep.before {s s' : κ → Option τ} {x y : τ} {m : Move κ} {k : κ}
    (st : StampStep s y m s') (hk : s' k = some x) (hxy : x ≠ y) : s k = some x := by
  cases m with
  | put l n =>
    obtain ⟨_, rfl⟩ := st
    rw [update_apply] at hk
    split at hk
    · exact absurd (Option.some.inj hk).symm hxy
    · exact hk
  | take l z =>
    cases st
    rw [update_apply] at hk
    split at hk
    · cases hk
    · exact hk
  | gift n =>
    cases st
    exact hk
  | idle =>
    cases st
    exact hk

theorem Run.contributions_stamped (hr : Run step s₀ h s) (h0 : ∀ k, stamp s₀ k = none)
    (hstep : ∀ t ∈ h, StampStep (stamp t.pre) (time t.label) (move t.label) (stamp t.post))
    (k : κ) : Stamped time (stamp s k) (contributions move k h) := by
  induction hr with
  | nil =>
    rw [h0 k]
    exact ⟨fun _ => rfl, nofun⟩
  | snoc hr st ih =>
    exact (hstep _ List.mem_cons_self).stamped (ih fun t ht => hstep t (List.mem_cons_of_mem _ ht))

end

end HedgeVault.Lib
