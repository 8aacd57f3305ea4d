import Mathlib.Data.List.Basic

/-!
# Runs of a labelled transition system

`Run step s₀ h s`: from `s₀` the system reaches `s`, and `h` lists the executed
steps, newest first. A `Transition` keeps the state before and the state after
beside the label, so a property of the past is a function of `h`.

`Run.inv` and `Run.frame` are the two induction rules: what every step keeps, a
run keeps. `Run.split` cuts a run at one of its steps, `Run.trans` joins two
runs, and `Run.sim` carries a run along a simulation. `runAll` executes a
partial function label by label; what it returns is a run (`run_runAll`), with
`history` its steps and `final` its last state.
-/

namespace HedgeVault.Lib

/-- One executed step. -/
structure Transition (σ α : Type*) where
  pre : σ
  label : α
  post : σ

inductive Run {σ α : Type*} (step : σ → α → σ → Prop) (s₀ : σ) :
    List (Transition σ α) → σ → Prop where
  | nil : Run step s₀ [] s₀
  | snoc {h : List (Transition σ α)} {s s' : σ} {a : α} : Run step s₀ h s → step s a s' →
      Run step s₀ (⟨s, a, s'⟩ :: h) s'

section

variable {σ α τ β : Type*} {step step' : σ → α → σ → Prop} {s₀ s s' : σ}
  {h h' : List (Transition σ α)}

/-- What holds initially and is kept by every step holds after every run. -/
theorem Run.inv {I : σ → Prop} (h0 : I s₀) (hs : ∀ s a s', I s → step s a s' → I s')
    (hr : Run step s₀ h s) : I s := by
  induction hr with
  | nil => exact h0
  | snoc _ st ih => exact hs _ _ _ ih st

/-- A quantity no executed step changes is unchanged by the run. -/
theorem Run.frame {γ : Type*} {f : σ → γ} (hr : Run step s₀ h s)
    (hf : ∀ t ∈ h, f t.post = f t.pre) : f s = f s₀ := by
  induction hr with
  | nil => rfl
  | snoc _ _ ih =>
    rw [hf _ List.mem_cons_self]
    exact ih fun t ht => hf t (List.mem_cons_of_mem _ ht)

/-- A quantity that only the steps with `p` change is what the last of them left. -/
theorem Run.last_write {γ : Type*} {f : σ → γ} {p : Transition σ α → Bool} (hr : Run step s₀ h s)
    (hf : ∀ t ∈ h, p t = false → f t.post = f t.pre) :
    f s = (h.find? p).elim (f s₀) fun t => f t.post := by
  induction hr with
  | nil => rfl
  | @snoc h s s' a hr st ih =>
    by_cases hp : p ⟨s, a, s'⟩ = true
    · rw [List.find?_cons_of_pos hp]; rfl
    · have hframe := hf _ List.mem_cons_self (Bool.eq_false_iff.2 hp)
      have hold := ih fun t ht => hf t (List.mem_cons_of_mem _ ht)
      rw [List.find?_cons_of_neg hp, ← hold]
      exact hframe

theorem Run.mono (hle : ∀ s a s', step s a s' → step' s a s') (hr : Run step s₀ h s) :
    Run step' s₀ h s := by
  induction hr with
  | nil => exact .nil
  | snoc _ st ih => exact ih.snoc (hle _ _ _ st)

theorem Run.trans (h1 : Run step s₀ h s) (h2 : Run step s h' s') : Run step s₀ (h' ++ h) s' := by
  induction h2 with
  | nil => exact h1
  | snoc _ st ih => exact ih.snoc st

/-- A run cut at one of its steps. -/
theorem Run.split {newer older : List (Transition σ α)} {t : Transition σ α}
    (hr : Run step s₀ (newer ++ t :: older) s) :
    Run step s₀ older t.pre ∧ step t.pre t.label t.post ∧ Run step t.post newer s := by
  induction newer generalizing s with
  | nil =>
    cases hr with
    | snoc hr st => exact ⟨hr, st, .nil⟩
  | cons u newer ih =>
    cases hr with
    | snoc hr st =>
      obtain ⟨h1, h2, h3⟩ := ih hr
      exact ⟨h1, h2, h3.snoc st⟩

theorem Run.step_of_mem {t : Transition σ α} (hr : Run step s₀ h s) (ht : t ∈ h) :
    step t.pre t.label t.post := by
  obtain ⟨newer, older, rfl⟩ := List.append_of_mem ht
  exact hr.split.2.1

/-- Forward simulation: along an invariant `I` of the source, every step is
matched by the step of its image. -/
theorem Run.sim {step₂ : τ → β → τ → Prop} {I : σ → Prop} (f : σ → τ) (g : σ → α → β)
    (h0 : I s₀) (hI : ∀ s a s', I s → step s a s' → I s')
    (hsim : ∀ s a s', I s → step s a s' → step₂ (f s) (g s a) (f s')) (hr : Run step s₀ h s) :
    Run step₂ (f s₀) (h.map fun t => ⟨f t.pre, g t.pre t.label, f t.post⟩) (f s) := by
  induction hr with
  | nil => exact .nil
  | snoc hr st ih => exact ih.snoc (hsim _ _ _ (hr.inv h0 hI) st)

/-- Forward simulation where the matching step is found from the executed one. -/
theorem Run.exists_sim {step₂ : τ → β → τ → Prop} {I : σ → Prop} (f : σ → τ)
    (h0 : I s₀) (hI : ∀ s a s', I s → step s a s' → I s')
    (hsim : ∀ s a s', I s → step s a s' → ∃ b, step₂ (f s) b (f s')) (hr : Run step s₀ h s) :
    ∃ h₂, Run step₂ (f s₀) h₂ (f s) := by
  induction hr with
  | nil => exact ⟨[], .nil⟩
  | snoc hr st ih =>
    obtain ⟨h₂, ih⟩ := ih
    obtain ⟨b, sb⟩ := hsim _ _ _ (hr.inv h0 hI) st
    exact ⟨_, ih.snoc sb⟩

/-- A run whose executed steps are all steps of another relation. -/
theorem Run.of_forall (hr : Run step s₀ h s) (hs : ∀ t ∈ h, step' t.pre t.label t.post) :
    Run step' s₀ h s := by
  induction hr with
  | nil => exact .nil
  | snoc _ _ ih =>
    exact (ih fun t ht => hs t (List.mem_cons_of_mem _ ht)).snoc (hs _ List.mem_cons_self)

end

/-! ## Executable runs -/

section

variable {σ α ε : Type*} {f : σ → α → Except ε σ}

/-- Execute the labels in order: the history, newest first, and the last state. -/
def runAll (f : σ → α → Except ε σ) (s : σ) (h : List (Transition σ α)) :
    List α → Except ε (List (Transition σ α) × σ)
  | [] => .ok (h, s)
  | a :: as =>
    match f s a with
    | .ok s' => runAll f s' (⟨s, a, s'⟩ :: h) as
    | .error e => .error e

theorem run_runAll_aux {s₀ s s' : σ} {h h' : List (Transition σ α)} {as : List α}
    (hr : Run (fun s a s' => f s a = .ok s') s₀ h s) (he : runAll f s h as = .ok (h', s')) :
    Run (fun s a s' => f s a = .ok s') s₀ h' s' := by
  induction as generalizing s h with
  | nil => cases he; exact hr
  | cons a as ih =>
    simp only [runAll] at he
    split at he
    · exact ih (hr.snoc ‹_›) he
    · cases he

/-- The history of the executed labels, empty when one of them fails. -/
def history (f : σ → α → Except ε σ) (s : σ) (as : List α) : List (Transition σ α) :=
  match runAll f s [] as with
  | .ok p => p.1
  | .error _ => []

/-- The state after the executed labels, the first state when one of them fails. -/
def final (f : σ → α → Except ε σ) (s : σ) (as : List α) : σ :=
  match runAll f s [] as with
  | .ok p => p.2
  | .error _ => s

theorem run_runAll {s s' : σ} {h : List (Transition σ α)} {as : List α}
    (he : runAll f s [] as = .ok (h, s')) : Run (fun s a s' => f s a = .ok s') s h s' :=
  run_runAll_aux .nil he

theorem runAll_snoc {s s' : σ} {h h' : List (Transition σ α)} {as : List α} {a : α}
    (he : runAll f s h (as ++ [a]) = .ok (h', s')) :
    ∃ h₁ s₁, runAll f s h as = .ok (h₁, s₁) ∧ h' = ⟨s₁, a, s'⟩ :: h₁ := by
  induction as generalizing s h with
  | nil =>
    simp only [List.nil_append, runAll] at he
    split at he
    · cases he; exact ⟨h, s, rfl, rfl⟩
    · cases he
  | cons b as ih =>
    simp only [List.cons_append, runAll] at he ⊢
    split at he
    · exact ih he
    · cases he

/-- The last executed step goes from the state before the last label to the final one. -/
theorem history_snoc {s : σ} {as : List α} {a : α} (he : (runAll f s [] (as ++ [a])).isOk = true) :
    history f s (as ++ [a]) = ⟨final f s as, a, final f s (as ++ [a])⟩ :: history f s as := by
  unfold history final
  cases h : runAll f s [] (as ++ [a]) with
  | error e => rw [h] at he; cases he
  | ok p =>
    obtain ⟨h₁, s₁, h1, hp⟩ := runAll_snoc h
    rw [h1]
    exact hp

theorem run_final {s : σ} {as : List α} (he : (runAll f s [] as).isOk = true) :
    Run (fun s a s' => f s a = .ok s') s (history f s as) (final f s as) := by
  unfold history final
  cases h : runAll f s [] as with
  | ok p => exact run_runAll h
  | error e => rw [h] at he; cases he

end

end HedgeVault.Lib
