import HedgeVault.Lib.Run
import Mathlib.Algebra.BigOperators.Group.List.Basic

/-!
# Journals

A step may write entries to a log that nobody changes afterwards; `emit` gives those of a
step and `journal emit h` is the log of a run, oldest entry first.

A reader of a log keeps a view of its own, checks every entry against it (`admits`) and
then brings it up to date (`apply`). `Accepts` says that all entries pass and where the view
ends; `Run.accepts` is the rule that a reader who follows every step follows the run. What
else holds of an accepted log is a matter of the reader alone: its view is the replay of the
entries (`Accepts.foldl_eq`), each was checked against the replay of those before it
(`Accepts.admitted`), and sums that every entry balances are balanced (`Accepts.settled`).
-/

namespace HedgeVault.Lib

section

variable {σ α ε μ M γ : Type*} {step : σ → α → σ → Prop} {s₀ s : σ}
  {emit : Transition σ α → List ε} {h : List (Transition σ α)}
  {admits : μ → ε → Prop} {apply : μ → ε → μ} {m m' m'' : μ} {e : ε} {es fs : List ε}

def journal (emit : Transition σ α → List ε) : List (Transition σ α) → List ε
  | [] => []
  | t :: h => journal emit h ++ emit t

theorem journal_cons (t : Transition σ α) (h : List (Transition σ α)) :
    journal emit (t :: h) = journal emit h ++ emit t := rfl

theorem sum_journal [AddCommMonoid M] (emit : Transition σ α → List ε) (c : ε → M)
    (h : List (Transition σ α)) :
    ((journal emit h).map c).sum = (h.map fun t => ((emit t).map c).sum).sum := by
  induction h with
  | nil => rfl
  | cons t h ih =>
    rw [journal_cons, List.map_append, List.sum_append, ih, List.map_cons, List.sum_cons, add_comm]

/-! ## Accepted logs -/

inductive Accepts (admits : μ → ε → Prop) (apply : μ → ε → μ) : μ → List ε → μ → Prop where
  | nil (m : μ) : Accepts admits apply m [] m
  | cons {m m' : μ} {e : ε} {es : List ε} : admits m e → Accepts admits apply (apply m e) es m' →
      Accepts admits apply m (e :: es) m'

theorem Accepts.single (ha : admits m e) (he : apply m e = m') : Accepts admits apply m [e] m' :=
  .cons ha (he ▸ .nil _)

theorem Accepts.append (h1 : Accepts admits apply m es m') (h2 : Accepts admits apply m' fs m'') :
    Accepts admits apply m (es ++ fs) m'' := by
  induction h1 with
  | nil => exact h2
  | cons ha _ ih => exact .cons ha (ih h2)

/-- The view at the end is the replay of the log. -/
theorem Accepts.foldl_eq (ha : Accepts admits apply m es m') : es.foldl apply m = m' := by
  induction ha with
  | nil => rfl
  | cons _ _ ih => exact ih

theorem Accepts.split (ha : Accepts admits apply m (es ++ fs) m'') :
    Accepts admits apply m es (es.foldl apply m) ∧
      Accepts admits apply (es.foldl apply m) fs m'' := by
  induction es generalizing m with
  | nil => exact ⟨.nil m, ha⟩
  | cons e es ih =>
    cases ha with
    | cons he ha =>
      obtain ⟨h1, h2⟩ := ih ha
      exact ⟨.cons he h1, h2⟩

/-- An entry was checked against the replay of all entries before it. -/
theorem Accepts.admitted (ha : Accepts admits apply m (es ++ e :: fs) m'') :
    admits (es.foldl apply m) e := by
  cases ha.split.2 with
  | cons he _ => exact he

/-- When every entry of an accepted log balances a measure, the log does. -/
theorem Accepts.settled [AddCommMonoid M] {f : μ → M} {c d : ε → M}
    (ha : Accepts admits apply m es m')
    (hs : ∀ m, ∀ e ∈ es, admits m e → f (apply m e) + d e = f m + c e) :
    f m' + (es.map d).sum = f m + (es.map c).sum := by
  induction ha with
  | nil => rfl
  | @cons m m' e es he _ ih =>
    have hfirst := hs m e List.mem_cons_self he
    have hrest := ih fun m x hx => hs m x (List.mem_cons_of_mem _ hx)
    rw [List.map_cons, List.map_cons, List.sum_cons, List.sum_cons]
    calc f m' + (d e + (es.map d).sum)
        = d e + (f m' + (es.map d).sum) := add_left_comm _ _ _
      _ = d e + (f (apply m e) + (es.map c).sum) := by rw [hrest]
      _ = f (apply m e) + d e + (es.map c).sum := by rw [add_left_comm, add_assoc]
      _ = f m + c e + (es.map c).sum := by rw [hfirst]
      _ = f m + (c e + (es.map c).sum) := add_assoc _ _ _

/-- When every step balances a measure, the run does. -/
theorem Run.settled [AddCommMonoid M] {f : σ → M} {c d : Transition σ α → M}
    (hr : Run step s₀ h s) (hs : ∀ h s a s', Run step s₀ h s → step s a s' →
      f s' + d ⟨s, a, s'⟩ = f s + c ⟨s, a, s'⟩) :
    f s + (h.map d).sum = f s₀ + (h.map c).sum := by
  induction hr with
  | nil => rfl
  | @snoc h s s' a hr st ih =>
    rw [List.map_cons, List.map_cons, List.sum_cons, List.sum_cons]
    calc f s' + (d ⟨s, a, s'⟩ + (h.map d).sum)
        = f s + c ⟨s, a, s'⟩ + (h.map d).sum := by rw [← add_assoc, hs _ _ _ _ hr st]
      _ = c ⟨s, a, s'⟩ + (f s + (h.map d).sum) := by rw [add_comm (f s), add_assoc]
      _ = f s₀ + (c ⟨s, a, s'⟩ + (h.map c).sum) := by rw [ih, add_left_comm]

/-- A reader who follows every step follows the run. -/
theorem Run.accepts {view : σ → μ} (hr : Run step s₀ h s)
    (hs : ∀ h s a s', Run step s₀ h s → step s a s' →
      Accepts admits apply (view s) (emit ⟨s, a, s'⟩) (view s')) :
    Accepts admits apply (view s₀) (journal emit h) (view s) := by
  induction hr with
  | nil => exact .nil _
  | snoc hr st ih => exact ih.append (hs _ _ _ _ hr st)

/-- What entries without `p` do not write, a log without any leaves. -/
theorem foldl_frame {f : μ → γ} {p : ε → Bool}
    (hf : ∀ m e, p e = false → f (apply m e) = f m) (hes : ∀ e ∈ es, p e = false) :
    f (es.foldl apply m) = f m := by
  induction es generalizing m with
  | nil => rfl
  | cons e es ih =>
    rw [List.foldl_cons, ih fun x hx => hes x (List.mem_cons_of_mem _ hx),
      hf m e (hes e List.mem_cons_self)]

end

end HedgeVault.Lib
