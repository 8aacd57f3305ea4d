import HedgeVault.Lib.Run
import Mathlib.Logic.Function.Basic
import Mathlib.Tactic.Cases

/-!
# Escrow books

An escrow holds what owners put in until an owner's stake leaves, as a whole,
by a refund or by a settlement. A `Book` keeps the pending counter, the sum over
the open claims, the escrow's balance and what each owner is owed; `Book.Step`
says how a `Move` changes it. A `gift` is a transfer into the escrow that no
claim records.

`Balanced ms b` relates a book to the moves `ms` that led to it, newest first:
the counter is the sum of the claims, the balance is the counter plus the gifts,
and an owner is owed the `stake` put in since the last time it was taken. The
run lemma is `Book.run_balanced`. `putIn_eq` accounts for every unit: it was
refunded, settled, or is still staked.
-/

namespace HedgeVault.Lib

open Function

/-- How a stake leaves the escrow. -/
inductive Exit where
  | refund
  | settle
  deriving DecidableEq, Repr

inductive Move (κ : Type*) where
  | put (k : κ) (n : Nat)
  | take (k : κ) (x : Exit)
  | gift (n : Nat)
  | idle

@[ext]
structure Book (κ : Type*) where
  /-- The counter of what is pending. -/
  pending : Nat
  /-- The sum over the open claims. -/
  claimed : Nat
  /-- The balance of the escrow. -/
  held : Nat
  owed : κ → Nat

section

variable {κ : Type*} [DecidableEq κ]

/-- A move takes the book `b` to `b'`. -/
def Book.Step (b : Book κ) : Move κ → Book κ → Prop
  | .put k n, b' => b'.pending = b.pending + n ∧ b'.claimed = b.claimed + n ∧
      b'.held = b.held + n ∧ b'.owed = update b.owed k (b.owed k + n)
  | .take k _, b' => b'.pending + b.owed k = b.pending ∧ b'.claimed + b.owed k = b.claimed ∧
      b'.held + b.owed k = b.held ∧ b'.owed = update b.owed k 0
  | .gift n, b' => b'.pending = b.pending ∧ b'.claimed = b.claimed ∧ b'.held = b.held + n ∧
      b'.owed = b.owed
  | .idle, b' => b' = b

/-! ## What the moves say, newest first -/

/-- What `k` put in since its stake was last taken. -/
def stake (k : κ) : List (Move κ) → Nat
  | [] => 0
  | .put l n :: ms => if l = k then n + stake k ms else stake k ms
  | .take l _ :: ms => if l = k then 0 else stake k ms
  | .gift _ :: ms => stake k ms
  | .idle :: ms => stake k ms

/-- Everything `k` ever put in. -/
def putIn (k : κ) : List (Move κ) → Nat
  | [] => 0
  | .put l n :: ms => if l = k then n + putIn k ms else putIn k ms
  | _ :: ms => putIn k ms

/-- What left the escrow for `k` by `x`: a taken stake leaves as a whole. -/
def takenOut (k : κ) (x : Exit) : List (Move κ) → Nat
  | [] => 0
  | .take l y :: ms => if l = k ∧ y = x then stake k ms + takenOut k x ms else takenOut k x ms
  | _ :: ms => takenOut k x ms

def gifts : List (Move κ) → Nat
  | [] => 0
  | .gift n :: ms => n + gifts ms
  | _ :: ms => gifts ms

/-- Every unit put in leaves once, by a refund or by a settlement, or is still staked. -/
theorem putIn_eq (k : κ) (ms : List (Move κ)) :
    putIn k ms = takenOut k .refund ms + takenOut k .settle ms + stake k ms := by
  induction ms with
  | nil => rfl
  | cons m ms ih =>
    cases m with
    | put l n =>
      simp only [putIn, takenOut, stake]
      split <;> omega
    | take l x =>
      by_cases hl : l = k
      · cases x <;> simp only [putIn, takenOut, stake, hl, ih, true_and, if_true, reduceCtorEq,
          if_false] <;> omega
      · simp only [putIn, takenOut, stake, hl, ih, false_and, if_false]
    | gift n => exact ih
    | idle => exact ih

/-- The book `b` is what the moves `ms` lead to from the empty book. -/
structure Balanced (ms : List (Move κ)) (b : Book κ) : Prop where
  pending_eq : b.pending = b.claimed
  held_eq : b.held = b.pending + gifts ms
  owed_eq : ∀ k, b.owed k = stake k ms

theorem balanced_nil : Balanced [] (⟨0, 0, 0, fun _ => 0⟩ : Book κ) :=
  ⟨rfl, rfl, fun _ => rfl⟩

theorem Balanced.step {ms : List (Move κ)} {b b' : Book κ} {m : Move κ} (h : Balanced ms b)
    (st : b.Step m b') : Balanced (m :: ms) b' := by
  have hp := h.pending_eq
  have hh := h.held_eq
  cases m with
  | put k n =>
    obtain ⟨h1, h2, h3, h4⟩ := st
    refine ⟨by omega, by simp only [gifts]; omega, ?_⟩
    intro l
    rw [h4, stake, update_apply]
    by_cases hl : l = k
    · subst hl; simp only [if_true, h.owed_eq]; omega
    · rw [if_neg hl, if_neg (Ne.symm hl), h.owed_eq]
  | take k x =>
    obtain ⟨h1, h2, h3, h4⟩ := st
    refine ⟨by omega, by simp only [gifts]; omega, ?_⟩
    intro l
    rw [h4, stake, update_apply]
    by_cases hl : l = k
    · subst hl; simp only [if_true]
    · rw [if_neg hl, if_neg (Ne.symm hl), h.owed_eq]
  | gift n =>
    obtain ⟨h1, h2, h3, h4⟩ := st
    exact ⟨by omega, by simp only [gifts]; omega, fun l => by rw [h4, h.owed_eq]; rfl⟩
  | idle =>
    cases st
    exact ⟨hp, hh, h.owed_eq⟩

theorem Book.run_balanced {b : Book κ} {h : List (Transition (Book κ) (Move κ))}
    (hr : Run Book.Step ⟨0, 0, 0, fun _ => 0⟩ h b) : Balanced (h.map (·.label)) b := by
  induction hr with
  | nil => exact balanced_nil
  | snoc _ st ih => exact ih.step st

end

end HedgeVault.Lib
