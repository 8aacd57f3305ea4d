import HedgeVault.Lib.Run
import Mathlib.Order.Basic

/-!
# Delayed parameters

A `Timelock` is a parameter with a delay on its raises: the live value, and perhaps a
pending one with the time from which it may go live. A request that is no raise goes live
at once and drops the pending value; another becomes the pending value, for `delay` after
the request. A tick makes the pending value live once its time has come.

So only a tick raises the live value, to the pending one (`Timelock.Step.raise`), and what
is pending was requested last, `delay` before its time (`Timelock.run_pending`).
-/

namespace HedgeVault.Lib

structure Timelock (α : Type*) where
  live : α
  pending : Option (α × Int)

inductive TimelockMove (α : Type*) where
  | ask (x : α) (now : Int)
  | tick (now : Int)
  | idle

namespace Timelock

variable {α : Type*}

inductive Step [LE α] (delay : Int) (t : Timelock α) : TimelockMove α → Timelock α → Prop where
  | lower {x now} (h : x ≤ t.live) : Step delay t (.ask x now) ⟨x, none⟩
  | schedule {x now} (h : ¬ x ≤ t.live) :
    Step delay t (.ask x now) ⟨t.live, some (x, now + delay)⟩
  | release {x eta now} (h : t.pending = some (x, eta)) (due : eta ≤ now) :
    Step delay t (.tick now) ⟨x, none⟩
  | wait {now} (h : ∀ x eta, t.pending = some (x, eta) → now < eta) : Step delay t (.tick now) t
  | idle : Step delay t .idle t

/-- The time of the last request of a history. -/
def lastAsk : List (Transition (Timelock α) (TimelockMove α)) → Option Int
  | [] => none
  | t :: h =>
    match t.label with
    | .ask _ now => some now
    | .tick _ => lastAsk h
    | .idle => lastAsk h

variable [Preorder α] {delay : Int} {t t' t₀ : Timelock α} {m : TimelockMove α}
  {h : List (Transition (Timelock α) (TimelockMove α))}

/-- Only a tick raises, to the pending value, when its time has come. -/
theorem Step.raise (st : Step delay t m t') (hraise : ¬ t'.live ≤ t.live) :
    ∃ now eta, m = .tick now ∧ t.pending = some (t'.live, eta) ∧ eta ≤ now := by
  cases st with
  | lower h => exact absurd h hraise
  | schedule => exact absurd le_rfl hraise
  | @release x eta now h due => exact ⟨now, eta, rfl, h, due⟩
  | wait => exact absurd le_rfl hraise
  | idle => exact absurd le_rfl hraise

/-- What is pending was requested last, `delay` before its time. -/
theorem run_pending (h0 : t₀.pending = none) (hr : Run (Step delay) t₀ h t) {x : α} {eta : Int}
    (hp : t.pending = some (x, eta)) : ∃ s, lastAsk h = some s ∧ s + delay = eta := by
  induction hr with
  | nil =>
    rw [h0] at hp
    cases hp
  | @snoc h t t' m hr st ih =>
    cases st with
    | lower => cases hp
    | @schedule x now _ =>
      cases hp
      exact ⟨now, rfl, rfl⟩
    | release => cases hp
    | wait => exact ih hp
    | idle => exact ih hp

end Timelock

end HedgeVault.Lib
