import HedgeVault.Lib.Run

/-!
# Bookings under a cap

What is held and what is booked to be held together count against a cap, checked when a
booking is made and at no other time. Settling moves a booking into what is held, so over
any run the sum stays under the cap or, where it started above it, does not grow
(`run_committed_le`). A booking that is open under the cap can be settled without passing
it (`settled_le`).
-/

namespace HedgeVault.Lib

structure Booking where
  held : Nat
  booked : Nat

inductive BookMove where
  | book (n : Nat)
  | unbook (n : Nat)
  | settle (n : Nat)
  | pay (n : Nat)
  | keep

namespace Booking

def committed (b : Booking) : Nat := b.held + b.booked

/-- One move; `b'` is what it left. -/
def Step (cap : Nat) (b : Booking) : BookMove → Booking → Prop
  | .book n, b' => b'.booked = b.booked + n ∧ b'.held = b.held ∧ b'.committed ≤ cap
  | .unbook n, b' => b'.booked + n = b.booked ∧ b'.held = b.held
  | .settle n, b' => b'.booked + n = b.booked ∧ b'.held = b.held + n
  | .pay n, b' => b'.booked = b.booked ∧ b'.held + n = b.held
  | .keep, b' => b' = b

variable {cap : Nat} {b b' b₀ : Booking} {m : BookMove} {h : List (Transition Booking BookMove)}

theorem Step.committed_le (st : b.Step cap m b') : b'.committed ≤ max cap b.committed := by
  unfold committed
  cases m with
  | book n =>
    obtain ⟨_, _, hcap⟩ := st
    unfold committed at hcap
    omega
  | unbook n =>
    obtain ⟨hbooked, hheld⟩ := st
    omega
  | settle n =>
    obtain ⟨hbooked, hheld⟩ := st
    omega
  | pay n =>
    obtain ⟨hbooked, hheld⟩ := st
    omega
  | keep =>
    rw [st]
    omega

theorem run_committed_le (hr : Run (Step cap) b₀ h b) :
    b.committed ≤ max cap b₀.committed := by
  refine hr.inv (I := fun b => b.committed ≤ max cap b₀.committed) (by omega) ?_
  intro b m b' hb st
  have := st.committed_le
  omega

/-- An open booking fits under the cap together with what is held. -/
theorem settled_le {n : Nat} (hcap : b.committed ≤ cap) (hn : n ≤ b.booked) :
    b.held + n ≤ cap := by
  unfold committed at hcap
  omega

end Booking

end HedgeVault.Lib
