import Mathlib.Algebra.Ring.Int.Defs
import Mathlib.Algebra.BigOperators.Group.Finset.Piecewise
import Mathlib.Algebra.Order.BigOperators.Group.Finset

/-!
# Fungible tokens

A `Mint cap κ` is one token: its `supply`, at most `cap`, and the amount every
account `k : κ` holds. The field `backed` says that no finite set of accounts
holds more than the supply, so it can only be built with its books in order:
`mintTo`, `burn` and `transfer` return a `Mint` again or the error of the token
program.

`mintTo_ok`, `burn_ok` and `transfer_ok` say what an accepted operation did; `Moved` is
what it added, which depends on the operation alone.
-/

namespace HedgeVault.Lib

open Function Finset

inductive TokenError where
  | insufficientFunds
  | overflow
  | ownerMismatch
  | nonNativeHasBalance
  deriving DecidableEq, Repr

@[ext]
structure Mint (cap : Nat) (κ : Type*) where
  supply : Nat
  amount : κ → Nat
  supply_le : supply ≤ cap
  backed : ∀ F : Finset κ, ∑ k ∈ F, amount k ≤ supply

section

variable {κ : Type*} [DecidableEq κ]

theorem sum_credit (f : κ → Nat) (k : κ) (n : Nat) (F : Finset κ) :
    ∑ x ∈ F, update f k (f k + n) x ≤ ∑ x ∈ F, f x + n := by
  by_cases hk : k ∈ F
  · rw [sum_update_of_mem hk, ← add_sum_erase F f hk, sdiff_singleton_eq_erase]
    omega
  · rw [sum_update_of_notMem hk]
    omega

theorem sum_debit {f : κ → Nat} {k : κ} {n : Nat} (hn : n ≤ f k) (F : Finset κ) :
    ∑ x ∈ F, update f k (f k - n) x + n ≤ ∑ x ∈ insert k F, f x := by
  have hk : k ∈ insert k F := mem_insert_self k F
  calc ∑ x ∈ F, update f k (f k - n) x + n
      ≤ ∑ x ∈ insert k F, update f k (f k - n) x + n := by
        exact Nat.add_le_add_right (sum_le_sum_of_subset (subset_insert k F)) n
    _ = ∑ x ∈ insert k F, f x := by
        rw [sum_update_of_mem hk, ← add_sum_erase _ f hk, sdiff_singleton_eq_erase]
        omega

end

namespace Mint

variable {cap : Nat} {κ : Type*}

theorem amount_le (m : Mint cap κ) (k : κ) : m.amount k ≤ m.supply := by
  simpa using m.backed {k}

/-- A token nobody holds. -/
def empty : Mint cap κ where
  supply := 0
  amount _ := 0
  supply_le := Nat.zero_le _
  backed _ := by simp

/-- From `m` to `m'` the supply grows by `d` and the accounts by `f`. -/
structure Moved (m m' : Mint cap κ) (d : Int) (f : κ → Int) : Prop where
  supply : (m'.supply : Int) = m.supply + d
  amount : ∀ k, (m'.amount k : Int) = m.amount k + f k

theorem Moved.refl (m : Mint cap κ) : Moved m m 0 0 := ⟨by simp, by simp⟩

/-- Only an empty account is closed. -/
def closeAccount (m : Mint cap κ) (k : κ) : Except TokenError Unit :=
  if m.amount k = 0 then .ok () else .error .nonNativeHasBalance

theorem closeAccount_eq_ok {m : Mint cap κ} {k : κ} {u : Unit} :
    m.closeAccount k = .ok u ↔ m.amount k = 0 := by
  unfold closeAccount; split <;> simp_all

variable [DecidableEq κ]

/-- A token whose whole supply one account holds. -/
def heldBy (k : κ) (n : Nat) (h : n ≤ cap) : Mint cap κ where
  supply := n
  amount := update (fun _ => 0) k n
  supply_le := h
  backed F := by simpa using sum_credit (fun _ : κ => 0) k n F

def mintTo (m : Mint cap κ) (k : κ) (n : Nat) : Except TokenError (Mint cap κ) :=
  if h : m.supply + n ≤ cap then
    .ok { supply := m.supply + n
          amount := update m.amount k (m.amount k + n)
          supply_le := h
          backed := fun F => (sum_credit m.amount k n F).trans (Nat.add_le_add_right (m.backed F) n) }
  else .error .overflow

def burn (m : Mint cap κ) (k : κ) (n : Nat) : Except TokenError (Mint cap κ) :=
  if h : n ≤ m.amount k then
    .ok { supply := m.supply - n
          amount := update m.amount k (m.amount k - n)
          supply_le := (Nat.sub_le _ _).trans m.supply_le
          backed := fun F => Nat.le_sub_of_add_le ((sum_debit h F).trans (m.backed _)) }
  else .error .insufficientFunds

/-- The debit comes first, so a transfer to the same account changes nothing. -/
def transfer (m : Mint cap κ) (src dst : κ) (n : Nat) : Except TokenError (Mint cap κ) :=
  if h : n ≤ m.amount src then
    let debited := update m.amount src (m.amount src - n)
    .ok { supply := m.supply
          amount := update debited dst (debited dst + n)
          supply_le := m.supply_le
          backed := fun F => (sum_credit debited dst n F).trans ((sum_debit h F).trans (m.backed _)) }
  else .error .insufficientFunds

variable {m m' : Mint cap κ} {k src dst : κ} {n : Nat}

theorem mintTo_ok (h : m.mintTo k n = .ok m') :
    m.supply + n ≤ cap ∧ m'.supply = m.supply + n ∧
      m'.amount = update m.amount k (m.amount k + n) := by
  unfold mintTo at h
  split at h
  · cases h; exact ⟨‹_›, rfl, rfl⟩
  · cases h

theorem burn_ok (h : m.burn k n = .ok m') :
    n ≤ m.amount k ∧ m'.supply = m.supply - n ∧
      m'.amount = update m.amount k (m.amount k - n) := by
  unfold burn at h
  split at h
  · cases h; exact ⟨‹_›, rfl, rfl⟩
  · cases h

theorem transfer_ok (hne : src ≠ dst) (h : m.transfer src dst n = .ok m') :
    n ≤ m.amount src ∧ m'.supply = m.supply ∧ m'.amount src = m.amount src - n ∧
      m'.amount dst = m.amount dst + n ∧ ∀ k, k ≠ src → k ≠ dst → m'.amount k = m.amount k := by
  unfold transfer at h
  split at h
  · cases h
    refine ⟨‹_›, rfl, ?_, ?_, ?_⟩
    · simp [hne]
    · simp [hne.symm]
    · intro k h1 h2
      simp [h1, h2]
  · cases h

theorem transfer_supply (h : m.transfer src dst n = .ok m') : m'.supply = m.supply := by
  unfold transfer at h
  split at h
  · cases h; rfl
  · cases h

theorem mintTo_other {l : κ} (h : m.mintTo k n = .ok m') (hl : l ≠ k) : m'.amount l = m.amount l := by
  rw [(mintTo_ok h).2.2, update_of_ne hl]

/-- A transfer leaves third accounts alone, also when it is one to itself. -/
theorem transfer_other (h : m.transfer src dst n = .ok m') (h1 : k ≠ src) (h2 : k ≠ dst) :
    m'.amount k = m.amount k := by
  unfold transfer at h
  split at h
  · cases h; simp [h1, h2]
  · cases h

/-! An account loses something only as the source. -/

theorem le_mintTo (h : m.mintTo k n = .ok m') (l : κ) : m.amount l ≤ m'.amount l := by
  by_cases hl : l = k
  · subst hl
    rw [(mintTo_ok h).2.2, update_self]
    exact Nat.le_add_right _ _
  · exact (mintTo_other h hl).ge

theorem le_burn {l : κ} (h : m.burn k n = .ok m') (hl : l ≠ k) : m.amount l ≤ m'.amount l := by
  rw [(burn_ok h).2.2, update_of_ne hl]

theorem le_transfer {l : κ} (h : m.transfer src dst n = .ok m') (hl : l ≠ src) :
    m.amount l ≤ m'.amount l := by
  by_cases hd : l = dst
  · subst hd
    rw [(transfer_ok hl.symm h).2.2.2.1]
    exact Nat.le_add_right _ _
  · exact (transfer_other h hl hd).ge

theorem transfer_zero (m : Mint cap κ) (src dst : κ) : m.transfer src dst 0 = .ok m := by
  unfold transfer
  rw [dif_pos (Nat.zero_le _)]
  simp

theorem exists_transfer (dst : κ) (h : n ≤ m.amount src) : ∃ m', m.transfer src dst n = .ok m' := by
  unfold transfer; rw [dif_pos h]; exact ⟨_, rfl⟩

theorem exists_mintTo (h : m.supply + n ≤ cap) : ∃ m', m.mintTo k n = .ok m' := by
  unfold mintTo; rw [dif_pos h]; exact ⟨_, rfl⟩

theorem exists_burn (h : n ≤ m.amount k) : ∃ m', m.burn k n = .ok m' := by
  unfold burn; rw [dif_pos h]; exact ⟨_, rfl⟩

/-! ## What an operation adds -/

theorem mintTo_moved (h : m.mintTo k n = .ok m') : Moved m m' n (Pi.single k (n : Int)) := by
  obtain ⟨_, hsupply, hamount⟩ := mintTo_ok h
  refine ⟨by omega, ?_⟩
  intro l
  rw [hamount]
  by_cases hl : l = k
  · subst hl; simp
  · simp [hl]

theorem burn_moved (h : m.burn k n = .ok m') : Moved m m' (-n) (Pi.single k (-n : Int)) := by
  obtain ⟨hle, hsupply, hamount⟩ := burn_ok h
  have hback := m.amount_le k
  refine ⟨by omega, ?_⟩
  intro l
  rw [hamount]
  by_cases hl : l = k
  · subst hl
    rw [update_self, Pi.single_eq_same]
    omega
  · simp [hl]

theorem transfer_moved (h : m.transfer src dst n = .ok m') :
    Moved m m' 0 (Pi.single dst (n : Int) + Pi.single src (-n : Int)) := by
  refine ⟨by rw [transfer_supply h, add_zero], ?_⟩
  unfold transfer at h
  split at h
  · next hle =>
    cases h
    intro l
    simp only [Pi.add_apply, Pi.single_apply, update_apply]
    by_cases hd : l = dst
    · subst hd
      by_cases hs : l = src
      · subst hs
        simp only [if_pos]
        omega
      · simp only [if_pos, if_neg hs]
        omega
    · by_cases hs : l = src
      · subst hs
        simp only [if_pos, if_neg hd]
        omega
      · simp only [if_neg hd, if_neg hs]
        omega
  · cases h

end Mint

end HedgeVault.Lib
