import Mathlib.Data.Finmap
import Mathlib.Algebra.Order.BigOperators.Group.Multiset
import Mathlib.Algebra.Order.Ring.Nat

/-!
# Registries of records

A registry is a `Finmap` from owners to records. `total f m` adds `f` over the
open records, `at f m k` is `f` of the record of `k`, zero when there is none.
Opening, replacing and closing a record change the total by what the record
carries (`total_insert_add`, `total_erase_add`).
-/

namespace HedgeVault.Lib

variable {κ ρ : Type*} [DecidableEq κ]

/-- The sum of `f` over the open records. -/
def total (f : ρ → Nat) (m : Finmap fun _ : κ => ρ) : Nat :=
  (m.entries.map fun e => f e.2).sum

/-- `f` of the record of `k`, zero when there is none. -/
def valueAt (f : ρ → Nat) (m : Finmap fun _ : κ => ρ) (k : κ) : Nat :=
  (m.lookup k).elim 0 f

section

variable {f g : ρ → Nat} {m : Finmap fun _ : κ => ρ} {k l : κ} {r : ρ}

omit [DecidableEq κ] in
@[simp] theorem total_empty : total f (∅ : Finmap fun _ : κ => ρ) = 0 := rfl

theorem total_insert_new (h : m.lookup k = none) : total f (m.insert k r) = f r + total f m := by
  unfold total
  rw [Finmap.entries_insert_of_notMem (Finmap.lookup_eq_none.1 h), Multiset.map_cons,
    Multiset.sum_cons]

theorem insert_erase_of_lookup (h : m.lookup k = some r) : (m.erase k).insert k r = m := by
  apply Finmap.ext_lookup
  intro x
  by_cases hx : x = k
  · subst hx; rw [Finmap.lookup_insert, h]
  · rw [Finmap.lookup_insert_of_ne _ hx, Finmap.lookup_erase_ne hx]

theorem insert_erase (r : ρ) : (m.erase k).insert k r = m.insert k r := by
  apply Finmap.ext_lookup
  intro x
  by_cases hx : x = k
  · subst hx; rw [Finmap.lookup_insert, Finmap.lookup_insert]
  · rw [Finmap.lookup_insert_of_ne _ hx, Finmap.lookup_erase_ne hx, Finmap.lookup_insert_of_ne _ hx]

theorem erase_of_lookup_none (h : m.lookup k = none) : m.erase k = m := by
  apply Finmap.ext_lookup
  intro x
  by_cases hx : x = k
  · subst hx; rw [Finmap.lookup_erase, h]
  · rw [Finmap.lookup_erase_ne hx]

/-- Closing the record of `k` takes its value out of the total. -/
theorem total_erase_add (f : ρ → Nat) (m : Finmap fun _ : κ => ρ) (k : κ) :
    valueAt f m k + total f (m.erase k) = total f m := by
  unfold valueAt
  cases h : m.lookup k with
  | none => rw [erase_of_lookup_none h]; exact Nat.zero_add _
  | some r =>
    have hn : (m.erase k).lookup k = none := Finmap.lookup_erase k m
    calc f r + total f (m.erase k) = total f ((m.erase k).insert k r) :=
          (total_insert_new hn).symm
      _ = total f m := by rw [insert_erase_of_lookup h]

/-- Opening or replacing the record of `k` puts the new value in place of the old one. -/
theorem total_insert_add (f : ρ → Nat) (m : Finmap fun _ : κ => ρ) (k : κ) (r : ρ) :
    total f (m.insert k r) + valueAt f m k = total f m + f r := by
  have hn : (m.erase k).lookup k = none := Finmap.lookup_erase k m
  have h1 : total f (m.insert k r) = f r + total f (m.erase k) := by
    rw [← insert_erase, total_insert_new hn]
  have h2 := total_erase_add f m k
  omega

theorem valueAt_of_lookup (h : m.lookup k = some r) : valueAt f m k = f r := by
  unfold valueAt; rw [h]; rfl

theorem valueAt_le_total (f : ρ → Nat) (m : Finmap fun _ : κ => ρ) (k : κ) :
    valueAt f m k ≤ total f m := by
  have := total_erase_add f m k
  omega

@[simp] theorem valueAt_empty : valueAt f (∅ : Finmap fun _ : κ => ρ) k = 0 := by
  simp [valueAt]

theorem valueAt_insert (f : ρ → Nat) (m : Finmap fun _ : κ => ρ) (k l : κ) (r : ρ) :
    valueAt f (m.insert k r) l = if l = k then f r else valueAt f m l := by
  unfold valueAt
  split
  · next h => subst h; rw [Finmap.lookup_insert]; rfl
  · next h => rw [Finmap.lookup_insert_of_ne _ h]

theorem valueAt_erase (f : ρ → Nat) (m : Finmap fun _ : κ => ρ) (k l : κ) :
    valueAt f (m.erase k) l = if l = k then 0 else valueAt f m l := by
  unfold valueAt
  split
  · next h => subst h; rw [Finmap.lookup_erase]; rfl
  · next h => rw [Finmap.lookup_erase_ne h]

/-- What is open after a record was closed was open before. -/
theorem lookup_of_erase (h : (m.erase k).lookup l = some r) : m.lookup l = some r := by
  by_cases hl : l = k
  · subst hl; rw [Finmap.lookup_erase] at h; cases h
  · rwa [Finmap.lookup_erase_ne hl] at h

theorem keys_insert (m : Finmap fun _ : κ => ρ) (k : κ) (r : ρ) :
    (m.insert k r).keys = Insert.insert k m.keys := by
  ext x
  rw [Finmap.mem_keys, Finmap.mem_insert, Finset.mem_insert, Finmap.mem_keys]

theorem card_insert_new (h : m.lookup k = none) : (m.insert k r).keys.card = m.keys.card + 1 := by
  rw [keys_insert, Finset.card_insert_of_notMem]
  rw [Finmap.mem_keys]
  exact Finmap.lookup_eq_none.1 h

theorem card_erase_found (h : m.lookup k = some r) :
    (m.erase k).keys.card + 1 = m.keys.card := by
  have hk : k ∈ m.keys := Finmap.mem_keys.2 (Finmap.mem_of_lookup_eq_some h)
  rw [Finmap.keys_erase]
  exact Finset.card_erase_add_one hk

theorem eq_empty_of_lookup (h : ∀ k, m.lookup k = none) : m = ∅ := by
  apply Finmap.ext_lookup
  intro k
  rw [h k, Finmap.lookup_empty]

theorem eq_empty_of_card (h : m.keys.card = 0) : m = ∅ := by
  apply eq_empty_of_lookup
  intro k
  rw [Finmap.lookup_eq_none, ← Finmap.mem_keys, Finset.card_eq_zero.1 h]
  exact Finset.notMem_empty k

/-- Where every record carries something, a total of zero means that none is open. -/
theorem eq_empty_of_total (h : total f m = 0) (hpos : ∀ k r, m.lookup k = some r → 0 < f r) :
    m = ∅ := by
  apply eq_empty_of_lookup
  intro k
  cases hk : m.lookup k with
  | none => rfl
  | some r =>
    have hle := valueAt_le_total f m k
    rw [valueAt_of_lookup hk] at hle
    have := hpos k r hk
    omega

/-- A smaller measure has a smaller total. -/
theorem total_le_total (hle : ∀ k r, m.lookup k = some r → f r ≤ g r) : total f m ≤ total g m := by
  unfold total
  refine Multiset.sum_map_le_sum_map _ _ fun e he => hle e.1 e.2 ?_
  exact Finmap.lookup_eq_some_iff.2 he

end

end HedgeVault.Lib
