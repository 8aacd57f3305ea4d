import HedgeVault.Lib.Registry

/-!
# Coverage

Things are held at places, and a registry has records that cover places. `Covered` says that
nothing is held where no record covers it. Filling a covered place and opening or changing a
record keep it; removing a record keeps it exactly when what the record covered is empty or
covered by another one (`covered_erase_iff`). Without records nothing is held.
-/

namespace HedgeVault.Lib

variable {ι κ ρ : Type*} [DecidableEq κ]

/-- Some record covers the place. -/
def Watched (covers : ρ → ι → Prop) (m : Finmap fun _ : κ => ρ) (i : ι) : Prop :=
  ∃ k r, m.lookup k = some r ∧ covers r i

/-- Some record beside that of `k` covers the place. -/
def WatchedBeside (covers : ρ → ι → Prop) (m : Finmap fun _ : κ => ρ) (k : κ) (i : ι) : Prop :=
  ∃ l r, l ≠ k ∧ m.lookup l = some r ∧ covers r i

/-- What is held is held where a record covers it. -/
def Covered (covers : ρ → ι → Prop) (held : ι → Nat) (m : Finmap fun _ : κ => ρ) : Prop :=
  ∀ i, held i ≠ 0 → Watched covers m i

variable {covers : ρ → ι → Prop} {held held' : ι → Nat} {m : Finmap fun _ : κ => ρ} {k : κ} {r r' : ρ}
  {i : ι}

theorem Covered.fill (h : Covered covers held m) (hi : Watched covers m i)
    (hsame : ∀ j, j ≠ i → held' j = held j) : Covered covers held' m := by
  intro j hj
  by_cases hji : j = i
  · exact hji ▸ hi
  · rw [hsame j hji] at hj
    exact h j hj

/-- Opening a record, or replacing one by one that covers as much. -/
theorem Watched.insert (h : Watched covers m i)
    (hr : ∀ s, m.lookup k = some s → covers s i → covers r i) : Watched covers (m.insert k r) i := by
  obtain ⟨l, s, hs, hc⟩ := h
  by_cases hl : l = k
  · subst hl
    exact ⟨l, r, Finmap.lookup_insert m, hr s hs hc⟩
  · exact ⟨l, s, (Finmap.lookup_insert_of_ne m hl).trans hs, hc⟩

theorem Covered.insert (h : Covered covers held m)
    (hr : ∀ i s, m.lookup k = some s → covers s i → covers r i) :
    Covered covers held (m.insert k r) := fun i hi => (h i hi).insert (hr i)

theorem watched_erase : Watched covers (m.erase k) i ↔ WatchedBeside covers m k i := by
  constructor
  · rintro ⟨l, r, hr, hc⟩
    refine ⟨l, r, ?_, lookup_of_erase hr, hc⟩
    rintro rfl
    rw [Finmap.lookup_erase] at hr
    cases hr
  · rintro ⟨l, r, hl, hr, hc⟩
    exact ⟨l, r, (Finmap.lookup_erase_ne hl).trans hr, hc⟩

theorem covered_erase_iff (h : Covered covers held m) (hk : m.lookup k = some r) :
    Covered covers held (m.erase k) ↔
      ∀ i, covers r i → held i = 0 ∨ WatchedBeside covers m k i := by
  constructor
  · intro he i _
    by_cases hi : held i = 0
    · exact .inl hi
    · exact .inr (watched_erase.1 (he i hi))
  · intro hr i hi
    obtain ⟨l, s, hs, hc⟩ := h i hi
    by_cases hl : l = k
    · subst hl
      rw [hk] at hs
      cases hs
      rcases hr i hc with h0 | hw
      · exact absurd h0 hi
      · exact watched_erase.2 hw
    · exact watched_erase.2 ⟨l, s, hl, hs, hc⟩

theorem Covered.eq_zero (h : Covered covers held m) (hm : m = ∅) (i : ι) : held i = 0 := by
  by_contra hi
  obtain ⟨k, r, hr, _⟩ := h i hi
  rw [hm, Finmap.lookup_empty] at hr
  cases hr

end HedgeVault.Lib
