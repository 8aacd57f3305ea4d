import HedgeVault.Census
import HedgeVault.Lib.Projection
import HedgeVault.Reachable

/-!
# Worlds up to the stamps

A strategy handler leaves one trace in the world of the vault: the time of the last action on
its record. `Restamped` relates worlds that differ in these times and in the clock at most.
It is a simulation (`Restamped.step`): no instruction reads a stamp, and the instructions that
do not touch the records commute with replacing all of them (`execute_withRecords`).
-/

namespace HedgeVault

open Lib

/-- The record as if it had not acted since it was made. -/
def Strategy.unstamped (s : Strategy) : Strategy := { s with lastActionTs := s.createdTs }

/-- The records are the same up to their last actions. -/
def SameUnstamped (m n : Finmap fun _ : Pubkey => Strategy) : Prop :=
  ∀ k, (n.lookup k).map Strategy.unstamped = (m.lookup k).map Strategy.unstamped

section

variable {m n : Finmap fun _ : Pubkey => Strategy} {k : Pubkey} {s : Strategy}

theorem SameUnstamped.refl : SameUnstamped m m := fun _ => rfl

theorem SameUnstamped.isSome (h : SameUnstamped m n) (k : Pubkey) :
    (n.lookup k).isSome = (m.lookup k).isSome := by
  have hk := congrArg Option.isSome (h k)
  rwa [Option.isSome_map, Option.isSome_map] at hk

theorem SameUnstamped.found (h : SameUnstamped m n) (hm : m.lookup k = some s) :
    ∃ s', n.lookup k = some s' ∧ s'.unstamped = s.unstamped := by
  have hk := h k
  rw [hm] at hk
  exact Option.map_eq_some_iff.1 hk

theorem SameUnstamped.insert (h : SameUnstamped m n) {s s' : Strategy}
    (hs : s'.unstamped = s.unstamped) : SameUnstamped (m.insert k s) (n.insert k s') := by
  intro l
  by_cases hl : l = k
  · subst hl
    rw [Finmap.lookup_insert, Finmap.lookup_insert, Option.map_some, Option.map_some, hs]
  · rw [Finmap.lookup_insert_of_ne _ hl, Finmap.lookup_insert_of_ne _ hl]
    exact h l

theorem SameUnstamped.erase (h : SameUnstamped m n) (k : Pubkey) :
    SameUnstamped (m.erase k) (n.erase k) := by
  intro l
  by_cases hl : l = k
  · subst hl
    rw [Finmap.lookup_erase, Finmap.lookup_erase]
  · rw [Finmap.lookup_erase_ne hl, Finmap.lookup_erase_ne hl]
    exact h l

/-- A new stamp on one of the records. -/
theorem SameUnstamped.stamp (h : SameUnstamped m n) (hs : m.lookup k = some s) (ts : I64) :
    SameUnstamped (m.insert k { s with lastActionTs := ts }) n := by
  intro l
  by_cases hl : l = k
  · subst hl
    rw [Finmap.lookup_insert, h l, hs]
    rfl
  · rw [Finmap.lookup_insert_of_ne _ hl]
    exact h l

end

namespace World

/-- Whether the instruction reads or writes the strategy records. -/
def touchesRecords : Instruction → Bool
  | .initializeStrategy _ _ => true
  | .vaultCloseStrategy _ _ => true
  | _ => false

/-- The world with other strategy records. -/
def withRecords (w : World) (records : Finmap fun _ : Pubkey => Strategy) : World :=
  { w with strategies := records }

section

variable {w w' u : World} {signer : Signer} {now : I64} {ix : Instruction} {tx : Tx}

theorem execute_withRecords (hix : touchesRecords ix = false)
    (records : Finmap fun _ : Pubkey => Strategy) :
    (w.withRecords records).execute signer ix =
      (·.withRecords records) <$> w.execute signer ix := by
  cases ix with
  | initializeStrategy | vaultCloseStrategy => cases hix
  | _ =>
    simp only [execute, depositRequestCreate, depositRequestCancel, depositRequestReject,
      depositRequestResolve, withdrawalRequestCreate, withdrawalRequestCancel,
      withdrawalRequestReject, withdrawalRequestResolve, navUpdate, navOverride,
      vaultClaimManagerFee, configClaimPlatformFee, vaultUpdate, vaultPause, otherVaultInitialize,
      configUpdate, configPause, adminAccept, configAddManager, configRemoveManager,
      depositTransfer, depositIssue, depositBurn, shareTransfer, shareBurn, refundDeposit,
      refundWithdrawal, postNav, map_bind, map_pure]
    rfl

/-- Such an instruction leaves the records as they are. -/
theorem execute_strategies (hix : touchesRecords ix = false)
    (h : w.execute signer ix = .ok w') : w'.strategies = w.strategies := by
  have hcomm : w.execute signer ix = (·.withRecords w.strategies) <$> w.execute signer ix :=
    execute_withRecords hix w.strategies
  rw [h] at hcomm
  have hw' : w' = w'.withRecords w.strategies := Except.ok.inj hcomm
  rw [hw']
  rfl

/-- The worlds differ in the clock and in the stamps of the records at most. -/
structure Restamped (w u : World) : Prop where
  eq : u = { w with clock := u.clock, strategies := u.strategies }
  records : SameUnstamped w.strategies u.strategies

theorem Restamped.refl : Restamped w w := ⟨rfl, .refl⟩

/-- The steps of a world are those of a restamped one. -/
theorem Restamped.step (hs : Restamped w u) (st : w.Step tx w') :
    ∃ u', u.Step tx u' ∧ Restamped w' u' := by
  obtain ⟨e, hrecords⟩ := hs
  obtain ⟨signer, now, ix⟩ := tx
  rw [e]
  generalize u.strategies = records at hrecords
  change execute { w with clock := now } signer ix = .ok w' at st
  cases hix : touchesRecords ix with
  | false =>
    refine ⟨w'.withRecords records, ?_, rfl, ?_⟩
    · have hcomm : execute (withRecords { w with clock := now } records) signer ix = _ :=
        execute_withRecords hix records
      rw [st] at hcomm
      exact hcomm
    · rw [execute_strategies hix st]
      exact hrecords
  | true =>
    cases ix with
    | initializeStrategy ty checks =>
      simp only [Step, process, execute, initializeStrategy, bind_eq_ok, pure_eq_ok] at st ⊢
      obtain ⟨_, hnew, _, h1, _, h2, _, h3, _, h4, v, hv, v', hv', rfl⟩ := st
      simp only [hrecords.isSome]
      exact ⟨_, ⟨_, hnew, _, h1, _, h2, _, h3, _, h4, v, hv, v', hv', rfl⟩, rfl,
        hrecords.insert rfl⟩
    | vaultCloseStrategy k checks =>
      simp only [Step, process, execute, vaultCloseStrategy, bind_eq_ok, pure_eq_ok,
        load_eq_ok] at st ⊢
      obtain ⟨s, hs, _, h1, _, h2, _, h3, _, h4, v, hv, _, h5, rfl⟩ := st
      obtain ⟨s', hs', hsame⟩ := hrecords.found hs
      have hvault : s'.vault = s.vault :=
        show s'.unstamped.vault = s.unstamped.vault by rw [hsame]
      rw [← hvault] at h4
      exact ⟨_, ⟨s', hs', _, h1, _, h2, _, h3, _, h4, v, hv, _, h5, rfl⟩, rfl, hrecords.erase k⟩
    | _ => cases hix

/-- A stamp on one of the records at a later clock. -/
theorem Restamped.stamp {k : Pubkey} {s : Strategy} (hs : Restamped w u)
    (hk : w.strategies.lookup k = some s) (clock ts : I64) :
    Restamped { w with
      clock, strategies := w.strategies.insert k { s with lastActionTs := ts } } u :=
  ⟨hs.eq, hs.records.stamp hk ts⟩

/-! What holds of a world, whatever its stamps are. -/

theorem Restamped.sound (hs : Restamped w u) (hu : u.Sound) : w.Sound := by
  obtain ⟨e, _⟩ := hs
  rw [e] at hu
  exact ⟨⟨hu.wellFormed.deposit, hu.wellFormed.withdrawal⟩, hu.solvent, hu.pendingDeposits,
    hu.depositEscrow, hu.pendingShares, hu.shareEscrow⟩

theorem Restamped.sameVault {w₀ : World} (hs : Restamped w u) (hu : SameVault w₀ u) :
    SameVault w₀ w := by
  obtain ⟨e, _⟩ := hs
  rw [e] at hu
  exact ⟨hu.key, hu.id, hu.authority⟩

/-- A record of `w` is one of `u` up to its stamp. -/
theorem Restamped.found {k : Pubkey} {s : Strategy} (hs : Restamped w u)
    (hk : w.strategies.lookup k = some s) : ∃ s', u.strategies.lookup k = some s' ∧
      s'.vault = s.vault ∧ s'.id = s.id ∧ s'.strategyType = s.strategyType := by
  obtain ⟨s', hs', hsame⟩ := hs.records.found hk
  refine ⟨s', hs', ?_, ?_, ?_⟩
  · show s'.unstamped.vault = s.unstamped.vault
    rw [hsame]
  · show s'.unstamped.id = s.unstamped.id
    rw [hsame]
  · show s'.unstamped.strategyType = s.unstamped.strategyType
    rw [hsame]

theorem Restamped.census (hs : Restamped w u) (hu : u.Census) : w.Census := by
  have hkeys : u.strategies.keys = w.strategies.keys := by
    ext k
    rw [Finmap.mem_keys, Finmap.mem_keys, ← Finmap.lookup_isSome, ← Finmap.lookup_isSome,
      hs.records.isSome]
  have hvault : u.vault = w.vault ∧ u.key = w.key := by
    rw [hs.eq]
    exact ⟨rfl, rfl⟩
  refine ⟨?_, ?_, ?_⟩
  · rw [← hvault.1, ← hkeys]
    exact hu.count
  · intro k r hk
    obtain ⟨r', hr', hv, hi, ht⟩ := hs.found hk
    rw [← hv, ← ht, ← hi, ← hvault.1, ← hvault.2]
    exact hu.stored k r' hr'
  · intro k l r s hk hl hid
    obtain ⟨r', hr', _, hi, _⟩ := hs.found hk
    obtain ⟨s', hs', _, hi', _⟩ := hs.found hl
    exact hu.distinct k l r' s' hr' hs' (hi.trans (hid.trans hi'.symm))

end

end World

end HedgeVault
