import HedgeVault.Instructions.Close
import HedgeVault.Ledger
import HedgeVault.Lib.Serial
import HedgeVault.Solvency

/-!
# The strategy census

`vault_close` sees the strategy records of a vault through one counter. `Census` says what
the counter and the records have to do with each other: it counts them, and every record is
stored under its own protocol account with an id of its own below the next one. A step opens
a record, closes one or leaves them alone (`Step.records`), so the census holds after every
run, and a closed vault leaves no record behind (`close_leaves_nothing`).
-/

namespace HedgeVault

open Lib

/-- No record refers to the closed vault. -/
structure Closed.Bare (c : Closed) : Prop where
  strategies : c.strategies = ∅
  depositRequests : c.depositRequests = ∅
  withdrawalRequests : c.withdrawalRequests = ∅
  supply : c.shareMint.supply = 0

namespace World

structure Census (w : World) : Prop where
  count : w.vault.openStrategyCount.toNat = w.strategies.keys.card
  stored : ∀ k r, w.strategies.lookup k = some r →
    r.vault = w.key ∧ r.strategyType.protocolAccount = k ∧
      r.id.toNat < w.vault.nextStrategyId.toNat
  distinct : ∀ k l r s, w.strategies.lookup k = some r → w.strategies.lookup l = some s →
    r.id = s.id → k = l

/-- The id a step gives to the strategy it opens. -/
def strategyIssued (t : Transition World Tx) : Option Nat :=
  match t.label.ix with
  | .initializeStrategy strategyType _ =>
    (t.post.strategies.lookup strategyType.protocolAccount).map (·.id.toNat)
  | _ => none

/-- Whether the instruction opens a strategy. -/
def opensStrategy : Instruction → Bool
  | .initializeStrategy _ _ => true
  | _ => false

/-! ## What a step does to the records -/

structure SameRecords (w w' : World) : Prop where
  key : w'.key = w.key
  strategies : w'.strategies = w.strategies
  nextStrategyId : w'.vault.nextStrategyId = w.vault.nextStrategyId
  openStrategyCount : w'.vault.openStrategyCount = w.vault.openStrategyCount

structure OpensStrategy (w : World) (now : I64) (strategyType : StrategyType) (w' : World) :
    Prop where
  key : w'.key = w.key
  new : w.strategies.lookup strategyType.protocolAccount = none
  strategies : w'.strategies = w.strategies.insert strategyType.protocolAccount
    (Strategy.new w.key w.vault.nextStrategyId now strategyType)
  nextStrategyId : w'.vault.nextStrategyId.toNat = w.vault.nextStrategyId.toNat + 1
  openStrategyCount : w'.vault.openStrategyCount.toNat = w.vault.openStrategyCount.toNat + 1

structure ClosesStrategy (w : World) (k : Pubkey) (w' : World) : Prop where
  key : w'.key = w.key
  found : ∃ r, w.strategies.lookup k = some r
  strategies : w'.strategies = w.strategies.erase k
  nextStrategyId : w'.vault.nextStrategyId = w.vault.nextStrategyId
  openStrategyCount : w'.vault.openStrategyCount.toNat + 1 = w.vault.openStrategyCount.toNat

/-- The three kinds of steps, as far as the records go. -/
inductive RecordStep (w : World) (tx : Tx) (w' : World) : Prop where
  | same (h : SameRecords w w') (hq : ∀ ty checks, tx.ix ≠ .initializeStrategy ty checks)
  | opens (strategyType : StrategyType) (checks : Result Unit)
    (hix : tx.ix = .initializeStrategy strategyType checks)
    (h : OpensStrategy w tx.now strategyType w')
  | closes (k : Pubkey) (checks : Result Unit) (hix : tx.ix = .vaultCloseStrategy k checks)
    (h : ClosesStrategy w k w')

section

variable {w w' w₀ : World} {now : I64} {e : Event} {tx : Tx} {h : List (Transition World Tx)}
  {signer : Signer}

theorem Change.sameRecords (h : Change w now e w') (he : e ≠ .other) : SameRecords w w' := by
  have hcounters := h.counters_eq
  cases h with
  | navPost _ h =>
    rw [(Vault.updateNav_ok h).eq, Vault.applyPendingFees_sameButFees]
    exact ⟨rfl, rfl, rfl, rfl⟩
  | claimManager h _ =>
    obtain ⟨_, _, rfl⟩ := Vault.claimManagerFee_ok h
    exact ⟨rfl, rfl, rfl, rfl⟩
  | claimPlatform h _ =>
    obtain ⟨_, _, rfl⟩ := Vault.claimPlatformFee_ok h
    exact ⟨rfl, rfl, rfl, rfl⟩
  | vaultUpdate h =>
    rw [Vault.update_sameButSettings h]
    exact ⟨rfl, rfl, rfl, rfl⟩
  | other => exact absurd rfl he
  | _ =>
    have hv := hcounters rfl
    refine ⟨rfl, rfl, ?_, ?_⟩
    · rw [hv]
    · rw [hv]

theorem initializeStrategy_opens {ty : StrategyType} {checks : Result Unit}
    (h : initializeStrategy { w with clock := now } signer ty checks = .ok w') :
    OpensStrategy w now ty w' := by
  simp only [initializeStrategy, Vault.incrementStrategyId, Vault.incrementOpenStrategies,
    bind_eq_ok, pure_eq_ok, safeAdd_eq_ok] at h
  obtain ⟨_, hnew, _, _, _, _, _, _, _, _, v, ⟨i, hi, rfl⟩, v2, ⟨n, hn, rfl⟩, rfl⟩ := h
  refine ⟨rfl, ?_, rfl, hi.symm, hn.symm⟩
  unfold allocate at hnew
  split at hnew
  · cases hnew
  · next hno => exact Option.not_isSome_iff_eq_none.1 hno

theorem vaultCloseStrategy_closes {k : Pubkey} {checks : Result Unit}
    (h : vaultCloseStrategy { w with clock := now } signer k checks = .ok w') :
    ClosesStrategy w k w' := by
  simp only [vaultCloseStrategy, Vault.decrementOpenStrategies, bind_eq_ok, pure_eq_ok,
    load_eq_ok, safeSub_eq_ok] at h
  obtain ⟨r, hr, _, _, _, _, _, _, _, _, v, ⟨n, hn, rfl⟩, _, _, rfl⟩ := h
  exact ⟨rfl, ⟨r, hr⟩, rfl, rfl, hn⟩

theorem RecordStep.of_same (h : SameRecords w w') (hq : opensStrategy tx.ix = false) :
    RecordStep w tx w' := by
  refine .same h ?_
  intro ty checks hix
  rw [hix] at hq
  cases hq

theorem Step.records (wf : w.WellFormed) (st : w.Step tx w') : RecordStep w tx w' := by
  have hchange := process_change wf st
  obtain ⟨signer, now, ix⟩ := tx
  change execute { w with clock := now } signer ix = .ok w' at st
  cases ix with
  | initializeStrategy ty checks => exact .opens ty checks rfl (initializeStrategy_opens st)
  | vaultCloseStrategy k checks => exact .closes k checks rfl (vaultCloseStrategy_closes st)
  | vaultPause =>
    simp only [execute, vaultPause, bind_eq_ok, pure_eq_ok] at st
    obtain ⟨_, _, rfl⟩ := st
    exact .of_same ⟨rfl, rfl, rfl, rfl⟩ rfl
  | otherVaultInitialize =>
    simp only [execute, otherVaultInitialize, bind_eq_ok, pure_eq_ok] at st
    obtain ⟨_, _, rfl⟩ := st
    exact .of_same ⟨rfl, rfl, rfl, rfl⟩ rfl
  | configUpdate =>
    simp only [execute, configUpdate, bind_eq_ok, pure_eq_ok] at st
    obtain ⟨_, _, _, _, rfl⟩ := st
    exact .of_same ⟨rfl, rfl, rfl, rfl⟩ rfl
  | configPause =>
    simp only [execute, configPause, bind_eq_ok, pure_eq_ok] at st
    obtain ⟨_, _, rfl⟩ := st
    exact .of_same ⟨rfl, rfl, rfl, rfl⟩ rfl
  | adminAccept =>
    simp only [execute, adminAccept, bind_eq_ok, pure_eq_ok] at st
    obtain ⟨_, _, rfl⟩ := st
    exact .of_same ⟨rfl, rfl, rfl, rfl⟩ rfl
  | configAddManager =>
    simp only [execute, configAddManager, bind_eq_ok, pure_eq_ok] at st
    obtain ⟨_, _, _, _, rfl⟩ := st
    exact .of_same ⟨rfl, rfl, rfl, rfl⟩ rfl
  | configRemoveManager =>
    simp only [execute, configRemoveManager, bind_eq_ok, pure_eq_ok] at st
    obtain ⟨_, _, _, _, rfl⟩ := st
    exact .of_same ⟨rfl, rfl, rfl, rfl⟩ rfl
  | _ => exact .of_same (hchange.sameRecords fun h => by cases h) rfl

/-! ## The census of a run -/

theorem SameRecords.census (hs : SameRecords w w') (hc : w.Census) : w'.Census := by
  obtain ⟨hk, hm, hi, hn⟩ := hs
  refine ⟨?_, ?_, ?_⟩
  · rw [hn, hm]; exact hc.count
  · rw [hk, hm, hi]; exact hc.stored
  · rw [hm]; exact hc.distinct

theorem OpensStrategy.census {ty : StrategyType} (ho : OpensStrategy w now ty w')
    (hc : w.Census) : w'.Census := by
  -- the id of the new record is above every id in use
  have hfresh : ∀ k r, w.strategies.lookup k = some r → r.id ≠ w.vault.nextStrategyId := by
    intro k r hr heq
    have hlt := (hc.stored k r hr).2.2
    rw [heq] at hlt
    exact absurd hlt (Nat.lt_irrefl _)
  refine ⟨?_, ?_, ?_⟩
  · rw [ho.openStrategyCount, ho.strategies, card_insert_new ho.new, hc.count]
  · intro k r hr
    rw [ho.strategies] at hr
    rw [ho.key, ho.nextStrategyId]
    by_cases hk : k = ty.protocolAccount
    · subst hk
      rw [Finmap.lookup_insert] at hr
      cases hr
      exact ⟨rfl, rfl, Nat.lt_succ_self _⟩
    · rw [Finmap.lookup_insert_of_ne _ hk] at hr
      obtain ⟨hv, hp, hlt⟩ := hc.stored k r hr
      exact ⟨hv, hp, Nat.lt_succ_of_lt hlt⟩
  · intro k l r s hr hs hid
    rw [ho.strategies] at hr hs
    by_cases hk : k = ty.protocolAccount
    · by_cases hl : l = ty.protocolAccount
      · rw [hk, hl]
      · subst hk
        rw [Finmap.lookup_insert] at hr
        rw [Finmap.lookup_insert_of_ne _ hl] at hs
        cases hr
        exact absurd hid.symm (hfresh l s hs)
    · rw [Finmap.lookup_insert_of_ne _ hk] at hr
      by_cases hl : l = ty.protocolAccount
      · subst hl
        rw [Finmap.lookup_insert] at hs
        cases hs
        exact absurd hid (hfresh k r hr)
      · rw [Finmap.lookup_insert_of_ne _ hl] at hs
        exact hc.distinct k l r s hr hs hid

theorem ClosesStrategy.census {k : Pubkey} (hcl : ClosesStrategy w k w') (hc : w.Census) :
    w'.Census := by
  obtain ⟨r, hr⟩ := hcl.found
  refine ⟨?_, ?_, ?_⟩
  · have hcard := card_erase_found hr
    have hcount := hcl.openStrategyCount
    rw [hc.count] at hcount
    rw [hcl.strategies]
    omega
  · intro l s hs
    rw [hcl.strategies] at hs
    rw [hcl.key, hcl.nextStrategyId]
    exact hc.stored l s (lookup_of_erase hs)
  · intro l m s t hs ht
    rw [hcl.strategies] at hs ht
    exact hc.distinct l m s t (lookup_of_erase hs) (lookup_of_erase ht)

theorem RecordStep.census (hs : RecordStep w tx w') (hc : w.Census) : w'.Census := by
  cases hs with
  | same h => exact h.census hc
  | opens _ _ _ h => exact h.census hc
  | closes _ _ _ h => exact h.census hc

theorem RecordStep.serial (hs : RecordStep w tx w') :
    Serial (fun w => w.vault.nextStrategyId.toNat) strategyIssued ⟨w, tx, w'⟩ := by
  unfold Serial strategyIssued
  cases hs with
  | same h hq =>
    have hnext : w'.vault.nextStrategyId.toNat = w.vault.nextStrategyId.toNat :=
      congrArg BitVec.toNat h.nextStrategyId
    cases hix : tx.ix with
    | initializeStrategy ty checks => exact absurd hix (hq ty checks)
    | _ => exact hnext
  | opens ty checks hix h =>
    simp only [hix, h.strategies, Finmap.lookup_insert]
    exact ⟨rfl, h.nextStrategyId⟩
  | closes k checks hix h =>
    simp only [hix]
    exact congrArg BitVec.toNat h.nextStrategyId

theorem Fresh.census (h0 : w₀.Fresh) : w₀.Census := by
  obtain ⟨ho, args, _, e⟩ := h0
  have hnone : ∀ k, w₀.strategies.lookup k = none := by
    intro k
    rw [ho.strategies, Finmap.lookup_empty]
  refine ⟨?_, ?_, ?_⟩
  · rw [e, ho.strategies]; rfl
  · intro k r hr
    rw [hnone k] at hr
    cases hr
  · intro k l r s hr
    rw [hnone k] at hr
    cases hr

theorem run_census (h0 : w₀.Fresh) (hr : Run Step w₀ h w) : w.Census := by
  have hI := hr.inv (I := fun w => w.WellFormed ∧ w.Census) ⟨h0.wellFormed, h0.census⟩ ?_
  · exact hI.2
  · intro w tx w' hw st
    exact ⟨st.wellFormed hw.1, (st.records hw.1).census hw.2⟩

theorem run_serial (h0 : w₀.Fresh) (hr : Run Step w₀ h w) :
    ∀ t ∈ h, Serial (fun w => w.vault.nextStrategyId.toNat) strategyIssued t := by
  intro t ht
  obtain ⟨newer, older, rfl⟩ := List.append_of_mem ht
  obtain ⟨hpre, st, _⟩ := hr.split
  exact (Step.records (run_wellFormed h0 hpre) st).serial

/-! ## What stays -/

/-- What stays of a vault for good. -/
structure SameVault (w w' : World) : Prop where
  key : w'.key = w.key
  id : w'.vault.id = w.vault.id
  authority : w'.vault.authority = w.vault.authority

theorem Change.sameVault (h : Change w now e w') : SameVault w w' := by
  have hvault : e.touchesFees = false → w'.vault.id = w.vault.id ∧
      w'.vault.authority = w.vault.authority := by
    intro he
    rw [h.vault_eq he]
    exact ⟨rfl, rfl⟩
  cases h with
  | navPost _ h =>
    have post := Vault.updateNav_ok h
    refine ⟨rfl, ?_, ?_⟩
    · rw [post.eq, Vault.applyPendingFees_sameButFees w.vault]; rfl
    · rw [post.eq, Vault.applyPendingFees_sameButFees w.vault]; rfl
  | vaultUpdate h =>
    rw [Vault.update_sameButSettings h]
    exact ⟨rfl, rfl, rfl⟩
  | _ => exact ⟨rfl, (hvault rfl).1, (hvault rfl).2⟩

theorem run_sameVault (h0 : w₀.Fresh) (hr : Run Step w₀ h w) : SameVault w₀ w := by
  induction hr with
  | nil => exact ⟨rfl, rfl, rfl⟩
  | snoc hr st ih =>
    have hlast := (process_change (run_wellFormed h0 hr) st).sameVault
    exact ⟨hlast.key.trans ih.key, hlast.id.trans ih.id, hlast.authority.trans ih.authority⟩

/-! ## Closing the vault -/

theorem VaultClosed.bare {c : Closed} (hc : VaultClosed w c) (wf : w.WellFormed) (hw : w.Census)
    (hd : w.vault.pendingDeposits.toNat = total (·.amount.toNat) w.depositRequests)
    (hs : w.vault.pendingWithdrawalShares.toNat = total (·.shares.toNat) w.withdrawalRequests) :
    c.Bare := by
  rw [hc.eq]
  refine ⟨?_, ?_, ?_, hc.supply⟩
  · exact eq_empty_of_card (hw.count.symm.trans hc.openStrategyCount)
  · exact eq_empty_of_total (hd.symm.trans hc.pendingDeposits) fun u r hr => (wf.deposit u r hr).2.2.2
  · exact eq_empty_of_total (hs.symm.trans hc.pendingWithdrawalShares) fun u r hr =>
      (wf.withdrawal u r hr).2.2.2

/-- In every reachable state the open strategy count is the number of strategy records, their
ids are distinct and below the next id, and every open request holds something; no id is
handed out twice. So a closed vault leaves no record, no share and no unclaimed fee. -/
theorem close_leaves_nothing (h0 : w₀.Fresh) (hr : Run Step w₀ h w) :
    w.Census ∧ (h.filterMap strategyIssued).Nodup ∧
    (∀ u r, w.depositRequests.lookup u = some r → 0 < r.amount.toNat) ∧
    (∀ u r, w.withdrawalRequests.lookup u = some r → 0 < r.shares.toNat) ∧
    ∀ authority c, w.vaultClose authority = .ok c → c.Bare ∧
      w.vault.unclaimedManagerFeeShares.toNat = 0 ∧
      w.vault.unclaimedPlatformFeeShares.toNat = 0 := by
  have wf := run_wellFormed h0 hr
  have hcensus := run_census h0 hr
  refine ⟨hcensus, hr.issued_nodup (run_serial h0 hr), ?_, ?_, ?_⟩
  · intro u r hu
    exact (wf.deposit u r hu).2.2.2
  · intro u r hu
    exact (wf.withdrawal u r hu).2.2.2
  · intro authority c hclose
    have hc := vaultClose_ok hclose
    exact ⟨hc.bare wf hcensus (run_deposit_balanced h0 hr).pending_eq
      (run_withdrawal_balanced h0 hr).pending_eq, hc.unclaimedManager, hc.unclaimedPlatform⟩

/-- The manager opens a strategy, closes it and opens it again. -/
def reopenTxs : List Tx := [
  (Instruction.initializeStrategy (.jupiterSwap alice.key) (.ok ())).sentBy manager 100,
  (Instruction.vaultCloseStrategy alice.key (.ok ())).sentBy manager 101,
  (Instruction.initializeStrategy (.jupiterSwap alice.key) (.ok ())).sentBy manager 102,
  (Instruction.vaultCloseStrategy alice.key (.ok ())).sentBy manager 103]

theorem close_leaves_nothing_sample :
    ((history process sample reopenTxs).filterMap strategyIssued).Nodup ∧
    ∃ c, (final process sample reopenTxs).vaultClose manager = .ok c ∧ c.Bare := by
  have hr : Run Step sample (history process sample reopenTxs) (final process sample reopenTxs) :=
    run_final (by rfl)
  obtain ⟨_, hnodup, _, _, hclose⟩ := close_leaves_nothing sample_fresh hr
  refine ⟨hnodup, _, rfl, ?_⟩
  exact (hclose manager _ rfl).1

end

end World

end HedgeVault
