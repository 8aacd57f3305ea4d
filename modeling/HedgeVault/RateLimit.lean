import HedgeVault.Lib.Rate
import HedgeVault.Settlement

/-!
# The rate limit of the NAV updater

A post of the updater over a nonzero supply moves the recorded NAV by at most the
deviation limit of the config, and posts are in different epochs. No other step moves the
NAV. So over a run whose posts are all of this kind, the number of posts is bounded by the
epochs that passed, and the NAV by the compounded limit (`nav_rate_limit`).
-/

namespace HedgeVault

open Lib

def Tx.isNavUpdate (tx : Tx) : Bool :=
  match tx.ix with
  | .navUpdate _ => true
  | _ => false

theorem Tx.event_of_isNavUpdate {tx : Tx} (h : tx.isNavUpdate = true) :
    ∃ totalAssets, tx.event = .navPost totalAssets false := by
  obtain ⟨signer, now, ix⟩ := tx
  cases ix <;> first | exact ⟨_, rfl⟩ | cases h

namespace World

/-- A post of the updater over a nonzero supply, under a deviation limit of at most `b`. -/
def LimitedPost (b : Nat) (t : Transition World Tx) : Prop :=
  t.label.isNavUpdate = true ∧ t.pre.pool.shares ≠ 0 ∧
  t.pre.config.maxNavDeviationBps.toNat ≤ b

instance (b : Nat) (t : Transition World Tx) : Decidable (LimitedPost b t) :=
  inferInstanceAs (Decidable (_ ∧ _ ∧ _))

section

variable {w w' w₀ : World} {now : I64} {e : Event} {h l : List (Transition World Tx)} {b : Nat}

/-- One post moves the NAV by at most the limit. -/
theorem Change.posted_deviation {totalAssets : U64}
    (h : Change w now (.navPost totalAssets false) w') (hshares : w.pool.shares ≠ 0)
    (hlimit : w.config.maxNavDeviationBps.toNat ≤ b) :
    w.vault.navPerShare.toNat * (MAX_BPS.toNat - b) ≤ w'.vault.navPerShare.toNat * MAX_BPS.toNat ∧
    w'.vault.navPerShare.toNat * MAX_BPS.toNat ≤
      w.vault.navPerShare.toNat * (MAX_BPS.toNat + b) := by
  obtain ⟨_, _, post⟩ := h.posted_ok
  have hsupply : (w.postInputs now totalAssets false).supply ≠ 0 := by
    rwa [postInputs_supply]
  obtain ⟨hup, hdown⟩ := post.deviation hsupply w.config.maxNavDeviationBps rfl
  -- the floored deviation of the check is within the exact one
  have hfloor : w.vault.navPerShare.toNat * w.config.maxNavDeviationBps.toNat / 10000 * 10000 ≤
      w.vault.navPerShare.toNat * b :=
    (Nat.div_mul_le_self _ _).trans (Nat.mul_le_mul_left _ hlimit)
  rw [maxBps_toNat]
  rw [Nat.mul_sub, Nat.mul_add]
  omega

theorem TimedStep.limited {tx : Tx} (h0 : w₀.Fresh) (hr : Run TimedStep w₀ h w)
    (st : w.TimedStep tx w') (hl : LimitedPost b ⟨w, tx, w'⟩) :
    w.vault.navPerShare.toNat * (MAX_BPS.toNat - b) ≤ w'.vault.navPerShare.toNat * MAX_BPS.toNat ∧
    w'.vault.navPerShare.toNat * MAX_BPS.toNat ≤
      w.vault.navPerShare.toNat * (MAX_BPS.toNat + b) := by
  obtain ⟨hupdate, hshares, hlimit⟩ := hl
  obtain ⟨T, he⟩ := Tx.event_of_isNavUpdate hupdate
  have hch := process_change (run_wellFormed h0 (TimedStep.run_step hr)) st.2
  rw [he] at hch
  exact hch.posted_deviation hshares hlimit

/-- Posts are in different epochs, and none is in a later one than the clock's. -/
theorem run_post_count (h0 : w₀.Fresh) (hc : 0 ≤ w₀.clock.val) (hr : Run TimedStep w₀ h w)
    (hr' : Run TimedStep w l w') :
    w.vault.navEpoch.toNat + l.countP (·.label.isNavPost) ≤ (Vault.epoch w'.clock).toNat := by
  have hall := hr.trans hr'
  have hchange : ∀ t ∈ l, Change t.pre t.label.now t.label.event t.post := fun t ht =>
    run_change h0 (TimedStep.run_step hall) (List.mem_append_left h ht)
  have hcount := hr'.count_le (g := fun w => w.vault.navEpoch.toNat)
    (p := fun t => t.label.isNavPost) (fun t ht hp => ?_) fun t ht hp => ?_
  · exact hcount.trans (run_clocked h0 hc hall).navEpoch
  · obtain ⟨hlt, hnew, _⟩ := (hchange t ht).posted (Tx.event_of_isNavPost hp)
    show t.pre.vault.navEpoch.toNat < t.post.vault.navEpoch.toNat
    rw [hnew]
    exact hlt
  · have hsame := (hchange t ht).sameNav (Tx.event_ne_of_isNavPost hp)
    exact (congrArg BitVec.toNat hsame.navEpoch).ge

/-- In `k` limited posts the NAV moves by at most the `k`-th power of the limit. -/
theorem run_nav_drift (h0 : w₀.Fresh) (hr : Run TimedStep w₀ h w) (hr' : Run TimedStep w l w')
    (hposts : ∀ t ∈ l, t.label.isNavPost = true → LimitedPost b t) :
    w.vault.navPerShare.toNat * (MAX_BPS.toNat - b) ^ l.countP (·.label.isNavPost) ≤
      w'.vault.navPerShare.toNat * MAX_BPS.toNat ^ l.countP (·.label.isNavPost) ∧
    w'.vault.navPerShare.toNat * MAX_BPS.toNat ^ l.countP (·.label.isNavPost) ≤
      w.vault.navPerShare.toNat * (MAX_BPS.toNat + b) ^ l.countP (·.label.isNavPost) := by
  have hkept : ∀ t ∈ l, t.label.isNavPost = false →
      t.post.vault.navPerShare.toNat = t.pre.vault.navPerShare.toNat := by
    intro t ht hp
    have hsame := run_sameNav h0 (TimedStep.run_step (hr.trans hr')) (List.mem_append_left h ht) hp
    exact congrArg BitVec.toNat hsame.navPerShare
  have hlimited : ∀ t ∈ l, t.label.isNavPost = true →
      t.pre.vault.navPerShare.toNat * (MAX_BPS.toNat - b) ≤
        t.post.vault.navPerShare.toNat * MAX_BPS.toNat ∧
      t.post.vault.navPerShare.toNat * MAX_BPS.toNat ≤
        t.pre.vault.navPerShare.toNat * (MAX_BPS.toNat + b) := by
    intro t ht hp
    have hl := hposts t ht hp
    obtain ⟨newer, older, rfl⟩ := List.append_of_mem ht
    obtain ⟨hpre, st, _⟩ := hr'.split
    exact TimedStep.limited h0 (hr.trans hpre) st hl
  constructor
  · exact hr'.le_of_shrink (f := fun w => w.vault.navPerShare.toNat) (Nat.zero_le _) (Nat.zero_le _)
      (fun t ht hp => (hlimited t ht hp).1) hkept
  · exact hr'.le_of_grow (f := fun w => w.vault.navPerShare.toNat) (Nat.zero_le _) (Nat.zero_le _)
      (fun t ht hp => (hlimited t ht hp).2) hkept

/-- Between two times, the epochs that pass bound the number `k` of posts, and limited posts
move the NAV by at most the `k`-th power of the limit. -/
theorem nav_rate_limit (h0 : w₀.Fresh) (hc : 0 ≤ w₀.clock.val) (hr : Run TimedStep w₀ h w)
    (hr' : Run TimedStep w l w')
    (hposts : ∀ t ∈ l, t.label.isNavPost = true → LimitedPost b t) (t₁ : I64)
    (ht : w'.clock.val ≤ t₁.val) :
    w.vault.navEpoch.toNat + l.countP (·.label.isNavPost) ≤ (Vault.epoch t₁).toNat ∧
    w.vault.navPerShare.toNat * (MAX_BPS.toNat - b) ^ l.countP (·.label.isNavPost) ≤
      w'.vault.navPerShare.toNat * MAX_BPS.toNat ^ l.countP (·.label.isNavPost) ∧
    w'.vault.navPerShare.toNat * MAX_BPS.toNat ^ l.countP (·.label.isNavPost) ≤
      w.vault.navPerShare.toNat * (MAX_BPS.toNat + b) ^ l.countP (·.label.isNavPost) := by
  have hnonneg := (run_clocked h0 hc (hr.trans hr')).nonneg
  have hcount := run_post_count h0 hc hr hr'
  exact ⟨hcount.trans (Vault.epoch_mono hnonneg ht), run_nav_drift h0 hr hr' hposts⟩

/-! Under a limit of 50%, the price rises by two fifths and stays in two posts. -/

def limitTx : Tx := (Instruction.configUpdate
  ⟨none, none, none, none, none, none, some 5000, none, none, none⟩).sentBy admin 20000

def limited : World := final process sample (sampleTxs.take 3 ++ [limitTx])

theorem nav_rate_limit_sample : limited.vault.navEpoch.toNat + 2 ≤ 3 ∧
    limited.vault.navPerShare.toNat * 5000 ^ 2 ≤
      (final process limited (sampleTxs.drop 3)).vault.navPerShare.toNat * 10000 ^ 2 ∧
    (final process limited (sampleTxs.drop 3)).vault.navPerShare.toNat * 10000 ^ 2 ≤
      limited.vault.navPerShare.toNat * 15000 ^ 2 := by
  have hposts : ((history process limited (sampleTxs.drop 3)).all fun t =>
      decide (t.label.isNavPost = true → LimitedPost 5000 t)) = true := by rfl
  exact nav_rate_limit sample_fresh (by decide)
    (timed_final (by rfl : (runAll process sample [] (sampleTxs.take 3 ++ [limitTx])).isOk = true)
      (by rfl))
    (timed_final (by rfl : (runAll process limited [] (sampleTxs.drop 3)).isOk = true) (by rfl))
    (fun t ht => of_decide_eq_true (List.all_eq_true.1 hposts t ht))
    ⟨43201, by decide, by decide⟩ (by decide)

end

end World

end HedgeVault
