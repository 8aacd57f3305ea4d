import HedgeVault.Settlement

/-!
# Settlement at the first covering NAV

A request of epoch `x` is covered once a NAV of a later epoch is recorded
(`CoveredOpen`); `firstPostAfter x` is the post that covers it. The vault keeps one
price, so a request that stays open is priced by whatever was posted last. It is
settled at its covering post, whenever it is resolved, exactly in the runs where no
post changes the price while a covered request is open (`settlement_price_iff`).
-/

namespace HedgeVault

open Lib

namespace World

/-- The first post of an epoch later than `x`. -/
def firstPostAfter (x : U64) (h : List (Transition World Tx)) : Option (Transition World Tx) :=
  h.reverse.find? fun t => t.label.isNavPost && decide (x < Vault.epoch t.label.now)

/-- The epochs of the open deposit requests (left) and withdrawal requests (right). -/
def requestEpoch (w : World) : Pubkey ⊕ Pubkey → Option U64 :=
  Sum.elim w.depositEpoch w.withdrawalEpoch

/-- Some open request is already covered by the recorded NAV. -/
def CoveredOpen (w : World) : Prop :=
  ∃ k x, w.requestEpoch k = some x ∧ x < w.vault.navEpoch

/-- In every state of the run, a covered request resolves at the price of its covering
post. -/
def SettlesAtFirst (w₀ : World) (h : List (Transition World Tx)) : Prop :=
  ∀ newer older s k x, h = newer ++ older → Run TimedStep w₀ older s →
    s.requestEpoch k = some x → x < s.vault.navEpoch →
    ∃ p, firstPostAfter x older = some p ∧ s.vault.navPerShare = p.post.vault.navPerShare

/-- A post keeps the price while a covered request is open. -/
def KeepsPrice (q : Transition World Tx) : Prop :=
  q.label.isNavPost = true → q.pre.CoveredOpen →
    q.post.vault.navPerShare = q.pre.vault.navPerShare

section

variable {w w' w₀ : World} {now : I64} {e : Event} {tx : Tx} {x : U64} {k : Pubkey ⊕ Pubkey}
  {h : List (Transition World Tx)}

theorem firstPostAfter_cons_of_some {t p : Transition World Tx} (hp : firstPostAfter x h = some p) :
    firstPostAfter x (t :: h) = some p := by
  unfold firstPostAfter at *
  rw [List.reverse_cons, List.find?_append, hp]; rfl

theorem firstPostAfter_cons_of_none {t : Transition World Tx} (hn : firstPostAfter x h = none) :
    firstPostAfter x (t :: h) =
      if t.label.isNavPost && decide (x < Vault.epoch t.label.now) then some t else none := by
  unfold firstPostAfter at *
  rw [List.reverse_cons, List.find?_append, hn, List.find?_singleton]; rfl

/-- No post of the run covers an epoch from the recorded one on. -/
theorem firstPostAfter_eq_none (h0 : w₀.Fresh) (hr : Run Step w₀ h w)
    (hx : ¬ x < w.vault.navEpoch) : firstPostAfter x h = none := by
  unfold firstPostAfter
  rw [List.find?_eq_none]
  intro t ht hcov
  rw [Bool.and_eq_true, decide_eq_true_eq] at hcov
  have hle := run_epoch_le h0 hr (List.mem_reverse.1 ht) hcov.1
  have hlt := BitVec.lt_def.1 hcov.2
  exact hx (BitVec.lt_def.2 (by omega))

/-- A covered request was open before the step, in the same epoch. -/
theorem Change.requestEpoch_before (h : Change w now e w') (hk : w'.requestEpoch k = some x)
    (hx : x ≠ Vault.epoch now) : w.requestEpoch k = some x := by
  cases k with
  | inl u =>
    have hu : w'.depositEpoch u = some x := hk
    show w.depositEpoch u = some x
    exact StampStep.before h.deposit_stamp hu hx
  | inr u =>
    have hu : w'.withdrawalEpoch u = some x := hk
    show w.withdrawalEpoch u = some x
    exact StampStep.before h.withdrawal_stamp hu hx

/-- A post opens and closes no request. -/
theorem Change.requestEpoch_post (h : Change w now e w')
    (he : ∃ totalAssets overridden, e = .navPost totalAssets overridden) :
    w'.requestEpoch = w.requestEpoch := by
  obtain ⟨T, o, rfl⟩ := he
  cases h with
  | navPost _ h => exact rfl

/-- One step keeps every covered request at the price of its covering post. -/
theorem TimedStep.settles {s s' : World} (h0 : w₀.Fresh) (hc : 0 ≤ w₀.clock.val)
    (hr : Run TimedStep w₀ h s) (st : s.TimedStep tx s') (keep : KeepsPrice ⟨s, tx, s'⟩)
    (ih : ∀ k x, s.requestEpoch k = some x → x < s.vault.navEpoch →
      ∃ p, firstPostAfter x h = some p ∧ s.vault.navPerShare = p.post.vault.navPerShare)
    (hk : s'.requestEpoch k = some x) (hx : x < s'.vault.navEpoch) :
    ∃ p, firstPostAfter x (⟨s, tx, s'⟩ :: h) = some p ∧
      s'.vault.navPerShare = p.post.vault.navPerShare := by
  have hr' := TimedStep.run_step hr
  have wf := run_wellFormed h0 hr'
  have hch := process_change wf st.2
  cases htx : tx.isNavPost with
  | true =>
    have hpost := Tx.event_of_isNavPost htx
    obtain ⟨_, hnew, _⟩ := hch.posted hpost
    rw [hch.requestEpoch_post hpost] at hk
    by_cases hcov : x < s.vault.navEpoch
    · obtain ⟨p, hp, hprice⟩ := ih k x hk hcov
      exact ⟨p, firstPostAfter_cons_of_some hp, (keep htx ⟨k, x, hk, hcov⟩).trans hprice⟩
    · -- this is the covering post
      refine ⟨⟨s, tx, s'⟩, ?_, rfl⟩
      rw [firstPostAfter_cons_of_none (firstPostAfter_eq_none h0 hr' hcov), if_pos]
      rw [hnew] at hx
      simp only [htx, hx, decide_true, Bool.and_self]
  | false =>
    have hsame := hch.sameNav (Tx.event_ne_of_isNavPost htx)
    have hclocked := hch.clocked (run_clocked h0 hc hr) st.1
    have hne : x ≠ Vault.epoch tx.now := by
      rintro rfl
      have hle := hclocked.navEpoch
      rw [hch.clock_eq] at hle
      have hlt := BitVec.lt_def.1 hx
      omega
    rw [hsame.navEpoch] at hx
    obtain ⟨p, hp, hprice⟩ := ih k x (hch.requestEpoch_before hk hne) hx
    exact ⟨p, firstPostAfter_cons_of_some hp, hsame.navPerShare.trans hprice⟩

theorem run_settles (h0 : w₀.Fresh) (hc : 0 ≤ w₀.clock.val) (hr : Run TimedStep w₀ h w)
    (keep : ∀ q ∈ h, KeepsPrice q) (hk : w.requestEpoch k = some x)
    (hx : x < w.vault.navEpoch) :
    ∃ p, firstPostAfter x h = some p ∧ w.vault.navPerShare = p.post.vault.navPerShare := by
  induction hr generalizing k x with
  | nil =>
    obtain ⟨_, args, _, e⟩ := h0
    rw [e] at hx
    exact absurd (BitVec.lt_def.1 hx) (Nat.not_lt_zero _)
  | snoc hr st ih =>
    have hold : ∀ q ∈ _, KeepsPrice q := fun q hq => keep q (List.mem_cons_of_mem _ hq)
    exact TimedStep.settles h0 hc hr st (keep _ List.mem_cons_self)
      (fun k x hk hx => ih hold hk hx) hk hx

theorem keepsPrice_of_settles (h0 : w₀.Fresh) (hr : Run TimedStep w₀ h w)
    (settles : SettlesAtFirst w₀ h) : ∀ q ∈ h, KeepsPrice q := by
  intro q hq hpost ⟨k, x, hk, hx⟩
  obtain ⟨newer, older, rfl⟩ := List.append_of_mem hq
  obtain ⟨hpre, st, _⟩ := hr.split
  have hch := process_change (run_wellFormed h0 (TimedStep.run_step hpre)) st.2
  have he := Tx.event_of_isNavPost hpost
  obtain ⟨hlt, hnew, _⟩ := hch.posted he
  -- the request is open, and covered by the same post, before and after `q`
  obtain ⟨p, hp, hprice⟩ := settles (newer ++ [q]) older q.pre k x (by simp) hpre hk hx
  have hk' : q.post.requestEpoch k = some x := by rw [hch.requestEpoch_post he]; exact hk
  have hx' : x < q.post.vault.navEpoch := by
    have h1 := BitVec.lt_def.1 hlt
    have h2 := BitVec.lt_def.1 hx
    rw [hnew]
    exact BitVec.lt_def.2 (by omega)
  obtain ⟨p', hp', hprice'⟩ :=
    settles newer (q :: older) q.post k x rfl (hpre.snoc st) hk' hx'
  rw [firstPostAfter_cons_of_some hp] at hp'
  cases hp'
  exact hprice'.trans hprice.symm

/-- Every resolve of the history settled at the price of the covering post. -/
structure SettledAtFirst (h : List (Transition World Tx)) : Prop where
  deposit : ∀ newer t older u r, h = newer ++ t :: older → t.label.event = .depositSettle u →
    t.pre.depositRequests.lookup u = some r →
    ∃ p, firstPostAfter r.epoch older = some p ∧
      t.post.shareMint.supply = t.pre.shareMint.supply +
        sharesFor NAV_SCALE r.amount.toNat p.post.vault.navPerShare.toNat
  withdrawal : ∀ newer t older u r, h = newer ++ t :: older →
    t.label.event = .withdrawalSettle u → t.pre.withdrawalRequests.lookup u = some r →
    ∃ p, firstPostAfter r.epoch older = some p ∧
      t.post.idle + assetsFor NAV_SCALE r.shares.toNat p.post.vault.navPerShare.toNat = t.pre.idle

theorem settledAtFirst_of_settles (h0 : w₀.Fresh) (hr : Run TimedStep w₀ h w)
    (settles : SettlesAtFirst w₀ h) : SettledAtFirst h := by
  constructor
  · rintro newer t older u r rfl he found
    obtain ⟨hpre, st, _⟩ := hr.split
    have hch := process_change (run_wellFormed h0 (TimedStep.run_step hpre)) st.2
    rw [he] at hch
    obtain ⟨r', found', hlt, hminted⟩ := hch.depositSettle_minted
    rw [found] at found'
    cases found'
    obtain ⟨p, hp, hprice⟩ := settles (newer ++ [t]) older t.pre (.inl u) r.epoch (by simp) hpre
      (depositEpoch_of_lookup found) (BitVec.lt_def.2 hlt)
    rw [hprice] at hminted
    exact ⟨p, hp, hminted⟩
  · rintro newer t older u r rfl he found
    obtain ⟨hpre, st, _⟩ := hr.split
    have hch := process_change (run_wellFormed h0 (TimedStep.run_step hpre)) st.2
    rw [he] at hch
    obtain ⟨r', found', hlt, hpaid⟩ := hch.withdrawalSettle_paid
    rw [found] at found'
    cases found'
    obtain ⟨p, hp, hprice⟩ := settles (newer ++ [t]) older t.pre (.inr u) r.epoch (by simp) hpre
      (withdrawalEpoch_of_lookup found) (BitVec.lt_def.2 hlt)
    rw [hprice] at hpaid
    exact ⟨p, hp, hpaid⟩

/-- Covered requests resolve at the price of their covering post in every state of the
run exactly when no post changes the price while a covered request is open, and then
every resolve of the run settled at that price. -/
theorem settlement_price_iff (h0 : w₀.Fresh) (hc : 0 ≤ w₀.clock.val)
    (hr : Run TimedStep w₀ h w) :
    (SettlesAtFirst w₀ h ↔ ∀ q ∈ h, KeepsPrice q) ∧
    ((∀ q ∈ h, KeepsPrice q) → SettledAtFirst h) := by
  have hiff : SettlesAtFirst w₀ h ↔ ∀ q ∈ h, KeepsPrice q := by
    refine ⟨keepsPrice_of_settles h0 hr, ?_⟩
    intro keep newer older s k x he hs hk hx
    subst he
    exact run_settles h0 hc hs (fun q hq => keep q (List.mem_append_right _ hq)) hk hx
  exact ⟨hiff, fun keep => settledAtFirst_of_settles h0 hr (hiff.2 keep)⟩

theorem settlement_price_iff_sample :
    (SettlesAtFirst sample (sampleHistory 8) ↔ ∀ q ∈ sampleHistory 8, KeepsPrice q) ∧
    ((∀ q ∈ sampleHistory 8, KeepsPrice q) → SettledAtFirst (sampleHistory 8)) :=
  settlement_price_iff sample_fresh (by decide) sample_timed

/-! Bob's request is covered at a price of one; the next post raises the price, and the
resolve after it mints 55 shares instead of 100. -/

def lateTxs : List Tx := [
  (Instruction.depositRequestCreate 1000 (.ok ()) 0).sentBy alice 100,
  (Instruction.navUpdate 0).sentBy updater 14400,
  (Instruction.depositRequestResolve alice.key).sentBy bob 14401,
  (Instruction.depositTransfer (.wallet alice.key) (.wallet bob.key) 200).sentBy alice 14402,
  (Instruction.depositRequestCreate 100 (.ok ()) 0).sentBy bob 14403,
  (Instruction.navUpdate 1000).sentBy updater 28800,
  (Instruction.navUpdate 2000).sentBy updater 43200]

def lateResolve : Tx := (Instruction.depositRequestResolve bob.key).sentBy bob 43201

theorem late_resolve_moves_price : ¬ ∀ (w₀ w : World) (h : List (Transition World Tx)), w₀.Fresh →
    0 ≤ w₀.clock.val → Run TimedStep w₀ h w → SettledAtFirst h := by
  intro hall
  have hok : (runAll process sample [] (lateTxs ++ [lateResolve])).isOk = true := by rfl
  have hs := hall sample _ _ sample_fresh (by decide) (timed_final hok (by rfl))
  obtain ⟨p, hp, hminted⟩ := hs.deposit [] _ _ bob.key
    ⟨bob.key, sample.key, 100, 1, ⟨14403, by decide, by decide⟩, 0⟩ (history_snoc hok) (by rfl)
    (by rfl)
  have hprice : (firstPostAfter 1 (history process sample lateTxs)).map
      (fun p => p.post.vault.navPerShare) = some 1000000000 := by rfl
  rw [hp] at hprice
  have hnav : p.post.vault.navPerShare = 1000000000 := Option.some.inj hprice
  rw [hnav] at hminted
  exact absurd hminted (by decide)

end

end World

end HedgeVault
