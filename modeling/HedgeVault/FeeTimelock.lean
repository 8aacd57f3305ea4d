import HedgeVault.Lib.Timelock
import HedgeVault.Reachable

/-!
# The fee timelock

The manager's two fees are one delayed parameter (`Vault.feeLock`, ordered by
components): `vault_update` asks for a pair, a NAV post is the tick. `requestedFees`
reads the latest requested pair off the history alone, an omitted fee keeping its latest
requested value, and it is what `currentFees` of the vault returns
(`run_currentFees`).
-/

namespace HedgeVault

open Lib

namespace Vault

def fees (v : Vault) : U16 × U16 := (v.performanceFeeBps, v.managementFeeBps)

def feePair (fees : U16 × U16) : Nat × Nat := (fees.1.toNat, fees.2.toNat)

/-- The fees of the vault as a delayed parameter. -/
def feeLock (v : Vault) : Timelock (Nat × Nat) where
  live := feePair v.fees
  pending :=
    if v.feeEffectiveTs = 0 then none
    else some (feePair (v.pendingPerformanceFeeBps, v.pendingManagementFeeBps),
      v.feeEffectiveTs.val)

/-- All fees of the vault, live and pending, are at most 100%. -/
structure FeesBounded (v : Vault) : Prop where
  performance : v.performanceFeeBps ≤ MAX_BPS
  management : v.managementFeeBps ≤ MAX_BPS
  pendingPerformance : v.pendingPerformanceFeeBps ≤ MAX_BPS
  pendingManagement : v.pendingManagementFeeBps ≤ MAX_BPS

/-- The fields that hold the fees. -/
structure SameFees (v v' : Vault) : Prop where
  performanceFeeBps : v'.performanceFeeBps = v.performanceFeeBps
  managementFeeBps : v'.managementFeeBps = v.managementFeeBps
  pendingPerformanceFeeBps : v'.pendingPerformanceFeeBps = v.pendingPerformanceFeeBps
  pendingManagementFeeBps : v'.pendingManagementFeeBps = v.pendingManagementFeeBps
  feeEffectiveTs : v'.feeEffectiveTs = v.feeEffectiveTs

section

variable {v v' : Vault} {now : I64} {args : VaultUpdateArgs}

theorem SameFees.feeLock (h : SameFees v v') : v'.feeLock = v.feeLock := by
  obtain ⟨hp, hm, hpp, hpm, hts⟩ := h
  unfold Vault.feeLock fees
  rw [hp, hm, hpp, hpm, hts]

theorem SameFees.currentFees (h : SameFees v v') : v'.currentFees = v.currentFees := by
  obtain ⟨hp, hm, hpp, hpm, hts⟩ := h
  unfold Vault.currentFees
  rw [hp, hm, hpp, hpm, hts]

theorem SameFees.bounded (h : SameFees v v') (hb : v.FeesBounded) : v'.FeesBounded := by
  obtain ⟨hp, hm, hpp, hpm, _⟩ := h
  exact ⟨hp ▸ hb.performance, hm ▸ hb.management, hpp ▸ hb.pendingPerformance,
    hpm ▸ hb.pendingManagement⟩

theorem NavPosted.sameFees {args : NavUpdateArgs} {fs : NavFeeShares}
    (h : NavPosted v args v' fs) : SameFees (v.applyPendingFees args.now) v' := by
  rw [h.eq]
  exact ⟨rfl, rfl, rfl, rfl, rfl⟩

/-! ## The post -/

theorem applyPendingFees_step (v : Vault) (now : I64) :
    Timelock.Step FEE_INCREASE_DELAY.val v.feeLock (.tick now.val)
      (v.applyPendingFees now).feeLock := by
  unfold applyPendingFees
  split
  · next hc => exact .release (if_neg hc.1) hc.2
  · next hc =>
    apply Timelock.Step.wait
    intro x eta hp
    have hp' : (if v.feeEffectiveTs = 0 then none
      else some (feePair (v.pendingPerformanceFeeBps, v.pendingManagementFeeBps),
        v.feeEffectiveTs.val)) = some (x, eta) := hp
    split at hp'
    · cases hp'
    · next hne =>
      cases hp'
      exact Int.not_le.1 fun hle => hc ⟨hne, hle⟩

theorem applyPendingFees_currentFees (v : Vault) (now : I64) :
    (v.applyPendingFees now).currentFees = v.currentFees := by
  unfold applyPendingFees
  split
  · next hc => exact (if_neg hc.1).symm
  · rfl

theorem applyPendingFees_bounded (hb : v.FeesBounded) (now : I64) :
    (v.applyPendingFees now).FeesBounded := by
  have hzero : (0 : U16) ≤ MAX_BPS := by decide
  unfold applyPendingFees
  split
  · exact ⟨hb.pendingPerformance, hb.pendingManagement, hzero, hzero⟩
  · exact hb

/-! ## The request -/

/-- The pair an update asks for. -/
def askedFees (v : Vault) (args : VaultUpdateArgs) : U16 × U16 :=
  (args.performanceFeeBps.getD v.currentFees.1, args.managementFeeBps.getD v.currentFees.2)

theorem update_feeCases (h : v.update args now = .ok v') :
    (¬ args.asksFees ∧ SameFees v v') ∨
    (args.asksFees ∧ (v.askedFees args).1 ≤ MAX_BPS ∧ (v.askedFees args).2 ≤ MAX_BPS ∧
      ∃ v₁, v.setFees (v.askedFees args).1 (v.askedFees args).2 now = .ok v₁ ∧ SameFees v₁ v') := by
  obtain ⟨v₁, h1, _, hp, hm, hpp, hpm, hts⟩ := update_ok h
  have hsame : SameFees v₁ v' := ⟨hp, hm, hpp, hpm, hts⟩
  unfold askFees at h1
  split at h1
  · next hasks =>
    obtain ⟨hpmax, hmmax, hset⟩ := updateFees_ok h1
    exact .inr ⟨hasks, hpmax, hmmax, v₁, hset, hsame⟩
  · next hasks =>
    rw [pure_eq_ok] at h1
    subst h1
    exact .inl ⟨hasks, hsame⟩

theorem setFees_step (hnow : 0 ≤ now.val) {x : U16 × U16} (h : v.setFees x.1 x.2 now = .ok v') :
    Timelock.Step FEE_INCREASE_DELAY.val v.feeLock (.ask (feePair x) now.val) v'.feeLock ∧
    v'.currentFees = x := by
  rcases setFees_ok h with ⟨hp, hm, rfl⟩ | ⟨hraise, hts, e⟩
  · exact ⟨.lower ⟨hp, hm⟩, rfl⟩
  · have hne : v'.feeEffectiveTs ≠ 0 := by
      intro h0
      rw [h0] at hts
      have hsum : now.val + 604800 = 0 := hts
      omega
    have hlock : v'.feeLock = ⟨v.feeLock.live, some (feePair x, v'.feeEffectiveTs.val)⟩ := by
      unfold feeLock
      rw [if_neg hne, e]; rfl
    have hcurrent : v'.currentFees = x := by
      unfold currentFees
      rw [if_neg hne, e]; rfl
    rw [hlock, ← hts]
    exact ⟨.schedule fun hle => hraise ⟨hle.1, hle.2⟩, hcurrent⟩

theorem setFees_bounded (hb : v.FeesBounded) {p m : U16} (hp : p ≤ MAX_BPS) (hm : m ≤ MAX_BPS)
    (h : v.setFees p m now = .ok v') : v'.FeesBounded := by
  have hzero : (0 : U16) ≤ MAX_BPS := by decide
  rcases setFees_ok h with ⟨_, _, rfl⟩ | ⟨_, _, e⟩
  · exact ⟨hp, hm, hzero, hzero⟩
  · rw [e]
    exact ⟨hb.performance, hb.management, hp, hm⟩

end

end Vault

/-- Whether the step asks for a fee. -/
def Event.asksFees : Event → Prop
  | .vaultUpdate args => args.asksFees
  | _ => False

/-- The requested fees after the step. -/
def Event.requestFees : Event → U16 × U16 → U16 × U16
  | .vaultUpdate args, fees =>
    (args.performanceFeeBps.getD fees.1, args.managementFeeBps.getD fees.2)
  | _, fees => fees

/-- The move of a step on the fees of the vault `v`. -/
def Event.feeMove (v : Vault) (now : I64) : Event → TimelockMove (Nat × Nat)
  | .vaultUpdate args =>
    if args.asksFees then .ask (Vault.feePair (v.askedFees args)) now.val else .idle
  | .navPost _ _ => .tick now.val
  | _ => .idle

namespace World

/-- The latest requested fees of a history. -/
def requestedFees (w₀ : World) : List (Transition World Tx) → U16 × U16
  | [] => w₀.vault.fees
  | t :: h => t.label.event.requestFees (requestedFees w₀ h)

/-- One of the live fees is higher after the step. -/
def FeesRise (t : Transition World Tx) : Prop :=
  t.pre.vault.performanceFeeBps < t.post.vault.performanceFeeBps ∨
  t.pre.vault.managementFeeBps < t.post.vault.managementFeeBps

section

variable {w w' w₀ : World} {now : I64} {e : Event} {h : List (Transition World Tx)}

theorem Change.sameFees (h : Change w now e w') (he : e.touchesFees = false) :
    Vault.SameFees w.vault w'.vault := by
  rw [h.vault_eq he]
  exact ⟨rfl, rfl, rfl, rfl, rfl⟩

/-- A step moves the fees as a timelock, and `currentFees` to what it requests. -/
theorem Change.fee_step (hnow : 0 ≤ now.val) (h : Change w now e w') :
    Timelock.Step FEE_INCREASE_DELAY.val w.vault.feeLock (e.feeMove w.vault now)
      w'.vault.feeLock ∧
    w'.vault.currentFees = e.requestFees w.vault.currentFees := by
  have hsame := h.sameFees
  cases h with
  | navPost _ h =>
    have hfees := (Vault.updateNav_ok h).sameFees
    refine ⟨?_, ?_⟩
    · show Timelock.Step _ _ _ (Vault.feeLock _)
      rw [hfees.feeLock]
      exact Vault.applyPendingFees_step _ now
    · show Vault.currentFees _ = w.vault.currentFees
      rw [hfees.currentFees]
      exact Vault.applyPendingFees_currentFees _ now
  | @vaultUpdate args v h =>
    rcases Vault.update_feeCases h with ⟨hasks, hfees⟩ | ⟨hasks, _, _, v₁, hset, hfees⟩
    · refine ⟨?_, ?_⟩
      · show Timelock.Step _ _ (if args.asksFees then _ else _) v.feeLock
        rw [if_neg hasks, hfees.feeLock]
        exact .idle
      · show v.currentFees = (w.vault.askedFees args)
        obtain ⟨hp, hm⟩ := not_or.1 hasks
        unfold Vault.askedFees
        rw [hfees.currentFees, Option.not_isSome_iff_eq_none.1 hp,
          Option.not_isSome_iff_eq_none.1 hm]; rfl
    · obtain ⟨hstep, hcurrent⟩ := Vault.setFees_step hnow (x := w.vault.askedFees args) hset
      refine ⟨?_, ?_⟩
      · show Timelock.Step _ _ (if args.asksFees then _ else _) v.feeLock
        rw [if_pos hasks, hfees.feeLock]
        exact hstep
      · show v.currentFees = (w.vault.askedFees args)
        rw [hfees.currentFees, hcurrent]
  | _ =>
    have hfees := hsame rfl
    refine ⟨?_, hfees.currentFees⟩
    rw [hfees.feeLock]
    exact .idle

theorem Change.feesBounded (hb : w.vault.FeesBounded) (h : Change w now e w') :
    w'.vault.FeesBounded := by
  have hsame := h.sameFees
  cases h with
  | navPost _ h =>
    exact (Vault.updateNav_ok h).sameFees.bounded (Vault.applyPendingFees_bounded hb now)
  | vaultUpdate h =>
    rcases Vault.update_feeCases h with ⟨_, hfees⟩ | ⟨_, hp, hm, v₁, hset, hfees⟩
    · exact hfees.bounded hb
    · exact hfees.bounded (Vault.setFees_bounded hb hp hm hset)
  | _ => exact (hsame rfl).bounded hb

/-! ## Runs -/

theorem TimedStep.change (h0 : w₀.Fresh) (hc : 0 ≤ w₀.clock.val) (hr : Run TimedStep w₀ h w)
    {tx : Tx} (st : w.TimedStep tx w') : 0 ≤ tx.now.val ∧ Change w tx.now tx.event w' :=
  ⟨(run_clocked h0 hc hr).nonneg.trans st.1,
    process_change (run_wellFormed h0 (TimedStep.run_step hr)) st.2⟩

theorem Fresh.currentFees (h0 : w₀.Fresh) : w₀.vault.currentFees = w₀.vault.fees := by
  obtain ⟨_, args, _, e⟩ := h0
  rw [e]; rfl

/-- The vault keeps the latest requested fees. -/
theorem run_currentFees (h0 : w₀.Fresh) (hc : 0 ≤ w₀.clock.val) (hr : Run TimedStep w₀ h w) :
    w.vault.currentFees = requestedFees w₀ h := by
  induction hr with
  | nil => exact h0.currentFees
  | @snoc h s s' tx hr st ih =>
    obtain ⟨hnow, hch⟩ := TimedStep.change h0 hc hr st
    rw [(hch.fee_step hnow).2, ih]; rfl

/-- The step of the fees. -/
def feeTransition (t : Transition World Tx) :
    Transition (Timelock (Nat × Nat)) (TimelockMove (Nat × Nat)) :=
  ⟨t.pre.vault.feeLock, t.label.event.feeMove t.pre.vault t.label.now, t.post.vault.feeLock⟩

theorem run_feeLock (h0 : w₀.Fresh) (hc : 0 ≤ w₀.clock.val) (hr : Run TimedStep w₀ h w) :
    Run (Timelock.Step FEE_INCREASE_DELAY.val) w₀.vault.feeLock (h.map feeTransition)
      w.vault.feeLock := by
  induction hr with
  | nil => exact .nil
  | snoc hr st ih =>
    obtain ⟨hnow, hch⟩ := TimedStep.change h0 hc hr st
    exact ih.snoc (hch.fee_step hnow).1

theorem Event.feeMove_eq_tick {v : Vault} {s : Int} (he : e.feeMove v now = .tick s) :
    ∃ totalAssets overridden, e = .navPost totalAssets overridden := by
  cases e with
  | navPost T o => exact ⟨T, o, rfl⟩
  | vaultUpdate args =>
    simp only [Event.feeMove] at he
    split at he <;> cases he
  | _ => cases he

theorem Event.feeMove_eq_ask {v : Vault} {x : Nat × Nat} {s : Int}
    (he : e.feeMove v now = .ask x s) : e.asksFees ∧ now.val = s := by
  cases e with
  | vaultUpdate args =>
    simp only [Event.feeMove] at he
    split at he
    · next hasks => cases he; exact ⟨hasks, rfl⟩
    · cases he
  | _ => cases he

theorem Event.not_asksFees {v : Vault} (he : ∀ x s, e.feeMove v now ≠ .ask x s) :
    ¬ e.asksFees := by
  cases e with
  | vaultUpdate args => exact fun hasks => he _ _ (if_pos hasks)
  | _ => exact id

/-- The last request of the fees is the last step that asks for a fee. -/
theorem lastAsk_feeTransition {s : Int} (hs : Timelock.lastAsk (h.map feeTransition) = some s) :
    ∃ recent asked older, h = recent ++ asked :: older ∧ asked.label.event.asksFees ∧
      asked.label.now.val = s ∧ ∀ u ∈ recent, ¬ u.label.event.asksFees := by
  induction h with
  | nil => cases hs
  | cons t h ih =>
    have hcons : (∀ x s, t.label.event.feeMove t.pre.vault t.label.now ≠ .ask x s) →
        Timelock.lastAsk (h.map feeTransition) = some s →
        ∃ recent asked older, t :: h = recent ++ asked :: older ∧ asked.label.event.asksFees ∧
          asked.label.now.val = s ∧ ∀ u ∈ recent, ¬ u.label.event.asksFees := by
      intro hne hold
      obtain ⟨recent, asked, older, rfl, hasked, hnow, hrecent⟩ := ih hold
      refine ⟨t :: recent, asked, older, rfl, hasked, hnow, ?_⟩
      intro u hu
      rcases List.mem_cons.1 hu with rfl | hu
      · exact Event.not_asksFees hne
      · exact hrecent u hu
    simp only [List.map_cons, feeTransition, Timelock.lastAsk] at hs
    split at hs
    · next hm =>
      obtain ⟨hasks, hnow⟩ := Event.feeMove_eq_ask hm
      cases hs
      exact ⟨[], t, h, rfl, hasks, hnow, fun u hu => by cases hu⟩
    · next hm => exact hcons (fun x s hx => by rw [hm] at hx; cases hx) hs
    · next hm => exact hcons (fun x s hx => by rw [hm] at hx; cases hx) hs

theorem Fresh.feeLock_pending (h0 : w₀.Fresh) : w₀.vault.feeLock.pending = none := by
  obtain ⟨_, args, _, e⟩ := h0
  rw [e]; rfl

/-- What is pending is what `currentFees` reads. -/
theorem currentFees_of_pending {v : Vault} {x : U16 × U16} {eta : Int}
    (hp : v.feeLock.pending = some (Vault.feePair x, eta)) : v.currentFees = x := by
  have hp' : (if v.feeEffectiveTs = 0 then none
    else some (Vault.feePair (v.pendingPerformanceFeeBps, v.pendingManagementFeeBps),
      v.feeEffectiveTs.val)) = some (Vault.feePair x, eta) := hp
  split at hp'
  · cases hp'
  · next hne =>
    have hpair := congrArg Prod.fst (Option.some.inj hp')
    have hfst : v.pendingPerformanceFeeBps.toNat = x.1.toNat := congrArg Prod.fst hpair
    have hsnd : v.pendingManagementFeeBps.toNat = x.2.toNat := congrArg Prod.snd hpair
    unfold Vault.currentFees
    rw [if_neg hne, BitVec.eq_of_toNat_eq hfst, BitVec.eq_of_toNat_eq hsnd]

/-- The step that raises a fee. -/
theorem FeesRise.raised (h0 : w₀.Fresh) (hc : 0 ≤ w₀.clock.val) (hr : Run TimedStep w₀ h w)
    {tx : Tx} (st : w.TimedStep tx w') (hrise : FeesRise ⟨w, tx, w'⟩) :
    (∃ totalAssets overridden, tx.event = .navPost totalAssets overridden) ∧
    w'.vault.fees = requestedFees w₀ h ∧
    ∃ recent asked older, h = recent ++ asked :: older ∧ asked.label.event.asksFees ∧
      asked.label.now.val + FEE_INCREASE_DELAY.val ≤ tx.now.val ∧
      ∀ u ∈ recent, ¬ u.label.event.asksFees := by
  obtain ⟨hnow, hch⟩ := TimedStep.change h0 hc hr st
  have hraise : ¬ w'.vault.feeLock.live ≤ w.vault.feeLock.live := by
    rintro ⟨hp, hm⟩
    rcases hrise with hlt | hlt
    · exact absurd hlt (Nat.not_lt.2 hp)
    · exact absurd hlt (Nat.not_lt.2 hm)
  have hstep := (hch.fee_step hnow).1
  obtain ⟨s, eta, htick, hpending, hdue⟩ := hstep.raise hraise
  obtain ⟨asked, hlast, hdelay⟩ :=
    Timelock.run_pending h0.feeLock_pending (run_feeLock h0 hc hr) hpending
  obtain ⟨recent, t, older, rfl, hasks, hat, hrecent⟩ := lastAsk_feeTransition hlast
  have hpost := Event.feeMove_eq_tick htick
  have hs : tx.now.val = s := by
    obtain ⟨T, o, he⟩ := hpost
    rw [he] at htick
    cases htick; rfl
  refine ⟨hpost, ?_, recent, t, older, rfl, hasks, by omega, hrecent⟩
  rw [← run_currentFees h0 hc hr]
  exact (currentFees_of_pending hpending).symm

theorem genesis_feesBounded {key : Pubkey} {config : Config} {managers : Finset Pubkey}
    {authority : Signer} {args : VaultInitializeArgs} {verdict : Result Unit}
    {m : { m : SplMint // m.amount .escrow = 0 }}
    (h : genesis now key config managers authority args verdict m = .ok w₀) :
    w₀.vault.FeesBounded := by
  obtain ⟨⟨_, args, _, e⟩, hp, hm⟩ := genesis_fresh h
  refine ⟨hp, hm, ?_, ?_⟩
  · rw [e]; exact Nat.zero_le _
  · rw [e]; exact Nat.zero_le _

theorem run_feesBounded (h0 : w₀.Fresh) (hb : w₀.vault.FeesBounded) (hr : Run Step w₀ h w) :
    w.vault.FeesBounded := by
  have hboth : w.WellFormed ∧ w.vault.FeesBounded := by
    refine hr.inv (I := fun w => w.WellFormed ∧ w.vault.FeesBounded) ⟨h0.wellFormed, hb⟩
      fun _ _ _ hi st => ⟨st.wellFormed hi.1, ?_⟩
    exact (process_change hi.1 st).feesBounded hi.2
  exact hboth.2

/-! ## Main result -/

/-- From a new vault on, all fees are at most 100%, and a step that raises a live fee is a
NAV post: the latest requested pair goes live, at least `FEE_INCREASE_DELAY` after the last
update that asked for a fee, and the post charges the fees that were live before it. -/
theorem fee_timelock {clock : I64} {key : Pubkey} {config : Config} {managers : Finset Pubkey}
    {authority : Signer} {args : VaultInitializeArgs} {verdict : Result Unit}
    {m : { m : SplMint // m.amount .escrow = 0 }}
    (h0 : genesis clock key config managers authority args verdict m = .ok w₀)
    (hc : 0 ≤ w₀.clock.val) (hr : Run TimedStep w₀ h w) :
    w.vault.FeesBounded ∧
    ∀ newer t older, h = newer ++ t :: older → FeesRise t →
      t.post.vault.fees = requestedFees w₀ older ∧
      (∃ recent asked before, older = recent ++ asked :: before ∧
        asked.label.event.asksFees ∧ (∀ u ∈ recent, ¬ u.label.event.asksFees) ∧
        asked.label.now.val + FEE_INCREASE_DELAY.val ≤ t.label.now.val) ∧
      ∃ totalAssets overridden, t.label.event = .navPost totalAssets overridden ∧
        t.post.vault.unclaimedManagerFeeShares.toNat =
          t.pre.vault.unclaimedManagerFeeShares.toNat +
            (t.pre.postInputs t.label.now totalAssets overridden).managerFeeShares ∧
        t.post.vault.unclaimedPlatformFeeShares.toNat =
          t.pre.vault.unclaimedPlatformFeeShares.toNat +
            (t.pre.postInputs t.label.now totalAssets overridden).platformFeeShares := by
  have hfresh := (genesis_fresh h0).1
  refine ⟨run_feesBounded hfresh (genesis_feesBounded h0) (TimedStep.run_step hr), ?_⟩
  rintro newer t older rfl hrise
  obtain ⟨hpre, st, _⟩ := hr.split
  obtain ⟨⟨T, o, he⟩, hfees, recent, asked, before, hold, hasks, hdelay, hrecent⟩ :=
    hrise.raised hfresh hc hpre st
  have hch := (TimedStep.change hfresh hc hpre st).2
  refine ⟨hfees, ⟨recent, asked, before, hold, hasks, hrecent, hdelay⟩, T, o, he, ?_⟩
  rw [he] at hch
  exact hch.accrued

/-! The manager asks for a higher management fee, then for a higher performance fee, and the
first NAV a week later makes the pair live. -/

def askFees (performance management : Option U16) : Instruction :=
  .vaultUpdate ⟨performance, management, none, none, none, none, none, none⟩

def askTxs : List Tx := sampleTxs.take 3 ++ [
  (askFees none (some 300)).sentBy manager 20000,
  (askFees (some 2500) none).sentBy manager 30000]

def feePost : Tx := (Instruction.navUpdate 1000).sentBy updater 640000

theorem sample_genesis : genesis 0 sample.key { sampleConfig with nextVaultId := 0 } {manager.key}
    manager ⟨1000000, 1, 1, 2000, 0⟩ (.ok ()) ⟨sample.depositMint, by decide⟩ = .ok sample := by
  rfl

theorem fee_timelock_sample : (final process sample (askTxs ++ [feePost])).vault.FeesBounded ∧
    (final process sample (askTxs ++ [feePost])).vault.fees =
      requestedFees sample (history process sample askTxs) := by
  have hok : (runAll process sample [] (askTxs ++ [feePost])).isOk = true := by rfl
  obtain ⟨hbounded, hrise⟩ := fee_timelock sample_genesis (by decide)
    (timed_final hok (by rfl))
  exact ⟨hbounded, (hrise [] _ _ (history_snoc hok) (.inl (by decide))).1⟩

example : requestedFees sample (history process sample askTxs) = (2500, 300) := by rfl

end

end World

end HedgeVault
