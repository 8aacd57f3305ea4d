import HedgeVault.Redemption
import HedgeVault.VaultRun

/-!
# Every open vault

The custody of an open vault came about in a run of its own (`run_follows`), and in a run of the
protocol at clocks that do not go back its world went through one of the same kind
(`run_vault_timed`). So what was shown of the world of one vault holds of all of them at once
(`open_vaults_sound`, `vault_withdrawals_open`), whatever happens to the others.
-/

namespace HedgeVault

open Lib

namespace World

/-- A run at clocks that do not go back. -/
theorem run_timed {w₀ : World} {h : List (Transition World Tx)} (h0 : w₀.Fresh)
    (hr : Run Step w₀ h w) (hfirst : ∀ tx ∈ labels h, w₀.clock.val ≤ tx.now.val)
    (hsorted : (labels h).Pairwise fun tx older => older.now.val ≤ tx.now.val) :
    Run TimedStep w₀ h w := by
  unfold labels at hfirst hsorted
  induction hr with
  | nil => exact .nil
  | @snoc h w w' tx hr st ih =>
    rw [List.map_cons] at hfirst hsorted
    obtain ⟨hlast, hsorted⟩ := List.pairwise_cons.1 hsorted
    refine (ih (fun a ha => hfirst a (List.mem_cons_of_mem _ ha)) hsorted).snoc ⟨?_, st⟩
    cases hr with
    | nil => exact hfirst tx List.mem_cons_self
    | @snoc h v _ a hr st =>
      have hclock : w.clock = a.now := (process_change (run_wellFormed h0 hr) st).clock_eq
      rw [hclock]
      exact hlast a List.mem_cons_self

end World

namespace Custody

variable {V : Venues}

theorem now_of_shown {t : Transition Custody CustodyTx} {a : Tx} (ha : a ∈ shownTxs V t) :
    a.now = t.label.now := by
  unfold shownTxs at ha
  rw [List.mem_reverse] at ha
  obtain ⟨_, _, rfl⟩ := List.mem_map.1 ha
  rfl

end Custody

namespace Protocol

section

variable {D : Deployment} {id : U64} {mint : Pubkey} {p p' p₀ : Protocol} {tx : ProtocolTx D}
  {c c' c₀ : Custody} {h : List (Transition Protocol (ProtocolTx D))} {now : I64}
  {signer : D.Wallet} {o : OpenVault}

/-! ## At clocks that do not go back -/

/-- The clock of the transactions does not go back, newest first. -/
def Ordered (h : List (Transition Protocol (ProtocolTx D))) : Prop :=
  (labels h).Pairwise fun tx older => older.now.val ≤ tx.now.val

instance (h : List (Transition Protocol (ProtocolTx D))) : Decidable (Ordered h) :=
  inferInstanceAs (Decidable (List.Pairwise _ _))

/-- The world of the vault in a run at such clocks, up to the stamps of its records. -/
theorem run_vault_timed (h0 : p₀.vaults = ∅) (hr : Run (Step D) p₀ h p) (hord : Ordered h)
    (ho : p.vaults.lookup id = some o) :
    ∃ w₀ h₂ u c, w₀.Fresh ∧ (∃ tx ∈ labels h, w₀.clock = tx.now) ∧ Run World.TimedStep w₀ h₂ u ∧
      World.Restamped c.world u ∧ Sees D id o.depositMint p c := by
  obtain ⟨newer, t, older, c₀, h₁, c, segments, rfl, hopens, hr₁, hlabels, hsegments, hs⟩ :=
    run_follows h0 hr ho
  obtain ⟨h₂, u, hr₂, hshown, hstamps⟩ := Custody.run_follows hr₁
  unfold Ordered labels at hord
  rw [List.map_append, List.map_cons] at hord
  obtain ⟨hnewer, _, hcross⟩ := List.pairwise_append.1 hord
  have hmem : t.label ∈ labels (newer ++ t :: older) :=
    List.mem_map_of_mem (List.mem_append_right newer List.mem_cons_self)
  -- a transaction, its segment and what the world is shown of it are all at one time
  have hnow : List.Forall₂ (fun tx txs => ∀ a ∈ txs, a.now.val = tx.now.val) (labels newer)
      segments := hsegments.imp fun _ _ happears a ha =>
    congrArg I64.val (ProtocolTx.now_of_appearsAs happears a ha)
  have hnow₁ : List.Forall₂
      (fun t txs => ∀ a ∈ txs, a.now.val = t.label.now.val) h₁
      (h₁.map (Custody.shownTxs (D.venues id o.depositMint))) := by
    rw [List.forall₂_map_right_iff, List.forall₂_same]
    intro t _ a ha
    rw [Custody.now_of_shown ha]
  rw [List.flatMap_def] at hshown
  refine ⟨c₀.world, h₂, u, c, hopens.fresh, ⟨t.label, hmem, hopens.clock⟩, ?_, hstamps, hs⟩
  apply World.run_timed hopens.fresh hr₂
  · intro a ha
    rw [hshown] at ha
    obtain ⟨t₁, ht₁, ha⟩ := rank_of_mem_flatten hnow₁ ha
    have hlabel : t₁.label ∈ segments.flatten := hlabels ▸ List.mem_map_of_mem ht₁
    obtain ⟨tx, htx, hrank⟩ := rank_of_mem_flatten hnow hlabel
    rw [ha, hrank, hopens.clock]
    exact hcross tx htx t.label List.mem_cons_self
  · rw [hshown]
    apply pairwise_flatten (r := fun i j => j ≤ i) (fun i => le_refl i) hnow₁
    have hsorted := pairwise_flatten (r := fun i j : Int => j ≤ i) (fun i => le_refl i) hnow hnewer
    rw [← hlabels, labels, List.pairwise_map] at hsorted
    exact hsorted

/-! ## Ids of vaults -/

/-- The ids of the open vaults were handed out. -/
def Numbered (p : Protocol) : Prop :=
  ∀ id o, p.vaults.lookup id = some o → id.toNat < p.nextVaultId

theorem Step.nextVaultId_le (st : p.Step D tx p') : p.nextVaultId ≤ p'.nextVaultId := by
  cases hc : p.config with
  | none =>
    have hzero : p.nextVaultId = 0 := by
      unfold nextVaultId
      rw [hc]
      rfl
    omega
  | some a =>
    have hserial := (Step.configStep st).serial (hc ▸ rfl)
    unfold Serial at hserial
    split at hserial
    · obtain ⟨hm, hnext⟩ := hserial
      have hm' : _ = p.nextVaultId := hm
      have hnext' : p'.nextVaultId = _ + 1 := hnext
      omega
    · have hnext : p'.nextVaultId = p.nextVaultId := hserial
      omega

theorem Step.numbered (hn : p.Numbered) (st : p.Step D tx p') : p'.Numbered := by
  have hle := Step.nextVaultId_le st
  intro id o ho
  cases Step.vaultsStep st with
  | @opened args verdict mint config w hix h =>
    obtain ⟨hinc, _⟩ := genesis_ok h.genesis
    obtain ⟨hnext, _⟩ := incrementVaultId_ok hinc
    have hp : p.nextVaultId = config.nextVaultId.toNat := nextVaultId_of h.found
    have hc' : p'.config = some (.current w.config) := by rw [h.after]
    have hp' : p'.nextVaultId = w.config.nextVaultId.toNat := nextVaultId_of hc'
    rw [h.after] at ho
    by_cases hid : id = config.nextVaultId
    · subst hid
      omega
    · have hlt := hn id o ((Finmap.lookup_insert_of_ne _ hid).symm.trans ho)
      omega
  | closed hix h =>
    subst h
    exact (hn id o (lookup_of_erase ho)).trans_le hle
  | @ran other ix o' c c' hix h =>
    rw [h.after] at ho
    by_cases hid : id = other
    · subst hid
      exact (hn id o' h.found).trans_le hle
    · exact (hn id o ((Finmap.lookup_insert_of_ne _ hid).symm.trans ho)).trans_le hle
  | moved hix hop hrun h =>
    subst h
    exact (hn id o ho).trans_le hle
  | config _ _ hvaults _ =>
    rw [hvaults] at ho
    exact (hn id o ho).trans_le hle

/-- A vault that is gone does not come back. -/
theorem Step.gone (hlt : id.toNat < p.nextVaultId) (hgone : p.vaults.lookup id = none)
    (st : p.Step D tx p') : p'.vaults.lookup id = none := by
  cases Step.vaultsStep st with
  | @opened args verdict mint config w hix h =>
    have hp : p.nextVaultId = config.nextVaultId.toNat := nextVaultId_of h.found
    have hne : id ≠ config.nextVaultId := by
      rintro rfl
      omega
    rw [h.after]
    exact (Finmap.lookup_insert_of_ne _ hne).trans hgone
  | closed hix h =>
    subst h
    cases hl : (p.vaults.erase _).lookup id with
    | none => rfl
    | some o => exact absurd (hgone.symm.trans (lookup_of_erase hl)) nofun
  | @ran other ix o' c c' hix h =>
    have hne : id ≠ other := by
      rintro rfl
      exact absurd (hgone.symm.trans h.found) nofun
    rw [h.after]
    exact (Finmap.lookup_insert_of_ne _ hne).trans hgone
  | moved hix hop hrun h =>
    subst h
    exact hgone
  | config _ _ hvaults _ =>
    rw [hvaults]
    exact hgone

theorem run_numbered (h0 : p₀.vaults = ∅) (hr : Run (Step D) p₀ h p) : p.Numbered := by
  refine hr.inv (I := Numbered) ?_ fun _ _ _ hn st => Step.numbered hn st
  intro id o ho
  rw [h0, Finmap.lookup_empty] at ho
  cases ho

theorem run_gone (hlt : id.toNat < p₀.nextVaultId) (hgone : p₀.vaults.lookup id = none)
    (hr : Run (Step D) p₀ h p) : p.vaults.lookup id = none := by
  have hI := hr.inv (I := fun p => id.toNat < p.nextVaultId ∧ p.vaults.lookup id = none)
    ⟨hlt, hgone⟩ fun p tx p' hp st =>
      ⟨hp.1.trans_le (Step.nextVaultId_le st), Step.gone hp.1 hp.2 st⟩
  exact hI.2

/-! ## Every open vault -/

/-- After every run from a protocol without vaults, all open vaults are sound at once, each at
its own address and under an id that was handed out; the id of a closed vault stays closed. -/
theorem open_vaults_sound (h0 : p₀.vaults = ∅) (hr : Run (Step D) p₀ h p) :
    (∀ id o, p.vaults.lookup id = some o →
      (p.viewed D id o).world.Sound ∧ (p.viewed D id o).world.Census ∧
      o.custody.world.key = D.vaultAddress id ∧ o.custody.world.vault.id = id ∧
      id.toNat < p.nextVaultId) ∧
    ∀ newer t older id, h = newer ++ t :: older → t.label.ix = .vaultClose id →
      p.vaults.lookup id = none := by
  refine ⟨?_, ?_⟩
  · intro id o ho
    obtain ⟨_, t, _, c₀, h₂, c, _, _, hopens, hr₂, _, _, hs⟩ := run_follows h0 hr ho
    obtain ⟨_, hsound, hcensus, hsame⟩ := Custody.run_refines hopens.fresh hr₂
    rw [(hs.eq_under ho).2] at hsound hcensus hsame
    refine ⟨?_, ⟨hcensus.count, hcensus.stored, hcensus.distinct⟩, hsame.key.trans hopens.key,
      hsame.id.trans hopens.vaultId, run_numbered h0 hr id o ho⟩
    exact ⟨⟨hsound.wellFormed.deposit, hsound.wellFormed.withdrawal⟩, hsound.solvent,
      hsound.pendingDeposits, hsound.depositEscrow, hsound.pendingShares, hsound.shareEscrow⟩
  · intro newer t older id he hix
    subst he
    obtain ⟨hpre, st, hrest⟩ := hr.split
    have hn := run_numbered h0 hpre
    have hle := Step.nextVaultId_le st
    unfold Step process at st
    rw [hix] at st
    simp only [vaultClose, bind_eq_ok, pure_eq_ok, World.load_eq_ok] at st
    obtain ⟨o, ho, _, _, hpost⟩ := st
    refine run_gone ((hn id o ho).trans_le hle) ?_ hrest
    rw [← hpost]
    exact Finmap.lookup_erase _ _

/-- A transaction that resolves a withdrawal is accepted as the world of the vault accepts it. -/
theorem resolve_accepted_iff (hs : Sees D id o.depositMint p c) (ho : p.vaults.lookup id = some o)
    (u : Pubkey) (resolver : D.Wallet) (now : I64) :
    (∃ p', p.Step D
      ⟨resolver, now, .onVault id ⟨.program (.withdrawalRequestResolve u), rfl⟩⟩ p') ↔
      ∃ w', World.withdrawalRequestResolve { c.world with clock := now } u = .ok w' := by
  let c₁ : Custody := { p.viewed D id o with world := { (p.viewed D id o).world with
    config := c.world.config, managers := p.managers } }
  have hclock : { c₁.world with clock := now } = { c.world with clock := now } := by
    rw [(hs.eq_under ho).2]
    rfl
  have hloaded : p.custodyFor D id o (.program (.withdrawalRequestResolve u)) = .ok c₁ := by
    simp only [custodyFor, CustodyInstruction.loadsConfig, Instruction.loadsConfig, if_true,
      loadConfig_eq_ok.2 hs.config]
    rfl
  constructor
  · rintro ⟨p', st⟩
    obtain ⟨o', c', c'', hran⟩ := onVault_eq_ok.1 st
    obtain rfl := Option.some.inj (ho.symm.trans hran.found)
    obtain rfl := Except.ok.inj (hloaded.symm.trans hran.loaded)
    obtain ⟨w', hexecuted, _⟩ := Custody.execute_ok hran.step
    have hw : World.withdrawalRequestResolve { c₁.world with clock := now } u = .ok w' :=
      hexecuted.executed
    rw [hclock] at hw
    exact ⟨w', hw⟩
  · rintro ⟨w', hw⟩
    rw [← hclock] at hw
    have hstep : Custody.Step (D.venues id o.depositMint) c₁
        ⟨resolver.toSigner, now, .program (.withdrawalRequestResolve u)⟩ { c₁ with world := w' } :=
      Custody.program_step rfl hw
    exact ⟨_, onVault_eq_ok.2 ⟨o, c₁, _, ho, hloaded, fun _ hno => absurd hno List.not_mem_nil,
      hstep, rfl, rfl⟩⟩

/-- Whatever happens to the other vaults: a withdrawal request for which a NAV of a later epoch
was posted is paid unless withdrawals are paused or the idle balance is below the payout. -/
theorem vault_withdrawals_open (h0 : p₀.vaults = ∅) (hr : Run (Step D) p₀ h p)
    (hord : Ordered h) (hnonneg : ∀ tx ∈ labels h, 0 ≤ tx.now.val)
    (ho : p.vaults.lookup id = some o) {u : Pubkey} {r : WithdrawalRequest}
    (found : o.custody.world.withdrawalRequests.lookup u = some r)
    (hres : r.epoch < o.custody.world.vault.navEpoch) (resolver : D.Wallet) (now : I64) :
    (∃ p', p.Step D
      ⟨resolver, now, .onVault id ⟨.program (.withdrawalRequestResolve u), rfl⟩⟩ p') ↔
      p.status ≠ some .paused ∧ o.custody.world.vault.status ≠ .paused ∧
      ¬ o.custody.world.vault.isWithdrawalPaused ∧
      assetsFor NAV_SCALE r.shares.toNat o.custody.world.vault.navPerShare.toNat ≤
        (p.viewed D id o).world.idle := by
  obtain ⟨w₀, h₂, v, c, hfresh, ⟨tx, htx, hclock⟩, hr₂, hstamps, hs⟩ :=
    run_vault_timed h0 hr hord ho
  have hsound := hstamps.sound (World.run_sound hfresh (World.TimedStep.run_step hr₂))
  have hcov := World.run_window_covered hfresh (hclock ▸ hnonneg tx htx) hr₂
  rw [hstamps.eq] at hcov
  have hunder := (hs.eq_under ho).2
  have hfound : c.world.withdrawalRequests.lookup u = some r := by
    rw [hunder]
    exact found
  have hlater : r.epoch < c.world.vault.navEpoch := by
    rw [hunder]
    exact hres
  have haccepted := World.withdrawalRequestResolve_accepted_iff (hsound.atClock now) hcov hfound
    hlater
  have hstatus : p.status = some c.world.config.status := status_of hs.config
  rw [resolve_accepted_iff hs ho, hstatus, ne_eq, Option.some.injEq]
  refine haccepted.trans ?_
  rw [hunder]
  exact ⟨fun ⟨⟨h1, h2, h3⟩, h4⟩ => ⟨h1, h2, h3, h4⟩, fun ⟨h1, h2, h3, h4⟩ => ⟨⟨h1, h2, h3⟩, h4⟩⟩

end

/-! ## Closing one of the vaults -/

open World (updater manager alice bob)

/-- At the end the manager closes the second vault. -/
def closingTxs : List (ProtocolTx sampleDeployment) :=
  vaultTxs ++ [⟨managerWallet, I64.literal 28801 rfl, .vaultClose 1⟩]

theorem open_vaults_sound_sample :
    (((vaultsAfter closingTxs).viewed sampleDeployment 0
        (firstVault (vaultsAfter closingTxs))).world.Sound ∧
      ((vaultsAfter closingTxs).viewed sampleDeployment 0
        (firstVault (vaultsAfter closingTxs))).world.Census ∧
      (firstVault (vaultsAfter closingTxs)).custody.world.key = sampleDeployment.vaultAddress 0 ∧
      (firstVault (vaultsAfter closingTxs)).custody.world.vault.id = 0 ∧
      (0 : U64).toNat < (vaultsAfter closingTxs).nextVaultId) ∧
    (vaultsAfter closingTxs).vaults.lookup 1 = none := by
  have hr : Run (Step sampleDeployment) sample (vaultHistory closingTxs)
      (vaultsAfter closingTxs) := run_final (by rfl)
  have hall := open_vaults_sound (rfl : sample.vaults = ∅) hr
  exact ⟨hall.1 0 _ (by rfl), hall.2 [] _ _ 1 rfl rfl⟩

theorem vault_withdrawals_open_sample :
    (∃ p', (vaultsAfter vaultTxs).Step sampleDeployment ⟨bobWallet, I64.literal 28801 rfl,
      .onVault 0 ⟨.program (.withdrawalRequestResolve alice.key), rfl⟩⟩ p') ↔
      (vaultsAfter vaultTxs).status ≠ some .paused ∧
      (firstVault (vaultsAfter vaultTxs)).custody.world.vault.status ≠ .paused ∧
      ¬ (firstVault (vaultsAfter vaultTxs)).custody.world.vault.isWithdrawalPaused ∧
      assetsFor NAV_SCALE 40
          (firstVault (vaultsAfter vaultTxs)).custody.world.vault.navPerShare.toNat ≤
        ((vaultsAfter vaultTxs).viewed sampleDeployment 0
          (firstVault (vaultsAfter vaultTxs))).world.idle :=
  vault_withdrawals_open (h := vaultHistory vaultTxs) (rfl : sample.vaults = ∅)
    (run_final (by rfl)) (by decide) (by decide) (o := firstVault (vaultsAfter vaultTxs)) (by rfl)
    (r := ⟨alice.key, sampleDeployment.vaultAddress 0, 40, 1, I64.literal 14400 rfl, 0⟩) (by rfl)
    (by decide) bobWallet (I64.literal 28801 rfl)

end Protocol

end HedgeVault
