import HedgeVault.SharedLedgers

/-!
# One vault in the protocol

`seenBy id` is a protocol transaction as the vault `id` sees it: an instruction on the vault
itself or one on the config, among them the opening of another vault. What the others do to its
accounts appears as token movements (`AppearsAs`). A vault that is open after a run went through
what it saw since it was opened and such movements (`run_vault_refines`).
-/

namespace HedgeVault

open Lib

/-- The transaction as the vault `id` sees it. -/
def ProtocolTx.seenBy {D : Deployment} (id : U64) (tx : ProtocolTx D) : Option CustodyTx :=
  match tx.ix with
  | .configInitialize _ => none
  | .configMigrate => none
  | .configUpdate args => some ⟨tx.signer.toSigner, tx.now, .program (.configUpdate args)⟩
  | .configPause => some ⟨tx.signer.toSigner, tx.now, .program .configPause⟩
  | .adminAccept => some ⟨tx.signer.toSigner, tx.now, .program .adminAccept⟩
  | .configAddManager authority =>
    some ⟨tx.signer.toSigner, tx.now, .program (.configAddManager authority)⟩
  | .configRemoveManager authority =>
    some ⟨tx.signer.toSigner, tx.now, .program (.configRemoveManager authority)⟩
  | .vaultInitialize args mintExtensions _ =>
    some ⟨tx.signer.toSigner, tx.now, .program (.otherVaultInitialize args mintExtensions)⟩
  | .vaultClose _ => none
  | .onVault other ix => if other = id then some ⟨tx.signer.toSigner, tx.now, ix.1⟩ else none
  | .tokens _ _ => none

theorem ProtocolTx.now_of_seenBy {D : Deployment} {id : U64} {tx : ProtocolTx D} {a : CustodyTx}
    (h : tx.seenBy id = some a) : a.now = tx.now := by
  unfold seenBy at h
  split at h
  case h_10 =>
    split at h
    · cases h; rfl
    · cases h
  all_goals cases h
  all_goals rfl

/-- What happens in the custody of the vault at a transaction, newest first: what the vault sees of
it, and token movements. -/
def ProtocolTx.AppearsAs {D : Deployment} (id : U64) (tx : ProtocolTx D) (txs : List CustodyTx) :
    Prop :=
  ∃ moves, txs = moves ++ (tx.seenBy id).toList ∧ Custody.Movements tx.now moves

theorem ProtocolTx.now_of_appearsAs {D : Deployment} {id : U64} {tx : ProtocolTx D}
    {txs : List CustodyTx} (h : tx.AppearsAs id txs) : ∀ a ∈ txs, a.now = tx.now := by
  obtain ⟨moves, rfl, hmoves⟩ := h
  intro a ha
  rcases List.mem_append.1 ha with ha | ha
  · exact (hmoves a ha).1
  · exact now_of_seenBy (Option.mem_toList.1 ha)

namespace World

/-- The world of a vault with the clock, the config and the managers of another moment. -/
def under (w : World) (clock : I64) (config : Config) (managers : Finset Pubkey) : World :=
  { w with clock, config, managers }

section

variable {w w' : World} {tx : Tx} {signer : Signer} {now : I64} {ix : Instruction}

/-- An instruction on the vault leaves the config and the managers alone. -/
theorem Step.sameConfig (wf : w.WellFormed) (hix : ix.isConfigLevel = false)
    (st : w.Step ⟨signer, now, ix⟩ w') : w'.config = w.config ∧ w'.managers = w.managers := by
  have hch := process_change wf st
  cases ix with
  | configUpdate | configPause | adminAccept | configAddManager | configRemoveManager
  | otherVaultInitialize => cases hix
  | vaultPause =>
    simp only [Step, process, execute, vaultPause, bind_eq_ok, pure_eq_ok] at st
    obtain ⟨_, _, rfl⟩ := st
    exact ⟨rfl, rfl⟩
  | initializeStrategy ty checks =>
    simp only [Step, process, execute, initializeStrategy, bind_eq_ok, pure_eq_ok] at st
    obtain ⟨_, _, _, _, _, _, _, _, _, _, _, _, _, _, rfl⟩ := st
    exact ⟨rfl, rfl⟩
  | vaultCloseStrategy k checks =>
    simp only [Step, process, execute, vaultCloseStrategy, bind_eq_ok, pure_eq_ok] at st
    obtain ⟨_, _, _, _, _, _, _, _, _, _, _, _, _, _, rfl⟩ := st
    exact ⟨rfl, rfl⟩
  | _ =>
    cases hch
    exact ⟨rfl, rfl⟩

/-- What does not load the config runs the same under any. -/
theorem Step.under (hix : ix.loadsConfig = false) (st : w.Step ⟨signer, now, ix⟩ w')
    (clock : I64) (config : Config) (managers : Finset Pubkey) :
    (w.under clock config managers).Step ⟨signer, now, ix⟩ (w'.under w'.clock config managers) := by
  unfold Step process at *
  cases ix with
  | depositRequestCancel =>
    simp only [execute, depositRequestCancel, refundDeposit, bind_eq_ok, pure_eq_ok] at st ⊢
    obtain ⟨r, hr, _, h1, _, h2, _, h3, v, hv, m, hm, rfl⟩ := st
    exact ⟨r, hr, _, h1, _, h2, _, h3, v, hv, m, hm, rfl⟩
  | withdrawalRequestCancel =>
    simp only [execute, withdrawalRequestCancel, refundWithdrawal, bind_eq_ok, pure_eq_ok] at st ⊢
    obtain ⟨r, hr, _, h1, _, h2, _, h3, v, hv, s, hs, rfl⟩ := st
    exact ⟨r, hr, _, h1, _, h2, _, h3, v, hv, s, hs, rfl⟩
  | vaultClaimManagerFee =>
    simp only [execute, vaultClaimManagerFee, bind_eq_ok, pure_eq_ok] at st ⊢
    obtain ⟨_, h1, p, hp, s, hs, rfl⟩ := st
    exact ⟨_, h1, p, hp, s, hs, rfl⟩
  | vaultUpdate args =>
    simp only [execute, vaultUpdate, bind_eq_ok, pure_eq_ok] at st ⊢
    obtain ⟨_, h1, v, hv, rfl⟩ := st
    exact ⟨_, h1, v, hv, rfl⟩
  | depositTransfer src dst n =>
    simp only [execute, depositTransfer, bind_eq_ok, pure_eq_ok] at st ⊢
    obtain ⟨_, h1, m, hm, rfl⟩ := st
    exact ⟨_, h1, m, hm, rfl⟩
  | depositIssue dst n =>
    simp only [execute, depositIssue, bind_eq_ok, pure_eq_ok] at st ⊢
    obtain ⟨m, hm, rfl⟩ := st
    exact ⟨m, hm, rfl⟩
  | depositBurn src n =>
    simp only [execute, depositBurn, bind_eq_ok, pure_eq_ok] at st ⊢
    obtain ⟨_, h1, m, hm, rfl⟩ := st
    exact ⟨_, h1, m, hm, rfl⟩
  | shareTransfer src dst n =>
    simp only [execute, shareTransfer, bind_eq_ok, pure_eq_ok] at st ⊢
    obtain ⟨_, h1, s, hs, rfl⟩ := st
    exact ⟨_, h1, s, hs, rfl⟩
  | shareBurn src n =>
    simp only [execute, shareBurn, bind_eq_ok, pure_eq_ok] at st ⊢
    obtain ⟨_, h1, s, hs, rfl⟩ := st
    exact ⟨_, h1, s, hs, rfl⟩
  | _ => cases hix

end

end World

namespace Custody

/-- The custody of a vault with the clock, the config and the managers of another moment. -/
def under (c : Custody) (clock : I64) (config : Config) (managers : Finset Pubkey) : Custody :=
  { c with world := c.world.under clock config managers }

section

variable {V : Venues} {c c' : Custody} {signer : Signer} {now : I64} {ix : CustodyInstruction}

/-- An instruction on the vault leaves the config and the managers alone. -/
theorem Step.sameConfig (wf : c.world.WellFormed) (hix : ix.isOnVault = true)
    (st : Step V c ⟨signer, now, ix⟩ c') :
    c'.world.config = c.world.config ∧ c'.world.managers = c.world.managers := by
  rcases Step.worked st with ⟨ix', rfl, h⟩ | ⟨k, program, rfl, h⟩ | ⟨_, w, hw⟩
  · obtain ⟨w', hexecuted, rfl⟩ := execute_ok h
    have st' : World.Step c.world ⟨signer, now, seen ix'⟩ w' := hexecuted.executed
    have hlevel : (seen ix').isConfigLevel = false := by
      obtain ⟨hno, _⟩ := Bool.and_eq_true_iff.1 hix
      cases ix' with
      | initializeStrategy => rfl
      | _ => exact Bool.not_eq_true' _ ▸ hno
    exact st'.sameConfig wf hlevel
  · obtain ⟨_, w', _, _, st', _, rfl⟩ := closeStrategy_ok h
    have hclose : World.Step c.world ⟨signer, now, .vaultCloseStrategy k (.ok ())⟩ w' := st'
    exact hclose.sameConfig wf rfl
  · obtain ⟨_, _, _, hframe⟩ := hw.frame
    rw [hframe]
    exact ⟨rfl, rfl⟩

/-- What does not load the config runs the same under any. -/
theorem Step.under (hix : ix.loadsConfig = false) (st : Step V c ⟨signer, now, ix⟩ c')
    (clock : I64) (config : Config) (managers : Finset Pubkey) :
    Step V (c.under clock config managers) ⟨signer, now, ix⟩
      (c'.under c'.world.clock config managers) := by
  cases ix with
  | program ix =>
    simp only [Step, process, run, execute, bind_eq_ok, pure_eq_ok] at st
    obtain ⟨ix', hpermit, w', hw, rfl⟩ := st
    have hsame : ix' = ix := by
      cases ix with
      | initializeStrategy => cases hix
      | vaultCloseStrategy => cases hpermit
      | _ =>
        simp only [permit] at hpermit
        split at hpermit
        · cases hpermit
        · exact (Except.ok.inj hpermit).symm
    subst hsame
    have st' : World.Step c.world ⟨signer, now, ix'⟩ w' := hw
    exact program_step hpermit (World.Step.under hix st' clock config managers)
  | _ => cases hix

end

end Custody

namespace Protocol

/-- The vault `id`, with deposits in `mint`, is open and `c` is what it owns, under the config and
the managers of `p`. -/
structure Sees (D : Deployment) (id : U64) (mint : Pubkey) (p : Protocol) (c : Custody) : Prop where
  config : p.config = some (.current c.world.config)
  managers : p.managers = c.world.managers
  mint_ne : mint ≠ D.shareMint id
  stored : ∃ custody, p.vaults.lookup id = some ⟨mint, custody⟩ ∧
    c = (p.viewed D id ⟨mint, custody⟩).under c.world.clock c.world.config c.world.managers
  wellFormed : c.world.WellFormed

section

variable {D : Deployment} {id : U64} {mint : Pubkey} {p p' p₀ : Protocol} {tx : ProtocolTx D}
  {c c' c₀ : Custody} {h : List (Transition Protocol (ProtocolTx D))} {now : I64}
  {signer : D.Wallet} {o : OpenVault}

/-- Nothing of the vault changed but the config and the managers it runs under. -/
theorem Sees.reconfigure (hs : Sees D id mint p c) (now : I64) {config : Config}
    {ms : Finset Pubkey} (hc : p'.config = some (.current config)) (hms : p'.managers = ms)
    (hv : p'.vaults.lookup id = p.vaults.lookup id) (hl : p'.ledgers = p.ledgers) :
    Sees D id mint p' (c.under now config ms) := by
  obtain ⟨custody, hfound, e⟩ := hs.stored
  refine ⟨hc, hms, hs.mint_ne, ⟨custody, hv.trans hfound, ?_⟩,
    ⟨hs.wellFormed.deposit, hs.wellFormed.withdrawal⟩⟩
  rw [e]
  unfold viewed
  rw [hl]
  rfl

theorem Sees.loadConfig (hs : Sees D id mint p c) {config : Config}
    (h : p.loadConfig = .ok config) : config = c.world.config := by
  rw [loadConfig_eq_ok, hs.config] at h
  cases h
  rfl

theorem Sees.eq_under (hs : Sees D id mint p c) (ho : p.vaults.lookup id = some o) :
    o.depositMint = mint ∧
      c = (p.viewed D id o).under c.world.clock c.world.config p.managers := by
  obtain ⟨custody, hfound, e⟩ := hs.stored
  obtain rfl := Option.some.inj (ho.symm.trans hfound)
  refine ⟨rfl, ?_⟩
  rw [hs.managers]
  exact e

/-- After an instruction on the vault, token movements at most lead to what the ledgers show. -/
theorem RanOn.shown {ix : CustodyInstruction} (hp : p.WellFormed D)
    (h : RanOn D p signer now id ix o c c' p') (hix : ix.isOnVault = true)
    (hne : o.depositMint ≠ D.shareMint id) (clock : I64) (config : Config)
    (managers : Finset Pubkey) :
    ∃ h₁ clock', Run (Custody.Step (D.venues id o.depositMint)) (c'.under clock config managers) h₁
        ((p'.viewed D id ⟨o.depositMint, c'⟩).under clock' config managers) ∧
      Custody.Movements now (labels h₁) := by
  obtain ⟨hd, hs, hheld⟩ := h.own hp hix hne
  obtain ⟨h₁, clock', hr, hmoves⟩ := Custody.moves_run (V := D.venues id o.depositMint)
    (c := c'.under clock config managers) hd hs signer.toSigner now
  refine ⟨h₁, clock', ?_, hmoves⟩
  have hviewed : (p'.viewed D id ⟨o.depositMint, c'⟩).under clock' config managers =
      { c'.under clock config managers with world := { (c'.under clock config managers).world with
          clock := clock'
          depositMint := (p'.ledgers o.depositMint).rename (D.depositSeat id)
          shareMint := (p'.ledgers (D.shareMint id)).rename (D.shareSeat id) } } := by
    unfold viewed Custody.over
    dsimp only
    rw [← hheld]
    rfl
  rw [hviewed]
  exact hr

/-- An instruction on the vault runs in what is seen of it. -/
theorem Sees.onVault (hs : Sees D id mint p c) (hp : p.WellFormed D) {ix : CustodyInstruction}
    (hix : ix.isOnVault = true) (st : p.onVault D signer now id ix = .ok p') :
    ∃ h₁ c', Run (Custody.Step (D.venues id mint)) c h₁ c' ∧
      (∃ moves, labels h₁ = moves ++ [⟨signer.toSigner, now, ix⟩] ∧ Custody.Movements now moves) ∧
      Sees D id mint p' c' := by
  obtain ⟨o, c₁, c', hran⟩ := onVault_eq_ok.1 st
  obtain ⟨custody, hfound, e⟩ := hs.stored
  obtain rfl := Option.some.inj (hran.found.symm.trans hfound)
  have hloaded := hran.loaded
  have hstep := hran.step
  have hfound' : p'.vaults.lookup id = some ⟨mint, c'⟩ := by
    rw [hran.vaults]
    exact Finmap.lookup_insert _
  have hconfig' : p'.config = some (.current c.world.config) := by
    rw [hran.after]
    exact hs.config
  have hmanagers' : p'.managers = c.world.managers := by
    rw [hran.after]
    exact hs.managers
  -- the instruction, under the config and the managers of the moment
  have hrun : Custody.Step (D.venues id mint) c ⟨signer.toSigner, now, ix⟩
      (c'.under c'.world.clock c.world.config c.world.managers) := by
    unfold custodyFor at hloaded
    cases hl : ix.loadsConfig with
    | true =>
      rw [hl] at hloaded
      simp only [if_true, bind_eq_ok, pure_eq_ok] at hloaded
      obtain ⟨config, hconfig, rfl⟩ := hloaded
      obtain rfl := hs.loadConfig hconfig
      have st' : Custody.Step (D.venues id mint) c ⟨signer.toSigner, now, ix⟩ c' := by
        rw [e]
        rw [hs.managers] at hstep
        exact hstep
      obtain ⟨hsame, hmanagers⟩ := st'.sameConfig hs.wellFormed hix
      rw [← hsame, ← hmanagers]
      exact st'
    | false =>
      rw [hl] at hloaded
      cases hloaded
      have st' := hstep.under hl c.world.clock c.world.config c.world.managers
      rw [← e] at st'
      exact st'
  obtain ⟨h₁, clock', hr, hmoves⟩ :=
    hran.shown hp hix hs.mint_ne c'.world.clock c.world.config c.world.managers
  have hwell := hrun.wellFormed hs.wellFormed
  have hs' : Sees D id mint p' ((p'.viewed D id ⟨mint, c'⟩).under clock' c.world.config
      c.world.managers) :=
    ⟨hconfig', hmanagers', hs.mint_ne, ⟨c', hfound', rfl⟩, ⟨hwell.deposit, hwell.withdrawal⟩⟩
  refine ⟨h₁ ++ [⟨c, _, _⟩], _, (Run.nil.snoc hrun).trans hr, ⟨labels h₁, ?_, hmoves⟩, hs'⟩
  unfold labels
  rw [List.map_append]
  rfl

/-! ## Every transaction of the protocol -/

/-- The custody follows a transaction to `p'`. -/
def Followed (D : Deployment) (id : U64) (mint : Pubkey) (tx : ProtocolTx D) (p' : Protocol)
    (c : Custody) : Prop :=
  ∃ h₁ c', Run (Custody.Step (D.venues id mint)) c h₁ c' ∧ tx.AppearsAs id (labels h₁) ∧
    Sees D id mint p' c'

theorem Sees.followed {a : CustodyTx} (hseen : tx.seenBy id = some a)
    (st : Custody.Step (D.venues id mint) c a c') (hs : Sees D id mint p' c') :
    Followed D id mint tx p' c := by
  refine ⟨[⟨c, a, c'⟩], c', Run.nil.snoc st, ⟨[], ?_, .nil⟩, hs⟩
  rw [hseen]
  rfl

/-- What is not on the vault and not on the config moves tokens at most. -/
theorem Sees.elsewhere (hs : Sees D id mint p c) (hseen : tx.seenBy id = none)
    (hc : p'.config = p.config) (hms : p'.managers = p.managers)
    (hv : p'.vaults.lookup id = p.vaults.lookup id)
    (hl : Elsewhere D id p.ledgers p'.ledgers) : Followed D id mint tx p' c := by
  obtain ⟨custody, hfound, e⟩ := hs.stored
  obtain ⟨h₁, clock, hr, hmoves⟩ := elsewhere_run hl
    (custody.under c.world.clock c.world.config c.world.managers) mint tx.signer.toSigner tx.now
  have hstart : (custody.under c.world.clock c.world.config c.world.managers).over D id mint
      p.ledgers = c := e.symm
  rw [hstart] at hr
  have hwell := hs.wellFormed
  rw [e] at hwell
  have hs' : Sees D id mint p' ((p'.viewed D id ⟨mint, custody⟩).under clock c.world.config
      c.world.managers) :=
    ⟨hc.trans hs.config, hms.trans hs.managers, hs.mint_ne, ⟨custody, hv.trans hfound, rfl⟩,
      ⟨hwell.deposit, hwell.withdrawal⟩⟩
  refine ⟨h₁, _, hr, ⟨labels h₁, ?_, hmoves⟩, hs'⟩
  rw [hseen]
  exact (List.append_nil _).symm

theorem Sees.step (hs : Sees D id mint p c) (hp : p.WellFormed D) (st : p.Step D tx p')
    (hopen : (p'.vaults.lookup id).isSome) : Followed D id mint tx p' c := by
  have hvaults := Step.vaultsStep st
  obtain ⟨signer, now, ix⟩ := tx
  unfold Step process at st
  cases ix with
  | configInitialize args =>
    simp only [configInitialize, bind_eq_ok, allocate_eq_ok, hs.config] at st
    obtain ⟨_, hnone, _⟩ := st
    exact absurd rfl hnone
  | configMigrate =>
    simp only [configMigrate, hs.config] at st
    cases st
  | configUpdate args =>
    simp only [configUpdate, bind_eq_ok, pure_eq_ok] at st
    obtain ⟨config, hconfig, _, hadmin, config', hu, rfl⟩ := st
    obtain rfl := hs.loadConfig hconfig
    refine Sees.followed rfl (Custody.program_step rfl ?_)
      (hs.reconfigure now rfl hs.managers rfl rfl)
    simp only [World.Step, World.process, World.execute, World.configUpdate, bind_eq_ok,
      pure_eq_ok]
    exact ⟨_, hadmin, config', hu, rfl⟩
  | configPause =>
    simp only [configPause, bind_eq_ok, pure_eq_ok] at st
    obtain ⟨config, hconfig, _, hguardian, rfl⟩ := st
    obtain rfl := hs.loadConfig hconfig
    refine Sees.followed rfl (Custody.program_step rfl ?_)
      (hs.reconfigure now rfl hs.managers rfl rfl)
    simp only [World.Step, World.process, World.execute, World.configPause, bind_eq_ok, pure_eq_ok]
    exact ⟨_, hguardian, rfl⟩
  | adminAccept =>
    simp only [adminAccept, bind_eq_ok, pure_eq_ok] at st
    obtain ⟨config, hconfig, config', ha, rfl⟩ := st
    obtain rfl := hs.loadConfig hconfig
    refine Sees.followed rfl (Custody.program_step rfl ?_)
      (hs.reconfigure now rfl hs.managers rfl rfl)
    simp only [World.Step, World.process, World.execute, World.adminAccept, bind_eq_ok, pure_eq_ok]
    exact ⟨config', ha, rfl⟩
  | configAddManager k =>
    simp only [configAddManager, bind_eq_ok, pure_eq_ok, hs.managers] at st
    obtain ⟨_, hfree, config, hconfig, _, hadmin, rfl⟩ := st
    obtain rfl := hs.loadConfig hconfig
    refine Sees.followed rfl (Custody.program_step rfl ?_)
      (hs.reconfigure now hs.config rfl rfl rfl)
    simp only [World.Step, World.process, World.execute, World.configAddManager, bind_eq_ok,
      pure_eq_ok]
    exact ⟨_, hfree, _, hadmin, rfl⟩
  | configRemoveManager k =>
    simp only [configRemoveManager, bind_eq_ok, pure_eq_ok, hs.managers] at st
    obtain ⟨_, hfound, config, hconfig, _, hadmin, rfl⟩ := st
    obtain rfl := hs.loadConfig hconfig
    refine Sees.followed rfl (Custody.program_step rfl ?_)
      (hs.reconfigure now hs.config rfl rfl rfl)
    simp only [World.Step, World.process, World.execute, World.configRemoveManager, bind_eq_ok,
      pure_eq_ok]
    exact ⟨_, hfound, _, hadmin, rfl⟩
  | vaultInitialize args verdict mint' =>
    obtain ⟨config, w, hopened⟩ := vaultInitialize_ok st
    have hconfig : config = c.world.config := hs.loadConfig (loadConfig_eq_ok.2 hopened.found)
    have hgenesis := hopened.genesis
    simp only [World.genesis, bind_eq_ok, pure_eq_ok] at hgenesis
    obtain ⟨⟨config', vault⟩, hinit, hw⟩ := hgenesis
    obtain ⟨custody, hfound, _⟩ := hs.stored
    have hne : id ≠ config.nextVaultId := by
      rintro rfl
      cases hopened.new.symm.trans hfound
    have hconfig' : w.config = config' := by rw [← hw]
    rw [hopened.after]
    refine Sees.followed rfl (Custody.program_step rfl ?_) (hs.reconfigure now rfl hs.managers
      (Finmap.lookup_insert_of_ne _ hne) rfl)
    simp only [World.Step, World.process, World.execute, World.otherVaultInitialize, bind_eq_ok,
      pure_eq_ok]
    rw [hs.managers, hconfig] at hinit
    rw [hconfig']
    exact ⟨⟨config', vault⟩, hinit, rfl⟩
  | vaultClose other =>
    have hl : Elsewhere D id p.ledgers p'.ledgers := by
      refine hvaults.elsewhere hp fun ix hix => ?_
      cases hix
    simp only [vaultClose, bind_eq_ok, pure_eq_ok] at st
    obtain ⟨_, _, _, _, rfl⟩ := st
    have hne : id ≠ other := by
      rintro rfl
      rw [Finmap.lookup_erase] at hopen
      cases hopen
    exact hs.elsewhere rfl rfl rfl (Finmap.lookup_erase_ne hne) hl
  | onVault other ix =>
    by_cases ho : other = id
    · subst ho
      obtain ⟨h₁, c', hr, ⟨moves, hlabels, hmoves⟩, hs'⟩ := hs.onVault hp ix.2 st
      refine ⟨h₁, c', hr, ⟨moves, ?_, hmoves⟩, hs'⟩
      rw [hlabels]
      simp only [ProtocolTx.seenBy, if_true, Option.toList_some]
    · have hl : Elsewhere D id p.ledgers p'.ledgers := by
        refine hvaults.elsewhere hp ?_
        rintro ix' ⟨⟩
        exact ho rfl
      obtain ⟨_, _, _, hran⟩ := onVault_eq_ok.1 st
      rw [hran.after] at hl ⊢
      exact hs.elsewhere (if_neg ho) rfl rfl (Finmap.lookup_insert_of_ne _ (Ne.symm ho)) hl
  | tokens mint' op =>
    have hl : Elsewhere D id p.ledgers p'.ledgers := by
      refine hvaults.elsewhere hp fun ix hix => ?_
      cases hix
    simp only [tokens, bind_eq_ok, pure_eq_ok] at st
    obtain ⟨_, _, _, _, rfl⟩ := st
    exact hs.elsewhere rfl rfl rfl rfl hl

/-! ## A vault since it was opened -/

/-- The step opened the vault `id` with deposits in `mint`, and `c` is what it owns first. -/
structure OpensVault (D : Deployment) (id : U64) (mint : Pubkey)
    (t : Transition Protocol (ProtocolTx D)) (c : Custody) : Prop where
  ix : ∃ args mintExtensions, t.label.ix = .vaultInitialize args mintExtensions mint
  closed : t.pre.vaults.lookup id = none
  opened : t.post.vaults.lookup id = some ⟨mint, newCustody c.world⟩
  viewed : t.post.viewed D id ⟨mint, newCustody c.world⟩ = c
  mint_ne : mint ≠ D.shareMint id
  fresh : c.world.Fresh
  clock : c.world.clock = t.label.now
  config : t.post.config = some (.current c.world.config)
  managers : t.post.managers = c.world.managers
  vaultId : c.world.vault.id = id
  key : c.world.key = D.vaultAddress id

theorem OpensVault.sees {t : Transition Protocol (ProtocolTx D)} (ho : OpensVault D id mint t c) :
    Sees D id mint t.post c := by
  refine ⟨ho.config, ho.managers, ho.mint_ne, ⟨_, ho.opened, ?_⟩, ho.fresh.wellFormed⟩
  rw [ho.viewed]
  rfl

theorem Opened.opensVault {args : VaultInitializeArgs} {mintExtensions : Result Unit}
    {config : Config} {w : World} (hix : tx.ix = .vaultInitialize args mintExtensions mint)
    (h : Opened D p tx.signer tx.now args mintExtensions mint config w p') :
    OpensVault D config.nextVaultId mint ⟨p, tx, p'⟩
        (p'.viewed D config.nextVaultId ⟨mint, newCustody w⟩) ∧
      p'.vaults.lookup config.nextVaultId = some ⟨mint, newCustody w⟩ := by
  have hfresh := (World.genesis_fresh h.genesis).1
  have hvid := (genesis_ok h.genesis).2
  have hgenesis := h.genesis
  simp only [World.genesis, bind_eq_ok, pure_eq_ok] at hgenesis
  obtain ⟨⟨config', vault⟩, _, hw⟩ := hgenesis
  have hshare : (p.ledgers (D.shareMint config.nextVaultId)).rename
      (D.shareSeat config.nextVaultId) = w.shareMint := by
    rw [← hw]
    exact Mint.eq_empty h.unissued
  have hdeposit : (p.ledgers mint).rename (D.depositSeat config.nextVaultId) = w.depositMint := by
    rw [← hw]
  have hafter := h.after
  subst hafter
  have hfound : (p.vaults.insert config.nextVaultId ⟨mint, newCustody w⟩).lookup
      config.nextVaultId = some ⟨mint, newCustody w⟩ := Finmap.lookup_insert _
  refine ⟨?_, hfound⟩
  generalize hc : Protocol.viewed D _ _ _ = c
  have hworld : c.world = w := by
    rw [← hc]
    unfold viewed Custody.over
    dsimp only
    rw [hdeposit, hshare]
    rfl
  refine ⟨⟨args, mintExtensions, hix⟩, h.new, ?_, ?_, h.mint_ne, ?_, ?_, ?_, ?_, ?_, ?_⟩
  · rw [hworld]
    exact hfound
  · rw [hworld]
    exact hc
  · rw [hworld]
    exact hfresh
  · rw [hworld, ← hw]
  · rw [hworld]
  · rw [hworld, ← hw]
  · rw [hworld]
    exact hvid
  · rw [hworld, ← hw]

/-- A vault that is open after the step and was not before is the one it opened. -/
theorem VaultsStep.opensVault (hs : VaultsStep D p tx p') (hpre : p.vaults.lookup id = none)
    (hpost : p'.vaults.lookup id = some o) :
    ∃ c, OpensVault D id o.depositMint ⟨p, tx, p'⟩ c := by
  cases hs with
  | @opened args mintExtensions mint config w hix h =>
    by_cases hid : id = config.nextVaultId
    · subst hid
      obtain ⟨hopens, hfound⟩ := h.opensVault hix
      obtain rfl := Option.some.inj (hpost.symm.trans hfound)
      exact ⟨_, hopens⟩
    · rw [h.after] at hpost
      rw [Finmap.lookup_insert_of_ne _ hid, hpre] at hpost
      cases hpost
  | closed hix h =>
    subst h
    rw [lookup_of_erase hpost] at hpre
    cases hpre
  | @ran other ix o' c c' hix h =>
    have hne : id ≠ other := by
      rintro rfl
      exact absurd (hpre.symm.trans h.found) nofun
    rw [h.vaults, Finmap.lookup_insert_of_ne _ hne, hpre] at hpost
    cases hpost
  | moved hix hop hrun h =>
    subst h
    exact absurd (hpre.symm.trans hpost) nofun
  | config _ _ hvaults _ =>
    rw [hvaults, hpre] at hpost
    cases hpost

theorem run_wellFormed (h0 : p₀.vaults = ∅) (hr : Run (Step D) p₀ h p) : p.WellFormed D := by
  have hnone : ∀ id o, p₀.vaults.lookup id ≠ some o := by
    intro id o ho
    rw [h0, Finmap.lookup_empty] at ho
    cases ho
  exact hr.inv ⟨fun id o ho => absurd ho (hnone id o), fun id o ho => absurd ho (hnone id o)⟩
    fun _ _ _ hp st => Step.wellFormed hp st

/-- A vault keeps its deposit mint as long as it is open. -/
theorem Sees.depositMint (hs : Sees D id mint p c) (ho : p.vaults.lookup id = some o) :
    o.depositMint = mint := (hs.eq_under ho).1

/-- What an open vault owns, since the step that opened it. -/
theorem run_follows (h0 : p₀.vaults = ∅) (hr : Run (Step D) p₀ h p)
    (ho : p.vaults.lookup id = some o) :
    ∃ newer t older c₀ h₂ c segments, h = newer ++ t :: older ∧
      OpensVault D id o.depositMint t c₀ ∧
      Run (Custody.Step (D.venues id o.depositMint)) c₀ h₂ c ∧
      labels h₂ = List.flatten segments ∧
      List.Forall₂ (ProtocolTx.AppearsAs id) (labels newer) segments ∧
      Sees D id o.depositMint p c := by
  have hnone : ¬ (p₀.vaults.lookup id).isSome := by
    rw [h0, Finmap.lookup_empty]
    exact nofun
  obtain ⟨newer, t, older, rfl, hpre, hpost, hopen⟩ :=
    hr.risen (Q := fun p => (p.vaults.lookup id).isSome) hnone (Option.isSome_iff_exists.2 ⟨o, ho⟩)
  obtain ⟨hr₀, st, hrest⟩ := hr.split
  obtain ⟨o₁, ho₁⟩ := Option.isSome_iff_exists.1 hpost
  obtain ⟨c₀, hopens⟩ := (Step.vaultsStep st).opensVault (Option.not_isSome_iff_eq_none.1 hpre) ho₁
  have hwell : ∀ u ∈ newer, u.pre.WellFormed D := by
    intro u hu
    obtain ⟨later, earlier, rfl⟩ := List.append_of_mem hu
    obtain ⟨hbefore, _, _⟩ := hrest.split
    exact run_wellFormed h0 ((hr₀.snoc st).trans hbefore)
  obtain ⟨h₂, c, segments, hr₂, hlabels, hsegments, hs⟩ := hrest.segment hopens.sees
    fun u hu st c hs => Sees.step hs (hwell u hu) st (hopen u hu).2
  have hmint := hs.depositMint ho
  rw [← hmint] at hopens hr₂ hs
  exact ⟨newer, t, older, c₀, h₂, c, segments, rfl, hopens, hr₂, hlabels, hsegments, hs⟩

/-- A vault that is open after a run went from its first state through what it saw of the
transactions since it was opened, in their order, and through token movements in which the accounts
of its world pay nothing. -/
theorem run_vault_refines (h0 : p₀.vaults = ∅) (hr : Run (Step D) p₀ h p)
    (ho : p.vaults.lookup id = some o) :
    ∃ newer t older c₀ h₂ clock config segments, h = newer ++ t :: older ∧
      OpensVault D id o.depositMint t c₀ ∧ p.config = some (.current config) ∧
      Run (Custody.Step (D.venues id o.depositMint)) c₀ h₂
        ((p.viewed D id o).under clock config p.managers) ∧
      labels h₂ = List.flatten segments ∧
      List.Forall₂ (ProtocolTx.AppearsAs id) (labels newer) segments := by
  obtain ⟨newer, t, older, c₀, h₂, c, segments, rfl, hopens, hr₂, hlabels, hsegments, hs⟩ :=
    run_follows h0 hr ho
  refine ⟨newer, t, older, c₀, h₂, c.world.clock, c.world.config, segments, rfl, hopens, hs.config,
    ?_, hlabels, hsegments⟩
  rw [← (hs.eq_under ho).2]
  exact hr₂

end

/-! ## Three vaults -/

/-- A strategy transaction on a vault. -/
def workOn (id : U64) (ix : CustodyInstruction)
    (h : ix.isOnVault = true := by exact Eq.refl true) : ProtocolInstruction :=
  .onVault id ⟨ix, h⟩

/-- An instruction of the program on a vault. -/
def onVaultOf (id : U64) (ix : Instruction)
    (h : (CustodyInstruction.program ix).isOnVault = true := by exact Eq.refl true) :
    ProtocolInstruction :=
  .onVault id ⟨.program ix, h⟩

open World (updater manager alice bob)

/-- A manager opens two vaults with deposits in the mint 60 and one with deposits in the mint 70. -/
def openingTxs : List (ProtocolTx sampleDeployment) := [
  ⟨adminWallet, 0, .configUpdate ⟨none, none, none, none, none, none, none, none, none,
    some .normal⟩⟩,
  ⟨adminWallet, 0, .configAddManager manager.key⟩,
  ⟨managerWallet, 0, openVault 60⟩,
  ⟨managerWallet, 0, openVault 60⟩,
  ⟨managerWallet, 0, openVault 70⟩,
  ⟨adminWallet, 0, .tokens 60 (.mintTo alice.key 500)⟩,
  ⟨adminWallet, 0, .tokens 60 (.mintTo bob.key 500)⟩,
  ⟨adminWallet, 0, .tokens 70 (.mintTo bob.key 500)⟩]

/-- Alice goes in and out of the first while bob uses the second. -/
def vaultTxs : List (ProtocolTx sampleDeployment) := openingTxs ++ [
  ⟨aliceWallet, 0, onVaultOf 0 (.depositRequestCreate 100 (.ok ()) 0)⟩,
  ⟨bobWallet, 0, onVaultOf 1 (.depositRequestCreate 50 (.ok ()) 0)⟩,
  ⟨updaterWallet, I64.literal 14400 rfl, onVaultOf 0 (.navUpdate 0)⟩,
  ⟨bobWallet, I64.literal 14400 rfl, onVaultOf 0 (.depositRequestResolve alice.key)⟩,
  ⟨aliceWallet, I64.literal 14400 rfl, onVaultOf 0 (.withdrawalRequestCreate 40 0)⟩,
  ⟨bobWallet, I64.literal 14400 rfl, onVaultOf 1 .depositRequestCancel⟩,
  ⟨updaterWallet, I64.literal 28800 rfl, onVaultOf 0 (.navUpdate 100)⟩]

def vaultHistory (txs : List (ProtocolTx sampleDeployment)) :
    List (Transition Protocol (ProtocolTx sampleDeployment)) :=
  history (process sampleDeployment) sample txs

def vaultsAfter (txs : List (ProtocolTx sampleDeployment)) : Protocol :=
  final (process sampleDeployment) sample txs

/-- The first vault in a protocol. -/
def firstVault (p : Protocol) : OpenVault :=
  (p.vaults.lookup 0).getD ⟨60, newCustody World.sample⟩

/-- Then the first vault has 50 in a position. Its fees come in both mints, of which the other one
is that of the third vault's deposits. -/
def workTxs : List (ProtocolTx sampleDeployment) := vaultTxs ++ [
  ⟨managerWallet, I64.literal 28802 rfl,
    onVaultOf 0 (.initializeStrategy (.meteoraDlmm 90) (.ok ()))⟩,
  ⟨managerWallet, I64.literal 28803 rfl,
    workOn 0 (.dlmmAddLiquidity 90 50 0 (.ok ⟨50, 0, 10, []⟩))⟩,
  ⟨bobWallet, I64.literal 28803 rfl, .tokens 70 (.transfer bob.key 90 100)⟩,
  ⟨managerWallet, I64.literal 28804 rfl, workOn 0 (.dlmmClaimFee 90 World.admin.key
    (.ok ⟨25, 79, 10, [⟨.received 90 (.other 95 70) 3, rfl⟩]⟩))⟩]

/-- Bob's deposit and its cancel in the second vault appear in the first as one transfer each, and
of its fees in the mint 70 it has what the treasury did not get. -/
theorem run_vault_refines_sample :
    ((vaultsAfter workTxs).viewed sampleDeployment 0 (firstVault (vaultsAfter workTxs))).held
      (.associated 70) = 72 ∧
    ∃ newer t older c₀ h₂ clock config segments, vaultHistory workTxs = newer ++ t :: older ∧
      OpensVault sampleDeployment 0 60 t c₀ ∧
      (vaultsAfter workTxs).config = some (.current config) ∧
      Run (Custody.Step (sampleDeployment.venues 0 60)) c₀ h₂
        (((vaultsAfter workTxs).viewed sampleDeployment 0
          (firstVault (vaultsAfter workTxs))).under clock config
            (vaultsAfter workTxs).managers) ∧
      labels h₂ = List.flatten segments ∧
      List.Forall₂ (ProtocolTx.AppearsAs 0) (labels newer) segments := by
  have hr : Run (Step sampleDeployment) sample (vaultHistory workTxs) (vaultsAfter workTxs) :=
    run_final (by rfl)
  exact ⟨by rfl, run_vault_refines rfl hr (o := firstVault (vaultsAfter workTxs)) (by rfl)⟩

end Protocol

end HedgeVault
