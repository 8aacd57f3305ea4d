import HedgeVault.VaultRun

/-!
# Other vaults

Vaults share the config, the managers and the token accounts of users. A transaction on another
vault leaves a vault alone (`Step.leftAlone`): its accounts pay nothing and its shares are not
minted. `run_isolated` says so of whole stretches of a run.
-/

namespace HedgeVault

open Lib

/-- Whether the transaction is on the vault `id` or on the config. -/
def ProtocolTx.reaches {D : Deployment} (id : U64) (tx : ProtocolTx D) : Bool :=
  match tx.ix with
  | .vaultClose other => decide (other = id)
  | .onVault other _ => decide (other = id)
  | .tokens _ _ => false
  | _ => true

namespace Protocol

section

variable {D : Deployment} {id : U64} {mint : Pubkey} {p p' p₀ : Protocol} {tx : ProtocolTx D}
  {c c' c₀ : Custody} {h : List (Transition Protocol (ProtocolTx D))} {now : I64}
  {signer : D.Wallet} {o : OpenVault}

/-! ## Other vaults -/

/-- The config, the managers and the vault `id` are the same; its accounts paid nothing and its
shares were not minted. -/
structure LeftAlone (D : Deployment) (id : U64) (p p' : Protocol) : Prop where
  config : p'.config = p.config
  managers : p'.managers = p.managers
  vault : p'.vaults.lookup id = p.vaults.lookup id
  ledgers : Elsewhere D id p.ledgers p'.ledgers

theorem LeftAlone.trans {p₁ : Protocol} (h : LeftAlone D id p p₁) (h' : LeftAlone D id p₁ p') :
    LeftAlone D id p p' :=
  ⟨h'.config.trans h.config, h'.managers.trans h.managers, h'.vault.trans h.vault,
    h.ledgers.trans h'.ledgers⟩

theorem Step.leftAlone (hp : p.WellFormed D) (st : p.Step D tx p') (hno : tx.reaches id = false) :
    LeftAlone D id p p' := by
  have hl : Elsewhere D id p.ledgers p'.ledgers := by
    refine (Step.vaultsStep st).elsewhere hp fun ix hix => ?_
    unfold ProtocolTx.reaches at hno
    rw [hix] at hno
    exact of_decide_eq_false hno rfl
  obtain ⟨signer, now, ix⟩ := tx
  cases ix with
  | vaultClose other =>
    simp only [Step, process, vaultClose, bind_eq_ok, pure_eq_ok] at st
    obtain ⟨_, _, _, _, rfl⟩ := st
    exact ⟨rfl, rfl, Finmap.lookup_erase_ne (Ne.symm (of_decide_eq_false hno)), hl⟩
  | onVault other ix =>
    obtain ⟨_, _, _, hran⟩ := onVault_eq_ok.1 st
    rw [hran.after] at hl ⊢
    exact ⟨rfl, rfl, Finmap.lookup_insert_of_ne _ (Ne.symm (of_decide_eq_false hno)), hl⟩
  | tokens mint op =>
    simp only [Step, process, tokens, bind_eq_ok, pure_eq_ok] at st
    obtain ⟨_, _, _, _, rfl⟩ := st
    exact ⟨rfl, rfl, rfl, hl⟩
  | _ => cases hno

theorem run_leftAlone (hp : p.WellFormed D) (hr : Run (Step D) p h p')
    (hno : ∀ tx ∈ labels h, tx.reaches id = false) : LeftAlone D id p p' := by
  have hI : ∀ t ∈ h, t.label.reaches id = false := fun t ht => hno _ (List.mem_map_of_mem ht)
  have hr' : Run (fun p tx p' => p.Step D tx p' ∧ tx.reaches id = false) p h p' :=
    hr.of_forall fun t ht => ⟨hr.step_of_mem ht, hI t ht⟩
  have hboth := hr'.inv (I := fun q => q.WellFormed D ∧ LeftAlone D id p q)
    ⟨hp, ⟨rfl, rfl, rfl, .refl⟩⟩ fun q tx q' hq st =>
      ⟨Step.wellFormed hq.1 st.1, hq.2.trans (Step.leftAlone hq.1 st.1 st.2)⟩
  exact hboth.2

/-- The accounts of the vault lost nothing, and its shares can only have been burnt. -/
theorem LeftAlone.balance_le (hl : LeftAlone D id p p') (o : OpenVault) :
    (∀ account, ((p.viewed D id o).balance (D.venues id o.depositMint) account).toNat ≤
      ((p'.viewed D id o).balance (D.venues id o.depositMint) account).toNat) ∧
    (p'.viewed D id o).world.shareMint.supply ≤ (p.viewed D id o).world.shareMint.supply := by
  obtain ⟨hd, hs⟩ := moves_foreign o.depositMint hl.ledgers
    (fun op hop => abstains_of_spares hop.1) fun op hop => ⟨abstains_of_spares hop.1, hop.2 rfl⟩
  refine ⟨fun account => ?_, hs.supply_le fun _ hop => hop.2⟩
  cases hplace : account.place (D.venues id o.depositMint).mints with
  | none =>
    rw [Custody.balance_held hplace, Custody.balance_held hplace]
    change (D.heldOn id _ p.ledgers account).toNat ≤ (D.heldOn id _ p'.ledgers account).toNat
    by_cases hkeeps : D.Keeps id (D.venues id o.depositMint).mints account
    · rw [Deployment.heldOn_of_keeps hkeeps, Deployment.heldOn_of_keeps hkeeps]
      exact (hl.ledgers.via _).le fun op hop hsource =>
        hop.1 _ hsource (Deployment.custodian_ledgerKey hkeeps.owns)
    · rw [Deployment.heldOn_congr fun h => absurd h hkeeps]
  | some at_ =>
    obtain ⟨kind, holder⟩ := at_
    have hforeign : ∀ op, Foreign op → op.source ≠ some holder := by
      rintro op ⟨hvault, hescrow⟩
      rcases Custody.place_own hplace with rfl | rfl
      · exact hescrow
      · exact hvault
    cases kind with
    | deposit =>
      rw [Custody.balance_deposit hplace, Custody.balance_deposit hplace]
      exact hd.le hforeign
    | share =>
      rw [Custody.balance_share hplace, Custody.balance_share hplace]
      exact hs.le fun op hop => hforeign op hop.1

/-- All of a vault is as before after any transactions on other vaults and token movements, but that
its accounts may have got tokens and its shares may have been burnt by their holders. -/
theorem run_isolated {h₀ : List (Transition Protocol (ProtocolTx D))} (h0 : p₀.vaults = ∅)
    (hr₀ : Run (Step D) p₀ h₀ p) (ho : p.vaults.lookup id = some o) (hr : Run (Step D) p h p')
    (hno : ∀ tx ∈ labels h, tx.reaches id = false) :
    p'.config = p.config ∧ p'.managers = p.managers ∧ p'.vaults.lookup id = some o ∧
      (∀ account, ((p.viewed D id o).balance (D.venues id o.depositMint) account).toNat ≤
        ((p'.viewed D id o).balance (D.venues id o.depositMint) account).toNat) ∧
      (p'.viewed D id o).world.shareMint.supply ≤ (p.viewed D id o).world.shareMint.supply := by
  have hl := run_leftAlone (run_wellFormed h0 hr₀) hr hno
  exact ⟨hl.config, hl.managers, hl.vault.trans ho, hl.balance_le o⟩

end

/-! ## Two vaults -/

open World (updater manager alice bob)

/-- Bob uses the second vault, whose deposits are in the mint of the first, and sends the first
vault some of them and some of another mint. -/
def besideTxs : List (ProtocolTx sampleDeployment) := [
  ⟨bobWallet, 0, onVaultOf 1 (.depositRequestCreate 50 (.ok ()) 0)⟩,
  ⟨bobWallet, 0, onVaultOf 1 .depositRequestCancel⟩,
  ⟨bobWallet, 0, .tokens 60 (.transfer bob.key (sampleDeployment.vaultAddress 0) 7)⟩,
  ⟨bobWallet, 0, .tokens 70 (.transfer bob.key 95 4)⟩]

def opened : Protocol := vaultsAfter openingTxs

def openedHistory (txs : List (ProtocolTx sampleDeployment)) :
    List (Transition Protocol (ProtocolTx sampleDeployment)) :=
  history (process sampleDeployment) opened txs

def openedAfter (txs : List (ProtocolTx sampleDeployment)) : Protocol :=
  final (process sampleDeployment) opened txs

theorem run_isolated_sample :
    (openedAfter besideTxs).config = opened.config ∧
    (openedAfter besideTxs).managers = opened.managers ∧
    (openedAfter besideTxs).vaults.lookup 0 = some (firstVault opened) ∧
    (∀ account, ((opened.viewed sampleDeployment 0 (firstVault opened)).balance
        (sampleDeployment.venues 0 60) account).toNat ≤
      (((openedAfter besideTxs).viewed sampleDeployment 0 (firstVault opened)).balance
        (sampleDeployment.venues 0 60) account).toNat) ∧
    ((openedAfter besideTxs).viewed sampleDeployment 0 (firstVault opened)).world.shareMint.supply ≤
      (opened.viewed sampleDeployment 0 (firstVault opened)).world.shareMint.supply := by
  have hr₀ : Run (Step sampleDeployment) sample (vaultHistory openingTxs) opened :=
    run_final (by rfl)
  have hbeside : Run (Step sampleDeployment) opened (openedHistory besideTxs)
      (openedAfter besideTxs) := run_final (by rfl)
  exact run_isolated (rfl : sample.vaults = ∅) hr₀ (by rfl) hbeside (by decide)

end Protocol

end HedgeVault
