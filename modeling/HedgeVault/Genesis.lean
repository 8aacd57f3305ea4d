import HedgeVault.Change

/-!
# The first world of a vault

`genesis` is `vault_initialize` with the accounts it creates: the vault, its share
mint and its two escrows, all empty. Its result is `Fresh`, and a fresh world is
well formed, so every run from it is one of `Change`s (`Run.change`).

`sample` is a small instance to run transactions from.
-/

namespace HedgeVault

open Lib

namespace World

def genesis (clock : I64) (key : Pubkey) (config : Config) (managers : Finset Pubkey)
    (authority : Signer) (args : VaultInitializeArgs) (mintExtensions : Result Unit)
    (depositMint : { m : SplMint // m.amount .escrow = 0 }) : Result World := do
  let (config, vault) ← vaultInitialize config managers authority.key args mintExtensions clock
  pure {
    clock, key, config, managers, vault
    depositMint := depositMint.1
    shareMint := Mint.empty
    depositRequests := ∅
    withdrawalRequests := ∅
    strategies := ∅ }

section

variable {w w₀ : World} {h : List (Transition World Tx)}

theorem genesis_fresh {clock : I64} {key : Pubkey} {config : Config} {managers : Finset Pubkey}
    {authority : Signer} {args : VaultInitializeArgs} {verdict : Result Unit}
    {m : { m : SplMint // m.amount .escrow = 0 }}
    (h : genesis clock key config managers authority args verdict m = .ok w) :
    w.Fresh ∧ w.vault.performanceFeeBps ≤ MAX_BPS ∧ w.vault.managementFeeBps ≤ MAX_BPS := by
  simp only [genesis, vaultInitialize, bind_eq_ok, pure_eq_ok, validate_eq_ok] at h
  obtain ⟨⟨c, v⟩, ⟨_, _, _, _, _, hp, _, hm, _, _, _, _, c', _, e⟩, rfl⟩ := h
  cases e
  exact ⟨⟨⟨m.2, rfl, rfl, rfl, rfl⟩, _, rfl, rfl⟩, hp, hm⟩

theorem Fresh.wellFormed (h0 : w₀.Fresh) : w₀.WellFormed := h0.1.wellFormed

theorem run_wellFormed (h0 : w₀.Fresh) (hr : Run Step w₀ h w) : w.WellFormed :=
  hr.inv h0.wellFormed fun _ _ _ wf st => st.wellFormed wf

theorem TimedStep.run_step (hr : Run TimedStep w₀ h w) : Run Step w₀ h w :=
  hr.mono fun _ _ _ st => st.step

/-- The clock of the step does not go back. -/
def timed (t : Transition World Tx) : Bool :=
  decide (t.pre.clock.val ≤ t.label.now.val)

theorem timed_final {txs : List Tx} (h1 : (runAll process w [] txs).isOk = true)
    (h2 : (history process w txs).all timed = true) :
    Run TimedStep w (history process w txs) (final process w txs) := by
  have hr := run_final h1
  refine hr.of_forall fun t ht => ⟨?_, hr.step_of_mem ht⟩
  have ht' := List.all_eq_true.1 h2 t ht
  exact of_decide_eq_true ht'

/-- Every executed step of a run from a fresh world is a `Change`. -/
theorem run_change (h0 : w₀.Fresh) (hr : Run Step w₀ h w) {t : Transition World Tx} (ht : t ∈ h) :
    Change t.pre t.label.now t.label.event t.post := by
  obtain ⟨newer, older, rfl⟩ := List.append_of_mem ht
  obtain ⟨hpre, st, _⟩ := hr.split
  exact process_change (run_wellFormed h0 hpre) st

end

/-! ## A sample vault -/

def sampleKey (n : Nat) (h : BitVec.ofNat 256 n ≠ Pubkey.default := by decide) : Signer :=
  ⟨BitVec.ofNat 256 n, h⟩

/-- The parties: an admin (who is also guardian and treasury), an updater, a manager
and two investors. -/
def admin : Signer := sampleKey 1
def updater : Signer := sampleKey 2
def manager : Signer := sampleKey 3
def alice : Signer := sampleKey 4
def bob : Signer := sampleKey 5

def sampleConfig : Config where
  admin := admin.key
  navUpdater := updater.key
  treasuryAuthority := admin.key
  guardian := admin.key
  nextVaultId := 1
  platformPerformanceFeeBps := 0
  platformManagementFeeBps := 0
  maxNavDeviationBps := 10000
  maxEpochOutflowBps := 10000
  status := .normal
  pendingAdmin := Pubkey.default
  maxSlippageBps := 0

/-- A vault with a performance fee of 20% in the first epoch, before any deposit. -/
def sample : World where
  clock := 0
  key := (sampleKey 6).key
  config := sampleConfig
  managers := {manager.key}
  vault := Vault.new {
    id := 0
    authority := manager.key
    depositCap := 1000000
    minDeposit := 1
    minWithdrawalShares := 1
    performanceFeeBps := 2000
    managementFeeBps := 0
    currentTs := 0 }
  depositMint := Mint.heldBy (.wallet alice.key) 5000 (by decide)
  shareMint := Mint.empty
  depositRequests := ∅
  withdrawalRequests := ∅
  strategies := ∅

theorem sample_fresh : sample.Fresh :=
  ⟨⟨by decide, rfl, rfl, rfl, rfl⟩, _, rfl, rfl⟩

/-- Alice deposits, the price rises by half, the manager claims the performance fee
and Alice withdraws a part. -/
def sampleTxs : List Tx := [
  (Instruction.depositRequestCreate 1000 (.ok ()) 0).sentBy alice 100,
  (Instruction.navUpdate 0).sentBy updater 14400,
  (Instruction.depositRequestResolve alice.key).sentBy bob 14401,
  (Instruction.navUpdate 1500).sentBy updater 28800,
  Instruction.vaultClaimManagerFee.sentBy manager 28801,
  (Instruction.withdrawalRequestCreate 300 0).sentBy alice 28802,
  (Instruction.navUpdate 1507).sentBy updater 43200,
  (Instruction.withdrawalRequestResolve alice.key).sentBy bob 43201]

def sampleHistory (n : Nat) : List (Transition World Tx) :=
  history process sample (sampleTxs.take n)

/-- The world after the first `n` of the transactions. -/
def sampleAfter (n : Nat) : World := final process sample (sampleTxs.take n)

theorem sample_timed {n : Nat}
    (h1 : (runAll process sample [] (sampleTxs.take n)).isOk = true := by rfl)
    (h2 : (sampleHistory n).all timed = true := by rfl) :
    Run TimedStep sample (sampleHistory n) (sampleAfter n) :=
  timed_final h1 h2

end World

end HedgeVault
