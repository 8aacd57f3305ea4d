import HedgeVault.Reachable

/-!
# The exits of a deposit

An open deposit leaves by the owner's cancel, by anyone's resolve or by the admin's
reject. The first two are gated by complementary checks but for `DepositStuck`: a
nonzero NAV covers the request, so it cannot be cancelled, and at that NAV the resolve
would mint no share or a number out of range (`deposit_exit_iff`). The reject is always
accepted.
-/

namespace HedgeVault

open Lib

namespace World

/-- Deposits are open: the protocol and the vault are normal and deposits not paused. -/
def DepositsOpen (w : World) : Prop :=
  w.config.status = .normal ∧ w.vault.status = .normal ∧ ¬ w.vault.isDepositPaused

/-- The owner's cancel or anyone's resolve passes the checks of the request and the vault. -/
def DepositExit (w : World) (r : DepositRequest) : Prop :=
  (r.isCancellable w.vault.navEpoch w.vault.navPerShare = .ok () ∧
    ∃ v, w.vault.cancelDeposit r.amount = .ok v) ∨
  (r.isResolvable w.vault.navEpoch = .ok () ∧
    ∃ v shares, w.vault.resolveDeposit r.amount = .ok (v, shares))

/-- A nonzero NAV covers the request and does not convert it to a number of shares and
an asset total in range. -/
def DepositStuck (w : World) (r : DepositRequest) : Prop :=
  r.epoch < w.vault.navEpoch ∧ w.vault.navPerShare ≠ 0 ∧
  (sharesFor NAV_SCALE r.amount.toNat w.vault.navPerShare.toNat = 0 ∨
    U64_MAX < sharesFor NAV_SCALE r.amount.toNat w.vault.navPerShare.toNat ∨
    U64_MAX < w.vault.totalAssets.toNat + r.amount.toNat)

section

variable {w w₀ : World} {u : Pubkey} {r : DepositRequest} {h : List (Transition World Tx)}

theorem isCancellable_iff : r.isCancellable w.vault.navEpoch w.vault.navPerShare = .ok () ↔
    w.vault.navPerShare = 0 ∨ ¬ r.epoch < w.vault.navEpoch := by
  rw [DepositRequest.isCancellable, validate_eq_ok, BitVec.not_lt]

theorem isResolvable_iff : r.isResolvable w.vault.navEpoch = .ok () ↔
    r.epoch < w.vault.navEpoch := by
  rw [DepositRequest.isResolvable, validate_eq_ok]

/-- The escrow covers every open request, so a cancel fails by its own gate alone. -/
theorem Sound.exists_cancelDeposit (s : w.Sound) (found : w.depositRequests.lookup u = some r) :
    ∃ v, w.vault.cancelDeposit r.amount = .ok v :=
  Vault.exists_cancelDeposit (s.amount_le found)

theorem Sound.exists_resolveDeposit_iff (s : w.Sound)
    (found : w.depositRequests.lookup u = some r) :
    (∃ v shares, w.vault.resolveDeposit r.amount = .ok (v, shares)) ↔
      w.vault.navPerShare ≠ 0 ∧
      0 < sharesFor NAV_SCALE r.amount.toNat w.vault.navPerShare.toNat ∧
      sharesFor NAV_SCALE r.amount.toNat w.vault.navPerShare.toNat ≤ U64_MAX ∧
      w.vault.totalAssets.toNat + r.amount.toNat ≤ U64_MAX := by
  constructor
  · rintro ⟨v, shares, hv⟩
    obtain ⟨hnav, hshares, hpos, _, hassets, _⟩ := Vault.resolveDeposit_ok hv
    refine ⟨?_, hshares ▸ hpos, hshares ▸ toNat_le_max shares, hassets ▸ toNat_le_max _⟩
    intro h0
    rw [h0] at hnav
    exact absurd hnav (by decide)
  · rintro ⟨hnav, hpos, hmax, hassets⟩
    have hnav' : 0 < w.vault.navPerShare.toNat :=
      Nat.pos_of_ne_zero fun h0 => hnav (BitVec.eq_of_toNat_eq h0)
    exact Vault.exists_resolveDeposit hnav' hpos hmax (s.amount_le found) hassets

/-- The two gates leave out exactly the stuck deposits. -/
theorem Sound.depositExit_iff (s : w.Sound) (found : w.depositRequests.lookup u = some r) :
    w.DepositExit r ↔ ¬ w.DepositStuck r := by
  have hcancel := s.exists_cancelDeposit found
  have hresolve := s.exists_resolveDeposit_iff found
  unfold DepositExit DepositStuck
  rw [isCancellable_iff, isResolvable_iff, hresolve]
  by_cases hcov : r.epoch < w.vault.navEpoch
  · by_cases hnav : w.vault.navPerShare = 0
    · exact iff_of_true (.inl ⟨.inl hnav, hcancel⟩) fun hs => hs.2.1 hnav
    · simp only [hcov, hnav, ne_eq, not_true_eq_false, not_false_eq_true, or_self, false_and,
        true_and, false_or]
      omega
  · exact iff_of_true (.inl ⟨.inr hcov, hcancel⟩) fun hs => hcov hs.1

/-! ## The transactions -/

variable (s : w.Sound) (found : w.depositRequests.lookup u = some r)

include s found

theorem exists_refundDeposit : ∃ w', w.refundDeposit u r = .ok w' := by
  obtain ⟨v, hv⟩ := s.exists_cancelDeposit found
  obtain ⟨m, hm⟩ := Mint.exists_transfer (.wallet u)
    ((s.amount_le found).trans s.depositEscrow)
  simp only [refundDeposit, bind_eq_ok, pure_eq_ok, ofToken_eq_ok]
  exact ⟨_, v, hv, m, hm, rfl⟩

theorem depositRequestCancel_accepted_iff {owner : Signer} (hu : owner.key = u) :
    (∃ w', w.depositRequestCancel owner = .ok w') ↔
      r.isCancellable w.vault.navEpoch w.vault.navPerShare = .ok () := by
  subst hu
  obtain ⟨ha, _, hk, _⟩ := s.wellFormed.deposit _ r found
  simp only [depositRequestCancel, DepositRequest.validateAuthority,
    DepositRequest.validateVault, bind_eq_ok, load_eq_ok, validate_eq_ok]
  constructor
  · rintro ⟨w', r', found', _, _, _, _, _, hc, _⟩
    rw [found] at found'
    cases found'
    exact hc
  · intro hc
    obtain ⟨w', hw'⟩ := exists_refundDeposit s found
    exact ⟨w', r, found, (), ha.symm, (), hk.symm, (), hc, hw'⟩

theorem exists_depositRequestReject {admin : Signer} (hadmin : w.config.admin = admin.key) :
    ∃ w', w.depositRequestReject admin u = .ok w' := by
  obtain ⟨ha, _, hk, _⟩ := s.wellFormed.deposit _ r found
  obtain ⟨w', hw'⟩ := exists_refundDeposit s found
  simp only [depositRequestReject, DepositRequest.validateAuthority,
    DepositRequest.validateVault, Config.validateAdmin, bind_eq_ok, load_eq_ok, validate_eq_ok]
  exact ⟨w', r, found, (), hadmin, (), ha.symm, (), hk.symm, hw'⟩

/-- With deposits open, and as far as the share mint has room for the shares. -/
theorem depositRequestResolve_accepted_iff (hopen : w.DepositsOpen)
    (hroom : w.shareMint.supply +
      sharesFor NAV_SCALE r.amount.toNat w.vault.navPerShare.toNat ≤ U64_MAX) :
    (∃ w', w.depositRequestResolve u = .ok w') ↔
      r.isResolvable w.vault.navEpoch = .ok () ∧
      ∃ v shares, w.vault.resolveDeposit r.amount = .ok (v, shares) := by
  obtain ⟨ha, _, hk, _⟩ := s.wellFormed.deposit _ r found
  obtain ⟨h1, h2, h3⟩ := hopen
  simp only [depositRequestResolve, Config.isProtocolOperational, Vault.isVaultOperational,
    Vault.validateDepositNotPaused, DepositRequest.validateAuthority,
    DepositRequest.validateVault, bind_eq_ok, load_eq_ok, validate_eq_ok, pure_eq_ok,
    ofToken_eq_ok]
  constructor
  · rintro ⟨w', r', found', _, _, _, _, _, _, _, _, _, _, _, hres, ⟨v, shares⟩, hv, _⟩
    rw [found] at found'
    cases found'
    exact ⟨hres, v, shares, hv⟩
  · rintro ⟨hres, v, shares, hv⟩
    obtain ⟨_, hshares, _⟩ := Vault.resolveDeposit_ok hv
    rw [← hshares] at hroom
    obtain ⟨m, hm⟩ := Mint.exists_transfer .vault
      ((s.amount_le found).trans s.depositEscrow)
    obtain ⟨n, hn⟩ := Mint.exists_mintTo (k := .wallet u) hroom
    exact ⟨_, r, found, (), h1, (), h2, (), h3, (), ha.symm, (), hk.symm, (), hres,
      (v, shares), hv, m, hm, n, hn, rfl⟩

end

section

variable {w w₀ : World} {u : Pubkey} {r : DepositRequest} {h : List (Transition World Tx)}

/-- While deposits are open, the owner's cancel or anyone's resolve passes for every
open deposit that is not stuck; both transactions are accepted exactly then, the token
program permitting; and the admin's reject is accepted for every open deposit. -/
theorem deposit_exit_iff (h0 : w₀.Fresh) (hr : Run Step w₀ h w) (hopen : w.DepositsOpen)
    (found : w.depositRequests.lookup u = some r) :
    (w.DepositExit r ↔ ¬ w.DepositStuck r) ∧
    (∀ owner now, owner.key = u →
      ((∃ w', w.process ⟨owner, now, .depositRequestCancel⟩ = .ok w') ↔
        r.isCancellable w.vault.navEpoch w.vault.navPerShare = .ok ())) ∧
    (w.shareMint.supply + sharesFor NAV_SCALE r.amount.toNat w.vault.navPerShare.toNat ≤ U64_MAX →
      ∀ resolver now, ((∃ w', w.process ⟨resolver, now, .depositRequestResolve u⟩ = .ok w') ↔
        r.isResolvable w.vault.navEpoch = .ok () ∧
        ∃ v shares, w.vault.resolveDeposit r.amount = .ok (v, shares))) ∧
    (∀ admin now, w.config.admin = admin.key →
      ∃ w', w.process ⟨admin, now, .depositRequestReject u⟩ = .ok w') := by
  have s := run_sound h0 hr
  refine ⟨s.depositExit_iff found, fun owner now hu => ?_, fun hroom resolver now => ?_,
    fun admin now hadmin => ?_⟩
  · exact depositRequestCancel_accepted_iff (s.atClock now) found hu
  · exact depositRequestResolve_accepted_iff (s.atClock now) found hopen hroom
  · exact exists_depositRequestReject (s.atClock now) found hadmin

/-- Alice's first deposit is covered and can be resolved. -/
theorem deposit_exit_iff_sample : (sampleAfter 2).DepositExit
    ⟨alice.key, sample.key, 1000, 0, ⟨100, by decide, by decide⟩, 0⟩ := by
  have hexit := deposit_exit_iff sample_fresh (TimedStep.run_step (sample_timed (n := 2)))
    (u := alice.key) (r := ⟨alice.key, sample.key, 1000, 0, ⟨100, by decide, by decide⟩, 0⟩)
    ⟨by rfl, by rfl, by decide⟩ (by rfl)
  exact hexit.1.2 fun hstuck => absurd hstuck.2.2 (by decide)

/-! ## Deposits without an exit

Bob's deposit is covered with one token at a price of 1.8, which converts to no share; with
nearly all tokens there can be at a price of 0.99, which converts to too many shares; and with
as many after a gain, when the assets of the vault and his do not add up in 64 bits. -/

def dustTxs : List Tx := [
  (Instruction.depositRequestCreate 1000 (.ok ()) 0).sentBy alice 100,
  (Instruction.navUpdate 0).sentBy updater 14400,
  (Instruction.depositRequestResolve alice.key).sentBy bob 14401,
  (Instruction.depositTransfer (.wallet alice.key) (.wallet bob.key) 200).sentBy alice 14402,
  (Instruction.depositRequestCreate 1 (.ok ()) 0).sentBy bob 14403,
  (Instruction.navUpdate 2000).sentBy updater 28800]

/-- A strategy holds half of the vault's assets, and bob all tokens but those. -/
def hugeTxs (totalAssets : U64) : List Tx := [
  (Instruction.depositRequestCreate 1000 (.ok ()) 0).sentBy alice 100,
  (Instruction.navUpdate 0).sentBy updater 14400,
  (Instruction.depositRequestResolve alice.key).sentBy bob 14401,
  (Instruction.depositTransfer .vault (.wallet manager.key) 500).sentBy manager 14402,
  (Instruction.vaultUpdate ⟨none, none, some 18446744073709551615, none, none, none, none,
    none⟩).sentBy manager 14403,
  (Instruction.depositTransfer (.wallet alice.key) (.wallet bob.key) 4000).sentBy alice 14404,
  (Instruction.depositIssue (.wallet bob.key) 18446744073709546615).sentBy admin 14405,
  (Instruction.depositRequestCreate 18446744073709550615 (.ok ()) 0).sentBy bob 14406,
  (Instruction.navUpdate totalAssets).sentBy updater 28800]

def bobsDeposit (amount : U64) (createdTs : I64) : DepositRequest :=
  ⟨bob.key, sample.key, amount, 1, createdTs, 0⟩

/-- After the transactions bob's deposit is open, with deposits open, and has no exit. -/
structure Strands (txs : List Tx) (r : DepositRequest) : Prop where
  run : Run TimedStep sample (history process sample txs) (final process sample txs)
  depositsOpen : (final process sample txs).DepositsOpen
  found : (final process sample txs).depositRequests.lookup bob.key = some r
  noExit : ¬ (final process sample txs).DepositExit r

/-- A covered deposit that cannot be resolved has no exit. -/
theorem strands_of_covered {txs : List Tx} (hok : (runAll process sample [] txs).isOk = true)
    (htimed : (history process sample txs).all timed = true)
    (hopen : (final process sample txs).DepositsOpen)
    (found : (final process sample txs).depositRequests.lookup bob.key = some r)
    (hstuck : (final process sample txs).DepositStuck r) : Strands txs r := by
  have hr := timed_final hok htimed
  refine ⟨hr, hopen, found, fun hexit => ?_⟩
  exact ((run_sound sample_fresh (TimedStep.run_step hr)).depositExit_iff found).1 hexit hstuck

/-- Not every open deposit has an exit, and each of the three reasons occurs by itself. -/
theorem deposits_stuck :
    (¬ ∀ (w₀ w : World) (h : List (Transition World Tx)) (u : Pubkey) (r : DepositRequest),
      w₀.Fresh → 0 ≤ w₀.clock.val → Run TimedStep w₀ h w → w.DepositsOpen →
      w.depositRequests.lookup u = some r → w.DepositExit r) ∧
    (Strands dustTxs (bobsDeposit 1 (I64.literal 14403 rfl)) ∧
      sharesFor NAV_SCALE 1 (final process sample dustTxs).vault.navPerShare.toNat = 0) ∧
    (Strands (hugeTxs 990) (bobsDeposit 18446744073709550615 (I64.literal 14406 rfl)) ∧
      U64_MAX < sharesFor NAV_SCALE 18446744073709550615
        (final process sample (hugeTxs 990)).vault.navPerShare.toNat ∧
      (final process sample (hugeTxs 990)).vault.totalAssets.toNat + 18446744073709550615 ≤
        U64_MAX) ∧
    (Strands (hugeTxs 1500) (bobsDeposit 18446744073709550615 (I64.literal 14406 rfl)) ∧
      U64_MAX < (final process sample (hugeTxs 1500)).vault.totalAssets.toNat +
        18446744073709550615 ∧
      sharesFor NAV_SCALE 18446744073709550615
        (final process sample (hugeTxs 1500)).vault.navPerShare.toNat ≤ U64_MAX) := by
  have hdust : Strands dustTxs (bobsDeposit 1 (I64.literal 14403 rfl)) :=
    strands_of_covered (by rfl) (by rfl) ⟨by rfl, by rfl, by decide⟩ (by rfl)
      ⟨by decide, by decide, .inl (by decide)⟩
  have hmany : Strands (hugeTxs 990) (bobsDeposit 18446744073709550615 (I64.literal 14406 rfl)) :=
    strands_of_covered (by rfl) (by rfl) ⟨by rfl, by rfl, by decide⟩ (by rfl)
      ⟨by decide, by decide, .inr (.inl (by decide))⟩
  have hassets : Strands (hugeTxs 1500)
      (bobsDeposit 18446744073709550615 (I64.literal 14406 rfl)) :=
    strands_of_covered (by rfl) (by rfl) ⟨by rfl, by rfl, by decide⟩ (by rfl)
      ⟨by decide, by decide, .inr (.inr (by decide))⟩
  refine ⟨fun hall => ?_, ⟨hdust, by decide⟩, ⟨hmany, by decide, by decide⟩,
    ⟨hassets, by decide, by decide⟩⟩
  exact hdust.noExit (hall sample _ _ bob.key _ sample_fresh (by decide) hdust.run
    hdust.depositsOpen hdust.found)

end

end World

end HedgeVault
