import HedgeVault.Replay
import HedgeVault.VaultRun

/-!
# The books in the log

Sums over the records of a log. `LogBooks`: fee shares that were accrued were claimed or are
unclaimed, what a user asked to deposit or to withdraw was cancelled, rejected, resolved or
is open, and the shares that were minted were burned or exist. `EpochBooks`: since the last
NAV record the recorded assets moved by the settlement records alone, and these settle at
the price of that record.

All but the share supply follows from the audit of the records (`Mirror.Admits`), so the books
are in order for the program's instructions alone (`World.run_log_books`) and with the strategies of
all venues (`Custody.log_books`).
-/

namespace HedgeVault

open Lib

namespace ProgramEvent

/-! ## What a record books -/

def managerAccrued : ProgramEvent → Nat
  | .navUpdated e => e.managerFeeShares.toNat
  | _ => 0

def managerClaimed : ProgramEvent → Nat
  | .managerFeeClaimed _ _ shares => shares.toNat
  | _ => 0

def platformAccrued : ProgramEvent → Nat
  | .navUpdated e => e.platformFeeShares.toNat
  | _ => 0

def platformClaimed : ProgramEvent → Nat
  | .platformFeeClaimed _ _ shares => shares.toNat
  | _ => 0

/-- `n` when the record is about `u`. -/
def whenOf (u authority : Pubkey) (n : Nat) : Nat := if authority = u then n else 0

def deposited (u : Pubkey) : ProgramEvent → Nat
  | .depositRequested e => whenOf u e.authority e.amount.toNat
  | _ => 0

def depositCancelledOf (u : Pubkey) : ProgramEvent → Nat
  | .depositCancelled _ authority amount => whenOf u authority amount.toNat
  | _ => 0

def depositRejectedOf (u : Pubkey) : ProgramEvent → Nat
  | .depositRejected _ authority amount => whenOf u authority amount.toNat
  | _ => 0

def depositResolvedOf (u : Pubkey) : ProgramEvent → Nat
  | .depositResolved e => whenOf u e.authority e.amount.toNat
  | _ => 0

def withdrawn (u : Pubkey) : ProgramEvent → Nat
  | .withdrawalRequested e => whenOf u e.authority e.shares.toNat
  | _ => 0

def withdrawalCancelledOf (u : Pubkey) : ProgramEvent → Nat
  | .withdrawalCancelled _ authority shares => whenOf u authority shares.toNat
  | _ => 0

def withdrawalRejectedOf (u : Pubkey) : ProgramEvent → Nat
  | .withdrawalRejected _ authority shares => whenOf u authority shares.toNat
  | _ => 0

def withdrawalResolvedOf (u : Pubkey) : ProgramEvent → Nat
  | .withdrawalResolved e => whenOf u e.authority e.shares.toNat
  | _ => 0

def minted : ProgramEvent → Nat
  | .depositResolved e => e.shares.toNat
  | .managerFeeClaimed _ _ shares => shares.toNat
  | .platformFeeClaimed _ _ shares => shares.toNat
  | _ => 0

def burned : ProgramEvent → Nat
  | .withdrawalResolved e => e.shares.toNat
  | _ => 0

/-- Assets that came in by a settlement. -/
def settledIn : ProgramEvent → Nat
  | .depositResolved e => e.amount.toNat
  | _ => 0

/-- Assets that went out by a settlement. -/
def paidOut : ProgramEvent → Nat
  | .withdrawalResolved e => e.amount.toNat
  | _ => 0

def isNavUpdated : ProgramEvent → Bool
  | .navUpdated _ => true
  | _ => false

end ProgramEvent

open ProgramEvent

def booked (f : ProgramEvent → Nat) (log : List LogRecord) : Nat := (log.map fun l => f l.event).sum

namespace Mirror

variable {m : Mirror} {l : LogRecord}

theorem admits_managerFee (h : m.Admits l) :
    (m.apply l).vault.unclaimedManagerFeeShares.toNat + l.event.managerClaimed =
      m.vault.unclaimedManagerFeeShares.toNat + l.event.managerAccrued := by
  obtain ⟨time, signer, e⟩ := l
  cases e with
  | navUpdated e => exact BitVec.toNat_add_of_lt (AdmitsNavUpdate.managerFee h)
  | managerFeeClaimed _ _ shares =>
    obtain ⟨_, _, _, rfl, _⟩ := h
    show (m.vault.unclaimedManagerFeeShares - m.vault.unclaimedManagerFeeShares).toNat + _ = _
    rw [BitVec.sub_self]
    exact Nat.zero_add _
  | _ => rfl

theorem admits_platformFee (h : m.Admits l) :
    (m.apply l).vault.unclaimedPlatformFeeShares.toNat + l.event.platformClaimed =
      m.vault.unclaimedPlatformFeeShares.toNat + l.event.platformAccrued := by
  obtain ⟨time, signer, e⟩ := l
  cases e with
  | navUpdated e => exact BitVec.toNat_add_of_lt (AdmitsNavUpdate.platformFee h)
  | platformFeeClaimed _ _ shares =>
    obtain ⟨_, _, _, rfl, _⟩ := h
    show (m.vault.unclaimedPlatformFeeShares - m.vault.unclaimedPlatformFeeShares).toNat + _ = _
    rw [BitVec.sub_self]
    exact Nat.zero_add _
  | _ => rfl

/-! What `u` has in a request, when that of `k` is added to or closed. -/

section

variable {ρ : Type} {f : ρ → Nat} {d : Pubkey → Option ρ} {r : ρ} {k : Pubkey}

theorem elim_opened {n : Nat} (u : Pubkey) (hr : f r = (d k).elim 0 f + n) :
    (Function.update d k (some r) u).elim 0 f = (d u).elim 0 f + whenOf u k n := by
  unfold whenOf
  by_cases hk : k = u
  · subst hk
    rw [Function.update_self, if_pos rfl]
    exact hr
  · rw [Function.update_of_ne (Ne.symm hk), if_neg hk]; rfl

theorem elim_closed (u : Pubkey) (hr : d k = some r) :
    (Function.update d k none u).elim 0 f + whenOf u k (f r) = (d u).elim 0 f := by
  unfold whenOf
  by_cases hk : k = u
  · subst hk
    rw [Function.update_self, if_pos rfl, hr]
    exact Nat.zero_add _
  · rw [Function.update_of_ne (Ne.symm hk), if_neg hk]; rfl

end

theorem admits_deposits (u : Pubkey) (h : m.Admits l) :
    (m.apply l).depositOf u + (l.event.depositCancelledOf u + l.event.depositRejectedOf u +
      l.event.depositResolvedOf u) = m.depositOf u + l.event.deposited u := by
  obtain ⟨time, signer, e⟩ := l
  cases e with
  | depositRequested e => exact elim_opened u (AdmitsDeposit.pending h)
  | depositCancelled _ authority amount =>
    obtain ⟨_, _, r, hr, rfl, _⟩ := h
    exact elim_closed u hr
  | depositRejected vault authority amount =>
    obtain ⟨_, _, r, hr, rfl, _⟩ := h
    have hclosed : (m.depositReturned authority r.amount).depositOf u +
        whenOf u authority r.amount.toNat = m.depositOf u := elim_closed u hr
    show (m.depositReturned authority r.amount).depositOf u +
      (0 + whenOf u authority r.amount.toNat + 0) = m.depositOf u + 0
    omega
  | depositResolved e =>
    obtain ⟨r, hr, hamount, _⟩ := AdmitsDepositResolve.request h
    have hclosed : (m.depositResolved e).depositOf u + whenOf u e.authority r.amount.toNat =
        m.depositOf u := elim_closed u hr
    rw [hamount] at hclosed
    show (m.depositResolved e).depositOf u + (0 + 0 + whenOf u e.authority e.amount.toNat) =
      m.depositOf u + 0
    omega
  | _ => rfl

theorem admits_withdrawals (u : Pubkey) (h : m.Admits l) :
    (m.apply l).withdrawalOf u + (l.event.withdrawalCancelledOf u +
      l.event.withdrawalRejectedOf u + l.event.withdrawalResolvedOf u) =
      m.withdrawalOf u + l.event.withdrawn u := by
  obtain ⟨time, signer, e⟩ := l
  cases e with
  | withdrawalRequested e => exact elim_opened u (AdmitsWithdrawal.pending h)
  | withdrawalCancelled _ authority shares =>
    obtain ⟨_, _, r, hr, rfl, _⟩ := h
    exact elim_closed u hr
  | withdrawalRejected vault authority shares =>
    obtain ⟨_, _, r, hr, rfl, _⟩ := h
    have hclosed : (m.withdrawalReturned authority r.shares).withdrawalOf u +
        whenOf u authority r.shares.toNat = m.withdrawalOf u := elim_closed u hr
    show (m.withdrawalReturned authority r.shares).withdrawalOf u +
      (0 + whenOf u authority r.shares.toNat + 0) = m.withdrawalOf u + 0
    omega
  | withdrawalResolved e =>
    obtain ⟨r, hr, hshares, _⟩ := AdmitsWithdrawalResolve.request h
    have hclosed : (m.withdrawalResolved e).withdrawalOf u + whenOf u e.authority r.shares.toNat =
        m.withdrawalOf u := elim_closed u hr
    rw [hshares] at hclosed
    show (m.withdrawalResolved e).withdrawalOf u + (0 + 0 + whenOf u e.authority e.shares.toNat) =
      m.withdrawalOf u + 0
    omega
  | _ => rfl

/-! ## Between two NAV records -/

theorem apply_navPerShare (m : Mirror) (l : LogRecord) (hl : l.event.isNavUpdated = false) :
    (m.apply l).vault.navPerShare = m.vault.navPerShare := by
  obtain ⟨time, signer, e⟩ := l
  cases e with
  | navUpdated e => cases hl
  | _ => rfl

theorem admits_assets (hl : l.event.isNavUpdated = false) (h : m.Admits l) :
    (m.apply l).vault.totalAssets.toNat + l.event.paidOut =
      m.vault.totalAssets.toNat + l.event.settledIn := by
  obtain ⟨time, signer, e⟩ := l
  cases e with
  | navUpdated e => cases hl
  | depositResolved e => exact BitVec.toNat_add_of_lt (AdmitsDepositResolve.assets h)
  | withdrawalResolved e =>
    have hle := AdmitsWithdrawalResolve.assets h
    show (m.vault.totalAssets - e.amount).toNat + e.amount.toNat = m.vault.totalAssets.toNat
    rw [BitVec.toNat_sub_of_le hle]
    omega
  | _ => rfl

theorem admits_outflow (hl : l.event.isNavUpdated = false) (h : m.Admits l) :
    (m.apply l).vault.epochOutflow.toNat = m.vault.epochOutflow.toNat + l.event.paidOut := by
  obtain ⟨time, signer, e⟩ := l
  cases e with
  | navUpdated e => cases hl
  | withdrawalResolved e => exact BitVec.toNat_add_of_lt (AdmitsWithdrawalResolve.outflow h)
  | _ => rfl

end Mirror

namespace World

/-! ## The share supply -/

/-- Shares that a holder gives up outside the program. -/
def burntByHolder (tx : Tx) : Nat :=
  match tx.ix with
  | .shareBurn _ shares => shares
  | _ => 0

/-- Whether the step mints or burns shares. -/
def movesSupply : Event → Bool
  | .depositSettle _ => true
  | .withdrawalSettle _ => true
  | .claimManager => true
  | .claimPlatform => true
  | .shareBurn _ => true
  | _ => false

section

variable {w w' w₀ : World} {now : I64} {signer : Signer} {ix : Instruction} {tx : Tx}
  {h : List (Transition World Tx)} {log : List LogRecord} {burnt : Nat}

theorem booked_single (f : ProgramEvent → Nat) (l : LogRecord) : booked f [l] = f l.event :=
  Nat.add_zero _

theorem booked_eq_zero {f : ProgramEvent → Nat} {log : List LogRecord}
    (hf : ∀ l ∈ log, f l.event = 0) : booked f log = 0 := by
  unfold booked
  rw [List.sum_eq_zero_iff]
  simpa using hf

theorem logged_quiet (hquiet : movesSupply tx.event = false) :
    ∀ l ∈ logged ⟨w, tx, w'⟩, l.event.minted = 0 ∧ l.event.burned = 0 := by
  intro l hl
  obtain ⟨e, he, rfl⟩ := List.mem_map.1 hl
  obtain ⟨signer, now, ix⟩ := tx
  cases ix with
  | depositRequestResolve | withdrawalRequestResolve | vaultClaimManagerFee
  | configClaimPlatformFee | shareBurn => cases hquiet
  | depositRequestCreate | depositRequestCancel | depositRequestReject | withdrawalRequestCreate
  | withdrawalRequestCancel | withdrawalRequestReject | initializeStrategy | vaultCloseStrategy =>
    obtain ⟨_, _, rfl⟩ := List.mem_map.1 he
    exact ⟨rfl, rfl⟩
  | configUpdate args =>
    rcases List.mem_append.1 he with he | he
    · obtain ⟨_, _, rfl⟩ := List.mem_map.1 he
      exact ⟨rfl, rfl⟩
    · rw [List.mem_singleton.1 he]
      exact ⟨rfl, rfl⟩
  | depositTransfer | depositIssue | depositBurn | shareTransfer => cases he
  | _ =>
    rw [List.mem_singleton.1 he]
    exact ⟨rfl, rfl⟩

theorem Change.supply_eq {e : Event} (h : Change w now e w') (hquiet : movesSupply e = false) :
    w'.shareMint.supply = w.shareMint.supply := by
  cases h with
  | depositSettle | withdrawalSettle | claimManager | claimPlatform | shareBurn => cases hquiet
  | withdrawalPut h => exact Mint.transfer_supply h.transfer
  | withdrawalRefund h => exact Mint.transfer_supply h.transfer
  | shareGift hsupply _ => exact hsupply
  | _ => rfl

/-! The records of the steps that mint or burn. -/

theorem logged_depositResolve {u : Pubkey} {r : DepositRequest} {v : Vault} {shares : U64}
    {m s : SplMint} (h : w.DepositSettle u r v shares m s) :
    logged ⟨w, ⟨signer, now, .depositRequestResolve u⟩, w'⟩ = [⟨now, signer.key,
      .depositResolved ⟨w.key, u, r.amount, shares, w'.vault.navPerShare⟩⟩] := by
  have hreturned : returned (w.vault.resolveDeposit r.amount) 0 = shares := by rw [h.resolve]; rfl
  rw [← hreturned]
  exact congrArg (List.map _) (event_of_found _ h.found)

theorem logged_withdrawalResolve {u : Pubkey} {r : WithdrawalRequest} {v : Vault} {amount : U64}
    {m s : SplMint} (h : w.WithdrawalSettle u r v amount m s) :
    logged ⟨w, ⟨signer, now, .withdrawalRequestResolve u⟩, w'⟩ = [⟨now, signer.key,
      .withdrawalResolved ⟨w.key, u, r.shares, amount, w'.vault.navPerShare⟩⟩] := by
  have hreturned : returned (w.vault.resolveWithdrawal r.shares w.config.maxEpochOutflowBps) 0 =
      amount := by rw [h.resolve]; rfl
  rw [← hreturned]
  exact congrArg (List.map _) (event_of_found _ h.found)

theorem logged_claimManager {v : Vault} {shares : U64}
    (h : w.vault.claimManagerFee = .ok (v, shares)) :
    logged ⟨w, ⟨signer, now, .vaultClaimManagerFee⟩, w'⟩ =
      [⟨now, signer.key, .managerFeeClaimed w.key signer.key shares⟩] := by
  have hreturned : returned w.vault.claimManagerFee 0 = shares := by rw [h]; rfl
  rw [← hreturned]; rfl

theorem logged_claimPlatform {v : Vault} {shares : U64}
    (h : w.vault.claimPlatformFee = .ok (v, shares)) :
    logged ⟨w, ⟨signer, now, .configClaimPlatformFee⟩, w'⟩ =
      [⟨now, signer.key, .platformFeeClaimed w.key signer.key shares⟩] := by
  have hreturned : returned w.vault.claimPlatformFee 0 = shares := by rw [h]; rfl
  rw [← hreturned]; rfl

/-- The records of a step book what it minted and burned. -/
theorem Step.supply_logged (wf : w.WellFormed) (st : w.Step tx w') :
    w'.shareMint.supply + (booked burned (logged ⟨w, tx, w'⟩) + burntByHolder tx) =
      w.shareMint.supply + booked minted (logged ⟨w, tx, w'⟩) := by
  have hchange := process_change wf st
  by_cases hquiet : movesSupply tx.event = false
  · have hlog : ∀ l ∈ logged ⟨w, tx, w'⟩, l.event.minted = 0 ∧ l.event.burned = 0 :=
      logged_quiet hquiet
    rw [booked_eq_zero fun l hl => (hlog l hl).2, booked_eq_zero fun l hl => (hlog l hl).1,
      hchange.supply_eq hquiet]
    have hno : burntByHolder tx = 0 := by
      obtain ⟨signer, now, ix⟩ := tx
      cases ix with
      | shareBurn => exact absurd hquiet (by simp [Tx.event, movesSupply])
      | _ => rfl
    omega
  · obtain ⟨signer, now, ix⟩ := tx
    cases ix with
    | depositRequestResolve u =>
      cases hchange with
      | @depositSettle u r v shares m s h =>
        obtain ⟨_, hsupply, _⟩ := Mint.mintTo_ok h.mint
        rw [logged_depositResolve h, booked_single, booked_single]
        exact hsupply
    | withdrawalRequestResolve u =>
      cases hchange with
      | @withdrawalSettle u r v amount m s h =>
        obtain ⟨hle, hsupply, _⟩ := Mint.burn_ok h.burn
        have hback := w.shareMint.amount_le .escrow
        rw [logged_withdrawalResolve h, booked_single, booked_single]
        show s.supply + (r.shares.toNat + 0) = w.shareMint.supply + 0
        omega
    | vaultClaimManagerFee =>
      cases hchange with
      | @claimManager k v shares s h mint =>
        obtain ⟨_, hsupply, _⟩ := Mint.mintTo_ok mint
        rw [logged_claimManager h, booked_single, booked_single]
        exact hsupply
    | configClaimPlatformFee =>
      cases hchange with
      | @claimPlatform k v shares s h mint =>
        obtain ⟨_, hsupply, _⟩ := Mint.mintTo_ok mint
        rw [logged_claimPlatform h, booked_single, booked_single]
        exact hsupply
    | shareBurn src shares =>
      cases hchange with
      | @shareBurn _ s hsupply _ =>
        show s.supply + (0 + shares) = w.shareMint.supply + 0
        omega
    | _ => exact absurd rfl hquiet

/-! ## The books of a run -/

/-- The books of a log that led to `w`, where holders burned `burnt` shares themselves. -/
structure LogBooks (log : List LogRecord) (burnt : Nat) (w : World) : Prop where
  managerFee : booked managerAccrued log =
    booked managerClaimed log + w.vault.unclaimedManagerFeeShares.toNat
  platformFee : booked platformAccrued log =
    booked platformClaimed log + w.vault.unclaimedPlatformFeeShares.toNat
  deposits : ∀ u, booked (deposited u) log =
    booked (depositCancelledOf u) log + booked (depositRejectedOf u) log +
      booked (depositResolvedOf u) log + valueAt (·.amount.toNat) w.depositRequests u
  withdrawals : ∀ u, booked (withdrawn u) log =
    booked (withdrawalCancelledOf u) log + booked (withdrawalRejectedOf u) log +
      booked (withdrawalResolvedOf u) log + valueAt (·.shares.toNat) w.withdrawalRequests u
  /-- Shares that holders burned themselves are the only ones the log does not show. -/
  supply : booked minted log = booked burned log + burnt + w.shareMint.supply

theorem booked_journal {σ α : Type} (f : ProgramEvent → Nat)
    (emit : Transition σ α → List LogRecord) (h : List (Transition σ α)) :
    booked f (journal emit h) = (h.map fun t => booked f (emit t)).sum :=
  sum_journal emit (fun l => f l.event) h

/-- Of an accepted log only the supply is left to book. -/
theorem books_of_accepted (h0 : w₀.Fresh)
    (ha : Accepts Mirror.Admits Mirror.apply w₀.mirror log w.mirror)
    (hsupply : booked minted log = booked burned log + burnt + w.shareMint.supply) :
    LogBooks log burnt w := by
  obtain ⟨ho, args, _, e⟩ := h0
  refine ⟨?_, ?_, ?_, ?_, hsupply⟩
  · have hs := ha.settled (f := fun m => m.vault.unclaimedManagerFeeShares.toNat)
      (c := fun l => l.event.managerAccrued) (d := fun l => l.event.managerClaimed)
      fun _ _ _ h => Mirror.admits_managerFee h
    have hzero : w₀.mirror.vault.unclaimedManagerFeeShares.toNat = 0 := by
      show w₀.vault.unclaimedManagerFeeShares.toNat = 0
      rw [e]; rfl
    rw [hzero, Nat.zero_add, Nat.add_comm] at hs
    exact hs.symm
  · have hs := ha.settled (f := fun m => m.vault.unclaimedPlatformFeeShares.toNat)
      (c := fun l => l.event.platformAccrued) (d := fun l => l.event.platformClaimed)
      fun _ _ _ h => Mirror.admits_platformFee h
    have hzero : w₀.mirror.vault.unclaimedPlatformFeeShares.toNat = 0 := by
      show w₀.vault.unclaimedPlatformFeeShares.toNat = 0
      rw [e]; rfl
    rw [hzero, Nat.zero_add, Nat.add_comm] at hs
    exact hs.symm
  · intro u
    have hs := ha.settled (f := fun m => m.depositOf u) (c := fun l => l.event.deposited u)
      (d := fun l => l.event.depositCancelledOf u + l.event.depositRejectedOf u +
        l.event.depositResolvedOf u) fun _ _ _ h => Mirror.admits_deposits u h
    have hzero : w₀.mirror.depositOf u = 0 := by
      rw [mirror_depositOf, ho.depositRequests, valueAt_empty]
    rw [hzero, Nat.zero_add, mirror_depositOf, List.sum_map_add, List.sum_map_add,
      Nat.add_comm] at hs
    exact hs.symm
  · intro u
    have hs := ha.settled (f := fun m => m.withdrawalOf u) (c := fun l => l.event.withdrawn u)
      (d := fun l => l.event.withdrawalCancelledOf u + l.event.withdrawalRejectedOf u +
        l.event.withdrawalResolvedOf u) fun _ _ _ h => Mirror.admits_withdrawals u h
    have hzero : w₀.mirror.withdrawalOf u = 0 := by
      rw [mirror_withdrawalOf, ho.withdrawalRequests, valueAt_empty]
    rw [hzero, Nat.zero_add, mirror_withdrawalOf, List.sum_map_add, List.sum_map_add,
      Nat.add_comm] at hs
    exact hs.symm

theorem run_supply (h0 : w₀.Fresh) (hr : Run Step w₀ h w) : booked minted (journal logged h) =
    booked burned (journal logged h) + (h.map fun t => burntByHolder t.label).sum +
      w.shareMint.supply := by
  have hsettled := hr.settled (f := fun w => w.shareMint.supply)
    (c := fun t => booked minted (logged t))
    (d := fun t => booked burned (logged t) + burntByHolder t.label)
    fun h s a s' hs st => Step.supply_logged (run_wellFormed h0 hs) st
  have hzero : w₀.shareMint.supply = 0 := by rw [h0.1.shareMint]; rfl
  rw [List.sum_map_add, hzero, ← booked_journal, ← booked_journal] at hsettled
  omega

/-- The books of the program's instructions, whoever moves the tokens of the vault. -/
theorem run_log_books (h0 : w₀.Fresh) (hr : Run Step w₀ h w) :
    LogBooks (journal logged h) (h.map fun t => burntByHolder t.label).sum w :=
  books_of_accepted h0 (run_followed h0 hr) (run_supply h0 hr)

/-! ## The books of an epoch -/

/-- The books of the records `log` since the record `n`, which led to `w`. -/
structure EpochBooks (n : NavUpdated) (log : List LogRecord) (w : World) : Prop where
  assets : w.vault.totalAssets.toNat + booked paidOut log =
    n.totalAssets.toNat + booked settledIn log
  outflow : w.vault.epochOutflow.toNat = booked paidOut log
  price : w.vault.navPerShare = n.navPerShare
  /-- All settlements are at the price of `n`. -/
  deposits : ∀ l ∈ log, ∀ e, l.event = .depositResolved e → e.navPerShare = n.navPerShare ∧
    e.shares.toNat = sharesFor NAV_SCALE e.amount.toNat n.navPerShare.toNat
  withdrawals : ∀ l ∈ log, ∀ e, l.event = .withdrawalResolved e → e.navPerShare = n.navPerShare ∧
    e.amount.toNat = assetsFor NAV_SCALE e.shares.toNat n.navPerShare.toNat

/-- The price of the records after `n` is its price. -/
theorem navPerShare_since {m : Mirror} {l : LogRecord} {n : NavUpdated}
    (hn : l.event = .navUpdated n) {log : List LogRecord}
    (hlog : ∀ x ∈ log, x.event.isNavUpdated = false) :
    (log.foldl Mirror.apply (m.apply l)).vault.navPerShare = n.navPerShare := by
  rw [foldl_frame (f := fun m : Mirror => m.vault.navPerShare) (p := fun l => l.event.isNavUpdated)
    Mirror.apply_navPerShare hlog]
  unfold Mirror.apply
  rw [hn]; rfl

theorem epoch_books_of_accepted {m₀ : Mirror} {before : List LogRecord} {l : LogRecord}
    {n : NavUpdated} (ha : Accepts Mirror.Admits Mirror.apply m₀ (before ++ l :: log) w.mirror)
    (hn : l.event = .navUpdated n) (hlog : ∀ x ∈ log, x.event.isNavUpdated = false) :
    EpochBooks n log w := by
  have hposted : ∀ m : Mirror, (m.apply l).vault = n.on m.vault l.time := by
    intro m
    unfold Mirror.apply
    rw [hn]
  rcases ha.split.2 with _ | ⟨_, hrest⟩
  -- a settlement was audited against the replay of the records before it
  have hsettled : ∀ x ∈ log, ∃ m : Mirror, m.Admits x ∧ m.vault.navPerShare = n.navPerShare := by
    intro x hx
    obtain ⟨early, late, rfl⟩ := List.append_of_mem hx
    exact ⟨_, hrest.admitted, navPerShare_since hn fun y hy => hlog y (List.mem_append_left _ hy)⟩
  refine ⟨?_, ?_, ?_, ?_, ?_⟩
  · have hs := hrest.settled (f := fun m => m.vault.totalAssets.toNat)
      (c := fun l => l.event.settledIn) (d := fun l => l.event.paidOut)
      fun _ x hx h => Mirror.admits_assets (hlog x hx) h
    rw [hposted] at hs
    exact hs
  · have hs := hrest.settled (f := fun m => m.vault.epochOutflow.toNat)
      (c := fun l => l.event.paidOut) (d := fun _ => 0)
      fun _ x hx h => Mirror.admits_outflow (hlog x hx) h
    have hzero : (log.map fun _ => 0).sum = 0 := by simp
    rw [hposted, hzero] at hs
    exact hs.trans (Nat.zero_add _)
  · have hprice := navPerShare_since (m := before.foldl Mirror.apply m₀) hn hlog
    rw [hrest.foldl_eq] at hprice
    exact hprice
  · intro x hx e he
    obtain ⟨m, hadmits, hprice⟩ := hsettled x hx
    unfold Mirror.Admits at hadmits
    rw [he] at hadmits
    have hresolve : m.AdmitsDepositResolve e := hadmits
    exact ⟨hresolve.price.trans hprice, hprice ▸ hresolve.shares⟩
  · intro x hx e he
    obtain ⟨m, hadmits, hprice⟩ := hsettled x hx
    unfold Mirror.Admits at hadmits
    rw [he] at hadmits
    have hresolve : m.AdmitsWithdrawalResolve e := hadmits
    exact ⟨hresolve.price.trans hprice, hprice ▸ hresolve.amount⟩

/-- What the records since the last NAV record book. -/
theorem run_epoch_books (h0 : w₀.Fresh) (hr : Run Step w₀ h w) {before : List LogRecord}
    {l : LogRecord} {n : NavUpdated} (hsplit : journal logged h = before ++ l :: log)
    (hn : l.event = .navUpdated n) (hlog : ∀ x ∈ log, x.event.isNavUpdated = false) :
    EpochBooks n log w := by
  have ha := run_followed h0 hr
  rw [hsplit] at ha
  exact epoch_books_of_accepted ha hn hlog

end

end World

namespace Custody

open World (LogBooks EpochBooks books_of_accepted epoch_books_of_accepted booked_eq_zero
  booked_journal)

variable {V : Venues} {c c' c₀ : Custody} {signer : Signer} {ix : CustodyInstruction}
  {tx : CustodyTx} {p : Payment} {ps : List Payment} {h : List (Transition Custody CustodyTx)}

/-! ## The books with the strategies -/

def burntByHolder (tx : CustodyTx) : Nat :=
  match tx.ix with
  | .program ix => World.burntByHolder ⟨tx.signer, tx.now, ix⟩
  | _ => 0

/-- Payments of shares are transfers. -/
theorem Paid.shareSupply (hp : Paid V c p c') :
    c'.world.shareMint.supply = c.world.shareMint.supply := by
  cases hp with
  | booked => rfl
  | @moved kind holder w _ h =>
    cases kind with
    | deposit =>
      obtain ⟨m, _, rfl⟩ := depositTransfer_ok h
      rfl
    | share =>
      obtain ⟨m, hm, rfl⟩ := shareTransfer_ok h
      exact Mint.transfer_supply hm

theorem settleAll_shareSupply (h : settleAll V c ps = .ok c') :
    c'.world.shareMint.supply = c.world.shareMint.supply := by
  induction ps generalizing c with
  | nil =>
    cases h
    rfl
  | cons p ps ih =>
    rw [settleAll_cons] at h
    obtain ⟨c₁, hp, hrest⟩ := bind_eq_ok.1 h
    exact (ih hrest).trans (settle_paid hp).shareSupply

theorem Worked.shareSupply {w : World} (hw : Worked V c signer ix w c') :
    c'.world.shareMint.supply = c.world.shareMint.supply := by
  obtain ⟨c₁, hsettled, hworld, _⟩ := hw.settled
  have hstart : w.shareMint = c.world.shareMint := by
    have hacted := hw.acted
    rcases hrecord : ix.record with _ | k
    · rw [hrecord] at hacted
      rw [hacted]
    · rw [hrecord] at hacted
      obtain ⟨_, _, _, rfl⟩ := hacted.stamped
      rfl
  rw [hworld, settleAll_shareSupply hsettled]
  exact congrArg (·.supply) hstart

/-- The events of the strategy handlers are not about shares. -/
theorem work_quiet (hwork : ix.isWork = true) {e : ProgramEvent}
    (he : e ∈ emitted V c c' signer ix) : e.minted = 0 ∧ e.burned = 0 := by
  cases ix with
  | program | closeStrategy => cases hwork
  | phoenixUpdate | donate => cases he
  | phoenixDepositFunds | phoenixEmberWithdraw | phoenixCancelOrders =>
    obtain ⟨_, _, rfl⟩ := List.mem_map.1 he
    exact ⟨rfl, rfl⟩
  | jupiterSwap _ _ _ _ _ _ call | dlmmAddLiquidity _ _ _ call | dlmmRemoveLiquidity _ _ call
  | dlmmClaimFee _ _ call | phoenixWithdrawFunds _ _ call | phoenixPlaceLimitOrder _ _ _ call
  | phoenixPlaceMarketOrder _ _ _ call =>
    cases call with
    | error => cases he
    | ok =>
      obtain ⟨_, _, rfl⟩ := List.mem_map.1 he
      exact ⟨rfl, rfl⟩

theorem booked_seen (f : ProgramEvent → Nat) {w w' : World} {now : I64} (ix : Instruction) :
    booked f (World.logged ⟨w, ⟨signer, now, seen ix⟩, w'⟩) =
      booked f (World.logged ⟨w, ⟨signer, now, ix⟩, w'⟩) := by
  unfold World.logged
  rw [emitted_seen]

theorem Step.supply_logged (wf : c.world.WellFormed) (st : Step V c tx c') :
    c'.world.shareMint.supply + (booked burned (logged V ⟨c, tx, c'⟩) + burntByHolder tx) =
      c.world.shareMint.supply + booked minted (logged V ⟨c, tx, c'⟩) := by
  obtain ⟨signer, now, ix⟩ := tx
  obtain ⟨ix', rfl, hexecuted⟩ | ⟨k, program, rfl, hclosed⟩ | ⟨hwork, w, hw⟩ := st.worked
  · obtain ⟨w', hx, rfl⟩ := execute_ok hexecuted
    have hseen : World.Step c.world ⟨signer, now, seen ix'⟩ w' := hx.executed
    have hsupply := World.Step.supply_logged wf hseen
    rw [booked_seen, booked_seen] at hsupply
    have hburnt : World.burntByHolder ⟨signer, now, seen ix'⟩ =
        World.burntByHolder ⟨signer, now, ix'⟩ := by
      cases ix' <;> rfl
    rw [hburnt] at hsupply
    exact hsupply
  · obtain ⟨_, w', _, _, hstep, _, rfl⟩ := closeStrategy_ok hclosed
    have hclose : World.Step c.world ⟨signer, now, .vaultCloseStrategy k (.ok ())⟩ w' := hstep
    exact World.Step.supply_logged wf hclose
  · have hquiet : ∀ l ∈ logged V ⟨c, ⟨signer, now, ix⟩, c'⟩,
        l.event.minted = 0 ∧ l.event.burned = 0 := by
      intro l hl
      obtain ⟨e, he, rfl⟩ := List.mem_map.1 hl
      exact work_quiet hwork he
    have hnone : burntByHolder ⟨signer, now, ix⟩ = 0 := by
      cases ix with
      | program => cases hwork
      | _ => rfl
    rw [booked_eq_zero fun l hl => (hquiet l hl).1, booked_eq_zero fun l hl => (hquiet l hl).2,
      hnone]
    exact hw.shareSupply

theorem run_supply (h0 : c₀.world.Fresh) (hr : Run (Step V) c₀ h c) :
    booked minted (journal (logged V) h) = booked burned (journal (logged V) h) +
      (h.map fun t => burntByHolder t.label).sum + c.world.shareMint.supply := by
  have hsettled := hr.settled (f := fun c => c.world.shareMint.supply)
    (c := fun t => booked minted (logged V t))
    (d := fun t => booked burned (logged V t) + burntByHolder t.label)
    fun _ _ _ _ hs st => Step.supply_logged (run_legible h0 hs).wellFormed st
  have hzero : c₀.world.shareMint.supply = 0 := by
    rw [h0.1.shareMint]
    rfl
  rw [List.sum_map_add, hzero, ← booked_journal, ← booked_journal] at hsettled
  omega

/-- The books of every run of the program. -/
theorem log_books (h0 : c₀.world.Fresh) (hr : Run (Step V) c₀ h c) :
    LogBooks (journal (logged V) h) (h.map fun t => burntByHolder t.label).sum c.world :=
  books_of_accepted h0 (run_followed h0 .nil hr) (run_supply h0 hr)

/-- The books since the last NAV record of any run. -/
theorem log_epoch_books (h0 : c₀.world.Fresh) (hr : Run (Step V) c₀ h c)
    {before log : List LogRecord} {l : LogRecord} {n : NavUpdated} (hsplit : journal (logged V) h = before ++ l :: log)
    (hn : l.event = .navUpdated n) (hlog : ∀ x ∈ log, x.event.isNavUpdated = false) :
    EpochBooks n log c.world := by
  have ha := run_followed h0 .nil hr
  rw [hsplit] at ha
  exact epoch_books_of_accepted ha hn hlog

open World (updater manager alice bob)

/-- Of 1000 shares bought at 1.0 Alice gives 300 back. They are paid after the next post, when 500
are in a position. -/
def bookTxs : List CustodyTx := [
  (CustodyInstruction.program (.depositRequestCreate 1000 (.ok ()) 0)).sentBy alice 100,
  (CustodyInstruction.program (.navUpdate 0)).sentBy updater 14400,
  (CustodyInstruction.program (.depositRequestResolve alice.key)).sentBy bob 14401,
  (CustodyInstruction.program (.initializeStrategy (.meteoraDlmm 90) (.ok ()))).sentBy
    manager 14402,
  (CustodyInstruction.program (.withdrawalRequestCreate 300 0)).sentBy alice 14403,
  (CustodyInstruction.program (.navUpdate 1100)).sentBy updater 28800,
  (CustodyInstruction.dlmmAddLiquidity 90 500 0 (.ok ⟨500, 0, 10, []⟩)).sentBy manager 28801,
  (CustodyInstruction.program (.withdrawalRequestResolve alice.key)).sentBy bob 28802]

theorem book_run : Run (Step sampleVenues) sample (sampleHistory bookTxs) (sampleAfter bookTxs) :=
  run_final (by rfl)

theorem log_books_sample : LogBooks (journal (logged sampleVenues) (sampleHistory bookTxs))
    ((sampleHistory bookTxs).map fun t => burntByHolder t.label).sum (sampleAfter bookTxs).world :=
  log_books sample_fresh.world book_run

/-- After the post of 1100 the manager fills the position and Alice is paid. -/
theorem log_epoch_books_sample :
    EpochBooks ⟨sample.world.key, 2, 1100, 1080550098, 1080550098, 18, 0, false⟩
      [⟨I64.literal 28801 rfl, manager.key, .meteoraDlmmLiquidityAdded
          ⟨⟨sample.world.key, 90, 0⟩, 90, 500, 0, 60, 70, 500, 0⟩⟩,
        ⟨I64.literal 28802 rfl, bob.key,
          .withdrawalResolved ⟨sample.world.key, alice.key, 300, 324, 1080550098⟩⟩]
      (sampleAfter bookTxs).world := by
  have hlog : journal (logged sampleVenues) (sampleHistory bookTxs) =
      (journal (logged sampleVenues) (sampleHistory bookTxs)).take 5 ++
        ⟨I64.literal 28800 rfl, updater.key,
          .navUpdated ⟨sample.world.key, 2, 1100, 1080550098, 1080550098, 18, 0, false⟩⟩ ::
        [⟨I64.literal 28801 rfl, manager.key, .meteoraDlmmLiquidityAdded
            ⟨⟨sample.world.key, 90, 0⟩, 90, 500, 0, 60, 70, 500, 0⟩⟩,
          ⟨I64.literal 28802 rfl, bob.key,
            .withdrawalResolved ⟨sample.world.key, alice.key, 300, 324, 1080550098⟩⟩] := by rfl
  refine log_epoch_books sample_fresh.world book_run hlog rfl ?_
  rintro x (_ | ⟨_, _ | ⟨_, ⟨⟩⟩⟩)
  · rfl
  · rfl

end Custody

end HedgeVault
