import HedgeVault.Genesis
import HedgeVault.Lib.Escrow
import HedgeVault.Lib.Pool

/-!
# The escrow ledger

Each escrow is an escrow book (`depositBook`, `withdrawalBook`): the vault's counter,
the sum over the open requests, the balance of the escrow account, and what each
request holds. A step of the world is the step of both books that its event names
(`Change.deposit_step`, `Change.withdrawal_step`), so after every run they are
balanced. `DepositMoved` and `WithdrawalMoved` say where the tokens themselves went.
-/

namespace HedgeVault

open Lib Function

namespace World

def depositBook (w : World) : Book Pubkey where
  pending := w.vault.pendingDeposits.toNat
  claimed := total (·.amount.toNat) w.depositRequests
  held := w.depositMint.amount .escrow
  owed := valueAt (·.amount.toNat) w.depositRequests

def withdrawalBook (w : World) : Book Pubkey where
  pending := w.vault.pendingWithdrawalShares.toNat
  claimed := total (·.shares.toNat) w.withdrawalRequests
  held := w.shareMint.amount .escrow
  owed := valueAt (·.shares.toNat) w.withdrawalRequests

end World

def Event.depositMove : Event → Move Pubkey
  | .depositPut u amount => .put u amount.toNat
  | .depositRefund u => .take u .refund
  | .depositSettle u => .take u .settle
  | .depositGift n => .gift n
  | _ => .idle

def Event.withdrawalMove : Event → Move Pubkey
  | .withdrawalPut u shares => .put u shares.toNat
  | .withdrawalRefund u => .take u .refund
  | .withdrawalSettle u => .take u .settle
  | .shareGift n => .gift n
  | _ => .idle

/-- The moves of a history on the deposit escrow, newest first. -/
def depositMoves (h : List (Transition World Tx)) : List (Move Pubkey) :=
  h.map fun t => t.label.event.depositMove

/-- The moves of a history on the share escrow, newest first. -/
def withdrawalMoves (h : List (Transition World Tx)) : List (Move Pubkey) :=
  h.map fun t => t.label.event.withdrawalMove

namespace World

/-! ## The books -/

section

variable {w w' w₀ : World} {now : I64} {e : Event} {h : List (Transition World Tx)}

/-! The book of a counter and a balance over a registry: what a put and a closed record do. -/

section

variable {ρ : Type} {f : ρ → Nat} {m : Finmap fun _ : Pubkey => ρ} {u : Pubkey} {r : ρ}
  {n pending pending' held held' : Nat}

theorem registry_put (hr : f r = valueAt f m u + n) (hp : pending' = pending + n)
    (hh : held' = held + n) :
    Book.Step ⟨pending, total f m, held, valueAt f m⟩ (.put u n)
      ⟨pending', total f (m.insert u r), held', valueAt f (m.insert u r)⟩ := by
  have hsum := total_insert_add f m u r
  have hclaimed : total f (m.insert u r) = total f m + n := by omega
  have howed : valueAt f (m.insert u r) = update (valueAt f m) u (valueAt f m u + n) := by
    funext l
    rw [valueAt_insert, update_apply, hr]
  exact ⟨hp, hclaimed, hh, howed⟩

theorem registry_take (found : m.lookup u = some r) (hp : pending' + f r = pending)
    (hh : held' + f r = held) (x : Exit) :
    Book.Step ⟨pending, total f m, held, valueAt f m⟩ (.take u x)
      ⟨pending', total f (m.erase u), held', valueAt f (m.erase u)⟩ := by
  have hr : valueAt f m u = f r := valueAt_of_lookup found
  have hclaimed : total f (m.erase u) + valueAt f m u = total f m := by
    rw [Nat.add_comm]
    exact total_erase_add f m u
  have howed : valueAt f (m.erase u) = update (valueAt f m) u 0 := by
    funext l
    rw [valueAt_erase, update_apply]
  rw [← hr] at hp hh
  exact ⟨hp, hclaimed, hh, howed⟩

end

theorem Change.deposit_step (h : Change w now e w') :
    w.depositBook.Step e.depositMove w'.depositBook := by
  cases h with
  | @depositPut u amount r v m h =>
    obtain ⟨_, _, hpending, _⟩ := Vault.requestDeposit_ok h.request
    obtain ⟨_, _, _, hheld, _⟩ := Mint.transfer_ok (by simp) h.transfer
    exact registry_put h.amount_eq hpending hheld
  | @depositRefund u r v m h =>
    obtain ⟨hpending, _⟩ := Vault.cancelDeposit_ok h.cancel
    obtain ⟨hle, _, hheld, _⟩ := Mint.transfer_ok (by simp) h.transfer
    have hleft : m.amount .escrow + r.amount.toNat = w.depositMint.amount .escrow := by omega
    exact registry_take h.found hpending hleft _
  | @depositSettle u r v shares m s h =>
    obtain ⟨_, _, _, hpending, _⟩ := Vault.resolveDeposit_ok h.resolve
    obtain ⟨hle, _, hheld, _⟩ := Mint.transfer_ok (by simp) h.transfer
    have hleft : m.amount .escrow + r.amount.toNat = w.depositMint.amount .escrow := by omega
    exact registry_take h.found hpending hleft _
  | withdrawalPut h =>
    obtain ⟨_, hb⟩ := h.request
    obtain ⟨_, e⟩ := Vault.requestWithdrawal_ok hb
    show depositBook _ = _
    rw [e]; rfl
  | withdrawalRefund h =>
    obtain ⟨_, e⟩ := Vault.cancelWithdrawal_ok h.cancel
    show depositBook _ = _
    rw [e]; rfl
  | @withdrawalSettle u r v amount m s h =>
    obtain ⟨_, _, _, _, e⟩ := Vault.resolveWithdrawal_ok h.resolve
    have hheld := Mint.transfer_other h.transfer (k := .escrow) (by simp) (by simp)
    have hpending : v.pendingDeposits = w.vault.pendingDeposits := by rw [e]
    exact Book.ext (congrArg BitVec.toNat hpending) rfl hheld rfl
  | navPost _ h =>
    have hpending := (Vault.updateNav_ok h).pendingDeposits
    exact Book.ext (congrArg BitVec.toNat hpending) rfl rfl rfl
  | claimManager h _ =>
    obtain ⟨_, _, rfl⟩ := Vault.claimManagerFee_ok h
    exact rfl
  | claimPlatform h _ =>
    obtain ⟨_, _, rfl⟩ := Vault.claimPlatformFee_ok h
    exact rfl
  | vaultUpdate h =>
    show depositBook _ = _
    rw [Vault.update_sameButSettings h]; rfl
  | depositGift h => exact ⟨rfl, rfl, h, rfl⟩
  | shareGift => exact rfl
  | shareBurn => exact rfl
  | other e =>
    show depositBook _ = _
    rw [e]; rfl

theorem Change.withdrawal_step (h : Change w now e w') :
    w.withdrawalBook.Step e.withdrawalMove w'.withdrawalBook := by
  cases h with
  | @withdrawalPut u shares r v s h =>
    obtain ⟨_, hb⟩ := h.request
    obtain ⟨hpending, _⟩ := Vault.requestWithdrawal_ok hb
    obtain ⟨_, _, _, hheld, _⟩ := Mint.transfer_ok (by simp) h.transfer
    exact registry_put h.shares_eq hpending hheld
  | @withdrawalRefund u r v s h =>
    obtain ⟨hpending, _⟩ := Vault.cancelWithdrawal_ok h.cancel
    obtain ⟨hle, _, hheld, _⟩ := Mint.transfer_ok (by simp) h.transfer
    have hleft : s.amount .escrow + r.shares.toNat = w.shareMint.amount .escrow := by omega
    exact registry_take h.found hpending hleft _
  | @withdrawalSettle u r v amount m s h =>
    obtain ⟨_, hpending, _⟩ := Vault.resolveWithdrawal_ok h.resolve
    obtain ⟨hle, _, hamount⟩ := Mint.burn_ok h.burn
    have hheld : s.amount .escrow = w.shareMint.amount .escrow - r.shares.toNat := by
      rw [hamount, update_self]
    have hleft : s.amount .escrow + r.shares.toNat = w.shareMint.amount .escrow := by omega
    exact registry_take h.found hpending hleft _
  | depositPut h =>
    obtain ⟨_, _, _, _, e⟩ := Vault.requestDeposit_ok h.request
    show withdrawalBook _ = _
    rw [e]; rfl
  | depositRefund h =>
    obtain ⟨_, e⟩ := Vault.cancelDeposit_ok h.cancel
    show withdrawalBook _ = _
    rw [e]; rfl
  | @depositSettle u r v shares m s h =>
    obtain ⟨_, _, _, _, _, e⟩ := Vault.resolveDeposit_ok h.resolve
    have hpending : v.pendingWithdrawalShares = w.vault.pendingWithdrawalShares := by rw [e]
    have hheld := Mint.mintTo_other h.mint (l := .escrow) (by simp)
    exact Book.ext (congrArg BitVec.toNat hpending) rfl hheld rfl
  | navPost _ h =>
    have hpending := (Vault.updateNav_ok h).pendingWithdrawalShares
    exact Book.ext (congrArg BitVec.toNat hpending) rfl rfl rfl
  | claimManager h mint =>
    obtain ⟨_, _, rfl⟩ := Vault.claimManagerFee_ok h
    have hheld := Mint.mintTo_other mint (l := .escrow) (by simp)
    exact Book.ext rfl rfl hheld rfl
  | claimPlatform h mint =>
    obtain ⟨_, _, rfl⟩ := Vault.claimPlatformFee_ok h
    have hheld := Mint.mintTo_other mint (l := .escrow) (by simp)
    exact Book.ext rfl rfl hheld rfl
  | vaultUpdate h =>
    show withdrawalBook _ = _
    rw [Vault.update_sameButSettings h]; rfl
  | depositGift => exact rfl
  | shareGift _ h => exact ⟨rfl, rfl, h, rfl⟩
  | shareBurn _ h => exact Book.ext rfl rfl h rfl
  | other e =>
    show withdrawalBook _ = _
    rw [e]; rfl

end

/-! ## The tokens -/

/-- Where the deposit tokens of a move went, `staked u` being what `u` had in escrow. -/
def DepositMoved (staked : Pubkey → Nat) (w w' : World) : Move Pubkey → Prop
  | .put u n => w'.depositMint.amount (.wallet u) + n = w.depositMint.amount (.wallet u) ∧
      w'.depositMint.amount .escrow = w.depositMint.amount .escrow + n
  | .take u .refund => w'.depositMint.amount .escrow + staked u = w.depositMint.amount .escrow ∧
      w'.depositMint.amount (.wallet u) = w.depositMint.amount (.wallet u) + staked u ∧
      w'.depositRequests.lookup u = none
  | .take u .settle => w'.depositMint.amount .escrow + staked u = w.depositMint.amount .escrow ∧
      w'.idle = w.idle + staked u ∧
      w'.shareMint.supply =
        w.shareMint.supply + sharesFor NAV_SCALE (staked u) w.vault.navPerShare.toNat ∧
      w'.shareMint.amount (.wallet u) =
        w.shareMint.amount (.wallet u) + sharesFor NAV_SCALE (staked u) w.vault.navPerShare.toNat ∧
      w'.depositRequests.lookup u = none
  | .gift n => w'.depositMint.amount .escrow = w.depositMint.amount .escrow + n
  | .idle => w'.depositMint.amount .escrow = w.depositMint.amount .escrow

/-- Where the shares of a move went, `staked u` being what `u` had in escrow. -/
def WithdrawalMoved (staked : Pubkey → Nat) (w w' : World) : Move Pubkey → Prop
  | .put u n => w'.shareMint.amount (.wallet u) + n = w.shareMint.amount (.wallet u) ∧
      w'.shareMint.amount .escrow = w.shareMint.amount .escrow + n
  | .take u .refund => w'.shareMint.amount .escrow + staked u = w.shareMint.amount .escrow ∧
      w'.shareMint.amount (.wallet u) = w.shareMint.amount (.wallet u) + staked u ∧
      w'.withdrawalRequests.lookup u = none
  | .take u .settle => w'.shareMint.amount .escrow + staked u = w.shareMint.amount .escrow ∧
      w'.shareMint.supply + staked u = w.shareMint.supply ∧
      w'.idle + assetsFor NAV_SCALE (staked u) w.vault.navPerShare.toNat = w.idle ∧
      w'.depositMint.amount (.wallet u) =
        w.depositMint.amount (.wallet u) + assetsFor NAV_SCALE (staked u) w.vault.navPerShare.toNat ∧
      w'.withdrawalRequests.lookup u = none
  | .gift n => w'.shareMint.amount .escrow = w.shareMint.amount .escrow + n
  | .idle => w'.shareMint.amount .escrow = w.shareMint.amount .escrow

section

variable {w w' w₀ : World} {now : I64} {e : Event} {h : List (Transition World Tx)}

theorem Change.deposit_moved (h : Change w now e w') :
    DepositMoved w.depositBook.owed w w' e.depositMove := by
  -- a move that takes no stake is what the step of the book says
  have st := h.deposit_step
  cases h with
  | @depositPut u amount r v m h =>
    obtain ⟨hle, _, hfrom, hto, _⟩ := Mint.transfer_ok (by simp) h.transfer
    refine ⟨?_, hto⟩
    show m.amount (.wallet u) + amount.toNat = _
    omega
  | @depositRefund u r v m h =>
    obtain ⟨hle, _, hfrom, hto, _⟩ := Mint.transfer_ok (by simp) h.transfer
    have hr : w.depositBook.owed u = r.amount.toNat := valueAt_of_lookup h.found
    refine ⟨?_, ?_, Finmap.lookup_erase _ _⟩
    · show m.amount .escrow + _ = _
      omega
    · show m.amount (.wallet u) = _
      omega
  | @depositSettle u r v shares m s h =>
    obtain ⟨_, hshares, _, _, _, _⟩ := Vault.resolveDeposit_ok h.resolve
    obtain ⟨hle, _, hfrom, hto, _⟩ := Mint.transfer_ok (by simp) h.transfer
    obtain ⟨_, hsupply, hamount⟩ := Mint.mintTo_ok h.mint
    have hr : w.depositBook.owed u = r.amount.toNat := valueAt_of_lookup h.found
    refine ⟨?_, ?_, ?_, ?_, Finmap.lookup_erase _ _⟩
    · show m.amount .escrow + _ = _
      omega
    · show m.amount .vault = w.depositMint.amount .vault + _
      omega
    · show s.supply = _
      rw [hsupply, hshares, hr]
    · show s.amount (.wallet u) = _
      rw [hamount, update_self, hshares, hr]
  | depositGift h => exact h
  | _ => exact congrArg Book.held st

theorem Change.withdrawal_moved (h : Change w now e w') :
    WithdrawalMoved w.withdrawalBook.owed w w' e.withdrawalMove := by
  have st := h.withdrawal_step
  cases h with
  | @withdrawalPut u shares r v s h =>
    obtain ⟨hle, _, hfrom, hto, _⟩ := Mint.transfer_ok (by simp) h.transfer
    refine ⟨?_, hto⟩
    show s.amount (.wallet u) + shares.toNat = _
    omega
  | @withdrawalRefund u r v s h =>
    obtain ⟨hle, _, hfrom, hto, _⟩ := Mint.transfer_ok (by simp) h.transfer
    have hr : w.withdrawalBook.owed u = r.shares.toNat := valueAt_of_lookup h.found
    refine ⟨?_, ?_, Finmap.lookup_erase _ _⟩
    · show s.amount .escrow + _ = _
      omega
    · show s.amount (.wallet u) = _
      omega
  | @withdrawalSettle u r v amount m s h =>
    obtain ⟨hamount, _⟩ := Vault.resolveWithdrawal_ok h.resolve
    obtain ⟨hle, _, hfrom, hto, _⟩ := Mint.transfer_ok (by simp) h.transfer
    obtain ⟨hburn, hsupply, hescrow⟩ := Mint.burn_ok h.burn
    have hback := w.shareMint.amount_le .escrow
    have hr : w.withdrawalBook.owed u = r.shares.toNat := valueAt_of_lookup h.found
    have he : s.amount .escrow = w.shareMint.amount .escrow - r.shares.toNat := by
      rw [hescrow, update_self]
    refine ⟨?_, ?_, ?_, ?_, Finmap.lookup_erase _ _⟩
    · show s.amount .escrow + _ = _
      omega
    · show s.supply + _ = _
      omega
    · show m.amount .vault + _ = w.depositMint.amount .vault
      rw [hr, ← hamount]
      omega
    · show m.amount (.wallet u) = _
      rw [hr, ← hamount]
      omega
  | shareGift _ h => exact h
  | _ => exact congrArg Book.held st

theorem Fresh.depositBook (h0 : w₀.Fresh) : w₀.depositBook = ⟨0, 0, 0, fun _ => 0⟩ := by
  obtain ⟨ho, args, _, e⟩ := h0
  refine Book.ext ?_ ?_ ho.depositEscrow (funext fun u => ?_)
  · show w₀.vault.pendingDeposits.toNat = 0
    rw [e]; rfl
  · show total (fun r : DepositRequest => r.amount.toNat) w₀.depositRequests = 0
    rw [ho.depositRequests]; rfl
  · show valueAt _ w₀.depositRequests u = 0
    rw [ho.depositRequests, valueAt_empty]

theorem Fresh.withdrawalBook (h0 : w₀.Fresh) : w₀.withdrawalBook = ⟨0, 0, 0, fun _ => 0⟩ := by
  obtain ⟨ho, args, _, e⟩ := h0
  refine Book.ext ?_ ?_ ?_ (funext fun u => ?_)
  · show w₀.vault.pendingWithdrawalShares.toNat = 0
    rw [e]; rfl
  · show total (fun r : WithdrawalRequest => r.shares.toNat) w₀.withdrawalRequests = 0
    rw [ho.withdrawalRequests]; rfl
  · show w₀.shareMint.amount .escrow = 0
    rw [ho.shareMint]; rfl
  · show valueAt _ w₀.withdrawalRequests u = 0
    rw [ho.withdrawalRequests, valueAt_empty]

theorem run_deposit_balanced (h0 : w₀.Fresh) (hr : Run Step w₀ h w) :
    Balanced (depositMoves h) w.depositBook := by
  have hbook := hr.sim depositBook (fun _ tx => tx.event.depositMove) h0.wellFormed
    (fun _ _ _ wf st => st.wellFormed wf) fun _ _ _ wf st => (process_change wf st).deposit_step
  rw [h0.depositBook] at hbook
  have hb := Book.run_balanced hbook
  rwa [List.map_map] at hb

theorem run_withdrawal_balanced (h0 : w₀.Fresh) (hr : Run Step w₀ h w) :
    Balanced (withdrawalMoves h) w.withdrawalBook := by
  have hbook := hr.sim withdrawalBook (fun _ tx => tx.event.withdrawalMove) h0.wellFormed
    (fun _ _ _ wf st => st.wellFormed wf) fun _ _ _ wf st => (process_change wf st).withdrawal_step
  rw [h0.withdrawalBook] at hbook
  have hb := Book.run_balanced hbook
  rwa [List.map_map] at hb

/-- The ledger of both escrows after the steps `h`, newest first. -/
structure EscrowLedger (h : List (Transition World Tx)) (w : World) : Prop where
  pendingDeposits : w.vault.pendingDeposits.toNat = total (·.amount.toNat) w.depositRequests
  depositEscrow : w.depositMint.amount .escrow =
    w.vault.pendingDeposits.toNat + gifts (depositMoves h)
  pendingShares : w.vault.pendingWithdrawalShares.toNat =
    total (·.shares.toNat) w.withdrawalRequests
  shareEscrow : w.shareMint.amount .escrow =
    w.vault.pendingWithdrawalShares.toNat + gifts (withdrawalMoves h)
  /-- Every token put in was refunded, settled, or is in the open request. -/
  deposited : ∀ u, putIn u (depositMoves h) =
    takenOut u .refund (depositMoves h) + takenOut u .settle (depositMoves h) +
      valueAt (·.amount.toNat) w.depositRequests u
  withdrawn : ∀ u, putIn u (withdrawalMoves h) =
    takenOut u .refund (withdrawalMoves h) + takenOut u .settle (withdrawalMoves h) +
      valueAt (·.shares.toNat) w.withdrawalRequests u
  /-- Each step moved the tokens its move says, a taken stake as a whole. -/
  depositMoved : ∀ newer t older, h = newer ++ t :: older →
    DepositMoved (fun u => stake u (depositMoves older)) t.pre t.post t.label.event.depositMove
  shareMoved : ∀ newer t older, h = newer ++ t :: older →
    WithdrawalMoved (fun u => stake u (withdrawalMoves older)) t.pre t.post
      t.label.event.withdrawalMove

theorem escrow_ledger (h0 : w₀.Fresh) (hr : Run Step w₀ h w) : EscrowLedger h w := by
  have hd := run_deposit_balanced h0 hr
  have hs := run_withdrawal_balanced h0 hr
  refine ⟨hd.pending_eq, hd.held_eq, hs.pending_eq, hs.held_eq, ?_, ?_, ?_, ?_⟩
  · intro u
    rw [putIn_eq, ← hd.owed_eq]; rfl
  · intro u
    rw [putIn_eq, ← hs.owed_eq]; rfl
  · rintro newer t older rfl
    obtain ⟨hpre, st, _⟩ := hr.split
    have hmoved := (process_change (run_wellFormed h0 hpre) st).deposit_moved
    rwa [funext (run_deposit_balanced h0 hpre).owed_eq] at hmoved
  · rintro newer t older rfl
    obtain ⟨hpre, st, _⟩ := hr.split
    have hmoved := (process_change (run_wellFormed h0 hpre) st).withdrawal_moved
    rwa [funext (run_withdrawal_balanced h0 hpre).owed_eq] at hmoved

theorem escrow_ledger_sample : EscrowLedger (sampleHistory 8) (sampleAfter 8) :=
  escrow_ledger sample_fresh (TimedStep.run_step sample_timed)

end

end World

end HedgeVault
