import HedgeVault.Payments
import HedgeVault.ProtocolProgram

/-!
# The tokens that an instruction moves

What an instruction on a vault does to its two mints is a list of token operations
(`Step.mintMoves`): those of the deposit mint are transfers, and beside the vault itself only
wallets that sign pay and only receivers are paid. Operations in which the vault pays nothing are in
turn steps of its custody (`moves_run`), by whatever transaction they came about.
-/

namespace HedgeVault

open Lib

/-- The wallet that pays signs, and the one that is paid is among the receivers. -/
structure Within (signs receives : Pubkey → Prop) (op : TokenOp Holder) : Prop where
  source : ∀ k, op.source = some (.wallet k) → signs k
  dest : ∀ k, op.dest = some (.wallet k) → receives k

/-- The vault pays nothing. -/
def Foreign (op : TokenOp Holder) : Prop := op.source ≠ some .vault ∧ op.source ≠ some .escrow

/-- What became of the two mints. -/
structure MintMoves (signs receives : Pubkey → Prop) (w w' : World) : Prop where
  deposit : w.depositMint.Via (fun op => op.isTransfer = true ∧ Within signs receives op)
    w'.depositMint
  share : w.shareMint.Via (Within signs receives) w'.shareMint

namespace World

def mint (w : World) : MintKind → SplMint
  | .deposit => w.depositMint
  | .share => w.shareMint

def withMint (w : World) (clock : I64) (m : SplMint) : MintKind → World
  | .deposit => { w with clock, depositMint := m }
  | .share => { w with clock, shareMint := m }

/-- The open requests are of owners like this. -/
structure RequestsOf (owner : Pubkey → Prop) (w : World) : Prop where
  deposit : ∀ u r, w.depositRequests.lookup u = some r → owner u
  withdrawal : ∀ u r, w.withdrawalRequests.lookup u = some r → owner u

end World

/-- A movement of tokens outside the vault's own instructions. -/
def CustodyInstruction.isMovement : CustodyInstruction → Bool
  | .program ix => ix.movesTokens
  | .donate _ _ => true
  | _ => false

section

variable {signs receives : Pubkey → Prop} {w w' w₁ : World} {m m' : SplMint} {src dst : Holder}
  {n : Nat}

/-! What the token program accepted is a list of one operation. -/

theorem via_transfer (h : m.transfer src dst n = .ok m') (hsrc : ∀ k, src = .wallet k → signs k)
    (hdst : ∀ k, dst = .wallet k → receives k) :
    m.Via (fun op => op.isTransfer = true ∧ Within signs receives op) m' :=
  .single (show m.run (.transfer src dst n) = .ok m' from h)
    ⟨rfl, fun k hk => hsrc k (Option.some.inj hk), fun k hk => hdst k (Option.some.inj hk)⟩

theorem via_mintTo (h : m.mintTo dst n = .ok m') (hdst : ∀ k, dst = .wallet k → receives k) :
    m.Via (Within signs receives) m' :=
  .single (show m.run (.mintTo dst n) = .ok m' from h)
    ⟨nofun, fun k hk => hdst k (Option.some.inj hk)⟩

theorem via_burn (h : m.burn src n = .ok m') (hsrc : ∀ k, src = .wallet k → signs k) :
    m.Via (Within signs receives) m' :=
  .single (show m.run (.burn src n) = .ok m' from h)
    ⟨fun k hk => hsrc k (Option.some.inj hk), nofun⟩

namespace MintMoves

theorem refl : MintMoves signs receives w w := ⟨.refl, .refl⟩

theorem trans (h : MintMoves signs receives w w₁) (h' : MintMoves signs receives w₁ w') :
    MintMoves signs receives w w' :=
  ⟨h.deposit.trans h'.deposit, h.share.trans h'.share⟩

end MintMoves

/-! ## Instructions of the program -/

/-- A request is put by its signer. -/
theorem signer_of_put {tx : Tx} {u : Pubkey} {amount : U64}
    (h : tx.event = .depositPut u amount ∨ tx.event = .withdrawalPut u amount) :
    u = tx.signer.key := by
  obtain ⟨signer, now, ix⟩ := tx
  cases ix with
  | depositRequestCreate =>
    rcases h with h | h
    · cases h; rfl
    · cases h
  | withdrawalRequestCreate =>
    rcases h with h | h
    · cases h
    · cases h; rfl
  | _ => rcases h with h | h <;> cases h

/-- The events of token movements are those of no instruction of the program. -/
theorem not_moved {tx : Tx} (h : tx.ix.movesTokens = false) :
    tx.event ≠ .depositGift n ∧ tx.event ≠ .shareGift n ∧ tx.event ≠ .shareBurn n := by
  obtain ⟨signer, now, ix⟩ := tx
  cases ix with
  | depositTransfer | depositIssue | depositBurn | shareTransfer | shareBurn => cases h
  | _ => exact ⟨nofun, nofun, nofun⟩

/-- Fee shares go to the signer. -/
theorem World.Step.claim {tx : Tx} (he : tx.event = .claimManager ∨ tx.event = .claimPlatform)
    (st : w.Step tx w') : ∃ n, w.shareMint.mintTo (.wallet tx.signer.key) n = .ok w'.shareMint ∧
      w'.depositMint = w.depositMint := by
  obtain ⟨signer, now, ix⟩ := tx
  cases ix with
  | vaultClaimManagerFee =>
    simp only [World.Step, World.process, World.execute, World.vaultClaimManagerFee, bind_eq_ok,
      pure_eq_ok, ofToken_eq_ok] at st
    obtain ⟨_, _, ⟨_, shares⟩, _, s, hs, rfl⟩ := st
    exact ⟨_, hs, rfl⟩
  | configClaimPlatformFee =>
    simp only [World.Step, World.process, World.execute, World.configClaimPlatformFee, bind_eq_ok,
      pure_eq_ok, ofToken_eq_ok] at st
    obtain ⟨_, _, ⟨_, shares⟩, _, s, hs, rfl⟩ := st
    exact ⟨_, hs, rfl⟩
  | _ => rcases he with he | he <;> cases he

theorem World.Step.mintMoves {tx : Tx} (wf : w.WellFormed) (howners : w.RequestsOf signs)
    (hmoves : tx.ix.movesTokens = false) (hsigner : signs tx.signer.key) (st : w.Step tx w') :
    MintMoves signs signs w w' := by
  have hchange := World.process_change wf st
  generalize he : tx.event = e at hchange
  have hsigned : ∀ k, Holder.wallet tx.signer.key = .wallet k → signs k := by
    rintro _ ⟨⟩
    exact hsigner
  cases hchange with
  | depositPut h =>
    obtain rfl := signer_of_put (.inl he)
    exact ⟨via_transfer h.transfer hsigned nofun, .refl⟩
  | depositRefund h =>
    refine ⟨via_transfer h.transfer nofun ?_, .refl⟩
    rintro _ ⟨⟩
    exact howners.deposit _ _ h.found
  | depositSettle h =>
    refine ⟨via_transfer h.transfer nofun nofun, via_mintTo h.mint ?_⟩
    rintro _ ⟨⟩
    exact howners.deposit _ _ h.found
  | withdrawalPut h =>
    obtain rfl := signer_of_put (.inr he)
    exact ⟨.refl, .mono (via_transfer h.transfer hsigned nofun) fun _ hop => hop.2⟩
  | withdrawalRefund h =>
    refine ⟨.refl, .mono (via_transfer h.transfer nofun ?_) fun _ hop => hop.2⟩
    rintro _ ⟨⟩
    exact howners.withdrawal _ _ h.found
  | withdrawalSettle h =>
    refine ⟨via_transfer h.transfer nofun ?_, via_burn h.burn nofun⟩
    rintro _ ⟨⟩
    exact howners.withdrawal _ _ h.found
  | claimManager =>
    obtain ⟨n, hmint, _⟩ := World.Step.claim (.inl he) st
    exact ⟨.refl, via_mintTo hmint hsigned⟩
  | claimPlatform =>
    obtain ⟨n, hmint, _⟩ := World.Step.claim (.inr he) st
    exact ⟨.refl, via_mintTo hmint hsigned⟩
  | depositGift => exact absurd he (not_moved hmoves).1
  | shareGift => exact absurd he (not_moved hmoves).2.1
  | shareBurn => exact absurd he (not_moved hmoves).2.2
  | navPost => exact ⟨.refl, .refl⟩
  | vaultUpdate => exact ⟨.refl, .refl⟩
  | other => exact ⟨.refl, .refl⟩

theorem World.Step.requestsOf {tx : Tx} (wf : w.WellFormed) (howners : w.RequestsOf signs)
    (hsigner : signs tx.signer.key) (st : w.Step tx w') : w'.RequestsOf signs := by
  have hchange := World.process_change wf st
  generalize he : tx.event = e at hchange
  cases hchange with
  | @depositPut u _ r _ _ h =>
    obtain rfl := signer_of_put (.inl he)
    refine ⟨fun k q hk => ?_, howners.withdrawal⟩
    by_cases hkey : k = tx.signer.key
    · rw [hkey]
      exact hsigner
    · exact howners.deposit k q ((Finmap.lookup_insert_of_ne _ hkey).symm.trans hk)
  | @withdrawalPut u _ r _ _ h =>
    obtain rfl := signer_of_put (.inr he)
    refine ⟨howners.deposit, fun k q hk => ?_⟩
    by_cases hkey : k = tx.signer.key
    · rw [hkey]
      exact hsigner
    · exact howners.withdrawal k q ((Finmap.lookup_insert_of_ne _ hkey).symm.trans hk)
  | depositRefund =>
    exact ⟨fun k q hk => howners.deposit k q (lookup_of_erase hk), howners.withdrawal⟩
  | depositSettle =>
    exact ⟨fun k q hk => howners.deposit k q (lookup_of_erase hk), howners.withdrawal⟩
  | withdrawalRefund =>
    exact ⟨howners.deposit, fun k q hk => howners.withdrawal k q (lookup_of_erase hk)⟩
  | withdrawalSettle =>
    exact ⟨howners.deposit, fun k q hk => howners.withdrawal k q (lookup_of_erase hk)⟩
  | _ => exact ⟨howners.deposit, howners.withdrawal⟩

namespace Custody

variable {V : Venues} {c c' : Custody} {signer : Signer} {now : I64} {ix : CustodyInstruction}
  {p : Payment} {ps : List Payment} {op : TokenOp Holder} {d s : SplMint}

/-! ## Strategies at work -/

/-- Who pays the vault signs, and whom it pays is among the receivers. -/
def Payable (signs receives : Pubkey → Prop) : Payment → Prop
  | .spent payee _ _ => receives payee
  | .received payer _ _ => signs payer

theorem Paid.mintMoves (hp : Paid V c p c') (hpay : Payable signs receives p) :
    MintMoves signs receives c.world c'.world := by
  cases hp with
  | booked => exact .refl
  | @moved kind holder w hplace h =>
    have hsrc : ∀ k, p.src holder = .wallet k → signs k := by
      intro k hk
      cases p with
      | spent => exact absurd hk (place_ne_wallet hplace k)
      | received payer account amount =>
        cases hk
        exact hpay
    have hdst : ∀ k, p.dst holder = .wallet k → receives k := by
      intro k hk
      cases p with
      | spent payee account amount =>
        cases hk
        exact hpay
      | received => exact absurd hk (place_ne_wallet hplace k)
    cases kind with
    | deposit =>
      obtain ⟨m, hm, rfl⟩ := depositTransfer_ok h
      exact ⟨via_transfer hm hsrc hdst, .refl⟩
    | share =>
      obtain ⟨m, hm, rfl⟩ := shareTransfer_ok h
      exact ⟨.refl, .mono (via_transfer hm hsrc hdst) fun _ hop => hop.2⟩

theorem settleAll_mintMoves (h : settleAll V c ps = .ok c')
    (hpay : ∀ p ∈ ps, Payable signs receives p) : MintMoves signs receives c.world c'.world := by
  induction ps generalizing c with
  | nil =>
    cases h
    exact .refl
  | cons p ps ih =>
    rw [settleAll_cons] at h
    obtain ⟨c₁, hp, hrest⟩ := bind_eq_ok.1 h
    have hfirst := (settle_paid hp).mintMoves (hpay p List.mem_cons_self)
    exact hfirst.trans (ih hrest fun q hq => hpay q (List.mem_cons_of_mem _ hq))

theorem Worked.mintMoves (hw : Worked V c signer ix w c')
    (hpay : ∀ p ∈ ix.payments V c signer, Payable signs receives p) :
    MintMoves signs receives c.world c'.world := by
  obtain ⟨hacted, ⟨c₁, hsettled, hworld, _⟩, _⟩ := hw
  have hsame : w.depositMint = c.world.depositMint ∧ w.shareMint = c.world.shareMint := by
    cases hrecord : ix.record with
    | some k =>
      rw [hrecord] at hacted
      obtain ⟨_, _, _, rfl⟩ := hacted.stamped
      exact ⟨rfl, rfl⟩
    | none =>
      rw [hrecord] at hacted
      rw [show w = c.world from hacted]
      exact ⟨rfl, rfl⟩
  obtain ⟨hdeposit, hshare⟩ := settleAll_mintMoves hsettled hpay
  dsimp only at hdeposit hshare
  rw [hsame.1] at hdeposit
  rw [hsame.2] at hshare
  rw [hworld]
  exact ⟨hdeposit, hshare⟩

/-- A strategy at work leaves the world alone but for tokens and its record. -/
theorem Worked.frame (hw : Worked V c signer ix w c') :
    ∃ d s records, c'.world =
      { c.world with depositMint := d, shareMint := s, strategies := records } := by
  obtain ⟨hacted, ⟨c₁, hsettled, hworld, _⟩, _⟩ := hw
  obtain ⟨⟨d, s, hframe⟩, _, _⟩ := settleAll_frame hsettled
  rw [hworld, hframe]
  cases hrecord : ix.record with
  | some k =>
    rw [hrecord] at hacted
    obtain ⟨_, _, _, rfl⟩ := hacted.stamped
    exact ⟨d, s, _, rfl⟩
  | none =>
    rw [hrecord] at hacted
    rw [show w = c.world from hacted]
    exact ⟨d, s, _, rfl⟩

theorem Step.wellFormed {tx : CustodyTx} (wf : c.world.WellFormed) (st : Step V c tx c') :
    c'.world.WellFormed := by
  obtain ⟨signer, now, ix⟩ := tx
  rcases Step.worked st with ⟨ix', rfl, h⟩ | ⟨k, program, rfl, h⟩ | ⟨_, w, hw⟩
  · obtain ⟨w', hexecuted, rfl⟩ := execute_ok h
    have st' : World.Step c.world ⟨signer, now, seen ix'⟩ w' := hexecuted.executed
    exact st'.wellFormed wf
  · obtain ⟨_, w', _, _, st', _, rfl⟩ := closeStrategy_ok h
    have hclose : World.Step c.world ⟨signer, now, .vaultCloseStrategy k (.ok ())⟩ w' := st'
    exact hclose.wellFormed wf
  · obtain ⟨_, _, _, hframe⟩ := hw.frame
    rw [hframe]
    exact ⟨wf.deposit, wf.withdrawal⟩

theorem Step.requestsOf {tx : CustodyTx} (wf : c.world.WellFormed)
    (howners : c.world.RequestsOf signs) (hsigner : signs tx.signer.key) (st : Step V c tx c') :
    c'.world.RequestsOf signs := by
  obtain ⟨signer, now, ix⟩ := tx
  rcases Step.worked st with ⟨ix', rfl, h⟩ | ⟨k, program, rfl, h⟩ | ⟨_, w, hw⟩
  · obtain ⟨w', hexecuted, rfl⟩ := execute_ok h
    have st' : World.Step c.world ⟨signer, now, seen ix'⟩ w' := hexecuted.executed
    exact st'.requestsOf wf howners hsigner
  · obtain ⟨_, w', _, _, st', _, rfl⟩ := closeStrategy_ok h
    have hclose : World.Step c.world ⟨signer, now, .vaultCloseStrategy k (.ok ())⟩ w' := st'
    exact hclose.requestsOf wf howners hsigner
  · obtain ⟨_, _, _, hframe⟩ := hw.frame
    rw [hframe]
    exact ⟨howners.deposit, howners.withdrawal⟩

/-- What an instruction on the vault does to its mints. -/
theorem Step.mintMoves (wf : c.world.WellFormed) (howners : c.world.RequestsOf signs)
    (hreceives : ∀ k, signs k → receives k) (hix : ix.isOnVault = true)
    (hsigner : signs signer.key) (hpay : ∀ p ∈ ix.payments V c signer, Payable signs receives p)
    (st : Step V c ⟨signer, now, ix⟩ c') : MintMoves signs receives c.world c'.world := by
  have hown : MintMoves signs signs c.world c'.world → MintMoves signs receives c.world c'.world :=
    fun ⟨hd, hs⟩ => ⟨hd.mono fun _ hop => ⟨hop.1, hop.2.source, fun k hk =>
      hreceives k (hop.2.dest k hk)⟩, hs.mono fun _ hop => ⟨hop.source, fun k hk =>
      hreceives k (hop.dest k hk)⟩⟩
  rcases Step.worked st with ⟨ix', rfl, h⟩ | ⟨k, program, rfl, h⟩ | ⟨_, w, hw⟩
  · obtain ⟨w', hexecuted, rfl⟩ := execute_ok h
    have st' : World.Step c.world ⟨signer, now, seen ix'⟩ w' := hexecuted.executed
    have hmoves : (seen ix').movesTokens = false := by
      obtain ⟨_, hno⟩ := Bool.and_eq_true_iff.1 hix
      cases ix' with
      | initializeStrategy => rfl
      | _ => exact Bool.not_eq_true' _ ▸ hno
    exact hown (st'.mintMoves wf howners hmoves hsigner)
  · obtain ⟨_, w', _, _, st', _, rfl⟩ := closeStrategy_ok h
    have hclose : World.Step c.world ⟨signer, now, .vaultCloseStrategy k (.ok ())⟩ w' := st'
    exact hown (hclose.mintMoves wf howners rfl hsigner)
  · have hclock : MintMoves signs receives { c.world with clock := now } c'.world := by
      refine hw.mintMoves ?_
      rw [payments_clock]
      exact hpay
    exact ⟨hclock.deposit, hclock.share⟩

/-- The payments of a step are settled in what was there before it, but for the world. -/
theorem Step.settled (st : Step V c ⟨signer, now, ix⟩ c') :
    ∃ c₀ c₁, c.held = c₀.held ∧ settleAll V c₀ (ix.payments V c signer) = .ok c₁ ∧
      c'.held = c₁.held := by
  rcases Step.worked st with ⟨ix', rfl, h⟩ | ⟨k, program, rfl, h⟩ | ⟨_, w, hw⟩
  · obtain ⟨_, _, rfl⟩ := execute_ok h
    exact ⟨c, c, rfl, rfl, rfl⟩
  · obtain ⟨_, _, _, _, _, _, rfl⟩ := closeStrategy_ok h
    exact ⟨c, c, rfl, rfl, rfl⟩
  · obtain ⟨_, ⟨c₁, hsettled, _, hheld⟩, _⟩ := hw
    rw [payments_clock] at hsettled
    exact ⟨{ c with world := w }, c₁, rfl, hsettled, hheld⟩

/-! ## Movements as steps -/

theorem program_step {ix ix' : Instruction} (hpermit : permit V ix = .ok ix')
    (st : c.world.Step ⟨signer, now, ix'⟩ w') :
    Step V c ⟨signer, now, .program ix⟩ { c with world := w' } := by
  change World.execute { c.world with clock := now } signer ix' = .ok w' at st
  simp only [Step, process, run, execute, hpermit, ok_bind, st]
  rfl

theorem not_ofVault (h : some src ≠ some Holder.vault) : decide (src = .vault) = false :=
  decide_eq_false fun hsrc => h (congrArg _ hsrc)

theorem source_valid (h : some src ≠ some Holder.escrow) : World.validateSource src = .ok () :=
  World.validateSource_eq_ok.2 fun hsrc => h (congrArg _ hsrc)

/-- Nobody but the program mints shares. -/
theorem move_step {kind : MintKind} (h : (c.world.mint kind).run op = .ok m) (hop : Foreign op)
    (hmint : kind = .share → op.isMintTo = false) (signer : Signer) (now : I64) :
    ∃ ix : Instruction, ix.movesTokens = true ∧
      Step V c ⟨signer, now, .program ix⟩ { c with world := c.world.withMint now m kind } := by
  cases op with
  | transfer src dst n =>
    have hm : (c.world.mint kind).transfer src dst n = .ok m := h
    obtain ⟨hvault, hescrow⟩ := hop
    cases kind with
    | deposit =>
      change c.world.depositMint.transfer src dst n = .ok m at hm
      have hpermit : permit V (.depositTransfer src dst n) = .ok (.depositTransfer src dst n) := by
        simp only [permit, ofVault, not_ofVault hvault]
        rfl
      refine ⟨_, rfl, program_step hpermit ?_⟩
      simp only [World.Step, World.process, World.execute, World.depositTransfer, hm,
        source_valid hescrow]
      rfl
    | share =>
      change c.world.shareMint.transfer src dst n = .ok m at hm
      have hpermit : permit V (.shareTransfer src dst n) = .ok (.shareTransfer src dst n) := by
        simp only [permit, ofVault, not_ofVault hvault]
        rfl
      refine ⟨_, rfl, program_step hpermit ?_⟩
      simp only [World.Step, World.process, World.execute, World.shareTransfer, hm,
        source_valid hescrow]
      rfl
  | mintTo dst n =>
    cases kind with
    | deposit =>
      have hm : c.world.depositMint.mintTo dst n = .ok m := h
      have hpermit : permit V (.depositIssue dst n) = .ok (.depositIssue dst n) := rfl
      refine ⟨_, rfl, program_step hpermit ?_⟩
      simp only [World.Step, World.process, World.execute, World.depositIssue, hm]
      rfl
    | share => cases hmint rfl
  | burn src n =>
    have hm : (c.world.mint kind).burn src n = .ok m := h
    obtain ⟨hvault, hescrow⟩ := hop
    cases kind with
    | deposit =>
      change c.world.depositMint.burn src n = .ok m at hm
      have hpermit : permit V (.depositBurn src n) = .ok (.depositBurn src n) := by
        simp only [permit, ofVault, not_ofVault hvault]
        rfl
      refine ⟨_, rfl, program_step hpermit ?_⟩
      simp only [World.Step, World.process, World.execute, World.depositBurn, hm,
        source_valid hescrow]
      rfl
    | share =>
      change c.world.shareMint.burn src n = .ok m at hm
      have hpermit : permit V (.shareBurn src n) = .ok (.shareBurn src n) := by
        simp only [permit, ofVault, not_ofVault hvault]
        rfl
      refine ⟨_, rfl, program_step hpermit ?_⟩
      simp only [World.Step, World.process, World.execute, World.shareBurn, hm,
        source_valid hescrow]
      rfl

/-- The transactions are token movements at this time. -/
def Movements (now : I64) (txs : List CustodyTx) : Prop :=
  ∀ tx ∈ txs, tx.now = now ∧ tx.ix.isMovement = true

theorem Movements.nil : Movements now [] := fun _ h => absurd h List.not_mem_nil

theorem Movements.single {tx : CustodyTx} (h : tx.now = now) (hix : tx.ix.isMovement = true) :
    Movements now [tx] := by
  intro a ha
  rw [List.mem_singleton.1 ha]
  exact ⟨h, hix⟩

theorem Movements.append {txs txs' : List CustodyTx} (h : Movements now txs)
    (h' : Movements now txs') : Movements now (txs ++ txs') := by
  intro a ha
  rcases List.mem_append.1 ha with ha | ha
  · exact h a ha
  · exact h' a ha

theorem mint_run (kind : MintKind)
    (h : (c.world.mint kind).Via (fun op => Foreign op ∧ (kind = .share → op.isMintTo = false)) m)
    (signer : Signer) (now : I64) :
    ∃ h₁ clock, Run (Step V) c h₁ { c with world := c.world.withMint clock m kind } ∧
      Movements now (labels h₁) := by
  obtain ⟨ops, hrun, hops⟩ := h
  induction ops generalizing c with
  | nil =>
    rw [← Mint.runAll_nil.1 hrun]
    refine ⟨[], c.world.clock, ?_, .nil⟩
    have hsame : c.world.withMint c.world.clock (c.world.mint kind) kind = c.world := by
      cases kind with
      | deposit => rfl
      | share => rfl
    rw [hsame]
    exact .nil
  | cons op ops ih =>
    obtain ⟨m₁, hop, hrest⟩ := Mint.runAll_cons.1 hrun
    obtain ⟨hforeign, hmint⟩ := hops op List.mem_cons_self
    obtain ⟨ix, hix, st⟩ := move_step (V := V) hop hforeign hmint signer now
    have hread : ((c.world.withMint now m₁ kind).mint kind).runAll ops = .ok m := by
      cases kind with
      | deposit => exact hrest
      | share => exact hrest
    obtain ⟨h₁, clock, hr, hmoves⟩ := ih (c := { c with world := c.world.withMint now m₁ kind })
      hread fun o ho => hops o (List.mem_cons_of_mem _ ho)
    have hwritten : (c.world.withMint now m₁ kind).withMint clock m kind =
        c.world.withMint clock m kind := by
      cases kind with
      | deposit => rfl
      | share => rfl
    dsimp only at hr
    rw [hwritten] at hr
    refine ⟨h₁ ++ [⟨c, _, _⟩], clock, (Run.nil.snoc st).trans hr, ?_⟩
    unfold labels at hmoves ⊢
    rw [List.map_append]
    exact hmoves.append (.single rfl hix)

/-- Somebody sends tokens to an account that the world does not keep. -/
theorem donate_step {account : VaultAccount} {amount b : U64}
    (hplace : account.place V.mints = none)
    (hb : (c.held account).toNat + amount.toNat = b.toNat) (signer : Signer) (now : I64) :
    Step V c ⟨signer, now, .donate account amount⟩
      { c with
        world := { c.world with clock := now }
        held := Function.update c.held account b } := by
  have hadd : checkedAdd (c.held account) amount = some b :=
    orOverflow_eq_ok.1 (safeAdd_eq_ok.2 hb)
  simp only [Step, process, run, settle, Payment.account, hplace, Payment.book, hadd]
  rfl

/-- Operations on the two mints in which the vault pays nothing, one after the other. -/
theorem moves_run (hd : c.world.depositMint.Via Foreign d)
    (hs : c.world.shareMint.Via (fun op => Foreign op ∧ op.isMintTo = false) s) (signer : Signer)
    (now : I64) :
    ∃ h₁ clock, Run (Step V) c h₁
        { c with world := { c.world with clock, depositMint := d, shareMint := s } } ∧
      Movements now (labels h₁) := by
  obtain ⟨h₁, clock, hr₁, hmoves₁⟩ := mint_run (V := V) (c := c) (m := d) .deposit
    (hd.mono fun _ hop => ⟨hop, nofun⟩) signer now
  obtain ⟨h₂, clock', hr₂, hmoves₂⟩ := mint_run (V := V) (m := s)
    (c := { c with world := c.world.withMint clock d .deposit }) .share
    (hs.mono fun _ hop => ⟨hop.1, fun _ => hop.2⟩) signer now
  refine ⟨h₂ ++ h₁, clock', hr₁.trans hr₂, ?_⟩
  unfold labels at hmoves₁ hmoves₂ ⊢
  rw [List.map_append]
  exact hmoves₂.append hmoves₁

end Custody

end

end HedgeVault
