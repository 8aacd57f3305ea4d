import HedgeVault.ConfigAuthority
import HedgeVault.TokenMoves

/-!
# The ledgers that vaults share

What a transaction does to the vaults is `VaultsStep`. To the ledgers it does token operations.
When it is on the vault, the custody comes out as the ledgers then show it, up to what the vault
paid in accounts of its own mints at other addresses (`RanOn.own`). When it is not, the accounts of
the vault pay nothing and its shares are not minted (`VaultsStep.elsewhere`), and the custody goes
through token movements (`elsewhere_run`).
-/

namespace HedgeVault

open Lib

namespace Deployment

variable (D : Deployment) (id : U64)

/-- The operation takes nothing from an account that the vault signs for. -/
def Spares (op : TokenOp Holder) : Prop :=
  ∀ k, op.source = some (.wallet k) → D.custodian k ≠ some id

/-- It takes nothing from the accounts that the world of the vault keeps. -/
def Abstains (op : TokenOp Holder) : Prop :=
  ∀ k ∈ D.worldKeys id, op.source ≠ some (.wallet k)

/-- The vault has the account and its world does not keep it. -/
structure Keeps (mints : VaultMints) (account : VaultAccount) : Prop where
  place : account.place mints = none
  owns : D.owns id account = true

/-! ## The accounts of a vault on the ledgers -/

section

variable {D id} {mints : VaultMints} {account account' : VaultAccount}
  {ledgers ledgers' : Pubkey → SplMint} {op : TokenOp Holder} {mint : Pubkey} {m : SplMint}
  {payment : Payment} {payments : List Payment} {V : Venues} {c c' : Custody}

theorem custodian_ledgerKey (h : D.owns id account = true) :
    D.custodian (D.ledgerKey id account) = some id := by
  cases account with
  | depositEscrow => exact D.custodian_address (.depositEscrow id)
  | shareEscrow => exact D.custodian_address (.shareEscrow id)
  | associated => exact D.custodian_address (.vault id)
  | other address mint => exact (of_decide_eq_true h).1

/-- Accounts under one name in one ledger are the same. -/
theorem Keeps.ext (h : D.Keeps id mints account) (h' : D.Keeps id mints account')
    (hmint : account.mint mints = account'.mint mints)
    (hkey : D.ledgerKey id account = D.ledgerKey id account') : account = account' := by
  have hother : ∀ address mint, D.owns id (.other address mint) = true →
      address ≠ D.vaultAddress id := by
    intro address mint howns he
    exact (of_decide_eq_true howns).2 (he ▸ List.mem_cons_self)
  obtain ⟨hplace, howns⟩ := h
  obtain ⟨hplace', howns'⟩ := h'
  cases account with
  | depositEscrow => cases hplace
  | shareEscrow => cases hplace
  | associated m =>
    cases account' with
    | depositEscrow => cases hplace'
    | shareEscrow => cases hplace'
    | associated m' => exact congrArg _ hmint
    | other address m' => exact absurd hkey.symm (hother address m' howns')
  | other address m =>
    cases account' with
    | depositEscrow => cases hplace'
    | shareEscrow => cases hplace'
    | associated m' => exact absurd hkey (hother address m howns)
    | other address' m' => exact congrArg₂ _ hkey hmint

/-- Of the mints of its world, these are the accounts at other addresses. -/
theorem Keeps.not_mem (h : D.Keeps id mints account)
    (hmint : account.mint mints = mints.depositMint ∨ account.mint mints = mints.shareMint) :
    D.ledgerKey id account ∉ D.worldKeys id := by
  obtain ⟨hplace, howns⟩ := h
  cases account with
  | depositEscrow => cases hplace
  | shareEscrow => cases hplace
  | other address m => exact (of_decide_eq_true howns).2
  | associated m =>
    simp only [VaultAccount.mint, VaultAccount.place] at hmint hplace
    rcases hmint with rfl | rfl
    · simp at hplace
    · split at hplace <;> simp at hplace

theorem heldOn_of_keeps (h : D.Keeps id mints account) :
    (D.heldOn id mints ledgers account).toNat =
      (ledgers (account.mint mints)).amount (.wallet (D.ledgerKey id account)) := by
  unfold heldOn
  rw [h.place, h.owns]
  exact SplMint.amountU64_toNat _ _

/-- Ledgers that agree on the account show it with the same. -/
theorem heldOn_congr (h : D.Keeps id mints account →
    (ledgers' (account.mint mints)).amount (.wallet (D.ledgerKey id account)) =
      (ledgers (account.mint mints)).amount (.wallet (D.ledgerKey id account))) :
    D.heldOn id mints ledgers' account = D.heldOn id mints ledgers account := by
  by_cases hkeeps : D.Keeps id mints account
  · apply BitVec.eq_of_toNat_eq
    rw [heldOn_of_keeps hkeeps, heldOn_of_keeps hkeeps]
    exact h hkeeps
  · have hno : ((account.place mints).isNone && D.owns id account) = false := by
      rw [Bool.eq_false_iff]
      intro hboth
      obtain ⟨hplace, howns⟩ := Bool.and_eq_true_iff.1 hboth
      exact hkeeps ⟨Option.isNone_iff_eq_none.1 hplace, howns⟩
    unfold heldOn
    rw [hno]
    rfl

/-- An operation changes what the vault has in the account that it pays or is paid from. -/
theorem heldOn_run (hrun : (ledgers mint).run op = .ok m)
    (hapart : D.Keeps id mints account → account.mint mints = mint →
      op.source ≠ some (.wallet (D.ledgerKey id account)) ∧
        op.dest ≠ some (.wallet (D.ledgerKey id account))) :
    D.heldOn id mints (Function.update ledgers mint m) account =
      D.heldOn id mints ledgers account := by
  refine heldOn_congr fun hkeeps => ?_
  by_cases hmint : account.mint mints = mint
  · obtain ⟨hsource, hdest⟩ := hapart hkeeps hmint
    rw [hmint, Function.update_self]
    exact Mint.run_other hrun hsource hdest
  · rw [Function.update_of_ne hmint]

/-- What others do, it sees as tokens sent to one of its accounts at most. -/
theorem heldOn_spared (hrun : (ledgers mint).run op = .ok m) (hspares : D.Spares id op) :
    D.heldOn id mints (Function.update ledgers mint m) = D.heldOn id mints ledgers ∨
      ∃ account, account.place mints = none ∧
        (D.heldOn id mints ledgers account).toNat + op.amount =
          (D.heldOn id mints (Function.update ledgers mint m) account).toNat ∧
        D.heldOn id mints (Function.update ledgers mint m) =
          Function.update (D.heldOn id mints ledgers) account
            (D.heldOn id mints (Function.update ledgers mint m) account) := by
  have hsource : ∀ account, D.Keeps id mints account →
      op.source ≠ some (.wallet (D.ledgerKey id account)) :=
    fun account hkeeps hpays => hspares _ hpays (custodian_ledgerKey hkeeps.owns)
  by_cases hpaid : ∃ account, D.Keeps id mints account ∧ account.mint mints = mint ∧
      op.dest = some (.wallet (D.ledgerKey id account))
  · obtain ⟨account, hkeeps, rfl, hdest⟩ := hpaid
    refine .inr ⟨account, hkeeps.place, ?_, ?_⟩
    · rw [heldOn_of_keeps hkeeps, heldOn_of_keeps hkeeps, Function.update_self]
      exact (Mint.run_dest hrun (hsource account hkeeps) hdest).symm
    · funext other
      by_cases hsame : other = account
      · rw [hsame, Function.update_self]
      · rw [Function.update_of_ne hsame]
        refine heldOn_run hrun fun hother hmint => ⟨hsource other hother, fun hno => hsame ?_⟩
        refine hother.ext hkeeps hmint ?_
        rw [hdest] at hno
        exact (Holder.wallet.inj (Option.some.inj hno)).symm
  · left
    funext account
    exact heldOn_run hrun fun hkeeps hmint =>
      ⟨hsource account hkeeps, fun hdest => hpaid ⟨account, hkeeps, hmint, hdest⟩⟩

/-- The vault is no party to its payments. -/
theorem ledgerKey_ne_party (hbetween : payment.isBetween D id = true)
    (h : D.Keeps id mints account) : D.ledgerKey id account ≠ payment.party := by
  intro he
  obtain ⟨_, hparty⟩ := Bool.and_eq_true_iff.1 hbetween
  have hmine := custodian_ledgerKey h.owns
  rw [he] at hmine
  cases payment with
  | spent payee => exact of_decide_eq_true hparty hmine
  | received payer => cases (of_decide_eq_true hparty).symm.trans hmine

/-- A payment on the ledgers is booked on its account. -/
theorem heldOn_paid (hbetween : payment.isBetween D id = true)
    (hplace : payment.account.place mints = none)
    (hpaid : payment.onLedgers D id mints ledgers = .ok ledgers') :
    (D.heldOn id mints ledgers' payment.account).toNat + payment.debited payment.account =
      (D.heldOn id mints ledgers payment.account).toNat + payment.credited payment.account ∧
    ∀ account, account ≠ payment.account →
      D.heldOn id mints ledgers' account = D.heldOn id mints ledgers account := by
  have hkeeps : D.Keeps id mints payment.account := ⟨hplace, (Bool.and_eq_true_iff.1 hbetween).1⟩
  have hparty := ledgerKey_ne_party hbetween hkeeps
  simp only [Payment.onLedgers, hplace, bind_eq_ok, pure_eq_ok, ofToken_eq_ok] at hpaid
  obtain ⟨m, hm, rfl⟩ := hpaid
  constructor
  · rw [heldOn_of_keeps hkeeps, heldOn_of_keeps hkeeps, Function.update_self]
    cases payment with
    | spent payee account amount =>
      obtain ⟨hle, _, hsrc, _⟩ := Mint.transfer_ok (fun he => hparty (Holder.wallet.inj he)) hm
      simp only [Payment.debited, Payment.credited, Payment.account, if_true]
      simp only [Payment.account, Payment.amount] at hsrc hle
      omega
    | received payer account amount =>
      obtain ⟨_, _, _, hdst, _⟩ :=
        Mint.transfer_ok (fun he => hparty (Holder.wallet.inj he).symm) hm
      simp only [Payment.debited, Payment.credited, Payment.account, if_true]
      simp only [Payment.account, Payment.amount] at hdst
      omega
  · intro account hne
    refine heldOn_congr fun hother => ?_
    by_cases hmint : account.mint mints = payment.account.mint mints
    · have hkey : D.ledgerKey id account ≠ D.ledgerKey id payment.account :=
        fun he => hne (hother.ext hkeeps hmint he)
      have hapart := ledgerKey_ne_party hbetween hother
      rw [hmint, Function.update_self]
      cases payment with
      | spent =>
        exact Mint.transfer_other hm (fun he => hkey (Holder.wallet.inj he))
          fun he => hapart (Holder.wallet.inj he)
      | received =>
        exact Mint.transfer_other hm (fun he => hapart (Holder.wallet.inj he))
          fun he => hkey (Holder.wallet.inj he)
    · rw [Function.update_of_ne hmint]

/-- What settled payments leave in the accounts, the ledgers show. -/
theorem heldOn_settle (hbetween : payment.isBetween D id = true)
    (h : c.settle V payment = .ok c')
    (hpaid : payment.onLedgers D id V.mints ledgers = .ok ledgers')
    (hheld : c.held = D.heldOn id V.mints ledgers) : c'.held = D.heldOn id V.mints ledgers' := by
  cases Custody.settle_paid h with
  | @moved kind holder w hplace =>
    unfold Payment.onLedgers at hpaid
    rw [hplace] at hpaid
    cases hpaid
    exact hheld
  | @booked b hplace hb =>
    obtain ⟨hbooked, hothers⟩ := heldOn_paid hbetween hplace hpaid
    rw [hheld] at hb
    funext account
    change Function.update c.held payment.account b account = _
    by_cases hsame : account = payment.account
    · subst hsame
      rw [Function.update_self]
      apply BitVec.eq_of_toNat_eq
      omega
    · rw [Function.update_of_ne hsame, hheld, hothers account hsame]

theorem heldOn_settleAll (hbetween : ∀ p ∈ payments, p.isBetween D id = true)
    (h : Custody.settleAll V c payments = .ok c')
    (hpaid : payments.foldlM (Payment.onLedgers D id V.mints) ledgers = .ok ledgers')
    (hheld : c.held = D.heldOn id V.mints ledgers) : c'.held = D.heldOn id V.mints ledgers' := by
  induction payments generalizing c ledgers with
  | nil =>
    cases h
    cases hpaid
    exact hheld
  | cons payment payments ih =>
    rw [Custody.settleAll_cons] at h
    rw [List.foldlM_cons] at hpaid
    obtain ⟨c₁, hfirst, hrest⟩ := bind_eq_ok.1 h
    obtain ⟨ledgers₁, hpaid₁, hpaid⟩ := bind_eq_ok.1 hpaid
    exact ih (fun p hp => hbetween p (List.mem_cons_of_mem _ hp)) hrest hpaid
      (heldOn_settle (hbetween payment List.mem_cons_self) hfirst hpaid₁ hheld)

end

end Deployment

namespace Protocol

/-- The ledgers after operations in which the vault `id` pays nothing, and none of which mints its
shares. -/
def Elsewhere (D : Deployment) (id : U64) : (Pubkey → SplMint) → (Pubkey → SplMint) → Prop :=
  Mint.Moves fun mint op => D.Spares id op ∧ (mint = D.shareMint id → op.isMintTo = false)

/-- The requests of the open vaults are in order, and who opened them signed. -/
structure WellFormed (D : Deployment) (p : Protocol) : Prop where
  requests : ∀ id o, p.vaults.lookup id = some o → o.custody.world.WellFormed
  owners : ∀ id o, p.vaults.lookup id = some o →
    o.custody.world.RequestsOf fun k => D.custodian k = none

/-- An accepted instruction on a vault. -/
structure RanOn (D : Deployment) (p : Protocol) (signer : D.Wallet) (now : I64) (id : U64)
    (ix : CustodyInstruction) (o : OpenVault) (c c' : Custody) (p' : Protocol) : Prop where
  found : p.vaults.lookup id = some o
  loaded : p.custodyFor D id o ix = .ok c
  parties : ∀ payment ∈ ix.payments (D.venues id o.depositMint) c signer.toSigner,
    payment.isBetween D id = true
  step : Custody.Step (D.venues id o.depositMint) c ⟨signer.toSigner, now, ix⟩ c'
  paid : (ix.payments (D.venues id o.depositMint) c signer.toSigner).foldlM
    (Payment.onLedgers D id (D.venues id o.depositMint).mints) (p.commit D id o c').ledgers =
      .ok p'.ledgers
  after : p' = { p.commit D id o c' with ledgers := p'.ledgers }

/-- What a transaction did to the vaults. -/
inductive VaultsStep (D : Deployment) (p : Protocol) (tx : ProtocolTx D) (p' : Protocol) :
    Prop where
  | opened {args mintExtensions mint c w} (hix : tx.ix = .vaultInitialize args mintExtensions mint)
    (h : Opened D p tx.signer tx.now args mintExtensions mint c w p')
  | closed {id} (hix : tx.ix = .vaultClose id)
    (h : p' = { p with vaults := p.vaults.erase id })
  | ran {id ix o c c'} (hix : tx.ix = .onVault id ix)
    (h : RanOn D p tx.signer tx.now id ix.1 o c c' p')
  | moved {mint op m} (hix : tx.ix = .tokens mint op) (hop : validateOp D mint op = .ok ())
    (hrun : (p.ledgers mint).run (op.map .wallet) = .ok m)
    (h : p' = { p with ledgers := Function.update p.ledgers mint m })
  | config (hreaches : ∀ id ix, tx.ix ≠ .onVault id ix)
    (hix : ∀ args mintExtensions mint, tx.ix ≠ .vaultInitialize args mintExtensions mint)
    (hvaults : p'.vaults = p.vaults) (hledgers : p'.ledgers = p.ledgers)

section

variable {D : Deployment} {p p' p₀ : Protocol} {tx : ProtocolTx D} {id other : U64}
  {h : List (Transition Protocol (ProtocolTx D))} {o : OpenVault} {c c' : Custody}
  {signer : D.Wallet} {now : I64} {ix : CustodyInstruction} {op : TokenOp Holder}
  {ledgers ledgers' : Pubkey → SplMint} {mint : Pubkey} {mints : VaultMints}
  {payment : Payment} {payments : List Payment} {account account' : VaultAccount}

/-! ## What a transaction does to the vaults -/

theorem validateParties_eq_ok {payments : List Payment} {u : Unit} :
    validateParties D id payments = .ok u ↔ ∀ p ∈ payments, p.isBetween D id = true := by
  rw [← List.all_eq_true]
  unfold validateParties
  split <;> simp_all

theorem onVault_eq_ok : p.onVault D signer now id ix = .ok p' ↔
    ∃ o c c', RanOn D p signer now id ix o c c' p' := by
  simp only [Protocol.onVault, bind_eq_ok, pure_eq_ok, World.load_eq_ok, validateParties_eq_ok]
  constructor
  · rintro ⟨o, hfound, c, hloaded, _, hparties, c', hstep, ledgers, hpaid, rfl⟩
    exact ⟨o, c, c', hfound, hloaded, hparties, hstep, hpaid, rfl⟩
  · rintro ⟨o, c, c', hran⟩
    exact ⟨o, hran.found, c, hran.loaded, (), hran.parties, c', hran.step, _, hran.paid,
      hran.after.symm⟩

theorem Step.vaultsStep (st : p.Step D tx p') : VaultsStep D p tx p' := by
  obtain ⟨signer, now, ix⟩ := tx
  unfold Step process at st
  cases ix with
  | vaultInitialize args verdict mint =>
    obtain ⟨c, w, hopened⟩ := vaultInitialize_ok st
    exact .opened rfl hopened
  | vaultClose id =>
    simp only [vaultClose, bind_eq_ok, pure_eq_ok] at st
    obtain ⟨_, _, _, _, rfl⟩ := st
    exact .closed rfl rfl
  | onVault id ix =>
    obtain ⟨o, c, c', hran⟩ := onVault_eq_ok.1 st
    exact .ran rfl hran
  | tokens mint op =>
    simp only [tokens, bind_eq_ok, pure_eq_ok, ofToken_eq_ok] at st
    obtain ⟨_, hop, m, hrun, rfl⟩ := st
    exact .moved rfl hop hrun rfl
  | configInitialize args =>
    simp only [configInitialize, bind_eq_ok, pure_eq_ok] at st
    obtain ⟨_, _, _, _, _, _, _, _, _, _, _, _, _, _, _, _, _, _, rfl⟩ := st
    exact .config (by simp) (by simp) rfl rfl
  | configMigrate =>
    simp only [configMigrate] at st
    split at st
    · cases st
    · cases st
    · simp only [bind_eq_ok, pure_eq_ok] at st
      obtain ⟨_, _, rfl⟩ := st
      exact .config (by simp) (by simp) rfl rfl
  | configUpdate args =>
    simp only [configUpdate, bind_eq_ok, pure_eq_ok] at st
    obtain ⟨_, _, _, _, _, _, rfl⟩ := st
    exact .config (by simp) (by simp) rfl rfl
  | configPause =>
    simp only [configPause, bind_eq_ok, pure_eq_ok] at st
    obtain ⟨_, _, _, _, rfl⟩ := st
    exact .config (by simp) (by simp) rfl rfl
  | adminAccept =>
    simp only [adminAccept, bind_eq_ok, pure_eq_ok] at st
    obtain ⟨_, _, _, _, rfl⟩ := st
    exact .config (by simp) (by simp) rfl rfl
  | configAddManager k =>
    simp only [configAddManager, bind_eq_ok, pure_eq_ok] at st
    obtain ⟨_, _, _, _, _, _, rfl⟩ := st
    exact .config (by simp) (by simp) rfl rfl
  | configRemoveManager k =>
    simp only [configRemoveManager, bind_eq_ok, pure_eq_ok] at st
    obtain ⟨_, _, _, _, _, _, rfl⟩ := st
    exact .config (by simp) (by simp) rfl rfl

/-- What a vault that runs an instruction has, and its requests. -/
theorem custodyFor_ok (h : p.custodyFor D id o ix = .ok c) :
    c.world.depositMint = (p.ledgers o.depositMint).rename (D.depositSeat id) ∧
    c.world.shareMint = (p.ledgers (D.shareMint id)).rename (D.shareSeat id) ∧
    c.held = D.heldOn id (D.venues id o.depositMint).mints p.ledgers ∧
    c.world.depositRequests = o.custody.world.depositRequests ∧
    c.world.withdrawalRequests = o.custody.world.withdrawalRequests ∧
    c.world.key = o.custody.world.key := by
  unfold custodyFor at h
  dsimp only at h
  split at h
  · simp only [bind_eq_ok, pure_eq_ok] at h
    obtain ⟨_, _, rfl⟩ := h
    exact ⟨rfl, rfl, rfl, rfl, rfl, rfl⟩
  · cases h
    exact ⟨rfl, rfl, rfl, rfl, rfl, rfl⟩

theorem RanOn.requests (hp : p.WellFormed D) (h : RanOn D p signer now id ix o c c' p') :
    c.world.WellFormed ∧ c.world.RequestsOf fun k => D.custodian k = none := by
  obtain ⟨_, _, _, hdeposit, hwithdrawal, hkey⟩ := custodyFor_ok h.loaded
  have hwell := hp.requests id o h.found
  have howners := hp.owners id o h.found
  refine ⟨⟨?_, ?_⟩, ?_, ?_⟩
  · rw [hdeposit, hkey]
    exact hwell.deposit
  · rw [hwithdrawal, hkey]
    exact hwell.withdrawal
  · rw [hdeposit]
    exact howners.deposit
  · rw [hwithdrawal]
    exact howners.withdrawal

theorem RanOn.vaults (h : RanOn D p signer now id ix o c c' p') :
    p'.vaults = p.vaults.insert id { o with custody := c' } := by
  rw [h.after]
  rfl

theorem Step.wellFormed (hp : p.WellFormed D) (st : p.Step D tx p') : p'.WellFormed D := by
  suffices hall : ∀ id o, p'.vaults.lookup id = some o → o.custody.world.WellFormed ∧
      o.custody.world.RequestsOf fun k => D.custodian k = none from
    ⟨fun id o ho => (hall id o ho).1, fun id o ho => (hall id o ho).2⟩
  have hbefore : ∀ id o, p.vaults.lookup id = some o → o.custody.world.WellFormed ∧
      o.custody.world.RequestsOf fun k => D.custodian k = none :=
    fun id o ho => ⟨hp.requests id o ho, hp.owners id o ho⟩
  intro id o ho
  cases Step.vaultsStep st with
  | @opened args verdict mint c w hix h =>
    rw [h.after] at ho
    by_cases hid : id = c.nextVaultId
    · subst hid
      rw [Finmap.lookup_insert] at ho
      cases ho
      have hfresh := (World.genesis_fresh h.genesis).1
      refine ⟨hfresh.wellFormed, ?_, ?_⟩
      · intro u r hu
        change w.depositRequests.lookup u = some r at hu
        rw [hfresh.1.depositRequests, Finmap.lookup_empty] at hu
        cases hu
      · intro u r hu
        change w.withdrawalRequests.lookup u = some r at hu
        rw [hfresh.1.withdrawalRequests, Finmap.lookup_empty] at hu
        cases hu
    · rw [Finmap.lookup_insert_of_ne _ hid] at ho
      exact hbefore id o ho
  | closed hix h =>
    subst h
    exact hbefore id o (lookup_of_erase ho)
  | @ran id' ix o' c c' hix h =>
    rw [h.vaults] at ho
    by_cases hid : id = id'
    · subst hid
      rw [Finmap.lookup_insert] at ho
      cases ho
      obtain ⟨hwell, howners⟩ := h.requests hp
      exact ⟨h.step.wellFormed hwell, h.step.requestsOf hwell howners tx.signer.outside⟩
    · rw [Finmap.lookup_insert_of_ne _ hid] at ho
      exact hbefore id o ho
  | moved hix hop hrun h =>
    subst h
    exact hbefore id o ho
  | config _ _ hvaults _ =>
    rw [hvaults] at ho
    exact hbefore id o ho

/-! ## Operations on the ledgers -/

theorem moves_of_paid {P : Pubkey → TokenOp Holder → Prop}
    (h : payments.foldlM (Payment.onLedgers D id mints) ledgers = .ok ledgers')
    (hP : ∀ p ∈ payments, p.account.place mints = none →
      P (p.account.mint mints) (p.ledgerOp D id)) : Mint.Moves P ledgers ledgers' := by
  induction payments generalizing ledgers with
  | nil =>
    cases h
    exact .refl
  | cons payment payments ih =>
    rw [List.foldlM_cons] at h
    obtain ⟨ledgers₁, hpaid, hrest⟩ := bind_eq_ok.1 h
    refine Mint.Moves.trans ?_ (ih hrest fun p hp => hP p (List.mem_cons_of_mem _ hp))
    unfold Payment.onLedgers at hpaid
    split at hpaid
    · cases hpaid
      exact .refl
    · next hplace =>
      simp only [bind_eq_ok, pure_eq_ok, ofToken_eq_ok] at hpaid
      obtain ⟨m, hm, rfl⟩ := hpaid
      exact .single hm (hP payment List.mem_cons_self hplace)

/-- What is put back of the mints of a vault. -/
theorem moves_of_committed {P : Pubkey → TokenOp Holder → Prop}
    {Pd Ps : TokenOp Holder → Prop}
    (hd : (p.ledgers o.depositMint).Via Pd (c.world.depositMint.rename (D.depositSeat id)))
    (hs : (p.ledgers (D.shareMint id)).Via Ps (c.world.shareMint.rename (D.shareSeat id)))
    (hPd : ∀ op, Pd op → P o.depositMint op) (hPs : ∀ op, Ps op → P (D.shareMint id) op) :
    Mint.Moves P p.ledgers (p.commit D id o c).ledgers := by
  unfold commit
  dsimp only
  by_cases hsame : o.depositMint = D.shareMint id
  · rw [hsame] at hd hPd ⊢
    rw [Function.update_idem]
    exact .of_via hd hPd
  · refine Mint.Moves.trans (.of_via hs hPs) (.of_via ?_ hPd)
    rw [Function.update_of_ne hsame]
    exact hd

/-! What was put back is what is seen. -/

theorem commit_deposit : ((p.commit D id o c).ledgers o.depositMint).rename (D.depositSeat id) =
    c.world.depositMint := by
  unfold commit
  dsimp only
  rw [Function.update_self, Mint.rename_rename (D.depositSeat_involutive id)]

theorem commit_share (hne : o.depositMint ≠ D.shareMint id) :
    ((p.commit D id o c).ledgers (D.shareMint id)).rename (D.shareSeat id) =
      c.world.shareMint := by
  unfold commit
  dsimp only
  rw [Function.update_of_ne hne.symm, Function.update_self,
    Mint.rename_rename (D.shareSeat_involutive id)]

theorem RanOn.mintMoves (hp : p.WellFormed D) (h : RanOn D p signer now id ix o c c' p')
    (hix : ix.isOnVault = true) :
    MintMoves (fun k => D.custodian k = none) (fun k => D.custodian k ≠ some id)
      c.world c'.world := by
  obtain ⟨hwell, howners⟩ := h.requests hp
  refine h.step.mintMoves hwell howners ?_ hix signer.outside ?_
  · intro k hk
    rw [hk]
    exact nofun
  · intro payment hmem
    obtain ⟨_, hparty⟩ := Bool.and_eq_true_iff.1 (h.parties payment hmem)
    cases payment with
    | spent payee =>
      change D.custodian payee ≠ some id
      exact of_decide_eq_true hparty
    | received payer =>
      change D.custodian payer = none
      exact of_decide_eq_true hparty

/-! ## Of other vaults -/

theorem Elsewhere.refl : Elsewhere D id ledgers ledgers := Mint.Moves.refl

theorem Elsewhere.trans {ledgers₁ : Pubkey → SplMint} (h : Elsewhere D id ledgers ledgers₁)
    (h' : Elsewhere D id ledgers₁ ledgers') : Elsewhere D id ledgers ledgers' :=
  Mint.Moves.trans h h'

/-- Wallets that sign and the accounts of another vault are none of the vault. -/
theorem spares_of_within {receives : Pubkey → Prop} (a b : VaultPda) (hne : a.id ≠ id ∧ b.id ≠ id)
    (h : Within (fun k => D.custodian k = none) receives
      (op.map (seat (D.address a) (D.address b)))) : D.Spares id op := by
  intro k hsource hmine
  have hown : k ≠ D.address a := by
    rintro rfl
    exact hne.1 (Option.some.inj ((D.custodian_address a).symm.trans hmine))
  have hescrow : k ≠ D.address b := by
    rintro rfl
    exact hne.2 (Option.some.inj ((D.custodian_address b).symm.trans hmine))
  have hsigned : D.custodian k = none := by
    refine h.source k ?_
    rw [TokenOp.source_map, hsource, Option.map_some, seat_other hown hescrow]
  cases hsigned.symm.trans hmine

theorem spares_ledgerOp (hbetween : payment.isBetween D other = true) (hne : other ≠ id) :
    D.Spares id (payment.ledgerOp D other) := by
  obtain ⟨howns, hparty⟩ := Bool.and_eq_true_iff.1 hbetween
  intro k hsource hmine
  cases payment with
  | spent payee account amount =>
    cases hsource
    exact hne (Option.some.inj ((Deployment.custodian_ledgerKey howns).symm.trans hmine))
  | received payer account amount =>
    cases hsource
    cases (of_decide_eq_true hparty).symm.trans hmine

/-- For another vault an instruction on a vault is token operations of somebody else. -/
theorem RanOn.elsewhere (hp : p.WellFormed D) (h : RanOn D p signer now other ix o c c' p')
    (hix : ix.isOnVault = true) (hne : other ≠ id) : Elsewhere D id p.ledgers p'.ledgers := by
  obtain ⟨hd, hs⟩ := h.mintMoves hp hix
  obtain ⟨hdeposit, hshare, _⟩ := custodyFor_ok h.loaded
  rw [hdeposit] at hd
  rw [hshare] at hs
  replace hd := hd.rename (D.depositSeat_involutive other)
  replace hs := hs.rename (D.shareSeat_involutive other)
  rw [Mint.rename_rename (D.depositSeat_involutive other)] at hd
  rw [Mint.rename_rename (D.shareSeat_involutive other)] at hs
  have hcommitted : Elsewhere D id p.ledgers (p.commit D other o c').ledgers := by
    refine moves_of_committed hd hs (fun op hop => ⟨?_, fun _ => ?_⟩)
      fun op hop => ⟨?_, fun hid => ?_⟩
    · exact spares_of_within (.vault other) (.depositEscrow other) ⟨hne, hne⟩ hop.2
    · rw [TokenOp.isTransfer_map] at hop
      exact TokenOp.isMintTo_of_isTransfer hop.1
    · exact spares_of_within (.vault other) (.shareEscrow other) ⟨hne, hne⟩ hop
    · exact absurd (VaultPda.shareMint.inj (D.address_inj hid)) hne
  exact hcommitted.trans (moves_of_paid h.paid fun payment hmem _ =>
    ⟨spares_ledgerOp (h.parties payment hmem) hne, fun _ => rfl⟩)

/-- Outside the program the accounts of vaults pay nothing either. -/
theorem spares_of_valid {tokenOp : TokenOp Pubkey} {u : Unit}
    (h : validateOp D mint tokenOp = .ok u) :
    D.Spares id (tokenOp.map .wallet) ∧
      (mint = D.shareMint id → (tokenOp.map Holder.wallet).isMintTo = false) := by
  unfold validateOp at h
  split at h
  · cases h
  · next hvalid =>
    obtain ⟨hsource, hmint⟩ := not_or.1 hvalid
    constructor
    · intro k hpays hmine
      rw [TokenOp.source_map] at hpays
      obtain ⟨k', hk, he⟩ := Option.map_eq_some_iff.1 hpays
      cases he
      rw [hk] at hsource
      refine hsource ?_
      rw [Option.any_some, hmine]
      rfl
    · rintro rfl
      rw [TokenOp.isMintTo_map]
      by_contra hno
      refine hmint ⟨Bool.not_eq_false _ ▸ hno, ?_⟩
      rw [show D.custodian (D.shareMint id) = some id from D.custodian_address (.shareMint id)]
      rfl

/-- What a transaction that is not on the vault does to the ledgers. -/
theorem VaultsStep.elsewhere (hp : p.WellFormed D) (hs : VaultsStep D p tx p')
    (hno : ∀ ix, tx.ix ≠ .onVault id ix) : Elsewhere D id p.ledgers p'.ledgers := by
  cases hs with
  | opened hix h =>
    rw [h.after]
    exact .refl
  | closed hix h =>
    rw [h]
    exact .refl
  | @ran other ix o c c' hix h =>
    have hne : other ≠ id := by
      rintro rfl
      exact hno ix hix
    exact h.elsewhere hp ix.2 hne
  | @moved mint op m hix hop hrun h =>
    rw [h]
    exact Mint.Moves.single hrun (spares_of_valid hop)
  | config _ _ _ hledgers =>
    rw [hledgers]
    exact .refl

/-! ## As the vault has its accounts -/

/-- Under the names of the vault the accounts of its world pay nothing. -/
theorem foreign_of_abstains (a b : VaultPda)
    (ha : D.address a ∈ D.worldKeys id) (hb : D.address b ∈ D.worldKeys id)
    (h : D.Abstains id (op.map (seat (D.address a) (D.address b)))) : Foreign op := by
  constructor
  · intro hsource
    exact h _ ha (by rw [TokenOp.source_map, hsource]; rfl)
  · intro hsource
    exact h _ hb (by rw [TokenOp.source_map, hsource]; rfl)

/-- What operations do to the mints of the vault when its world has no part in them. -/
theorem moves_foreign (mint : Pubkey) {P : Pubkey → TokenOp Holder → Prop}
    (h : Mint.Moves P ledgers ledgers')
    (hd : ∀ op, P mint op → D.Abstains id op)
    (hs : ∀ op, P (D.shareMint id) op → D.Abstains id op ∧ op.isMintTo = false) :
    ((ledgers mint).rename (D.depositSeat id)).Via Foreign
      ((ledgers' mint).rename (D.depositSeat id)) ∧
    ((ledgers (D.shareMint id)).rename (D.shareSeat id)).Via
      (fun op => Foreign op ∧ op.isMintTo = false)
      ((ledgers' (D.shareMint id)).rename (D.shareSeat id)) := by
  constructor
  · refine ((h.via mint).rename (D.depositSeat_involutive id)).mono fun op hop => ?_
    exact foreign_of_abstains (.vault id) (.depositEscrow id) (by simp [Deployment.worldKeys,
      Deployment.vaultAddress]) (by simp [Deployment.worldKeys]) (hd _ hop)
  · refine ((h.via (D.shareMint id)).rename (D.shareSeat_involutive id)).mono fun op hop => ?_
    obtain ⟨habstains, hmint⟩ := hs _ hop
    rw [TokenOp.isMintTo_map] at hmint
    exact ⟨foreign_of_abstains (.vault id) (.shareEscrow id) (by simp [Deployment.worldKeys,
      Deployment.vaultAddress]) (by simp [Deployment.worldKeys]) habstains, hmint⟩

theorem abstains_of_spares (h : D.Spares id op) : D.Abstains id op := by
  intro k hk hsource
  refine h k hsource ?_
  simp only [Deployment.worldKeys, List.mem_cons, List.not_mem_nil, or_false] at hk
  rcases hk with rfl | rfl | rfl
  · exact D.custodian_address (.vault id)
  · exact D.custodian_address (.depositEscrow id)
  · exact D.custodian_address (.shareEscrow id)

/-- What the vault pays in its own mints from accounts that its world does not keep. -/
theorem abstains_ledgerOp (hbetween : payment.isBetween D id = true)
    (hplace : payment.account.place mints = none)
    (hmint : payment.account.mint mints = mints.depositMint ∨
      payment.account.mint mints = mints.shareMint) : D.Abstains id (payment.ledgerOp D id) := by
  obtain ⟨howns, hparty⟩ := Bool.and_eq_true_iff.1 hbetween
  cases payment with
  | received payer account amount =>
    refine abstains_of_spares fun k hsource hmine => ?_
    cases hsource
    cases (of_decide_eq_true hparty).symm.trans hmine
  | spent payee account amount =>
    rintro k hk hsource
    cases hsource
    have hkeeps : D.Keeps id mints account := ⟨hplace, howns⟩
    exact hkeeps.not_mem hmint hk

/-- What the world of the vault did does not touch its other accounts. -/
theorem RanOn.held_commit (hp : p.WellFormed D) (h : RanOn D p signer now id ix o c c' p')
    (hix : ix.isOnVault = true) :
    c.held = D.heldOn id (D.venues id o.depositMint).mints (p.commit D id o c').ledgers := by
  obtain ⟨hdeposit, hshare, hheld, _⟩ := custodyFor_ok h.loaded
  obtain ⟨hd, hs⟩ := h.mintMoves hp hix
  rw [hheld]
  funext account
  refine (Deployment.heldOn_congr fun hkeeps => ?_).symm
  have hmine := Deployment.custodian_ledgerKey hkeeps.owns
  have hapart : ∀ op : TokenOp Holder,
      Within (fun k => D.custodian k = none) (fun k => D.custodian k ≠ some id) op →
      op.source ≠ some (.wallet (D.ledgerKey id account)) ∧
        op.dest ≠ some (.wallet (D.ledgerKey id account)) := fun op hop =>
    ⟨fun hsource => (by cases (hop.source _ hsource).symm.trans hmine),
      fun hdest => hop.dest _ hdest hmine⟩
  unfold commit
  dsimp only
  by_cases hmint : account.mint (D.venues id o.depositMint).mints = o.depositMint
  · have hseated := Deployment.depositSeat_other (hkeeps.not_mem (.inl hmint))
    rw [hmint, Function.update_self, Mint.rename_amount, hseated,
      hd.amount_eq fun op hop => hapart op hop.2, hdeposit, Mint.rename_amount, hseated]
  · rw [Function.update_of_ne hmint]
    by_cases hshares : account.mint (D.venues id o.depositMint).mints = D.shareMint id
    · have hseated := Deployment.shareSeat_other (hkeeps.not_mem (.inr hshares))
      rw [hshares, Function.update_self, Mint.rename_amount, hseated, hs.amount_eq hapart, hshare,
        Mint.rename_amount, hseated]
    · rw [Function.update_of_ne hshares]

/-- The custody that an instruction leaves is what the ledgers show, but for what it paid in the
mints of the vault from accounts at other addresses. -/
theorem RanOn.own (hp : p.WellFormed D) (h : RanOn D p signer now id ix o c c' p')
    (hix : ix.isOnVault = true) (hne : o.depositMint ≠ D.shareMint id) :
    c'.world.depositMint.Via Foreign ((p'.ledgers o.depositMint).rename (D.depositSeat id)) ∧
    c'.world.shareMint.Via (fun op => Foreign op ∧ op.isMintTo = false)
      ((p'.ledgers (D.shareMint id)).rename (D.shareSeat id)) ∧
    c'.held = D.heldOn id (D.venues id o.depositMint).mints p'.ledgers := by
  have hmoves := moves_of_paid (P := fun mint op => (mint = o.depositMint ∨ mint = D.shareMint id →
    D.Abstains id op) ∧ op.isMintTo = false) h.paid fun payment hmem hplace =>
      ⟨fun hmint => abstains_ledgerOp (h.parties payment hmem) hplace hmint, rfl⟩
  obtain ⟨hd, hs⟩ := moves_foreign o.depositMint hmoves (fun op hop => hop.1 (.inl rfl))
    fun op hop => ⟨hop.1 (.inr rfl), hop.2⟩
  rw [commit_deposit] at hd
  rw [commit_share hne] at hs
  refine ⟨hd, hs, ?_⟩
  obtain ⟨c₀, c₁, hheld, hsettled, he⟩ := h.step.settled
  rw [he]
  exact Deployment.heldOn_settleAll h.parties hsettled h.paid
    (hheld.symm.trans (h.held_commit hp hix))

/-- What others pay to the accounts that the world of the vault does not keep was sent to them. -/
theorem held_run {V : Venues} (h : Elsewhere D id ledgers ledgers')
    (hheld : c.held = D.heldOn id V.mints ledgers) (signer : Signer) (now : I64) :
    ∃ h₁ clock, Run (Custody.Step V) c h₁
        { c with world := { c.world with clock }, held := D.heldOn id V.mints ledgers' } ∧
      Custody.Movements now (labels h₁) := by
  induction h with
  | refl =>
    rw [← hheld]
    exact ⟨[], c.world.clock, .nil, .nil⟩
  | @tail ledgers₁ _ _ hmove ih =>
    obtain ⟨h₁, clock, hr, hmoves⟩ := ih
    obtain ⟨j, op, m, hrun, ⟨hspares, _⟩, rfl⟩ := hmove
    rcases Deployment.heldOn_spared hrun hspares with hsame | ⟨account, hplace, hsum, he⟩
    · rw [hsame]
      exact ⟨h₁, clock, hr, hmoves⟩
    · have hfits : op.amount < 2 ^ 64 :=
        Nat.lt_of_le_of_lt (Nat.le_add_left _ _) (hsum.trans_lt (BitVec.isLt _))
      have hsent : (D.heldOn id V.mints ledgers₁ account).toNat +
          (BitVec.ofNatLT op.amount hfits).toNat = _ := hsum
      have st := Custody.donate_step (c := { c with
        world := { c.world with clock }, held := D.heldOn id V.mints ledgers₁ }) hplace hsent
        signer now
      dsimp only at st
      rw [← he] at st
      exact ⟨_ :: h₁, now, hr.snoc st, Custody.Movements.append (.single rfl rfl) hmoves⟩

/-- The custody follows what others do to the ledgers. -/
theorem elsewhere_run (h : Elsewhere D id ledgers ledgers') (c : Custody) (mint : Pubkey)
    (signer : Signer) (now : I64) :
    ∃ h₁ clock, Run (Custody.Step (D.venues id mint)) (c.over D id mint ledgers) h₁
        ({ c with world := { c.world with clock } }.over D id mint ledgers') ∧
      Custody.Movements now (labels h₁) := by
  obtain ⟨hd, hs⟩ := moves_foreign mint h (fun op hop => abstains_of_spares hop.1)
    fun op hop => ⟨abstains_of_spares hop.1, hop.2 rfl⟩
  obtain ⟨h₁, clock, hr₁, hmoves₁⟩ := Custody.moves_run (V := D.venues id mint)
    (c := c.over D id mint ledgers) hd hs signer now
  obtain ⟨h₂, clock', hr₂, hmoves₂⟩ := held_run (V := D.venues id mint)
    (c := { c.over D id mint ledgers with world := { (c.over D id mint ledgers).world with
      clock, depositMint := _, shareMint := _ } }) h rfl signer now
  refine ⟨h₂ ++ h₁, clock', hr₁.trans hr₂, ?_⟩
  unfold labels at hmoves₁ hmoves₂ ⊢
  rw [List.map_append]
  exact hmoves₂.append hmoves₁

end

end Protocol

end HedgeVault
