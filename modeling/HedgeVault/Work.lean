import HedgeVault.Instructions.Venues
import HedgeVault.Stamps

/-!
# Strategies at work

A strategy transaction acts on its record and then settles payments of the vault (`Worked`).
Which payments can be read off the transaction (`payments`): those it is about, those its call
makes on the side, and the part of the treasury. `Paid.balance` and `settleAll_balance` say what
they do to the accounts of the vault.
-/

namespace HedgeVault

open Lib

namespace Payment

/-- What the payment takes from the account. -/
def debited (account : VaultAccount) : Payment → Nat
  | spent _ a amount => if a = account then amount.toNat else 0
  | received _ _ _ => 0

/-- What the payment brings to the account. -/
def credited (account : VaultAccount) : Payment → Nat
  | spent _ _ _ => 0
  | received _ a amount => if a = account then amount.toNat else 0

end Payment

/-- The part of a claimed amount that the treasury gets. -/
def treasuryShare (claimed : U64) : U64 :=
  BitVec.ofNat 64 (claimed.toNat * TREASURY_CLAIM_FEE_BPS.toNat / MAX_BPS.toNat)

def treasuryPayments (treasury : Pubkey) (account : VaultAccount) (claimed : U64) : List Payment :=
  if treasuryShare claimed > 0 then [.spent treasury account (treasuryShare claimed)] else []

namespace Custody

variable (V : Venues) (c : Custody)

/-- What Phoenix pays into the canonical account when a withdrawal of the trader is queued. -/
def queuePayments (traderAccount : Pubkey) (outcome : PhoenixOutcome) : List Payment :=
  if (c.traders traderAccount).withdrawQueueNode ≠ 0 then
    [.received PHOENIX_PROGRAM_ID V.canonical outcome.received]
  else []

end Custody

namespace CustodyInstruction

/-- The payments that a transaction is about, in their order. -/
def principal (V : Venues) (c : Custody) (signer : Signer) : CustodyInstruction → List Payment
  | .jupiterSwap _ source destination _ _ _ (.ok route) =>
    [.spent JUPITER_ID (.associated source)
        (c.balance V (.associated source) - route.swap.sourceBalance),
      .received JUPITER_ID (.associated destination)
        (route.swap.destinationBalance - c.balance V (.associated destination))]
  | .dlmmAddLiquidity position _ _ (.ok outcome) =>
    [.spent position (V.tokenX position) outcome.x, .spent position (V.tokenY position) outcome.y]
  | .dlmmRemoveLiquidity position _ (.ok outcome) =>
    [.received position (V.tokenX position) outcome.x,
      .received position (V.tokenY position) outcome.y]
  | .dlmmClaimFee position _ (.ok outcome) =>
    [.received position (V.tokenX position) outcome.x,
      .received position (V.tokenY position) outcome.y]
  | .phoenixDepositFunds _ amount _ => [.spent EMBER_VAULT USDC_ACCOUNT amount]
  | .phoenixWithdrawFunds _ _ (.ok outcome) =>
    [.received EMBER_VAULT USDC_ACCOUNT outcome.received]
  | .phoenixEmberWithdraw _ =>
    [.spent EMBER_VAULT V.canonical (c.balance V V.canonical),
      .received EMBER_VAULT USDC_ACCOUNT (c.balance V V.canonical)]
  | .phoenixPlaceLimitOrder trader _ _ (.ok outcome) =>
    c.queuePayments V trader outcome.toPhoenixOutcome
  | .phoenixPlaceMarketOrder trader _ _ (.ok outcome) =>
    c.queuePayments V trader outcome.toPhoenixOutcome
  | .phoenixCancelOrders trader _ _ (.ok outcome) => c.queuePayments V trader outcome
  | .phoenixUpdate trader outcome => c.queuePayments V trader outcome
  | .donate account amount => [.received signer.key account amount]
  | _ => []

/-- The payments that a call makes on the side. -/
def aside (V : Venues) : CustodyInstruction → List Payment
  | .jupiterSwap _ source destination _ _ _ (.ok route) =>
    beside [.associated source, .associated destination] route.aside
  | .dlmmAddLiquidity position _ _ (.ok outcome) =>
    beside [V.tokenX position, V.tokenY position] outcome.aside
  | .dlmmRemoveLiquidity position _ (.ok outcome) =>
    beside [V.tokenX position, V.tokenY position] outcome.aside
  | .dlmmClaimFee position _ (.ok outcome) =>
    beside [V.tokenX position, V.tokenY position] outcome.aside
  | _ => []

/-- The part of the treasury in the fees of a claim. -/
def fees (V : Venues) : CustodyInstruction → List Payment
  | .dlmmClaimFee position treasury (.ok outcome) =>
    treasuryPayments treasury (V.tokenX position) outcome.x ++
      treasuryPayments treasury (V.tokenY position) outcome.y
  | _ => []

def payments (V : Venues) (c : Custody) (signer : Signer) (ix : CustodyInstruction) :
    List Payment :=
  ix.principal V c signer ++ ix.aside V ++ ix.fees V

/-- Whether the transaction settles payments, as opposed to one of the program itself. -/
def isWork : CustodyInstruction → Bool
  | .program _ => false
  | .closeStrategy _ _ => false
  | _ => true

/-- The record that a strategy handler acts on. -/
def record : CustodyInstruction → Option Pubkey
  | .jupiterSwap strategyAccount _ _ _ _ _ _ => some strategyAccount
  | .dlmmAddLiquidity position _ _ _ => some position
  | .dlmmRemoveLiquidity position _ _ => some position
  | .dlmmClaimFee position _ _ => some position
  | .phoenixDepositFunds trader _ _ => some trader
  | .phoenixWithdrawFunds trader _ _ => some trader
  | .phoenixEmberWithdraw trader => some trader
  | .phoenixPlaceLimitOrder trader _ _ _ => some trader
  | .phoenixPlaceMarketOrder trader _ _ _ => some trader
  | .phoenixCancelOrders trader _ _ _ => some trader
  | _ => none

/-- The type of record that the handler asks for. -/
def Fits (V : Venues) (ty : StrategyType) : CustodyInstruction → Prop
  | .jupiterSwap _ source destination _ _ _ _ => ∃ target, ty = .jupiterSwap target ∧
    (source = V.mints.depositMint ∧ target = destination ∨
      destination = V.mints.depositMint ∧ target = source)
  | .dlmmAddLiquidity position _ _ _ => ty = .meteoraDlmm position
  | .dlmmRemoveLiquidity position _ _ => ty = .meteoraDlmm position
  | .dlmmClaimFee position _ _ => ty = .meteoraDlmm position
  | .phoenixDepositFunds trader _ _ => ty = .phoenixPerp trader
  | .phoenixWithdrawFunds trader _ _ => ty = .phoenixPerp trader
  | .phoenixEmberWithdraw trader => ty = .phoenixPerp trader
  | .phoenixPlaceLimitOrder trader _ _ _ => ty = .phoenixPerp trader
  | .phoenixPlaceMarketOrder trader _ _ _ => ty = .phoenixPerp trader
  | .phoenixCancelOrders trader _ _ _ => ty = .phoenixPerp trader
  | _ => False

/-- The treasury that a claim pays. -/
def treasury : CustodyInstruction → Option Pubkey
  | .dlmmClaimFee _ treasuryAuthority _ => some treasuryAuthority
  | _ => none

/-- What stays open while the vault is reduce-only. -/
def isExit : CustodyInstruction → Bool
  | .dlmmRemoveLiquidity _ _ _ => true
  | .dlmmClaimFee _ _ _ => true
  | .phoenixWithdrawFunds _ _ _ => true
  | .phoenixEmberWithdraw _ => true
  | .phoenixPlaceMarketOrder _ _ params _ => params.reduceOnly
  | .phoenixCancelOrders _ _ _ _ => true
  | _ => false

/-- What stays open while the protocol is reduce-only: DLMM positions have to wait. -/
def isPhoenixExit : CustodyInstruction → Bool
  | .phoenixWithdrawFunds _ _ _ => true
  | .phoenixEmberWithdraw _ => true
  | .phoenixPlaceMarketOrder _ _ params _ => params.reduceOnly
  | .phoenixCancelOrders _ _ _ _ => true
  | _ => false

end CustodyInstruction

namespace Custody

variable (V : Venues)

/-- The instruction as the world of the vault sees it: the checks of an opened strategy are over. -/
def seen : Instruction → Instruction
  | .initializeStrategy strategyType _ => .initializeStrategy strategyType (.ok ())
  | ix => ix

/-- A handler acted on its record: what it checked, and the stamp it left. -/
structure Acted (w : World) (signer : Signer) (ix : CustodyInstruction) (k : Pubkey) (w' : World) :
    Prop where
  authority : signer.key = w.vault.authority
  notPaused : w.config.status ≠ .paused ∧ w.vault.status ≠ .paused
  normalVault : ix.isExit = false → w.vault.status = .normal
  normalProtocol : ix.isPhoenixExit = false → w.config.status = .normal
  treasury : ∀ treasury ∈ ix.treasury, treasury = w.config.treasuryAuthority
  stamped : ∃ s, w.strategies.lookup k = some s ∧ ix.Fits V s.strategyType ∧
    w' = { w with strategies := w.strategies.insert k { s with lastActionTs := w.clock } }

/-- A strategy transaction acts on its record, if it has one, and then its payments are
settled. It queues withdrawals of its own trader account at most. -/
structure Worked (c : Custody) (signer : Signer) (ix : CustodyInstruction) (w : World)
    (c' : Custody) : Prop where
  acted : match ix.record with
    | some k => Acted V c.world signer ix k w
    | none => w = c.world
  settled : ∃ c₁, settleAll V { c with world := w } (ix.payments V c signer) = .ok c₁ ∧
    c'.world = c₁.world ∧ c'.held = c₁.held
  queued : ∀ t, (c'.traders t).withdrawQueueNode ≠ 0 →
    (c.traders t).withdrawQueueNode ≠ 0 ∨ ix.record = some t ∧ ix.Fits V (.phoenixPerp t)

/-- What a settled payment did: the accounts of the world are moved by it, the others booked. -/
inductive Paid (c : Custody) (p : Payment) : Custody → Prop
  | moved {kind holder w} (hplace : p.account.place V.mints = some (kind, holder))
    (h : c.world.transfer kind (p.src holder) (p.dst holder) p.amount.toNat = .ok w) :
    Paid c p { c with world := w }
  | booked {b : U64} (hplace : p.account.place V.mints = none)
    (h : b.toNat + p.debited p.account = (c.held p.account).toNat + p.credited p.account) :
    Paid c p { c with held := Function.update c.held p.account b }

variable {V} {c c' c₁ c₂ : Custody} {signer : Signer} {k : Pubkey} {w w' : World}
  {ix : CustodyInstruction} {p q : Payment} {ps qs : List Payment} {account : VaultAccount}

/-! ## Payments -/

theorem settleAll_append : settleAll V c (ps ++ qs) = settleAll V c ps >>= (settleAll V · qs) :=
  List.foldlM_append

theorem settleAll_cons : settleAll V c (p :: ps) = c.settle V p >>= (settleAll V · ps) :=
  List.foldlM_cons

theorem settleAll_single : settleAll V c [p] = c.settle V p := by
  unfold settleAll
  rw [List.foldlM_cons]
  exact bind_pure _

theorem book_eq_ok {b b' : U64} (h : p.book b = .ok b') :
    b'.toNat + p.debited p.account = b.toNat + p.credited p.account := by
  cases p with
  | spent payee a amount =>
    simp only [Payment.debited, Payment.credited, Payment.account, if_pos]
    change (checkedSub b amount).elim _ _ = _ at h
    cases hsub : checkedSub b amount with
    | none =>
      rw [hsub] at h
      cases h
    | some left =>
      rw [hsub] at h
      cases h
      exact safeSub_eq_ok.1 (orOverflow_eq_ok.2 hsub)
  | received payer a amount =>
    simp only [Payment.debited, Payment.credited, Payment.account, if_pos]
    change (checkedAdd b amount).elim _ _ = _ at h
    cases hadd : checkedAdd b amount with
    | none =>
      rw [hadd] at h
      cases h
    | some sum =>
      rw [hadd] at h
      cases h
      exact (safeAdd_eq_ok.1 (orOverflow_eq_ok.2 hadd)).symm

theorem settle_paid (h : c.settle V p = .ok c') : Paid V c p c' := by
  unfold settle at h
  split at h
  · next hplace =>
    simp only [bind_eq_ok, pure_eq_ok] at h
    obtain ⟨w, hw, rfl⟩ := h
    exact .moved hplace hw
  · next hplace =>
    simp only [bind_eq_ok, pure_eq_ok] at h
    obtain ⟨b, hb, rfl⟩ := h
    exact .booked hplace (book_eq_ok hb)

theorem place_associated (mint : Pubkey) :
    (VaultAccount.associated mint).place V.mints =
      if mint = V.mints.depositMint then some (.deposit, .vault)
      else if mint = V.mints.shareMint then some (.share, .vault) else none := rfl

/-- The account at a place of the world. -/
def placed (V : Venues) : MintKind × Holder → VaultAccount
  | (.deposit, .escrow) => .depositEscrow
  | (.share, .escrow) => .shareEscrow
  | (.deposit, _) => .associated V.mints.depositMint
  | (.share, _) => .associated V.mints.shareMint

theorem eq_placed {at_ : MintKind × Holder} (h : account.place V.mints = some at_) :
    account = placed V at_ := by
  cases account with
  | depositEscrow =>
    cases h
    rfl
  | shareEscrow =>
    cases h
    rfl
  | other => cases h
  | associated mint =>
    rw [place_associated] at h
    split at h
    · next hmint =>
      cases h
      rw [hmint]
      rfl
    · split at h
      · next hmint =>
        cases h
        rw [hmint]
        rfl
      · cases h

/-- No two accounts are at one place of the world. -/
theorem place_inj {b : VaultAccount} {at_ : MintKind × Holder}
    (ha : account.place V.mints = some at_) (hb : b.place V.mints = some at_) : account = b :=
  (eq_placed ha).trans (eq_placed hb).symm

/-- The world keeps escrows of the vault and its own accounts, no wallets. -/
theorem place_own {kind : MintKind} {holder : Holder}
    (h : account.place V.mints = some (kind, holder)) : holder = .escrow ∨ holder = .vault := by
  cases account with
  | depositEscrow =>
    cases h
    exact .inl rfl
  | shareEscrow =>
    cases h
    exact .inl rfl
  | other => cases h
  | associated mint =>
    rw [place_associated] at h
    split at h
    · cases h
      exact .inr rfl
    · split at h
      · cases h
        exact .inr rfl
      · cases h

theorem place_ne_wallet {kind : MintKind} {holder : Holder}
    (h : account.place V.mints = some (kind, holder)) (k : Pubkey) : holder ≠ .wallet k := by
  rcases place_own h with rfl | rfl
  · exact fun hno => by cases hno
  · exact fun hno => by cases hno

theorem depositTransfer_ok {src dst : Holder} {n : Nat} (h : w.depositTransfer src dst n = .ok w') :
    ∃ m, w.depositMint.transfer src dst n = .ok m ∧ w' = { w with depositMint := m } := by
  simp only [World.depositTransfer, bind_eq_ok, pure_eq_ok, ofToken_eq_ok] at h
  obtain ⟨_, _, m, hm, rfl⟩ := h
  exact ⟨m, hm, rfl⟩

theorem shareTransfer_ok {src dst : Holder} {n : Nat} (h : w.shareTransfer src dst n = .ok w') :
    ∃ m, w.shareMint.transfer src dst n = .ok m ∧ w' = { w with shareMint := m } := by
  simp only [World.shareTransfer, bind_eq_ok, pure_eq_ok, ofToken_eq_ok] at h
  obtain ⟨_, _, m, hm, rfl⟩ := h
  exact ⟨m, hm, rfl⟩

theorem transfer_mints {kind : MintKind} {src dst : Holder} {n : Nat}
    (h : w.transfer kind src dst n = .ok w') :
    ∃ d s, w' = { w with depositMint := d, shareMint := s } := by
  cases kind with
  | deposit =>
    obtain ⟨m, _, rfl⟩ := depositTransfer_ok h
    exact ⟨m, w.shareMint, rfl⟩
  | share =>
    obtain ⟨m, _, rfl⟩ := shareTransfer_ok h
    exact ⟨w.depositMint, m, rfl⟩

/-! ## Balances -/

theorem balance_held (h : account.place V.mints = none) : c.balance V account = c.held account := by
  unfold balance
  rw [h]

theorem balance_deposit {holder : Holder} (h : account.place V.mints = some (.deposit, holder)) :
    (c.balance V account).toNat = c.world.depositMint.amount holder := by
  unfold balance
  rw [h]
  exact SplMint.amountU64_toNat _ _

theorem balance_share {holder : Holder} (h : account.place V.mints = some (.share, holder)) :
    (c.balance V account).toNat = c.world.shareMint.amount holder := by
  unfold balance
  rw [h]
  exact SplMint.amountU64_toNat _ _

theorem debited_of_ne (h : p.account ≠ account) : p.debited account = 0 := by
  cases p with
  | spent => exact if_neg h
  | received => rfl

theorem credited_of_ne (h : p.account ≠ account) : p.credited account = 0 := by
  cases p with
  | spent => rfl
  | received => exact if_neg h

/-- A payment moves the account at `holder` and that of a wallet. -/
theorem transfer_amounts {m m' : SplMint} {holder : Holder}
    (h : m.transfer (p.src holder) (p.dst holder) p.amount.toNat = .ok m')
    (hholder : ∀ k, holder ≠ .wallet k) :
    m'.amount holder + p.debited p.account = m.amount holder + p.credited p.account ∧
      ∀ other, other ≠ holder → (∀ k, other ≠ .wallet k) → m'.amount other = m.amount other := by
  cases p with
  | spent payee a amount =>
    obtain ⟨hle, _, hsrc, _, _⟩ := Mint.transfer_ok (hholder payee) h
    refine ⟨?_, fun other hne hno => Mint.transfer_other h hne (hno payee)⟩
    simp only [Payment.debited, Payment.credited, Payment.account, if_pos]
    change amount.toNat ≤ m.amount holder at hle
    change m'.amount holder = m.amount holder - amount.toNat at hsrc
    omega
  | received payer a amount =>
    obtain ⟨_, _, _, hdst, _⟩ := Mint.transfer_ok (hholder payer).symm h
    refine ⟨?_, fun other hne hno => Mint.transfer_other h (hno payer) hne⟩
    simp only [Payment.debited, Payment.credited, Payment.account, if_pos]
    exact hdst

theorem Paid.balance_self (hp : Paid V c p c') :
    (c'.balance V p.account).toNat + p.debited p.account =
      (c.balance V p.account).toNat + p.credited p.account := by
  cases hp with
  | @moved kind holder w hplace h =>
    have hholder := place_ne_wallet hplace
    cases kind with
    | deposit =>
      obtain ⟨m, hm, rfl⟩ := depositTransfer_ok h
      rw [balance_deposit hplace, balance_deposit hplace]
      exact (transfer_amounts hm hholder).1
    | share =>
      obtain ⟨m, hm, rfl⟩ := shareTransfer_ok h
      rw [balance_share hplace, balance_share hplace]
      exact (transfer_amounts hm hholder).1
  | booked hplace h =>
    rw [balance_held hplace, balance_held hplace]
    dsimp only
    rw [Function.update_self]
    exact h

theorem Paid.balance_other (hp : Paid V c p c') (hne : p.account ≠ account) :
    c'.balance V account = c.balance V account := by
  cases hp with
  | @moved kind holder w hplace h =>
    have hholder := place_ne_wallet hplace
    cases hat : account.place V.mints with
    | none => rw [balance_held hat, balance_held hat]
    | some at_ =>
      obtain ⟨kind', holder'⟩ := at_
      have hother : kind' = kind → holder' ≠ holder := by
        rintro rfl rfl
        exact hne (place_inj hplace hat)
      have hwallet := place_ne_wallet hat
      apply BitVec.eq_of_toNat_eq
      cases kind with
      | deposit =>
        obtain ⟨m, hm, rfl⟩ := depositTransfer_ok h
        cases kind' with
        | deposit =>
          rw [balance_deposit hat, balance_deposit hat]
          exact (transfer_amounts hm hholder).2 holder' (hother rfl) hwallet
        | share => rw [balance_share hat, balance_share hat]
      | share =>
        obtain ⟨m, hm, rfl⟩ := shareTransfer_ok h
        cases kind' with
        | deposit => rw [balance_deposit hat, balance_deposit hat]
        | share =>
          rw [balance_share hat, balance_share hat]
          exact (transfer_amounts hm hholder).2 holder' (hother rfl) hwallet
  | @booked b hplace h =>
    unfold balance
    cases account.place V.mints with
    | none => exact Function.update_of_ne hne.symm _ _
    | some at_ =>
      obtain ⟨kind, holder⟩ := at_
      cases kind with
      | deposit => rfl
      | share => rfl

/-- A payment moves its own account and no other. -/
theorem Paid.balance (hp : Paid V c p c') (account : VaultAccount) :
    (c'.balance V account).toNat + p.debited account =
      (c.balance V account).toNat + p.credited account := by
  by_cases h : p.account = account
  · subst h
    exact hp.balance_self
  · rw [hp.balance_other h, debited_of_ne h, credited_of_ne h]

theorem Paid.frame (hp : Paid V c p c') :
    (∃ d s, c'.world = { c.world with depositMint := d, shareMint := s }) ∧
      c'.liquidity = c.liquidity ∧ c'.traders = c.traders := by
  cases hp with
  | moved _ h => exact ⟨transfer_mints h, rfl, rfl⟩
  | booked => exact ⟨⟨_, _, rfl⟩, rfl, rfl⟩

theorem settleAll_balance (h : settleAll V c ps = .ok c') (account : VaultAccount) :
    (c'.balance V account).toNat + (ps.map (·.debited account)).sum =
      (c.balance V account).toNat + (ps.map (·.credited account)).sum := by
  induction ps generalizing c with
  | nil =>
    cases h
    rfl
  | cons p ps ih =>
    rw [settleAll_cons] at h
    obtain ⟨c₁, hp, hrest⟩ := bind_eq_ok.1 h
    have hfirst := (settle_paid hp).balance account
    have hothers := ih hrest
    simp only [List.map_cons, List.sum_cons]
    omega

/-- Beside tokens, payments move nothing. -/
theorem settleAll_frame (h : settleAll V c ps = .ok c') :
    (∃ d s, c'.world = { c.world with depositMint := d, shareMint := s }) ∧
      c'.liquidity = c.liquidity ∧ c'.traders = c.traders := by
  induction ps generalizing c with
  | nil =>
    cases h
    exact ⟨⟨_, _, rfl⟩, rfl, rfl⟩
  | cons p ps ih =>
    rw [settleAll_cons] at h
    obtain ⟨c₁, hp, hrest⟩ := bind_eq_ok.1 h
    obtain ⟨⟨d, s, hfirst⟩, hliquidity, htraders⟩ := (settle_paid hp).frame
    obtain ⟨⟨d', s', hothers⟩, hliquidity', htraders'⟩ := ih hrest
    refine ⟨⟨d', s', ?_⟩, hliquidity'.trans hliquidity, htraders'.trans htraders⟩
    rw [hothers, hfirst]

/-! ## What the gates say -/

theorem protocol_operational {config : Config} {b : Bool}
    (h : config.isProtocolOperational = .ok ()) :
    config.status ≠ .paused ∧ (b = false → config.status = .normal) := by
  have hnormal : config.status = .normal := validate_eq_ok.1 h
  refine ⟨?_, fun _ => hnormal⟩
  rw [hnormal]
  decide

theorem protocol_withdrawable {config : Config} (h : config.isProtocolWithdrawable = .ok ()) :
    config.status ≠ .paused ∧ (true = false → config.status = .normal) :=
  ⟨validate_eq_ok.1 h, fun hno => by cases hno⟩

theorem vault_operational {vault : Vault} {b : Bool} (h : vault.isVaultOperational = .ok ()) :
    vault.status ≠ .paused ∧ (b = false → vault.status = .normal) := by
  have hnormal : vault.status = .normal := validate_eq_ok.1 h
  refine ⟨?_, fun _ => hnormal⟩
  rw [hnormal]
  decide

theorem vault_withdrawable {vault : Vault} (h : vault.isVaultWithdrawable = .ok ()) :
    vault.status ≠ .paused ∧ (true = false → vault.status = .normal) :=
  ⟨validate_eq_ok.1 h, fun hno => by cases hno⟩

/-- Only claims pay a treasury. -/
theorem no_treasury {treasuryAuthority : Pubkey} (h : ix.treasury = none) :
    ∀ treasury ∈ ix.treasury, treasury = treasuryAuthority := by
  intro treasury ht
  rw [h] at ht
  cases ht

theorem validatePosition_ok {position : Pubkey} {ty : StrategyType} {u : Unit}
    (h : ty.validatePosition position = .ok u) : ty = .meteoraDlmm position := by
  cases ty with
  | meteoraDlmm p => rw [validate_eq_ok.1 h]
  | jupiterSwap => cases h
  | phoenixPerp => cases h

theorem validateTrader_ok {t : Pubkey} {ty : StrategyType} {u : Unit}
    (h : ty.validateTrader t = .ok u) : ty = .phoenixPerp t := by
  cases ty with
  | phoenixPerp t' => rw [validate_eq_ok.1 h]
  | jupiterSwap => cases h
  | meteoraDlmm => cases h

theorem Acted.of_actOn {gate gate' : Result Unit} {check : StrategyType → Result Unit}
    (h : w.actOn signer k gate gate' check = .ok w')
    (hprotocol : gate = .ok () → gate' = .ok () → w.config.status ≠ .paused ∧
      (ix.isPhoenixExit = false → w.config.status = .normal))
    (hvault : gate' = .ok () → w.vault.status ≠ .paused ∧
      (ix.isExit = false → w.vault.status = .normal))
    (htreasury : gate = .ok () → ∀ treasury ∈ ix.treasury, treasury = w.config.treasuryAuthority)
    (hcheck : ∀ ty, check ty = .ok () → ix.Fits V ty) : Acted V w signer ix k w' := by
  simp only [World.actOn, Vault.validateAuthority, bind_eq_ok, pure_eq_ok, World.load_eq_ok,
    validate_eq_ok] at h
  obtain ⟨s, hs, _, hgate, _, hauthority, _, hgate', _, hfits, rfl⟩ := h
  obtain ⟨hconfig, hnormal⟩ := hprotocol hgate hgate'
  obtain ⟨hunpaused, hnormal'⟩ := hvault hgate'
  exact ⟨hauthority, ⟨hconfig, hunpaused⟩, hnormal', hnormal, htreasury hgate, s, hs,
    hcheck _ hfits, rfl⟩

/-! ## The handlers -/

theorem payments_principal (haside : ix.aside V = []) (hfees : ix.fees V = []) :
    ix.payments V c signer = ix.principal V c signer := by
  unfold CustodyInstruction.payments
  rw [haside, hfees, List.append_nil, List.append_nil]

theorem payments_beside (hfees : ix.fees V = []) :
    ix.payments V c signer = ix.principal V c signer ++ ix.aside V := by
  unfold CustodyInstruction.payments
  rw [hfees, List.append_nil]

/-- A handler that moves no trader account queues nothing. -/
theorem queued_same (h : c'.traders = c.traders) (t : Pubkey)
    (ht : (c'.traders t).withdrawQueueNode ≠ 0) :
    (c.traders t).withdrawQueueNode ≠ 0 ∨ ix.record = some t ∧ ix.Fits V (.phoenixPerp t) := by
  rw [h] at ht
  exact .inl ht

/-- A handler on the Phoenix record of `t` moves that trader account alone. -/
theorem queued_own {trader : PhoenixTrader} (h : c'.traders = Function.update c.traders k trader)
    (hrecord : ix.record = some k) (hfits : ix.Fits V (.phoenixPerp k)) (t : Pubkey)
    (ht : (c'.traders t).withdrawQueueNode ≠ 0) :
    (c.traders t).withdrawQueueNode ≠ 0 ∨ ix.record = some t ∧ ix.Fits V (.phoenixPerp t) := by
  rw [h] at ht
  by_cases hk : t = k
  · subst hk
    exact .inr ⟨hrecord, hfits⟩
  · rw [Function.update_of_ne hk] at ht
    exact .inl ht

theorem dlmmAddLiquidity_worked {position : Pubkey} {x y : U64} {call : Result DlmmOutcome}
    (h : c.dlmmAddLiquidity V signer position call = .ok c') :
    ∃ w, Worked V c signer (.dlmmAddLiquidity position x y call) w c' := by
  simp only [dlmmAddLiquidity, bind_eq_ok, pure_eq_ok] at h
  obtain ⟨w, hact, outcome, rfl, c₁, hsettled, rfl⟩ := h
  obtain ⟨_, _, htraders⟩ := settleAll_frame hsettled
  refine ⟨w, ?_, ⟨c₁, ?_, rfl, rfl⟩, queued_same htraders⟩
  · exact .of_actOn hact (fun hgate _ => protocol_operational hgate) vault_operational
      (fun _ => no_treasury rfl) fun _ => validatePosition_ok
  · rw [payments_beside rfl]
    exact hsettled

theorem dlmmRemoveLiquidity_worked {position : Pubkey} {bps : U16} {call : Result DlmmOutcome}
    (h : c.dlmmRemoveLiquidity V signer position call = .ok c') :
    ∃ w, Worked V c signer (.dlmmRemoveLiquidity position bps call) w c' := by
  simp only [dlmmRemoveLiquidity, bind_eq_ok, pure_eq_ok] at h
  obtain ⟨w, hact, outcome, rfl, c₁, hsettled, rfl⟩ := h
  obtain ⟨_, _, htraders⟩ := settleAll_frame hsettled
  refine ⟨w, ?_, ⟨c₁, ?_, rfl, rfl⟩, queued_same htraders⟩
  · exact .of_actOn hact (fun hgate _ => protocol_operational hgate) vault_withdrawable
      (fun _ => no_treasury rfl) fun _ => validatePosition_ok
  · rw [payments_beside rfl]
    exact hsettled

theorem treasuryShare_toNat (claimed : U64) :
    (treasuryShare claimed).toNat = claimed.toNat / 10 := by
  unfold treasuryShare
  rw [BitVec.toNat_ofNat, maxBps_toNat]
  have hlt := claimed.isLt
  change claimed.toNat * 1000 / 10000 % 2 ^ 64 = claimed.toNat / 10
  omega

/-- A tenth of a word is a word. -/
theorem treasuryFee_eq (claimed : U64) : treasuryFee claimed = .ok (treasuryShare claimed) := by
  have hlt := claimed.isLt
  simp only [treasuryFee, bind_eq_ok, mulDiv_eq_ok, safeToU64_eq_ok, asU128_toNat_u64,
    asU128_toNat_u16, maxBps_toNat]
  refine ⟨asU128 (treasuryShare claimed), ?_⟩
  rw [asU128_toNat_u64, treasuryShare_toNat]
  change (claimed.toNat * 1000 < 2 ^ 128 ∧ 10000 ≠ 0 ∧
    claimed.toNat * 1000 / 10000 = claimed.toNat / 10) ∧ claimed.toNat / 10 = claimed.toNat / 10
  omega

theorem transferTreasuryFee_eq (treasury : Pubkey) (claimed : U64) :
    c.transferTreasuryFee V treasury account claimed =
      settleAll V c (treasuryPayments treasury account claimed) := by
  unfold transferTreasuryFee treasuryPayments
  rw [treasuryFee_eq, ok_bind]
  split
  · rw [settleAll_single]
  · rfl

theorem dlmmClaimFee_worked {position treasury : Pubkey} {call : Result DlmmOutcome}
    (h : c.dlmmClaimFee V signer position treasury call = .ok c') :
    ∃ w, Worked V c signer (.dlmmClaimFee position treasury call) w c' := by
  simp only [dlmmClaimFee, bind_eq_ok] at h
  obtain ⟨w, hact, outcome, rfl, c₁, hclaimed, c₂, hx, hy⟩ := h
  let ix : CustodyInstruction := .dlmmClaimFee position treasury (.ok outcome)
  have hbefore : settleAll V { c with world := w } (ix.principal V c signer ++ ix.aside V) =
    .ok c₁ := hclaimed
  have hfees : settleAll V c₁ (treasuryPayments treasury (V.tokenX position) outcome.x ++
      treasuryPayments treasury (V.tokenY position) outcome.y) = .ok c' := by
    rw [transferTreasuryFee_eq] at hx hy
    rw [settleAll_append, hx, ok_bind, hy]
  have hsettled : settleAll V { c with world := w } (ix.payments V c signer) = .ok c' := by
    unfold CustodyInstruction.payments
    rw [settleAll_append, hbefore, ok_bind]
    exact hfees
  obtain ⟨_, _, htraders⟩ := settleAll_frame hsettled
  refine ⟨w, ?_, ⟨c', hsettled, rfl, rfl⟩, queued_same htraders⟩
  refine .of_actOn hact (fun hgate _ => ?_) vault_withdrawable (fun hgate => ?_)
    fun _ => validatePosition_ok
  · obtain ⟨_, hprotocol, _⟩ := bind_eq_ok.1 hgate
    exact protocol_operational hprotocol
  · obtain ⟨_, _, htreasury⟩ := bind_eq_ok.1 hgate
    rintro _ ⟨⟩
    exact (validate_eq_ok.1 htreasury).symm

theorem phoenixDepositFunds_worked {t : Pubkey} {amount : U64} {call : Result PhoenixOutcome}
    (h : c.phoenixDepositFunds V signer t amount call = .ok c') :
    ∃ w, Worked V c signer (.phoenixDepositFunds t amount call) w c' := by
  simp only [phoenixDepositFunds, bind_eq_ok, pure_eq_ok] at h
  obtain ⟨w, hact, _, _, _, _, _, _, outcome, _, _, _, c₁, hsettled, rfl⟩ := h
  obtain ⟨_, _, htraders⟩ := settleAll_frame hsettled
  have hown : Function.update c₁.traders t outcome.trader =
      Function.update c.traders t outcome.trader := by rw [htraders]
  refine ⟨w, ?_, ⟨c₁, ?_, rfl, rfl⟩, queued_own hown rfl rfl⟩
  · exact .of_actOn hact (fun hgate _ => protocol_operational hgate) vault_operational
      (fun _ => no_treasury rfl) fun _ => validateTrader_ok
  · rw [payments_principal rfl rfl]
    exact hsettled

theorem phoenixWithdrawFunds_worked {t : Pubkey} {amount : U64} {call : Result PhoenixOutcome}
    (h : c.phoenixWithdrawFunds V signer t amount call = .ok c') :
    ∃ w, Worked V c signer (.phoenixWithdrawFunds t amount call) w c' := by
  simp only [phoenixWithdrawFunds, bind_eq_ok, pure_eq_ok] at h
  obtain ⟨w, hact, _, _, outcome, rfl, _, _, c₁, hsettled, rfl⟩ := h
  obtain ⟨_, _, htraders⟩ := settleAll_frame hsettled
  have hown : Function.update c₁.traders t outcome.trader =
      Function.update c.traders t outcome.trader := by rw [htraders]
  refine ⟨w, ?_, ⟨c₁, ?_, rfl, rfl⟩, queued_own hown rfl rfl⟩
  · exact .of_actOn hact (fun hgate _ => protocol_withdrawable hgate) vault_withdrawable
      (fun _ => no_treasury rfl) fun _ => validateTrader_ok
  · rw [payments_principal rfl rfl]
    exact hsettled

theorem phoenixEmberWithdraw_worked {t : Pubkey}
    (h : c.phoenixEmberWithdraw V signer t = .ok c') :
    ∃ w, Worked V c signer (.phoenixEmberWithdraw t) w c' := by
  simp only [phoenixEmberWithdraw, bind_eq_ok] at h
  obtain ⟨w, hact, _, _, hsettled⟩ := h
  obtain ⟨_, _, htraders⟩ := settleAll_frame hsettled
  refine ⟨w, ?_, ⟨c', ?_, rfl, rfl⟩, queued_same htraders⟩
  · exact .of_actOn hact (fun hgate _ => protocol_withdrawable hgate) vault_withdrawable
      (fun _ => no_treasury rfl) fun _ => validateTrader_ok
  · rw [payments_principal rfl rfl]
    exact hsettled

/-- What Phoenix moved is what it had queued; it queues nothing of its own. -/
theorem phoenixUpdate_settled {t : Pubkey} {outcome : PhoenixOutcome}
    (h : c.phoenixUpdate V t outcome = .ok c') :
    (∃ c₁, settleAll V c (c.queuePayments V t outcome) = .ok c₁ ∧ c'.world = c₁.world ∧
      c'.held = c₁.held) ∧
    ∀ u, (c'.traders u).withdrawQueueNode ≠ 0 → (c.traders u).withdrawQueueNode ≠ 0 := by
  unfold phoenixUpdate at h
  dsimp only at h
  split at h
  · next hnode =>
    simp only [bind_eq_ok, pure_eq_ok] at h
    obtain ⟨c₁, hsettled, rfl⟩ := h
    refine ⟨⟨c₁, ?_, rfl, rfl⟩, fun u hu => ?_⟩
    · unfold queuePayments
      rw [if_pos hnode]
      exact hsettled
    · by_cases hut : u = t
      · exact hut ▸ hnode
      · dsimp only at hu
        rw [Function.update_of_ne hut] at hu
        exact hu
  · next hnode =>
    split at h
    · next hnone =>
      rw [pure_eq_ok] at h
      subst h
      refine ⟨⟨c, ?_, rfl, rfl⟩, fun u hu => ?_⟩
      · unfold queuePayments
        rw [if_neg hnode]
        rfl
      · by_cases hut : u = t
        · subst hut
          dsimp only at hu
          rw [Function.update_self] at hu
          exact absurd hnone.2 hu
        · dsimp only at hu
          rw [Function.update_of_ne hut] at hu
          exact hu
    · cases h

theorem phoenixUpdate_worked {t : Pubkey} {outcome : PhoenixOutcome}
    (h : c.phoenixUpdate V t outcome = .ok c') :
    ∃ w, Worked V c signer (.phoenixUpdate t outcome) w c' := by
  obtain ⟨hsettled, hqueued⟩ := phoenixUpdate_settled h
  refine ⟨c.world, rfl, ?_, fun u hu => .inl (hqueued u hu)⟩
  rw [payments_principal rfl rfl]
  exact hsettled

theorem phoenixPlaceLimitOrder_worked {t orderbook : Pubkey} {params : PhoenixLimitOrderParams}
    {call : Result OrderOutcome} (h : c.phoenixPlaceLimitOrder V signer t call = .ok c') :
    ∃ w, Worked V c signer (.phoenixPlaceLimitOrder t orderbook params call) w c' := by
  simp only [phoenixPlaceLimitOrder, bind_eq_ok] at h
  obtain ⟨w, hact, outcome, rfl, _, _, h⟩ := h
  obtain ⟨hsettled, hqueued⟩ := phoenixUpdate_settled h
  refine ⟨w, ?_, ?_, fun u hu => .inl (hqueued u hu)⟩
  · exact .of_actOn hact (fun hgate _ => protocol_operational hgate) vault_operational
      (fun _ => no_treasury rfl) fun _ => validateTrader_ok
  · rw [payments_principal rfl rfl]
    exact hsettled

/-- The statuses that a market order needs. -/
theorem marketOrderGate_ok {reduceOnly : Bool} (h : w.marketOrderGate reduceOnly = .ok ()) :
    (w.config.status ≠ .paused ∧ (reduceOnly = false → w.config.status = .normal)) ∧
      w.vault.status ≠ .paused ∧ (reduceOnly = false → w.vault.status = .normal) := by
  unfold World.marketOrderGate at h
  cases reduceOnly with
  | true =>
    obtain ⟨_, hprotocol, hvault⟩ := bind_eq_ok.1 h
    exact ⟨protocol_withdrawable hprotocol, vault_withdrawable hvault⟩
  | false =>
    obtain ⟨_, hprotocol, hvault⟩ := bind_eq_ok.1 h
    exact ⟨protocol_operational hprotocol, vault_operational hvault⟩

theorem phoenixPlaceMarketOrder_worked {t orderbook : Pubkey} {params : PhoenixMarketOrderParams}
    {call : Result OrderOutcome} (h : c.phoenixPlaceMarketOrder V signer t params call = .ok c') :
    ∃ w, Worked V c signer (.phoenixPlaceMarketOrder t orderbook params call) w c' := by
  simp only [phoenixPlaceMarketOrder, bind_eq_ok] at h
  obtain ⟨w, hact, outcome, rfl, _, _, _, _, h⟩ := h
  obtain ⟨hsettled, hqueued⟩ := phoenixUpdate_settled h
  refine ⟨w, ?_, ?_, fun u hu => .inl (hqueued u hu)⟩
  · exact .of_actOn hact (fun _ hgate => (marketOrderGate_ok hgate).1)
      (fun hgate => (marketOrderGate_ok hgate).2) (fun _ => no_treasury rfl)
      fun _ => validateTrader_ok
  · rw [payments_principal rfl rfl]
    exact hsettled

theorem phoenixCancelOrders_worked {t orderbook : Pubkey} {mode : PhoenixCancelMode}
    {call : Result PhoenixOutcome} (h : c.phoenixCancelOrders V signer t call = .ok c') :
    ∃ w, Worked V c signer (.phoenixCancelOrders t orderbook mode call) w c' := by
  simp only [phoenixCancelOrders, bind_eq_ok] at h
  obtain ⟨w, hact, outcome, rfl, h⟩ := h
  obtain ⟨hsettled, hqueued⟩ := phoenixUpdate_settled h
  refine ⟨w, ?_, ?_, fun u hu => .inl (hqueued u hu)⟩
  · exact .of_actOn hact (fun hgate _ => protocol_withdrawable hgate) vault_withdrawable
      (fun _ => no_treasury rfl) fun _ => validateTrader_ok
  · rw [payments_principal rfl rfl]
    exact hsettled

theorem swapTarget_ok {mints : VaultMints} {source destination target : Pubkey}
    (h : swapTarget mints source destination = .ok target) :
    source = mints.depositMint ∧ target = destination ∨
      destination = mints.depositMint ∧ target = source := by
  simp only [swapTarget, bind_eq_ok, validate_eq_ok] at h
  obtain ⟨_, _, _, _, h⟩ := h
  split at h
  · next hsource => exact .inl ⟨hsource, (pure_eq_ok.1 h).symm⟩
  · simp only [bind_eq_ok, validate_eq_ok, pure_eq_ok] at h
    obtain ⟨_, hdestination, rfl⟩ := h
    exact .inr ⟨hdestination, rfl⟩

theorem jupiterTarget_ok {ty : StrategyType} {target : Pubkey}
    (h : ty.jupiterTarget = .ok target) : ty = .jupiterSwap target := by
  cases ty with
  | jupiterSwap t =>
    cases h
    rfl
  | meteoraDlmm => cases h
  | phoenixPerp => cases h

/-- The balances that Jupiter left say what the vault paid and got. -/
theorem settleSwap_ok {variant : SwapVariant} {routeArgs : RouteArgs} {slippage : U16}
    {accounts : SwapAccounts} {left : SwapOutcome} {swapped : JupiterSwapped}
    (h : settleSwap variant routeArgs slippage accounts left = .ok swapped) :
    swapped.sourceSpent = accounts.sourceBalance - left.sourceBalance ∧
      swapped.destinationReceived = left.destinationBalance - accounts.destinationBalance := by
  simp only [settleSwap, bind_eq_ok, safeSub_eq_ok] at h
  obtain ⟨received, hreceived, spent, hspent, h⟩ := h
  have hswapped : swapped = ⟨spent, received⟩ := by
    cases hmode : variant.mode with
    | exactIn =>
      rw [hmode] at h
      simp only [bind_eq_ok, pure_eq_ok] at h
      obtain ⟨_, _, _, _, rfl⟩ := h
      rfl
    | exactOut =>
      rw [hmode] at h
      simp only [bind_eq_ok, pure_eq_ok] at h
      obtain ⟨_, _, _, _, _, _, rfl⟩ := h
      rfl
  subst hswapped
  exact ⟨eq_sub_of_toNat hspent, eq_sub_of_toNat hreceived⟩

/-- An accepted swap is between the deposit mint and the target of an open record. -/
theorem jupiterSwap_acted {accounts : SwapAccounts} {args : SwapArgs} {vaultAccount : Pubkey}
    {remaining : List AccountInfo} {call : Result RouteOutcome} {result : Result SwapOutcome}
    {swapped : JupiterSwapped}
    (h : w.jupiterSwap V.mints signer k accounts args result = .ok (w', swapped)) :
    Acted V w signer (.jupiterSwap k accounts.sourceMint accounts.destinationMint vaultAccount
      remaining args call) k w' ∧ ∃ left, result = .ok left ∧
        swapped.sourceSpent = accounts.sourceBalance - left.sourceBalance ∧
        swapped.destinationReceived = left.destinationBalance - accounts.destinationBalance := by
  simp only [World.jupiterSwap, bind_eq_ok, pure_eq_ok] at h
  obtain ⟨⟨s, variant, routeArgs⟩, hroute, left, hleft, swapped', hsettle, hpair⟩ := h
  cases hpair
  simp only [World.jupiterSwapRoute, Vault.validateAuthority, bind_eq_ok, pure_eq_ok,
    World.load_eq_ok, validate_eq_ok] at hroute
  obtain ⟨s', hs, _, hprotocol, _, hauthority, _, hvault, target, htarget, _, _, target', htype, _,
    heq, _, _, _, _, _, _, hpair⟩ := hroute
  cases hpair
  subst heq
  obtain ⟨hconfig, hnormal⟩ := protocol_operational hprotocol
  obtain ⟨hunpaused, hnormal'⟩ := vault_operational hvault
  exact ⟨⟨hauthority, ⟨hconfig, hunpaused⟩, hnormal', hnormal, no_treasury rfl, s, hs,
    ⟨target', jupiterTarget_ok htype, swapTarget_ok htarget⟩, rfl⟩, left, hleft,
    settleSwap_ok hsettle⟩

theorem jupiterSwap_worked {source destination vaultAccount : Pubkey}
    {remaining : List AccountInfo} {args : SwapArgs} {call : Result RouteOutcome}
    (h : c.jupiterSwap V signer k source destination vaultAccount remaining args call = .ok c') :
    ∃ w, Worked V c signer (.jupiterSwap k source destination vaultAccount remaining args call)
      w c' := by
  simp only [jupiterSwap, bind_eq_ok] at h
  obtain ⟨⟨w, swapped⟩, hswap, route, rfl, hsettled⟩ := h
  obtain ⟨hacted, left, hleft, hspent, hreceived⟩ := jupiterSwap_acted hswap
  cases hleft
  rw [hspent, hreceived] at hsettled
  obtain ⟨_, _, htraders⟩ := settleAll_frame hsettled
  refine ⟨w, hacted, ⟨c', ?_, rfl, rfl⟩, queued_same htraders⟩
  rw [payments_beside rfl]
  exact hsettled

theorem donate_worked {amount : U64}
    (h : c.settle V (.received signer.key account amount) = .ok c') :
    ∃ w, Worked V c signer (.donate account amount) w c' := by
  obtain ⟨_, _, htraders⟩ := (settle_paid h).frame
  refine ⟨c.world, rfl, ⟨c', ?_, rfl, rfl⟩, queued_same htraders⟩
  rw [payments_principal rfl rfl]
  exact settleAll_single.trans h

/-! ## The instructions of the program -/

theorem initializeStrategy_ok {ty : StrategyType} {checks : Result Unit}
    (h : w.initializeStrategy signer ty checks = .ok w') :
    signer.key = w.vault.authority ∧ w.config.isProtocolOperational = .ok () ∧
      w.vault.isVaultOperational = .ok () ∧ checks = .ok () ∧
      w.initializeStrategy signer ty (.ok ()) = .ok w' := by
  simp only [World.initializeStrategy, Vault.validateAuthority, bind_eq_ok, pure_eq_ok,
    validate_eq_ok] at h ⊢
  obtain ⟨_, hnew, _, hprotocol, _, hauthority, _, hvault, _, hchecks, v, h1, v', h2, rfl⟩ := h
  exact ⟨hauthority, hprotocol, hvault, hchecks, _, hnew, _, hprotocol, (), hauthority, _, hvault,
    (), trivial, v, h1, v', h2, rfl⟩

/-- An accepted instruction of the program is one of the world; it is no close, the vault signs no
payment of it, and it opens only what the handlers open. -/
structure Executed (V : Venues) (w : World) (signer : Signer) (ix : Instruction) (w' : World) :
    Prop where
  executed : w.execute signer (seen ix) = .ok w'
  noClose : ∀ k checks, ix ≠ .vaultCloseStrategy k checks
  unsigned : ofVault ix = false
  opens : ∀ ty checks, ix = .initializeStrategy ty checks → initializeChecks V ty = .ok ()

theorem execute_ok {ix : Instruction} (h : c.execute V signer ix = .ok c') :
    ∃ w', Executed V c.world signer ix w' ∧ c' = { c with world := w' } := by
  simp only [execute, bind_eq_ok, pure_eq_ok] at h
  obtain ⟨ix', hadmit, w', hw, rfl⟩ := h
  refine ⟨w', ?_, rfl⟩
  cases ix with
  | vaultCloseStrategy => cases hadmit
  | initializeStrategy ty checks =>
    cases hadmit
    obtain ⟨_, _, _, hchecks, hstep⟩ := initializeStrategy_ok hw
    obtain ⟨_, hverdict, _⟩ := bind_eq_ok.1 hchecks
    refine ⟨hstep, by simp, rfl, ?_⟩
    rintro _ _ ⟨⟩
    exact hverdict
  | _ =>
    simp only [permit] at hadmit
    split at hadmit
    · cases hadmit
    · next hsigned =>
      cases hadmit
      exact ⟨hw, by simp, Bool.eq_false_iff.2 hsigned, by simp⟩

/-! ## Steps -/

/-- A step that is no program instruction and no close is work. -/
theorem Step.worked {now : I64} (st : Step V c ⟨signer, now, ix⟩ c') :
    (∃ ix', ix = .program ix' ∧
      execute V { c with world := { c.world with clock := now } } signer ix' = .ok c') ∨
    (∃ k program, ix = .closeStrategy k program ∧
      closeStrategy V { c with world := { c.world with clock := now } } signer k program = .ok c') ∨
    ix.isWork = true ∧
      ∃ w, Worked V { c with world := { c.world with clock := now } } signer ix w c' := by
  change run V { c with world := { c.world with clock := now } } signer ix = .ok c' at st
  cases ix with
  | program ix' => exact .inl ⟨ix', rfl, st⟩
  | closeStrategy k program => exact .inr (.inl ⟨k, program, rfl, st⟩)
  | jupiterSwap => exact .inr (.inr ⟨rfl, jupiterSwap_worked st⟩)
  | dlmmAddLiquidity => exact .inr (.inr ⟨rfl, dlmmAddLiquidity_worked st⟩)
  | dlmmRemoveLiquidity => exact .inr (.inr ⟨rfl, dlmmRemoveLiquidity_worked st⟩)
  | dlmmClaimFee => exact .inr (.inr ⟨rfl, dlmmClaimFee_worked st⟩)
  | phoenixDepositFunds => exact .inr (.inr ⟨rfl, phoenixDepositFunds_worked st⟩)
  | phoenixWithdrawFunds => exact .inr (.inr ⟨rfl, phoenixWithdrawFunds_worked st⟩)
  | phoenixEmberWithdraw => exact .inr (.inr ⟨rfl, phoenixEmberWithdraw_worked st⟩)
  | phoenixPlaceLimitOrder => exact .inr (.inr ⟨rfl, phoenixPlaceLimitOrder_worked st⟩)
  | phoenixPlaceMarketOrder => exact .inr (.inr ⟨rfl, phoenixPlaceMarketOrder_worked st⟩)
  | phoenixCancelOrders => exact .inr (.inr ⟨rfl, phoenixCancelOrders_worked st⟩)
  | phoenixUpdate => exact .inr (.inr ⟨rfl, phoenixUpdate_worked st⟩)
  | donate => exact .inr (.inr ⟨rfl, donate_worked st⟩)

end Custody

end HedgeVault
