import HedgeVault.Lib.Coverage
import HedgeVault.StrategyEmpty
import HedgeVault.Work

/-!
# No token is stranded

`vault_close` looks at three token accounts and at the number of open strategies, while the
strategies fill others. What holds these together is coverage: an account of the vault that its
world does not keep and that holds something is covered by an open record
(`Custody.Sound.covered`). Every handler fills accounts that its own record covers. A close can
break it: closing a Jupiter or a Phoenix record closes the account it covers, closing a DLMM
record does not look at the two accounts of its position (`safelyClosed_iff`). So can what a call
moves on the side, into an account of a third mint or at another address. In the runs where
neither happens a closed vault leaves nothing (`close_strands_nothing`).
-/

namespace HedgeVault

open Lib

/-- The accounts that the strategy fills. -/
def Venues.Covers (V : Venues) (s : Strategy) (account : VaultAccount) : Prop :=
  match s.strategyType with
  | .jupiterSwap targetMint => account = .associated targetMint
  | .meteoraDlmm position => account = V.tokenX position ∨ account = V.tokenY position
  | .phoenixPerp _ => account = V.canonical

namespace Custody

variable (V : Venues)

/-- What the vault holds in an account that its world does not keep. -/
def foreign (c : Custody) (account : VaultAccount) : Nat :=
  if account.place V.mints = none then (c.held account).toNat else 0

/-- Nothing is left in the account, or another open record covers it. -/
def Settled (c : Custody) (k : Pubkey) (account : VaultAccount) : Prop :=
  c.foreign V account = 0 ∨ WatchedBeside V.Covers c.world.strategies k account

/-- The record of `k` can go: a Jupiter record is closed under the program of its mint or has
nothing left, a DLMM record has nothing left of the two tokens of its position. -/
def SafelyClosed (c : Custody) (k : Pubkey) (program : TokenProgram) : StrategyType → Prop
  | .jupiterSwap targetMint =>
    program = V.mintProgram targetMint ∨ c.Settled V k (.associated targetMint)
  | .meteoraDlmm position => c.Settled V k (V.tokenX position) ∧ c.Settled V k (V.tokenY position)
  | .phoenixPerp _ => True

/-- The vault may fill the account: `vault_close` looks at it, or an open record covers it. -/
def Open (c : Custody) (account : VaultAccount) : Prop :=
  account.place V.mints ≠ none ∨ Watched V.Covers c.world.strategies account

/-- What can leave tokens behind does not: the closes are of records that can go, and to an account
that the vault may not fill no call brings more on the side than it takes, and nobody else sends
anything. -/
structure SafeStep (t : Transition Custody CustodyTx) : Prop where
  close : ∀ k program s, t.label.ix = .closeStrategy k program →
    t.pre.world.strategies.lookup k = some s → t.pre.SafelyClosed V k program s.strategyType
  aside : ∀ account, ¬ t.pre.Open V account →
    ((t.label.ix.aside V).map (·.credited account)).sum ≤
      ((t.label.ix.aside V).map (·.debited account)).sum
  donation : ∀ account amount, t.label.ix = .donate account amount → amount ≠ 0 →
    t.pre.Open V account

/-- A new vault holds nothing and waits for nothing. -/
structure Fresh (c : Custody) : Prop where
  world : c.world.Fresh
  held : ∀ account, c.held account = 0
  traders : ∀ t, (c.traders t).withdrawQueueNode = 0

/-- Phoenix records are of vaults whose deposits are in USDC. -/
def InUsdc (w : World) : Prop :=
  ∀ k s t, w.strategies.lookup k = some s → s.strategyType = .phoenixPerp t →
    V.mints.depositMint = USDC_MINT

structure Sound (c : Custody) : Prop where
  wellFormed : c.world.WellFormed
  census : c.world.Census
  covered : Covered V.Covers (c.foreign V) c.world.strategies
  /-- Phoenix owes the vault nothing without a record. -/
  queued : ∀ t, (c.traders t).withdrawQueueNode ≠ 0 →
    ∃ s, c.world.strategies.lookup t = some s ∧ s.strategyType = .phoenixPerp t
  usdc : InUsdc V c.world

variable {V} {c c' c₁ : Custody} {account : VaultAccount} {now : I64} {signer : Signer} {k : Pubkey}
  {s : Strategy} {w w' : World} {ix : CustodyInstruction} {p : Payment} {ps : List Payment}

/-! ## Accounts -/

theorem foreign_of_placed (h : account.place V.mints ≠ none) : c.foreign V account = 0 := if_neg h

theorem foreign_of_held (h : account.place V.mints = none) :
    c.foreign V account = (c.held account).toNat := if_pos h

/-- The account of the deposit mint is kept by the world. -/
theorem deposit_placed {mint : Pubkey} (h : mint = V.mints.depositMint) :
    (VaultAccount.associated mint).place V.mints ≠ none := by
  rw [place_associated, if_pos h]
  exact Option.some_ne_none _

theorem covers_jupiter {a : VaultAccount} {target : Pubkey}
    (h : s.strategyType = .jupiterSwap target) : V.Covers s a ↔ a = .associated target := by rw [Venues.Covers, h]

theorem covers_dlmm {a : VaultAccount} {position : Pubkey}
    (h : s.strategyType = .meteoraDlmm position) :
    V.Covers s a ↔ a = V.tokenX position ∨ a = V.tokenY position := by
  rw [Venues.Covers, h]

theorem covers_phoenix {a : VaultAccount} {t : Pubkey} (h : s.strategyType = .phoenixPerp t) :
    V.Covers s a ↔ a = V.canonical := by rw [Venues.Covers, h]

theorem foreign_of_balance (h : c.balance V account = 0) : c.foreign V account = 0 := by
  unfold foreign
  split
  · next hplace =>
    rw [balance_held hplace] at h
    rw [h]
    rfl
  · rfl

/-- An account that the vault may not fill is empty. -/
theorem Sound.closed_empty (hc : c.Sound V) (h : ¬ c.Open V account) : c.balance V account = 0 := by
  obtain ⟨hplace, hwatched⟩ := not_or.1 h
  rw [not_not] at hplace
  have hforeign : c.foreign V account = 0 := by
    by_contra hno
    exact hwatched (hc.covered account hno)
  rw [foreign_of_held hplace] at hforeign
  rw [balance_held hplace]
  exact BitVec.eq_of_toNat_eq hforeign

/-! ## Strategies at work -/

theorem Sound.clock (hc : c.Sound V) (now : I64) :
    Sound V { c with world := { c.world with clock := now } } :=
  ⟨⟨hc.wellFormed.deposit, hc.wellFormed.withdrawal⟩,
    ⟨hc.census.count, hc.census.stored, hc.census.distinct⟩, hc.covered, hc.queued, hc.usdc⟩

/-- What the records say is kept when an action is recorded in one of them. -/
theorem record_lookup {m : Finmap fun _ : Pubkey => Strategy} {ts : I64} {l : Pubkey} {r : Strategy}
    (hs : m.lookup k = some s)
    (hr : (m.insert k { s with lastActionTs := ts }).lookup l = some r) :
    ∃ r₀, m.lookup l = some r₀ ∧ r.vault = r₀.vault ∧ r.id = r₀.id ∧
      r.strategyType = r₀.strategyType := by
  by_cases hl : l = k
  · subst hl
    rw [Finmap.lookup_insert] at hr
    cases hr
    exact ⟨s, hs, rfl, rfl, rfl⟩
  · rw [Finmap.lookup_insert_of_ne _ hl] at hr
    exact ⟨r, hr, rfl, rfl, rfl⟩

theorem record_census (hw : w.Census) (hs : w.strategies.lookup k = some s) (ts : I64) :
    World.Census
      { w with strategies := w.strategies.insert k { s with lastActionTs := ts } } := by
  refine ⟨?_, ?_, ?_⟩
  · have hmem : k ∈ w.strategies.keys := by
      rw [Finmap.mem_keys]
      exact Finmap.mem_of_lookup_eq_some hs
    change _ = (w.strategies.insert k _).keys.card
    rw [keys_insert, Finset.insert_eq_of_mem hmem]
    exact hw.count
  · intro l r hr
    obtain ⟨r₀, hr₀, hv, hi, ht⟩ := record_lookup hs hr
    rw [hv, hi, ht]
    exact hw.stored l r₀ hr₀
  · intro l l' r r' hr hr' hid
    obtain ⟨r₀, hr₀, _, hi, _⟩ := record_lookup hs hr
    obtain ⟨r₁, hr₁, _, hi', _⟩ := record_lookup hs hr'
    rw [hi, hi'] at hid
    exact hw.distinct l l' r₀ r₁ hr₀ hr₁ hid

/-- The records of the world in which a strategy transaction pays. -/
theorem Worked.records (hw : Worked V c signer ix w c') :
    (∀ l r, w.strategies.lookup l = some r → ∃ r₀, c.world.strategies.lookup l = some r₀ ∧
      r.strategyType = r₀.strategyType) ∧
    (∀ l r₀, c.world.strategies.lookup l = some r₀ → ∃ r, w.strategies.lookup l = some r ∧
      r.strategyType = r₀.strategyType) := by
  have hacted := hw.acted
  cases hrecord : ix.record with
  | none =>
    rw [hrecord] at hacted
    rw [show w = c.world from hacted]
    exact ⟨fun l r hr => ⟨r, hr, rfl⟩, fun l r hr => ⟨r, hr, rfl⟩⟩
  | some k =>
    rw [hrecord] at hacted
    obtain ⟨s, hs, _, rfl⟩ := hacted.stamped
    constructor
    · intro l r hr
      obtain ⟨r₀, hr₀, _, _, htype⟩ := record_lookup hs hr
      exact ⟨r₀, hr₀, htype⟩
    · intro l r₀ hr₀
      by_cases hl : l = k
      · subst hl
        obtain rfl : s = r₀ := Option.some.inj (hs.symm.trans hr₀)
        exact ⟨_, Finmap.lookup_insert _, rfl⟩
      · exact ⟨r₀, (Finmap.lookup_insert_of_ne _ hl).trans hr₀, rfl⟩

theorem covers_congr {r r₀ : Strategy} (h : r.strategyType = r₀.strategyType) :
    V.Covers r account ↔ V.Covers r₀ account := by rw [Venues.Covers, Venues.Covers, h]

/-- After a strategy transaction the same accounts are watched. -/
theorem Worked.watched (hw : Worked V c signer ix w c')
    (h : Watched V.Covers c.world.strategies account) : Watched V.Covers w.strategies account := by
  obtain ⟨l, r₀, hr₀, hcovers⟩ := h
  obtain ⟨r, hr, htype⟩ := hw.records.2 l r₀ hr₀
  exact ⟨l, r, hr, (covers_congr htype).2 hcovers⟩

/-- The world is moved by stamps and transfers alone. -/
theorem Worked.strategies (hw : Worked V c signer ix w c') :
    c'.world.strategies = w.strategies := by
  obtain ⟨c₁, hsettled, hworld, _⟩ := hw.settled
  obtain ⟨⟨d, s, hframe⟩, _, _⟩ := settleAll_frame hsettled
  rw [hworld, hframe]

theorem Worked.inUsdc (hw : Worked V c signer ix w c') (hc : InUsdc V c.world) :
    InUsdc V c'.world := by
  intro l r t hr htype
  rw [hw.strategies] at hr
  obtain ⟨r₀, hr₀, htype'⟩ := hw.records.1 l r hr
  exact hc l r₀ t hr₀ (htype'.symm.trans htype)

/-- What a strategy transaction moves of an account, its payments say. -/
theorem Worked.balance (hw : Worked V c signer ix w c') (account : VaultAccount) :
    (c'.balance V account).toNat + ((ix.payments V c signer).map (·.debited account)).sum =
      (c.balance V account).toNat + ((ix.payments V c signer).map (·.credited account)).sum := by
  obtain ⟨c₁, hsettled, hworld, hheld⟩ := hw.settled
  have hbooks := settleAll_balance hsettled account
  have hafter : c'.balance V account = c₁.balance V account := by
    unfold Custody.balance
    rw [hworld, hheld]
  have hbefore : Custody.balance V { c with world := w } account = c.balance V account := by
    have hacted := hw.acted
    cases hrecord : ix.record with
    | none =>
      rw [hrecord] at hacted
      rw [show w = c.world from hacted]
    | some k =>
      rw [hrecord] at hacted
      obtain ⟨s, _, _, rfl⟩ := hacted.stamped
      rfl
  rw [hafter, ← hbefore]
  exact hbooks

theorem credited_treasuryPayments (treasury : Pubkey) (a account : VaultAccount) (claimed : U64) :
    ((treasuryPayments treasury a claimed).map (·.credited account)).sum = 0 := by
  unfold treasuryPayments
  split
  · rfl
  · rfl

/-- The treasury pays the vault nothing. -/
theorem credited_fees (V : Venues) (ix : CustodyInstruction) (account : VaultAccount) :
    ((ix.fees V).map (·.credited account)).sum = 0 := by
  cases ix with
  | dlmmClaimFee position treasury call =>
    cases call with
    | error => rfl
    | ok outcome =>
      unfold CustodyInstruction.fees
      rw [List.map_append, List.sum_append, credited_treasuryPayments, credited_treasuryPayments]
  | _ => rfl

/-- What a transaction is about goes to accounts that the vault may fill. -/
theorem Worked.opens (hc : c.Sound V) (hw : Worked V c signer ix w c')
    (hdonation : ∀ account amount, ix = .donate account amount → amount ≠ 0 → c.Open V account)
    (hp : p ∈ ix.principal V c signer) (hcredit : p.credited account ≠ 0) : c.Open V account := by
  have hacted := hw.acted
  have hin : ∀ {payer a amount}, p = .received payer a amount → c.Open V a → c.Open V account := by
    rintro payer a amount rfl hopen
    by_contra hno
    have hne : (Payment.received payer a amount).account ≠ account := fun h => hno (h ▸ hopen)
    exact hcredit (credited_of_ne hne)
  have hout : ∀ {payee a amount}, p = .spent payee a amount → c.Open V account := by
    rintro payee a amount rfl
    exact absurd rfl hcredit
  have hqueue : ∀ {t outcome}, p ∈ c.queuePayments V t outcome → c.Open V account := by
    intro t outcome hp
    unfold queuePayments at hp
    split at hp
    · next hnode =>
      obtain ⟨s, hs, htype⟩ := hc.queued t hnode
      exact hin (List.mem_singleton.1 hp) (.inr ⟨t, s, hs, (covers_phoenix htype).2 rfl⟩)
    · cases hp
  cases ix with
  | program => cases hp
  | closeStrategy => cases hp
  | jupiterSwap k source destination vaultAccount remaining args call =>
    cases call with
    | error => cases hp
    | ok route =>
      rcases List.mem_pair.1 hp with h | h
      · exact hout h
      · obtain ⟨s, hs, ⟨target, htype, hmints⟩, _⟩ := hacted.stamped
        rcases hmints with ⟨_, rfl⟩ | ⟨hdeposit, _⟩
        · exact hin h (.inr ⟨k, s, hs, (covers_jupiter htype).2 rfl⟩)
        · exact hin h (.inl (deposit_placed hdeposit))
  | dlmmAddLiquidity position x y call =>
    cases call with
    | error => cases hp
    | ok outcome =>
      rcases List.mem_pair.1 hp with h | h
      · exact hout h
      · exact hout h
  | dlmmRemoveLiquidity position bps call =>
    cases call with
    | error => cases hp
    | ok outcome =>
      obtain ⟨s, hs, htype, _⟩ := hacted.stamped
      rcases List.mem_pair.1 hp with h | h
      · exact hin h (.inr ⟨position, s, hs, (covers_dlmm htype).2 (.inl rfl)⟩)
      · exact hin h (.inr ⟨position, s, hs, (covers_dlmm htype).2 (.inr rfl)⟩)
  | dlmmClaimFee position treasury call =>
    cases call with
    | error => cases hp
    | ok outcome =>
      obtain ⟨s, hs, htype, _⟩ := hacted.stamped
      rcases List.mem_pair.1 hp with h | h
      · exact hin h (.inr ⟨position, s, hs, (covers_dlmm htype).2 (.inl rfl)⟩)
      · exact hin h (.inr ⟨position, s, hs, (covers_dlmm htype).2 (.inr rfl)⟩)
  | phoenixDepositFunds t amount call => exact hout (List.mem_singleton.1 hp)
  | phoenixWithdrawFunds t amount call =>
    cases call with
    | error => cases hp
    | ok outcome =>
      obtain ⟨s, hs, htype, _⟩ := hacted.stamped
      have husdc := hc.usdc t s t hs htype
      exact hin (List.mem_singleton.1 hp) (.inl (deposit_placed husdc.symm))
  | phoenixEmberWithdraw t =>
    obtain ⟨s, hs, htype, _⟩ := hacted.stamped
    rcases List.mem_pair.1 hp with h | h
    · exact hout h
    · exact hin h (.inl (deposit_placed (hc.usdc t s t hs htype).symm))
  | phoenixPlaceLimitOrder t orderbook params call =>
    cases call with
    | error => cases hp
    | ok outcome => exact hqueue hp
  | phoenixPlaceMarketOrder t orderbook params call =>
    cases call with
    | error => cases hp
    | ok outcome => exact hqueue hp
  | phoenixCancelOrders t orderbook mode call =>
    cases call with
    | error => cases hp
    | ok outcome => exact hqueue hp
  | phoenixUpdate t outcome => exact hqueue hp
  | donate a amount =>
    have h := List.mem_singleton.1 hp
    refine hin h (hdonation a amount rfl ?_)
    rintro rfl
    subst h
    have hzero : Payment.credited account (.received signer.key a 0) = 0 := ite_self 0
    exact hcredit hzero

/-- A handler that deals with the Phoenix account of `t` acts on a record of its own. -/
theorem fits_trader {t : Pubkey} {ty : StrategyType} (h : ix.Fits V (.phoenixPerp t))
    (hty : ix.Fits V ty) : ty = .phoenixPerp t := by
  cases ix with
  | jupiterSwap =>
    obtain ⟨_, hno, _⟩ := h
    cases hno
  | dlmmAddLiquidity | dlmmRemoveLiquidity | dlmmClaimFee => cases h
  | program | closeStrategy | phoenixUpdate | donate => cases h
  | _ => exact hty.trans h.symm

/-- A safe strategy transaction keeps the vault covered. -/
theorem Worked.sound (hc : c.Sound V) (hw : Worked V c signer ix w c')
    (haside : ∀ account, ¬ c.Open V account → ((ix.aside V).map (·.credited account)).sum ≤
      ((ix.aside V).map (·.debited account)).sum)
    (hdonation : ∀ account amount, ix = .donate account amount → amount ≠ 0 → c.Open V account) :
    c'.Sound V := by
  obtain ⟨c₁, hsettled, hworld, hheld⟩ := hw.settled
  obtain ⟨⟨d, sm, hframe⟩, _, _⟩ := settleAll_frame hsettled
  have hacted := hw.acted
  have hw_sound : w.WellFormed ∧ w.Census := by
    cases hrecord : ix.record with
    | none =>
      rw [hrecord] at hacted
      rw [show w = c.world from hacted]
      exact ⟨hc.wellFormed, hc.census⟩
    | some k =>
      rw [hrecord] at hacted
      obtain ⟨s, hs, _, rfl⟩ := hacted.stamped
      exact ⟨⟨hc.wellFormed.deposit, hc.wellFormed.withdrawal⟩, record_census hc.census hs _⟩
  obtain ⟨hwellFormed, hcensus⟩ := hw_sound
  refine ⟨?_, ?_, ?_, ?_, ?_⟩
  · rw [hworld, hframe]
    exact ⟨hwellFormed.deposit, hwellFormed.withdrawal⟩
  · rw [hworld, hframe]
    exact ⟨hcensus.count, hcensus.stored, hcensus.distinct⟩
  · intro account hforeign
    rw [hw.strategies]
    by_contra hwatched
    have hplace : account.place V.mints = none := by
      by_contra hno
      exact hforeign (foreign_of_placed hno)
    -- no record watches the account, so it was empty and gets nothing
    have hopen : ¬ c.Open V account := by
      rintro (hno | hwatch)
      · exact hno hplace
      · exact hwatched (hw.watched hwatch)
    have hprincipal : ((ix.principal V c signer).map (·.credited account)).sum = 0 := by
      rw [List.sum_eq_zero_iff]
      intro n hn
      obtain ⟨p, hp, rfl⟩ := List.mem_map.1 hn
      by_contra hcredit
      exact hopen (hw.opens hc hdonation hp hcredit)
    have hbooks := hw.balance account
    unfold CustodyInstruction.payments at hbooks
    simp only [List.map_append, List.sum_append] at hbooks
    rw [hc.closed_empty hopen, hprincipal, credited_fees, balance_held hplace] at hbooks
    have hside := haside account hopen
    apply hforeign
    rw [foreign_of_held hplace]
    have hzero : (0 : U64).toNat = 0 := rfl
    omega
  · intro t ht
    rw [hw.strategies]
    have hsome : ∃ s, c.world.strategies.lookup t = some s ∧ s.strategyType = .phoenixPerp t := by
      rcases hw.queued t ht with hold | ⟨hrecord, hfits⟩
      · exact hc.queued t hold
      · rw [hrecord] at hacted
        obtain ⟨s, hs, hfits', _⟩ := hacted.stamped
        exact ⟨s, hs, fits_trader hfits hfits'⟩
    obtain ⟨s, hs, htype⟩ := hsome
    obtain ⟨r, hr, htype'⟩ := hw.records.2 t s hs
    exact ⟨r, hr, htype'.trans htype⟩
  · exact hw.inUsdc hc.usdc

/-! ## Opening and closing records -/

theorem closeAccount_ok {u : Unit} (h : c.closeAccount V account = .ok u) :
    c.foreign V account = 0 := by
  unfold closeAccount at h
  split at h
  · next hzero => exact foreign_of_balance hzero
  · cases h

/-- When the holdings can be closed, a record is safely closed exactly when all it covers is
settled. -/
theorem safelyClosed_iff {program : TokenProgram} {u : Unit}
    (h : c.closeHoldings V program s.strategyType = .ok u) :
    c.SafelyClosed V k program s.strategyType ↔
      ∀ a, V.Covers s a → c.foreign V a = 0 ∨ WatchedBeside V.Covers c.world.strategies k a := by
  cases htype : s.strategyType with
  | jupiterSwap target =>
    simp only [covers_jupiter htype, forall_eq]
    rw [htype] at h
    constructor
    · rintro (hprogram | hsettled)
      · simp only [closeHoldings, if_pos hprogram] at h
        exact .inl (closeAccount_ok h)
      · exact hsettled
    · exact .inr
  | meteoraDlmm position =>
    simp only [covers_dlmm htype, forall_eq_or_imp, forall_eq]
    exact Iff.rfl
  | phoenixPerp t =>
    simp only [covers_phoenix htype, forall_eq]
    rw [htype] at h
    simp only [closeHoldings, bind_eq_ok] at h
    obtain ⟨_, _, hclose⟩ := h
    exact iff_of_true trivial (.inl (closeAccount_ok hclose))

theorem vaultCloseStrategy_checks {w w' : World} {checks : Result Unit}
    (h : w.vaultCloseStrategy signer k checks = .ok w') : checks = .ok () := by
  simp only [World.vaultCloseStrategy, bind_eq_ok] at h
  obtain ⟨_, _, _, _, _, _, _, _, _, _, _, _, _, hchecks, _⟩ := h
  exact hchecks

theorem closeStrategy_ok {program : TokenProgram}
    (h : c.closeStrategy V signer k program = .ok c') :
    ∃ s w', c.world.strategies.lookup k = some s ∧
      c.closeHoldings V program s.strategyType = .ok () ∧
      World.Step c.world ⟨signer, c.world.clock, .vaultCloseStrategy k (.ok ())⟩ w' ∧
      World.ClosesStrategy c.world k w' ∧ c' = { c with world := w' } := by
  simp only [closeStrategy, bind_eq_ok, pure_eq_ok, World.load_eq_ok] at h
  obtain ⟨s, hs, w', hw, rfl⟩ := h
  have hchecks := vaultCloseStrategy_checks hw
  rw [hchecks] at hw
  exact ⟨s, w', hs, hchecks, hw, World.vaultCloseStrategy_closes hw, rfl⟩

/-- A close keeps the vault covered exactly when it is safe. -/
theorem closeStrategy_covered_iff {program : TokenProgram} (hc : c.Sound V)
    (hs : c.world.strategies.lookup k = some s)
    (h : c.closeStrategy V signer k program = .ok c') :
    Covered V.Covers (c'.foreign V) c'.world.strategies ↔
      c.SafelyClosed V k program s.strategyType := by
  obtain ⟨s', w', hs', hclose, _, hcl, rfl⟩ := closeStrategy_ok h
  obtain rfl : s = s' := Option.some.inj (hs.symm.trans hs')
  rw [safelyClosed_iff hclose, ← covered_erase_iff hc.covered hs]
  dsimp only
  rw [hcl.strategies]
  rfl

theorem InUsdc.closes (hw : InUsdc V w) (hcl : World.ClosesStrategy w k w') : InUsdc V w' := by
  intro l r t hr htype
  rw [hcl.strategies] at hr
  exact hw l r t (lookup_of_erase hr) htype

theorem InUsdc.same (hw : InUsdc V w) (hs : w'.strategies = w.strategies) : InUsdc V w' := by
  intro l r t hr htype
  rw [hs] at hr
  exact hw l r t hr htype

theorem InUsdc.opens {ty : StrategyType} (hw : InUsdc V w) (ho : World.OpensStrategy w now ty w')
    (hty : ∀ t, ty = .phoenixPerp t → V.mints.depositMint = USDC_MINT) : InUsdc V w' := by
  intro l r t hr htype
  rw [ho.strategies] at hr
  by_cases hl : l = ty.protocolAccount
  · subst hl
    rw [Finmap.lookup_insert] at hr
    cases hr
    exact hty t htype
  · rw [Finmap.lookup_insert_of_ne _ hl] at hr
    exact hw l r t hr htype

theorem closeStrategy_sound {program : TokenProgram} (hc : c.Sound V)
    (h : c.closeStrategy V signer k program = .ok c')
    (hsafe : ∀ s, c.world.strategies.lookup k = some s →
      c.SafelyClosed V k program s.strategyType) : c'.Sound V := by
  obtain ⟨s, w', hs, hclose, st, hcl, e⟩ := closeStrategy_ok h
  have hcovered := (closeStrategy_covered_iff hc hs h).2 (hsafe s hs)
  subst e
  refine ⟨st.wellFormed hc.wellFormed, hcl.census hc.census, hcovered, ?_, hc.usdc.closes hcl⟩
  intro t ht
  obtain ⟨r, hr, htype⟩ := hc.queued t ht
  by_cases htk : t = k
  · -- a Phoenix record with a queued withdrawal is not empty
    subst htk
    obtain rfl : s = r := Option.some.inj (hs.symm.trans hr)
    rw [htype] at hclose
    simp only [closeHoldings, PhoenixTrader.isEmpty, bind_eq_ok, validate_eq_ok] at hclose
    obtain ⟨_, ⟨_, _, hnode⟩, _⟩ := hclose
    exact absurd hnode ht
  · refine ⟨r, ?_, htype⟩
    dsimp only
    rw [hcl.strategies]
    exact (Finmap.lookup_erase_ne htk).trans hr

theorem sameRecords_sound {tx : Tx} (hc : c.Sound V) (st : c.world.Step tx w')
    (hs : World.SameRecords c.world w') : Sound V { c with world := w' } := by
  refine ⟨st.wellFormed hc.wellFormed, hs.census hc.census, ?_, ?_, hc.usdc.same hs.strategies⟩
  · dsimp only
    rw [hs.strategies]
    exact hc.covered
  · dsimp only
    rw [hs.strategies]
    exact hc.queued

theorem opensStrategy_sound {tx : Tx} {ty : StrategyType} (hc : c.Sound V)
    (st : c.world.Step tx w') (ho : World.OpensStrategy c.world now ty w')
    (hty : ∀ t, ty = .phoenixPerp t → V.mints.depositMint = USDC_MINT) :
    Sound V { c with world := w' } := by
  refine ⟨st.wellFormed hc.wellFormed, ho.census hc.census, ?_, ?_, hc.usdc.opens ho hty⟩
  · dsimp only
    rw [ho.strategies]
    apply hc.covered.insert
    intro i r hr
    rw [ho.new] at hr
    cases hr
  · intro t ht
    obtain ⟨r, hr, htype⟩ := hc.queued t ht
    refine ⟨r, ?_, htype⟩
    dsimp only
    rw [ho.strategies, Finmap.lookup_insert_of_ne _ ?_]
    · exact hr
    · rintro rfl
      rw [ho.new] at hr
      cases hr

/-- An instruction of the program leaves the records, or opens one. -/
theorem Executed.records {ix : Instruction} (hx : Executed V w signer ix w') (wf : w.WellFormed) :
    World.SameRecords w w' ∨ ∃ ty, World.OpensStrategy w w.clock ty w' ∧
      ∀ t, ty = .phoenixPerp t → V.mints.depositMint = USDC_MINT := by
  have st : World.Step w ⟨signer, w.clock, seen ix⟩ w' := hx.executed
  cases st.records wf with
  | same hs => exact .inl hs
  | closes k checks hix =>
    cases ix with
    | vaultCloseStrategy => exact absurd rfl (hx.noClose _ _)
    | _ => cases hix
  | opens ty checks hix ho =>
    refine .inr ⟨ty, ho, ?_⟩
    rintro t rfl
    cases ix with
    | initializeStrategy =>
      cases hix
      exact validate_eq_ok.1 (hx.opens _ _ rfl)
    | _ => cases hix

theorem execute_sound {ix : Instruction} (hc : c.Sound V) (h : c.execute V signer ix = .ok c') :
    c'.Sound V := by
  obtain ⟨w', hexecuted, rfl⟩ := execute_ok h
  have st : World.Step c.world ⟨signer, c.world.clock, seen ix⟩ w' := hexecuted.executed
  rcases hexecuted.records hc.wellFormed with hs | ⟨ty, ho, hty⟩
  · exact sameRecords_sound hc st hs
  · exact opensStrategy_sound hc st ho hty

/-! ## Runs -/

/-- A safe step keeps the vault covered. -/
theorem step_sound {tx : CustodyTx} (hc : c.Sound V) (st : Step V c tx c')
    (hsafe : SafeStep V ⟨c, tx, c'⟩) : c'.Sound V := by
  obtain ⟨signer, now, ix⟩ := tx
  have hclock := hc.clock now
  rcases Step.worked st with ⟨ix', rfl, h⟩ | ⟨k, program, rfl, h⟩ | ⟨_, w, hw⟩
  · exact execute_sound hclock h
  · apply closeStrategy_sound hclock h
    intro s hs
    exact hsafe.close k program s rfl hs
  · exact hw.sound hclock hsafe.aside hsafe.donation

theorem Fresh.sound (h0 : c.Fresh) : c.Sound V := by
  refine ⟨h0.world.wellFormed, h0.world.census, ?_, ?_, ?_⟩
  · intro account hforeign
    unfold foreign at hforeign
    rw [h0.held] at hforeign
    exact absurd (ite_self 0) hforeign
  · intro t ht
    exact absurd (h0.traders t) ht
  · intro k s t hs
    rw [h0.world.1.strategies, Finmap.lookup_empty] at hs
    cases hs

variable {c₀ : Custody} {h : List (Transition Custody CustodyTx)}

theorem run_sound (h0 : c₀.Fresh) (hr : Run (Step V) c₀ h c) (hsafe : ∀ t ∈ h, SafeStep V t) :
    c.Sound V := by
  have hr' : Run (fun c tx c' => Step V c tx c' ∧ SafeStep V ⟨c, tx, c'⟩) c₀ h c :=
    hr.of_forall fun t ht => ⟨hr.step_of_mem ht, hsafe t ht⟩
  apply hr'.inv h0.sound
  intro c tx c' hc st
  exact step_sound hc st.1 st.2

/-- A vault that is covered can be closed only when all its accounts are empty. -/
theorem Sound.close_empty (hc : c.Sound V) {authority : Signer} {closed : Closed}
    (hclose : c.world.vaultClose authority = .ok closed) (account : VaultAccount) :
    c.balance V account = 0 := by
  have hcl := World.vaultClose_ok hclose
  have hnone : c.world.strategies = ∅ :=
    eq_empty_of_card (hc.census.count.symm.trans hcl.openStrategyCount)
  apply BitVec.eq_of_toNat_eq
  cases hplace : account.place V.mints with
  | none =>
    have hforeign := hc.covered.eq_zero hnone account
    rw [foreign_of_held hplace] at hforeign
    rw [balance_held hplace]
    exact hforeign
  | some at_ =>
    obtain ⟨kind, holder⟩ := at_
    cases kind with
    | deposit =>
      rw [balance_deposit hplace]
      cases holder with
      | escrow => exact hcl.depositEscrow
      | vault => exact hcl.idle
      | wallet k => exact absurd rfl (place_ne_wallet hplace k)
    | share =>
      rw [balance_share hplace]
      exact Nat.eq_zero_of_le_zero (hcl.supply ▸ c.world.shareMint.amount_le holder)

/-- In a run of safe steps, a vault that can be closed holds nothing, in neither escrow and in no
account of any mint and address. -/
theorem close_strands_nothing (h0 : c₀.Fresh) (hr : Run (Step V) c₀ h c)
    (hsafe : ∀ t ∈ h, SafeStep V t) {authority : Signer} {closed : Closed}
    (hclose : c.world.vaultClose authority = .ok closed) (account : VaultAccount) :
    c.balance V account = 0 :=
  (run_sound h0 hr hsafe).close_empty hclose account

/-! ## Closing on the chain -/

/-- The accounts on the chain hold what the custody says. -/
structure Represents (P : Programs) (V : Venues) (a : Accounts) (c : Custody) : Prop where
  mintProgram : P.mintProgram = V.mintProgram
  balance : ∀ mint, P.balance a (P.associatedTokenAddress c.world.key mint (V.mintProgram mint).id) =
    (c.balance V (.associated mint)).toNat
  liquidity : ∀ position, P.positionLiquidity a position = c.liquidity position
  trader : ∀ t trader, PhoenixTrader.parse (a t).data = .ok trader → c.traders t = trader
  canonicalMint : ∀ config,
    PhoenixGlobalConfig.parse (a PHOENIX_GLOBAL_CONFIGURATION).data = .ok config →
      config.canonicalMint = V.canonicalMint
  canonicalProgram : V.mintProgram V.canonicalMint = .token

section

variable {P : Programs} {a a' : Accounts} {remaining : List Pubkey}

theorem Represents.closeAccount (hR : Represents P V a c) {mint : Pubkey}
    (h : P.balance a (P.associatedTokenAddress c.world.key mint (V.mintProgram mint).id) = 0) :
    c.closeAccount V (.associated mint) = .ok () := by
  rw [hR.balance] at h
  exact if_pos (BitVec.eq_of_toNat_eq h)

/-- What the chain lets close, the custody lets close, under the program of the caller. -/
theorem Represents.closeHoldings (hP : P.Faithful) (hR : Represents P V a c) {receiver : Pubkey}
    {ty : StrategyType} (h : P.closeHoldings a c.world.key receiver remaining ty = .ok a') :
    ∃ program : TokenProgram, c.closeHoldings V program ty = .ok () ∧
      ∀ targetMint, ty = .jupiterSwap targetMint → remaining =
        [P.associatedTokenAddress c.world.key targetMint program.id, program.id] := by
  cases ty with
  | jupiterSwap targetMint =>
    obtain ⟨program, hremaining, hclosed⟩ := Programs.closeJupiter_ok h
    refine ⟨program, ?_, ?_⟩
    · unfold Custody.closeHoldings
      dsimp only
      split
      · next hprogram =>
        subst hprogram
        exact hR.closeAccount (Programs.balance_closed hP hclosed).1
      · rfl
    · rintro _ ⟨⟩
      exact hremaining
  | meteoraDlmm position =>
    have hzero : P.positionLiquidity a position = 0 := (Programs.closeDlmm_empty hP h).1
    rw [hR.liquidity] at hzero
    exact ⟨.token, if_pos hzero, nofun⟩
  | phoenixPerp t =>
    obtain ⟨trader, config, hempty⟩ := (Programs.closePhoenix_empty hP h).1
    have hcanonical := hempty.canonical
    rw [hR.canonicalMint config hempty.config_eq] at hcanonical
    refine ⟨.token, ?_, nofun⟩
    simp only [Custody.closeHoldings, PhoenixTrader.isEmpty, bind_eq_ok, validate_eq_ok]
    rw [hR.trader t trader hempty.trader_eq]
    refine ⟨(), ⟨hempty.collateral, hempty.positions, hempty.queued⟩, ?_⟩
    apply hR.closeAccount
    rw [hR.canonicalProgram]
    exact hcanonical

/-- A close on the chain is a close of what the chain represents. -/
theorem Represents.closeStrategy (hP : P.Faithful) (hR : Represents P V a c)
    (h : P.vaultCloseStrategy c.world a signer k remaining = .ok (w', a')) :
    ∃ program, c.closeStrategy V signer k program = .ok { c with world := w' } := by
  obtain ⟨s, hs, hclosed, hw⟩ := Programs.vaultCloseStrategy_ok h
  obtain ⟨program, hholdings, _⟩ := hR.closeHoldings hP hclosed
  refine ⟨program, ?_⟩
  simp only [Custody.closeStrategy, World.load_eq_ok.2 hs, ok_bind, hholdings, hw]
  rfl

end

/-- A chain without accounts represents a new vault. -/
theorem Fresh.represented (h0 : c.Fresh) (hidle : c.world.idle = 0)
    (hliquidity : ∀ position, c.liquidity position = 0) {P : Programs}
    (hprogram : P.mintProgram = V.mintProgram)
    (hcanonical : V.mintProgram V.canonicalMint = .token) :
    Represents P V (fun _ => .unused) c := by
  refine ⟨hprogram, ?_, ?_, ?_, ?_, hcanonical⟩
  · intro mint
    have hzero : (c.balance V (.associated mint)).toNat = 0 := by
      by_cases hdeposit : mint = V.mints.depositMint
      · have hplace : (VaultAccount.associated mint).place V.mints = some (.deposit, .vault) :=
          if_pos hdeposit
        rw [balance_deposit hplace]
        exact hidle
      · by_cases hshare : mint = V.mints.shareMint
        · have hplace : (VaultAccount.associated mint).place V.mints = some (.share, .vault) :=
            (if_neg hdeposit).trans (if_pos hshare)
          rw [balance_share hplace, h0.world.1.shareMint]
          rfl
        · have hplace : (VaultAccount.associated mint).place V.mints = none :=
            (if_neg hdeposit).trans (if_neg hshare)
          rw [balance_held hplace, h0.held]
          rfl
    rw [hzero]
    exact Programs.balance_of_unused rfl
  · intro position
    rw [hliquidity]
    exact Programs.liquidity_of_unused rfl
  · intro t trader htrader
    cases htrader
  · intro config hconfig
    cases hconfig

/-! ## Sample runs -/

/-- Nothing is left in the accounts that a strategy of this type fills. -/
def drained (V : Venues) (c : Custody) : StrategyType → Bool
  | .jupiterSwap targetMint => c.foreign V (.associated targetMint) = 0
  | .meteoraDlmm position => c.foreign V (V.tokenX position) = 0 ∧ c.foreign V (V.tokenY position) = 0
  | .phoenixPerp _ => true

/-- Nothing moves on the side or from outside, and a close is of a drained record. -/
def leavesNothing (V : Venues) (t : Transition Custody CustodyTx) : Bool :=
  (t.label.ix.aside V).isEmpty && match t.label.ix with
    | .closeStrategy k _ =>
      (t.pre.world.strategies.lookup k).all fun s => t.pre.drained V s.strategyType
    | .donate _ _ => false
    | _ => true

theorem safelyClosed_of_drained {program : TokenProgram} {ty : StrategyType}
    (h : c.drained V ty = true) : c.SafelyClosed V k program ty := by
  cases ty with
  | jupiterSwap targetMint => exact .inr (.inl (of_decide_eq_true h))
  | meteoraDlmm position =>
    obtain ⟨hx, hy⟩ := of_decide_eq_true h
    exact ⟨.inl hx, .inl hy⟩
  | phoenixPerp => exact trivial

theorem safeStep_of_leavesNothing {t : Transition Custody CustodyTx}
    (h : leavesNothing V t = true) : SafeStep V t := by
  obtain ⟨haside, hrest⟩ := Bool.and_eq_true_iff.1 h
  refine ⟨?_, ?_, ?_⟩
  · intro k program s hix hs
    rw [hix] at hrest
    dsimp only at hrest
    rw [hs] at hrest
    exact safelyClosed_of_drained hrest
  · intro account _
    rw [List.isEmpty_iff.1 haside]
    exact Nat.le_refl 0
  · intro account amount hix
    rw [hix] at hrest
    cases hrest

open World (manager updater alice bob)

/-- A vault and one DLMM pool, of its deposit mint and of the mint 70. -/
def sampleVenues : Venues where
  mints := ⟨60, 61⟩
  mintProgram _ := .token
  pair _ := (60, 70)
  canonicalMint := 75

def sample : Custody where
  world := World.sample
  held _ := 0
  liquidity _ := 0
  traders _ := ⟨0, 0, 0, 0, 0, 0, 0⟩

theorem sample_fresh : sample.Fresh := ⟨World.sample_fresh, fun _ => rfl, fun _ => rfl⟩

/-- Alice deposits 1000, 10 of it go into a position of the pool, the position is emptied and
closed, and Alice redeems her shares at the assets of the last post. -/
def poolTxs (removed : DlmmOutcome) (totalAssets : U64) : List CustodyTx := [
  (CustodyInstruction.program (.depositRequestCreate 1000 (.ok ()) 0)).sentBy alice 100,
  (CustodyInstruction.program (.navUpdate 0)).sentBy updater 14400,
  (CustodyInstruction.program (.depositRequestResolve alice.key)).sentBy bob 14401,
  (CustodyInstruction.program (.initializeStrategy (.meteoraDlmm 90) (.ok ()))).sentBy manager 14402,
  (CustodyInstruction.dlmmAddLiquidity 90 10 0 (.ok ⟨10, 0, 10, []⟩)).sentBy manager 14403,
  (CustodyInstruction.dlmmRemoveLiquidity 90 10000 (.ok removed)).sentBy manager 14404,
  (CustodyInstruction.closeStrategy 90 .token).sentBy manager 14405,
  (CustodyInstruction.program (.withdrawalRequestCreate 1000 0)).sentBy alice 14410,
  (CustodyInstruction.program (.navUpdate totalAssets)).sentBy updater 28800,
  (CustodyInstruction.program (.withdrawalRequestResolve alice.key)).sentBy bob 28801]

/-- The price has not moved: what went in comes back. -/
def returnedTxs : List CustodyTx := poolTxs ⟨10, 0, 0, []⟩ 1000

/-- The price has crossed the position: the other mint comes back. -/
def crossedTxs : List CustodyTx := poolTxs ⟨0, 5, 0, []⟩ 990

def sampleHistory (txs : List CustodyTx) : List (Transition Custody CustodyTx) :=
  history (process sampleVenues) sample txs

def sampleAfter (txs : List CustodyTx) : Custody := final (process sampleVenues) sample txs

theorem close_strands_nothing_sample :
    ∃ closed, (sampleAfter returnedTxs).world.vaultClose manager = .ok closed ∧
      (∀ account, (sampleAfter returnedTxs).balance sampleVenues account = 0) ∧
      (sampleAfter returnedTxs).world.depositMint.amount .escrow = 0 ∧
      (sampleAfter returnedTxs).world.shareMint.amount .escrow = 0 := by
  have hr : Run (Step sampleVenues) sample (sampleHistory returnedTxs) (sampleAfter returnedTxs) :=
    run_final (by rfl)
  have hsafe : (sampleHistory returnedTxs).all (leavesNothing sampleVenues) = true := by rfl
  rw [List.all_eq_true] at hsafe
  obtain ⟨closed, hclose⟩ : ∃ closed,
      (sampleAfter returnedTxs).world.vaultClose manager = .ok closed := ⟨_, rfl⟩
  have hempty := close_strands_nothing sample_fresh hr
    (fun t ht => safeStep_of_leavesNothing (hsafe t ht)) hclose
  have hdeposit : VaultAccount.depositEscrow.place sampleVenues.mints = some (.deposit, .escrow) :=
    rfl
  have hshare : VaultAccount.shareEscrow.place sampleVenues.mints = some (.share, .escrow) := rfl
  refine ⟨closed, hclose, hempty, ?_, ?_⟩
  · rw [← balance_deposit hdeposit, hempty]
    rfl
  · rw [← balance_share hshare, hempty]
    rfl

/-- The position is empty, so its record is closed; the five tokens it returned stay behind. -/
theorem crossed_position_strands : ∃ (V : Venues) (c₀ c : Custody)
    (h : List (Transition Custody CustodyTx)) (closed : Closed), c₀.Fresh ∧ Run (Step V) c₀ h c ∧
      (∀ t ∈ h, t.label.ix.aside V = []) ∧ c.world.vaultClose manager = .ok closed ∧
      c.balance V (.associated 70) = 5 := by
  have hr : Run (Step sampleVenues) sample (sampleHistory crossedTxs) (sampleAfter crossedTxs) :=
    run_final (by rfl)
  refine ⟨sampleVenues, sample, sampleAfter crossedTxs, sampleHistory crossedTxs, _, sample_fresh,
    hr, ?_, rfl, rfl⟩
  have haside : (sampleHistory crossedTxs).all (fun t => (t.label.ix.aside sampleVenues).isEmpty) =
    true := by rfl
  rw [List.all_eq_true] at haside
  exact fun t ht => List.isEmpty_iff.1 (haside t ht)

end Custody

end HedgeVault
