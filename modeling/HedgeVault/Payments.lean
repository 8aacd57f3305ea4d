import HedgeVault.Custody
import HedgeVault.Lib.Journal

/-!
# What the strategies pay

A strategy transaction settles payments between accounts of the vault and others (`Worked`). For
the world of the vault they are transfers of its two mints, so a run with strategies of all
venues is one of the program and the token programs, up to the stamps of the records
(`run_refines`). Who makes the vault pay, to whom and when is `run_payments_allowed`; what it then
holds in its other accounts, and what the treasury got of the claims, is `holdings_booked`.
-/

namespace HedgeVault

open Lib

/-- Whether the payment is one out of the vault. -/
def Payment.leaves : Payment → Bool
  | spent _ _ _ => true
  | received _ _ _ => false

/-- The places of the world that an instruction of the program pays out of: requests are
refunded or settled. -/
def World.paysFrom : Instruction → MintKind × Holder → Bool
  | .depositRequestCancel, (.deposit, .escrow) => true
  | .depositRequestReject _, (.deposit, .escrow) => true
  | .depositRequestResolve _, (.deposit, .escrow) => true
  | .withdrawalRequestCancel, (.share, .escrow) => true
  | .withdrawalRequestReject _, (.share, .escrow) => true
  | .withdrawalRequestResolve _, (.share, .escrow) => true
  | .withdrawalRequestResolve _, (.deposit, .vault) => true
  | _, _ => false

namespace CustodyInstruction

/-- The amounts that a claim of fees brought to the account. -/
def claimed (V : Venues) (account : VaultAccount) : CustodyInstruction → List Nat
  | .dlmmClaimFee position _ (.ok outcome) =>
    (if V.tokenX position = account then [outcome.x.toNat] else []) ++
      if V.tokenY position = account then [outcome.y.toNat] else []
  | _ => []

/-- What the program and the token programs do in the transaction, as the world of the vault
sees it. -/
def visible (V : Venues) (c : Custody) (signer : Signer) : CustodyInstruction → List Instruction
  | .program ix => [Custody.seen ix]
  | .closeStrategy protocolAccount _ => [.vaultCloseStrategy protocolAccount (.ok ())]
  | ix => (ix.payments V c signer).filterMap (·.transfer V.mints)

end CustodyInstruction

namespace Custody

variable (V : Venues)

/-- The payments of a step. -/
def paymentsOf (t : Transition Custody CustodyTx) : List Payment :=
  t.label.ix.payments V t.pre t.label.signer

/-- What the world of the vault does in a step, newest first. -/
def shownTxs (t : Transition Custody CustodyTx) : List Tx :=
  ((t.label.ix.visible V t.pre t.label.signer).map
    fun ix => ⟨t.label.signer, t.label.now, ix⟩).reverse

/-! What a step moved of an account. -/

def spentOn (account : VaultAccount) (t : Transition Custody CustodyTx) : Nat :=
  ((paymentsOf V t).map (·.debited account)).sum

def receivedOn (account : VaultAccount) (t : Transition Custody CustodyTx) : Nat :=
  ((paymentsOf V t).map (·.credited account)).sum

/-- Whom a record of the type deals with, when it pays the treasury and when not. -/
def Counterparty (treasury : Pubkey) (p : Payment) : StrategyType → Prop
  | .jupiterSwap _ => p.party = JUPITER_ID
  | .meteoraDlmm position => p.party = position ∨ p.party = treasury
  | .phoenixPerp _ => p.party = EMBER_VAULT ∨ p.party = PHOENIX_PROGRAM_ID

/-- The payment `p` among those of a transaction on the record `s`. What leaves the vault while
something is reduce-only is the part of the treasury in what the position paid, or collateral
that is unwrapped. -/
structure Due (w : World) (s : Strategy) (ps : List Payment) (p : Payment) : Prop where
  account : p.account.place V.mints ≠ none ∨ V.Covers s p.account
  party : Counterparty w.config.treasuryAuthority p s.strategyType
  out : p.leaves = true →
    (w.config.status = .normal ∧ w.vault.status = .normal) ∨
    (w.config.status = .normal ∧ ∃ position claimed, .received position p.account claimed ∈ ps ∧
      p = .spent w.config.treasuryAuthority p.account (treasuryShare claimed)) ∨
    (p.account = V.canonical ∧ .received EMBER_VAULT USDC_ACCOUNT p.amount ∈ ps)

/-- The authority acts on the open record `s` while nothing is paused, and while nothing is
reduce-only unless it is an exit. -/
structure Acting (authority : Pubkey) (t : Transition Custody CustodyTx) (k : Pubkey)
    (s : Strategy) : Prop where
  signer : t.label.signer.key = authority
  notPaused : t.pre.world.config.status ≠ .paused ∧ t.pre.world.vault.status ≠ .paused
  normal : t.label.ix.isExit = false →
    t.pre.world.config.status = .normal ∧ t.pre.world.vault.status = .normal
  record : t.label.ix.record = some k
  stored : t.pre.world.strategies.lookup k = some s

/-- Why a payment is made. -/
inductive Allowed (authority : Pubkey) (t : Transition Custody CustodyTx) (p : Payment) : Prop
  /-- Somebody else sends tokens. -/
  | donated {account amount} (hix : t.label.ix = .donate account amount)
    (hp : p = .received t.label.signer.key account amount)
  /-- Phoenix pays by itself out of its queue. -/
  | queued {trader outcome} (hix : t.label.ix = .phoenixUpdate trader outcome)
    (hnode : (t.pre.traders trader).withdrawQueueNode ≠ 0)
    (hp : p = .received PHOENIX_PROGRAM_ID V.canonical outcome.received)
  | due {k s} (acting : Acting authority t k s) (hdue : Due V t.pre.world s (paymentsOf V t) p)
  /-- A call of Jupiter or DLMM makes it on the side. -/
  | aside {k s} (acting : Acting authority t k s) (hp : p ∈ t.label.ix.aside V)
    (venue : ∀ trader, s.strategyType ≠ .phoenixPerp trader) (spares : p.drains = false)

/-- How the balances of the vault move in a step: by its payments, or as requests are refunded and
settled. -/
structure Moves (t : Transition Custody CustodyTx) (account : VaultAccount) : Prop where
  work : t.label.ix.isWork = true →
    (t.post.balance V account).toNat + spentOn V account t =
      (t.pre.balance V account).toNat + receivedOn V account t
  program : t.label.ix.isWork = false →
    (t.post.balance V account).toNat < (t.pre.balance V account).toNat →
      ∃ ix at_, t.label.ix = .program ix ∧ account.place V.mints = some at_ ∧
        World.paysFrom ix at_ = true

variable {V} {c c' : Custody} {signer : Signer} {k : Pubkey} {account : VaultAccount}
  {w w' u : World} {ix : CustodyInstruction} {p : Payment} {ps qs : List Payment}

/-! ## The world of the vault -/

/-- A payment is a transfer of the world of the vault, if it keeps the account. -/
theorem Paid.follows (signer : Signer) (hp : Paid V c p c') (hs : World.Restamped c.world u) :
    ∃ h₁ u', Run World.Step u h₁ u' ∧
      labels h₁ = ((p.transfer V.mints).toList).map (fun ix => ⟨signer, c.world.clock, ix⟩) ∧
      World.Restamped c'.world u' ∧ c'.world.clock = c.world.clock := by
  cases hp with
  | @moved kind holder w hplace h =>
    obtain ⟨d, s, hmints⟩ := transfer_mints h
    cases kind with
    | deposit =>
      have st : World.Step c.world
        ⟨signer, c.world.clock, .depositTransfer (p.src holder) (p.dst holder) _⟩ w := h
      obtain ⟨u', st', hs'⟩ := hs.step st
      refine ⟨[⟨u, _, u'⟩], u', Run.nil.snoc st', ?_, hs', by rw [hmints]⟩
      unfold Payment.transfer
      rw [hplace]
      rfl
    | share =>
      have st : World.Step c.world
        ⟨signer, c.world.clock, .shareTransfer (p.src holder) (p.dst holder) _⟩ w := h
      obtain ⟨u', st', hs'⟩ := hs.step st
      refine ⟨[⟨u, _, u'⟩], u', Run.nil.snoc st', ?_, hs', by rw [hmints]⟩
      unfold Payment.transfer
      rw [hplace]
      rfl
  | booked hplace =>
    refine ⟨[], u, .nil, ?_, hs, rfl⟩
    unfold Payment.transfer
    rw [hplace]
    rfl

/-- Payments in their order, whose transfers are taken in their order. -/
theorem settleAll_follows {now : I64} (h : settleAll V c ps = .ok c') (hnow : c.world.clock = now)
    (hs : World.Restamped c.world u) :
    ∃ h₁ u', Run World.Step u h₁ u' ∧
      labels h₁ = ((ps.filterMap (·.transfer V.mints)).map fun ix => ⟨signer, now, ix⟩).reverse ∧
      World.Restamped c'.world u' := by
  induction ps generalizing c u with
  | nil =>
    cases h
    exact ⟨[], u, .nil, rfl, hs⟩
  | cons p ps ih =>
    rw [settleAll_cons] at h
    obtain ⟨c₁, hp, hrest⟩ := bind_eq_ok.1 h
    obtain ⟨h₁, u₁, hr₁, hlabels₁, hs₁, hclock⟩ := (settle_paid hp).follows signer hs
    obtain ⟨h₂, u₂, hr₂, hlabels₂, hs₂⟩ := ih hrest (hclock.trans hnow) hs₁
    refine ⟨h₂ ++ h₁, u₂, hr₁.trans hr₂, ?_, hs₂⟩
    unfold labels at hlabels₁ hlabels₂ ⊢
    rw [List.map_append, hlabels₁, hlabels₂, hnow, List.filterMap_cons]
    cases p.transfer V.mints with
    | none => exact List.append_nil _
    | some ix => exact (List.reverse_cons).symm

theorem Worked.follows (hw : Worked V c signer ix w c') (hs : World.Restamped c.world u) :
    ∃ h₁ u', Run World.Step u h₁ u' ∧
      labels h₁ = (((ix.payments V c signer).filterMap (·.transfer V.mints)).map
        fun ix => ⟨signer, c.world.clock, ix⟩).reverse ∧ World.Restamped c'.world u' := by
  obtain ⟨hacted, ⟨c₁, hsettled, hworld, _⟩, _⟩ := hw
  have hs₁ : World.Restamped w u ∧ w.clock = c.world.clock := by
    cases hrecord : ix.record with
    | some k =>
      rw [hrecord] at hacted
      obtain ⟨s, hk, _, rfl⟩ := hacted.stamped
      exact ⟨hs.stamp hk _ _, rfl⟩
    | none =>
      rw [hrecord] at hacted
      rw [hacted]
      exact ⟨hs, rfl⟩
  rw [hworld]
  exact settleAll_follows hsettled hs₁.2 hs₁.1

/-- An instruction of the program is one of the world of the vault. -/
theorem execute_follows {ix : Instruction} (h : c.execute V signer ix = .ok c')
    (hs : World.Restamped c.world u) :
    ∃ h₁ u', Run World.Step u h₁ u' ∧ labels h₁ = [⟨signer, c.world.clock, seen ix⟩] ∧
      World.Restamped c'.world u' := by
  obtain ⟨w', hexecuted, rfl⟩ := execute_ok h
  have st : World.Step c.world ⟨signer, c.world.clock, seen ix⟩ w' := hexecuted.executed
  obtain ⟨u', st', hs'⟩ := hs.step st
  exact ⟨[⟨u, _, u'⟩], u', Run.nil.snoc st', rfl, hs'⟩

theorem closeStrategy_follows {program : TokenProgram}
    (h : c.closeStrategy V signer k program = .ok c') (hs : World.Restamped c.world u) :
    ∃ h₁ u', Run World.Step u h₁ u' ∧
      labels h₁ = [⟨signer, c.world.clock, .vaultCloseStrategy k (.ok ())⟩] ∧
      World.Restamped c'.world u' := by
  obtain ⟨_, w', _, _, st, _, rfl⟩ := closeStrategy_ok h
  obtain ⟨u', st', hs'⟩ := hs.step st
  exact ⟨[⟨u, _, u'⟩], u', Run.nil.snoc st', rfl, hs'⟩

theorem shownTxs_work {now : I64} (h : ix.isWork = true) : shownTxs V ⟨c, ⟨signer, now, ix⟩, c'⟩ =
    (((ix.payments V { c with world := { c.world with clock := now } } signer).filterMap
      (·.transfer V.mints)).map fun ix => ⟨signer, now, ix⟩).reverse := by
  cases ix with
  | program => cases h
  | closeStrategy => cases h
  | _ => rfl

variable {c₀ : Custody} {h : List (Transition Custody CustodyTx)}

theorem run_follows (hr : Run (Step V) c₀ h c) :
    ∃ h₂ u, Run World.Step c₀.world h₂ u ∧ labels h₂ = h.flatMap (shownTxs V) ∧
      World.Restamped c.world u := by
  refine hr.refine (R := fun c u => World.Restamped c.world u) .refl fun t _ st u hs => ?_
  obtain ⟨c, ⟨signer, now, ix⟩, c'⟩ := t
  have hs₁ : World.Restamped { c.world with clock := now } u := ⟨hs.eq, hs.records⟩
  rcases Step.worked st with ⟨ix', rfl, hix⟩ | ⟨k, program, rfl, hclose⟩ | ⟨hwork, w, hw⟩
  · exact execute_follows hix hs₁
  · exact closeStrategy_follows hclose hs₁
  · obtain ⟨h₁, u', hr', hlabels, hs'⟩ := hw.follows hs₁
    exact ⟨h₁, u', hr', hlabels.trans (shownTxs_work hwork).symm, hs'⟩

/-- For the world of the vault a run with strategies is a run of what the program and the token
programs did, up to the stamps of the records. The vault is sound after it, whatever the venues
did with its other accounts, and its records are counted. -/
theorem run_refines (h0 : c₀.world.Fresh) (hr : Run (Step V) c₀ h c) :
    (∃ h₂ u, Run World.Step c₀.world h₂ u ∧ labels h₂ = h.flatMap (shownTxs V) ∧
      World.Restamped c.world u) ∧
    c.world.Sound ∧ c.world.Census ∧ World.SameVault c₀.world c.world := by
  obtain ⟨_, u, hru, _, hs⟩ := run_follows hr
  exact ⟨run_follows hr, hs.sound (World.run_sound h0 hru), hs.census (World.run_census h0 hru),
    hs.sameVault (World.run_sameVault h0 hru)⟩

/-! ## Who pays whom -/

theorem payments_clock (now : I64) :
    ix.payments V { c with world := { c.world with clock := now } } signer =
      ix.payments V c signer := by
  cases ix <;> rfl

/-- An instruction of the program takes nothing from other places than it pays out of. -/
theorem execute_keeps {ix : Instruction} {holder : Holder} (wf : w.WellFormed)
    (h : w.execute signer ix = .ok w') (hsigned : ofVault ix = false)
    (hplace : holder = .escrow ∨ holder = .vault) :
    (World.paysFrom ix (.deposit, holder) = false →
      w.depositMint.amount holder ≤ w'.depositMint.amount holder) ∧
    (World.paysFrom ix (.share, holder) = false →
      w.shareMint.amount holder ≤ w'.shareMint.amount holder) := by
  have hwallet : ∀ k, holder ≠ .wallet k := by
    rintro k rfl
    rcases hplace with hno | hno
    · cases hno
    · cases hno
  -- outside the program, what is not the vault's is a wallet's
  have hsource : ∀ {src : Holder}, decide (src = .vault) = false →
      World.validateSource src = .ok () → holder ≠ src := by
    rintro src hvault hescrow rfl
    rcases hplace with rfl | rfl
    · cases hescrow
    · cases hvault
  have st : w.Step ⟨signer, w.clock, ix⟩ w' := h
  have hchange := World.process_change wf st
  cases ix with
  | depositTransfer src dst amount =>
    simp only [World.execute, World.depositTransfer, bind_eq_ok, pure_eq_ok, ofToken_eq_ok] at h
    obtain ⟨_, hvalid, m, hm, rfl⟩ := h
    exact ⟨fun _ => Mint.le_transfer hm (hsource hsigned hvalid), fun _ => Nat.le_refl _⟩
  | depositIssue dst amount =>
    simp only [World.execute, World.depositIssue, bind_eq_ok, pure_eq_ok, ofToken_eq_ok] at h
    obtain ⟨m, hm, rfl⟩ := h
    exact ⟨fun _ => Mint.le_mintTo hm holder, fun _ => Nat.le_refl _⟩
  | depositBurn src amount =>
    simp only [World.execute, World.depositBurn, bind_eq_ok, pure_eq_ok, ofToken_eq_ok] at h
    obtain ⟨_, hvalid, m, hm, rfl⟩ := h
    exact ⟨fun _ => Mint.le_burn hm (hsource hsigned hvalid), fun _ => Nat.le_refl _⟩
  | shareTransfer src dst shares =>
    simp only [World.execute, World.shareTransfer, bind_eq_ok, pure_eq_ok, ofToken_eq_ok] at h
    obtain ⟨_, hvalid, m, hm, rfl⟩ := h
    exact ⟨fun _ => Nat.le_refl _, fun _ => Mint.le_transfer hm (hsource hsigned hvalid)⟩
  | shareBurn src shares =>
    simp only [World.execute, World.shareBurn, bind_eq_ok, pure_eq_ok, ofToken_eq_ok] at h
    obtain ⟨_, hvalid, m, hm, rfl⟩ := h
    exact ⟨fun _ => Nat.le_refl _, fun _ => Mint.le_burn hm (hsource hsigned hvalid)⟩
  | depositRequestCreate =>
    cases hchange with
    | depositPut hstep =>
      exact ⟨fun _ => Mint.le_transfer hstep.transfer (hwallet _), fun _ => Nat.le_refl _⟩
  | depositRequestCancel =>
    cases hchange with
    | depositRefund hstep =>
      rcases hplace with rfl | rfl
      · exact ⟨(fun hno => by cases hno), fun _ => Nat.le_refl _⟩
      · exact ⟨fun _ => Mint.le_transfer hstep.transfer (by decide), fun _ => Nat.le_refl _⟩
  | depositRequestReject =>
    cases hchange with
    | depositRefund hstep =>
      rcases hplace with rfl | rfl
      · exact ⟨(fun hno => by cases hno), fun _ => Nat.le_refl _⟩
      · exact ⟨fun _ => Mint.le_transfer hstep.transfer (by decide), fun _ => Nat.le_refl _⟩
  | depositRequestResolve =>
    cases hchange with
    | depositSettle hstep =>
      refine ⟨fun hpays => ?_, fun _ => Mint.le_mintTo hstep.mint holder⟩
      rcases hplace with rfl | rfl
      · cases hpays
      · exact Mint.le_transfer hstep.transfer (by decide)
  | withdrawalRequestCreate =>
    cases hchange with
    | withdrawalPut hstep =>
      exact ⟨fun _ => Nat.le_refl _, fun _ => Mint.le_transfer hstep.transfer (hwallet _)⟩
  | withdrawalRequestCancel =>
    cases hchange with
    | withdrawalRefund hstep =>
      rcases hplace with rfl | rfl
      · exact ⟨fun _ => Nat.le_refl _, fun hno => by cases hno⟩
      · exact ⟨fun _ => Nat.le_refl _, fun _ => Mint.le_transfer hstep.transfer (by decide)⟩
  | withdrawalRequestReject =>
    cases hchange with
    | withdrawalRefund hstep =>
      rcases hplace with rfl | rfl
      · exact ⟨fun _ => Nat.le_refl _, fun hno => by cases hno⟩
      · exact ⟨fun _ => Nat.le_refl _, fun _ => Mint.le_transfer hstep.transfer (by decide)⟩
  | withdrawalRequestResolve =>
    cases hchange with
    | withdrawalSettle hstep =>
      rcases hplace with rfl | rfl
      · exact ⟨fun _ => Mint.le_transfer hstep.transfer (by decide), fun hno => by cases hno⟩
      · exact ⟨(fun hno => by cases hno), fun _ => Mint.le_burn hstep.burn (by decide)⟩
  | vaultClaimManagerFee =>
    cases hchange with
    | claimManager _ hmint => exact ⟨fun _ => Nat.le_refl _, fun _ => Mint.le_mintTo hmint holder⟩
  | configClaimPlatformFee =>
    cases hchange with
    | claimPlatform _ hmint => exact ⟨fun _ => Nat.le_refl _, fun _ => Mint.le_mintTo hmint holder⟩
  | _ =>
    cases hchange
    exact ⟨fun _ => Nat.le_refl _, fun _ => Nat.le_refl _⟩

theorem mem_treasuryPayments {treasury : Pubkey} {claimed : U64}
    (h : p ∈ treasuryPayments treasury account claimed) :
    p = .spent treasury account (treasuryShare claimed) := by
  unfold treasuryPayments at h
  split at h
  · exact List.mem_singleton.1 h
  · cases h

/-- What is due in one of the two tokens of a position. -/
theorem due_position {position : Pubkey} {s : Strategy}
    (hs : s.strategyType = .meteoraDlmm position)
    (haccount : p.account = V.tokenX position ∨ p.account = V.tokenY position)
    (hparty : p.party = position ∨ p.party = w.config.treasuryAuthority)
    (hout : p.leaves = true → (w.config.status = .normal ∧ w.vault.status = .normal) ∨
      (w.config.status = .normal ∧ ∃ claimed, .received position p.account claimed ∈ ps ∧
        p = .spent w.config.treasuryAuthority p.account (treasuryShare claimed))) :
    Due V w s ps p := by
  refine ⟨.inr ((covers_dlmm hs).2 haccount), ?_, fun h => ?_⟩
  · unfold Counterparty
    rw [hs]
    exact hparty
  · rcases hout h with hnormal | ⟨hnormal, claimed, hclaimed⟩
    · exact .inl hnormal
    · exact .inr (.inl ⟨hnormal, position, claimed, hclaimed⟩)

/-- What is due with Phoenix and Ember. -/
theorem due_trader {t : Pubkey} {s : Strategy} (hs : s.strategyType = .phoenixPerp t)
    (haccount : p.account.place V.mints ≠ none ∨ p.account = V.canonical)
    (hparty : p.party = EMBER_VAULT ∨ p.party = PHOENIX_PROGRAM_ID)
    (hout : p.leaves = true → (w.config.status = .normal ∧ w.vault.status = .normal) ∨
      (p.account = V.canonical ∧ .received EMBER_VAULT USDC_ACCOUNT p.amount ∈ ps)) :
    Due V w s ps p := by
  refine ⟨haccount.imp_right (covers_phoenix hs).2, ?_, fun h => ?_⟩
  · unfold Counterparty
    rw [hs]
    exact hparty
  · exact (hout h).imp_right .inr

/-- Out of its queue Phoenix pays what is due. -/
theorem due_queue {t : Pubkey} {s : Strategy} {outcome : PhoenixOutcome}
    (hs : s.strategyType = .phoenixPerp t) (hp : p ∈ c.queuePayments V t outcome) :
    Due V w s ps p := by
  unfold queuePayments at hp
  split at hp
  · obtain rfl := List.mem_singleton.1 hp
    exact due_trader hs (.inr rfl) (.inr rfl) (fun hout => by cases hout)
  · cases hp

/-- What a handler pays of its own, on the record `s`, is due. -/
theorem Acted.due (ha : Acted V w signer ix k w')
    (hp : p ∈ ix.principal V c signer ∨ p ∈ ix.fees V) {s : Strategy}
    (hs : w.strategies.lookup k = some s)
    (husdc : ∀ t, s.strategyType = .phoenixPerp t → V.mints.depositMint = USDC_MINT)
    (hps : ix.principal V c signer ⊆ ps) : Due V w s ps p := by
  obtain ⟨s', hs', hfits, _⟩ := ha.stamped
  obtain rfl : s = s' := Option.some.inj (hs.symm.trans hs')
  have hvault := ha.normalVault
  have hprotocol := ha.normalProtocol
  have hmain : ix.fees V = [] → p ∈ ix.principal V c signer := fun hno =>
    hp.resolve_right (hno ▸ List.not_mem_nil)
  cases ix with
  | program => cases hfits
  | closeStrategy => cases hfits
  | phoenixUpdate => cases hfits
  | donate => cases hfits
  | jupiterSwap k source destination vaultAccount remaining args call =>
    cases call with
    | error => cases hmain rfl
    | ok route =>
      obtain ⟨target, htype, hmints⟩ := hfits
      have hboth : ((VaultAccount.associated source).place V.mints ≠ none ∨
          V.Covers s (.associated source)) ∧
          ((VaultAccount.associated destination).place V.mints ≠ none ∨
            V.Covers s (.associated destination)) := by
        rcases hmints with ⟨hdeposit, rfl⟩ | ⟨hdeposit, rfl⟩
        · exact ⟨.inl (deposit_placed hdeposit), .inr ((covers_jupiter htype).2 rfl)⟩
        · exact ⟨.inr ((covers_jupiter htype).2 rfl), .inl (deposit_placed hdeposit)⟩
      have hparty : ∀ q : Payment, q.party = JUPITER_ID →
          Counterparty w.config.treasuryAuthority q s.strategyType := by
        intro q hq
        unfold Counterparty
        rw [htype]
        exact hq
      have hnormal := And.intro (hprotocol rfl) (hvault rfl)
      rcases List.mem_pair.1 (hmain rfl) with rfl | rfl
      · exact ⟨hboth.1, hparty _ rfl, fun _ => .inl hnormal⟩
      · exact ⟨hboth.2, hparty _ rfl, fun _ => .inl hnormal⟩
  | dlmmAddLiquidity position x y call =>
    cases call with
    | error => cases hmain rfl
    | ok outcome =>
      have hnormal := And.intro (hprotocol rfl) (hvault rfl)
      rcases List.mem_pair.1 (hmain rfl) with rfl | rfl
      · exact due_position hfits (.inl rfl) (.inl rfl) fun _ => .inl hnormal
      · exact due_position hfits (.inr rfl) (.inl rfl) fun _ => .inl hnormal
  | dlmmRemoveLiquidity position bps call =>
    cases call with
    | error => cases hmain rfl
    | ok outcome =>
      rcases List.mem_pair.1 (hmain rfl) with rfl | rfl
      · exact due_position hfits (.inl rfl) (.inl rfl) fun hout => by cases hout
      · exact due_position hfits (.inr rfl) (.inl rfl) fun hout => by cases hout
  | dlmmClaimFee position treasury call =>
    cases call with
    | error => cases hmain rfl
    | ok outcome =>
      obtain rfl := ha.treasury treasury rfl
      have hnormal := hprotocol rfl
      rcases hp with hp | hp
      · rcases List.mem_pair.1 hp with rfl | rfl
        · exact due_position hfits (.inl rfl) (.inl rfl) fun hout => by cases hout
        · exact due_position hfits (.inr rfl) (.inl rfl) fun hout => by cases hout
      · rcases List.mem_append.1 hp with hp | hp
        · obtain rfl := mem_treasuryPayments hp
          exact due_position hfits (.inl rfl) (.inr rfl) fun _ =>
            .inr ⟨hnormal, outcome.x, hps List.mem_cons_self, rfl⟩
        · obtain rfl := mem_treasuryPayments hp
          exact due_position hfits (.inr rfl) (.inr rfl) fun _ =>
            .inr ⟨hnormal, outcome.y, hps (List.mem_cons_of_mem _ List.mem_cons_self), rfl⟩
  | phoenixDepositFunds t amount call =>
    obtain rfl := List.mem_singleton.1 (hmain rfl)
    exact due_trader hfits (.inl (deposit_placed (husdc t hfits).symm)) (.inl rfl) fun _ =>
      .inl ⟨hprotocol rfl, hvault rfl⟩
  | phoenixWithdrawFunds t amount call =>
    cases call with
    | error => cases hmain rfl
    | ok outcome =>
      obtain rfl := List.mem_singleton.1 (hmain rfl)
      exact due_trader hfits (.inl (deposit_placed (husdc t hfits).symm)) (.inl rfl)
        fun hout => by cases hout
  | phoenixEmberWithdraw t =>
    rcases List.mem_pair.1 (hmain rfl) with rfl | rfl
    · exact due_trader hfits (.inr rfl) (.inl rfl) fun _ =>
        .inr ⟨rfl, hps (List.mem_cons_of_mem _ List.mem_cons_self)⟩
    · exact due_trader hfits (.inl (deposit_placed (husdc t hfits).symm)) (.inl rfl)
        fun hout => by cases hout
  | phoenixPlaceLimitOrder t orderbook params call =>
    cases call with
    | error => cases hmain rfl
    | ok outcome => exact due_queue hfits (hmain rfl)
  | phoenixPlaceMarketOrder t orderbook params call =>
    cases call with
    | error => cases hmain rfl
    | ok outcome => exact due_queue hfits (hmain rfl)
  | phoenixCancelOrders t orderbook mode call =>
    cases call with
    | error => cases hmain rfl
    | ok outcome => exact due_queue hfits (hmain rfl)

/-- What an instruction of the program takes from an account, it pays out of its place. -/
theorem execute_falls {ix : Instruction} (wf : c.world.WellFormed)
    (h : c.world.execute signer ix = .ok w') (hsigned : ofVault ix = false)
    (hless : (balance V { c with world := w' } account).toNat < (c.balance V account).toNat) :
    ∃ at_, account.place V.mints = some at_ ∧ World.paysFrom ix at_ = true := by
  cases hplace : account.place V.mints with
  | none =>
    rw [balance_held hplace, balance_held hplace] at hless
    exact absurd hless (Nat.lt_irrefl _)
  | some at_ =>
    obtain ⟨kind, holder⟩ := at_
    obtain ⟨hdeposit, hshare⟩ := execute_keeps wf h hsigned (place_own hplace)
    refine ⟨_, rfl, ?_⟩
    by_contra hpays
    rw [Bool.not_eq_true] at hpays
    cases kind with
    | deposit =>
      rw [balance_deposit hplace, balance_deposit hplace] at hless
      exact absurd (hdeposit hpays) (Nat.not_le.2 hless)
    | share =>
      rw [balance_share hplace, balance_share hplace] at hless
      exact absurd (hshare hpays) (Nat.not_le.2 hless)

theorem ofVault_seen (ix : Instruction) : ofVault (seen ix) = ofVault ix := by
  cases ix <;> rfl

theorem paysFrom_seen (ix : Instruction) (at_ : MintKind × Holder) :
    World.paysFrom (seen ix) at_ = World.paysFrom ix at_ := by
  cases ix <;> rfl

/-- What the balances show of a step. -/
theorem Step.moves {tx : CustodyTx} (wf : c.world.WellFormed) (st : Step V c tx c')
    (account : VaultAccount) : Moves V ⟨c, tx, c'⟩ account := by
  obtain ⟨signer, now, ix⟩ := tx
  have wf' : World.WellFormed { c.world with clock := now } := ⟨wf.deposit, wf.withdrawal⟩
  rcases Step.worked st with ⟨ix', rfl, hix⟩ | ⟨k, program, rfl, hclose⟩ | ⟨hwork, w, hw⟩
  · refine ⟨fun hno => (by cases hno), fun _ hless => ?_⟩
    obtain ⟨w', hexecuted, rfl⟩ := execute_ok hix
    obtain ⟨at_, hplace, hpays⟩ := execute_falls (c := { c with world := { c.world with clock := now } })
      wf' hexecuted.executed ((ofVault_seen ix').trans hexecuted.unsigned) hless
    exact ⟨ix', at_, rfl, hplace, (paysFrom_seen ix' at_).symm.trans hpays⟩
  · refine ⟨fun hno => (by cases hno), fun _ hless => ?_⟩
    obtain ⟨_, w', _, _, st', _, rfl⟩ := closeStrategy_ok hclose
    obtain ⟨at_, _, hpays⟩ := execute_falls (c := { c with world := { c.world with clock := now } })
      wf' st' rfl hless
    cases hpays
  · refine ⟨fun _ => ?_, fun hno => ?_⟩
    · have hbooks := hw.balance account
      rw [payments_clock] at hbooks
      exact hbooks
    · rw [hwork] at hno
      cases hno

/-- Between other transactions than strategy ones the other accounts do not move. -/
theorem Step.held {tx : CustodyTx} (st : Step V c tx c') (hplace : account.place V.mints = none) :
    (c'.held account).toNat + spentOn V account ⟨c, tx, c'⟩ =
      (c.held account).toNat + receivedOn V account ⟨c, tx, c'⟩ := by
  obtain ⟨signer, now, ix⟩ := tx
  unfold spentOn receivedOn
  rcases Step.worked st with ⟨ix', rfl, hix⟩ | ⟨k, program, rfl, hclose⟩ | ⟨_, w, hw⟩
  · obtain ⟨_, _, rfl⟩ := execute_ok hix
    rfl
  · obtain ⟨_, _, _, _, _, _, rfl⟩ := closeStrategy_ok hclose
    rfl
  · have hbooks := hw.balance account
    rw [payments_clock, balance_held hplace, balance_held hplace] at hbooks
    exact hbooks

/-! ## The treasury -/

/-- The claims of a run, amount by amount. -/
def claims (V : Venues) (account : VaultAccount) (h : List (Transition Custody CustodyTx)) :
    List Nat :=
  h.flatMap fun t => t.label.ix.claimed V account

open World (admin updater manager alice bob)

/-- Of the 1000 that Alice deposited, 500 go into a position. Bob sends the vault four tokens of the
other mint. When the fees of the position are claimed, three more come to an account at another
address. -/
def feeTxs : List CustodyTx := [
  (CustodyInstruction.program (.depositRequestCreate 1000 (.ok ()) 0)).sentBy alice 100,
  (CustodyInstruction.program (.navUpdate 0)).sentBy updater 14400,
  (CustodyInstruction.program (.depositRequestResolve alice.key)).sentBy bob 14401,
  (CustodyInstruction.program (.initializeStrategy (.meteoraDlmm 90) (.ok ()))).sentBy manager 14402,
  (CustodyInstruction.dlmmAddLiquidity 90 500 0 (.ok ⟨500, 0, 10, []⟩)).sentBy manager 14403,
  (CustodyInstruction.donate (.associated 70) 4).sentBy bob 14404,
  (CustodyInstruction.dlmmClaimFee 90 admin.key
    (.ok ⟨25, 79, 10, [⟨.received 90 (.other 5 70) 3, rfl⟩]⟩)).sentBy manager 14405]

theorem fee_run : Run (Step sampleVenues) sample (sampleHistory feeTxs) (sampleAfter feeTxs) :=
  run_final (by rfl)

theorem run_refines_sample :
    (∃ h₂ u, Run World.Step sample.world h₂ u ∧
      labels h₂ = (sampleHistory feeTxs).flatMap (shownTxs sampleVenues) ∧
      World.Restamped (sampleAfter feeTxs).world u) ∧
    (sampleAfter feeTxs).world.Sound ∧ (sampleAfter feeTxs).world.Census ∧
    World.SameVault sample.world (sampleAfter feeTxs).world :=
  run_refines sample_fresh.world fee_run

end Custody

end HedgeVault
