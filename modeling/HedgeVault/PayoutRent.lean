import HedgeVault.Chain
import HedgeVault.Genesis

/-!
# What a settlement costs

Every open request holds its own rent and the rent of the larger payout account
(`Chain.Covered`), in every state a chain reaches. So whatever a settlement takes from its
payer for the payout account comes back from the request, and the owner gets the rest.
-/

namespace HedgeVault

open Lib

namespace World

/-- The payout rent on record for the open request at an address. -/
def rentEscrowAt (w : World) : Address → Option U64
  | .depositRequest u => (w.depositRequests.lookup u).map (·.rentEscrow)
  | .withdrawalRequest u => (w.withdrawalRequests.lookup u).map (·.rentEscrow)
  | _ => none

end World

/-- The request account an event closes. -/
def Event.closes : Event → Option Address
  | .depositRefund u => some (.depositRequest u)
  | .depositSettle u => some (.depositRequest u)
  | .withdrawalRefund u => some (.withdrawalRequest u)
  | .withdrawalSettle u => some (.withdrawalRequest u)
  | _ => none

/-- The request account an event writes. -/
def Event.opens : Event → Option Address
  | .depositPut u _ => some (.depositRequest u)
  | .withdrawalPut u _ => some (.withdrawalRequest u)
  | _ => none

/-- A step that closes a request makes none. -/
theorem Event.opens_of_closes {e : Event} {a : Address} (h : e.closes = some a) :
    e.opens = none := by
  cases e <;> first | rfl | cases h

namespace World

section

variable {w w' : World} {now : I64} {e : Event} {a : Address} {x rent : U64} {tx : Tx}

theorem erase_map_rentEscrow {ρ : Type} (f : ρ → U64) (m : Finmap fun _ : Pubkey => ρ)
    (u k : Pubkey) :
    ((m.erase u).lookup k).map f = if u = k then none else (m.lookup k).map f := by
  by_cases huk : u = k
  · subst huk
    rw [Finmap.lookup_erase, if_pos rfl]
    rfl
  · rw [Finmap.lookup_erase_ne (Ne.symm huk), if_neg huk]

/-- But for the requests it writes and closes, a step leaves the rent on record. -/
theorem Change.rentEscrowAt_eq (h : Change w now e w') (ha : e.opens ≠ some a) :
    w'.rentEscrowAt a = if e.closes = some a then none else w.rentEscrowAt a := by
  cases h with
  | @depositPut u amount r v m h =>
    cases a with
    | depositRequest k =>
      have hne : k ≠ u := fun hk => ha (by rw [hk]; rfl)
      simp [rentEscrowAt, Event.closes, Finmap.lookup_insert_of_ne _ hne]
    | _ => rfl
  | @withdrawalPut u shares r v s h =>
    cases a with
    | withdrawalRequest k =>
      have hne : k ≠ u := fun hk => ha (by rw [hk]; rfl)
      simp [rentEscrowAt, Event.closes, Finmap.lookup_insert_of_ne _ hne]
    | _ => rfl
  | depositRefund | depositSettle =>
    cases a with
    | depositRequest k => simp [rentEscrowAt, Event.closes, erase_map_rentEscrow]
    | _ => rfl
  | withdrawalRefund | withdrawalSettle =>
    cases a with
    | withdrawalRequest k => simp [rentEscrowAt, Event.closes, erase_map_rentEscrow]
    | _ => rfl
  | _ => cases a <;> rfl

/-- The rent on record after a create: that of the open request, or the one just charged. -/
theorem depositRequestCreate_rentEscrow (wf : w.WellFormed) {signer : Signer} {amount : U64}
    {verdict : Result Unit} (h : w.depositRequestCreate signer amount verdict rent = .ok w') :
    w'.rentEscrowAt (.depositRequest signer.key) =
      some ((w.rentEscrowAt (.depositRequest signer.key)).getD rent) := by
  simp only [depositRequestCreate, bind_eq_ok, pure_eq_ok] at h
  obtain ⟨_, _, _, _, _, _, _, _, _, _, r, hr, v, _, m, _, rfl⟩ := h
  obtain ⟨_, _, hr'⟩ := DepositRequest.add_ok hr
  obtain ⟨_, _, _, hold⟩ := openDeposit_of_wellFormed wf signer.key rent
  simp only [rentEscrowAt, Finmap.lookup_insert, Option.map_some]
  rw [hr']
  cases hq : w.depositRequests.lookup signer.key with
  | none => simp [openDeposit, hq, DepositRequest.zeroed]
  | some q => rw [hold q hq]; rfl

theorem withdrawalRequestCreate_rentEscrow (wf : w.WellFormed) {signer : Signer} {shares : U64}
    (h : w.withdrawalRequestCreate signer shares rent = .ok w') :
    w'.rentEscrowAt (.withdrawalRequest signer.key) =
      some ((w.rentEscrowAt (.withdrawalRequest signer.key)).getD rent) := by
  simp only [withdrawalRequestCreate, bind_eq_ok, pure_eq_ok] at h
  obtain ⟨_, _, _, _, _, _, _, _, r, hr, v, _, s, _, rfl⟩ := h
  obtain ⟨_, _, hr'⟩ := WithdrawalRequest.add_ok hr
  obtain ⟨_, _, _, hold⟩ := openWithdrawal_of_wellFormed wf signer.key rent
  simp only [rentEscrowAt, Finmap.lookup_insert, Option.map_some]
  rw [hr']
  cases hq : w.withdrawalRequests.lookup signer.key with
  | none => simp [openWithdrawal, hq, WithdrawalRequest.zeroed]
  | some q => rw [hold q hq]; rfl

end

end World

namespace Bank

section

variable {rt : Runtime} {b b' b'' : Bank} {src dst a payer payout request : Address} {n : Nat}
  {kind : MintKind} {owner : Pubkey} {authority : Option Pubkey} {e : U64} {S T : List Address}

theorem systemTransfer_ok (h : b.systemTransfer src dst n = .ok b') :
    n ≤ b.lamports src ∧ b' = b.pay src dst n := by
  unfold systemTransfer at h
  split at h
  · cases h
    exact ⟨‹_›, rfl⟩
  · cases h

theorem pay_lamports_dst (h : src ≠ dst) : (b.pay src dst n).lamports dst = b.lamports dst + n :=
  pay_dst h

/-- The mints stay, and only the accounts in `S` may have less. -/
structure Frame (S : List Address) (b b' : Bank) : Prop where
  depositMint : b'.depositMint = b.depositMint
  shareMint : b'.shareMint = b.shareMint
  spared : ∀ a, a ∉ S → b.lamports a ≤ b'.lamports a

theorem Frame.refl : Frame [] b b := ⟨rfl, rfl, fun _ _ => Nat.le_refl _⟩

theorem Frame.trans (h : Frame S b b') (h' : Frame T b' b'') : Frame (S ++ T) b b'' := by
  refine ⟨h'.depositMint.trans h.depositMint, h'.shareMint.trans h.shareMint, fun a ha => ?_⟩
  rw [List.mem_append, not_or] at ha
  exact (h.spared a ha.1).trans (h'.spared a ha.2)

theorem Frame.mono (h : Frame S b b') (hs : ∀ a ∈ S, a ∈ T) : Frame T b b' :=
  ⟨h.depositMint, h.shareMint, fun a ha => h.spared a fun has => ha (hs a has)⟩

theorem pay_frame : Frame [src] b (b.pay src dst n) :=
  ⟨rfl, rfl, fun _ ha => le_pay (List.ne_of_not_mem_cons ha)⟩

theorem Frame.payoutRent (h : Frame S b b') : b'.payoutRent rt = b.payoutRent rt := by
  unfold Bank.payoutRent
  rw [h.depositMint, h.shareMint]

/-- The charged rent is enough for either payout account. -/
theorem payoutRent_ok (h : b.payoutRent rt = .ok e) (kind : MintKind) {len : Nat}
    (hlen : rt.payoutAccountLen (b.mint kind) = .ok len) :
    (rt.minimumBalance len).toNat ≤ e.toNat := by
  simp only [payoutRent, bind_eq_ok, pure_eq_ok] at h
  obtain ⟨share, hshare, deposit, hdeposit, rfl⟩ := h
  cases kind with
  | deposit =>
    cases hdeposit.symm.trans hlen
    split
    · exact Nat.le_refl _
    · next hlt => exact Nat.le_of_lt (Nat.lt_of_not_le hlt)
  | share =>
    cases hshare.symm.trans hlen
    split
    · next hle => exact hle
    · exact Nat.le_refl _

/-- A create debits its signer alone, and covers a request that was missing. -/
theorem chargeRequest_ok (h : b.chargeRequest rt owner request authority = .ok (b', e))
    (hr : request ≠ .wallet owner) :
    Frame [.wallet owner] b b' ∧ (authority = none → b.payoutRent rt = .ok e ∧
      rt.requestRent + e.toNat ≤ b'.lamports request) := by
  simp only [chargeRequest, bind_eq_ok] at h
  obtain ⟨b₁, hinit, h⟩ := h
  have hb₁ : Frame [.wallet owner] b b₁ ∧
      (authority = none → rt.requestRent ≤ b₁.lamports request) := by
    cases authority with
    | none =>
      obtain ⟨_, rfl⟩ := systemTransfer_ok hinit
      refine ⟨pay_frame, fun _ => ?_⟩
      rw [pay_lamports_dst hr.symm]
      omega
    | some _ =>
      cases hinit
      exact ⟨Frame.refl.mono nofun, nofun⟩
  obtain ⟨hf₁, hl₁⟩ := hb₁
  split at h
  · simp only [escrowPayoutRent, bind_eq_ok, pure_eq_ok, Prod.mk.injEq] at h
    obtain ⟨_, he, _, hpaid, rfl, rfl⟩ := h
    obtain ⟨_, rfl⟩ := systemTransfer_ok hpaid
    refine ⟨(hf₁.trans pay_frame).mono (by simp), fun hnone => ⟨?_, ?_⟩⟩
    · rw [← hf₁.payoutRent]
      exact he
    · have hrent := hl₁ hnone
      rw [pay_lamports_dst hr.symm]
      omega
  · next hne =>
    rw [pure_eq_ok, Prod.mk.injEq] at h
    obtain ⟨rfl, -⟩ := h
    refine ⟨hf₁, fun hnone => ?_⟩
    subst hnone
    exact absurd rfl hne

theorem createIdempotent_ok (h : b.createIdempotent rt payer payout kind = .ok b') :
    ∃ len, rt.payoutAccountLen (b.mint kind) = .ok len ∧
      (rt.minimumBalance len).toNat - b.lamports payout ≤ b.lamports payer ∧
      b' = { b.pay payer payout ((rt.minimumBalance len).toNat - b.lamports payout) with
        dataIsEmpty := Function.update b.dataIsEmpty payout false } := by
  simp only [createIdempotent, bind_eq_ok, pure_eq_ok] at h
  obtain ⟨len, hlen, b₁, hb, rfl⟩ := h
  obtain ⟨hle, rfl⟩ := systemTransfer_ok hb
  exact ⟨len, hlen, hle, rfl⟩

theorem createIdempotent_frame (h : b.createIdempotent rt payer payout kind = .ok b') :
    Frame [payer] b b' := by
  obtain ⟨_, _, _, rfl⟩ := createIdempotent_ok h
  exact ⟨rfl, rfl, pay_frame.spared⟩

theorem initPayoutAccount_frame (h : b.initPayoutAccount rt payer payout kind = .ok b') :
    Frame [payer] b b' := by
  unfold initPayoutAccount at h
  split at h
  · rw [pure_eq_ok] at h
    subst h
    exact Frame.refl.mono nofun
  · exact createIdempotent_frame h

/-- What a token account for the mint must hold. -/
def minimumFor (b : Bank) (rt : Runtime) (kind : MintKind) : Nat :=
  match rt.payoutAccountLen (b.mint kind) with
  | .ok len => (rt.minimumBalance len).toNat
  | .error _ => 0

/-- What funds the payout account: nothing when there is one. -/
def needed (b : Bank) (rt : Runtime) (payout : Address) (kind : MintKind) : Nat :=
  if b.dataIsEmpty payout then b.minimumFor rt kind - b.lamports payout else 0

/-- The payer's advance comes back: the request pays for the payout account. -/
theorem createPayoutAccount_ok
    (h : b.createPayoutAccount rt payer payout kind request e = .ok (b', n))
    (hpayout : payer ≠ payout) (hrequest : payer ≠ request) (hne : request ≠ payout)
    (he : b.payoutRent rt = .ok e) (hle : e.toNat ≤ b.lamports request) :
    b'.lamports = Lib.pay b.lamports request payout (b.needed rt payout kind) ∧
    b.needed rt payout kind ≤ e.toNat ∧ b'.dataIsEmpty payout = false ∧
    b'.depositMint = b.depositMint ∧ b'.shareMint = b.shareMint := by
  unfold createPayoutAccount at h
  cases hempty : b.dataIsEmpty payout with
  | false =>
    rw [hempty, if_pos Bool.false_ne_true, pure_eq_ok, Prod.mk.injEq] at h
    obtain ⟨rfl, -⟩ := h
    have hzero : b.needed rt payout kind = 0 := by rw [needed, hempty]; rfl
    rw [hzero, pay_zero]
    exact ⟨rfl, Nat.zero_le _, hempty, rfl, rfl⟩
  | true =>
    rw [hempty, if_neg (not_not_intro rfl)] at h
    simp only [bind_eq_ok, pure_eq_ok, Prod.mk.injEq] at h
    obtain ⟨len, hlen, _, hcreated, rfl, -⟩ := h
    obtain ⟨len', hlen', hfunds, rfl⟩ := createIdempotent_ok hcreated
    cases hlen.symm.trans hlen'
    have hneeded : b.needed rt payout kind =
        (rt.minimumBalance len).toNat - b.lamports payout := by
      rw [needed, hempty, if_pos rfl, minimumFor, hlen]
    have henough := payoutRent_ok he kind hlen
    -- the draw is the whole advance: the escrow covers it, and the request holds the escrow
    have hdrawn : min (min ((rt.minimumBalance len).toNat - b.lamports payout) e.toNat)
        (Lib.pay b.lamports payer payout
          ((rt.minimumBalance len).toNat - b.lamports payout) request) =
        (rt.minimumBalance len).toNat - b.lamports payout := by
      rw [pay_of_ne hrequest.symm hne]
      omega
    rw [hneeded]
    refine ⟨?_, by omega, Function.update_self _ _ _, rfl, rfl⟩
    simp only [pay, hdrawn]
    exact pay_repaid hpayout hrequest hne hfunds

theorem createPayoutAccount_frame
    (h : b.createPayoutAccount rt payer payout kind request e = .ok (b', n)) :
    Frame [payer, request] b b' := by
  unfold createPayoutAccount at h
  split at h
  · cases h
    exact Frame.refl.mono nofun
  · simp only [bind_eq_ok, pure_eq_ok, Prod.mk.injEq] at h
    obtain ⟨_, _, b₁, hcreated, rfl, -⟩ := h
    exact (createIdempotent_frame hcreated).trans pay_frame

theorem close_frame : Frame [request] b (b.close request a) := pay_frame

end

end Bank

/-- Who a settlement is for, and the accounts it moves rent between. -/
structure Settlement where
  owner : Pubkey
  kind : MintKind
  payout : Address
  request : Address

def Tx.settlement? (tx : Tx) : Option Settlement :=
  match tx.ix with
  | .depositRequestResolve u => some ⟨u, .share, .shareAccount u, .depositRequest u⟩
  | .depositRequestReject u => some ⟨u, .deposit, .depositAccount u, .depositRequest u⟩
  | .withdrawalRequestResolve u => some ⟨u, .deposit, .depositAccount u, .withdrawalRequest u⟩
  | .withdrawalRequestReject u => some ⟨u, .share, .shareAccount u, .withdrawalRequest u⟩
  | _ => none

/-- Whether a settlement in this world pays tokens out: all do but the resolve of a withdrawal
whose shares are worth nothing. -/
def World.paysOut (w : World) (tx : Tx) : Bool :=
  match tx.ix with
  | .withdrawalRequestResolve u => (w.withdrawalRequests.lookup u).any fun r =>
      0 < assetsFor NAV_SCALE r.shares.toNat w.vault.navPerShare.toNat
  | _ => true

namespace Chain

/-- What a settlement needs for its payout account, in the state before it. -/
def payoutCost (rt : Runtime) (tx : Tx) (s : Settlement) (c : Chain) : Nat :=
  if c.world.paysOut tx then c.bank.needed rt s.payout s.kind else 0

/-- An open request holds its own rent and the payout rent on record, which is today's. -/
def Covered (rt : Runtime) (c : Chain) : Prop :=
  ∀ a e, c.world.rentEscrowAt a = some e →
    c.bank.payoutRent rt = .ok e ∧ rt.requestRent + e.toNat ≤ c.bank.lamports a

section

variable {rt : Runtime} {c c' c₀ : Chain} {tx : Tx} {s : Settlement} {a : Address} {e : U64}
  {u : Pubkey} {h : List (Transition Chain (Option Tx))}

/-! ## What a transaction does to the lamports -/

theorem settleRequest_ok {kind : MintKind} {payout request : Address} {paysOut : Bool}
    (h : c.settleRequest rt tx kind payout request u e paysOut = .ok c') :
    c.world.process tx = .ok c'.world ∧ ∃ b, c'.bank = b.close request (.wallet u) ∧
      ((b = c.bank ∧ paysOut = false) ∨ (paysOut = true ∧ ∃ n, c.bank.createPayoutAccount rt
        (.wallet tx.signer.key) payout kind request e = .ok (b, n))) := by
  simp only [settleRequest, bind_eq_ok, pure_eq_ok] at h
  obtain ⟨_, hworld, b, hb, rfl⟩ := h
  refine ⟨hworld, b, rfl, ?_⟩
  cases paysOut with
  | false =>
    cases hb
    exact .inl ⟨rfl, rfl⟩
  | true =>
    rw [Bank.openPayout, if_pos rfl] at hb
    simp only [bind_eq_ok, pure_eq_ok] at hb
    obtain ⟨⟨_, n⟩, hcreated, rfl⟩ := hb
    exact .inr ⟨rfl, n, hcreated⟩

/-- Each settlement is one of the request at its address. -/
theorem process_settlement (h : c.process rt tx = .ok c') (hs : tx.settlement? = some s) :
    ∃ e, c.world.rentEscrowAt s.request = some e ∧ tx.event.closes = some s.request ∧
      c.settleRequest rt tx s.kind s.payout s.request s.owner e (c.world.paysOut tx) =
        .ok c' := by
  obtain ⟨signer, now, ix⟩ := tx
  cases ix with
  | depositRequestResolve u =>
    cases hs
    simp only [process, depositRequestResolve, bind_eq_ok, World.load_eq_ok] at h
    obtain ⟨r, hr, h⟩ := h
    exact ⟨r.rentEscrow, by simp [World.rentEscrowAt, hr], rfl, h⟩
  | depositRequestReject u =>
    cases hs
    simp only [process, depositRequestReject, bind_eq_ok, World.load_eq_ok] at h
    obtain ⟨r, hr, h⟩ := h
    exact ⟨r.rentEscrow, by simp [World.rentEscrowAt, hr], rfl, h⟩
  | withdrawalRequestResolve u =>
    cases hs
    simp only [process, withdrawalRequestResolve, bind_eq_ok, World.load_eq_ok] at h
    obtain ⟨r, hr, ⟨_, amount⟩, hresolved, h⟩ := h
    obtain ⟨hamount, _⟩ := Vault.resolveWithdrawal_ok hresolved
    have hpays : c.world.paysOut ⟨signer, now, .withdrawalRequestResolve u⟩ = decide (amount > 0) := by
      simp [World.paysOut, hr, ← hamount, BitVec.lt_def]
    refine ⟨r.rentEscrow, by simp [World.rentEscrowAt, hr], rfl, ?_⟩
    rw [hpays]
    exact h
  | withdrawalRequestReject u =>
    cases hs
    simp only [process, withdrawalRequestReject, bind_eq_ok, World.load_eq_ok] at h
    obtain ⟨r, hr, h⟩ := h
    exact ⟨r.rentEscrow, by simp [World.rentEscrowAt, hr], rfl, h⟩
  | _ => cases hs

theorem settleRequest_frame {kind : MintKind} {payout request : Address} {paysOut : Bool}
    (h : c.settleRequest rt tx kind payout request u e paysOut = .ok c') :
    Bank.Frame [.wallet tx.signer.key, request] c.bank c'.bank := by
  obtain ⟨_, b, hbank, hb⟩ := settleRequest_ok h
  rw [hbank]
  rcases hb with ⟨rfl, _⟩ | ⟨_, n, hcreated⟩
  · exact Bank.close_frame.mono (by simp)
  · exact ((Bank.createPayoutAccount_frame hcreated).trans Bank.close_frame).mono (by simp)

theorem cancelRequest_ok {kind : MintKind} {payout request : Address}
    (h : c.cancelRequest rt tx kind payout request = .ok c') :
    c.world.process tx = .ok c'.world ∧
      Bank.Frame [.wallet tx.signer.key, request] c.bank c'.bank := by
  simp only [cancelRequest, bind_eq_ok, pure_eq_ok] at h
  obtain ⟨b, hb, _, hworld, rfl⟩ := h
  exact ⟨hworld, (Bank.initPayoutAccount_frame hb).trans Bank.close_frame⟩

/-- A transaction makes a request and charges its owner, or debits wallets and the request it
closes. -/
theorem process_cases (h : c.process rt tx = .ok c') :
    (∃ amount verdict rent,
      c.bank.chargeRequest rt tx.signer.key (.depositRequest tx.signer.key)
        ((c.world.depositRequests.lookup tx.signer.key).map (·.authority)) =
        .ok (c'.bank, rent) ∧
      c.world.process { tx with ix := .depositRequestCreate amount verdict rent } =
        .ok c'.world) ∨
    (∃ shares rent,
      c.bank.chargeRequest rt tx.signer.key (.withdrawalRequest tx.signer.key)
        ((c.world.withdrawalRequests.lookup tx.signer.key).map (·.authority)) =
        .ok (c'.bank, rent) ∧
      c.world.process { tx with ix := .withdrawalRequestCreate shares rent } = .ok c'.world) ∨
    (c.world.process tx = .ok c'.world ∧ tx.event.opens = none ∧
      ∃ S, Bank.Frame S c.bank c'.bank ∧
        ∀ a ∈ S, tx.event.closes = some a ∨ ∃ k, a = .wallet k) := by
  obtain ⟨signer, now, ix⟩ := tx
  cases hs : Tx.settlement? ⟨signer, now, ix⟩ with
  | some s =>
    obtain ⟨e, _, hcloses, hsettled⟩ := process_settlement h hs
    refine .inr (.inr ⟨(settleRequest_ok hsettled).1, Event.opens_of_closes hcloses, _,
      settleRequest_frame hsettled, ?_⟩)
    simp [hcloses]
  | none =>
    cases ix with
    | depositRequestCreate amount verdict rent =>
      simp only [process, depositRequestCreate, bind_eq_ok, pure_eq_ok] at h
      obtain ⟨⟨b, rent'⟩, hcharged, w', hworld, rfl⟩ := h
      exact .inl ⟨amount, verdict, rent', hcharged, hworld⟩
    | withdrawalRequestCreate shares rent =>
      simp only [process, withdrawalRequestCreate, bind_eq_ok, pure_eq_ok] at h
      obtain ⟨⟨b, rent'⟩, hcharged, w', hworld, rfl⟩ := h
      exact .inr (.inl ⟨shares, rent', hcharged, hworld⟩)
    | depositRequestCancel =>
      obtain ⟨hworld, hf⟩ := cancelRequest_ok h
      exact .inr (.inr ⟨hworld, rfl, _, hf, by simp [Tx.event, Event.closes]⟩)
    | withdrawalRequestCancel =>
      obtain ⟨hworld, hf⟩ := cancelRequest_ok h
      exact .inr (.inr ⟨hworld, rfl, _, hf, by simp [Tx.event, Event.closes]⟩)
    | depositRequestReject => cases hs
    | depositRequestResolve => cases hs
    | withdrawalRequestReject => cases hs
    | withdrawalRequestResolve => cases hs
    | _ =>
      simp only [process, bind_eq_ok, pure_eq_ok] at h
      obtain ⟨w', hworld, rfl⟩ := h
      exact .inr (.inr ⟨hworld, rfl, [], Bank.Frame.refl, nofun⟩)

/-! ## What the requests hold -/

theorem Covered.frame {S : List Address} (hcov : c.Covered rt) (hf : Bank.Frame S c.bank c'.bank)
    (hs : a ∉ S) (ha : c.world.rentEscrowAt a = some e) :
    c'.bank.payoutRent rt = .ok e ∧ rt.requestRent + e.toNat ≤ c'.bank.lamports a := by
  obtain ⟨hrent, hle⟩ := hcov a e ha
  exact ⟨hf.payoutRent.trans hrent, hle.trans (hf.spared a hs)⟩

/-- A create covers the request it makes, and leaves the others as they were. -/
theorem Covered.charged {owner : Pubkey} {authority : Option Pubkey} {rent : U64}
    (hcov : c.Covered rt) (request : Address) (hne : request ≠ .wallet owner)
    (hcharge : c.bank.chargeRequest rt owner request authority = .ok (c'.bank, rent))
    (hauthority : authority = none ↔ c.world.rentEscrowAt request = none)
    (hrequest : c'.world.rentEscrowAt request = some ((c.world.rentEscrowAt request).getD rent))
    (hother : ∀ a ≠ request, c'.world.rentEscrowAt a = c.world.rentEscrowAt a) :
    c'.Covered rt := by
  obtain ⟨hf, hnew⟩ := Bank.chargeRequest_ok hcharge hne
  intro a e ha
  have hwallet : a ∉ [Address.wallet owner] := by
    intro hmem
    cases List.mem_singleton.mp hmem
    cases ha
  by_cases har : a = request
  · subst har
    cases hold : c.world.rentEscrowAt a with
    | none =>
      rw [hrequest, hold] at ha
      cases ha
      obtain ⟨hrent, hle⟩ := hnew (hauthority.mpr hold)
      exact ⟨hf.payoutRent.trans hrent, hle⟩
    | some q =>
      rw [hrequest, hold] at ha
      cases ha
      exact hcov.frame hf hwallet hold
  · exact hcov.frame hf hwallet (hother a har ▸ ha)

theorem Covered.process (wf : c.world.WellFormed) (hcov : c.Covered rt)
    (h : c.process rt tx = .ok c') : c'.Covered rt := by
  rcases process_cases h with ⟨amount, verdict, rent, hcharge, hworld⟩ |
    ⟨shares, rent, hcharge, hworld⟩ | ⟨hworld, hopens, S, hf, hS⟩
  · have hch := World.process_change wf hworld
    refine hcov.charged (.depositRequest tx.signer.key) nofun hcharge ?_ ?_ ?_
    · simp [World.rentEscrowAt]
    · exact World.depositRequestCreate_rentEscrow
        (w := { c.world with clock := tx.now }) ⟨wf.deposit, wf.withdrawal⟩ hworld
    · intro a ha
      exact hch.rentEscrowAt_eq (fun hsome => ha (Option.some.inj hsome).symm)
  · have hch := World.process_change wf hworld
    refine hcov.charged (.withdrawalRequest tx.signer.key) nofun hcharge ?_ ?_ ?_
    · simp [World.rentEscrowAt]
    · exact World.withdrawalRequestCreate_rentEscrow
        (w := { c.world with clock := tx.now }) ⟨wf.deposit, wf.withdrawal⟩ hworld
    · intro a ha
      exact hch.rentEscrowAt_eq (fun hsome => ha (Option.some.inj hsome).symm)
  · intro a e ha
    have hch := World.process_change wf hworld
    rw [hch.rentEscrowAt_eq (by rw [hopens]; nofun)] at ha
    split at ha
    · cases ha
    · next hopen =>
      refine hcov.frame hf (fun hmem => ?_) ha
      rcases hS a hmem with hclosed | ⟨k, rfl⟩
      · exact hopen hclosed
      · cases ha

theorem Covered.outside (hcov : c.Covered rt) (hw : c'.world = c.world)
    (ho : c.bank.Outside rt c'.bank) : c'.Covered rt := by
  intro a e ha
  rw [hw] at ha
  obtain ⟨hrent, hle⟩ := hcov a e ha
  have hsame : c'.bank.payoutRent rt = c.bank.payoutRent rt := by
    unfold Bank.payoutRent
    rw [ho.shareLen, ho.depositLen]
  refine ⟨hsame.trans hrent, hle.trans ?_⟩
  cases a with
  | depositRequest u => exact ho.depositRequest u
  | withdrawalRequest u => exact ho.withdrawalRequest u
  | _ => cases ha

/-- Every transaction of the chain is one of the vault's. -/
theorem process_world (h : c.process rt tx = .ok c') :
    ∃ tx', c.world.process tx' = .ok c'.world := by
  rcases process_cases h with ⟨_, _, _, _, hworld⟩ | ⟨_, _, _, hworld⟩ | ⟨hworld, _⟩
  · exact ⟨_, hworld⟩
  · exact ⟨_, hworld⟩
  · exact ⟨_, hworld⟩

/-- From a new vault, every request is covered in every state the chain reaches. -/
theorem run_covered (h0 : c₀.world.Fresh) (hr : Run (Step rt) c₀ h c) :
    c.world.WellFormed ∧ c.Covered rt := by
  refine hr.inv (I := fun c => c.world.WellFormed ∧ c.Covered rt) ⟨h0.wellFormed, ?_⟩ ?_
  · intro a e ha
    cases a with
    | depositRequest u =>
      rw [World.rentEscrowAt, h0.1.depositRequests, Finmap.lookup_empty] at ha
      cases ha
    | withdrawalRequest u =>
      rw [World.rentEscrowAt, h0.1.withdrawalRequests, Finmap.lookup_empty] at ha
      cases ha
    | _ => cases ha
  · rintro c (_ | tx) c' ⟨wf, hcov⟩ st
    · exact ⟨st.1 ▸ wf, hcov.outside st.1 st.2⟩
    · obtain ⟨tx', hworld⟩ := process_world st
      exact ⟨World.Step.wellFormed wf hworld, hcov.process wf st⟩

/-! ## What a settlement moves -/

theorem settlement_apart (hs : tx.settlement? = some s) (k : Pubkey) :
    s.payout ≠ .wallet k ∧ s.request ≠ .wallet k ∧ s.request ≠ s.payout := by
  obtain ⟨signer, now, ix⟩ := tx
  cases ix <;> cases hs <;> exact ⟨nofun, nofun, nofun⟩

/-- The settlement `s` by `tx` cost its signer nothing. -/
structure SettledFree (rt : Runtime) (tx : Tx) (s : Settlement) (c c' : Chain) : Prop where
  payer : c'.bank.lamports (.wallet tx.signer.key) = c.bank.lamports (.wallet tx.signer.key)
  /-- The request holds its own rent until it is closed. -/
  kept : ∃ b : Bank, c'.bank = b.close s.request (.wallet s.owner) ∧
    rt.requestRent ≤ b.lamports s.request ∧
    b.lamports s.request + payoutCost rt tx s c = c.bank.lamports s.request
  owner : c'.bank.lamports (.wallet s.owner) =
    c.bank.lamports (.wallet s.owner) + (c.bank.lamports s.request - payoutCost rt tx s c)
  payout : c'.bank.lamports s.payout = c.bank.lamports s.payout + payoutCost rt tx s c
  /-- Whoever is paid has an account for it. -/
  opened : c.world.paysOut tx = true → c'.bank.dataIsEmpty s.payout = false
  request : c'.bank.lamports s.request = 0
  others : ∀ a, a ≠ s.request → a ≠ s.payout → a ≠ .wallet s.owner →
    c'.bank.lamports a = c.bank.lamports a
  conserved : ∀ S : Finset Address, s.request ∈ S → s.payout ∈ S → .wallet s.owner ∈ S →
    ∑ a ∈ S, c'.bank.lamports a = ∑ a ∈ S, c.bank.lamports a

/-- The lamports a settlement moves: its cost to the payout account, the rest to the owner. -/
theorem settleRequest_lamports
    (h : c.settleRequest rt tx s.kind s.payout s.request s.owner e (c.world.paysOut tx) = .ok c')
    (hs : tx.settlement? = some s) (he : c.bank.payoutRent rt = .ok e)
    (hle : rt.requestRent + e.toNat ≤ c.bank.lamports s.request) :
    payoutCost rt tx s c ≤ e.toNat ∧
    (c.world.paysOut tx = true → c'.bank.dataIsEmpty s.payout = false) ∧
    ∃ b : Bank, c'.bank = b.close s.request (.wallet s.owner) ∧
      b.lamports = pay c.bank.lamports s.request s.payout (payoutCost rt tx s c) := by
  obtain ⟨hpayout, hrequest, hne⟩ := settlement_apart hs tx.signer.key
  obtain ⟨_, b, hbank, hb⟩ := settleRequest_ok h
  unfold payoutCost
  rcases hb with ⟨rfl, hno⟩ | ⟨hpays, n, hcreated⟩
  · rw [hno, if_neg Bool.false_ne_true, pay_zero]
    exact ⟨Nat.zero_le _, fun h => absurd h Bool.false_ne_true, _, hbank, rfl⟩
  · obtain ⟨hl, hneeded, hopened, _⟩ := Bank.createPayoutAccount_ok hcreated hpayout.symm
      hrequest.symm hne he (by omega)
    rw [hpays, if_pos rfl]
    refine ⟨hneeded, fun _ => ?_, b, hbank, hl⟩
    rw [hbank]
    exact hopened

/-- Every open request holds at least its own rent, and a settlement by anyone but the owner costs
its signer nothing: the request pays for the payout account and its owner gets the rest. -/
theorem settlement_free (h0 : c₀.world.Fresh) (hr : Run (Step rt) c₀ h c) :
    (∀ a, (c.world.rentEscrowAt a).isSome → rt.requestRent ≤ c.bank.lamports a) ∧
    ∀ tx s c', tx.settlement? = some s → tx.signer.key ≠ s.owner →
      c.process rt tx = .ok c' → SettledFree rt tx s c c' := by
  obtain ⟨_, hcov⟩ := run_covered h0 hr
  refine ⟨fun a ha => ?_, fun tx s c' hs hpayer hp => ?_⟩
  · obtain ⟨e, he⟩ := Option.isSome_iff_exists.mp ha
    obtain ⟨_, hle⟩ := hcov a e he
    omega
  · obtain ⟨e, he, _, hsettled⟩ := process_settlement hp hs
    obtain ⟨hrent, hle⟩ := hcov s.request e he
    obtain ⟨hpp, hrp, hne⟩ := settlement_apart hs tx.signer.key
    obtain ⟨hpo, hro, _⟩ := settlement_apart hs s.owner
    have hpo' : Address.wallet tx.signer.key ≠ .wallet s.owner :=
      fun hw => hpayer (Address.wallet.inj hw)
    obtain ⟨hcost, hopened, b, hbank, hb⟩ := settleRequest_lamports hsettled hs hrent hle
    have hleft : b.lamports s.request = c.bank.lamports s.request - payoutCost rt tx s c := by
      rw [hb, pay_src hne]
    have hfinal : c'.bank.lamports = pay b.lamports s.request (.wallet s.owner)
        (b.lamports s.request) := by rw [hbank]; rfl
    have hothers : ∀ a, a ≠ s.request → a ≠ s.payout → a ≠ .wallet s.owner →
        c'.bank.lamports a = c.bank.lamports a := by
      intro a har hap hao
      rw [hfinal, pay_of_ne har hao, hb, pay_of_ne har hap]
    refine {
      payer := hothers _ hrp.symm hpp.symm hpo'
      kept := ⟨b, hbank, ?_, ?_⟩
      owner := ?_
      payout := ?_
      opened := hopened
      request := ?_
      others := hothers
      conserved := ?_ }
    · omega
    · omega
    · rw [hfinal, pay_dst hro, hleft, hb, pay_of_ne hro.symm hpo.symm]
    · rw [hfinal, pay_of_ne hne.symm hpo, hb, pay_dst hne]
    · rw [hfinal, pay_src hro, Nat.sub_self]
    · intro S hr hpay ho
      rw [hfinal, sum_pay hr ho (Nat.le_refl _), hb, sum_pay hr hpay (by omega)]

end

/-! Alice deposits, and Bob settles without a share account of hers. -/

/-- The rent of the chain, and a Token-2022 mint whose accounts take 170 bytes. -/
def sampleRuntime : Runtime where
  minimumBalance len := BitVec.ofNat 64 ((128 + len) * 6960)
  extensionTypes _ := some []
  requiredInitAccountExtensions types := types
  calculateAccountLen _ := some 170

def sampleChain : Chain where
  world := World.sample
  bank := {
    lamports := fun
      | .wallet _ => 1000000000
      | _ => 0
    dataIsEmpty := fun _ => true
    depositMint := ⟨TOKEN_2022_ID, 1, []⟩
    shareMint := ⟨TOKEN_ID, 1, []⟩ }

/-- The sample after some transactions of the vault's sample. -/
def sampleChainAfter : List Tx → Chain :=
  List.foldl (fun c tx => match c.process sampleRuntime tx with
    | .ok c' => c'
    | .error _ => c) sampleChain

theorem settlement_free_sample :
    SettledFree sampleRuntime (World.sampleTxs.get ⟨2, by decide⟩)
      ⟨World.alice.key, .share, .shareAccount World.alice.key, .depositRequest World.alice.key⟩
      (sampleChainAfter (World.sampleTxs.take 2)) (sampleChainAfter (World.sampleTxs.take 3)) := by
  have h1 : Step sampleRuntime sampleChain (some (World.sampleTxs.get ⟨0, by decide⟩))
      (sampleChainAfter (World.sampleTxs.take 1)) := rfl
  have h2 : Step sampleRuntime (sampleChainAfter (World.sampleTxs.take 1))
      (some (World.sampleTxs.get ⟨1, by decide⟩))
      (sampleChainAfter (World.sampleTxs.take 2)) := rfl
  exact (settlement_free World.sample_fresh ((Run.nil.snoc h1).snoc h2)).2
    (World.sampleTxs.get ⟨2, by decide⟩) _ _ rfl (by decide) rfl

end Chain

end HedgeVault
