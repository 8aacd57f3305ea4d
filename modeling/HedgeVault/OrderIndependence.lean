import HedgeVault.Lib.Tally
import HedgeVault.Redemption

/-!
# Settlement is order-independent

Between two NAV posts a resolve adds fixed amounts to the quantities of the world
(`settleDelta`), read off the world before all of them, and closes its request. So two
runs of resolves over the same requests end in the same world, whatever their orders
(`settled_eq`). When the idle balance covers all payouts, every order of the
withdrawals goes through (`withdrawals_any_order`).
-/

namespace HedgeVault

open Lib

/-- What a resolve changes besides the request it closes. -/
inductive Quantity where
  | pendingDeposits
  | pendingShares
  | totalAssets
  | epochOutflow
  | shareSupply
  | depositToken (k : Holder)
  | shareToken (k : Holder)

def Event.isSettle : Event → Bool
  | .depositSettle _ => true
  | .withdrawalSettle _ => true
  | _ => false

/-- The deposit request a settlement closes. -/
def Event.closedDeposit : Event → Option Pubkey
  | .depositSettle u => some u
  | _ => none

/-- The withdrawal request a settlement closes. -/
def Event.closedWithdrawal : Event → Option Pubkey
  | .withdrawalSettle u => some u
  | _ => none

namespace World

def quantity (w : World) : Quantity → Int
  | .pendingDeposits => w.vault.pendingDeposits.toNat
  | .pendingShares => w.vault.pendingWithdrawalShares.toNat
  | .totalAssets => w.vault.totalAssets.toNat
  | .epochOutflow => w.vault.epochOutflow.toNat
  | .shareSupply => w.shareMint.supply
  | .depositToken k => w.depositMint.amount k
  | .shareToken k => w.shareMint.amount k

/-- The amount of the open deposit of `u`, and the shares it converts to. -/
def depositAmount (w : World) (u : Pubkey) : Nat := valueAt (·.amount.toNat) w.depositRequests u

def depositShares (w : World) (u : Pubkey) : Nat :=
  sharesFor NAV_SCALE (w.depositAmount u) w.vault.navPerShare.toNat

/-- The shares of the open withdrawal of `u`, and the payout they convert to. -/
def withdrawalShares (w : World) (u : Pubkey) : Nat :=
  valueAt (·.shares.toNat) w.withdrawalRequests u

def withdrawalPayout (w : World) (u : Pubkey) : Nat :=
  assetsFor NAV_SCALE (w.withdrawalShares u) w.vault.navPerShare.toNat

/-- What a settlement adds to the quantities, in the terms of the world `w` before all
settlements. -/
def settleDelta (w : World) : Event → Quantity → Int
  | .depositSettle _, .pendingShares => 0
  | .depositSettle _, .epochOutflow => 0
  | .depositSettle u, .pendingDeposits => -w.depositAmount u
  | .depositSettle u, .totalAssets => w.depositAmount u
  | .depositSettle u, .shareSupply => w.depositShares u
  | .depositSettle u, .depositToken k =>
    match k with
    | .escrow => -w.depositAmount u
    | .vault => w.depositAmount u
    | .wallet _ => 0
  | .depositSettle u, .shareToken k => if k = .wallet u then w.depositShares u else 0
  | .withdrawalSettle _, .pendingDeposits => 0
  | .withdrawalSettle u, .pendingShares => -w.withdrawalShares u
  | .withdrawalSettle u, .totalAssets => -w.withdrawalPayout u
  | .withdrawalSettle u, .epochOutflow => w.withdrawalPayout u
  | .withdrawalSettle u, .shareSupply => -w.withdrawalShares u
  | .withdrawalSettle u, .depositToken k =>
    match k with
    | .vault => -w.withdrawalPayout u
    | .escrow => 0
    | .wallet v => if v = u then w.withdrawalPayout u else 0
  | .withdrawalSettle u, .shareToken k => if k = .escrow then -w.withdrawalShares u else 0
  | _, _ => 0

/-- What settlements from `w` leave alone in `s`. -/
structure SettledFrom (w s : World) : Prop where
  key : s.key = w.key
  config : s.config = w.config
  managers : s.managers = w.managers
  strategies : s.strategies = w.strategies
  vault : s.vault = { w.vault with
    pendingDeposits := s.vault.pendingDeposits
    pendingWithdrawalShares := s.vault.pendingWithdrawalShares
    totalAssets := s.vault.totalAssets
    epochOutflow := s.vault.epochOutflow }
  depositSupply : s.depositMint.supply = w.depositMint.supply
  deposits : ∀ u r, s.depositRequests.lookup u = some r → w.depositRequests.lookup u = some r
  withdrawals : ∀ u r, s.withdrawalRequests.lookup u = some r →
    w.withdrawalRequests.lookup u = some r

section

variable {w₀ w s s' : World} {now : I64} {e : Event} {u : Pubkey} {h : List (Transition World Tx)}

theorem SettledFrom.refl (w : World) : SettledFrom w w :=
  ⟨rfl, rfl, rfl, rfl, rfl, rfl, fun _ _ h => h, fun _ _ h => h⟩

theorem SettledFrom.navPerShare (hs : SettledFrom w s) :
    s.vault.navPerShare = w.vault.navPerShare := by
  rw [hs.vault]

theorem DepositSettle.quantity (hs : SettledFrom w s) {r : DepositRequest} {v : Vault}
    {shares : U64} {m n : SplMint} (h : s.DepositSettle u r v shares m n) (q : Quantity) :
    ({ s with clock := now, vault := v, depositMint := m, shareMint := n
              depositRequests := s.depositRequests.erase u } : World).quantity q =
      s.quantity q + settleDelta w (.depositSettle u) q := by
  obtain ⟨_, hshares, _, hpending, hassets, e⟩ := Vault.resolveDeposit_ok h.resolve
  obtain ⟨hle, _, hfrom, hto, hother⟩ := Mint.transfer_ok (by simp) h.transfer
  obtain ⟨_, hsupply, hamount⟩ := Mint.mintTo_ok h.mint
  have hr : w.depositAmount u = r.amount.toNat := valueAt_of_lookup (hs.deposits u r h.found)
  have hsh : w.depositShares u = shares.toNat := by
    unfold depositShares
    rw [hr, hshares, hs.navPerShare]
  cases q with
  | pendingDeposits =>
    show (v.pendingDeposits.toNat : Int) = s.vault.pendingDeposits.toNat + -w.depositAmount u
    omega
  | pendingShares =>
    show (v.pendingWithdrawalShares.toNat : Int) = s.vault.pendingWithdrawalShares.toNat + 0
    rw [e]; simp
  | totalAssets =>
    show (v.totalAssets.toNat : Int) = s.vault.totalAssets.toNat + w.depositAmount u
    omega
  | epochOutflow =>
    show (v.epochOutflow.toNat : Int) = s.vault.epochOutflow.toNat + 0
    rw [e]; simp
  | shareSupply =>
    show (n.supply : Int) = s.shareMint.supply + w.depositShares u
    omega
  | depositToken k =>
    cases k with
    | escrow =>
      show (m.amount .escrow : Int) = s.depositMint.amount .escrow + -w.depositAmount u
      omega
    | vault =>
      show (m.amount .vault : Int) = s.depositMint.amount .vault + w.depositAmount u
      omega
    | wallet l =>
      show (m.amount (.wallet l) : Int) = s.depositMint.amount (.wallet l) + 0
      rw [hother _ (by simp) (by simp), add_zero]
  | shareToken k =>
    show (n.amount k : Int) =
      s.shareMint.amount k + if k = .wallet u then (w.depositShares u : Int) else 0
    rw [hamount, Function.update_apply]
    split
    · next hk => subst hk; omega
    · omega

theorem WithdrawalSettle.quantity (hs : SettledFrom w s) {r : WithdrawalRequest} {v : Vault}
    {amount : U64} {m n : SplMint} (h : s.WithdrawalSettle u r v amount m n) (q : Quantity) :
    ({ s with clock := now, vault := v, depositMint := m, shareMint := n
              withdrawalRequests := s.withdrawalRequests.erase u } : World).quantity q =
      s.quantity q + settleDelta w (.withdrawalSettle u) q := by
  obtain ⟨hpaid, hpending, houtflow, hassets, e⟩ := Vault.resolveWithdrawal_ok h.resolve
  obtain ⟨hle, _, hfrom, hto, hother⟩ := Mint.transfer_ok (by simp) h.transfer
  obtain ⟨hburn, hsupply, hamount⟩ := Mint.burn_ok h.burn
  have hback := s.shareMint.amount_le .escrow
  have hr : w.withdrawalShares u = r.shares.toNat :=
    valueAt_of_lookup (hs.withdrawals u r h.found)
  have hpay : w.withdrawalPayout u = amount.toNat := by
    unfold withdrawalPayout
    rw [hr, hpaid, hs.navPerShare]
  cases q with
  | pendingDeposits =>
    show (v.pendingDeposits.toNat : Int) = s.vault.pendingDeposits.toNat + 0
    rw [e]; simp
  | pendingShares =>
    show (v.pendingWithdrawalShares.toNat : Int) =
      s.vault.pendingWithdrawalShares.toNat + -w.withdrawalShares u
    omega
  | totalAssets =>
    show (v.totalAssets.toNat : Int) = s.vault.totalAssets.toNat + -w.withdrawalPayout u
    omega
  | epochOutflow =>
    show (v.epochOutflow.toNat : Int) = s.vault.epochOutflow.toNat + w.withdrawalPayout u
    omega
  | shareSupply =>
    show (n.supply : Int) = s.shareMint.supply + -w.withdrawalShares u
    omega
  | depositToken k =>
    cases k with
    | escrow =>
      show (m.amount .escrow : Int) = s.depositMint.amount .escrow + 0
      rw [hother _ (by simp) (by simp), add_zero]
    | vault =>
      show (m.amount .vault : Int) = s.depositMint.amount .vault + -w.withdrawalPayout u
      omega
    | wallet l =>
      show (m.amount (.wallet l) : Int) =
        s.depositMint.amount (.wallet l) + if l = u then (w.withdrawalPayout u : Int) else 0
      split
      · next hl => subst hl; omega
      · next hl => rw [hother _ (by simp) (by simpa using hl), add_zero]
  | shareToken k =>
    show (n.amount k : Int) =
      s.shareMint.amount k + if k = .escrow then -(w.withdrawalShares u : Int) else 0
    rw [hamount, Function.update_apply]
    split
    · next hk => subst hk; omega
    · omega

/-- One settlement. -/
theorem Change.settled (hs : SettledFrom w s) (he : e.isSettle = true) (h : Change s now e s') :
    SettledFrom w s' ∧ s'.quantity = s.quantity + settleDelta w e ∧
    (∀ k, s'.depositRequests.lookup k =
      if e.closedDeposit = some k then none else s.depositRequests.lookup k) ∧
    (∀ k, s'.withdrawalRequests.lookup k =
      if e.closedWithdrawal = some k then none else s.withdrawalRequests.lookup k) := by
  cases h with
  | @depositSettle u r v shares m n h =>
    obtain ⟨_, _, _, _, _, e⟩ := Vault.resolveDeposit_ok h.resolve
    refine ⟨⟨hs.key, hs.config, hs.managers, hs.strategies, ?_, ?_,
      fun x q hq => hs.deposits x q (lookup_of_erase hq), hs.withdrawals⟩,
      funext fun q => DepositSettle.quantity hs h q, fun k => ?_, fun k => rfl⟩
    · show v = _
      rw [e, hs.vault]
    · rw [← hs.depositSupply]
      exact Mint.transfer_supply h.transfer
    · show (s.depositRequests.erase u).lookup k = if some u = some k then none else _
      split
      · next hk => cases hk; exact Finmap.lookup_erase u _
      · next hk => exact Finmap.lookup_erase_ne fun hku => hk (congrArg some hku.symm)
  | @withdrawalSettle u r v amount m n h =>
    obtain ⟨_, _, _, _, e⟩ := Vault.resolveWithdrawal_ok h.resolve
    refine ⟨⟨hs.key, hs.config, hs.managers, hs.strategies, ?_, ?_, hs.deposits,
      fun x q hq => hs.withdrawals x q (lookup_of_erase hq)⟩,
      funext fun q => WithdrawalSettle.quantity hs h q, fun k => rfl, fun k => ?_⟩
    · show v = _
      rw [e, hs.vault]
    · rw [← hs.depositSupply]
      exact Mint.transfer_supply h.transfer
    · show (s.withdrawalRequests.erase u).lookup k = if some u = some k then none else _
      split
      · next hk => cases hk; exact Finmap.lookup_erase u _
      · next hk => exact Finmap.lookup_erase_ne fun hku => hk (congrArg some hku.symm)
  | _ => cases he

/-! ## Runs of settlements -/

/-- One processed resolve, by anyone at any clock. -/
def SettleStep (w : World) (tx : Tx) (w' : World) : Prop := w.Step tx w' ∧ tx.event.isSettle = true

/-- What a step pays into the wallet of `u`: shares, and deposit tokens. -/
def received (u : Pubkey) (t : Transition World Tx) : Int × Int :=
  (t.post.shareMint.amount (.wallet u) - t.pre.shareMint.amount (.wallet u),
    t.post.depositMint.amount (.wallet u) - t.pre.depositMint.amount (.wallet u))

theorem SettleStep.settled {tx : Tx} (wf : s.WellFormed) (hs : SettledFrom w s)
    (st : s.SettleStep tx s') : s'.WellFormed ∧ SettledFrom w s' ∧
      s'.quantity = s.quantity + settleDelta w tx.event ∧
      (∀ k, s'.depositRequests.lookup k =
        if tx.event.closedDeposit = some k then none else s.depositRequests.lookup k) ∧
      ∀ k, s'.withdrawalRequests.lookup k =
        if tx.event.closedWithdrawal = some k then none else s.withdrawalRequests.lookup k :=
  ⟨st.1.wellFormed wf, (process_change wf st.1).settled hs st.2⟩

theorem run_settledFrom (wf : w.WellFormed)
    (hr : Run SettleStep w h s) : s.WellFormed ∧ SettledFrom w s := by
  refine hr.inv (I := fun s => s.WellFormed ∧ SettledFrom w s) ⟨wf, .refl w⟩ fun _ _ _ hi st => ?_
  obtain ⟨hwf, hsettled, _⟩ := st.settled hi.1 hi.2
  exact ⟨hwf, hsettled⟩

theorem run_settled (wf : w.WellFormed)
    (hr : Run SettleStep w h s) {t : Transition World Tx} (ht : t ∈ h) :
    t.post.quantity = t.pre.quantity + settleDelta w t.label.event ∧
    (∀ k, t.post.depositRequests.lookup k =
      if t.label.event.closedDeposit = some k then none else t.pre.depositRequests.lookup k) ∧
    ∀ k, t.post.withdrawalRequests.lookup k =
      if t.label.event.closedWithdrawal = some k then none
      else t.pre.withdrawalRequests.lookup k := by
  obtain ⟨newer, older, rfl⟩ := List.append_of_mem ht
  obtain ⟨hpre, st, _⟩ := hr.split
  obtain ⟨hwf, hs⟩ := run_settledFrom wf hpre
  obtain ⟨_, _, h⟩ := st.settled hwf hs
  exact h

/-- What a settlement pays is read off the world before all settlements. -/
theorem received_eq {t : Transition World Tx}
    (h : t.post.quantity = t.pre.quantity + settleDelta w e) (u : Pubkey) :
    received u t =
      (settleDelta w e (.shareToken (.wallet u)), settleDelta w e (.depositToken (.wallet u))) := by
  have hshare : (t.post.shareMint.amount (.wallet u) : Int) =
      t.pre.shareMint.amount (.wallet u) + settleDelta w e (.shareToken (.wallet u)) :=
    congrFun h (.shareToken (.wallet u))
  have hdeposit : (t.post.depositMint.amount (.wallet u) : Int) =
      t.pre.depositMint.amount (.wallet u) + settleDelta w e (.depositToken (.wallet u)) :=
    congrFun h (.depositToken (.wallet u))
  exact Prod.ext (by unfold received; dsimp only; omega) (by unfold received; dsimp only; omega)

/-- Two worlds settled from the same one agree when their quantities and open requests do. -/
theorem SettledFrom.ext {w₁ w₂ : World} (h1 : SettledFrom w w₁) (h2 : SettledFrom w w₂)
    (hq : w₁.quantity = w₂.quantity)
    (hd : ∀ k, w₁.depositRequests.lookup k = w₂.depositRequests.lookup k)
    (hw : ∀ k, w₁.withdrawalRequests.lookup k = w₂.withdrawalRequests.lookup k) :
    { w₁ with clock := w₂.clock } = w₂ := by
  have field : ∀ {x y : U64}, (x.toNat : Int) = y.toNat → x = y := fun h =>
    BitVec.eq_of_toNat_eq (Int.ofNat_inj.1 h)
  have hvault : w₁.vault = w₂.vault := by
    calc w₁.vault
        = _ := h1.vault
      _ = { w.vault with
            pendingDeposits := w₂.vault.pendingDeposits
            pendingWithdrawalShares := w₂.vault.pendingWithdrawalShares
            totalAssets := w₂.vault.totalAssets
            epochOutflow := w₂.vault.epochOutflow } := by
          rw [field (congrFun hq .pendingDeposits), field (congrFun hq .pendingShares),
            field (congrFun hq .totalAssets), field (congrFun hq .epochOutflow)]
      _ = w₂.vault := h2.vault.symm
  have hdeposit : w₁.depositMint = w₂.depositMint := by
    refine Mint.ext ?_ (funext fun k => Int.ofNat_inj.1 (congrFun hq (.depositToken k)))
    rw [h1.depositSupply, h2.depositSupply]
  have hshare : w₁.shareMint = w₂.shareMint :=
    Mint.ext (Int.ofNat_inj.1 (congrFun hq .shareSupply))
      (funext fun k => Int.ofNat_inj.1 (congrFun hq (.shareToken k)))
  refine World.ext rfl ?_ ?_ ?_ hvault hdeposit hshare ?_ ?_ ?_
  · exact h1.key.trans h2.key.symm
  · exact h1.config.trans h2.config.symm
  · exact h1.managers.trans h2.managers.symm
  · exact Finmap.ext_lookup hd
  · exact Finmap.ext_lookup hw
  · exact h1.strategies.trans h2.strategies.symm

theorem mem_label_perm {β : Type} {f : Event → Option β} {h₁ h₂ : List (Transition World Tx)}
    (hperm : (h₁.map fun t => t.label.event).Perm (h₂.map fun t => t.label.event)) (k : β) :
    (∃ t ∈ h₁, f t.label.event = some k) ↔ ∃ t ∈ h₂, f t.label.event = some k := by
  have hmem : ∀ h : List (Transition World Tx), (∃ t ∈ h, f t.label.event = some k) ↔
      ∃ e ∈ h.map fun t => t.label.event, f e = some k := fun h => by simp
  rw [hmem, hmem]
  exact exists_congr fun e => and_congr_left' hperm.mem_iff

/-- The open requests are those the run did not close. -/
theorem run_closed (wf : w.WellFormed) (hr : Run SettleStep w h s) (k : Pubkey) :
    (s.depositRequests.lookup k = if ∃ t ∈ h, t.label.event.closedDeposit = some k then none
      else w.depositRequests.lookup k) ∧
    s.withdrawalRequests.lookup k = if ∃ t ∈ h, t.label.event.closedWithdrawal = some k then none
      else w.withdrawalRequests.lookup k := by
  constructor
  · exact hr.removed (g := fun w k => w.depositRequests.lookup k)
      (c := fun tx => tx.event.closedDeposit) (fun t ht => (run_settled wf hr ht).2.1) k
  · exact hr.removed (g := fun w k => w.withdrawalRequests.lookup k)
      (c := fun tx => tx.event.closedWithdrawal) (fun t ht => (run_settled wf hr ht).2.2) k

/-- Two runs of the same resolves in any order end in the same world. -/
theorem settled_eq {w₁ w₂ : World} {h₁ h₂ : List (Transition World Tx)} (wf : w.WellFormed)
    (hr₁ : Run SettleStep w h₁ w₁) (hr₂ : Run SettleStep w h₂ w₂)
    (hperm : (h₁.map fun t => t.label.event).Perm (h₂.map fun t => t.label.event)) :
    { w₁ with clock := w₂.clock } = w₂ := by
  refine (run_settledFrom wf hr₁).2.ext (run_settledFrom wf hr₂).2 ?_ (fun k => ?_) fun k => ?_
  · exact hr₁.tally_perm hr₂ (fun t ht => (run_settled wf hr₁ ht).1)
      (fun t ht => (run_settled wf hr₂ ht).1) hperm
  · rw [(run_closed wf hr₁ k).1, (run_closed wf hr₂ k).1]
    exact if_congr (mem_label_perm hperm k) rfl rfl
  · rw [(run_closed wf hr₁ k).2, (run_closed wf hr₂ k).2]
    exact if_congr (mem_label_perm hperm k) rfl rfl

/-- The same resolve pays the same in both runs. -/
theorem received_same {w₁ w₂ : World} {h₁ h₂ : List (Transition World Tx)} (wf : w.WellFormed)
    (hr₁ : Run SettleStep w h₁ w₁) (hr₂ : Run SettleStep w h₂ w₂) {t₁ t₂ : Transition World Tx}
    (ht₁ : t₁ ∈ h₁) (ht₂ : t₂ ∈ h₂) (he : t₁.label.event = t₂.label.event) (u : Pubkey) :
    received u t₁ = received u t₂ := by
  rw [received_eq (run_settled wf hr₁ ht₁).1, received_eq (run_settled wf hr₂ ht₂).1, he]

/-! ## Withdrawals alone -/

/-- The recorded NAV covers an open withdrawal of `u`. -/
def WithdrawalResolvable (w : World) (u : Pubkey) : Prop :=
  ∃ r, w.withdrawalRequests.lookup u = some r ∧ r.epoch < w.vault.navEpoch

theorem ix_of_event {tx : Tx} (h : tx.event = .withdrawalSettle u) :
    tx.ix = .withdrawalRequestResolve u := by
  unfold Tx.event at h
  split at h <;> cases h
  assumption

/-- What the resolve of a covered request needs and leaves, from the world `w` before all
settlements. -/
theorem exists_settleStep {tx : Tx} (sound : s.Sound) (hcov : s.window.Covered NAV_SCALE U64_MAX)
    (hs : SettledFrom w s) (hopen : w.WithdrawalsOpen) (he : tx.event = .withdrawalSettle u)
    (hres : s.WithdrawalResolvable u) (hidle : w.withdrawalPayout u ≤ s.idle) :
    ∃ s', s.process tx = .ok s' ∧ s'.window.Covered NAV_SCALE U64_MAX ∧ SettledFrom w s' ∧
      s'.idle + w.withdrawalPayout u = s.idle ∧
      ∀ v, v ≠ u → s.WithdrawalResolvable v → s'.WithdrawalResolvable v := by
  obtain ⟨r, found, hlt⟩ := hres
  have hopen' : WithdrawalsOpen { s with clock := tx.now } := by
    unfold WithdrawalsOpen at *
    show s.config.status ≠ _ ∧ s.vault.status ≠ _ ∧ ¬ s.vault.isWithdrawalPaused
    rw [hs.config, hs.vault]
    exact hopen
  have hpay : assetsFor NAV_SCALE r.shares.toNat s.vault.navPerShare.toNat =
      w.withdrawalPayout u := by
    unfold withdrawalPayout withdrawalShares
    rw [valueAt_of_lookup (hs.withdrawals u r found), hs.navPerShare]
  obtain ⟨s', hs'⟩ := (withdrawalRequestResolve_accepted_iff (sound.atClock tx.now) hcov
    found hlt).2 ⟨hopen', hpay.trans_le hidle⟩
  have hp : s.process tx = .ok s' := by
    unfold process
    rw [ix_of_event he]
    exact hs'
  have hch := process_change sound.wellFormed hp
  rw [he] at hch
  obtain ⟨hsettled, hq, _, hwithdrawals⟩ := hch.settled hs rfl
  have hnav := (hch.sameNav nofun).navEpoch
  refine ⟨s', hp, ?_, hsettled, ?_, fun v hv ⟨q, hq, hlt⟩ => ⟨q, ?_, by rwa [hnav]⟩⟩
  · cases hch with
    | withdrawalSettle h => exact Window.Step.covered hcov h.window_redeem
  · have hvault : (s'.idle : Int) = s.idle + -w.withdrawalPayout u :=
      congrFun hq (.depositToken .vault)
    omega
  · rw [hwithdrawals]
    show (if some u = some v then none else _) = some q
    rw [if_neg fun h => hv (Option.some.inj h).symm]
    exact hq

/-- The withdrawals of distinct covered requests go through in any order while the idle
balance lasts. -/
theorem runAll_withdrawals {us : List Pubkey} {txs : List Tx} (h0 : w₀.Fresh)
    (hopen : w.WithdrawalsOpen) (hr : Run Step w₀ h s) (hcov : s.window.Covered NAV_SCALE U64_MAX)
    (hs : SettledFrom w s) (hnodup : us.Nodup)
    (he : txs.map Tx.event = us.map Event.withdrawalSettle)
    (hres : ∀ u ∈ us, s.WithdrawalResolvable u)
    (hidle : (us.map w.withdrawalPayout).sum ≤ s.idle) (l : List (Transition World Tx)) :
    (runAll process s l txs).isOk = true := by
  induction txs generalizing us s h l with
  | nil => rfl
  | cons tx txs ih =>
    cases us with
    | nil => cases he
    | cons u us =>
      rw [List.map_cons, List.map_cons, List.cons.injEq] at he
      rw [List.map_cons, List.sum_cons] at hidle
      obtain ⟨hu, hus⟩ := List.nodup_cons.1 hnodup
      obtain ⟨s', hp, hcov', hs', hleft, hkeep⟩ := exists_settleStep (run_sound h0 hr) hcov hs hopen
        he.1 (hres u List.mem_cons_self) (by omega)
      simp only [runAll, hp]
      refine ih (hr.snoc hp) hcov' hs' hus he.2 (fun v hv => ?_) (by omega) _
      have hne : v ≠ u := fun hvu => hu (hvu ▸ hv)
      exact hkeep v hne (hres v (List.mem_cons_of_mem _ hv))

/-! ## Main result -/

/-- Two orders of the same resolves that go through pay every request the same and end in
the same world, their clocks apart. When nothing pauses withdrawals and the idle balance
covers all payouts, the withdrawals go through in every order. -/
theorem settlement_order_independent (h0 : w₀.Fresh) (hc : 0 ≤ w₀.clock.val)
    (hr : Run TimedStep w₀ h w) :
    (∀ w₁ w₂ h₁ h₂, Run SettleStep w h₁ w₁ → Run SettleStep w h₂ w₂ →
      (h₁.map fun t => t.label.event).Perm (h₂.map fun t => t.label.event) →
      { w₁ with clock := w₂.clock } = w₂ ∧
      ∀ t₁ ∈ h₁, ∀ t₂ ∈ h₂, t₁.label.event = t₂.label.event →
        ∀ u, received u t₁ = received u t₂) ∧
    ∀ (us : List Pubkey) txs, w.WithdrawalsOpen → us.Nodup →
      txs.map Tx.event = us.map Event.withdrawalSettle → (∀ u ∈ us, w.WithdrawalResolvable u) →
      (us.map w.withdrawalPayout).sum ≤ w.idle → (runAll process w [] txs).isOk = true := by
  have wf : w.WellFormed := run_wellFormed h0 (TimedStep.run_step hr)
  constructor
  · intro w₁ w₂ h₁ h₂ hr₁ hr₂ hperm
    refine ⟨settled_eq wf hr₁ hr₂ hperm, ?_⟩
    intro t₁ ht₁ t₂ ht₂ he u
    exact received_same wf hr₁ hr₂ ht₁ ht₂ he u
  · intro us txs hopen hnodup he hres hidle
    exact runAll_withdrawals h0 hopen (TimedStep.run_step hr) (run_window_covered h0 hc hr)
      (.refl w) hnodup he hres hidle []

/-! Alice and Bob withdraw, and Bob deposits, before the NAV of epoch 3. -/

def queueTxs : List Tx := sampleTxs.take 5 ++ [
  (Instruction.shareTransfer (.wallet alice.key) (.wallet bob.key) 200).sentBy alice 28802,
  (Instruction.depositTransfer (.wallet alice.key) (.wallet bob.key) 50).sentBy alice 28803,
  (Instruction.withdrawalRequestCreate 300 0).sentBy alice 28804,
  (Instruction.withdrawalRequestCreate 100 0).sentBy bob 28805,
  (Instruction.depositRequestCreate 50 (.ok ()) 0).sentBy bob 28806,
  (Instruction.navUpdate 1507).sentBy updater 43200]

def queue : World := final process sample queueTxs

def resolveAlice : Tx := (Instruction.withdrawalRequestResolve alice.key).sentBy bob 43201
def resolveBob : Tx := (Instruction.withdrawalRequestResolve bob.key).sentBy bob 43202
def resolveBobDeposit : Tx := (Instruction.depositRequestResolve bob.key).sentBy alice 43203

def aliceFirst : List Tx := [resolveAlice, resolveBobDeposit, resolveBob]
def bobFirst : List Tx := [resolveBob, resolveAlice, resolveBobDeposit]

theorem run_settle {txs : List Tx} (h1 : (runAll process w [] txs).isOk = true)
    (h2 : (history process w txs).all (fun t => t.label.event.isSettle) = true) :
    Run SettleStep w (history process w txs) (final process w txs) := by
  have hr := run_final h1
  exact hr.of_forall fun t ht => ⟨hr.step_of_mem ht, List.all_eq_true.1 h2 t ht⟩

theorem queue_timed : Run TimedStep sample (history process sample queueTxs) queue :=
  timed_final (by rfl) (by rfl)

theorem queue_resolvable (u : Pubkey) (hu : u ∈ [bob.key, alice.key]) :
    queue.WithdrawalResolvable u := by
  simp only [List.mem_cons, List.not_mem_nil, or_false] at hu
  rcases hu with rfl | rfl
  · exact ⟨⟨bob.key, sample.key, 100, 2, ⟨28805, by decide, by decide⟩, 0⟩, by rfl, by decide⟩
  · exact ⟨⟨alice.key, sample.key, 300, 2, ⟨28804, by decide, by decide⟩, 0⟩, by rfl, by decide⟩

theorem settlement_order_independent_sample :
    { final process queue aliceFirst with clock := (final process queue bobFirst).clock } =
      final process queue bobFirst ∧
    (runAll process queue [] [resolveBob, resolveAlice]).isOk = true := by
  obtain ⟨hsame, hall⟩ := settlement_order_independent sample_fresh (by decide) queue_timed
  constructor
  · have hperm := (List.perm_append_singleton (Event.withdrawalSettle bob.key)
      [.depositSettle bob.key, .withdrawalSettle alice.key]).symm
    have hone : Run SettleStep queue (history process queue aliceFirst) _ :=
      run_settle (by rfl) (by rfl)
    have hother : Run SettleStep queue (history process queue bobFirst) _ :=
      run_settle (by rfl) (by rfl)
    exact (hsame _ _ _ _ hone hother hperm).1
  · exact hall [bob.key, alice.key] _ ⟨by decide, by decide, by decide⟩ (by decide) (by rfl)
      queue_resolvable (by decide)

/-! The guardian pauses the vault before any of them is resolved. -/

def pausedTxs : List Tx := queueTxs ++ [Instruction.vaultPause.sentBy admin 43201]

theorem paused_withdrawals_fail : ¬ ∀ (w₀ w : World) (h : List (Transition World Tx))
    (us : List Pubkey) (txs : List Tx), w₀.Fresh → 0 ≤ w₀.clock.val → Run TimedStep w₀ h w →
    us.Nodup → txs.map Tx.event = us.map Event.withdrawalSettle →
    (∀ u ∈ us, w.WithdrawalResolvable u) → (us.map w.withdrawalPayout).sum ≤ w.idle →
    (runAll process w [] txs).isOk = true := by
  intro hall
  have hok := hall sample _ _ [alice.key] [resolveAlice] sample_fresh (by decide)
    (timed_final (by rfl : (runAll process sample [] pausedTxs).isOk = true) (by rfl))
    (by decide) (by rfl) (fun u hu => ?_) (by decide)
  · exact absurd hok (by decide)
  · rw [List.mem_singleton] at hu
    subst hu
    exact ⟨⟨alice.key, sample.key, 300, 2, ⟨28804, by decide, by decide⟩, 0⟩, by rfl, by decide⟩

end

end World

end HedgeVault
