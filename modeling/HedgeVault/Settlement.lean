import HedgeVault.Lib.Stamp
import HedgeVault.Reachable

/-!
# Settlement prices

Which NAV post a resolved request is priced by. The epoch of a request is a stamp
on it (`Change.deposit_stamp`, `Change.withdrawal_stamp`): every create that
contributed to it was made in that epoch. The NAV record is what the last post wrote
(`run_last_post`). A request resolves only when the epoch of that post is a later
one, so the post came after every contribution.
-/

namespace HedgeVault

open Lib

def Tx.isNavPost (tx : Tx) : Bool :=
  match tx.ix with
  | .navUpdate _ => true
  | .navOverride _ => true
  | _ => false

theorem Tx.event_of_isNavPost {tx : Tx} (h : tx.isNavPost = true) :
    ∃ totalAssets overridden, tx.event = .navPost totalAssets overridden := by
  obtain ⟨signer, now, ix⟩ := tx
  cases ix <;> first | exact ⟨_, _, rfl⟩ | cases h

theorem Tx.event_ne_of_isNavPost {tx : Tx} (h : tx.isNavPost = false) (totalAssets : U64)
    (overridden : Bool) : tx.event ≠ .navPost totalAssets overridden := by
  obtain ⟨signer, now, ix⟩ := tx
  cases ix <;> first | (intro he; cases he; done) | cases h

namespace World

/-- The last NAV post of a history. -/
def lastPost (h : List (Transition World Tx)) : Option (Transition World Tx) :=
  h.find? (·.label.isNavPost)

/-- The creates that contributed to the deposit request `u` has open. -/
def depositCreates (u : Pubkey) (h : List (Transition World Tx)) : List (Transition World Tx) :=
  contributions (fun tx => tx.event.depositMove) u h

/-- The creates that contributed to the withdrawal request `u` has open. -/
def withdrawalCreates (u : Pubkey) (h : List (Transition World Tx)) :
    List (Transition World Tx) :=
  contributions (fun tx => tx.event.withdrawalMove) u h

def depositEpoch (w : World) (u : Pubkey) : Option U64 :=
  (w.depositRequests.lookup u).map (·.epoch)

def withdrawalEpoch (w : World) (u : Pubkey) : Option U64 :=
  (w.withdrawalRequests.lookup u).map (·.epoch)

section

variable {w w' w₀ : World} {now : I64} {e : Event} {u : Pubkey} {h : List (Transition World Tx)}

/-! ## The epoch of a request -/

theorem epoch_insert {ρ : Type} (f : ρ → U64) (m : Finmap fun _ : Pubkey => ρ) (u : Pubkey) (r : ρ) :
    (fun k => ((m.insert u r).lookup k).map f) =
      Function.update (fun k => (m.lookup k).map f) u (some (f r)) := by
  funext k
  rw [Function.update_apply]
  by_cases hk : k = u
  · subst hk
    rw [if_pos rfl, Finmap.lookup_insert]; rfl
  · rw [if_neg hk, Finmap.lookup_insert_of_ne _ hk]

theorem epoch_erase {ρ : Type} (f : ρ → U64) (m : Finmap fun _ : Pubkey => ρ) (u : Pubkey) :
    (fun k => ((m.erase u).lookup k).map f) =
      Function.update (fun k => (m.lookup k).map f) u none := by
  funext k
  rw [Function.update_apply]
  by_cases hk : k = u
  · subst hk
    rw [if_pos rfl, Finmap.lookup_erase]; rfl
  · rw [if_neg hk, Finmap.lookup_erase_ne hk]

theorem Change.deposit_stamp (h : Change w now e w') :
    StampStep w.depositEpoch (Vault.epoch now) e.depositMove w'.depositEpoch := by
  cases h with
  | @depositPut u amount r v m h =>
    refine ⟨?_, ?_⟩
    · intro y hy
      obtain ⟨q, hq, rfl⟩ := Option.map_eq_some_iff.1 hy
      exact h.same_epoch q hq
    · rw [← h.epoch]
      exact epoch_insert (·.epoch) w.depositRequests u r
  | @depositRefund u r v m h => exact epoch_erase (·.epoch) w.depositRequests u
  | @depositSettle u r v shares m s h => exact epoch_erase (·.epoch) w.depositRequests u
  | _ => exact rfl

theorem Change.withdrawal_stamp (h : Change w now e w') :
    StampStep w.withdrawalEpoch (Vault.epoch now) e.withdrawalMove w'.withdrawalEpoch := by
  cases h with
  | @withdrawalPut u shares r v s h =>
    refine ⟨?_, ?_⟩
    · intro y hy
      obtain ⟨q, hq, rfl⟩ := Option.map_eq_some_iff.1 hy
      exact h.same_epoch q hq
    · rw [← h.epoch]
      exact epoch_insert (·.epoch) w.withdrawalRequests u r
  | @withdrawalRefund u r v s h => exact epoch_erase (·.epoch) w.withdrawalRequests u
  | @withdrawalSettle u r v amount m s h => exact epoch_erase (·.epoch) w.withdrawalRequests u
  | _ => exact rfl

/-- Every contribution to the open request was made in its epoch. -/
theorem run_deposit_stamped (h0 : w₀.Fresh) (hr : Run Step w₀ h w) (u : Pubkey) :
    Stamped (fun tx : Tx => Vault.epoch tx.now) (w.depositEpoch u) (depositCreates u h) := by
  refine hr.contributions_stamped (fun k => ?_) (fun t ht => (run_change h0 hr ht).deposit_stamp) u
  show (w₀.depositRequests.lookup k).map _ = none
  rw [h0.1.depositRequests, Finmap.lookup_empty]; rfl

theorem run_withdrawal_stamped (h0 : w₀.Fresh) (hr : Run Step w₀ h w) (u : Pubkey) :
    Stamped (fun tx : Tx => Vault.epoch tx.now) (w.withdrawalEpoch u) (withdrawalCreates u h) := by
  refine hr.contributions_stamped (fun k => ?_)
    (fun t ht => (run_change h0 hr ht).withdrawal_stamp) u
  show (w₀.withdrawalRequests.lookup k).map _ = none
  rw [h0.1.withdrawalRequests, Finmap.lookup_empty]; rfl

/-! ## The post behind a price -/

theorem run_sameNav (h0 : w₀.Fresh) (hr : Run Step w₀ h w) {t : Transition World Tx} (ht : t ∈ h)
    (hp : t.label.isNavPost = false) : SameNav t.pre.vault t.post.vault :=
  (run_change h0 hr ht).sameNav (Tx.event_ne_of_isNavPost hp)

/-- A post records its epoch and its time. -/
theorem Change.posted (h : Change w now e w')
    (he : ∃ totalAssets overridden, e = .navPost totalAssets overridden) :
    w.vault.navEpoch < Vault.epoch now ∧ w'.vault.navEpoch = Vault.epoch now ∧
      w'.vault.lastNavTs = now := by
  obtain ⟨T, o, rfl⟩ := he
  cases h with
  | navPost _ h =>
    have post := Vault.updateNav_ok h
    exact ⟨post.epoch_lt, post.navEpoch, post.lastNavTs⟩

/-- Once a NAV was posted, the record is the last post's. -/
theorem run_last_post (h0 : w₀.Fresh) (hr : Run Step w₀ h w) (hpos : 0 < w.vault.navEpoch.toNat) :
    ∃ p, lastPost h = some p ∧ w.vault.navPerShare = p.post.vault.navPerShare ∧
      w.vault.navEpoch = Vault.epoch p.label.now := by
  have hprice := hr.last_write (f := fun w : World => w.vault.navPerShare)
    (p := fun t => t.label.isNavPost) fun t ht hp => (run_sameNav h0 hr ht hp).navPerShare
  have hepoch := hr.last_write (f := fun w : World => w.vault.navEpoch)
    (p := fun t => t.label.isNavPost) fun t ht hp => (run_sameNav h0 hr ht hp).navEpoch
  cases hlast : h.find? (fun t => t.label.isNavPost) with
  | none =>
    rw [hlast] at hepoch
    obtain ⟨_, args, _, e⟩ := h0
    have hzero : w.vault.navEpoch.toNat = 0 := by
      rw [show w.vault.navEpoch = w₀.vault.navEpoch from hepoch, e]; rfl
    omega
  | some p =>
    rw [hlast] at hprice hepoch
    have hp : p.label.isNavPost = true :=
      List.find?_some (p := fun t : Transition World Tx => t.label.isNavPost) hlast
    have hmem := List.mem_of_find?_eq_some hlast
    obtain ⟨_, hnew, _⟩ := (run_change h0 hr hmem).posted (Tx.event_of_isNavPost hp)
    exact ⟨p, hlast, hprice, (show w.vault.navEpoch = p.post.vault.navEpoch from hepoch).trans hnew⟩

/-- The NAV epoch never falls below that of an earlier post. -/
theorem run_epoch_le (h0 : w₀.Fresh) (hr : Run Step w₀ h w) {p : Transition World Tx} (hp : p ∈ h)
    (hpost : p.label.isNavPost = true) :
    (Vault.epoch p.label.now).toNat ≤ w.vault.navEpoch.toNat := by
  induction hr with
  | nil => cases hp
  | @snoc h s s' tx hr st ih =>
    have hch := process_change (run_wellFormed h0 hr) st
    rcases List.mem_cons.1 hp with rfl | hp
    · obtain ⟨_, hnew, _⟩ := hch.posted (Tx.event_of_isNavPost hpost)
      show _ ≤ s'.vault.navEpoch.toNat
      rw [hnew]
    · refine (ih hp).trans ?_
      cases htx : tx.isNavPost with
      | true =>
        obtain ⟨hlt, hnew, _⟩ := hch.posted (Tx.event_of_isNavPost htx)
        have hlt' := BitVec.lt_def.1 hlt
        rw [hnew]
        omega
      | false => rw [(hch.sameNav (Tx.event_ne_of_isNavPost htx)).navEpoch]

/-- A clock that starts nonnegative and does not go back stays nonnegative. -/
theorem run_nonneg (h0 : w₀.Fresh) (hc : 0 ≤ w₀.clock.val) (hr : Run TimedStep w₀ h w) :
    0 ≤ w.clock.val ∧ ∀ t ∈ h, 0 ≤ t.label.now.val := by
  induction hr with
  | nil => exact ⟨hc, fun t ht => by cases ht⟩
  | @snoc h s s' tx hr st ih =>
    obtain ⟨hs, ih⟩ := ih
    have hnow : 0 ≤ tx.now.val := hs.trans st.1
    refine ⟨?_, ?_⟩
    · have hch := process_change (run_wellFormed h0 (TimedStep.run_step hr)) st.2
      rw [hch.clock_eq]
      exact hnow
    · intro t ht
      rcases List.mem_cons.1 ht with rfl | ht
      · exact hnow
      · exact ih t ht

/-! ## Resolve and cancel -/

/-- A resolved deposit was covered, and mints at the recorded NAV. -/
theorem Change.depositSettle_minted (h : Change w now (.depositSettle u) w') :
    ∃ r, w.depositRequests.lookup u = some r ∧ r.epoch.toNat < w.vault.navEpoch.toNat ∧
      w'.shareMint.supply = w.shareMint.supply +
        sharesFor NAV_SCALE r.amount.toNat w.vault.navPerShare.toNat := by
  have hmoved := h.deposit_moved
  cases h with
  | @depositSettle u r v shares m s h =>
    have howed : w.depositBook.owed u = r.amount.toNat := valueAt_of_lookup h.found
    refine ⟨r, h.found, h.resolvable, ?_⟩
    rw [← howed]
    exact hmoved.2.2.1

/-- A resolved withdrawal was covered, and is paid at the recorded NAV. -/
theorem Change.withdrawalSettle_paid (h : Change w now (.withdrawalSettle u) w') :
    ∃ r, w.withdrawalRequests.lookup u = some r ∧ r.epoch.toNat < w.vault.navEpoch.toNat ∧
      w'.idle + assetsFor NAV_SCALE r.shares.toNat w.vault.navPerShare.toNat = w.idle := by
  have hmoved := h.withdrawal_moved
  cases h with
  | @withdrawalSettle u r v amount m s h =>
    have howed : w.withdrawalBook.owed u = r.shares.toNat := valueAt_of_lookup h.found
    refine ⟨r, h.found, h.resolvable, ?_⟩
    rw [← howed]
    exact hmoved.2.2.1

theorem depositEpoch_of_lookup {r : DepositRequest} (h : w.depositRequests.lookup u = some r) :
    w.depositEpoch u = some r.epoch := by
  unfold depositEpoch
  rw [h]; rfl

theorem withdrawalEpoch_of_lookup {r : WithdrawalRequest}
    (h : w.withdrawalRequests.lookup u = some r) : w.withdrawalEpoch u = some r.epoch := by
  unfold withdrawalEpoch
  rw [h]; rfl

theorem depositRequestCancel_refused (wf : w.WellFormed) {owner : Signer} {r : DepositRequest}
    (found : w.depositRequests.lookup owner.key = some r)
    (hlt : r.epoch.toNat < w.vault.navEpoch.toNat) (hnav : w.vault.navPerShare ≠ 0) :
    w.process ⟨owner, now, .depositRequestCancel⟩ = .error (.custom .requestNotCancellable) := by
  obtain ⟨ha, _, hk, _⟩ := wf.deposit _ r found
  have hnot : ¬ (w.vault.navPerShare = 0 ∨ w.vault.navEpoch ≤ r.epoch) := by
    rintro (h | h)
    · exact hnav h
    · have hle := BitVec.le_def.1 h
      omega
  show depositRequestCancel { w with clock := now } owner = _
  unfold depositRequestCancel
  rw [found]
  simp only [load, DepositRequest.validateAuthority, DepositRequest.validateVault,
    DepositRequest.isCancellable, validate, ok_bind, ha, hk, hnot, if_true, if_false]
  rfl

theorem withdrawalRequestCancel_refused (wf : w.WellFormed) {owner : Signer}
    {r : WithdrawalRequest} (found : w.withdrawalRequests.lookup owner.key = some r)
    (hlt : r.epoch.toNat < w.vault.navEpoch.toNat) :
    w.process ⟨owner, now, .withdrawalRequestCancel⟩ =
      .error (.custom .requestNotCancellable) := by
  obtain ⟨ha, _, hk, _⟩ := wf.withdrawal _ r found
  have hnot : ¬ w.vault.navEpoch ≤ r.epoch := by
    intro h
    have hle := BitVec.le_def.1 h
    omega
  show withdrawalRequestCancel { w with clock := now } owner = _
  unfold withdrawalRequestCancel
  rw [found]
  simp only [load, WithdrawalRequest.validateAuthority, WithdrawalRequest.validateVault,
    WithdrawalRequest.isCancellable, validate, ok_bind, ha, hk, hnot, if_true, if_false]
  rfl

/-! ## No settlement at a stale price -/

/-- The NAV of `w` was posted by `p`, the last post of the history, at a later time and
in a later epoch than every step of `cs`. -/
structure PricedBy (p : Transition World Tx) (h : List (Transition World Tx)) (w : World)
    (cs : List (Transition World Tx)) : Prop where
  last : lastPost h = some p
  price : w.vault.navPerShare = p.post.vault.navPerShare
  later : ∀ c ∈ cs, c.label.now.val < p.label.now.val ∧
    Vault.epoch c.label.now < Vault.epoch p.label.now

/-- A NAV epoch past the stamp of `cs` is that of a post after all of them. -/
theorem run_pricedBy (h0 : w₀.Fresh) (hc : 0 ≤ w₀.clock.val) (hr : Run TimedStep w₀ h w) {x : U64}
    {cs : List (Transition World Tx)} (hsub : cs ⊆ h)
    (hstamp : ∀ c ∈ cs, Vault.epoch c.label.now = x) (hres : x.toNat < w.vault.navEpoch.toNat) :
    ∃ p, PricedBy p h w cs := by
  obtain ⟨p, hlast, hprice, hepoch⟩ := run_last_post h0 (TimedStep.run_step hr) (by omega)
  obtain ⟨_, hnonneg⟩ := run_nonneg h0 hc hr
  have hp := List.mem_of_find?_eq_some hlast
  refine ⟨p, hlast, hprice, ?_⟩
  intro c hmem
  rw [← hstamp c hmem, hepoch] at hres
  exact ⟨Vault.lt_of_epoch_lt (hnonneg c (hsub hmem)) (hnonneg p hp) hres, hres⟩

/-- What holds of the prices along a history. -/
structure NoStalePrice (h : List (Transition World Tx)) (w : World) : Prop where
  deposit : ∀ newer t older u, h = newer ++ t :: older → t.label.event = .depositSettle u →
    ∃ p r, PricedBy p older t.pre (depositCreates u older) ∧
      t.pre.depositRequests.lookup u = some r ∧
      t.post.shareMint.supply = t.pre.shareMint.supply +
        sharesFor NAV_SCALE r.amount.toNat p.post.vault.navPerShare.toNat
  withdrawal : ∀ newer t older u, h = newer ++ t :: older →
    t.label.event = .withdrawalSettle u →
    ∃ p r, PricedBy p older t.pre (withdrawalCreates u older) ∧
      t.pre.withdrawalRequests.lookup u = some r ∧
      t.post.idle + assetsFor NAV_SCALE r.shares.toNat p.post.vault.navPerShare.toNat = t.pre.idle
  /-- Only the two NAV instructions write the NAV record. -/
  navRecord : ∀ t ∈ h, t.label.isNavPost = false → SameNav t.pre.vault t.post.vault
  /-- A covering post ends the owner's cancel while the NAV is nonzero. -/
  depositCancel : ∀ u r p, w.depositRequests.lookup u = some r → p ∈ h →
    p.label.isNavPost = true →
    (∀ c ∈ depositCreates u h, Vault.epoch c.label.now < Vault.epoch p.label.now) →
    w.vault.navPerShare ≠ 0 → ∀ owner now, owner.key = u →
    w.process ⟨owner, now, .depositRequestCancel⟩ = .error (.custom .requestNotCancellable)
  withdrawalCancel : ∀ u r p, w.withdrawalRequests.lookup u = some r → p ∈ h →
    p.label.isNavPost = true →
    (∀ c ∈ withdrawalCreates u h, Vault.epoch c.label.now < Vault.epoch p.label.now) →
    ∀ owner now, owner.key = u →
    w.process ⟨owner, now, .withdrawalRequestCancel⟩ = .error (.custom .requestNotCancellable)

/-- A post after the contributions to a request left a NAV epoch past the request's. -/
theorem run_covered_epoch (h0 : w₀.Fresh) (hr : Run Step w₀ h w) {p : Transition World Tx}
    (hp : p ∈ h) (hpost : p.label.isNavPost = true) {x : U64} {cs : List (Transition World Tx)}
    (hstamp : Stamped (fun tx : Tx => Vault.epoch tx.now) (some x) cs)
    (hcover : ∀ c ∈ cs, Vault.epoch c.label.now < Vault.epoch p.label.now) :
    x.toNat < w.vault.navEpoch.toNat := by
  obtain ⟨hne, hall⟩ := hstamp.2 x rfl
  obtain ⟨c, hmem⟩ := List.exists_mem_of_ne_nil cs hne
  have hlt := BitVec.lt_def.1 (hcover c hmem)
  have hle := run_epoch_le h0 hr hp hpost
  rw [show Vault.epoch c.label.now = x from hall c hmem] at hlt
  omega

/-- A resolved deposit mints at the price of a post after all creates that made it. -/
theorem deposit_priced (h0 : w₀.Fresh) (hc : 0 ≤ w₀.clock.val) (hr : Run TimedStep w₀ h w)
    {tx : Tx} (st : w.TimedStep tx w') (he : tx.event = .depositSettle u) :
    ∃ p r, PricedBy p h w (depositCreates u h) ∧ w.depositRequests.lookup u = some r ∧
      w'.shareMint.supply = w.shareMint.supply +
        sharesFor NAV_SCALE r.amount.toNat p.post.vault.navPerShare.toNat := by
  have hr' := TimedStep.run_step hr
  have hch := process_change (run_wellFormed h0 hr') st.2
  rw [he] at hch
  obtain ⟨r, found, hlt, hminted⟩ := hch.depositSettle_minted
  have hstamp := ((run_deposit_stamped h0 hr' u).2 r.epoch (depositEpoch_of_lookup found)).2
  obtain ⟨p, hp⟩ := run_pricedBy h0 hc hr (contributions_subset u) hstamp hlt
  rw [hp.price] at hminted
  exact ⟨p, r, hp, found, hminted⟩

theorem withdrawal_priced (h0 : w₀.Fresh) (hc : 0 ≤ w₀.clock.val) (hr : Run TimedStep w₀ h w)
    {tx : Tx} (st : w.TimedStep tx w') (he : tx.event = .withdrawalSettle u) :
    ∃ p r, PricedBy p h w (withdrawalCreates u h) ∧ w.withdrawalRequests.lookup u = some r ∧
      w'.idle + assetsFor NAV_SCALE r.shares.toNat p.post.vault.navPerShare.toNat = w.idle := by
  have hr' := TimedStep.run_step hr
  have hch := process_change (run_wellFormed h0 hr') st.2
  rw [he] at hch
  obtain ⟨r, found, hlt, hpaid⟩ := hch.withdrawalSettle_paid
  have hstamp := ((run_withdrawal_stamped h0 hr' u).2 r.epoch (withdrawalEpoch_of_lookup found)).2
  obtain ⟨p, hp⟩ := run_pricedBy h0 hc hr (contributions_subset u) hstamp hlt
  rw [hp.price] at hpaid
  exact ⟨p, r, hp, found, hpaid⟩

theorem no_stale_price (h0 : w₀.Fresh) (hc : 0 ≤ w₀.clock.val) (hr : Run TimedStep w₀ h w) :
    NoStalePrice h w := by
  have hr' := TimedStep.run_step hr
  have wf := run_wellFormed h0 hr'
  refine ⟨?_, ?_, fun t ht hp => run_sameNav h0 hr' ht hp, ?_, ?_⟩
  · rintro newer t older u rfl he
    obtain ⟨hpre, st, _⟩ := hr.split
    exact deposit_priced h0 hc hpre st he
  · rintro newer t older u rfl he
    obtain ⟨hpre, st, _⟩ := hr.split
    exact withdrawal_priced h0 hc hpre st he
  · rintro u r p found hp hpost hcover hnav owner now rfl
    have hstamp := run_deposit_stamped h0 hr' owner.key
    rw [depositEpoch_of_lookup found] at hstamp
    have hlt := run_covered_epoch h0 hr' hp hpost hstamp hcover
    exact depositRequestCancel_refused wf found hlt hnav
  · rintro u r p found hp hpost hcover owner now rfl
    have hstamp := run_withdrawal_stamped h0 hr' owner.key
    rw [withdrawalEpoch_of_lookup found] at hstamp
    have hlt := run_covered_epoch h0 hr' hp hpost hstamp hcover
    exact withdrawalRequestCancel_refused wf found hlt

theorem no_stale_price_sample : NoStalePrice (sampleHistory 8) (sampleAfter 8) :=
  no_stale_price sample_fresh (by decide) sample_timed

end

end World

end HedgeVault
