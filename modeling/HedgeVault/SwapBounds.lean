import HedgeVault.Genesis
import HedgeVault.Instructions.JupiterSwap
import HedgeVault.RouteAgreement

/-!
# What a swap may move

Jupiter leaves any balances it likes, so an accepted swap is only as bounded as
`settleSwap` checks (`Settled`). It checks both legs of an exact-out route and the output of
an exact-in one. What an exact-in route spends is not compared with the amount:
`legs_bounded_iff` says for which calls that can go wrong.
-/

namespace HedgeVault

open Lib

theorem minAmountOut_eq_ok {q x : U64} {cap : U16} : minAmountOut q cap = .ok x ↔
    cap.toNat ≤ 10000 ∧ x.toNat = q.toNat * (10000 - cap.toNat) / 10000 := by
  simp only [minAmountOut, bind_eq_ok, safeSub_eq_ok, mulDiv_eq_ok, safeToU64_eq_ok,
    asU128_toNat_u64, asU128_toNat_u16, maxBps_toNat]
  have hq := q.isLt
  have hcap := cap.isLt
  constructor
  · rintro ⟨kept, hkept, r, ⟨_, _, hr⟩, hx⟩
    have hk : kept.toNat = 10000 - cap.toNat := by omega
    refine ⟨by omega, ?_⟩
    rw [← hx, ← hr, hk]
  · rintro ⟨hle, hx⟩
    obtain ⟨kept, hkept, e⟩ := exists_safeSub (a := MAX_BPS) (b := cap) (by rw [maxBps_toNat]; omega)
    rw [safeSub_eq_ok, maxBps_toNat] at hkept
    have hk : kept.toNat = 10000 - cap.toNat := by omega
    have hlt : q.toNat * kept.toNat < 2 ^ 128 :=
      Nat.lt_of_le_of_lt (Nat.mul_le_mul hq.le (show kept.toNat ≤ 10000 by omega)) (by decide)
    refine ⟨kept, hkept, asU128 x, ⟨hlt, by decide, ?_⟩, asU128_toNat_u64 x⟩
    rw [asU128_toNat_u64, hx, hk]

theorem maxAmountIn_ok {q x : U64} {cap : U16} (h : maxAmountIn q cap = .ok x) :
    x.toNat = q.toNat * (10000 + cap.toNat) / 10000 := by
  simp only [maxAmountIn, bind_eq_ok, safeAdd_eq_ok, mulDiv_eq_ok, safeToU64_eq_ok,
    asU128_toNat_u64, asU128_toNat_u16, maxBps_toNat] at h
  obtain ⟨allowed, hallowed, r, ⟨_, _, hr⟩, hx⟩ := h
  rw [← hx, ← hr, hallowed]

/-- What an accepted settlement has compared. -/
structure Settled (variant : SwapVariant) (routeArgs : RouteArgs) (cap : U16)
    (accounts : SwapAccounts) (left : SwapOutcome) (s : JupiterSwapped) : Prop where
  received : s.destinationReceived.toNat + accounts.destinationBalance.toNat =
    left.destinationBalance.toNat
  spent : s.sourceSpent.toNat + left.sourceBalance.toNat = accounts.sourceBalance.toNat
  exactIn : variant.mode = .exactIn → cap.toNat ≤ 10000 ∧
    routeArgs.quotedAmount.toNat * (10000 - cap.toNat) / 10000 ≤ s.destinationReceived.toNat
  exactOut : variant.mode = .exactOut → routeArgs.amount.toNat ≤ s.destinationReceived.toNat ∧
    s.sourceSpent.toNat ≤ routeArgs.quotedAmount.toNat * (10000 + cap.toNat) / 10000

section

variable {variant : SwapVariant} {routeArgs : RouteArgs} {cap : U16} {accounts : SwapAccounts}
  {left : SwapOutcome} {s : JupiterSwapped}

theorem settleSwap_ok (h : settleSwap variant routeArgs cap accounts left = .ok s) :
    Settled variant routeArgs cap accounts left s := by
  simp only [settleSwap, bind_eq_ok, safeSub_eq_ok] at h
  obtain ⟨received, hr, spent, hs, h⟩ := h
  cases hmode : variant.mode with
  | exactIn =>
    simp only [hmode, bind_eq_ok, minAmountOut_eq_ok, validate_eq_ok, pure_eq_ok] at h
    obtain ⟨least, ⟨hcap, hleast⟩, _, hle, rfl⟩ := h
    refine ⟨hr, hs, fun _ => ⟨hcap, ?_⟩, fun hno => ?_⟩
    · exact hleast ▸ hle
    · rw [hmode] at hno
      cases hno
  | exactOut =>
    simp only [hmode, bind_eq_ok, validate_eq_ok, pure_eq_ok] at h
    obtain ⟨_, hge, most, hmost, _, hle, rfl⟩ := h
    refine ⟨hr, hs, fun hno => ?_, fun _ => ⟨hge, ?_⟩⟩
    · rw [hmode] at hno
      cases hno
    · exact maxAmountIn_ok hmost ▸ hle

/-- An exact-in route settles on everything spent for the least output. -/
theorem exists_settleSwap (hmode : variant.mode = .exactIn) (hcap : cap.toNat ≤ 10000)
    (hfits : accounts.destinationBalance.toNat +
      routeArgs.quotedAmount.toNat * (10000 - cap.toNat) / 10000 ≤ U64_MAX) :
    ∃ left, settleSwap variant routeArgs cap accounts left =
      .ok ⟨accounts.sourceBalance, left.destinationBalance - accounts.destinationBalance⟩ := by
  unfold U64_MAX at hfits
  have hlt : routeArgs.quotedAmount.toNat * (10000 - cap.toNat) / 10000 < 2 ^ 64 := by omega
  obtain ⟨least, hleast⟩ : ∃ x : U64,
      x.toNat = routeArgs.quotedAmount.toNat * (10000 - cap.toNat) / 10000 :=
    ⟨BitVec.ofNatLT _ hlt, by simp⟩
  have hsum : accounts.destinationBalance.toNat + least.toNat < 2 ^ 64 := by omega
  have hleft : (accounts.destinationBalance + least).toNat =
      accounts.destinationBalance.toNat + least.toNat := by
    rw [BitVec.toNat_add, Nat.mod_eq_of_lt hsum]
  have hgot : accounts.destinationBalance + least - accounts.destinationBalance = least := by
    apply BitVec.eq_of_toNat_eq
    rw [BitVec.toNat_sub_of_le (BitVec.le_def.2 (by omega))]
    omega
  have hreceived : safeSub (accounts.destinationBalance + least) accounts.destinationBalance =
      .ok least := safeSub_eq_ok.2 (by omega)
  have hspent : safeSub accounts.sourceBalance 0 = .ok accounts.sourceBalance :=
    safeSub_eq_ok.2 (by simp)
  have hmin : minAmountOut routeArgs.quotedAmount cap = .ok least :=
    minAmountOut_eq_ok.2 ⟨hcap, hleast⟩
  refine ⟨⟨0, accounts.destinationBalance + least⟩, ?_⟩
  simp only [settleSwap, hreceived, hspent, hmode, hmin, ok_bind, hgot]
  rw [validate_of (BitVec.le_refl least)]
  rfl

end

/-- A call of `jupiter_swap` in a world. -/
structure SwapCall where
  world : World
  mints : VaultMints
  authority : Signer
  strategyAccount : Pubkey
  accounts : SwapAccounts
  args : SwapArgs

namespace SwapCall

variable (c : SwapCall)

def route : Result (Strategy × SwapVariant × RouteArgs) :=
  c.world.jupiterSwapRoute c.mints c.authority c.strategyAccount c.accounts c.args

def run (call : Result SwapOutcome) : Result (World × JupiterSwapped) :=
  c.world.jupiterSwap c.mints c.authority c.strategyAccount c.accounts c.args call

def cap : Nat := c.world.config.effectiveMaxSlippageBps.toNat

/-- The quote of the route. -/
def quoted : Nat := (quotedAtEnd c.args.swapData).toNat

/-- Both legs are within what the call authorises. -/
def LegsBounded (variant : SwapVariant) (s : JupiterSwapped) : Prop :=
  match variant.mode with
  | .exactIn => s.sourceSpent.toNat ≤ c.args.amount.toNat ∧
      c.quoted * (10000 - c.cap) / 10000 ≤ s.destinationReceived.toNat
  | .exactOut => c.args.amount.toNat ≤ s.destinationReceived.toNat ∧
      s.sourceSpent.toNat ≤ c.quoted * (10000 + c.cap) / 10000

/-- The call reaches Jupiter with an exact-in route, the vault holds more than the amount and
can take the least output. -/
structure Overspendable : Prop where
  reaches : ∃ strategy variant routeArgs, c.route = .ok (strategy, variant, routeArgs) ∧
    variant.mode = .exactIn
  cap_le : c.cap ≤ 10000
  holds_more : c.args.amount.toNat < c.accounts.sourceBalance.toNat
  fits : c.accounts.destinationBalance.toNat + c.quoted * (10000 - c.cap) / 10000 ≤ U64_MAX

variable {c} {call : Result SwapOutcome} {w' : World} {s : JupiterSwapped}
  {strategy : Strategy} {variant : SwapVariant} {routeArgs : RouteArgs}

theorem route_ok (h : c.route = .ok (strategy, variant, routeArgs)) :
    SwapVariant.fromSwapData c.args.swapData = .ok variant ∧
      Checked variant c.args.swapData c.args.amount c.world.config.effectiveMaxSlippageBps
        routeArgs := by
  simp only [route, World.jupiterSwapRoute, bind_eq_ok, pure_eq_ok] at h
  obtain ⟨_, _, _, _, _, _, _, _, _, _, _, _, _, _, _, _, v, hv, r, hr, _, _, hpair⟩ := h
  cases hpair
  exact ⟨hv, checkAmountAndSlippage_ok hv hr⟩

theorem run_ok (h : c.run call = .ok (w', s)) : ∃ strategy variant routeArgs left,
    c.route = .ok (strategy, variant, routeArgs) ∧
      Settled variant routeArgs c.world.config.effectiveMaxSlippageBps c.accounts left s := by
  simp only [run, World.jupiterSwap, bind_eq_ok, pure_eq_ok] at h
  obtain ⟨⟨strategy, variant, routeArgs⟩, hroute, left, _, swapped, hsettle, hpair⟩ := h
  cases hpair
  exact ⟨strategy, variant, routeArgs, left, hroute, settleSwap_ok hsettle⟩

theorem exists_run {left : SwapOutcome} (hroute : c.route = .ok (strategy, variant, routeArgs))
    (hsettle : settleSwap variant routeArgs c.world.config.effectiveMaxSlippageBps c.accounts left =
      .ok s) : ∃ w', c.run (.ok left) = .ok (w', s) := by
  refine ⟨{ c.world with
    strategies := c.world.strategies.insert c.strategyAccount
      { strategy with lastActionTs := c.world.clock } }, ?_⟩
  unfold run World.jupiterSwap
  change c.route >>= _ = _
  rw [hroute, ok_bind]
  change settleSwap _ _ _ _ _ >>= _ = _
  rw [hsettle]
  rfl

/-- Only the spending of an exact-in route is left open. -/
theorem legsBounded_of_spent (hv : SwapVariant.fromSwapData c.args.swapData = .ok variant)
    (h : c.run call = .ok (w', s))
    (hspent : variant.mode = .exactIn → s.sourceSpent.toNat ≤ c.args.amount.toNat) :
    c.LegsBounded variant s := by
  obtain ⟨_, v, routeArgs, left, hroute, hsettled⟩ := run_ok h
  obtain ⟨hv', hchecked⟩ := route_ok hroute
  obtain rfl : variant = v := Except.ok.inj (hv.symm.trans hv')
  have hquoted : routeArgs.quotedAmount.toNat = c.quoted := congrArg BitVec.toNat hchecked.quoted_eq
  unfold LegsBounded
  cases hmode : variant.mode with
  | exactIn =>
    refine ⟨hspent hmode, ?_⟩
    rw [← hquoted]
    exact (hsettled.exactIn hmode).2
  | exactOut =>
    obtain ⟨hge, hle⟩ := hsettled.exactOut hmode
    have hplain : variant.usesTokenLedger = false := by
      cases variant <;> first | rfl | cases hmode
    rw [← hquoted, (hchecked.amount_eq hplain).1]
    exact ⟨hge, hle⟩

/-- Whatever Jupiter leaves, both legs of an accepted swap are bounded, if and only if the call
is not `Overspendable`; and in every accepted swap all is bounded but what an exact-in route
spends. -/
theorem legs_bounded_iff (c : SwapCall) :
    ((∀ call w' s variant, SwapVariant.fromSwapData c.args.swapData = .ok variant →
        c.run call = .ok (w', s) → c.LegsBounded variant s) ↔ ¬ c.Overspendable) ∧
    (∀ call w' s variant, SwapVariant.fromSwapData c.args.swapData = .ok variant →
        c.run call = .ok (w', s) →
        (variant.mode = .exactIn → s.sourceSpent.toNat ≤ c.args.amount.toNat) →
        c.LegsBounded variant s) := by
  refine ⟨⟨?_, ?_⟩, fun _ _ _ _ => legsBounded_of_spent⟩
  · intro hall hover
    obtain ⟨strategy, variant, routeArgs, hroute, hmode⟩ := hover.reaches
    obtain ⟨hv, hchecked⟩ := route_ok hroute
    have hquoted : routeArgs.quotedAmount.toNat = c.quoted :=
      congrArg BitVec.toNat hchecked.quoted_eq
    have hfits : c.accounts.destinationBalance.toNat +
        routeArgs.quotedAmount.toNat * (10000 - c.cap) / 10000 ≤ U64_MAX := by
      rw [hquoted]
      exact hover.fits
    obtain ⟨left, hsettle⟩ := exists_settleSwap hmode hover.cap_le hfits
    obtain ⟨w', hrun⟩ := exists_run hroute hsettle
    have hlegs := hall _ _ _ variant hv hrun
    unfold LegsBounded at hlegs
    rw [hmode] at hlegs
    have hle : c.accounts.sourceBalance.toNat ≤ c.args.amount.toNat := hlegs.1
    have hmore := hover.holds_more
    omega
  · intro hno call w' s variant hv hrun
    apply legsBounded_of_spent hv hrun
    intro hmode
    obtain ⟨strategy, v, routeArgs, left, hroute, hsettled⟩ := run_ok hrun
    obtain ⟨hv', hchecked⟩ := route_ok hroute
    obtain rfl : variant = v := Except.ok.inj (hv.symm.trans hv')
    obtain ⟨hcap, hleast⟩ := hsettled.exactIn hmode
    have hquoted : routeArgs.quotedAmount.toNat = c.quoted :=
      congrArg BitVec.toNat hchecked.quoted_eq
    have hreceived := hsettled.received
    have hspent := hsettled.spent
    have hmax := toNat_le_max left.destinationBalance
    by_contra hmore
    apply hno
    refine ⟨⟨strategy, variant, routeArgs, hroute, hmode⟩, hcap, by omega, ?_⟩
    rw [← hquoted]
    change _ + routeArgs.quotedAmount.toNat *
      (10000 - c.world.config.effectiveMaxSlippageBps.toNat) / 10000 ≤ _
    omega

/-- A vault with 5000 idle and a strategy for the mint 70, about to swap 1000. -/
def sample : SwapCall where
  world := final World.process World.sample [
    (Instruction.depositTransfer (.wallet World.alice.key) .vault 5000).sentBy World.alice 100,
    (Instruction.initializeStrategy (.jupiterSwap 70) (.ok ())).sentBy World.manager 101]
  mints := ⟨60, 61⟩
  authority := World.manager
  strategyAccount := 70
  accounts := {
    sourceMint := 60
    destinationMint := 70
    vaultSourceTokenAccount := 80
    sourceBalance := 5000
    destinationBalance := 0
    remainingAccounts := [] }
  args := ⟨sampleRouteData, 1000, 50⟩

theorem exact_in_overspends : ∃ w', sample.run (.ok ⟨0, 1940⟩) = .ok (w', ⟨5000, 1940⟩) ∧
    SwapVariant.fromSwapData sample.args.swapData = .ok .route ∧
    ¬ sample.LegsBounded .route ⟨5000, 1940⟩ :=
  ⟨_, rfl, rfl, fun h => absurd h.1 (by decide)⟩

end SwapCall

end HedgeVault
