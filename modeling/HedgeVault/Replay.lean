import HedgeVault.Audit
import HedgeVault.Payments

/-!
# The log tells everything

A strategy handler stamps its record and emits one event about it (`followed_of_acted`); there is
one lemma for each handler, beside those of the program's other instructions. What happens
outside the program writes no record. So the log of any part of any run, replayed from a
snapshot, is all the program keeps but balances (`log_replays`), and each of its records is in
order by the records before it (`log_audited`).
-/

namespace HedgeVault

open Lib

/-- Stamps are not what the log relies on. -/
theorem World.Restamped.legible {w u : World} (hs : World.Restamped w u) (hu : u.Legible) :
    w.Legible := by
  have hvault : u.vault = w.vault ∧ u.key = w.key := by
    rw [hs.eq]
    exact ⟨rfl, rfl⟩
  refine ⟨?_, ?_, ?_, ?_⟩
  · have wf := hu.wellFormed
    rw [hs.eq] at wf
    exact ⟨wf.deposit, wf.withdrawal⟩
  · rw [← hvault.1]
    exact hu.mark
  · rw [← hvault.1]
    exact hu.flags
  · intro k s hk
    obtain ⟨s', hs', hv, _, ht⟩ := hs.found hk
    rw [← hv, ← ht, ← hvault.2]
    exact hu.stored k s' hs'

namespace Custody

variable {V : Venues} {c c' c₀ : Custody} {signer : Signer} {k : Pubkey} {w w' : World}
  {ix : CustodyInstruction} {newer older : List (Transition Custody CustodyTx)}

/-- The events of the handler pass the audit and take the mirror along. -/
def Followed (V : Venues) (c : Custody) (signer : Signer) (ix : CustodyInstruction)
    (c' : Custody) : Prop :=
  Accepts Mirror.Admits Mirror.apply c.world.mirror
    ((emitted V c c' signer ix).map (⟨c.world.clock, signer.key, ·⟩)) c'.world.mirror

/-! ## Acting on a record -/

theorem Acted.mirror (ha : Acted V w signer ix k w') {a : StrategyAction} (hk : a.strategy = k) :
    w.mirror.acted a w.clock = w'.mirror := by
  obtain ⟨s, hs, _, rfl⟩ := ha.stamped
  have hfound : w.mirror.strategies.lookup a.strategy = some s := hk ▸ hs
  unfold Mirror.acted
  rw [hfound, hk]
  rfl

/-- Payments are not in the mirror. -/
theorem Worked.mirror (hw : Worked V c signer ix w c') : c'.world.mirror = w.mirror := by
  obtain ⟨c₁, hsettled, hworld, _⟩ := hw.settled
  obtain ⟨⟨d, s, hmints⟩, _, _⟩ := settleAll_frame hsettled
  rw [hworld, hmints]
  rfl

theorem Acted.operational (ha : Acted V w signer ix k w') (hexit : ix.isExit = false)
    (hphoenix : ix.isPhoenixExit = false) : w.mirror.Operational :=
  ⟨ha.normalProtocol hphoenix, ha.normalVault hexit⟩

theorem Acted.withdrawable (ha : Acted V w signer ix k w') : w.mirror.Withdrawable := ha.notPaused

theorem Acted.removable (ha : Acted V w signer ix k w') (hphoenix : ix.isPhoenixExit = false) :
    w.mirror.Removable :=
  ⟨ha.normalProtocol hphoenix, ha.notPaused.2⟩

theorem Acted.admits (ha : Acted V w signer ix k w') (hl : w.Legible) {s : Strategy}
    (hs : w.strategies.lookup k = some s) {gate : Prop} (hgate : gate)
    {fits : StrategyType → Prop} (hfits : fits s.strategyType) {time : I64} {e : ProgramEvent} :
    w.mirror.AdmitsAction ⟨time, signer.key, e⟩ ⟨w.key, k, s.id⟩ gate fits :=
  ⟨ha.authority, rfl, hgate, s, hs, (hl.stored k s hs).1, rfl, hfits⟩

/-- A handler that acted on its record emits one event about it. -/
theorem followed_of_acted {event : StrategyAction → ProgramEvent}
    (hw : Worked V c signer ix w c') (ha : Acted V c.world signer ix k w)
    (hemitted : emitted V c c' signer ix = c.actionEvent k event)
    (happly : ∀ (m : Mirror) a, m.apply ⟨c.world.clock, signer.key, event a⟩ =
      m.acted a c.world.clock)
    (hadmits : ∀ s, c.world.strategies.lookup k = some s → ix.Fits V s.strategyType →
      c.world.mirror.Admits ⟨c.world.clock, signer.key, event ⟨c.world.key, k, s.id⟩⟩) :
    Followed V c signer ix c' := by
  obtain ⟨s, hs, hfits, _⟩ := ha.stamped
  have hevent : c.actionEvent k event = [event ⟨c.world.key, k, s.id⟩] := by
    unfold actionEvent
    rw [hs]
    rfl
  unfold Followed
  rw [hemitted, hevent]
  refine .single (hadmits s hs hfits) ?_
  rw [happly, ha.mirror rfl, hw.mirror]

/-! ## The handlers -/

theorem swapTarget_ne {mints : VaultMints} {source destination target : Pubkey}
    (h : swapTarget mints source destination = .ok target) : source ≠ destination := by
  simp only [swapTarget, bind_eq_ok, validate_eq_ok] at h
  obtain ⟨_, hne, _⟩ := h
  exact hne

theorem jupiterSwap_mints {source destination vaultAccount : Pubkey}
    {remaining : List AccountInfo} {args : SwapArgs} {call : Result RouteOutcome}
    (h : c.jupiterSwap V signer k source destination vaultAccount remaining args call = .ok c') :
    source ≠ destination ∧ ∃ route, call = .ok route := by
  simp only [jupiterSwap, World.jupiterSwap, World.jupiterSwapRoute, bind_eq_ok] at h
  obtain ⟨_, ⟨_, ⟨_, _, _, _, _, _, _, _, _, htarget, _⟩, _⟩, route, hcall, _⟩ := h
  exact ⟨swapTarget_ne htarget, route, hcall⟩

theorem jupiterSwap_followed (hl : c.world.Legible) {source destination vaultAccount : Pubkey}
    {remaining : List AccountInfo} {args : SwapArgs} {call : Result RouteOutcome}
    (h : c.jupiterSwap V signer k source destination vaultAccount remaining args call = .ok c') :
    Followed V c signer (.jupiterSwap k source destination vaultAccount remaining args call)
      c' := by
  obtain ⟨w, hw⟩ := jupiterSwap_worked h
  have hacted : Acted V c.world signer _ k w := hw.acted
  obtain ⟨hne, route, rfl⟩ := jupiterSwap_mints h
  apply followed_of_acted hw hacted
  · dsimp only [emitted]
  · intro m a
    rfl
  · intro s hs hfits
    obtain ⟨target, hty, hsides⟩ := hfits
    obtain rfl : target = k := by
      have hkey := (hl.stored k s hs).2
      rw [hty] at hkey
      exact hkey
    refine ⟨hacted.admits hl hs (hacted.operational rfl rfl) hty, ?_, hne⟩
    rcases hsides with ⟨_, htarget⟩ | ⟨_, htarget⟩
    · exact .inr htarget.symm
    · exact .inl htarget.symm

theorem dlmmAddLiquidity_followed (hl : c.world.Legible) {position : Pubkey} {x y : U64}
    {call : Result DlmmOutcome} (h : c.dlmmAddLiquidity V signer position call = .ok c') :
    Followed V c signer (.dlmmAddLiquidity position x y call) c' := by
  obtain ⟨w, hw⟩ := dlmmAddLiquidity_worked h
  have hacted : Acted V c.world signer _ position w := hw.acted
  simp only [dlmmAddLiquidity, bind_eq_ok] at h
  obtain ⟨_, _, outcome, rfl, _⟩ := h
  apply followed_of_acted hw hacted
  · dsimp only [emitted]
  · intro m a
    rfl
  · intro s hs hfits
    exact hacted.admits hl hs (hacted.operational rfl rfl) hfits

theorem dlmmRemoveLiquidity_followed (hl : c.world.Legible) {position : Pubkey} {bps : U16}
    {call : Result DlmmOutcome} (h : c.dlmmRemoveLiquidity V signer position call = .ok c') :
    Followed V c signer (.dlmmRemoveLiquidity position bps call) c' := by
  obtain ⟨w, hw⟩ := dlmmRemoveLiquidity_worked h
  have hacted : Acted V c.world signer _ position w := hw.acted
  simp only [dlmmRemoveLiquidity, bind_eq_ok] at h
  obtain ⟨_, _, outcome, rfl, _⟩ := h
  apply followed_of_acted hw hacted
  · dsimp only [emitted]
  · intro m a
    rfl
  · intro s hs hfits
    exact hacted.admits hl hs (hacted.removable rfl) hfits

/-- The fee of the event is a tenth of what was claimed. -/
theorem treasuryAmount_toNat (claimed : U64) :
    (treasuryAmount claimed).toNat = claimed.toNat / 10 := by
  unfold treasuryAmount
  rw [treasuryFee_eq]
  exact treasuryShare_toNat claimed

theorem treasuryAmount_retained (claimed : U64) :
    (claimed - treasuryAmount claimed).toNat + (treasuryAmount claimed).toNat = claimed.toNat := by
  have hle : (treasuryAmount claimed).toNat ≤ claimed.toNat := by
    rw [treasuryAmount_toNat]
    omega
  rw [BitVec.toNat_sub_of_le hle]
  omega

theorem dlmmClaimFee_followed (hl : c.world.Legible) {position treasury : Pubkey}
    {call : Result DlmmOutcome} (h : c.dlmmClaimFee V signer position treasury call = .ok c') :
    Followed V c signer (.dlmmClaimFee position treasury call) c' := by
  obtain ⟨w, hw⟩ := dlmmClaimFee_worked h
  have hacted : Acted V c.world signer _ position w := hw.acted
  simp only [dlmmClaimFee, bind_eq_ok] at h
  obtain ⟨_, _, outcome, rfl, _⟩ := h
  apply followed_of_acted hw hacted
  · dsimp only [emitted]
  · intro m a
    rfl
  · intro s hs hfits
    exact ⟨hacted.admits hl hs (hacted.removable rfl) hfits, treasuryAmount_toNat _,
      treasuryAmount_toNat _, treasuryAmount_retained _, treasuryAmount_retained _⟩

theorem phoenixDepositFunds_followed (hl : c.world.Legible) {t : Pubkey} {amount : U64}
    {call : Result PhoenixOutcome} (h : c.phoenixDepositFunds V signer t amount call = .ok c') :
    Followed V c signer (.phoenixDepositFunds t amount call) c' := by
  obtain ⟨w, hw⟩ := phoenixDepositFunds_worked h
  have hacted : Acted V c.world signer _ t w := hw.acted
  simp only [phoenixDepositFunds, bind_eq_ok, validate_eq_ok] at h
  obtain ⟨_, _, _, hpos, _⟩ := h
  apply followed_of_acted hw hacted
  · dsimp only [emitted]
  · intro m a
    rfl
  · intro s hs hfits
    exact ⟨hacted.admits hl hs (hacted.operational rfl rfl) hfits, hpos⟩

theorem phoenixWithdrawFunds_followed (hl : c.world.Legible) {t : Pubkey} {amount : U64}
    {call : Result PhoenixOutcome} (h : c.phoenixWithdrawFunds V signer t amount call = .ok c') :
    Followed V c signer (.phoenixWithdrawFunds t amount call) c' := by
  obtain ⟨w, hw⟩ := phoenixWithdrawFunds_worked h
  have hacted : Acted V c.world signer _ t w := hw.acted
  simp only [phoenixWithdrawFunds, bind_eq_ok, validate_eq_ok] at h
  obtain ⟨_, _, _, hpos, outcome, rfl, _, hwhole, _⟩ := h
  apply followed_of_acted hw hacted
  · dsimp only [emitted]
  · intro m a
    rfl
  · intro s hs hfits
    refine ⟨hacted.admits hl hs hacted.withdrawable hfits, hpos, ?_⟩
    by_cases hzero : outcome.received = 0
    · rw [if_pos (decide_eq_true hzero)]
      exact hzero
    · rw [if_neg (by simpa using hzero)]
      exact hwhole.resolve_right hzero

theorem phoenixEmberWithdraw_followed (hl : c.world.Legible) {t : Pubkey}
    (h : c.phoenixEmberWithdraw V signer t = .ok c') :
    Followed V c signer (.phoenixEmberWithdraw t) c' := by
  obtain ⟨w, hw⟩ := phoenixEmberWithdraw_worked h
  have hacted : Acted V c.world signer _ t w := hw.acted
  simp only [phoenixEmberWithdraw, bind_eq_ok, validate_eq_ok] at h
  obtain ⟨_, _, _, hpos, _⟩ := h
  apply followed_of_acted hw hacted
  · dsimp only [emitted]
  · intro m a
    rfl
  · intro s hs hfits
    exact ⟨hacted.admits hl hs hacted.withdrawable hfits, hpos⟩

theorem phoenixPlaceLimitOrder_followed (hl : c.world.Legible) {t orderbook : Pubkey}
    {params : PhoenixLimitOrderParams} {call : Result OrderOutcome}
    (h : c.phoenixPlaceLimitOrder V signer t call = .ok c') :
    Followed V c signer (.phoenixPlaceLimitOrder t orderbook params call) c' := by
  obtain ⟨w, hw⟩ := phoenixPlaceLimitOrder_worked h
  have hacted : Acted V c.world signer _ t w := hw.acted
  simp only [phoenixPlaceLimitOrder, bind_eq_ok] at h
  obtain ⟨_, _, outcome, rfl, _⟩ := h
  apply followed_of_acted hw hacted
  · dsimp only [emitted]
  · intro m a
    rfl
  · intro s hs hfits
    refine ⟨hacted.admits hl hs ?_ hfits, fun _ => rfl⟩
    have hkind : params.kind ≠ .market := by
      unfold PhoenixLimitOrderParams.kind
      split <;> decide
    rw [if_neg fun hno => hkind hno.1]
    exact hacted.operational rfl rfl

theorem phoenixPlaceMarketOrder_followed (hl : c.world.Legible) {t orderbook : Pubkey}
    {params : PhoenixMarketOrderParams} {call : Result OrderOutcome}
    (h : c.phoenixPlaceMarketOrder V signer t params call = .ok c') :
    Followed V c signer (.phoenixPlaceMarketOrder t orderbook params call) c' := by
  obtain ⟨w, hw⟩ := phoenixPlaceMarketOrder_worked h
  have hacted : Acted V c.world signer _ t w := hw.acted
  simp only [phoenixPlaceMarketOrder, bind_eq_ok] at h
  obtain ⟨_, _, outcome, rfl, _⟩ := h
  apply followed_of_acted hw hacted
  · dsimp only [emitted]
  · intro m a
    rfl
  · intro s hs hfits
    refine ⟨hacted.admits hl hs ?_ hfits, fun hno => absurd rfl hno⟩
    cases hreduce : params.reduceOnly with
    | true => exact (if_pos ⟨rfl, rfl⟩).mpr hacted.withdrawable
    | false =>
      exact (if_neg fun hno => Bool.false_ne_true hno.2).mpr (hacted.operational hreduce hreduce)

theorem phoenixCancelOrders_followed (hl : c.world.Legible) {t orderbook : Pubkey}
    {mode : PhoenixCancelMode} {call : Result PhoenixOutcome}
    (h : c.phoenixCancelOrders V signer t call = .ok c') :
    Followed V c signer (.phoenixCancelOrders t orderbook mode call) c' := by
  obtain ⟨w, hw⟩ := phoenixCancelOrders_worked h
  have hacted : Acted V c.world signer _ t w := hw.acted
  apply followed_of_acted hw hacted
  · dsimp only [emitted]
  · intro m a
    rfl
  · intro s hs hfits
    exact hacted.admits hl hs hacted.withdrawable hfits

/-! ## The other steps -/

/-- The checks of an opened strategy are not in its event. -/
theorem emitted_seen (ix : Instruction) :
    World.emitted w w' signer (seen ix) = World.emitted w w' signer ix := by
  cases ix <;> rfl

theorem execute_followed {ix : Instruction} (hl : c.world.Legible) (hl' : c'.world.Legible)
    (h : c.execute V signer ix = .ok c') : Followed V c signer (.program ix) c' := by
  obtain ⟨w', hexecuted, rfl⟩ := execute_ok h
  have st : c.world.Step ⟨signer, c.world.clock, seen ix⟩ w' := hexecuted.executed
  have hfollowed : World.Followed c.world ⟨signer, c.world.clock, seen ix⟩ w' :=
    World.Step.followed hl hl' st
  unfold World.Followed World.logged at hfollowed
  rw [emitted_seen] at hfollowed
  exact hfollowed

theorem closeStrategy_followed {program : TokenProgram} (hl : c.world.Legible)
    (hl' : c'.world.Legible) (h : c.closeStrategy V signer k program = .ok c') :
    Followed V c signer (.closeStrategy k program) c' := by
  obtain ⟨_, w', _, _, st, _, rfl⟩ := closeStrategy_ok h
  have hfollowed :
      World.Followed c.world ⟨signer, c.world.clock, .vaultCloseStrategy k (.ok ())⟩ w' :=
    World.Step.followed hl hl' st
  exact hfollowed

/-- What acts on no record is no handler of the program. -/
theorem outside_followed (hw : Worked V c signer ix w c') (hrecord : ix.record = none)
    (hemitted : emitted V c c' signer ix = []) : Followed V c signer ix c' := by
  have hacted := hw.acted
  rw [hrecord] at hacted
  unfold Followed
  rw [hemitted, hw.mirror, hacted]
  exact .nil _

theorem run_followed_step (hl : c.world.Legible) (hl' : c'.world.Legible)
    (h : run V c signer ix = .ok c') : Followed V c signer ix c' := by
  cases ix with
  | program ix' => exact execute_followed hl hl' h
  | closeStrategy k program => exact closeStrategy_followed hl hl' h
  | jupiterSwap => exact jupiterSwap_followed hl h
  | dlmmAddLiquidity => exact dlmmAddLiquidity_followed hl h
  | dlmmRemoveLiquidity => exact dlmmRemoveLiquidity_followed hl h
  | dlmmClaimFee => exact dlmmClaimFee_followed hl h
  | phoenixDepositFunds => exact phoenixDepositFunds_followed hl h
  | phoenixWithdrawFunds => exact phoenixWithdrawFunds_followed hl h
  | phoenixEmberWithdraw => exact phoenixEmberWithdraw_followed hl h
  | phoenixPlaceLimitOrder => exact phoenixPlaceLimitOrder_followed hl h
  | phoenixPlaceMarketOrder => exact phoenixPlaceMarketOrder_followed hl h
  | phoenixCancelOrders => exact phoenixCancelOrders_followed hl h
  | phoenixUpdate trader outcome =>
    obtain ⟨w, hw⟩ := phoenixUpdate_worked h
    exact outside_followed hw rfl rfl
  | donate account amount =>
    obtain ⟨w, hw⟩ := donate_worked h
    exact outside_followed hw rfl rfl

/-! ## Runs -/

theorem run_legible (h0 : c₀.world.Fresh) (hr : Run (Step V) c₀ older c) : c.world.Legible := by
  obtain ⟨_, u, hru, _, hs⟩ := run_follows hr
  exact hs.legible (World.run_legible h0 hru)

/-- The log of a run, from any snapshot on, is accepted. -/
theorem run_followed (h0 : c₀.world.Fresh) (hsnap : Run (Step V) c₀ older c)
    (hr : Run (Step V) c newer c') :
    Accepts Mirror.Admits Mirror.apply c.world.mirror (journal (logged V) newer)
      c'.world.mirror := by
  have hstep : ∀ h s tx s', Run (Step V) c h s → Step V s tx s' →
      Accepts Mirror.Admits Mirror.apply s.world.mirror (logged V ⟨s, tx, s'⟩)
        s'.world.mirror := by
    intro h s tx s' hs st
    have hbefore := hsnap.trans hs
    have hl := run_legible h0 hbefore
    have hclock : World.Legible { s.world with clock := tx.now } :=
      ⟨⟨hl.wellFormed.deposit, hl.wellFormed.withdrawal⟩, hl.mark, hl.flags, hl.stored⟩
    exact run_followed_step (c := { s with world := { s.world with clock := tx.now } }) hclock
      (run_legible h0 (hbefore.snoc st)) st
  exact hr.accepts hstep

/-- Every record of the log passes the audit against the replay of the records before it. -/
theorem log_audited (h0 : c₀.world.Fresh) (hsnap : Run (Step V) c₀ older c)
    (hr : Run (Step V) c newer c') {before after : List LogRecord} {l : LogRecord}
    (hl : journal (logged V) newer = before ++ l :: after) :
    (before.foldl Mirror.apply c.world.mirror).Admits l := by
  have ha := run_followed h0 hsnap hr
  rw [hl] at ha
  exact ha.admitted

/-! ## A sample log -/

open World (manager admin)

/-- The sample run with a claim of fees, from its fourth transaction on. -/
def sampleRest : List (Transition Custody CustodyTx) :=
  history (process sampleVenues) (sampleAfter (feeTxs.take 3)) (feeTxs.drop 3)

theorem sample_start :
    Run (Step sampleVenues) sample (sampleHistory (feeTxs.take 3)) (sampleAfter (feeTxs.take 3)) :=
  run_final (by rfl)

theorem sample_rest : Run (Step sampleVenues) (sampleAfter (feeTxs.take 3)) sampleRest
    (final (process sampleVenues) (sampleAfter (feeTxs.take 3)) (feeTxs.drop 3)) :=
  run_final (by rfl)

/-- The manager claims the fees of the position: 79 of the other mint, of which the treasury
gets 7. -/
theorem log_audited_sample :
    (((journal (logged sampleVenues) sampleRest).take 2).foldl Mirror.apply
      (sampleAfter (feeTxs.take 3)).world.mirror).Admits
        ⟨I64.literal 14405 rfl, manager.key, .meteoraDlmmFeeClaimed
          ⟨⟨sample.world.key, 90, 0⟩, 90, 25, 79, 2, 7, 60, 70, 23, 72⟩⟩ := by
  have hlog : journal (logged sampleVenues) sampleRest =
      (journal (logged sampleVenues) sampleRest).take 2 ++
        ⟨I64.literal 14405 rfl, manager.key, .meteoraDlmmFeeClaimed
          ⟨⟨sample.world.key, 90, 0⟩, 90, 25, 79, 2, 7, 60, 70, 23, 72⟩⟩ ::
        (journal (logged sampleVenues) sampleRest).drop 3 := by rfl
  exact log_audited sample_fresh.world sample_start sample_rest hlog

end Custody

end HedgeVault
