import HedgeVault.Instructions.Dlmm
import HedgeVault.Trading

/-!
# The positions of a vault

A DLMM transaction asks for one thing (`Asked`), and what it asks for is read off the data of its
call. In every run that can be told for each call (`dlmm_calls_checked`), and when DLMM keeps to
its interface, the bins behind an open record are those of its opening and of the extensions
since (`positions_traced`). So what the program lets the authority ask of a position after a run
does not depend on the run: the parts of it, and extensions up to the maximal width
(`positions_reachable`).
-/

namespace HedgeVault

open Lib

/-- What takes liquidity out, and so stays open while the vault is reduce-only. -/
def DlmmInstruction.isExit : DlmmInstruction → Bool
  | .removeLiquidity _ _ _ => true
  | .claimFee _ _ _ => true
  | _ => false

/-- Whether the request is for bins of the position. -/
def PositionV2.Spans (p : PositionV2) (range : I32 × I32) : Prop :=
  p.lowerBinId.toInt ≤ range.1.toInt ∧ range.1.toInt ≤ range.2.toInt ∧
    range.2.toInt ≤ p.upperBinId.toInt

/-- What holds of the bins in a request, given the position account before it. -/
def DlmmRequest.Fits (before : Option PositionV2) : DlmmRequest → Prop
  | .initializePosition2 _ width => 1 ≤ width.toInt ∧ width.toInt ≤ 70
  | .increasePositionLength lengthToAdd side => side = UPPER_SIDE ∧ 1 ≤ lengthToAdd.toNat ∧
    ∃ p, before = some p ∧ p.width + lengthToAdd.toNat ≤ MAX_POSITION_WIDTH
  | .removeLiquidityByRange2 fromBinId toBinId _ _ =>
    ∃ p, before = some p ∧ p.Spans (fromBinId, toBinId)
  | .claimFee2 minBinId maxBinId _ => ∃ p, before = some p ∧ p.Spans (minBinId, maxBinId)
  | _ => True

/-- When the vault sends a request: liquidity can leave while the vault is reduce-only, and a
position can be closed while the protocol is too. -/
def DlmmRequest.SentIn (w : World) : DlmmRequest → Prop
  | .closePosition2 => w.config.status ≠ .paused ∧ w.vault.status ≠ .paused
  | .removeLiquidityByRange2 _ _ _ _ | .claimFee2 _ _ _ =>
    w.config.status = .normal ∧ w.vault.status ≠ .paused
  | _ => w.config.status = .normal ∧ w.vault.status = .normal

/-- The transaction as the world of the vault sees it. -/
def PoolTx.program (tx : PoolTx) : Option Tx :=
  match tx.ix with
  | .program ix => some ⟨tx.signer, tx.now, ix.1⟩
  | .dlmm (.initializePosition _ _) position _ =>
    some ⟨tx.signer, tx.now, .initializeStrategy (.meteoraDlmm position) (.ok ())⟩
  | .closeStrategy k _ _ => some ⟨tx.signer, tx.now, .vaultCloseStrategy k (.ok ())⟩
  | _ => none

namespace World

/-- The record of the position was stamped. -/
def PositionStamped (w : World) (k : Pubkey) (w' : World) : Prop :=
  ∃ s, w.strategies.lookup k = some s ∧ s.strategyType = .meteoraDlmm k ∧
    w' = { w with strategies := w.strategies.insert k { s with lastActionTs := w.clock } }

/-- What a DLMM transaction asks for, and the world it leaves. -/
inductive Asked (P : Positions) (w : World) (signer : Signer) (k lbPair : Pubkey) :
    DlmmInstruction → World → DlmmRequest → Prop
  | opened {lowerBinId upperBinId width w'}
    (bins : width.toInt = upperBinId.toInt - lowerBinId.toInt ∧ 1 ≤ width.toInt ∧ width.toInt ≤ 70)
    (record : w.initializeStrategy signer (.meteoraDlmm k) (.ok ()) = .ok w') :
    Asked P w signer k lbPair (.initializePosition lowerBinId upperBinId) w'
      (.initializePosition2 lowerBinId width)
  | extended {binsToAdd p}
    (record : ∃ s, w.strategies.lookup k = some s ∧ s.strategyType = .meteoraDlmm k)
    (position : P k = some p) (owner : p.owner = w.key) (pair : p.lbPair = lbPair)
    (bins : (1 ≤ binsToAdd.toNat ∧ binsToAdd.toNat ≤ MAX_RESIZE_LENGTH) ∧ 1 ≤ p.width ∧
      p.width + binsToAdd.toNat ≤ MAX_POSITION_WIDTH) :
    Asked P w signer k lbPair (.extendPosition binsToAdd) w
      (.increasePositionLength binsToAdd UPPER_SIDE)
  | added {parameter info w'} (stamped : w.PositionStamped k w') :
    Asked P w signer k lbPair (.addLiquidity parameter info) w'
      (.addLiquidityByStrategy2 parameter info)
  | removed {bps info requested p w'} (position : P k = some p)
    (bins : p.Spans (requested.getD (p.lowerBinId, p.upperBinId))) (stamped : w.PositionStamped k w') :
    Asked P w signer k lbPair (.removeLiquidity bps info requested) w'
      (.removeLiquidityByRange2 (requested.getD (p.lowerBinId, p.upperBinId)).1
        (requested.getD (p.lowerBinId, p.upperBinId)).2 bps info)
  | claimed {treasury info requested p w'} (position : P k = some p)
    (recipient : w.config.treasuryAuthority = treasury)
    (bins : p.Spans (requested.getD (p.lowerBinId, p.upperBinId))) (stamped : w.PositionStamped k w') :
    Asked P w signer k lbPair (.claimFee treasury info requested) w'
      (.claimFee2 (requested.getD (p.lowerBinId, p.upperBinId)).1
        (requested.getD (p.lowerBinId, p.upperBinId)).2 info)

/-- What has to hold for a DLMM instruction to pass. -/
structure PoolAllowed (w : World) (signer : Signer) (ix : DlmmInstruction) : Prop where
  authority : signer.key = w.vault.authority
  protocol : w.config.status = .normal
  notPaused : w.vault.status ≠ .paused
  normal : ix.isExit = false → w.vault.status = .normal

section

variable {bump : U8} {P P' : Positions} {w w' u : World} {signer : Signer} {k lbPair : Pubkey}
  {ix : DlmmInstruction} {c : DlmmCall} {r : DlmmRequest}

/-! ## The handlers -/

/-- While both are normal the authority can do everything. -/
theorem PoolAllowed.of_normal (hauthority : signer.key = w.vault.authority)
    (hprotocol : w.config.status = .normal) (hvault : w.vault.status = .normal) :
    w.PoolAllowed signer ix := by
  refine ⟨hauthority, hprotocol, ?_, fun _ => hvault⟩
  rw [hvault]
  decide

theorem actOn_eq_ok {gate gate' : Result Unit} :
    w.actOn signer k gate gate' (·.validatePosition k) = .ok w' ↔
      gate = .ok () ∧ signer.key = w.vault.authority ∧ gate' = .ok () ∧ w.PositionStamped k w' := by
  simp only [actOn, Vault.validateAuthority, bind_eq_ok, pure_eq_ok, load_eq_ok, validate_eq_ok]
  constructor
  · rintro ⟨s, hs, _, hgate, _, hauthority, _, hgate', _, hcheck, rfl⟩
    exact ⟨hgate, hauthority, hgate', s, hs, Custody.validatePosition_ok hcheck, rfl⟩
  · rintro ⟨hgate, hauthority, hgate', s, hs, htype, rfl⟩
    refine ⟨s, hs, (), hgate, (), hauthority, (), hgate', (), ?_, rfl⟩
    rw [htype]
    exact validate_eq_ok.2 rfl

/-- When liquidity can be taken out of a position. -/
theorem meteoraDlmmRemoveLiquidity_eq_ok {bps : U16} {info : RemainingAccountsInfo}
    {requested : Option (I32 × I32)} :
    w.meteoraDlmmRemoveLiquidity bump P signer k lbPair bps info requested = .ok (w', c) ↔
      ∃ p, P k = some p ∧ w.PoolAllowed signer (.removeLiquidity bps info requested) ∧
        w.PositionStamped k w' ∧ p.Spans (requested.getD (p.lowerBinId, p.upperBinId)) ∧
        c = w.dlmmCall bump k (some lbPair)
          (.removeLiquidityByRange2 (requested.getD (p.lowerBinId, p.upperBinId)).1
            (requested.getD (p.lowerBinId, p.upperBinId)).2 bps info) := by
  simp only [meteoraDlmmRemoveLiquidity, bind_eq_ok, pure_eq_ok, load_eq_ok, actOn_eq_ok,
    checkedBinRange_eq_ok, Prod.mk.injEq]
  constructor
  · rintro ⟨p, hp, w₁, ⟨hprotocol, hauthority, hvault, hstamped⟩, _, ⟨rfl, h1, h2, h3⟩, rfl, rfl⟩
    exact ⟨p, hp, ⟨hauthority, validate_eq_ok.1 hprotocol, validate_eq_ok.1 hvault, nofun⟩, hstamped,
      ⟨h1, h3, h2⟩, rfl⟩
  · rintro ⟨p, hp, hallowed, hstamped, ⟨h1, h3, h2⟩, rfl⟩
    exact ⟨p, hp, w', ⟨validate_eq_ok.2 hallowed.protocol, hallowed.authority,
      validate_eq_ok.2 hallowed.notPaused, hstamped⟩, _, ⟨rfl, h1, h2, h3⟩, rfl, rfl⟩

/-- When a position can be extended. -/
theorem meteoraDlmmExtendPosition_eq_ok {binsToAdd : U16} :
    w.meteoraDlmmExtendPosition bump P signer k lbPair binsToAdd = .ok (w', c) ↔
      ∃ s p, w.strategies.lookup k = some s ∧ s.strategyType = .meteoraDlmm k ∧ P k = some p ∧
        w.PoolAllowed signer (.extendPosition binsToAdd) ∧ p.owner = w.key ∧ p.lbPair = lbPair ∧
        ((1 ≤ binsToAdd.toNat ∧ binsToAdd.toNat ≤ MAX_RESIZE_LENGTH) ∧ 1 ≤ p.width ∧
          p.width + binsToAdd.toNat ≤ MAX_POSITION_WIDTH) ∧ w' = w ∧
        c = w.dlmmCall bump k (some lbPair) (.increasePositionLength binsToAdd UPPER_SIDE) := by
  simp only [meteoraDlmmExtendPosition, Vault.validateAuthority, bind_eq_ok, pure_eq_ok, load_eq_ok,
    validate_eq_ok, validateExtension_eq_ok, Prod.mk.injEq]
  constructor
  · rintro ⟨s, hs, p, hp, _, hprotocol, _, hauthority, _, hvault, _, htype, _, howner, _, hpair, _,
      hbins, rfl, rfl⟩
    exact ⟨s, p, hs, htype, hp, .of_normal hauthority (validate_eq_ok.1 hprotocol)
      (validate_eq_ok.1 hvault), howner, hpair, hbins, rfl, rfl⟩
  · rintro ⟨s, p, hs, htype, hp, hallowed, howner, hpair, hbins, rfl, rfl⟩
    exact ⟨s, hs, p, hp, (), validate_eq_ok.2 hallowed.protocol, (), hallowed.authority, (),
      validate_eq_ok.2 (hallowed.normal rfl), (), htype, (), howner, (), hpair, (), hbins, rfl, rfl⟩

/-- Every DLMM transaction asks for one thing that it is allowed to. -/
theorem executeDlmm_ok (h : w.executeDlmm bump P signer k lbPair ix = .ok (w', c)) :
    w.PoolAllowed signer ix ∧ ∃ r, c = w.dlmmCall bump k (some lbPair) r ∧
      Asked P w signer k lbPair ix w' r := by
  cases ix with
  | initializePosition lowerBinId upperBinId =>
    simp only [executeDlmm, meteoraDlmmInitializePosition, bind_eq_ok, pure_eq_ok,
      initialWidth_eq_ok, Prod.mk.injEq] at h
    obtain ⟨w₁, hinit, width, hbins, rfl, rfl⟩ := h
    obtain ⟨hauthority, hprotocol, hvault, _, _⟩ := Custody.initializeStrategy_ok hinit
    exact ⟨.of_normal hauthority (validate_eq_ok.1 hprotocol) (validate_eq_ok.1 hvault), _, rfl,
      .opened hbins hinit⟩
  | extendPosition binsToAdd =>
    obtain ⟨s, p, hs, htype, hp, hallowed, howner, hpair, hbins, rfl, rfl⟩ :=
      meteoraDlmmExtendPosition_eq_ok.1 h
    exact ⟨hallowed, _, rfl, .extended ⟨s, hs, htype⟩ hp howner hpair hbins⟩
  | addLiquidity parameter info =>
    simp only [executeDlmm, meteoraDlmmAddLiquidity, bind_eq_ok, pure_eq_ok, actOn_eq_ok,
      Prod.mk.injEq] at h
    obtain ⟨w₁, ⟨hprotocol, hauthority, hvault, hstamped⟩, rfl, rfl⟩ := h
    exact ⟨.of_normal hauthority (validate_eq_ok.1 hprotocol) (validate_eq_ok.1 hvault), _, rfl,
      .added hstamped⟩
  | removeLiquidity bps info requested =>
    obtain ⟨p, hp, hallowed, hstamped, hbins, rfl⟩ := meteoraDlmmRemoveLiquidity_eq_ok.1 h
    exact ⟨hallowed, _, rfl, .removed hp hbins hstamped⟩
  | claimFee treasury info requested =>
    simp only [executeDlmm, meteoraDlmmClaimFee, bind_eq_ok, pure_eq_ok, load_eq_ok, actOn_eq_ok,
      checkedBinRange_eq_ok, Prod.mk.injEq] at h
    obtain ⟨p, hp, w₁, ⟨hgate, hauthority, hvault, hstamped⟩, _, ⟨rfl, h1, h2, h3⟩, rfl, rfl⟩ := h
    obtain ⟨_, hprotocol, htreasury⟩ := hgate
    exact ⟨⟨hauthority, validate_eq_ok.1 hprotocol, validate_eq_ok.1 hvault, nofun⟩, _, rfl,
      .claimed hp (validate_eq_ok.1 htreasury) ⟨h1, h3, h2⟩ hstamped⟩

theorem dlmmCall_asks {o : Option Pubkey} : (w.dlmmCall bump k o r).Asks r := DlmmRequest.reads r

/-! ## The records -/

/-- The vault has an open record of the position. -/
def HasPosition (w : World) (k : Pubkey) : Prop :=
  ∃ s, w.strategies.lookup k = some s ∧ s.strategyType = .meteoraDlmm k

theorem HasPosition.insert {s : Strategy} {l : Pubkey} (hw : w'.strategies = w.strategies.insert l s)
    (hs : s.strategyType = .meteoraDlmm l → w.HasPosition l) (h : w'.HasPosition k) :
    w.HasPosition k := by
  obtain ⟨r, hr, htype⟩ := h
  rw [hw] at hr
  by_cases hk : k = l
  · subst hk
    rw [Finmap.lookup_insert] at hr
    cases hr
    exact hs htype
  · rw [Finmap.lookup_insert_of_ne _ hk] at hr
    exact ⟨r, hr, htype⟩

/-- Another record that is opened is opened by a transaction on it. -/
theorem Asked.newly {now : I64} {l : Pubkey}
    (ha : Asked P { w with clock := now } signer l lbPair ix w' r) (hk : w'.HasPosition k)
    (hno : ¬ w.HasPosition k) :
    ∃ lowerBinId upperBinId width, l = k ∧ ix = .initializePosition lowerBinId upperBinId ∧
      r = .initializePosition2 lowerBinId width ∧
      width.toInt = upperBinId.toInt - lowerBinId.toInt ∧ 1 ≤ width.toInt ∧ width.toInt ≤ 70 := by
  have hstamped : ∀ {w'}, PositionStamped { w with clock := now } l w' → ¬ w'.HasPosition k := by
    rintro w' ⟨s, hs, htype, rfl⟩ hk
    refine hno (hk.insert (w := w) rfl fun _ => ?_)
    exact ⟨s, hs, htype⟩
  cases ha with
  | @opened lowerBinId upperBinId width _ bins record =>
    have ho := initializeStrategy_opens record
    refine ⟨lowerBinId, upperBinId, width, ?_, rfl, rfl, bins⟩
    by_contra hne
    refine hno ?_
    have hstrategies : w'.strategies = w.strategies.insert l _ := ho.strategies
    obtain ⟨s, hs, htype⟩ := hk
    rw [hstrategies, Finmap.lookup_insert_of_ne _ fun e => hne e.symm] at hs
    exact ⟨s, hs, htype⟩
  | extended => exact absurd hk hno
  | added stamped => exact absurd hk (hstamped stamped)
  | removed _ _ stamped => exact absurd hk (hstamped stamped)
  | claimed _ _ _ stamped => exact absurd hk (hstamped stamped)

theorem Asked.restamped {now : I64} (ha : Asked P { w with clock := now } signer k lbPair ix w' r)
    (hs : Restamped w u) : Follows Step Restamped
      (match ix with
        | .initializePosition _ _ =>
          some ⟨signer, now, .initializeStrategy (.meteoraDlmm k) (.ok ())⟩
        | _ => none) w' u := by
  have hstamped : ∀ {w'}, PositionStamped { w with clock := now } k w' → Restamped w' u := by
    rintro w' ⟨s, hk, _, rfl⟩
    exact hs.stamp hk _ _
  cases ha with
  | opened _ record => exact hs.step record
  | extended => exact ⟨hs.eq, hs.records⟩
  | added stamped => exact hstamped stamped
  | removed _ _ stamped => exact hstamped stamped
  | claimed _ _ _ stamped => exact hstamped stamped

end

end World

namespace PoolState

/-- What a step did, by its instruction, with its call. -/
inductive Moves (D : DlmmVenue) (bump : U8) (s : PoolState) (signer : Signer) (now : I64) :
    PoolInstruction → Option DlmmCall → PoolState → Prop
  | program {ix s'} (step : s.world.Step ⟨signer, now, ix.1⟩ s'.world)
    (drifts : D.drifts s.world.key s.positions s'.positions) :
    Moves D bump s signer now (.program ix) none s'
  | asked {ix k lbPair r s'}
    (allowed : World.PoolAllowed { s.world with clock := now } signer ix)
    (asks : World.Asked s.positions { s.world with clock := now } signer k lbPair ix s'.world r)
    (answers : D.answers s.positions (s.world.dlmmCall bump k (some lbPair) r) s'.positions) :
    Moves D bump s signer now (.dlmm ix k lbPair)
      (some (s.world.dlmmCall bump k (some lbPair) r)) s'
  | closed {k l remaining checks r s'} (record : s.world.strategies.lookup k = some r)
    (type : r.strategyType = .meteoraDlmm l)
    (step : s.world.Step ⟨signer, now, .vaultCloseStrategy k (.ok ())⟩ s'.world)
    (answers : D.answers s.positions (s.world.dlmmCall bump l none .closePosition2) s'.positions) :
    Moves D bump s signer now (.closeStrategy k remaining checks)
      (some (s.world.dlmmCall bump l none .closePosition2)) s'
  | closedOther {k remaining checks s'}
    (step : s.world.Step ⟨signer, now, .vaultCloseStrategy k (.ok ())⟩ s'.world)
    (drifts : D.drifts s.world.key s.positions s'.positions) :
    Moves D bump s signer now (.closeStrategy k remaining checks) none s'
  | others {s'} (world : s'.world = { s.world with clock := now })
    (drifts : D.drifts s.world.key s.positions s'.positions) :
    Moves D bump s signer now .others none s'

section

variable {D : DlmmVenue} {bump : U8} {s s' s₀ : PoolState} {tx : PoolTx} {signer : Signer} {now : I64}
  {ix : PoolInstruction} {call : Option DlmmCall} {h : List (Transition PoolState PoolTx)} {k : Pubkey}

theorem closes_checked {w w' : World} {checks : Result Unit}
    (h : w.vaultCloseStrategy signer k checks = .ok w') :
    w.vaultCloseStrategy signer k (.ok ()) = .ok w' := by
  have hchecks := Custody.vaultCloseStrategy_checks h
  rw [hchecks] at h
  exact h

theorem Step.moves (st : s.Step D bump ⟨signer, now, ix⟩ s') :
    ∃ call, sent bump ⟨s, ⟨signer, now, ix⟩, s'⟩ = call.toList ∧
      Moves D bump s signer now ix call s' := by
  obtain ⟨call, hhandle, hsettles⟩ := st
  have hsent : sent bump ⟨s, ⟨signer, now, ix⟩, s'⟩ = call.toList := by
    unfold sent
    rw [hhandle]
    cases call <;> rfl
  refine ⟨call, hsent, ?_⟩
  cases ix with
  | program ix =>
    simp only [handle, bind_eq_ok, pure_eq_ok, Prod.mk.injEq] at hhandle
    obtain ⟨w', hstep, rfl, rfl⟩ := hhandle
    exact .program hstep hsettles
  | dlmm ix k lbPair =>
    simp only [handle, bind_eq_ok, pure_eq_ok, Prod.mk.injEq, Prod.exists] at hhandle
    obtain ⟨w', c, hexec, rfl, rfl⟩ := hhandle
    obtain ⟨hallowed, r, rfl, hasked⟩ := World.executeDlmm_ok hexec
    exact .asked hallowed hasked hsettles
  | closeStrategy k remaining checks =>
    simp only [handle, World.closeDlmmStrategy, bind_eq_ok, World.load_eq_ok] at hhandle
    obtain ⟨r, hr, hclose⟩ := hhandle
    split at hclose
    · next l htype =>
      simp only [bind_eq_ok, pure_eq_ok, Prod.mk.injEq] at hclose
      obtain ⟨w', hw, rfl, rfl⟩ := hclose
      exact .closed hr htype (closes_checked hw) hsettles
    · simp only [bind_eq_ok, pure_eq_ok, Prod.mk.injEq] at hclose
      obtain ⟨w', hw, rfl, rfl⟩ := hclose
      exact .closedOther (closes_checked hw) hsettles
  | others =>
    simp only [handle, pure_eq_ok, Prod.mk.injEq] at hhandle
    obtain ⟨hworld, rfl⟩ := hhandle
    exact .others hworld.symm hsettles

/-! ## The world of the vault -/

theorem Moves.follows {u : World} (mv : Moves D bump s signer now ix call s')
    (hs : World.Restamped s.world u) :
    Follows World.Step World.Restamped (PoolTx.program ⟨signer, now, ix⟩) s'.world u := by
  cases mv with
  | program step => exact hs.step step
  | @asked ix _ _ _ _ _ asks =>
    have hfollows := asks.restamped hs
    cases ix with
    | _ => exact hfollows
  | closed _ _ step => exact hs.step step
  | closedOther step => exact hs.step step
  | others hworld =>
    rw [hworld]
    exact ⟨hs.eq, hs.records⟩

/-- The world of the vault goes through what the program does in it, up to the stamps. -/
theorem run_world (hr : Run (Step D bump) s₀ h s) :
    ∃ h₂ u, Run World.Step s₀.world h₂ u ∧ labels h₂ = (labels h).filterMap PoolTx.program ∧
      World.Restamped s.world u := by
  refine hr.project (R := fun s u => World.Restamped s.world u) .refl fun t _ st u hs => ?_
  obtain ⟨s, ⟨signer, now, ix⟩, s'⟩ := t
  obtain ⟨_, _, mv⟩ := Step.moves st
  exact mv.follows hs

theorem run_sound (h0 : s₀.world.Fresh) (hr : Run (Step D bump) s₀ h s) :
    s.world.Sound ∧ s.world.Census ∧ World.SameVault s₀.world s.world := by
  obtain ⟨_, u, hru, _, hs⟩ := run_world hr
  exact ⟨hs.sound (World.run_sound h0 hru), hs.census (World.run_census h0 hru),
    hs.sameVault (World.run_sameVault h0 hru)⟩

/-! ## The bins of a position -/

/-- The bins that a transaction adds to a position. -/
def added (k : Pubkey) (t : Transition PoolState PoolTx) : Int :=
  match t.label.ix with
  | .dlmm (.extendPosition binsToAdd) position _ => if position = k then binsToAdd.toNat else 0
  | _ => 0

/-- Whether the transaction opens the position. -/
def opens (k : Pubkey) (t : Transition PoolState PoolTx) : Bool :=
  match t.label.ix with
  | .dlmm (.initializePosition _ _) position _ => position = k
  | _ => false

theorem added_extension {binsToAdd : U16} {lbPair : Pubkey} :
    added k ⟨s, ⟨signer, now, .dlmm (.extendPosition binsToAdd) k lbPair⟩, s'⟩ = binsToAdd.toNat :=
  if_pos rfl

/-- The position is that of its last opening in the history, with what was added since. -/
structure Traced (vault : Pubkey) (h : List (Transition PoolState PoolTx)) (k : Pubkey)
    (p : PositionV2) : Prop where
  owner : p.owner = vault
  bins : ∃ newer t older upperBinId, h = newer ++ t :: older ∧
    t.label.ix = .dlmm (.initializePosition p.lowerBinId upperBinId) k p.lbPair ∧
    (∀ u ∈ newer, opens k u = false) ∧
    p.upperBinId.toInt = upperBinId.toInt - 1 + (newer.map (added k)).sum
  width : 1 ≤ p.width ∧ p.width ≤ MAX_POSITION_WIDTH

variable {vault : Pubkey} {p : PositionV2} {t : Transition PoolState PoolTx}

theorem Traced.unmoved (ht : Traced vault h k p) (hopens : opens k t = false)
    (hadded : added k t = 0) :
    Traced vault (t :: h) k p := by
  obtain ⟨newer, o, older, upper, rfl, hix, hnewer, hupper⟩ := ht.bins
  refine ⟨ht.owner, ⟨t :: newer, o, older, upper, rfl, hix, ?_, ?_⟩, ht.width⟩
  · intro u hu
    rcases List.mem_cons.1 hu with rfl | hu
    · exact hopens
    · exact hnewer u hu
  · rw [List.map_cons, List.sum_cons, hadded]
    omega

theorem Traced.extended {upperBinId : I32} (ht : Traced vault h k p) (hopens : opens k t = false)
    (hupper : upperBinId.toInt = p.upperBinId.toInt + added k t) (hadded : 0 ≤ added k t)
    (hwidth : p.width + added k t ≤ MAX_POSITION_WIDTH) :
    Traced vault (t :: h) k { p with upperBinId } := by
  obtain ⟨newer, o, older, upper, rfl, hix, hnewer, hold⟩ := ht.bins
  have hpos := ht.width.1
  unfold PositionV2.width at hpos hwidth
  refine ⟨ht.owner, ⟨t :: newer, o, older, upper, rfl, hix, ?_, ?_⟩, ?_⟩
  · intro u hu
    rcases List.mem_cons.1 hu with rfl | hu
    · exact hopens
    · exact hnewer u hu
  · rw [List.map_cons, List.sum_cons]
    dsimp only
    omega
  · unfold PositionV2.width
    dsimp only
    omega

/-- DLMM records are stored under their position. -/
theorem stored_position {w : World} {l : Pubkey} {r : Strategy} (hw : w.Census)
    (hr : w.strategies.lookup k = some r) (htype : r.strategyType = .meteoraDlmm l) : k = l := by
  obtain ⟨_, hstored, _⟩ := hw.stored k r hr
  rw [htype] at hstored
  exact hstored.symm

theorem Moves.traced (hD : D.Faithful) (hcensus : s.world.Census) (hkey : s.world.key = vault)
    (mv : Moves D bump s signer now ix call s') (hpos : s.positions k = some p)
    (ht : Traced vault h k p)
    (hopen : s.world.HasPosition k) (hopen' : s'.world.HasPosition k) :
    ∃ p', s'.positions k = some p' ∧ Traced vault (⟨s, ⟨signer, now, ix⟩, s'⟩ :: h) k p' := by
  have hdrifts : D.drifts s.world.key s.positions s'.positions → s'.positions k = some p :=
    fun hd => hD.keeps hd hpos (ht.owner.trans hkey.symm)
  obtain ⟨w', P'⟩ := s'
  cases mv with
  | program step drifts => exact ⟨p, hdrifts drifts, ht.unmoved rfl rfl⟩
  | closedOther step drifts => exact ⟨p, hdrifts drifts, ht.unmoved rfl rfl⟩
  | others hworld drifts => exact ⟨p, hdrifts drifts, ht.unmoved rfl rfl⟩
  | @closed l l' remaining checks r _ record type step answers =>
    obtain rfl := stored_position hcensus record type
    have hne : k ≠ l := by
      rintro rfl
      obtain ⟨q, hq, _⟩ := hopen'
      have hcl := World.vaultCloseStrategy_closes step
      rw [hcl.strategies, Finmap.lookup_erase] at hq
      cases hq
    have hpositions := hD.closes answers (World.dlmmCall_asks)
    refine ⟨p, ?_, ht.unmoved rfl rfl⟩
    rw [hpositions]
    exact (Function.update_of_ne hne _ _).trans hpos
  | @asked ix l lbPair r _ allowed asks answers =>
    cases asks with
    | @opened lower upper width _ bins record =>
      have hne : k ≠ l := by
        rintro rfl
        obtain ⟨q, hq, _⟩ := hopen
        have hnew := (World.initializeStrategy_opens record).new
        exact absurd (hq.symm.trans hnew) (by simp)
      obtain ⟨upperBinId, _, hpositions⟩ := hD.initializes answers (World.dlmmCall_asks) rfl
      refine ⟨p, ?_, ht.unmoved (decide_eq_false fun e => hne e.symm) rfl⟩
      rw [hpositions]
      exact (Function.update_of_ne hne _ _).trans hpos
    | @extended n q _ position _ _ bins =>
      obtain ⟨q', upperBinId, hq', hupper, hpositions⟩ :=
        hD.increases answers (World.dlmmCall_asks)
      by_cases hlk : l = k
      · subst hlk
        obtain rfl : p = q := Option.some.inj (hpos.symm.trans position)
        obtain rfl : p = q' := Option.some.inj (hpos.symm.trans hq')
        refine ⟨{ p with upperBinId }, ?_, ht.extended rfl ?_ ?_ ?_⟩
        · rw [hpositions]
          exact Function.update_self _ _ _
        · rw [added_extension]
          exact hupper
        · rw [added_extension]
          omega
        · rw [added_extension]
          exact bins.2.2
      · refine ⟨p, ?_, ht.unmoved rfl (if_neg hlk)⟩
        rw [hpositions]
        exact (Function.update_of_ne (fun e => hlk e.symm) _ _).trans hpos
    | added stamped =>
      rw [hD.adds answers (World.dlmmCall_asks)]
      exact ⟨p, hpos, ht.unmoved rfl rfl⟩
    | removed _ _ stamped =>
      rw [hD.removes answers (World.dlmmCall_asks)]
      exact ⟨p, hpos, ht.unmoved rfl rfl⟩
    | claimed _ _ _ stamped =>
      rw [hD.claims answers (World.dlmmCall_asks)]
      exact ⟨p, hpos, ht.unmoved rfl rfl⟩

/-- Only the transaction that opens a record leaves it where there was none. -/
theorem Moves.newly (wf : s.world.WellFormed) (mv : Moves D bump s signer now ix call s')
    (hopen' : s'.world.HasPosition k) (hno : ¬ s.world.HasPosition k) :
    ∃ lowerBinId upperBinId width lbPair,
      ix = .dlmm (.initializePosition lowerBinId upperBinId) k lbPair ∧
      D.answers s.positions (s.world.dlmmCall bump k (some lbPair)
        (.initializePosition2 lowerBinId width)) s'.positions ∧
      width.toInt = upperBinId.toInt - lowerBinId.toInt ∧ 1 ≤ width.toInt ∧ width.toInt ≤ 70 := by
  have herased : ∀ {l}, World.ClosesStrategy s.world l s'.world → False := by
    intro l hcl
    obtain ⟨q, hq, htype⟩ := hopen'
    rw [hcl.strategies] at hq
    exact hno ⟨q, lookup_of_erase hq, htype⟩
  cases mv with
  | @program ix _ step drifts =>
    exfalso
    cases World.Step.records wf step with
    | same hs =>
      obtain ⟨q, hq, htype⟩ := hopen'
      rw [hs.strategies] at hq
      exact hno ⟨q, hq, htype⟩
    | opens ty checks hix ho =>
      refine hno (hopen'.insert ho.strategies fun htype => ?_)
      obtain ⟨ix, hbeside⟩ := ix
      obtain rfl : ix = .initializeStrategy ty checks := hix
      cases ty with
      | meteoraDlmm => cases hbeside
      | jupiterSwap => cases htype
      | phoenixPerp => cases htype
    | closes l checks hix hcl => exact herased hcl
  | closedOther step => exact (herased (World.vaultCloseStrategy_closes step)).elim
  | closed _ _ step => exact (herased (World.vaultCloseStrategy_closes step)).elim
  | others hworld =>
    rw [hworld] at hopen'
    exact absurd hopen' hno
  | asked allowed asks answers =>
    obtain ⟨lower, upper, width, rfl, rfl, rfl, hbins⟩ := asks.newly hopen' hno
    exact ⟨lower, upper, width, _, rfl, answers, hbins⟩

theorem run_traced (hD : D.Faithful) (h0 : s₀.world.Fresh) (hr : Run (Step D bump) s₀ h s)
    (hopen : s.world.HasPosition k) :
    ∃ p, s.positions k = some p ∧ Traced s₀.world.key h k p := by
  induction hr with
  | nil =>
    obtain ⟨r, hr, _⟩ := hopen
    rw [h0.1.strategies, Finmap.lookup_empty] at hr
    cases hr
  | @snoc h s s' tx hr st ih =>
    obtain ⟨signer, now, ix⟩ := tx
    obtain ⟨hsound, hcensus, hsame⟩ := run_sound h0 hr
    obtain ⟨_, _, mv⟩ := Step.moves st
    by_cases hbefore : s.world.HasPosition k
    · obtain ⟨p, hp, ht⟩ := ih hbefore
      exact mv.traced hD hcensus hsame.key hp ht hbefore hopen
    · obtain ⟨lower, upper, width, lbPair, rfl, answers, hwidth, hpos, hmax⟩ :=
        mv.newly hsound.wellFormed hopen hbefore
      obtain ⟨upperBinId, hupper, hpositions⟩ := hD.initializes answers (World.dlmmCall_asks) rfl
      refine ⟨⟨lbPair, s.world.key, lower, upperBinId⟩, ?_, hsame.key, ?_, ?_⟩
      · rw [hpositions]
        exact Function.update_self _ _ _
      · refine ⟨[], _, h, upper, rfl, rfl, ?_, ?_⟩
        · intro _ hu
          cases hu
        rw [List.map_nil, List.sum_nil]
        dsimp only
        omega
      · have hmaximum : MAX_POSITION_WIDTH = 1400 := rfl
        unfold PositionV2.width
        dsimp only
        omega

/-- Behind every open record there is the position that it is stored under. The vault owns it, it
is of the pair and from the lower bin that it was opened with, it ends below the upper bin asked
for then, plus the extensions since, and it is never wider than the maximum. -/
theorem positions_traced (hD : D.Faithful) (h0 : s₀.world.Fresh) (hr : Run (Step D bump) s₀ h s) :
    ∀ k r l, s.world.strategies.lookup k = some r → r.strategyType = .meteoraDlmm l →
      k = l ∧ ∃ p, s.positions k = some p ∧ Traced s₀.world.key h k p := by
  intro k r l hk htype
  have hcensus : s.world.Census := (run_sound h0 hr).2.1
  obtain rfl := stored_position hcensus hk htype
  exact ⟨rfl, run_traced hD h0 hr ⟨r, hk, htype⟩⟩

/-! ## The calls of a run -/

theorem closed_allowed {w w' : World} {checks : Result Unit}
    (h : w.vaultCloseStrategy signer k checks = .ok w') :
    signer.key = w.vault.authority ∧ w.config.status ≠ .paused ∧ w.vault.status ≠ .paused := by
  simp only [World.vaultCloseStrategy, bind_eq_ok] at h
  obtain ⟨_, _, _, hprotocol, _, hauthority, _, hvault, _⟩ := h
  exact ⟨validate_eq_ok.1 hauthority, validate_eq_ok.1 hprotocol, validate_eq_ok.1 hvault⟩

/-- What is checked of a call before it is sent. -/
theorem Moves.checked {c : DlmmCall} (hcensus : s.world.Census)
    (mv : Moves D bump s signer now ix (some c) s') :
    signer.key = s.world.vault.authority ∧ c.sender = s.world.key ∧
      c.signerSeeds = vaultSeeds s.world.vault.id bump ∧
      (s.world.HasPosition c.position ∨ s'.world.HasPosition c.position) ∧
      ∃ r, c.Asks r ∧ r.Fits (s.positions c.position) ∧ r.SentIn s.world := by
  obtain ⟨w', P'⟩ := s'
  cases mv with
  | @closed l l' remaining checks r _ record type step =>
    obtain rfl := stored_position hcensus record type
    obtain ⟨hauthority, hprotocol, hvault⟩ := closed_allowed step
    exact ⟨hauthority, rfl, rfl, .inl ⟨r, record, type⟩, _, World.dlmmCall_asks, trivial, hprotocol,
      hvault⟩
  | @asked ix l lbPair r _ allowed asks =>
    obtain ⟨hauthority, hprotocol, hpaused, hnormal⟩ := allowed
    have hstamped : World.PositionStamped { s.world with clock := now } l w' →
        s.world.HasPosition l := by
      rintro ⟨r, hr, htype, _⟩
      exact ⟨r, hr, htype⟩
    refine ⟨hauthority, rfl, rfl, ?_, r, World.dlmmCall_asks, ?_, ?_⟩
    · cases asks with
      | opened _ record =>
        refine .inr ⟨.new s.world.key s.world.vault.nextStrategyId now (.meteoraDlmm l), ?_, rfl⟩
        rw [(World.initializeStrategy_opens record).strategies]
        exact Finmap.lookup_insert _
      | extended record => exact .inl record
      | added stamped => exact .inl (hstamped stamped)
      | removed _ _ stamped => exact .inl (hstamped stamped)
      | claimed _ _ _ stamped => exact .inl (hstamped stamped)
    · cases asks with
      | opened bins => exact bins.2
      | extended _ position _ _ bins => exact ⟨rfl, bins.1.1, _, position, bins.2.2⟩
      | added => exact trivial
      | removed position bins => exact ⟨_, position, bins⟩
      | claimed position _ bins => exact ⟨_, position, bins⟩
    · cases asks with
      | opened => exact ⟨hprotocol, hnormal rfl⟩
      | extended => exact ⟨hprotocol, hnormal rfl⟩
      | added => exact ⟨hprotocol, hnormal rfl⟩
      | removed => exact ⟨hprotocol, hpaused⟩
      | claimed => exact ⟨hprotocol, hpaused⟩

/-- Every call of a run was asked for by the authority that the vault was opened for and is made
in the name of the vault, about a position that it has a record of, and DLMM reads a request
from it that fits the bins of that position and that neither gate forbids. This holds whatever
DLMM does. -/
theorem dlmm_calls_checked (h0 : s₀.world.Fresh) (hr : Run (Step D bump) s₀ h s) :
    ∀ t ∈ h, ∀ c ∈ sent bump t,
      t.label.signer.key = s₀.world.vault.authority ∧ c.sender = s₀.world.key ∧
        c.signerSeeds = vaultSeeds s₀.world.vault.id bump ∧
        (t.pre.world.HasPosition c.position ∨ t.post.world.HasPosition c.position) ∧
        ∃ r, c.Asks r ∧ r.Fits (t.pre.positions c.position) ∧ r.SentIn t.pre.world := by
  intro t ht c hc
  obtain ⟨newer, older, rfl⟩ := List.append_of_mem ht
  obtain ⟨hpre, st, _⟩ := hr.split
  obtain ⟨s, ⟨signer, now, ix⟩, s'⟩ := t
  obtain ⟨_, hcensus, hsame⟩ := run_sound h0 hpre
  obtain ⟨call, hsent, mv⟩ := Step.moves st
  rw [hsent] at hc
  obtain rfl : call = some c := Option.mem_toList.1 hc
  obtain ⟨hauthority, hsender, hseeds, hrecorded, hrequest⟩ := mv.checked hcensus
  refine ⟨hauthority.trans hsame.authority, hsender.trans hsame.key, ?_, hrecorded, hrequest⟩
  rw [hseeds, hsame.id]

/-! ## What stays possible -/

theorem removes_iff {lbPair : Pubkey} {bps : U16} {info : RemainingAccountsInfo}
    {requested : Option (I32 × I32)} (hopen : s.world.HasPosition k) (hp : s.positions k = some p) :
    (∃ o, s.handle bump ⟨signer, now, .dlmm (.removeLiquidity bps info requested) k lbPair⟩ = .ok o) ↔
      s.world.PoolAllowed signer (.removeLiquidity bps info requested) ∧
        p.Spans (requested.getD (p.lowerBinId, p.upperBinId)) := by
  simp only [handle, World.executeDlmm, bind_eq_ok, Prod.exists,
    World.meteoraDlmmRemoveLiquidity_eq_ok]
  constructor
  · rintro ⟨_, _, _, _, ⟨q, hq, hallowed, _, hbins, _⟩, _⟩
    obtain rfl : p = q := Option.some.inj (hp.symm.trans hq)
    exact ⟨⟨hallowed.authority, hallowed.protocol, hallowed.notPaused, hallowed.normal⟩, hbins⟩
  · rintro ⟨hallowed, hbins⟩
    obtain ⟨r, hk, htype⟩ := hopen
    exact ⟨_, _, _, _, ⟨p, hp, ⟨hallowed.authority, hallowed.protocol, hallowed.notPaused,
      hallowed.normal⟩, ⟨r, hk, htype, rfl⟩, hbins, rfl⟩, rfl⟩

theorem extends_iff {lbPair : Pubkey} {binsToAdd : U16} (hopen : s.world.HasPosition k)
    (hp : s.positions k = some p) (howner : p.owner = s.world.key) (hpos : 1 ≤ p.width) :
    (∃ o, s.handle bump ⟨signer, now, .dlmm (.extendPosition binsToAdd) k lbPair⟩ = .ok o) ↔
      s.world.PoolAllowed signer (.extendPosition binsToAdd) ∧ p.lbPair = lbPair ∧
        (1 ≤ binsToAdd.toNat ∧ binsToAdd.toNat ≤ MAX_RESIZE_LENGTH) ∧
          p.width + binsToAdd.toNat ≤ MAX_POSITION_WIDTH := by
  simp only [handle, World.executeDlmm, bind_eq_ok, Prod.exists,
    World.meteoraDlmmExtendPosition_eq_ok]
  constructor
  · rintro ⟨_, _, _, _, ⟨_, q, _, _, hq, hallowed, _, hpair, ⟨hbins, _, hmax⟩, _⟩, _⟩
    obtain rfl : p = q := Option.some.inj (hp.symm.trans hq)
    exact ⟨⟨hallowed.authority, hallowed.protocol, hallowed.notPaused, hallowed.normal⟩, hpair,
      hbins, hmax⟩
  · rintro ⟨hallowed, hpair, hbins, hmax⟩
    obtain ⟨r, hk, htype⟩ := hopen
    exact ⟨_, _, _, _, ⟨r, p, hk, htype, hp, ⟨hallowed.authority, hallowed.protocol,
      hallowed.notPaused, hallowed.normal⟩, howner, hpair, ⟨hbins, hpos, hmax⟩, rfl, rfl⟩, rfl⟩

/-- In every state of every run, the authority can take liquidity out of any part of a position
that has an open record, unless the protocol is not operational or the vault is paused, and can
extend it up to the maximal width while both are normal. No other check gets in the way. -/
theorem positions_reachable (hD : D.Faithful) (h0 : s₀.world.Fresh)
    (hr : Run (Step D bump) s₀ h s) (hopen : s.world.HasPosition k) :
    ∃ p, s.positions k = some p ∧
      (∀ signer now lbPair bps info requested,
        (∃ o, s.handle bump ⟨signer, now, .dlmm (.removeLiquidity bps info requested) k lbPair⟩ =
          .ok o) ↔
          signer.key = s₀.world.vault.authority ∧ s.world.config.status = .normal ∧
            s.world.vault.status ≠ .paused ∧ ∀ range, requested = some range → p.Spans range) ∧
      ∀ signer now lbPair binsToAdd,
        (∃ o, s.handle bump ⟨signer, now, .dlmm (.extendPosition binsToAdd) k lbPair⟩ = .ok o) ↔
          signer.key = s₀.world.vault.authority ∧ s.world.config.status = .normal ∧
            s.world.vault.status = .normal ∧ lbPair = p.lbPair ∧ 1 ≤ binsToAdd.toNat ∧
            binsToAdd.toNat ≤ MAX_RESIZE_LENGTH ∧
            p.width + binsToAdd.toNat ≤ MAX_POSITION_WIDTH := by
  obtain ⟨p, hp, ht⟩ := run_traced hD h0 hr hopen
  obtain ⟨_, _, hsame⟩ := run_sound h0 hr
  refine ⟨p, hp, ?_, ?_⟩
  · intro signer now lbPair bps info requested
    have hwhole : p.Spans (p.lowerBinId, p.upperBinId) := by
      have hpos := ht.width.1
      unfold PositionV2.width at hpos
      refine ⟨le_rfl, ?_, le_rfl⟩
      dsimp only
      omega
    rw [removes_iff hopen hp]
    constructor
    · rintro ⟨hallowed, hbins⟩
      refine ⟨hallowed.authority.trans hsame.authority, hallowed.protocol, hallowed.notPaused, ?_⟩
      rintro range rfl
      exact hbins
    · rintro ⟨hauthority, hprotocol, hpaused, hrange⟩
      refine ⟨⟨hauthority.trans hsame.authority.symm, hprotocol, hpaused, nofun⟩, ?_⟩
      cases requested with
      | none => exact hwhole
      | some range => exact hrange range rfl
  · intro signer now lbPair binsToAdd
    rw [extends_iff hopen hp (ht.owner.trans hsame.key.symm) ht.width.1]
    constructor
    · rintro ⟨hallowed, hpair, hbins, hmax⟩
      exact ⟨hallowed.authority.trans hsame.authority, hallowed.protocol, hallowed.normal rfl,
        hpair.symm, hbins.1, hbins.2, hmax⟩
    · rintro ⟨hauthority, hprotocol, hvault, rfl, hmin, hstep, hmax⟩
      exact ⟨.of_normal (hauthority.trans hsame.authority.symm) hprotocol hvault, rfl, ⟨hmin, hstep⟩,
        hmax⟩

end

/-! ## A sample run -/

open World (sample sample_fresh manager)

/-- What a DLMM that takes the request makes of it. -/
inductive Taken (P : Positions) (c : DlmmCall) : DlmmRequest → Positions → Prop
  | initialized {lowerBinId width upperBinId : I32} {lbPair} (pair : c.lbPair = some lbPair)
    (upper : upperBinId.toInt = lowerBinId.toInt + width.toInt - 1) :
    Taken P c (.initializePosition2 lowerBinId width)
      (Function.update P c.position (some ⟨lbPair, c.sender, lowerBinId, upperBinId⟩))
  | increased {lengthToAdd p} {upperBinId : I32} (position : P c.position = some p)
    (upper : upperBinId.toInt = p.upperBinId.toInt + lengthToAdd.toNat) :
    Taken P c (.increasePositionLength lengthToAdd UPPER_SIDE)
      (Function.update P c.position (some { p with upperBinId }))
  | added {parameter info} : Taken P c (.addLiquidityByStrategy2 parameter info) P
  | removed {fromBinId toBinId bps info} :
    Taken P c (.removeLiquidityByRange2 fromBinId toBinId bps info) P
  | claimed {minBinId maxBinId info} : Taken P c (.claimFee2 minBinId maxBinId info) P
  | closed : Taken P c .closePosition2 (Function.update P c.position none)

def sampleDlmm : DlmmVenue where
  answers P c P' := ∃ r, c.Asks r ∧ Taken P c r P'
  drifts owner P P' := ∀ k p, P k = some p → p.owner = owner → P' k = some p

theorem sampleDlmm_taken {P P' : Positions} {c : DlmmCall} {r : DlmmRequest}
    (h : sampleDlmm.answers P c P') (hr : c.Asks r) : Taken P c r P' := by
  obtain ⟨r', hr', htaken⟩ := h
  obtain rfl := hr.unique hr'
  exact htaken

theorem sampleDlmm_faithful : sampleDlmm.Faithful where
  initializes h hr hpair := by
    cases sampleDlmm_taken h hr with
    | @initialized _ _ upperBinId _ pair upper =>
      cases hpair.symm.trans pair
      exact ⟨upperBinId, upper, rfl⟩
  increases h hr := by
    cases sampleDlmm_taken h hr with
    | increased position upper => exact ⟨_, _, position, upper, rfl⟩
  adds h hr := by
    cases sampleDlmm_taken h hr
    rfl
  removes h hr := by
    cases sampleDlmm_taken h hr
    rfl
  claims h hr := by
    cases sampleDlmm_taken h hr
    rfl
  closes h hr := by
    cases sampleDlmm_taken h hr
    rfl
  keeps h hk howner := h _ _ hk howner

/-- The world that a transaction leaves. -/
def worldAfter (s : PoolState) (tx : PoolTx) : World :=
  match s.handle 255 tx with
  | .ok (w, _) => w
  | .error _ => s.world

theorem sample_step {s : PoolState} {tx : PoolTx} {c : DlmmCall} {P' : Positions}
    (h : s.handle 255 tx = .ok (worldAfter s tx, some c))
    (ha : sampleDlmm.answers s.positions c P') :
    Step sampleDlmm 255 s tx ⟨worldAfter s tx, P'⟩ :=
  ⟨some c, h, ha⟩

/-- A position is opened and extended, and a part of it is taken out. -/
def opening : PoolTx := ⟨manager, I64.literal 1010 rfl, .dlmm (.initializePosition (-5) 64) 90 91⟩
def extension : PoolTx := ⟨manager, I64.literal 1020 rfl, .dlmm (.extendPosition 10) 90 91⟩
def removal : PoolTx :=
  ⟨manager, I64.literal 1030 rfl, .dlmm (.removeLiquidity 5000 ⟨[], by decide⟩ (some (0, 9))) 90 91⟩

def atFirst : PoolState := ⟨sample, fun _ => none⟩
def opened : PoolState := ⟨worldAfter atFirst opening,
  Function.update atFirst.positions 90 (some ⟨91, sample.key, -5, 63⟩)⟩
def extended : PoolState := ⟨worldAfter opened extension,
  Function.update opened.positions 90 (some ⟨91, sample.key, -5, 73⟩)⟩
def taken : PoolState := ⟨worldAfter extended removal, extended.positions⟩

theorem sample_opening : Step sampleDlmm 255 atFirst opening opened := by
  refine sample_step (c := sample.dlmmCall 255 90 (some 91) (.initializePosition2 (-5) 69)) rfl ?_
  exact ⟨_, World.dlmmCall_asks, .initialized rfl (by decide)⟩

theorem sample_extension : Step sampleDlmm 255 opened extension extended := by
  refine sample_step
    (c := opened.world.dlmmCall 255 90 (some 91) (.increasePositionLength 10 1)) rfl ?_
  exact ⟨_, World.dlmmCall_asks, .increased (p := ⟨91, sample.key, -5, 63⟩) rfl (by decide)⟩

def removalCall : DlmmCall := extended.world.dlmmCall 255 90 (some 91)
  (.removeLiquidityByRange2 0 9 5000 ⟨[], by decide⟩)

theorem sample_removal : Step sampleDlmm 255 extended removal taken := by
  exact sample_step (c := removalCall) rfl ⟨_, World.dlmmCall_asks, .removed⟩

/-- The transactions, the last one first. -/
def positionHistory : List (Transition PoolState PoolTx) :=
  [⟨extended, removal, taken⟩, ⟨opened, extension, extended⟩, ⟨atFirst, opening, opened⟩]

theorem position_run : Run (Step sampleDlmm 255) atFirst positionHistory taken :=
  .snoc (.snoc (.snoc .nil sample_opening) sample_extension) sample_removal

theorem positions_traced_sample : ∃ p, taken.positions 90 = some p ∧
    Traced sample.key positionHistory 90 p :=
  (positions_traced sampleDlmm_faithful sample_fresh position_run 90 _ 90 rfl rfl).2

theorem dlmm_calls_checked_sample :
    manager.key = sample.vault.authority ∧ removalCall.sender = sample.key ∧
      removalCall.signerSeeds = vaultSeeds sample.vault.id 255 ∧
      (extended.world.HasPosition 90 ∨ taken.world.HasPosition 90) ∧
      ∃ r, removalCall.Asks r ∧ r.Fits (extended.positions 90) ∧ r.SentIn extended.world :=
  dlmm_calls_checked sample_fresh position_run ⟨extended, removal, taken⟩ (List.mem_cons_self ..)
    removalCall (List.mem_singleton.2 rfl)

theorem taken_hasPosition : taken.world.HasPosition 90 := ⟨_, rfl, rfl⟩

theorem positions_reachable_sample :
    ∃ p, taken.positions 90 = some p ∧
      (∀ signer now lbPair bps info requested,
        (∃ o, taken.handle 255 ⟨signer, now, .dlmm (.removeLiquidity bps info requested) 90 lbPair⟩ =
          .ok o) ↔
          signer.key = sample.vault.authority ∧ taken.world.config.status = .normal ∧
            taken.world.vault.status ≠ .paused ∧ ∀ range, requested = some range → p.Spans range) ∧
      ∀ signer now lbPair binsToAdd,
        (∃ o, taken.handle 255 ⟨signer, now, .dlmm (.extendPosition binsToAdd) 90 lbPair⟩ = .ok o) ↔
          signer.key = sample.vault.authority ∧ taken.world.config.status = .normal ∧
            taken.world.vault.status = .normal ∧ lbPair = p.lbPair ∧ 1 ≤ binsToAdd.toNat ∧
            binsToAdd.toNat ≤ MAX_RESIZE_LENGTH ∧
            p.width + binsToAdd.toNat ≤ MAX_POSITION_WIDTH :=
  positions_reachable sampleDlmm_faithful sample_fresh position_run taken_hasPosition

end PoolState

end HedgeVault
