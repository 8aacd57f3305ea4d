import HedgeVault.Instructions.Venues
import HedgeVault.Protocol.DlmmCpi
import HedgeVault.Utils.Seeds

/-!
# DLMM instructions

The handlers on a DLMM strategy up to the call they make, and what they check of the position
account and of the bins asked for. A handler returns the world it leaves and its call. DLMM is
outside: `DlmmVenue` says how a call can change the positions, and how they can change in
transactions the vault does not sign.
-/

namespace HedgeVault

open Lib

/-! ## Bins -/

def orInvalidRange {α : Type} : Option α → Result α
  | some a => .ok a
  | none => .error (.custom .invalidPositionBinRange)

def checkedBinRange (positionLower positionUpper : I32) (requested : Option (I32 × I32)) :
    Result (I32 × I32) := do
  let range := requested.getD (positionLower, positionUpper)
  validate (positionLower.toInt ≤ range.1.toInt ∧ range.2.toInt ≤ positionUpper.toInt ∧
    range.1.toInt ≤ range.2.toInt) .invalidPositionBinRange
  pure range

def initialWidth (lowerBinId upperBinId : I32) : Result I32 := do
  let width ← orInvalidRange (I32.checkedSub upperBinId lowerBinId)
  validate (1 ≤ width.toInt ∧ width.toInt ≤ 70) .invalidPositionBinRange
  pure width

def MAX_POSITION_WIDTH : Int := 1400
/-- Meteora's `MAX_RESIZE_LENGTH`. -/
def MAX_RESIZE_LENGTH : Nat := 91
def UPPER_SIDE : U8 := 1

def validateExtension (lower upper : I32) (binsToAdd : U16) : Result Unit := do
  validate (1 ≤ binsToAdd.toNat ∧ binsToAdd.toNat ≤ MAX_RESIZE_LENGTH) .invalidPositionBinRange
  let span ← orInvalidRange (I32.checkedSub upper lower)
  let width ← orInvalidRange (I32.checkedAdd span 1)
  validate ((1 ≤ width.toInt ∧ width.toInt ≤ MAX_POSITION_WIDTH) ∧
    (I32.checkedAdd width (.fromU16 binsToAdd)).any (·.toInt ≤ MAX_POSITION_WIDTH))
    .invalidPositionBinRange

/-- How many bins a position spans. -/
def PositionV2.width (p : PositionV2) : Int := p.upperBinId.toInt - p.lowerBinId.toInt + 1

theorem orInvalidRange_eq_ok {α : Type} {o : Option α} {a : α} :
    orInvalidRange o = .ok a ↔ o = some a := by
  cases o <;> simp [orInvalidRange]

theorem checkedBinRange_eq_ok {lower upper : I32} {requested : Option (I32 × I32)}
    {range : I32 × I32} : checkedBinRange lower upper requested = .ok range ↔
    range = requested.getD (lower, upper) ∧ lower.toInt ≤ range.1.toInt ∧
      range.2.toInt ≤ upper.toInt ∧ range.1.toInt ≤ range.2.toInt := by
  simp only [checkedBinRange, bind_eq_ok, validate_eq_ok, pure_eq_ok]
  constructor
  · rintro ⟨_, hrange, rfl⟩
    exact ⟨rfl, hrange⟩
  · rintro ⟨rfl, hrange⟩
    exact ⟨(), hrange, rfl⟩

theorem initialWidth_eq_ok {lower upper width : I32} : initialWidth lower upper = .ok width ↔
    width.toInt = upper.toInt - lower.toInt ∧ 1 ≤ width.toInt ∧ width.toInt ≤ 70 := by
  simp only [initialWidth, bind_eq_ok, orInvalidRange_eq_ok, I32.checkedSub_eq_some, validate_eq_ok,
    pure_eq_ok]
  constructor
  · rintro ⟨_, hwidth, _, hrange, rfl⟩
    exact ⟨hwidth, hrange⟩
  · rintro ⟨hwidth, hrange⟩
    exact ⟨width, hwidth, (), hrange, rfl⟩

/-- Small numbers are words. -/
theorem I32.exists_toInt {n : Int} (h0 : 0 ≤ n) (h1 : n < 2 ^ 31) : ∃ a : I32, a.toInt = n :=
  ⟨BitVec.ofInt 32 n, BitVec.toInt_ofInt_eq_self (by decide) (by omega) (by omega)⟩

/-- What an extension of a position has to keep to. -/
theorem validateExtension_eq_ok {p : PositionV2} {binsToAdd : U16} {u : Unit} :
    validateExtension p.lowerBinId p.upperBinId binsToAdd = .ok u ↔
      (1 ≤ binsToAdd.toNat ∧ binsToAdd.toNat ≤ MAX_RESIZE_LENGTH) ∧ 1 ≤ p.width ∧
        p.width + binsToAdd.toNat ≤ MAX_POSITION_WIDTH := by
  have hmaximum : MAX_POSITION_WIDTH = 1400 := rfl
  have hone : (1 : I32).toInt = 1 := by decide
  unfold PositionV2.width
  simp only [validateExtension, bind_eq_ok, orInvalidRange_eq_ok, I32.checkedSub_eq_some,
    I32.checkedAdd_eq_some, validate_eq_ok, Option.any_eq_true, decide_eq_true_eq,
    I32.fromU16_toInt, hone]
  constructor
  · rintro ⟨_, hbins, span, hspan, width, hwidth, ⟨hpos, _⟩, wider, hwider, hmax⟩
    refine ⟨hbins, ?_, ?_⟩
    · omega
    · omega
  · rintro ⟨hbins, hpos, hmax⟩
    obtain ⟨span, hspan⟩ := I32.exists_toInt (n := p.upperBinId.toInt - p.lowerBinId.toInt)
      (by omega) (by omega)
    obtain ⟨width, hwidth⟩ := I32.exists_toInt (n := span.toInt + 1) (by omega) (by omega)
    obtain ⟨wider, hwider⟩ := I32.exists_toInt (n := width.toInt + binsToAdd.toNat)
      (by omega) (by omega)
    refine ⟨(), hbins, span, hspan, width, hwidth, ?_, wider, hwider, ?_⟩
    · omega
    · omega

/-! ## Calls -/

/-- The position accounts of DLMM, by their address. -/
abbrev Positions := Pubkey → Option PositionV2

/-- A call, with the accounts that matter: the position, its pair where the instruction takes
one, and who signs for the position. -/
structure DlmmCall where
  position : Pubkey
  lbPair : Option Pubkey
  sender : Pubkey
  signerSeeds : List (List Byte)
  data : List Byte

def DlmmCall.Asks (c : DlmmCall) (r : DlmmRequest) : Prop := DlmmRequest.read.Reads c.data r

/-- What DLMM makes of a call, and what becomes of the positions in transactions that the owner
of some of them does not sign. -/
structure DlmmVenue where
  answers : Positions → DlmmCall → Positions → Prop
  drifts : Pubkey → Positions → Positions → Prop

/-- What the program relies on. A position is made with the bins asked for, grows above its
upper bin, is not moved by liquidity or claims, and is closed; without its owner nothing
happens to it. -/
structure DlmmVenue.Faithful (D : DlmmVenue) : Prop where
  initializes : ∀ {P P' c lowerBinId width lbPair}, D.answers P c P' →
    c.Asks (.initializePosition2 lowerBinId width) → c.lbPair = some lbPair →
      ∃ upperBinId : I32, upperBinId.toInt = lowerBinId.toInt + width.toInt - 1 ∧
        P' = Function.update P c.position (some ⟨lbPair, c.sender, lowerBinId, upperBinId⟩)
  increases : ∀ {P P' c lengthToAdd}, D.answers P c P' →
    c.Asks (.increasePositionLength lengthToAdd UPPER_SIDE) →
      ∃ p upperBinId, P c.position = some p ∧
        upperBinId.toInt = p.upperBinId.toInt + lengthToAdd.toNat ∧
        P' = Function.update P c.position (some { p with upperBinId })
  adds : ∀ {P P' c parameter info}, D.answers P c P' →
    c.Asks (.addLiquidityByStrategy2 parameter info) → P' = P
  removes : ∀ {P P' c fromBinId toBinId bps info}, D.answers P c P' →
    c.Asks (.removeLiquidityByRange2 fromBinId toBinId bps info) → P' = P
  claims : ∀ {P P' c minBinId maxBinId info}, D.answers P c P' →
    c.Asks (.claimFee2 minBinId maxBinId info) → P' = P
  closes : ∀ {P P' c}, D.answers P c P' → c.Asks .closePosition2 →
    P' = Function.update P c.position none
  keeps : ∀ {owner P P' k p}, D.drifts owner P P' → P k = some p → p.owner = owner → P' k = some p

/-! ## Handlers -/

namespace World

variable (bump : U8) (P : Positions) (w : World) (authority : Signer) (position lbPair : Pubkey)

/-- A call that the vault signs. -/
def dlmmCall (position : Pubkey) (lbPair : Option Pubkey) (request : DlmmRequest) : DlmmCall where
  position
  lbPair
  sender := w.key
  signerSeeds := vaultSeeds w.vault.id bump
  data := request.data

def meteoraDlmmInitializePosition (lowerBinId upperBinId : I32) : Result (World × DlmmCall) := do
  let w' ← w.initializeStrategy authority (.meteoraDlmm position) (.ok ())
  let width ← initialWidth lowerBinId upperBinId
  pure (w', w.dlmmCall bump position (some lbPair) (.initializePosition2 lowerBinId width))

/-- The one handler that leaves no stamp. -/
def meteoraDlmmExtendPosition (binsToAdd : U16) : Result (World × DlmmCall) := do
  let strategy ← load (w.strategies.lookup position)
  let p ← load (P position)
  w.config.isProtocolOperational
  w.vault.validateAuthority authority.key
  w.vault.isVaultOperational
  validate (strategy.strategyType = .meteoraDlmm position) .invalidPosition
  validate (p.owner = w.key) .invalidPosition
  validate (p.lbPair = lbPair) .invalidPosition
  validateExtension p.lowerBinId p.upperBinId binsToAdd
  pure (w, w.dlmmCall bump position (some lbPair) (.increasePositionLength binsToAdd UPPER_SIDE))

def meteoraDlmmAddLiquidity (liquidityParameter : LiquidityParameterByStrategy)
    (remainingAccountsInfo : RemainingAccountsInfo) : Result (World × DlmmCall) := do
  let w' ← w.actOn authority position w.config.isProtocolOperational w.vault.isVaultOperational
    (·.validatePosition position)
  pure (w', w.dlmmCall bump position (some lbPair)
    (.addLiquidityByStrategy2 liquidityParameter remainingAccountsInfo))

/-- `requestedRange` is that of the instruction for a range; the other one takes all bins. -/
def meteoraDlmmRemoveLiquidity (bpsToRemove : U16) (remainingAccountsInfo : RemainingAccountsInfo)
    (requestedRange : Option (I32 × I32)) : Result (World × DlmmCall) := do
  let p ← load (P position)
  let w' ← w.actOn authority position w.config.isProtocolOperational w.vault.isVaultWithdrawable
    (·.validatePosition position)
  let range ← checkedBinRange p.lowerBinId p.upperBinId requestedRange
  pure (w', w.dlmmCall bump position (some lbPair)
    (.removeLiquidityByRange2 range.1 range.2 bpsToRemove remainingAccountsInfo))

def meteoraDlmmClaimFee (treasuryAuthority : Pubkey) (remainingAccountsInfo : RemainingAccountsInfo)
    (requestedRange : Option (I32 × I32)) : Result (World × DlmmCall) := do
  let p ← load (P position)
  let protocolGate : Result Unit := do
    w.config.isProtocolOperational
    w.config.validateTreasuryAuthority treasuryAuthority
  let w' ← w.actOn authority position protocolGate w.vault.isVaultWithdrawable
    (·.validatePosition position)
  let range ← checkedBinRange p.lowerBinId p.upperBinId requestedRange
  pure (w', w.dlmmCall bump position (some lbPair)
    (.claimFee2 range.1 range.2 remainingAccountsInfo))

/-- What a close checks of the accounts of a DLMM record. -/
def checkClosing (position : Pubkey) : List Pubkey → Result Unit
  | [positionAccount, dlmmProgram, _] => do
    validate (positionAccount = position) .invalidPosition
    validate (dlmmProgram = DLMM_ID) .invalidProgramId
  | _ => .error (.custom .invalidRemainingAccounts)

/-- `checks` is the verdict on the holdings of a record of another kind. -/
def closeDlmmStrategy (protocolAccount : Pubkey) (remaining : List Pubkey) (checks : Result Unit) :
    Result (World × Option DlmmCall) := do
  let strategy ← load (w.strategies.lookup protocolAccount)
  match strategy.strategyType with
  | .meteoraDlmm position =>
    let w' ← w.vaultCloseStrategy authority protocolAccount (checkClosing position remaining)
    pure (w', some (w.dlmmCall bump position none .closePosition2))
  | _ => do pure (← w.vaultCloseStrategy authority protocolAccount checks, none)

end World

/-! ## Steps -/

inductive DlmmInstruction where
  | initializePosition (lowerBinId upperBinId : I32)
  | extendPosition (binsToAdd : U16)
  | addLiquidity (liquidityParameter : LiquidityParameterByStrategy)
    (remainingAccountsInfo : RemainingAccountsInfo)
  | removeLiquidity (bpsToRemove : U16) (remainingAccountsInfo : RemainingAccountsInfo)
    (requestedRange : Option (I32 × I32))
  | claimFee (treasuryAuthority : Pubkey) (remainingAccountsInfo : RemainingAccountsInfo)
    (requestedRange : Option (I32 × I32))

/-- What the program does without opening a DLMM record or closing any. -/
def Instruction.besideDlmm : Instruction → Bool
  | .initializeStrategy (.meteoraDlmm _) _ => false
  | .vaultCloseStrategy _ _ => false
  | _ => true

inductive PoolInstruction where
  | program (ix : { ix : Instruction // ix.besideDlmm = true })
  | dlmm (ix : DlmmInstruction) (position lbPair : Pubkey)
  | closeStrategy (protocolAccount : Pubkey) (remaining : List Pubkey) (checks : Result Unit)
  /-- What happens at DLMM without the vault. -/
  | others

structure PoolTx where
  signer : Signer
  now : I64
  ix : PoolInstruction

/-- The world of a vault with the positions of DLMM. -/
structure PoolState where
  world : World
  positions : Positions

namespace World

def executeDlmm (bump : U8) (P : Positions) (w : World) (authority : Signer)
    (position lbPair : Pubkey) : DlmmInstruction → Result (World × DlmmCall)
  | .initializePosition lowerBinId upperBinId =>
    w.meteoraDlmmInitializePosition bump authority position lbPair lowerBinId upperBinId
  | .extendPosition binsToAdd =>
    w.meteoraDlmmExtendPosition bump P authority position lbPair binsToAdd
  | .addLiquidity liquidityParameter info =>
    w.meteoraDlmmAddLiquidity bump authority position lbPair liquidityParameter info
  | .removeLiquidity bpsToRemove info range =>
    w.meteoraDlmmRemoveLiquidity bump P authority position lbPair bpsToRemove info range
  | .claimFee treasuryAuthority info range =>
    w.meteoraDlmmClaimFee bump P authority position lbPair treasuryAuthority info range

end World

namespace PoolState

/-- The world that a transaction leaves, and its call. -/
def handle (bump : U8) (s : PoolState) (tx : PoolTx) : Result (World × Option DlmmCall) :=
  let w := { s.world with clock := tx.now }
  match tx.ix with
  | .program ix => do pure (← w.execute tx.signer ix.1, none)
  | .dlmm ix position lbPair => do
    let (w', call) ← w.executeDlmm bump s.positions tx.signer position lbPair ix
    pure (w', some call)
  | .closeStrategy protocolAccount remaining checks =>
    w.closeDlmmStrategy bump tx.signer protocolAccount remaining checks
  | .others => pure (w, none)

/-- The positions after the call, or after what happens without one. -/
def Settles (D : DlmmVenue) (s : PoolState) (call : Option DlmmCall) (P' : Positions) : Prop :=
  match call with
  | some c => D.answers s.positions c P'
  | none => D.drifts s.world.key s.positions P'

def Step (D : DlmmVenue) (bump : U8) (s : PoolState) (tx : PoolTx) (s' : PoolState) : Prop :=
  ∃ call, s.handle bump tx = .ok (s'.world, call) ∧ s.Settles D call s'.positions

/-- The calls of a step. -/
def sent (bump : U8) (t : Transition PoolState PoolTx) : List DlmmCall :=
  match t.pre.handle bump t.label with
  | .ok (_, some c) => [c]
  | _ => []

end PoolState

end HedgeVault
