import HedgeVault.Lib.Codec
import HedgeVault.Constants

/-!
# Calls to the DLMM program

The requests the vault program makes of DLMM, with their bytes: the discriminator of the
instruction, then the arguments in the order of the interface. What a call asks for is read
back from its bytes (`DlmmRequest.reads`). Of a position account the program reads
`PositionV2`. An `i32` is a word that is read with its sign.
-/

namespace HedgeVault

open Lib

abbrev I32 := BitVec 32

namespace I32

/-- `checked_add`. -/
def checkedAdd (a b : I32) : Option I32 := if a.saddOverflow b then none else some (a + b)

/-- `checked_sub`. -/
def checkedSub (a b : I32) : Option I32 := if a.ssubOverflow b then none else some (a - b)

theorem toInt_lt (a : I32) : a.toInt < 2 ^ 31 := BitVec.toInt_lt

theorem le_toInt (a : I32) : -2 ^ 31 ≤ a.toInt := BitVec.le_toInt a

theorem checkedAdd_eq_some {a b c : I32} :
    checkedAdd a b = some c ↔ c.toInt = a.toInt + b.toInt := by
  unfold checkedAdd
  constructor
  · intro h
    split at h
    · cases h
    · next hno =>
      cases h
      exact BitVec.toInt_add_of_not_saddOverflow hno
  · intro h
    have hno : ¬ a.saddOverflow b = true := by
      have hlt := toInt_lt c
      have hle := le_toInt c
      unfold BitVec.saddOverflow
      rw [Bool.or_eq_true, decide_eq_true_eq, decide_eq_true_eq]
      omega
    rw [if_neg hno]
    exact congrArg some (BitVec.eq_of_toInt_eq (by
      rw [BitVec.toInt_add_of_not_saddOverflow hno, h]))

theorem checkedSub_eq_some {a b c : I32} :
    checkedSub a b = some c ↔ c.toInt = a.toInt - b.toInt := by
  unfold checkedSub
  constructor
  · intro h
    split at h
    · cases h
    · next hno =>
      cases h
      exact BitVec.toInt_sub_of_not_ssubOverflow hno
  · intro h
    have hno : ¬ a.ssubOverflow b = true := by
      have hlt := toInt_lt c
      have hle := le_toInt c
      unfold BitVec.ssubOverflow
      rw [Bool.or_eq_true, decide_eq_true_eq, decide_eq_true_eq]
      omega
    rw [if_neg hno]
    exact congrArg some (BitVec.eq_of_toInt_eq (by
      rw [BitVec.toInt_sub_of_not_ssubOverflow hno, h]))

/-- `i32::from` a `u16`. -/
def fromU16 (a : U16) : I32 := a.setWidth 32

@[simp] theorem fromU16_toInt (a : U16) : (fromU16 a).toInt = a.toNat := by
  have hlt := a.isLt
  have hnat : (fromU16 a).toNat = a.toNat := by
    unfold fromU16
    rw [BitVec.toNat_setWidth]
    omega
  rw [BitVec.toInt_eq_toNat_of_lt (by omega), hnat]

end I32

/-! ## The types of the interface -/

/-- What the program reads of a position. -/
structure PositionV2 where
  lbPair : Pubkey
  owner : Pubkey
  lowerBinId : I32
  upperBinId : I32

inductive AccountsType where
  | transferHookX
  | transferHookY
  | transferHookReward
  | transferHookMultiReward (index : U8)

structure RemainingAccountsSlice where
  accountsType : AccountsType
  length : U8

/-- A vector that was read from call data, so its length fits its prefix. -/
structure RemainingAccountsInfo where
  slices : List RemainingAccountsSlice
  fits : slices.length < 2 ^ 32

inductive DlmmStrategyType where
  | spotOneSide
  | curveOneSide
  | bidAskOneSide
  | spotBalanced
  | curveBalanced
  | bidAskBalanced
  | spotImBalanced
  | curveImBalanced
  | bidAskImBalanced
  deriving DecidableEq

structure StrategyParameters where
  minBinId : I32
  maxBinId : I32
  strategyType : DlmmStrategyType
  /-- 64 bytes, as the word they spell. -/
  parameteres : BitVec 512

structure LiquidityParameterByStrategy where
  amountX : U64
  amountY : U64
  activeId : I32
  maxActiveBinSlippage : I32
  strategyParameters : StrategyParameters

/-- What a call asks of DLMM. -/
inductive DlmmRequest where
  | initializePosition2 (lowerBinId width : I32)
  | increasePositionLength (lengthToAdd : U16) (side : U8)
  | addLiquidityByStrategy2 (liquidityParameter : LiquidityParameterByStrategy)
    (remainingAccountsInfo : RemainingAccountsInfo)
  | removeLiquidityByRange2 (fromBinId toBinId : I32) (bpsToRemove : U16)
    (remainingAccountsInfo : RemainingAccountsInfo)
  | claimFee2 (minBinId maxBinId : I32) (remainingAccountsInfo : RemainingAccountsInfo)
  | closePosition2

/-! ## Serializers -/

instance : Borsh (BitVec 16) := Borsh.word 2
instance : Borsh (BitVec 512) := Borsh.word 64

instance : Borsh AccountsType where
  serialize
    | .transferHookX => [0]
    | .transferHookY => [1]
    | .transferHookReward => [2]
    | .transferHookMultiReward index => 3 :: serialize index
  deserialize := tagged fun t =>
    if t = 0 then .pure .transferHookX
    else if t = 1 then .pure .transferHookY
    else if t = 2 then .pure .transferHookReward
    else if t = 3 then deserialize.bind fun index => .pure (.transferHookMultiReward index)
    else .fail
  reads t := by
    cases t with
    | transferHookX => exact Reads.tag_pure rfl
    | transferHookY => exact Reads.tag_pure rfl
    | transferHookReward => exact Reads.tag_pure rfl
    | transferHookMultiReward index =>
      exact Reads.tag ((Borsh.reads index).last AccountsType.transferHookMultiReward)

instance : Borsh RemainingAccountsSlice where
  serialize slice := [serialize slice.accountsType, serialize slice.length].flatten
  deserialize :=
    deserialize.bind fun accountsType =>
    deserialize.bind fun length =>
    .pure { accountsType, length }
  reads slice :=
    (Borsh.reads slice.accountsType).bind <|
    (Borsh.reads slice.length).bind <|
    Decoder.Reads.pure slice

instance : Borsh RemainingAccountsInfo where
  serialize info := serializeVec info.slices
  deserialize := deserialize.vec.bind fun slices =>
    if h : slices.length < 2 ^ 32 then .pure ⟨slices, h⟩ else .fail
  reads info := by
    have hinfo := (reads_vec info.fits).bind (f := fun slices =>
      if h : slices.length < 2 ^ 32 then .pure (⟨slices, h⟩ : RemainingAccountsInfo) else .fail)
      (y := []) (b := info) (by rw [dif_pos info.fits]; exact Decoder.Reads.pure info)
    rwa [List.append_nil] at hinfo

namespace DlmmStrategyType

def tag : DlmmStrategyType → Byte
  | spotOneSide => 0
  | curveOneSide => 1
  | bidAskOneSide => 2
  | spotBalanced => 3
  | curveBalanced => 4
  | bidAskBalanced => 5
  | spotImBalanced => 6
  | curveImBalanced => 7
  | bidAskImBalanced => 8

def variants : List DlmmStrategyType :=
  [spotOneSide, curveOneSide, bidAskOneSide, spotBalanced, curveBalanced, bidAskBalanced,
    spotImBalanced, curveImBalanced, bidAskImBalanced]

end DlmmStrategyType

/-- The variant index is the tag. -/
instance : Borsh DlmmStrategyType where
  serialize ty := [ty.tag]
  deserialize := tagged fun t =>
    match DlmmStrategyType.variants[t.toNat]? with
    | some ty => .pure ty
    | none => .fail
  reads ty := by
    cases ty with
    | _ => exact Reads.tag_pure rfl

instance : Borsh StrategyParameters where
  serialize p := [serialize p.minBinId, serialize p.maxBinId, serialize p.strategyType,
    serialize p.parameteres].flatten
  deserialize :=
    deserialize.bind fun minBinId =>
    deserialize.bind fun maxBinId =>
    deserialize.bind fun strategyType =>
    deserialize.bind fun parameteres =>
    .pure { minBinId, maxBinId, strategyType, parameteres }
  reads p :=
    (Borsh.reads p.minBinId).bind <|
    (Borsh.reads p.maxBinId).bind <|
    (Borsh.reads p.strategyType).bind <|
    (Borsh.reads p.parameteres).bind <|
    Decoder.Reads.pure p

instance : Borsh LiquidityParameterByStrategy where
  serialize p := [serialize p.amountX, serialize p.amountY, serialize p.activeId,
    serialize p.maxActiveBinSlippage, serialize p.strategyParameters].flatten
  deserialize :=
    deserialize.bind fun amountX =>
    deserialize.bind fun amountY =>
    deserialize.bind fun activeId =>
    deserialize.bind fun maxActiveBinSlippage =>
    deserialize.bind fun strategyParameters =>
    .pure { amountX, amountY, activeId, maxActiveBinSlippage, strategyParameters }
  reads p :=
    (Borsh.reads p.amountX).bind <|
    (Borsh.reads p.amountY).bind <|
    (Borsh.reads p.activeId).bind <|
    (Borsh.reads p.maxActiveBinSlippage).bind <|
    (Borsh.reads p.strategyParameters).bind <|
    Decoder.Reads.pure p

/-! ## Call data -/

def INITIALIZE_POSITION2 : List Byte := [143, 19, 242, 145, 213, 15, 104, 115]
def INCREASE_POSITION_LENGTH : List Byte := [80, 83, 117, 211, 66, 13, 33, 149]
def ADD_LIQUIDITY_BY_STRATEGY2 : List Byte := [3, 221, 149, 218, 111, 141, 118, 213]
def REMOVE_LIQUIDITY_BY_RANGE2 : List Byte := [204, 2, 195, 145, 53, 145, 145, 205]
def CLAIM_FEE2 : List Byte := [112, 191, 101, 171, 28, 144, 127, 187]
def CLOSE_POSITION2 : List Byte := [174, 90, 35, 115, 186, 40, 147, 226]

namespace DlmmRequest

def data : DlmmRequest → List Byte
  | initializePosition2 lowerBinId width =>
    INITIALIZE_POSITION2 ++ [serialize lowerBinId, serialize width].flatten
  | increasePositionLength lengthToAdd side =>
    INCREASE_POSITION_LENGTH ++ [serialize lengthToAdd, serialize side].flatten
  | addLiquidityByStrategy2 liquidityParameter remainingAccountsInfo =>
    ADD_LIQUIDITY_BY_STRATEGY2 ++
      [serialize liquidityParameter, serialize remainingAccountsInfo].flatten
  | removeLiquidityByRange2 fromBinId toBinId bpsToRemove remainingAccountsInfo =>
    REMOVE_LIQUIDITY_BY_RANGE2 ++ [serialize fromBinId, serialize toBinId,
      serialize bpsToRemove, serialize remainingAccountsInfo].flatten
  | claimFee2 minBinId maxBinId remainingAccountsInfo =>
    CLAIM_FEE2 ++
      [serialize minBinId, serialize maxBinId, serialize remainingAccountsInfo].flatten
  | closePosition2 => CLOSE_POSITION2

def readInitialize : Decoder DlmmRequest :=
  deserialize.bind fun lowerBinId =>
  deserialize.bind fun width =>
  .pure (initializePosition2 lowerBinId width)

def readIncrease : Decoder DlmmRequest :=
  deserialize.bind fun lengthToAdd =>
  deserialize.bind fun side =>
  .pure (increasePositionLength lengthToAdd side)

def readAdd : Decoder DlmmRequest :=
  deserialize.bind fun liquidityParameter =>
  deserialize.bind fun remainingAccountsInfo =>
  .pure (addLiquidityByStrategy2 liquidityParameter remainingAccountsInfo)

def readRemove : Decoder DlmmRequest :=
  deserialize.bind fun fromBinId =>
  deserialize.bind fun toBinId =>
  deserialize.bind fun bpsToRemove =>
  deserialize.bind fun remainingAccountsInfo =>
  .pure (removeLiquidityByRange2 fromBinId toBinId bpsToRemove remainingAccountsInfo)

def readClaim : Decoder DlmmRequest :=
  deserialize.bind fun minBinId =>
  deserialize.bind fun maxBinId =>
  deserialize.bind fun remainingAccountsInfo =>
  .pure (claimFee2 minBinId maxBinId remainingAccountsInfo)

/-- The arguments that follow a discriminator. -/
def readArgs (discriminator : List Byte) : Decoder DlmmRequest :=
  if discriminator = INITIALIZE_POSITION2 then readInitialize
  else if discriminator = INCREASE_POSITION_LENGTH then readIncrease
  else if discriminator = ADD_LIQUIDITY_BY_STRATEGY2 then readAdd
  else if discriminator = REMOVE_LIQUIDITY_BY_RANGE2 then readRemove
  else if discriminator = CLAIM_FEE2 then readClaim
  else if discriminator = CLOSE_POSITION2 then .pure closePosition2
  else .fail

def read : Decoder DlmmRequest := (Decoder.bytes 8).bind readArgs

theorem read_behind (discriminator : List Byte) {args : List Byte} {r : DlmmRequest}
    (hlen : discriminator.length = 8) (h : (readArgs discriminator).Reads args r) :
    read.Reads (discriminator ++ args) r := by
  have hbytes := Decoder.reads_bytes discriminator
  rw [hlen] at hbytes
  exact hbytes.bind h

/-- What a call asks for is read back from its data. -/
theorem reads (r : DlmmRequest) : read.Reads r.data r := by
  cases r with
  | initializePosition2 lowerBinId width =>
    refine read_behind INITIALIZE_POSITION2 rfl (show readInitialize.Reads _ _ from ?_)
    refine (Borsh.reads lowerBinId).bind ?_
    refine (Borsh.reads width).bind ?_
    exact Decoder.Reads.pure _
  | increasePositionLength lengthToAdd side =>
    refine read_behind INCREASE_POSITION_LENGTH rfl (show readIncrease.Reads _ _ from ?_)
    refine (Borsh.reads lengthToAdd).bind ?_
    refine (Borsh.reads side).bind ?_
    exact Decoder.Reads.pure _
  | addLiquidityByStrategy2 liquidityParameter info =>
    refine read_behind ADD_LIQUIDITY_BY_STRATEGY2 rfl (show readAdd.Reads _ _ from ?_)
    refine (Borsh.reads liquidityParameter).bind ?_
    refine (Borsh.reads info).bind ?_
    exact Decoder.Reads.pure _
  | removeLiquidityByRange2 fromBinId toBinId bpsToRemove info =>
    refine read_behind REMOVE_LIQUIDITY_BY_RANGE2 rfl (show readRemove.Reads _ _ from ?_)
    refine (Borsh.reads fromBinId).bind ?_
    refine (Borsh.reads toBinId).bind ?_
    refine (Borsh.reads bpsToRemove).bind ?_
    refine (Borsh.reads info).bind ?_
    exact Decoder.Reads.pure _
  | claimFee2 minBinId maxBinId info =>
    refine read_behind CLAIM_FEE2 rfl (show readClaim.Reads _ _ from ?_)
    refine (Borsh.reads minBinId).bind ?_
    refine (Borsh.reads maxBinId).bind ?_
    refine (Borsh.reads info).bind ?_
    exact Decoder.Reads.pure _
  | closePosition2 => exact read_behind CLOSE_POSITION2 rfl (Decoder.Reads.pure _)

end DlmmRequest

end HedgeVault
