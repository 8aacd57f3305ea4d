import HedgeVault.Lib.Codec
import HedgeVault.Constants
import HedgeVault.Error

/-!
# Phoenix order and cancel instructions

The order packets and cancel requests with their bytes: the discriminator of the
instruction, then the arguments with their fields in the order of their declaration. A
variant starts with its index as a byte.
-/

namespace HedgeVault

open Lib

def PLACE_MARKET_ORDER : List Byte := [90, 118, 192, 252, 192, 99, 39, 145]
def PLACE_LIMIT_ORDER : List Byte := [108, 176, 33, 186, 146, 229, 1, 197]
def CANCEL_ALL : List Byte := [98, 191, 75, 220, 115, 40, 71, 237]
def CANCEL_UP_TO : List Byte := [26, 209, 244, 253, 59, 175, 227, 54]
def CANCEL_ORDERS_BY_ID : List Byte := [234, 204, 126, 94, 222, 22, 141, 24]

def MAX_CANCEL_ORDER_IDS : Nat := 100

def ORDER_FLAG_NONE : U8 := 0
def ORDER_FLAG_REDUCE_ONLY : U8 := 128

inductive PhoenixSide where
  | bid
  | ask
  deriving DecidableEq

inductive PhoenixSelfTradeBehavior where
  | abort
  | cancelProvide
  | decrementTake
  deriving DecidableEq

structure PhoenixCancelId where
  nodePointer : U32
  priceInTicks : U64
  orderSequenceNumber : U64

structure CancelUpToArgs where
  side : PhoenixSide
  numOrdersToCancel : Option U64
  tickLimit : Option U64

inductive PhoenixCancelMode where
  | all
  | upTo (side : PhoenixSide) (numOrdersToCancel tickLimit : Option U64)
  | byId (orders : List PhoenixCancelId)

/-- Variant order is the wire tag. -/
inductive OrderPacket where
  | postOnly (side : PhoenixSide) (priceInTicks numBaseLots : U64) (clientOrderId : U128)
      (slide : Bool) (lastValidSlot : Option U64) (orderFlags : U8) (cancelExisting : Bool)
  | limit (side : PhoenixSide) (priceInTicks numBaseLots : U64)
      (selfTradeBehavior : PhoenixSelfTradeBehavior) (matchLimit : Option U64)
      (clientOrderId : U128) (lastValidSlot : Option U64) (orderFlags : U8)
      (cancelExisting : Bool)
  | immediateOrCancel (side : PhoenixSide) (priceInTicks : Option U64) (numBaseLots : U64)
      (numQuoteLots : Option U64) (minBaseLotsToFill minQuoteLotsToFill : U64)
      (selfTradeBehavior : PhoenixSelfTradeBehavior) (matchLimit : Option U64)
      (clientOrderId : U128) (lastValidSlot : Option U64) (orderFlags : U8)
      (cancelExisting : Bool)

/-! ## Serializers -/

instance : Borsh PhoenixSide where
  serialize
    | .bid => [0]
    | .ask => [1]
  deserialize := tagged fun t =>
    if t = 0 then .pure .bid else if t = 1 then .pure .ask else .fail
  reads side := by
    cases side with
    | bid => exact Reads.tag_pure rfl
    | ask => exact Reads.tag_pure rfl

instance : Borsh PhoenixSelfTradeBehavior where
  serialize
    | .abort => [0]
    | .cancelProvide => [1]
    | .decrementTake => [2]
  deserialize := tagged fun t =>
    if t = 0 then .pure .abort
    else if t = 1 then .pure .cancelProvide
    else if t = 2 then .pure .decrementTake
    else .fail
  reads behavior := by
    cases behavior with
    | abort => exact Reads.tag_pure rfl
    | cancelProvide => exact Reads.tag_pure rfl
    | decrementTake => exact Reads.tag_pure rfl

instance : Borsh PhoenixCancelId where
  serialize id := [serialize id.nodePointer, serialize id.priceInTicks,
    serialize id.orderSequenceNumber].flatten
  deserialize :=
    deserialize.bind fun nodePointer =>
    deserialize.bind fun priceInTicks =>
    deserialize.bind fun orderSequenceNumber =>
    .pure { nodePointer, priceInTicks, orderSequenceNumber }
  reads id :=
    (Borsh.reads id.nodePointer).bind <|
    (Borsh.reads id.priceInTicks).bind <|
    (Borsh.reads id.orderSequenceNumber).bind <|
    Decoder.Reads.pure id

instance : Borsh CancelUpToArgs where
  serialize args :=
    [serialize args.side, serialize args.numOrdersToCancel, serialize args.tickLimit].flatten
  deserialize :=
    deserialize.bind fun side =>
    deserialize.bind fun numOrdersToCancel =>
    deserialize.bind fun tickLimit =>
    .pure { side, numOrdersToCancel, tickLimit }
  reads args :=
    (Borsh.reads args.side).bind <|
    (Borsh.reads args.numOrdersToCancel).bind <|
    (Borsh.reads args.tickLimit).bind <|
    Decoder.Reads.pure args

namespace OrderPacket

def serialize : OrderPacket → List Byte
  | postOnly side priceInTicks numBaseLots clientOrderId slide lastValidSlot orderFlags
      cancelExisting =>
    0 :: [Lib.serialize side, Lib.serialize priceInTicks, Lib.serialize numBaseLots,
      Lib.serialize clientOrderId, Lib.serialize slide, Lib.serialize lastValidSlot,
      Lib.serialize orderFlags, Lib.serialize cancelExisting].flatten
  | limit side priceInTicks numBaseLots selfTradeBehavior matchLimit clientOrderId lastValidSlot
      orderFlags cancelExisting =>
    1 :: [Lib.serialize side, Lib.serialize priceInTicks, Lib.serialize numBaseLots,
      Lib.serialize selfTradeBehavior, Lib.serialize matchLimit, Lib.serialize clientOrderId,
      Lib.serialize lastValidSlot, Lib.serialize orderFlags,
      Lib.serialize cancelExisting].flatten
  | immediateOrCancel side priceInTicks numBaseLots numQuoteLots minBaseLotsToFill
      minQuoteLotsToFill selfTradeBehavior matchLimit clientOrderId lastValidSlot orderFlags
      cancelExisting =>
    2 :: [Lib.serialize side, Lib.serialize priceInTicks, Lib.serialize numBaseLots,
      Lib.serialize numQuoteLots, Lib.serialize minBaseLotsToFill,
      Lib.serialize minQuoteLotsToFill, Lib.serialize selfTradeBehavior,
      Lib.serialize matchLimit, Lib.serialize clientOrderId, Lib.serialize lastValidSlot,
      Lib.serialize orderFlags, Lib.serialize cancelExisting].flatten

def readPostOnly : Decoder OrderPacket :=
  deserialize.bind fun side =>
  deserialize.bind fun priceInTicks =>
  deserialize.bind fun numBaseLots =>
  deserialize.bind fun clientOrderId =>
  deserialize.bind fun slide =>
  deserialize.bind fun lastValidSlot =>
  deserialize.bind fun orderFlags =>
  deserialize.bind fun cancelExisting =>
  .pure (postOnly side priceInTicks numBaseLots clientOrderId slide lastValidSlot orderFlags
    cancelExisting)

def readLimit : Decoder OrderPacket :=
  deserialize.bind fun side =>
  deserialize.bind fun priceInTicks =>
  deserialize.bind fun numBaseLots =>
  deserialize.bind fun selfTradeBehavior =>
  deserialize.bind fun matchLimit =>
  deserialize.bind fun clientOrderId =>
  deserialize.bind fun lastValidSlot =>
  deserialize.bind fun orderFlags =>
  deserialize.bind fun cancelExisting =>
  .pure (limit side priceInTicks numBaseLots selfTradeBehavior matchLimit clientOrderId
    lastValidSlot orderFlags cancelExisting)

def readImmediateOrCancel : Decoder OrderPacket :=
  deserialize.bind fun side =>
  deserialize.bind fun priceInTicks =>
  deserialize.bind fun numBaseLots =>
  deserialize.bind fun numQuoteLots =>
  deserialize.bind fun minBaseLotsToFill =>
  deserialize.bind fun minQuoteLotsToFill =>
  deserialize.bind fun selfTradeBehavior =>
  deserialize.bind fun matchLimit =>
  deserialize.bind fun clientOrderId =>
  deserialize.bind fun lastValidSlot =>
  deserialize.bind fun orderFlags =>
  deserialize.bind fun cancelExisting =>
  .pure (immediateOrCancel side priceInTicks numBaseLots numQuoteLots minBaseLotsToFill
    minQuoteLotsToFill selfTradeBehavior matchLimit clientOrderId lastValidSlot orderFlags
    cancelExisting)

def decoder : Decoder OrderPacket := tagged fun t =>
  if t = 0 then readPostOnly
  else if t = 1 then readLimit
  else if t = 2 then readImmediateOrCancel
  else .fail

theorem reads (p : OrderPacket) : decoder.Reads p.serialize p := by
  cases p with
  | postOnly side priceInTicks numBaseLots clientOrderId slide lastValidSlot orderFlags
      cancelExisting =>
    refine Reads.tag (show readPostOnly.Reads _ _ from ?_)
    refine (Borsh.reads side).bind ?_
    refine (Borsh.reads priceInTicks).bind ?_
    refine (Borsh.reads numBaseLots).bind ?_
    refine (Borsh.reads clientOrderId).bind ?_
    refine (Borsh.reads slide).bind ?_
    refine (Borsh.reads lastValidSlot).bind ?_
    refine (Borsh.reads orderFlags).bind ?_
    refine (Borsh.reads cancelExisting).bind ?_
    exact Decoder.Reads.pure _
  | limit side priceInTicks numBaseLots selfTradeBehavior matchLimit clientOrderId lastValidSlot
      orderFlags cancelExisting =>
    refine Reads.tag (show readLimit.Reads _ _ from ?_)
    refine (Borsh.reads side).bind ?_
    refine (Borsh.reads priceInTicks).bind ?_
    refine (Borsh.reads numBaseLots).bind ?_
    refine (Borsh.reads selfTradeBehavior).bind ?_
    refine (Borsh.reads matchLimit).bind ?_
    refine (Borsh.reads clientOrderId).bind ?_
    refine (Borsh.reads lastValidSlot).bind ?_
    refine (Borsh.reads orderFlags).bind ?_
    refine (Borsh.reads cancelExisting).bind ?_
    exact Decoder.Reads.pure _
  | immediateOrCancel side priceInTicks numBaseLots numQuoteLots minBaseLotsToFill
      minQuoteLotsToFill selfTradeBehavior matchLimit clientOrderId lastValidSlot orderFlags
      cancelExisting =>
    refine Reads.tag (show readImmediateOrCancel.Reads _ _ from ?_)
    refine (Borsh.reads side).bind ?_
    refine (Borsh.reads priceInTicks).bind ?_
    refine (Borsh.reads numBaseLots).bind ?_
    refine (Borsh.reads numQuoteLots).bind ?_
    refine (Borsh.reads minBaseLotsToFill).bind ?_
    refine (Borsh.reads minQuoteLotsToFill).bind ?_
    refine (Borsh.reads selfTradeBehavior).bind ?_
    refine (Borsh.reads matchLimit).bind ?_
    refine (Borsh.reads clientOrderId).bind ?_
    refine (Borsh.reads lastValidSlot).bind ?_
    refine (Borsh.reads orderFlags).bind ?_
    refine (Borsh.reads cancelExisting).bind ?_
    exact Decoder.Reads.pure _

instance : Borsh OrderPacket := ⟨serialize, decoder, reads⟩

def orderFlags (reduceOnly : Bool) : U8 :=
  if reduceOnly then ORDER_FLAG_REDUCE_ONLY else ORDER_FLAG_NONE

end OrderPacket

/-! ## Instruction data -/

def instructionData {α : Type} [Borsh α] (discriminator : List Byte) (args : α) : List Byte :=
  discriminator ++ serialize args

def OrderPacket.discriminator : OrderPacket → List Byte
  | .immediateOrCancel .. => PLACE_MARKET_ORDER
  | .postOnly .. => PLACE_LIMIT_ORDER
  | .limit .. => PLACE_LIMIT_ORDER

def OrderPacket.instructionData (p : OrderPacket) : Result (List Byte) :=
  .ok (HedgeVault.instructionData p.discriminator p)

def PhoenixCancelMode.instructionData : PhoenixCancelMode → Result (List Byte)
  | .all => .ok CANCEL_ALL
  | .upTo side numOrdersToCancel tickLimit =>
    .ok (HedgeVault.instructionData CANCEL_UP_TO
      ({ side, numOrdersToCancel, tickLimit } : CancelUpToArgs))
  | .byId orders => do
    validate (orders ≠ [] ∧ orders.length ≤ MAX_CANCEL_ORDER_IDS) .invalidInstructionData
    pure (CANCEL_ORDERS_BY_ID ++ serializeVec orders)

/-! ## What the vault's manager asks for -/

structure PhoenixLimitOrderParams where
  side : PhoenixSide
  priceInTicks : U64
  numBaseLots : U64
  postOnly : Bool
  slide : Bool
  selfTradeBehavior : PhoenixSelfTradeBehavior
  matchLimit : Option U64
  clientOrderId : U128
  lastValidSlot : Option U64
  reduceOnly : Bool
  cancelExisting : Bool

def PhoenixLimitOrderParams.packet (params : PhoenixLimitOrderParams) : OrderPacket :=
  let flags := OrderPacket.orderFlags params.reduceOnly
  if params.postOnly then
    .postOnly params.side params.priceInTicks params.numBaseLots params.clientOrderId params.slide
      params.lastValidSlot flags params.cancelExisting
  else
    .limit params.side params.priceInTicks params.numBaseLots params.selfTradeBehavior
      params.matchLimit params.clientOrderId params.lastValidSlot flags params.cancelExisting

structure PhoenixMarketOrderParams where
  side : PhoenixSide
  /-- Worst acceptable price, `None` takes any price. -/
  priceInTicks : Option U64
  numBaseLots : U64
  numQuoteLots : Option U64
  minBaseLotsToFill : U64
  minQuoteLotsToFill : U64
  selfTradeBehavior : PhoenixSelfTradeBehavior
  matchLimit : Option U64
  clientOrderId : U128
  lastValidSlot : Option U64
  reduceOnly : Bool
  cancelExisting : Bool

def PhoenixMarketOrderParams.packet (params : PhoenixMarketOrderParams) : OrderPacket :=
  .immediateOrCancel params.side params.priceInTicks params.numBaseLots params.numQuoteLots
    params.minBaseLotsToFill params.minQuoteLotsToFill params.selfTradeBehavior params.matchLimit
    params.clientOrderId params.lastValidSlot (OrderPacket.orderFlags params.reduceOnly)
    params.cancelExisting

end HedgeVault
