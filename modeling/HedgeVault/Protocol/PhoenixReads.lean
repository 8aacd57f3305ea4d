import HedgeVault.Protocol.Phoenix
import HedgeVault.Lib.Buffer

/-!
# Reads that can panic

The Phoenix parsers with the source's slice reads: an index outside the bytes stops the
program (`Error.programFailed`). The two account parsers of `Protocol.Phoenix` read behind
their length check, so they are the same functions (`PhoenixGlobalConfig.parseIndexed_eq`,
`PhoenixTrader.parseIndexed_eq`). The arena count of a header, the matching engine's
response and the margin view are parsed here.
-/

namespace HedgeVault

open Lib

namespace Indexed

/-- `data[i..j]`. -/
def range (data : List Byte) (i j : Nat) : Result (List Byte) :=
  if i ≤ j ∧ j ≤ data.length then .ok (slice data i j) else .error .programFailed

/-- `data[i]`. -/
def byte (data : List Byte) (i : Nat) : Result U8 :=
  match data[i]? with
  | some b => .ok b
  | none => .error .programFailed

/-- `from_le_bytes` of the `n` bytes at `offset`. -/
def word (n : Nat) (data : List Byte) (offset : Nat) : Result (BitVec (8 * n)) := do
  pure (leWord (8 * n) (← range data offset (offset + n)))

def readPubkey (data : List Byte) (offset : Nat) : Result Pubkey := word 32 data offset

def readU16 (data : List Byte) (offset : Nat) : Result U16 := word 2 data offset

def readU32 (data : List Byte) (offset : Nat) : Result U32 := word 4 data offset

def readU64 (data : List Byte) (offset : Nat) : Result U64 := word 8 data offset

def readI64 (data : List Byte) (offset : Nat) : Result I64 := do
  let bits ← readU64 data offset
  pure ⟨bits.toInt, BitVec.le_toInt _, BitVec.toInt_lt⟩

/-- `data.len() >= min_len && data[..8] == discriminator`: the slice is taken only behind the
length. -/
def hasHeader (data discriminator : List Byte) (minLen : Nat) : Result Bool :=
  if data.length ≥ minLen then do pure ((← range data 0 8) = discriminator) else pure false

def validateAccountData (data discriminator : List Byte) (minLen : Nat) : Result Unit := do
  validate (← hasHeader data discriminator minLen) .invalidPhoenixAccount

end Indexed

open Indexed

def PhoenixGlobalConfig.parseIndexed (data : List Byte) : Result PhoenixGlobalConfig := do
  Indexed.validateAccountData data discriminator LEN
  let canonicalMint ← Indexed.readPubkey data 296
  let globalVault ← Indexed.readPubkey data 328
  let perpAssetMap ← Indexed.readPubkey data 360
  let globalTraderIndex ← Indexed.readPubkey data 392
  let activeTraderBuffer ← Indexed.readPubkey data 424
  let withdrawQueue ← Indexed.readPubkey data 472
  pure {
    canonicalMint, globalVault, perpAssetMap, globalTraderIndex, activeTraderBuffer
    withdrawQueue }

def PhoenixTrader.parseIndexed (data : List Byte) : Result PhoenixTrader := do
  Indexed.validateAccountData data discriminator LEN
  let authority ← Indexed.readPubkey data 56
  let quoteLotCollateral ← Indexed.readI64 data 88
  let flags ← Indexed.readU32 data 96
  let withdrawQueueNode ← Indexed.readU32 data 108
  let traderPdaIndex ← Indexed.byte data 154
  let traderSubaccountIndex ← Indexed.byte data 155
  let positionCount ← Indexed.readU64 data 224
  pure {
    authority, quoteLotCollateral, flags, withdrawQueueNode, traderPdaIndex
    traderSubaccountIndex, positionCount }

/-! ## Arena headers -/

def MULTI_ARENA_LEN : Nat := 80

/-- The accounts of a multi-arena account, the header first. -/
def parseArenaCount (data discriminator : List Byte) : Result Nat := do
  Indexed.validateAccountData data discriminator MULTI_ARENA_LEN
  let numArenas := min (← Indexed.readU16 data 52).toNat (← Indexed.readU16 data 54).toNat
  validate (numArenas > 0) .invalidPhoenixRemainingAccounts
  pure numArenas

def GLOBAL_TRADER_INDEX : List Byte := [145, 92, 169, 6, 5, 144, 1, 205]

def ACTIVE_TRADER_BUFFER : List Byte := [192, 255, 205, 165, 80, 154, 131, 5]

def arenaCount (header : Option AccountInfo) (expectedKey : Pubkey) (discriminator : List Byte) :
    Result Nat :=
  match header with
  | none => .error (.custom .invalidPhoenixRemainingAccounts)
  | some header => do
    validate (header.key = expectedKey) .invalidPhoenixRemainingAccounts
    validateOwner header.toAccount
    parseArenaCount header.data discriminator

/-- The tail of a trading or collateral instruction: the index header with its arenas, then the
buffer header with its own. -/
def PhoenixGlobalConfig.validateTraderTail (c : PhoenixGlobalConfig) (tail : List AccountInfo) :
    Result Unit := do
  let globalTraderIndexCount ← arenaCount tail.head? c.globalTraderIndex GLOBAL_TRADER_INDEX
  let activeTraderBufferCount ←
    arenaCount tail[globalTraderIndexCount]? c.activeTraderBuffer ACTIVE_TRADER_BUFFER
  validate (tail.length = globalTraderIndexCount + activeTraderBufferCount)
    .invalidPhoenixRemainingAccounts

/-! ## Return data -/

def MATCHING_ENGINE_RESPONSE_LEN : Nat := 64

/-- Fill summary Phoenix returns from every order instruction. -/
structure MatchingEngineResponse where
  priceInTicks : U64
  orderSequenceNumber : U64
  numQuoteLotsIn : U64
  numBaseLotsIn : U64
  numQuoteLotsOut : U64
  numBaseLotsOut : U64
  numQuoteLotsPosted : U64
  numBaseLotsPosted : U64

def MatchingEngineResponse.parse (data : List Byte) : Result MatchingEngineResponse := do
  validate (data.length = MATCHING_ENGINE_RESPONSE_LEN) .phoenixReturnDataInvalid
  let priceInTicks ← Indexed.readU64 data 0
  let orderSequenceNumber ← Indexed.readU64 data 8
  let numQuoteLotsIn ← Indexed.readU64 data 16
  let numBaseLotsIn ← Indexed.readU64 data 24
  let numQuoteLotsOut ← Indexed.readU64 data 32
  let numBaseLotsOut ← Indexed.readU64 data 40
  let numQuoteLotsPosted ← Indexed.readU64 data 48
  let numBaseLotsPosted ← Indexed.readU64 data 56
  pure {
    priceInTicks, orderSequenceNumber, numQuoteLotsIn, numBaseLotsIn, numQuoteLotsOut
    numBaseLotsOut, numQuoteLotsPosted, numBaseLotsPosted }

def VIEW_MARGIN_RETURN_MAGIC : List Byte := [63, 37, 255, 61, 157, 91, 95, 149]

def VIEW_MARGIN_RETURN_VERSION : U16 := 1

def VIEW_MARGIN_RETURN_LEN : Nat := 112

/-- `data.len() == LEN && data[..8] == MAGIC && read_u16(data, 8) == VERSION`. -/
def hasMarginHeader (data : List Byte) : Result Bool :=
  if data.length = VIEW_MARGIN_RETURN_LEN then do
    if (← range data 0 8) = VIEW_MARGIN_RETURN_MAGIC then
      pure ((← Indexed.readU16 data 8) = VIEW_MARGIN_RETURN_VERSION)
    else pure false
  else pure false

def parseIsLiquidatable (data : List Byte) : Result Bool := do
  validate (← hasMarginHeader data) .phoenixReturnDataInvalid
  pure ((← Indexed.byte data 14) ≠ 0)

/-! ## Reads in range -/

section

variable {data discriminator : List Byte} {offset minLen n : Nat}

theorem Indexed.word_ok (h : offset + n ≤ data.length) :
    word n data offset = .ok (leWord (8 * n) (slice data offset (offset + n))) := by
  have hr : offset ≤ offset + n ∧ offset + n ≤ data.length := ⟨Nat.le_add_right _ _, h⟩
  unfold word range
  rw [if_pos hr]; rfl

theorem Indexed.byte_ok (h : offset < data.length) :
    byte data offset = .ok (readU8 data offset) := by
  unfold byte readU8
  rw [List.getD_eq_getElem?_getD, List.getElem?_eq_getElem h]; rfl

theorem Indexed.readPubkey_ok (h : offset + 32 ≤ data.length) :
    Indexed.readPubkey data offset = .ok (HedgeVault.readPubkey data offset) := word_ok h

theorem Indexed.readU32_ok (h : offset + 4 ≤ data.length) :
    Indexed.readU32 data offset = .ok (HedgeVault.readU32 data offset) := word_ok h

theorem Indexed.readU64_ok (h : offset + 8 ≤ data.length) :
    Indexed.readU64 data offset = .ok (HedgeVault.readU64 data offset) := word_ok h

theorem Indexed.readI64_ok (h : offset + 8 ≤ data.length) :
    Indexed.readI64 data offset = .ok (HedgeVault.readI64 data offset) := by
  unfold Indexed.readI64
  rw [readU64_ok h]; rfl

/-- Behind a minimal length of eight bytes the discriminator is read in range. -/
theorem Indexed.validateAccountData_eq (h8 : 8 ≤ minLen) :
    Indexed.validateAccountData data discriminator minLen =
      HedgeVault.validateAccountData data discriminator minLen := by
  unfold Indexed.validateAccountData hasHeader HedgeVault.validateAccountData
  by_cases hlen : data.length ≥ minLen
  · have hr : 0 ≤ 8 ∧ 8 ≤ data.length := ⟨Nat.zero_le _, h8.trans hlen⟩
    unfold range
    rw [if_pos hlen, if_pos hr, ok_bind]
    simp [slice, validate, hlen, pure, Except.pure, bind, Except.bind]
  · rw [if_neg hlen]
    simp [validate, hlen, pure, Except.pure, bind, Except.bind]

end

/-! ## The parsers behind their checks -/

theorem PhoenixGlobalConfig.parseIndexed_eq (data : List Byte) :
    parseIndexed data = parse data := by
  unfold parseIndexed parse
  rw [Indexed.validateAccountData_eq (by decide)]
  cases h : HedgeVault.validateAccountData data discriminator LEN with
  | error e => rfl
  | ok u =>
    have hlen : LEN ≤ data.length := (validate_eq_ok.1 h).1
    unfold LEN at hlen
    simp only [ok_bind]
    rw [readPubkey_ok (by omega), readPubkey_ok (by omega), readPubkey_ok (by omega),
      readPubkey_ok (by omega), readPubkey_ok (by omega), readPubkey_ok (by omega)]
    rfl

theorem PhoenixTrader.parseIndexed_eq (data : List Byte) : parseIndexed data = parse data := by
  unfold parseIndexed parse
  rw [Indexed.validateAccountData_eq (by decide)]
  cases h : HedgeVault.validateAccountData data discriminator LEN with
  | error e => rfl
  | ok u =>
    have hlen : LEN ≤ data.length := (validate_eq_ok.1 h).1
    unfold LEN at hlen
    simp only [ok_bind]
    rw [readPubkey_ok (by omega), readI64_ok (by omega), readU32_ok (by omega),
      readU32_ok (by omega), byte_ok (by omega), byte_ok (by omega), readU64_ok (by omega)]
    rfl

/-- The count of a header in range of its check. -/
theorem parseArenaCount_eq (data discriminator : List Byte) :
    parseArenaCount data discriminator = (do
      HedgeVault.validateAccountData data discriminator MULTI_ARENA_LEN
      let numArenas := min (leWord 16 (slice data 52 54)).toNat (leWord 16 (slice data 54 56)).toNat
      validate (numArenas > 0) .invalidPhoenixRemainingAccounts
      pure numArenas) := by
  unfold parseArenaCount
  rw [Indexed.validateAccountData_eq (by decide)]
  cases h : HedgeVault.validateAccountData data discriminator MULTI_ARENA_LEN with
  | error e => rfl
  | ok u =>
    have hlen : MULTI_ARENA_LEN ≤ data.length := (validate_eq_ok.1 h).1
    unfold MULTI_ARENA_LEN at hlen
    unfold Indexed.readU16
    simp only [ok_bind]
    rw [word_ok (by omega), word_ok (by omega)]
    rfl

theorem MatchingEngineResponse.parse_eq (data : List Byte) :
    parse data = (do
      validate (data.length = MATCHING_ENGINE_RESPONSE_LEN) .phoenixReturnDataInvalid
      pure {
        priceInTicks := readU64 data 0
        orderSequenceNumber := readU64 data 8
        numQuoteLotsIn := readU64 data 16
        numBaseLotsIn := readU64 data 24
        numQuoteLotsOut := readU64 data 32
        numBaseLotsOut := readU64 data 40
        numQuoteLotsPosted := readU64 data 48
        numBaseLotsPosted := readU64 data 56 }) := by
  unfold parse
  by_cases hlen : data.length = MATCHING_ENGINE_RESPONSE_LEN
  · rw [validate_of hlen, ok_bind]
    unfold MATCHING_ENGINE_RESPONSE_LEN at hlen
    rw [readU64_ok (by omega), readU64_ok (by omega), readU64_ok (by omega), readU64_ok (by omega),
      readU64_ok (by omega), readU64_ok (by omega), readU64_ok (by omega), readU64_ok (by omega)]
    rfl
  · unfold validate
    rw [if_neg hlen]; rfl

theorem hasMarginHeader_eq (data : List Byte) : hasMarginHeader data =
    .ok (data.length = VIEW_MARGIN_RETURN_LEN ∧ data.take 8 = VIEW_MARGIN_RETURN_MAGIC ∧
      leWord 16 (slice data 8 10) = VIEW_MARGIN_RETURN_VERSION : Bool) := by
  unfold hasMarginHeader
  by_cases hlen : data.length = VIEW_MARGIN_RETURN_LEN
  · have hlen' : data.length = 112 := hlen
    have hr : 0 ≤ 8 ∧ 8 ≤ data.length := by omega
    unfold range Indexed.readU16
    rw [if_pos hlen, if_pos hr, ok_bind, word_ok (by omega)]
    by_cases hm : data.take 8 = VIEW_MARGIN_RETURN_MAGIC
    · have hs : slice data 0 8 = VIEW_MARGIN_RETURN_MAGIC := hm
      rw [if_pos hs]
      simp [hlen, hm, pure, Except.pure]
    · have hs : ¬ slice data 0 8 = VIEW_MARGIN_RETURN_MAGIC := hm
      rw [if_neg hs]
      simp [hm, pure, Except.pure]
  · rw [if_neg hlen]
    simp [hlen, pure, Except.pure]

theorem parseIsLiquidatable_eq (data : List Byte) : parseIsLiquidatable data = (do
    validate (data.length = VIEW_MARGIN_RETURN_LEN ∧ data.take 8 = VIEW_MARGIN_RETURN_MAGIC ∧
      leWord 16 (slice data 8 10) = VIEW_MARGIN_RETURN_VERSION) .phoenixReturnDataInvalid
    pure (readU8 data 14 ≠ 0 : Bool)) := by
  unfold parseIsLiquidatable
  rw [hasMarginHeader_eq, ok_bind]
  by_cases h : data.length = VIEW_MARGIN_RETURN_LEN ∧ data.take 8 = VIEW_MARGIN_RETURN_MAGIC ∧
      leWord 16 (slice data 8 10) = VIEW_MARGIN_RETURN_VERSION
  · have hlen := h.1
    unfold VIEW_MARGIN_RETURN_LEN at hlen
    rw [validate_of h, validate_of (decide_eq_true h), ok_bind, ok_bind, byte_ok (by omega)]
    rfl
  · have hd : ¬ decide (data.length = VIEW_MARGIN_RETURN_LEN ∧
        data.take 8 = VIEW_MARGIN_RETURN_MAGIC ∧
        leWord 16 (slice data 8 10) = VIEW_MARGIN_RETURN_VERSION) = true := by
      rwa [decide_eq_true_iff]
    unfold validate
    rw [if_neg h, if_neg hd]; rfl

end HedgeVault
