import HedgeVault.Protocol.PhoenixReads

/-!
# The Phoenix layouts

Each parser reads its fields and nothing else: fields written into any buffer of
admissible length with the right header are what the parser returns
(`parse_fields`), and no parser reads out of range (`parsers_in_range`). The
offsets of a layout are checked once, as spans that fit and keep off the header.
-/

namespace HedgeVault

open Lib

/-! ## The fields of each layout -/

def PhoenixGlobalConfig.fields (c : PhoenixGlobalConfig) : List Field := [
  ⟨296, 32, c.canonicalMint⟩,
  ⟨328, 32, c.globalVault⟩,
  ⟨360, 32, c.perpAssetMap⟩,
  ⟨392, 32, c.globalTraderIndex⟩,
  ⟨424, 32, c.activeTraderBuffer⟩,
  ⟨472, 32, c.withdrawQueue⟩]

/-- The bits of an `i64`. -/
def I64.bits (x : I64) : BitVec 64 := BitVec.ofInt 64 x.val

def PhoenixTrader.fields (t : PhoenixTrader) : List Field := [
  ⟨56, 32, t.authority⟩,
  ⟨88, 8, t.quoteLotCollateral.bits⟩,
  ⟨96, 4, t.flags⟩,
  ⟨108, 4, t.withdrawQueueNode⟩,
  ⟨154, 1, t.traderPdaIndex⟩,
  ⟨155, 1, t.traderSubaccountIndex⟩,
  ⟨224, 8, t.positionCount⟩]

/-- `num_arenas` and `num_active_arenas` of a multi-arena header. -/
def arenaFields (numArenas numActiveArenas : U16) : List Field :=
  [⟨52, 2, numArenas⟩, ⟨54, 2, numActiveArenas⟩]

def MatchingEngineResponse.fields (r : MatchingEngineResponse) : List Field := [
  ⟨0, 8, r.priceInTicks⟩,
  ⟨8, 8, r.orderSequenceNumber⟩,
  ⟨16, 8, r.numQuoteLotsIn⟩,
  ⟨24, 8, r.numBaseLotsIn⟩,
  ⟨32, 8, r.numQuoteLotsOut⟩,
  ⟨40, 8, r.numBaseLotsOut⟩,
  ⟨48, 8, r.numQuoteLotsPosted⟩,
  ⟨56, 8, r.numBaseLotsPosted⟩]

/-- The `is_liquidatable` byte of a margin view. -/
def liquidatableField (x : U8) : List Field := [⟨14, 1, x⟩]

/-! ## Reading back -/

section

variable {buf : List Byte} {fs : List Field} {n offset : Nat}

/-- Fields off the header leave an admissible buffer admissible. -/
theorem validateAccountData_writeAll {discriminator : List Byte} (hlen : n ≤ buf.length)
    (hd : buf.take 8 = discriminator) (h : Fits n (fs.map Field.span))
    (ha : ∀ s ∈ fs.map Field.span, Apart (0, 8) s) :
    validateAccountData (writeAll buf fs) discriminator n = .ok () := by
  have hhead : (writeAll buf fs).take 8 = buf.take 8 := h.slice_of_apart hlen ha
  have hsame := h.length_writeAll hlen
  exact validate_of ⟨hsame.symm ▸ hlen, hhead.trans hd⟩

theorem readU8_writeAll {x : U8} (h : Fits n (fs.map Field.span)) (hlen : n ≤ buf.length)
    (hf : ⟨offset, 1, x⟩ ∈ fs) : readU8 (writeAll buf fs) offset = x := by
  unfold readU8
  rw [List.getD_eq_getElem?_getD, h.getElem?_eq hlen hf]; rfl

theorem readU64_writeAll {x : U64} (h : Fits n (fs.map Field.span)) (hlen : n ≤ buf.length)
    (hf : ⟨offset, 8, x⟩ ∈ fs) : readU64 (writeAll buf fs) offset = x :=
  h.leWord_eq hlen hf

theorem readU32_writeAll {x : U32} (h : Fits n (fs.map Field.span)) (hlen : n ≤ buf.length)
    (hf : ⟨offset, 4, x⟩ ∈ fs) : readU32 (writeAll buf fs) offset = x :=
  h.leWord_eq hlen hf

theorem readPubkey_writeAll {x : Pubkey} (h : Fits n (fs.map Field.span)) (hlen : n ≤ buf.length)
    (hf : ⟨offset, 32, x⟩ ∈ fs) : readPubkey (writeAll buf fs) offset = x :=
  h.leWord_eq hlen hf

theorem I64.toInt_bits (x : I64) : x.bits.toInt = x.val := by
  have hge := x.ge
  have hlt := x.lt
  unfold I64.bits
  rw [BitVec.toInt_ofInt_eq_self (by decide) (by omega) (by omega)]

theorem readI64_writeAll {x : I64} (h : Fits n (fs.map Field.span)) (hlen : n ≤ buf.length)
    (hf : ⟨offset, 8, x.bits⟩ ∈ fs) : readI64 (writeAll buf fs) offset = x := by
  refine I64.ext ?_
  show (readU64 (writeAll buf fs) offset).toInt = x.val
  rw [readU64_writeAll h hlen hf, x.toInt_bits]

end

/-! ## Round trips -/

section

variable {buf : List Byte}

theorem PhoenixGlobalConfig.fields_fit (c : PhoenixGlobalConfig) :
    Fits LEN (c.fields.map Field.span) ∧ ∀ s ∈ c.fields.map Field.span, Apart (0, 8) s :=
  let spans := [(296, 328), (328, 360), (360, 392), (392, 424), (424, 456), (472, 504)]
  show Fits 776 spans ∧ ∀ s ∈ spans, Apart (0, 8) s from by decide

theorem PhoenixGlobalConfig.parse_fields (c : PhoenixGlobalConfig) (hlen : LEN ≤ buf.length)
    (hd : buf.take 8 = discriminator) : parseIndexed (writeAll buf c.fields) = .ok c := by
  obtain ⟨hfit, hhead⟩ := c.fields_fit
  rw [parseIndexed_eq]
  unfold parse
  rw [validateAccountData_writeAll hlen hd hfit hhead, ok_bind,
    readPubkey_writeAll (x := c.canonicalMint) hfit hlen (by simp [fields]),
    readPubkey_writeAll (x := c.globalVault) hfit hlen (by simp [fields]),
    readPubkey_writeAll (x := c.perpAssetMap) hfit hlen (by simp [fields]),
    readPubkey_writeAll (x := c.globalTraderIndex) hfit hlen (by simp [fields]),
    readPubkey_writeAll (x := c.activeTraderBuffer) hfit hlen (by simp [fields]),
    readPubkey_writeAll (x := c.withdrawQueue) hfit hlen (by simp [fields])]
  rfl

theorem PhoenixTrader.fields_fit (t : PhoenixTrader) :
    Fits LEN (t.fields.map Field.span) ∧ ∀ s ∈ t.fields.map Field.span, Apart (0, 8) s :=
  let spans := [(56, 88), (88, 96), (96, 100), (108, 112), (154, 155), (155, 156), (224, 232)]
  show Fits 240 spans ∧ ∀ s ∈ spans, Apart (0, 8) s from by decide

theorem PhoenixTrader.parse_fields (t : PhoenixTrader) (hlen : LEN ≤ buf.length)
    (hd : buf.take 8 = discriminator) : parseIndexed (writeAll buf t.fields) = .ok t := by
  obtain ⟨hfit, hhead⟩ := t.fields_fit
  rw [parseIndexed_eq]
  unfold parse
  rw [validateAccountData_writeAll hlen hd hfit hhead, ok_bind,
    readPubkey_writeAll (x := t.authority) hfit hlen (by simp [fields]),
    readI64_writeAll (x := t.quoteLotCollateral) hfit hlen (by simp [fields]),
    readU32_writeAll (x := t.flags) hfit hlen (by simp [fields]),
    readU32_writeAll (x := t.withdrawQueueNode) hfit hlen (by simp [fields]),
    readU8_writeAll (x := t.traderPdaIndex) hfit hlen (by simp [fields]),
    readU8_writeAll (x := t.traderSubaccountIndex) hfit hlen (by simp [fields]),
    readU64_writeAll (x := t.positionCount) hfit hlen (by simp [fields])]
  rfl

theorem arenaFields_fit (a b : U16) : Fits MULTI_ARENA_LEN ((arenaFields a b).map Field.span) ∧
    ∀ s ∈ (arenaFields a b).map Field.span, Apart (0, 8) s :=
  let spans := [(52, 54), (54, 56)]
  show Fits 80 spans ∧ ∀ s ∈ spans, Apart (0, 8) s from by decide

/-- The count is the lower of the two, and a header that counts none is refused. -/
theorem parseArenaCount_fields {discriminator : List Byte} (a b : U16)
    (hlen : MULTI_ARENA_LEN ≤ buf.length) (hd : buf.take 8 = discriminator) :
    parseArenaCount (writeAll buf (arenaFields a b)) discriminator =
      if min a.toNat b.toNat > 0 then .ok (min a.toNat b.toNat)
      else .error (.custom .invalidPhoenixRemainingAccounts) := by
  obtain ⟨hfit, hhead⟩ := arenaFields_fit a b
  have ha : leWord 16 (slice (writeAll buf (arenaFields a b)) 52 54) = a :=
    hfit.leWord_eq (f := ⟨52, 2, a⟩) hlen (by simp [arenaFields])
  have hb : leWord 16 (slice (writeAll buf (arenaFields a b)) 54 56) = b :=
    hfit.leWord_eq (f := ⟨54, 2, b⟩) hlen (by simp [arenaFields])
  rw [parseArenaCount_eq, validateAccountData_writeAll hlen hd hfit hhead, ok_bind, ha, hb]
  by_cases hpos : min a.toNat b.toNat > 0
  · simp only [validate, if_pos hpos]; rfl
  · simp only [validate, if_neg hpos]; rfl

theorem MatchingEngineResponse.fields_fit (r : MatchingEngineResponse) :
    Fits MATCHING_ENGINE_RESPONSE_LEN (r.fields.map Field.span) :=
  show Fits 64 [(0, 8), (8, 16), (16, 24), (24, 32), (32, 40), (40, 48), (48, 56), (56, 64)]
    from by decide

theorem MatchingEngineResponse.parse_fields (r : MatchingEngineResponse)
    (hlen : buf.length = MATCHING_ENGINE_RESPONSE_LEN) :
    parse (writeAll buf r.fields) = .ok r := by
  have hfit := r.fields_fit
  have hle : MATCHING_ENGINE_RESPONSE_LEN ≤ buf.length := Nat.le_of_eq hlen.symm
  rw [parse_eq, validate_of ((hfit.length_writeAll hle).trans hlen), ok_bind,
    readU64_writeAll (x := r.priceInTicks) hfit hle (by simp [fields]),
    readU64_writeAll (x := r.orderSequenceNumber) hfit hle (by simp [fields]),
    readU64_writeAll (x := r.numQuoteLotsIn) hfit hle (by simp [fields]),
    readU64_writeAll (x := r.numBaseLotsIn) hfit hle (by simp [fields]),
    readU64_writeAll (x := r.numQuoteLotsOut) hfit hle (by simp [fields]),
    readU64_writeAll (x := r.numBaseLotsOut) hfit hle (by simp [fields]),
    readU64_writeAll (x := r.numQuoteLotsPosted) hfit hle (by simp [fields]),
    readU64_writeAll (x := r.numBaseLotsPosted) hfit hle (by simp [fields])]
  rfl

theorem parseIsLiquidatable_fields (x : U8) (hlen : buf.length = VIEW_MARGIN_RETURN_LEN)
    (hmagic : buf.take 8 = VIEW_MARGIN_RETURN_MAGIC)
    (hversion : leWord 16 (slice buf 8 10) = VIEW_MARGIN_RETURN_VERSION) :
    parseIsLiquidatable (writeAll buf (liquidatableField x)) = .ok (x ≠ 0 : Bool) := by
  have hfit : Fits VIEW_MARGIN_RETURN_LEN ((liquidatableField x).map Field.span) :=
    show Fits 112 [(14, 15)] from by decide
  have hle : VIEW_MARGIN_RETURN_LEN ≤ buf.length := Nat.le_of_eq hlen.symm
  have hmagic' : (writeAll buf (liquidatableField x)).take 8 = buf.take 8 :=
    hfit.slice_of_apart hle (i := 0) (j := 8)
      (show ∀ s ∈ [(14, 15)], Apart (0, 8) s from by decide)
  have hversion' : slice (writeAll buf (liquidatableField x)) 8 10 = slice buf 8 10 :=
    hfit.slice_of_apart hle (show ∀ s ∈ [(14, 15)], Apart (8, 10) s from by decide)
  have hheader : (writeAll buf (liquidatableField x)).length = VIEW_MARGIN_RETURN_LEN ∧
      (writeAll buf (liquidatableField x)).take 8 = VIEW_MARGIN_RETURN_MAGIC ∧
      leWord 16 (slice (writeAll buf (liquidatableField x)) 8 10) = VIEW_MARGIN_RETURN_VERSION :=
    ⟨(hfit.length_writeAll hle).trans hlen, hmagic'.trans hmagic, hversion' ▸ hversion⟩
  rw [parseIsLiquidatable_eq, validate_of hheader, ok_bind,
    readU8_writeAll (x := x) hfit hle (by simp [liquidatableField])]
  rfl

end

/-! ## No read out of range -/

theorem parseArenaCount_in_range (data discriminator : List Byte) :
    parseArenaCount data discriminator ≠ .error .programFailed := by
  rw [parseArenaCount_eq]
  refine ErrorsIn.ne ((ErrorsIn.validate nofun).bind fun _ _ => ?_)
  exact (ErrorsIn.validate nofun).bind fun _ _ => .ok _

/-- No parser reads out of range, on any bytes. -/
theorem parsers_in_range (data discriminator : List Byte) :
    PhoenixGlobalConfig.parseIndexed data ≠ .error .programFailed ∧
    PhoenixTrader.parseIndexed data ≠ .error .programFailed ∧
    parseArenaCount data discriminator ≠ .error .programFailed ∧
    MatchingEngineResponse.parse data ≠ .error .programFailed ∧
    parseIsLiquidatable data ≠ .error .programFailed := by
  refine ⟨?_, ?_, parseArenaCount_in_range data discriminator, ?_, ?_⟩
  · rw [PhoenixGlobalConfig.parseIndexed_eq]
    exact ((ErrorsIn.validate nofun).bind fun _ _ => .ok _).ne
  · rw [PhoenixTrader.parseIndexed_eq]
    exact ((ErrorsIn.validate nofun).bind fun _ _ => .ok _).ne
  · rw [MatchingEngineResponse.parse_eq]
    exact ((ErrorsIn.validate nofun).bind fun _ _ => .ok _).ne
  · rw [parseIsLiquidatable_eq]
    exact ((ErrorsIn.validate nofun).bind fun _ _ => .ok _).ne

/-- The parsers are total and read exactly their fields. -/
theorem parsers_exact :
    (∀ data discriminator : List Byte,
      PhoenixGlobalConfig.parseIndexed data ≠ .error .programFailed ∧
      PhoenixTrader.parseIndexed data ≠ .error .programFailed ∧
      parseArenaCount data discriminator ≠ .error .programFailed ∧
      MatchingEngineResponse.parse data ≠ .error .programFailed ∧
      parseIsLiquidatable data ≠ .error .programFailed) ∧
    (∀ (buf : List Byte) (c : PhoenixGlobalConfig), PhoenixGlobalConfig.LEN ≤ buf.length →
      buf.take 8 = PhoenixGlobalConfig.discriminator →
      PhoenixGlobalConfig.parseIndexed (writeAll buf c.fields) = .ok c) ∧
    (∀ (buf : List Byte) (t : PhoenixTrader), PhoenixTrader.LEN ≤ buf.length →
      buf.take 8 = PhoenixTrader.discriminator →
      PhoenixTrader.parseIndexed (writeAll buf t.fields) = .ok t) ∧
    (∀ (buf discriminator : List Byte) (numArenas numActiveArenas : U16),
      MULTI_ARENA_LEN ≤ buf.length → buf.take 8 = discriminator →
      parseArenaCount (writeAll buf (arenaFields numArenas numActiveArenas)) discriminator =
        if min numArenas.toNat numActiveArenas.toNat > 0 then
          .ok (min numArenas.toNat numActiveArenas.toNat)
        else .error (.custom .invalidPhoenixRemainingAccounts)) ∧
    (∀ (buf : List Byte) (r : MatchingEngineResponse),
      buf.length = MATCHING_ENGINE_RESPONSE_LEN →
      MatchingEngineResponse.parse (writeAll buf r.fields) = .ok r) ∧
    ∀ (buf : List Byte) (x : U8), buf.length = VIEW_MARGIN_RETURN_LEN →
      buf.take 8 = VIEW_MARGIN_RETURN_MAGIC →
      leWord 16 (slice buf 8 10) = VIEW_MARGIN_RETURN_VERSION →
      parseIsLiquidatable (writeAll buf (liquidatableField x)) = .ok (x ≠ 0 : Bool) :=
  ⟨parsers_in_range, fun _ c hlen hd => c.parse_fields hlen hd,
    fun _ t hlen hd => t.parse_fields hlen hd,
    fun _ _ a b hlen hd => parseArenaCount_fields a b hlen hd,
    fun _ r hlen => r.parse_fields hlen,
    fun _ x hlen hm hv => parseIsLiquidatable_fields x hlen hm hv⟩

end HedgeVault
