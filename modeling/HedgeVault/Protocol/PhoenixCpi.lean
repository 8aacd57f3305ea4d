import HedgeVault.Protocol.JupiterCpi
import HedgeVault.Protocol.PhoenixOrders
import HedgeVault.Protocol.PhoenixReads

/-!
# Calls to Phoenix, Ember and Hawkeye

`PhoenixCpi` builds the instructions that act for the vault's trader account, `EmberCpi` the
two that wrap and unwrap USDC. A builder returns what `invoke` is called with. What the
runtime does with a call is a parameter (`CpiRuntime`): its error, or the return data that is
set once it returns.
-/

namespace HedgeVault

open Lib

def PHOENIX_LOG_AUTHORITY : Pubkey :=
  0xa5c21e7d1dbf99420b7f16cc5f98c901fb69831b7c8b66f6fabcb5b2c02657e8
def HAWKEYE_PROGRAM_ID : Pubkey := 0x14b21c480bc5154cf09c1e012e0085af4424d5e59a933e519cdfbe9459cc5406
def EMBER_PROGRAM_ID : Pubkey := 0xc867c4035712cc0e767d56b871b01e3f082bea3a14a601e00c55b400731d53c6
def EMBER_STATE : Pubkey := 0xe9cb8fe4ae9fd26af24a7805e0e905a48d4a4abe7738a3638212f8ee0d2dd457
def EMBER_VAULT : Pubkey := 0x125719ac643a235067c5c3bbeef289d3ed590686dae9badac48690ec39e9c7d4

def TRADER_MAX_POSITIONS : U32 := 128

def REGISTER_TRADER : List Byte := [75, 243, 224, 167, 1, 5, 51, 32]
def DEPOSIT_FUNDS : List Byte := [202, 39, 52, 211, 53, 20, 250, 88]
def WITHDRAW_FUNDS : List Byte := [241, 36, 29, 111, 208, 31, 104, 217]
def EMBER_DEPOSIT : List Byte := [242, 35, 198, 137, 82, 225, 242, 182]
def EMBER_WITHDRAW : List Byte := [183, 18, 70, 156, 148, 109, 161, 34]
def HAWKEYE_VIEW_MARGIN : List Byte := [178, 10, 124, 173, 236, 210, 117, 6]

/-- What `get_return_data` shows after a call: the program that set it, and the bytes. -/
abbrev ReturnData := Option (Pubkey × List Byte)

/-- What the runtime does with a call. -/
abbrev CpiRuntime := Invocation → Result ReturnData

/-- The return data of `programId`. -/
def ReturnData.setBy (programId : Pubkey) : ReturnData → Result (List Byte)
  | none => .error (.custom .phoenixReturnDataInvalid)
  | some (setter, data) => do
    validate (setter = programId) .phoenixReturnDataInvalid
    pure data

structure RegisterTraderArgs where
  maxPositions : U32
  traderPreferenceBits : U32
  traderPdaIndex : U8
  subaccountIndex : U8

instance : Borsh RegisterTraderArgs where
  serialize args := [serialize args.maxPositions, serialize args.traderPreferenceBits,
    serialize args.traderPdaIndex, serialize args.subaccountIndex].flatten
  deserialize :=
    deserialize.bind fun maxPositions =>
    deserialize.bind fun traderPreferenceBits =>
    deserialize.bind fun traderPdaIndex =>
    deserialize.bind fun subaccountIndex =>
    .pure { maxPositions, traderPreferenceBits, traderPdaIndex, subaccountIndex }
  reads args :=
    (Borsh.reads args.maxPositions).bind <|
    (Borsh.reads args.traderPreferenceBits).bind <|
    (Borsh.reads args.traderPdaIndex).bind <|
    (Borsh.reads args.subaccountIndex).bind <|
    Decoder.Reads.pure args

namespace MatchingEngineResponse

def fromReturnData (returned : ReturnData) : Result MatchingEngineResponse := do
  parse (← returned.setBy PHOENIX_PROGRAM_ID)

/-- `saturating_add`. -/
def saturatingAdd (a b : U64) : U64 := BitVec.ofNat 64 (min (a.toNat + b.toNat) U64_MAX)

/-- Only one side of each pair is non-zero, depending on the order side. -/
def baseLotsFilled (r : MatchingEngineResponse) : U64 :=
  saturatingAdd r.numBaseLotsIn r.numBaseLotsOut

def quoteLotsFilled (r : MatchingEngineResponse) : U64 :=
  saturatingAdd r.numQuoteLotsIn r.numQuoteLotsOut

/-- Set only when part of the order rested on the book. -/
def orderSequenceNumber? (r : MatchingEngineResponse) : Option U64 :=
  if r.priceInTicks ≠ 0 ∨ r.orderSequenceNumber ≠ 0 then some r.orderSequenceNumber else none

end MatchingEngineResponse

/-- The accounts Phoenix needs to act on one market. -/
structure PhoenixMarket where
  perpAssetMap : FlaggedAccount
  orderbook : FlaggedAccount
  splineCollection : FlaggedAccount

def PhoenixGlobalConfig.validateAccount (expected key : Pubkey) : Result Unit :=
  validate (expected = key) .invalidPhoenixAccount

/-- `splineCollectionAddress` is the PDA of an orderbook under Phoenix. -/
def PhoenixMarket.validate (splineCollectionAddress : Pubkey → Pubkey) (m : PhoenixMarket)
    (globalConfig : PhoenixGlobalConfig) : Result Unit := do
  PhoenixGlobalConfig.validateAccount globalConfig.perpAssetMap m.perpAssetMap.key
  HedgeVault.validate (m.splineCollection.key = splineCollectionAddress m.orderbook.key)
    .invalidPhoenixAccount

/-- Phoenix instructions issued on behalf of `trader`, the vault. -/
structure PhoenixCpi where
  phoenixProgram : FlaggedAccount
  logAuthority : FlaggedAccount
  globalConfig : FlaggedAccount
  trader : FlaggedAccount
  traderAccount : FlaggedAccount
  tail : List FlaggedAccount

namespace PhoenixCpi

variable (cpi : PhoenixCpi)

/-- `[phoenix_program, log_authority, global_config (mut), trader (signer)]` -/
def prefixAccounts : List AccountMeta × List FlaggedAccount :=
  ([.newReadonly cpi.phoenixProgram.key false,
    .newReadonly cpi.logAuthority.key false,
    .new cpi.globalConfig.key false,
    .newReadonly cpi.trader.key true],
   [cpi.phoenixProgram, cpi.logAuthority, cpi.globalConfig, cpi.trader])

/-- The metas of `extend_tail`. -/
def tailMetas : List AccountMeta := cpi.tail.map fun account => .new account.key false

/-- The arguments of `invoke_signed`. -/
def invoke (accounts : List AccountMeta) (accountInfos : List FlaggedAccount) (data : List Byte)
    (signerSeeds : List (List Byte)) : Invocation where
  instruction := { programId := PHOENIX_PROGRAM_ID, accounts, data }
  accountInfos
  signerSeeds

/-- Phoenix only reads `trader`, the payer funds the trader account. -/
def registerTrader (payer systemProgram : FlaggedAccount) : Invocation :=
  invoke
    [.newReadonly cpi.phoenixProgram.key false,
      .newReadonly cpi.logAuthority.key false,
      .newReadonly cpi.globalConfig.key false,
      .new payer.key true,
      .newReadonly cpi.trader.key false,
      .new cpi.traderAccount.key false,
      .newReadonly systemProgram.key false]
    [cpi.phoenixProgram, cpi.logAuthority, cpi.globalConfig, payer, cpi.trader, cpi.traderAccount,
      systemProgram]
    (instructionData REGISTER_TRADER ({
      maxPositions := TRADER_MAX_POSITIONS
      traderPreferenceBits := 0
      traderPdaIndex := TRADER_PDA_INDEX
      subaccountIndex := TRADER_SUBACCOUNT_INDEX } : RegisterTraderArgs))
    []

def depositFunds (traderTokenAccount globalVault tokenProgram : FlaggedAccount) (amount : U64)
    (signerSeeds : List (List Byte)) : Invocation :=
  invoke
    (cpi.prefixAccounts.1 ++
      [.new traderTokenAccount.key false,
        .new cpi.traderAccount.key false,
        .new globalVault.key false,
        .newReadonly tokenProgram.key false] ++ cpi.tailMetas)
    (cpi.prefixAccounts.2 ++ [traderTokenAccount, cpi.traderAccount, globalVault, tokenProgram] ++
      cpi.tail)
    (instructionData DEPOSIT_FUNDS amount) signerSeeds

/-- Either pays `amount` into `trader_token_account` now or queues it behind the exchange
withdraw throttle. -/
def withdrawFunds (perpAssetMap globalVault traderTokenAccount tokenProgram withdrawQueue :
    FlaggedAccount) (amount : U64) (signerSeeds : List (List Byte)) : Invocation :=
  invoke
    (cpi.prefixAccounts.1 ++
      [.new cpi.traderAccount.key false,
        .new perpAssetMap.key false,
        .new globalVault.key false,
        .new traderTokenAccount.key false,
        .newReadonly tokenProgram.key false] ++ cpi.tailMetas ++ [.new withdrawQueue.key false])
    (cpi.prefixAccounts.2 ++
      [cpi.traderAccount, perpAssetMap, globalVault, traderTokenAccount, tokenProgram] ++
      cpi.tail ++ [withdrawQueue])
    (instructionData WITHDRAW_FUNDS amount) signerSeeds

def marketAction (market : PhoenixMarket) (data : List Byte) (signerSeeds : List (List Byte)) :
    Invocation :=
  invoke
    (cpi.prefixAccounts.1 ++
      [.new cpi.traderAccount.key false, .new market.perpAssetMap.key false] ++ cpi.tailMetas ++
      [.new market.orderbook.key false, .new market.splineCollection.key false])
    (cpi.prefixAccounts.2 ++ [cpi.traderAccount, market.perpAssetMap] ++ cpi.tail ++
      [market.orderbook, market.splineCollection])
    data signerSeeds

/-- Hawkeye margin view of the trader account at current marks. -/
def viewMargin (hawkeyeProgram perpAssetMap : FlaggedAccount) : Invocation where
  instruction := {
    programId := HAWKEYE_PROGRAM_ID
    accounts :=
      [.newReadonly cpi.phoenixProgram.key false, .newReadonly cpi.globalConfig.key false] ++
      cpi.tail.map (fun account => .newReadonly account.key false) ++
      [.newReadonly perpAssetMap.key false, .newReadonly cpi.traderAccount.key false]
    data := HAWKEYE_VIEW_MARGIN }
  accountInfos := [hawkeyeProgram, cpi.phoenixProgram, cpi.globalConfig] ++ cpi.tail ++
    [perpAssetMap, cpi.traderAccount]
  signerSeeds := []

section

variable (runtime : CpiRuntime) (market : PhoenixMarket) (signerSeeds : List (List Byte))

/-- The answer to an order, with the call it took. -/
def placeOrder (packet : OrderPacket) : Result (MatchingEngineResponse × Invocation) := do
  let call := cpi.marketAction market (← packet.instructionData) signerSeeds
  let response ← MatchingEngineResponse.fromReturnData (← runtime call)
  pure (response, call)

def cancelOrders (mode : PhoenixCancelMode) : Result Invocation := do
  let call := cpi.marketAction market (← mode.instructionData) signerSeeds
  let _ ← runtime call
  pure call

def isLiquidatable (hawkeyeProgram perpAssetMap : FlaggedAccount) : Result (Bool × Invocation) := do
  let call := cpi.viewMargin hawkeyeProgram perpAssetMap
  let returned ← runtime call
  let liquidatable ← parseIsLiquidatable (← returned.setBy HAWKEYE_PROGRAM_ID)
  pure (liquidatable, call)

end

end PhoenixCpi

/-- Ember wraps USDC 1:1 into the Phoenix canonical token and back, on behalf of `trader`. -/
structure EmberCpi where
  emberProgram : FlaggedAccount
  trader : FlaggedAccount
  emberState : FlaggedAccount
  usdcMint : FlaggedAccount
  canonicalMint : FlaggedAccount
  traderUsdcAccount : FlaggedAccount
  traderCanonicalAccount : FlaggedAccount
  emberVault : FlaggedAccount
  tokenProgram : FlaggedAccount

namespace EmberCpi

variable (cpi : EmberCpi)

def invoke (data : List Byte) (signerSeeds : List (List Byte)) : Invocation where
  instruction := {
    programId := EMBER_PROGRAM_ID
    accounts :=
      [.newReadonly cpi.trader.key true,
        .newReadonly cpi.emberState.key false,
        .newReadonly cpi.usdcMint.key false,
        .new cpi.canonicalMint.key false,
        .new cpi.traderUsdcAccount.key false,
        .new cpi.traderCanonicalAccount.key false,
        .new cpi.emberVault.key false,
        .newReadonly cpi.tokenProgram.key false]
    data }
  accountInfos :=
    [cpi.emberProgram, cpi.trader, cpi.emberState, cpi.usdcMint, cpi.canonicalMint,
      cpi.traderUsdcAccount, cpi.traderCanonicalAccount, cpi.emberVault, cpi.tokenProgram]
  signerSeeds

def deposit (amount : U64) (signerSeeds : List (List Byte)) : Invocation :=
  cpi.invoke (instructionData EMBER_DEPOSIT amount) signerSeeds

/-- `None` unwraps the whole canonical balance. -/
def withdraw (amount : Option U64) (signerSeeds : List (List Byte)) : Invocation :=
  cpi.invoke (instructionData EMBER_WITHDRAW amount) signerSeeds

end EmberCpi

end HedgeVault
