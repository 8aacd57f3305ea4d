import HedgeVault.Utils.Account

/-!
# Phoenix accounts

The two Phoenix accounts that the vault reads, by their byte layout: the trader account and
the global configuration.
-/

namespace HedgeVault

open Lib

def PHOENIX_PROGRAM_ID : Pubkey := 0x867eb3ddef83bc4e69ab7c0617083b56e93b6c15904a96fceb438e56fbd670ce

def PHOENIX_GLOBAL_CONFIGURATION : Pubkey :=
  0xca474e5aa4e1a825590d23c99f0212c62fdc7a37f998ff559b6cd2335c2faf1d

def USDC_MINT : Pubkey := 0x615d2f450302a67ce4e0f6d2c2e4bbb13174c9ab6af3653d3aaddbbef37afac6

/-! A vault registers one cross-margin trader account, index `(0, 0)`. -/

def TRADER_PDA_INDEX : U8 := 0
def TRADER_SUBACCOUNT_INDEX : U8 := 0

/-- The flags of an onboarded trader: it can place market orders, deposit and withdraw. -/
def TRADER_READY_FLAGS : U32 := (1 <<< 2) ||| (1 <<< 4) ||| (1 <<< 5)

def readPubkey (data : List Byte) (offset : Nat) : Pubkey :=
  leWord 256 (slice data offset (offset + 32))

def readU32 (data : List Byte) (offset : Nat) : U32 := leWord 32 (slice data offset (offset + 4))

def readU64 (data : List Byte) (offset : Nat) : U64 := leWord 64 (slice data offset (offset + 8))

def readI64 (data : List Byte) (offset : Nat) : I64 where
  val := (readU64 data offset).toInt
  ge := BitVec.le_toInt _
  lt := BitVec.toInt_lt

/-- `data[offset]`, once the length is checked. -/
def readU8 (data : List Byte) (offset : Nat) : U8 := data.getD offset 0

def validateAccountData (data discriminator : List Byte) (minLen : Nat) : Result Unit :=
  validate (data.length ≥ minLen ∧ data.take 8 = discriminator) .invalidPhoenixAccount

def validateOwner (account : Account) : Result Unit :=
  validate (account.owner = PHOENIX_PROGRAM_ID) .invalidPhoenixAccount

structure PhoenixGlobalConfig where
  canonicalMint : Pubkey
  globalVault : Pubkey
  perpAssetMap : Pubkey
  globalTraderIndex : Pubkey
  activeTraderBuffer : Pubkey
  withdrawQueue : Pubkey

namespace PhoenixGlobalConfig

def discriminator : List Byte := [37, 146, 212, 210, 47, 136, 111, 20]

def LEN : Nat := 776

def parse (data : List Byte) : Result PhoenixGlobalConfig := do
  validateAccountData data discriminator LEN
  pure {
    canonicalMint := readPubkey data 296
    globalVault := readPubkey data 328
    perpAssetMap := readPubkey data 360
    globalTraderIndex := readPubkey data 392
    activeTraderBuffer := readPubkey data 424
    withdrawQueue := readPubkey data 472 }

def load (account : Account) : Result PhoenixGlobalConfig := do
  validateOwner account
  parse account.data

end PhoenixGlobalConfig

structure PhoenixTrader where
  authority : Pubkey
  quoteLotCollateral : I64
  flags : U32
  withdrawQueueNode : U32
  traderPdaIndex : U8
  traderSubaccountIndex : U8
  positionCount : U64

namespace PhoenixTrader

def discriminator : List Byte := [41, 97, 73, 105, 110, 214, 112, 9]

def LEN : Nat := 240

def parse (data : List Byte) : Result PhoenixTrader := do
  validateAccountData data discriminator LEN
  pure {
    authority := readPubkey data 56
    quoteLotCollateral := readI64 data 88
    flags := readU32 data 96
    withdrawQueueNode := readU32 data 108
    traderPdaIndex := readU8 data 154
    traderSubaccountIndex := readU8 data 155
    positionCount := readU64 data 224 }

def load (account : Account) : Result PhoenixTrader := do
  validateOwner account
  parse account.data

def validateAuthority (t : PhoenixTrader) (authority : Pubkey) : Result Unit :=
  validate (t.authority = authority ∧ t.traderPdaIndex = TRADER_PDA_INDEX ∧
    t.traderSubaccountIndex = TRADER_SUBACCOUNT_INDEX) .invalidPhoenixTrader

def isReady (t : PhoenixTrader) : Result Unit :=
  validate (t.flags &&& TRADER_READY_FLAGS = TRADER_READY_FLAGS) .phoenixTraderNotReady

def isEmpty (t : PhoenixTrader) : Result Unit :=
  validate (t.quoteLotCollateral = 0 ∧ t.positionCount = 0 ∧ t.withdrawQueueNode = 0)
    .phoenixStrategyNotEmpty

end PhoenixTrader

end HedgeVault
