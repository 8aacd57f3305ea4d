import HedgeVault.State.Config
import HedgeVault.Protocol.Phoenix
import HedgeVault.Lib.Buffer

/-!
# The config account as bytes

`ConfigField` lists the fields of the zero-copy `Config` in the order of their declaration;
the layout has no gaps, so the offset of a field is the size of those before it.
`ConfigBytes.view` reads the current layout. The deployed v1 layout is documented by byte
offsets (`ConfigV1Bytes.view`); it ends after `padding0`.
-/

namespace HedgeVault

open Lib

/-- `sha256("account:Config")[..8]`. -/
def CONFIG_DISCRIMINATOR : List Byte := [155, 12, 170, 224, 30, 250, 204, 130]

def CONFIG_VERSION : U8 := 2

def CONFIG_V1_LEN : Nat := 160

inductive ConfigField where
  | admin
  | navUpdater
  | treasuryAuthority
  | guardian
  | nextVaultId
  | platformPerformanceFeeBps
  | platformManagementFeeBps
  | maxNavDeviationBps
  | maxEpochOutflowBps
  | status
  | bump
  | padding0
  | version
  | padding1
  | pendingAdmin
  | maxSlippageBps
  | padding2
  | reserve
  deriving DecidableEq

namespace ConfigField

def size : ConfigField → Nat
  | admin => 32
  | navUpdater => 32
  | treasuryAuthority => 32
  | guardian => 32
  | nextVaultId => 8
  | platformPerformanceFeeBps => 2
  | platformManagementFeeBps => 2
  | maxNavDeviationBps => 2
  | maxEpochOutflowBps => 2
  | status => 1
  | bump => 1
  | padding0 => 6
  | version => 1
  | padding1 => 7
  | pendingAdmin => 32
  | maxSlippageBps => 2
  | padding2 => 6
  | reserve => 18 * 8

def declared : List ConfigField := [admin, navUpdater, treasuryAuthority, guardian, nextVaultId,
  platformPerformanceFeeBps, platformManagementFeeBps, maxNavDeviationBps, maxEpochOutflowBps,
  status, bump, padding0, version, padding1, pendingAdmin, maxSlippageBps, padding2, reserve]

/-- Behind the discriminator and the fields declared before. -/
def offset (f : ConfigField) : Nat :=
  CONFIG_DISCRIMINATOR.length + ((declared.takeWhile (· ≠ f)).map size).sum

def bytes (data : List Byte) (f : ConfigField) : List Byte :=
  slice data f.offset (f.offset + f.size)

end ConfigField

/-- `Config::INIT_SPACE`. -/
def CONFIG_INIT_SPACE : Nat := (ConfigField.declared.map ConfigField.size).sum

/-- `Config::DISCRIMINATOR.len() + Config::INIT_SPACE`. -/
def CONFIG_LEN : Nat := CONFIG_DISCRIMINATOR.length + CONFIG_INIT_SPACE

/-- The fields of the current layout. The status is the byte that encodes it. -/
@[ext]
structure ConfigBytes where
  admin : Pubkey
  navUpdater : Pubkey
  treasuryAuthority : Pubkey
  guardian : Pubkey
  nextVaultId : U64
  platformPerformanceFeeBps : U16
  platformManagementFeeBps : U16
  maxNavDeviationBps : U16
  maxEpochOutflowBps : U16
  status : U8
  bump : U8
  padding0 : List Byte
  version : U8
  padding1 : List Byte
  pendingAdmin : Pubkey
  maxSlippageBps : U16
  padding2 : List Byte
  reserve : List U64

def ConfigBytes.view (data : List Byte) : ConfigBytes where
  admin := leWord 256 (ConfigField.admin.bytes data)
  navUpdater := leWord 256 (ConfigField.navUpdater.bytes data)
  treasuryAuthority := leWord 256 (ConfigField.treasuryAuthority.bytes data)
  guardian := leWord 256 (ConfigField.guardian.bytes data)
  nextVaultId := leWord 64 (ConfigField.nextVaultId.bytes data)
  platformPerformanceFeeBps := leWord 16 (ConfigField.platformPerformanceFeeBps.bytes data)
  platformManagementFeeBps := leWord 16 (ConfigField.platformManagementFeeBps.bytes data)
  maxNavDeviationBps := leWord 16 (ConfigField.maxNavDeviationBps.bytes data)
  maxEpochOutflowBps := leWord 16 (ConfigField.maxEpochOutflowBps.bytes data)
  status := leWord 8 (ConfigField.status.bytes data)
  bump := leWord 8 (ConfigField.bump.bytes data)
  padding0 := ConfigField.padding0.bytes data
  version := leWord 8 (ConfigField.version.bytes data)
  padding1 := ConfigField.padding1.bytes data
  pendingAdmin := leWord 256 (ConfigField.pendingAdmin.bytes data)
  maxSlippageBps := leWord 16 (ConfigField.maxSlippageBps.bytes data)
  padding2 := ConfigField.padding2.bytes data
  reserve := (List.range 18).map fun i =>
    leWord 64 (slice (ConfigField.reserve.bytes data) (8 * i) (8 * i + 8))

/-- `max_slippage_bps()`. -/
def ConfigBytes.effectiveMaxSlippageBps (c : ConfigBytes) : U16 :=
  if c.maxSlippageBps = 0 then DEFAULT_MAX_SLIPPAGE_BPS else c.maxSlippageBps

/-- The fields of the v1 layout. -/
structure ConfigV1Bytes where
  admin : Pubkey
  navUpdater : Pubkey
  treasuryAuthority : Pubkey
  guardian : Pubkey
  nextVaultId : U64
  platformPerformanceFeeBps : U16
  platformManagementFeeBps : U16
  maxNavDeviationBps : U16
  maxEpochOutflowBps : U16
  status : U8
  bump : U8
  padding0 : List Byte

/-- Read at the documented offsets. -/
def ConfigV1Bytes.view (data : List Byte) : ConfigV1Bytes where
  admin := leWord 256 (slice data 8 40)
  navUpdater := leWord 256 (slice data 40 72)
  treasuryAuthority := leWord 256 (slice data 72 104)
  guardian := leWord 256 (slice data 104 136)
  nextVaultId := leWord 64 (slice data 136 144)
  platformPerformanceFeeBps := leWord 16 (slice data 144 146)
  platformManagementFeeBps := leWord 16 (slice data 146 148)
  maxNavDeviationBps := leWord 16 (slice data 148 150)
  maxEpochOutflowBps := leWord 16 (slice data 150 152)
  status := leWord 8 (slice data 152 153)
  bump := leWord 8 (slice data 153 154)
  padding0 := slice data 154 160

/-- The documented meaning of a v1 config in the current layout: its fields, the current version
and nothing in what was appended. -/
def ConfigV1Bytes.migrated (c : ConfigV1Bytes) : ConfigBytes where
  admin := c.admin
  navUpdater := c.navUpdater
  treasuryAuthority := c.treasuryAuthority
  guardian := c.guardian
  nextVaultId := c.nextVaultId
  platformPerformanceFeeBps := c.platformPerformanceFeeBps
  platformManagementFeeBps := c.platformManagementFeeBps
  maxNavDeviationBps := c.maxNavDeviationBps
  maxEpochOutflowBps := c.maxEpochOutflowBps
  status := c.status
  bump := c.bump
  padding0 := c.padding0
  version := CONFIG_VERSION
  padding1 := List.replicate 7 0
  pendingAdmin := Pubkey.default
  maxSlippageBps := 0
  padding2 := List.replicate 6 0
  reserve := List.replicate 18 0

end HedgeVault
