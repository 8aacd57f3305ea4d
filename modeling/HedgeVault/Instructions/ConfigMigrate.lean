import HedgeVault.State.ConfigLayout

/-!
# Migrating the config

`config_migrate` on raw accounts: the v1 account is checked by its bytes, topped up to the
rent of the grown account, grown with zeros and stamped with the version through the current
layout. `rent` is the minimum balance of an account by its length, `configKey` the address the
seeds derive.
-/

namespace HedgeVault

open Lib

/-- The address of this program. -/
def PROGRAM_ID : Pubkey := 0x052d00d6fe9759915edafa5aa032b9f94730016b24a3302ef6f8547e473f8f0c

def SYSTEM_PROGRAM_ID : Pubkey := Pubkey.default

namespace Accounts

def setLamports (a : Accounts) (key : Pubkey) (lamports : Nat) : Accounts :=
  Function.update a key { a key with lamports }

def setData (a : Accounts) (key : Pubkey) (data : List Byte) : Accounts :=
  Function.update a key { a key with data }

/-- The system program's `transfer`: only out of its own accounts without data. A refusal ends the
instruction. -/
def systemTransfer (a : Accounts) (src dst : Pubkey) (lamports : Nat) : Result Accounts :=
  if (a src).owner = SYSTEM_PROGRAM_ID ∧ (a src).data = [] ∧ lamports ≤ (a src).lamports then
    let debited := a.setLamports src ((a src).lamports - lamports)
    .ok (debited.setLamports dst ((debited dst).lamports + lamports))
  else .error .programFailed

/-- Growing an account zero-fills the new bytes. -/
def resize (a : Accounts) (key : Pubkey) (len : Nat) : Accounts :=
  a.setData key ((a key).data.take len ++ List.replicate (len - (a key).data.length) 0)

/-- The accounts after an instruction: those before it when it failed. -/
def commit (a : Accounts) : Result Accounts → Accounts
  | .ok a' => a'
  | .error _ => a

end Accounts

def versionField : Field := ⟨ConfigField.version.offset, 1, CONFIG_VERSION⟩

/-- `config.migrate()` through the bytes: the version field is written, nothing else. -/
def migrateData (data : List Byte) : List Byte := write data versionField

def rentDue (rent : Nat → Nat) (config : Account) : Nat := rent CONFIG_LEN - config.lamports

def payRent (rent : Nat → Nat) (configKey : Pubkey) (admin : Signer) (a : Accounts) :
    Result Accounts :=
  if rentDue rent (a configKey) > 0 then
    a.systemTransfer admin.key configKey (rentDue rent (a configKey))
  else pure a

def configMigrate (rent : Nat → Nat) (configKey : Pubkey) (admin : Signer) (a : Accounts) :
    Result Accounts := do
  let config := a configKey
  validate (config.owner = PROGRAM_ID ∧ CONFIG_DISCRIMINATOR <+: config.data) .invalidConfig
  validate (config.data.length = CONFIG_V1_LEN) .invalidConfigVersion
  validate (leWord 256 (slice config.data 8 40) = admin.key) .invalidAdmin
  let a ← payRent rent configKey admin a
  let a := a.resize configKey CONFIG_LEN
  pure (a.setData configKey (migrateData (a configKey).data))

end HedgeVault
