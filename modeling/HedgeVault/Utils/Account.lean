import HedgeVault.Lib.Bytes
import HedgeVault.Constants
import HedgeVault.Error

/-!
# Accounts as an instruction sees them

A call hands the program accounts it did not ask for by name (`remaining_accounts`). Of such
an account the program reads the address, the program that owns it, the lamports and the
bytes, which `tryDeserialize` decodes behind a discriminator. `Accounts` are those of the
whole chain: an address that was never used has no lamports and no bytes.
-/

namespace HedgeVault

open Lib

structure Account where
  owner : Pubkey
  lamports : Nat
  data : List Byte

structure AccountInfo extends Account where
  key : Pubkey

abbrev Accounts := Pubkey → Account

/-- An address that was never used. -/
def Account.unused : Account := ⟨Pubkey.default, 0, []⟩

/-- The account is gone and its lamports are at `destination`. -/
def Accounts.close (a : Accounts) (key destination : Pubkey) : Accounts :=
  let closed := Function.update a key .unused
  Function.update closed destination
    { closed destination with lamports := (closed destination).lamports + (a key).lamports }

theorem Accounts.close_data {a : Accounts} {key destination k : Pubkey} (hk : k ≠ key) :
    (a.close key destination k).data = (a k).data ∧
      (a.close key destination k).owner = (a k).owner := by
  unfold Accounts.close
  by_cases hd : k = destination
  · subst hd
    simp [hk]
  · simp [hd, hk]

theorem Accounts.close_self {a : Accounts} {key destination : Pubkey} (h : key ≠ destination) :
    a.close key destination key = .unused := by
  unfold Accounts.close
  simp [h]

/-! Program ids, as the words their bytes spell. -/

def TOKEN_ID : Pubkey := 0xa900ff7e85f58c3a91375b5fed85b41cac79ebce46e1cbd993a165d7e1f6dd06
def TOKEN_2022_ID : Pubkey := 0xfc8ba1d828f9bdfe270db9834dfc1ab6dacd6ce4bc5d4218de8f75eee1f6dd06
def JUPITER_ID : Pubkey := 0x8f13bc56a2cdb102518ef4a3deb2b1fd071568ce6ec574ee6ec031f25bd57904
def DLMM_ID : Pubkey := 0xbcb020853bba085792b073621c0c5915ce0c64e2e9cc32c926e884bc2fe1e904

/-- Anchor's `try_deserialize`: the discriminator, then the fields; bytes after them are left. -/
def tryDeserialize {α : Type} (discriminator : List Byte) (fields : Decoder α) (data : List Byte) :
    Result α :=
  if data.length < discriminator.length then .error .accountDiscriminatorNotFound
  else if ¬ discriminator <+: data then .error .accountDiscriminatorMismatch
  else match fields.run (data.drop discriminator.length) with
    | some (a, _) => .ok a
    | none => .error .accountDidNotDeserialize

end HedgeVault
