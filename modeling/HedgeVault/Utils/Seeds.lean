import HedgeVault.Constants
import HedgeVault.Lib.Bytes

/-!
# Address seeds

The seeds of the program's accounts, each list with the bump at its end. An address is the
hash of the seeds put together, without their lengths, so what matters is that no two
accounts have the same bytes (`ProgramAccount.preimage_injective`): every kind of account
has seeds of a length of its own.
-/

namespace HedgeVault

open Lib

def CONFIG : List Byte := [99, 111, 110, 102, 105, 103]
def MANAGER : List Byte := [109, 97, 110, 97, 103, 101, 114]
def VAULT : List Byte := [118, 97, 117, 108, 116]
def SHARE_MINT : List Byte := [115, 104, 97, 114, 101, 95, 109, 105, 110, 116]
def DEPOSIT_ESCROW : List Byte :=
  [100, 101, 112, 111, 115, 105, 116, 95, 101, 115, 99, 114, 111, 119]
def SHARE_ESCROW : List Byte := [115, 104, 97, 114, 101, 95, 101, 115, 99, 114, 111, 119]
def STRATEGY : List Byte := [115, 116, 114, 97, 116, 101, 103, 121]
def DEPOSIT_REQUEST : List Byte :=
  [100, 101, 112, 111, 115, 105, 116, 95, 114, 101, 113, 117, 101, 115, 116]
def WITHDRAWAL_REQUEST : List Byte :=
  [119, 105, 116, 104, 100, 114, 97, 119, 97, 108, 95, 114, 101, 113, 117, 101, 115, 116]

/-- `key.as_ref()`. -/
def Pubkey.bytes (k : Pubkey) : List Byte := leBytes 32 k.toNat

/-- `id.to_le_bytes()`. -/
def idBytes (id : U64) : List Byte := leBytes 8 id.toNat

section

variable (vault authority protocolAccount : Pubkey) (vaultId : U64) (bump : U8)

def configSeeds : List (List Byte) := [CONFIG, [bump]]

def managerSeeds : List (List Byte) := [MANAGER, authority.bytes, [bump]]

def vaultSeeds : List (List Byte) := [VAULT, idBytes vaultId, [bump]]

def strategySeeds : List (List Byte) := [STRATEGY, vault.bytes, protocolAccount.bytes, [bump]]

def depositRequestSeeds : List (List Byte) :=
  [DEPOSIT_REQUEST, vault.bytes, authority.bytes, [bump]]

def withdrawalRequestSeeds : List (List Byte) :=
  [WITHDRAWAL_REQUEST, vault.bytes, authority.bytes, [bump]]

end

/-- An account of the program. The mint and the escrows of a vault are found by Anchor, which
has no macro for their seeds. -/
inductive ProgramAccount where
  | config
  | manager (authority : Pubkey)
  | vault (id : U64)
  | shareMint (vault : Pubkey)
  | depositEscrow (vault : Pubkey)
  | shareEscrow (vault : Pubkey)
  | strategy (vault protocolAccount : Pubkey)
  | depositRequest (vault authority : Pubkey)
  | withdrawalRequest (vault authority : Pubkey)

namespace ProgramAccount

def seeds (bump : U8) : ProgramAccount → List (List Byte)
  | .config => configSeeds bump
  | .manager authority => managerSeeds authority bump
  | .vault id => vaultSeeds id bump
  | .shareMint v => [SHARE_MINT, v.bytes, [bump]]
  | .depositEscrow v => [DEPOSIT_ESCROW, v.bytes, [bump]]
  | .shareEscrow v => [SHARE_ESCROW, v.bytes, [bump]]
  | .strategy v protocolAccount => strategySeeds v protocolAccount bump
  | .depositRequest v authority => depositRequestSeeds v authority bump
  | .withdrawalRequest v authority => withdrawalRequestSeeds v authority bump

/-- The bytes that are hashed, before the program id. -/
def preimage (bump : U8) (a : ProgramAccount) : List Byte := (a.seeds bump).flatten

/-- How many bytes the seeds of an account are. -/
def size : ProgramAccount → Nat
  | config => 7
  | manager _ => 40
  | vault _ => 14
  | shareMint _ => 43
  | depositEscrow _ => 47
  | shareEscrow _ => 45
  | strategy _ _ => 73
  | depositRequest _ _ => 80
  | withdrawalRequest _ _ => 83

end ProgramAccount

section

variable {k l : Pubkey} {bump bump' : U8} {a b : ProgramAccount}

@[simp] theorem Pubkey.length_bytes (k : Pubkey) : k.bytes.length = 32 := length_leBytes 32 _

@[simp] theorem length_idBytes (id : U64) : (idBytes id).length = 8 := length_leBytes 8 _

theorem Pubkey.bytes_inj (h : k.bytes = l.bytes) : k = l := by
  have hw := congrArg (leWord (8 * 32)) h
  unfold Pubkey.bytes at hw
  rwa [leWord_leBytes (n := 32) k, leWord_leBytes (n := 32) l] at hw

theorem idBytes_inj {i j : U64} (h : idBytes i = idBytes j) : i = j := by
  have hw := congrArg (leWord (8 * 8)) h
  unfold idBytes at hw
  rwa [leWord_leBytes (n := 8) i, leWord_leBytes (n := 8) j] at hw

namespace ProgramAccount

theorem length_preimage (bump : U8) (a : ProgramAccount) : (a.preimage bump).length = a.size := by
  cases a <;> simp [preimage, seeds, size, configSeeds, managerSeeds, vaultSeeds, strategySeeds,
    depositRequestSeeds, withdrawalRequestSeeds, CONFIG, MANAGER, VAULT, SHARE_MINT, DEPOSIT_ESCROW,
    SHARE_ESCROW, STRATEGY, DEPOSIT_REQUEST, WITHDRAWAL_REQUEST]

/-- Behind the same label, one key and the bump can be read back. -/
theorem key_inj (label : List Byte)
    (h : [label, k.bytes, [bump]].flatten = [label, l.bytes, [bump']].flatten) :
    k = l ∧ bump = bump' := by
  simp only [List.flatten_cons, List.flatten_nil, List.append_nil] at h
  have hrest := List.append_cancel_left h
  obtain ⟨hk, hbump⟩ := List.append_inj hrest (by simp)
  exact ⟨Pubkey.bytes_inj hk, List.head_eq_of_cons_eq hbump⟩

theorem keys_inj {label : List Byte} {m n : Pubkey}
    (h : [label, k.bytes, m.bytes, [bump]].flatten = [label, l.bytes, n.bytes, [bump']].flatten) :
    k = l ∧ m = n ∧ bump = bump' := by
  rw [List.flatten_cons, List.flatten_cons (l := label)] at h
  have hrest := List.append_cancel_left h
  rw [List.flatten_cons, List.flatten_cons (l := l.bytes)] at hrest
  obtain ⟨hk, htail⟩ := List.append_inj hrest (by simp)
  obtain ⟨hm, hbump⟩ := key_inj [] htail
  exact ⟨Pubkey.bytes_inj hk, hm, hbump⟩

/-- The bytes an address is derived from tell the kind of account, what it is about and the
bump: no two accounts of the program share them. -/
theorem preimage_inj : a.preimage bump = b.preimage bump' ↔ a = b ∧ bump = bump' := by
  refine ⟨fun h => ?_, by rintro ⟨rfl, rfl⟩; rfl⟩
  have hsize : a.size = b.size := by
    rw [← length_preimage bump a, ← length_preimage bump' b, h]
  cases a with
  | config =>
    cases b with
    | config => exact ⟨rfl, by simpa [preimage, seeds, configSeeds] using h⟩
    | _ => simp [size] at hsize
  | vault id =>
    cases b with
    | vault id' =>
      simp only [preimage, seeds, vaultSeeds, List.flatten_cons, List.flatten_nil,
        List.append_nil] at h
      have hrest := List.append_cancel_left h
      obtain ⟨hid, hbump⟩ := List.append_inj hrest (by simp)
      rw [idBytes_inj hid]
      exact ⟨rfl, List.head_eq_of_cons_eq hbump⟩
    | _ => simp [size] at hsize
  | manager k =>
    cases b with
    | manager l =>
      obtain ⟨rfl, hbump⟩ := key_inj _ h
      exact ⟨rfl, hbump⟩
    | _ => simp [size] at hsize
  | shareMint k =>
    cases b with
    | shareMint l =>
      obtain ⟨rfl, hbump⟩ := key_inj _ h
      exact ⟨rfl, hbump⟩
    | _ => simp [size] at hsize
  | depositEscrow k =>
    cases b with
    | depositEscrow l =>
      obtain ⟨rfl, hbump⟩ := key_inj _ h
      exact ⟨rfl, hbump⟩
    | _ => simp [size] at hsize
  | shareEscrow k =>
    cases b with
    | shareEscrow l =>
      obtain ⟨rfl, hbump⟩ := key_inj _ h
      exact ⟨rfl, hbump⟩
    | _ => simp [size] at hsize
  | strategy k m =>
    cases b with
    | strategy l n =>
      obtain ⟨rfl, rfl, hbump⟩ := keys_inj h
      exact ⟨rfl, hbump⟩
    | _ => simp [size] at hsize
  | depositRequest k m =>
    cases b with
    | depositRequest l n =>
      obtain ⟨rfl, rfl, hbump⟩ := keys_inj h
      exact ⟨rfl, hbump⟩
    | _ => simp [size] at hsize
  | withdrawalRequest k m =>
    cases b with
    | withdrawalRequest l n =>
      obtain ⟨rfl, rfl, hbump⟩ := keys_inj h
      exact ⟨rfl, hbump⟩
    | _ => simp [size] at hsize

end ProgramAccount

end

end HedgeVault
