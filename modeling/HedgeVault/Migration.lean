import HedgeVault.Instructions.ConfigMigrate
import HedgeVault.ProtocolProgram

/-!
# The config migration

The two layouts overlap on the same bytes, so what the grown account means follows from
offsets alone: a field within the first 160 bytes keeps its bytes (`bytes_v1`), the version is
the byte that is written (`bytes_version`) and every later field is zero (`bytes_appended`).
`view_migrateData` puts them together; `configMigrate_exact` is about the instruction: who can
run it, what it leaves and that it runs once. On the decoded configs the migration is the one
of the protocol model (`migrated_config`).
-/

namespace HedgeVault

open Lib

/-! ## The bytes of a migrated config -/

/-- The grown account: the v1 bytes and zeros. -/
def grown (data : List Byte) : List Byte := data ++ List.replicate (CONFIG_LEN - CONFIG_V1_LEN) 0

section

variable {data : List Byte} {f : ConfigField}

theorem length_grown (hlen : data.length = CONFIG_V1_LEN) : (grown data).length = CONFIG_LEN := by
  unfold grown
  rw [List.length_append, List.length_replicate, hlen]
  rfl

/-- The version byte within the grown account. -/
theorem version_fits (hlen : data.length = CONFIG_V1_LEN) :
    versionField.stop ≤ (grown data).length := by
  rw [length_grown hlen]
  decide

theorem length_migrateData (hlen : data.length = CONFIG_V1_LEN) :
    (migrateData (grown data)).length = CONFIG_LEN :=
  (length_write (version_fits hlen)).trans (length_grown hlen)

/-- The v1 bytes are those of the account before. -/
theorem slice_v1 (hlen : data.length = CONFIG_V1_LEN) {i j : Nat} (hj : j ≤ CONFIG_V1_LEN) :
    slice (migrateData (grown data)) i j = slice data i j := by
  have hapart : Apart (i, j) versionField.span := .inl hj
  refine (slice_write_of_apart (version_fits hlen) hapart).trans ?_
  exact slice_append_left _ (hlen ▸ hj)

theorem bytes_v1 (hlen : data.length = CONFIG_V1_LEN) (hf : f.offset + f.size ≤ CONFIG_V1_LEN) :
    f.bytes (migrateData (grown data)) = f.bytes data :=
  slice_v1 hlen hf

theorem bytes_version (hlen : data.length = CONFIG_V1_LEN) :
    leWord 8 (ConfigField.version.bytes (migrateData (grown data))) = CONFIG_VERSION := by
  have hs : ConfigField.version.bytes (migrateData (grown data)) = leBytes 1 CONFIG_VERSION.toNat :=
    slice_write_self (version_fits hlen)
  rw [hs]
  exact leWord_leBytes (n := 1) CONFIG_VERSION

theorem bytes_appended (hlen : data.length = CONFIG_V1_LEN) (hf : 161 ≤ f.offset)
    (hstop : f.offset + f.size ≤ CONFIG_LEN) :
    f.bytes (migrateData (grown data)) = List.replicate f.size 0 := by
  have hapart : Apart (f.offset, f.offset + f.size) versionField.span := .inr hf
  have hlen' : data.length = 160 := hlen
  have hlast : data.length + (CONFIG_LEN - CONFIG_V1_LEN) = CONFIG_LEN := by rw [hlen]; rfl
  refine (slice_write_of_apart (version_fits hlen) hapart).trans ?_
  refine (slice_append_replicate 0 (by omega) (by omega)).trans ?_
  rw [Nat.add_sub_cancel_left]

theorem slice_zeros {i : Nat} (n : Nat) (hi : i + 8 ≤ n) :
    slice (List.replicate n (0 : Byte)) i (i + 8) = List.replicate 8 0 := by
  have h := slice_append_replicate (a := []) (i := i) (j := i + 8) (n := n) 0 (Nat.zero_le _)
    (by rw [List.length_nil]; omega)
  rwa [List.nil_append, Nat.add_sub_cancel_left] at h

/-- The migrated bytes in the current layout are what the v1 bytes mean. -/
theorem view_migrateData (hlen : data.length = CONFIG_V1_LEN) :
    ConfigBytes.view (migrateData (grown data)) = (ConfigV1Bytes.view data).migrated := by
  have hreserve : ((List.range 18).map fun i => leWord 64
      (slice (List.replicate (18 * 8) (0 : Byte)) (8 * i) (8 * i + 8))) = List.replicate 18 0 := by
    rw [List.eq_replicate_iff]
    refine ⟨by rw [List.length_map, List.length_range], fun x hx => ?_⟩
    obtain ⟨i, hi, rfl⟩ := List.mem_map.1 hx
    have hlt := List.mem_range.1 hi
    rw [slice_zeros _ (by omega), leWord_zeros]
  unfold ConfigBytes.view
  rw [bytes_v1 hlen (f := .admin) (by decide), bytes_v1 hlen (f := .navUpdater) (by decide),
    bytes_v1 hlen (f := .treasuryAuthority) (by decide),
    bytes_v1 hlen (f := .guardian) (by decide), bytes_v1 hlen (f := .nextVaultId) (by decide),
    bytes_v1 hlen (f := .platformPerformanceFeeBps) (by decide),
    bytes_v1 hlen (f := .platformManagementFeeBps) (by decide),
    bytes_v1 hlen (f := .maxNavDeviationBps) (by decide),
    bytes_v1 hlen (f := .maxEpochOutflowBps) (by decide),
    bytes_v1 hlen (f := .status) (by decide), bytes_v1 hlen (f := .bump) (by decide),
    bytes_v1 hlen (f := .padding0) (by decide), bytes_version hlen,
    bytes_appended hlen (f := .padding1) (by decide) (by decide),
    bytes_appended hlen (f := .pendingAdmin) (by decide) (by decide),
    bytes_appended hlen (f := .maxSlippageBps) (by decide) (by decide),
    bytes_appended hlen (f := .padding2) (by decide) (by decide),
    bytes_appended hlen (f := .reserve) (by decide) (by decide),
    leWord_zeros, leWord_zeros]
  unfold ConfigV1Bytes.migrated
  rw [← hreserve]
  rfl

end

/-! ## The instruction -/

section

variable {rent : Nat → Nat} {configKey : Pubkey} {admin : Signer} {a a' : Accounts}

/-- The admin can pay what the grown account is short of. -/
def CanPayRent (rent : Nat → Nat) (configKey : Pubkey) (admin : Signer) (a : Accounts) : Prop :=
  rentDue rent (a configKey) = 0 ∨ (a admin.key).owner = SYSTEM_PROGRAM_ID ∧
    (a admin.key).data = [] ∧ rentDue rent (a configKey) ≤ (a admin.key).lamports

theorem exists_payRent : (∃ a', payRent rent configKey admin a = .ok a') ↔
    CanPayRent rent configKey admin a := by
  unfold payRent CanPayRent Accounts.systemTransfer
  by_cases hdue : rentDue rent (a configKey) > 0
  · rw [if_pos hdue]
    have hne : rentDue rent (a configKey) ≠ 0 := by omega
    split
    · next h => exact ⟨fun _ => .inr h, fun _ => ⟨_, rfl⟩⟩
    · next h =>
      refine ⟨fun ⟨_, hx⟩ => (nomatch hx), fun hp => ?_⟩
      exact absurd (hp.resolve_left hne) h
  · rw [if_neg hdue]
    exact ⟨fun _ => .inl (by omega), fun _ => ⟨a, rfl⟩⟩

/-- After the top-up the config is the account before with the rent of the grown one. The payer is
another account: the system program moves nothing out of an account of this program. -/
theorem payRent_ok (howner : (a configKey).owner = PROGRAM_ID)
    (h : payRent rent configKey admin a = .ok a') :
    a' configKey = { a configKey with
      lamports := (a configKey).lamports + rentDue rent (a configKey) } := by
  unfold payRent Accounts.systemTransfer at h
  split at h
  · split at h
    · next hc =>
      cases h
      have hne : configKey ≠ admin.key := by
        rintro rfl
        have hsystem : PROGRAM_ID = SYSTEM_PROGRAM_ID := howner.symm.trans hc.1
        exact absurd hsystem (by decide)
      simp [Accounts.setLamports, hne]
    · cases h
  · next hdue =>
    cases h
    have h0 : rentDue rent (a configKey) = 0 := by omega
    rw [h0]; rfl

theorem configMigrate_eq_ok : configMigrate rent configKey admin a = .ok a' ↔
    ((a configKey).owner = PROGRAM_ID ∧ CONFIG_DISCRIMINATOR <+: (a configKey).data) ∧
    (a configKey).data.length = CONFIG_V1_LEN ∧
    (ConfigV1Bytes.view (a configKey).data).admin = admin.key ∧
    ∃ paid, payRent rent configKey admin a = .ok paid ∧
      (paid.resize configKey CONFIG_LEN).setData configKey
        (migrateData (paid.resize configKey CONFIG_LEN configKey).data) = a' := by
  unfold configMigrate
  simp only [bind_eq_ok, validate_eq_ok, pure_eq_ok, exists_and_left, exists_const]
  exact Iff.rfl

/-- The config account that a migration leaves. -/
theorem configMigrate_account (h : configMigrate rent configKey admin a = .ok a') :
    a' configKey = { a configKey with
      lamports := (a configKey).lamports + rentDue rent (a configKey)
      data := migrateData (grown (a configKey).data) } := by
  obtain ⟨⟨howner, _⟩, hlen, _, paid, hpaid, rfl⟩ := configMigrate_eq_ok.1 h
  have e := payRent_ok howner hpaid
  have hlen' : (a configKey).data.length ≤ CONFIG_LEN := hlen ▸ by decide
  have hgrown : (paid.resize configKey CONFIG_LEN configKey).data = grown (a configKey).data := by
    unfold Accounts.resize Accounts.setData grown
    rw [Function.update_self, e, List.take_of_length_le hlen', hlen]
  rw [hgrown]
  unfold Accounts.setData Accounts.resize Accounts.setData
  rw [Function.update_self, Function.update_self, e]

/-- A grown account is not of the v1 length. -/
theorem configMigrate_again (admin' : Signer) (h : configMigrate rent configKey admin a = .ok a') :
    configMigrate rent configKey admin' a' = .error (.custom .invalidConfigVersion) := by
  obtain ⟨⟨howner, hdisc⟩, hlen, _⟩ := configMigrate_eq_ok.1 h
  have e := configMigrate_account h
  have hlen' := length_migrateData hlen
  have howner' : (a' configKey).owner = PROGRAM_ID := by rw [e]; exact howner
  have hdisc' : CONFIG_DISCRIMINATOR <+: (a' configKey).data := by
    have hhead := slice_v1 (i := 0) (j := 8) hlen (by decide)
    obtain ⟨rest, hrest⟩ := hdisc
    have hkept : (migrateData (grown (a configKey).data)).take 8 = CONFIG_DISCRIMINATOR := by
      refine hhead.trans ?_
      rw [← hrest]; rfl
    rw [e, ← hkept]
    exact List.take_prefix _ _
  have hne : ¬ (a' configKey).data.length = CONFIG_V1_LEN := by
    rw [e, hlen']
    decide
  simp only [configMigrate]
  rw [validate_of ⟨howner', hdisc'⟩, ok_bind]
  simp only [validate, if_neg hne]
  rfl

/-- A v1 config is migrated by its admin alone and once: every v1 field keeps its value, the
appended ones are unset, the account is rent exempt and a second migration is refused. -/
theorem configMigrate_exact (rent : Nat → Nat) (configKey : Pubkey) (admin : Signer) (a : Accounts)
    (howner : (a configKey).owner = PROGRAM_ID)
    (hdisc : CONFIG_DISCRIMINATOR <+: (a configKey).data)
    (hlen : (a configKey).data.length = CONFIG_V1_LEN) :
    ((∃ a', configMigrate rent configKey admin a = .ok a') ↔
      admin.key = (ConfigV1Bytes.view (a configKey).data).admin ∧
        CanPayRent rent configKey admin a) ∧
    ∀ a', configMigrate rent configKey admin a = .ok a' →
      (a' configKey).data.length = 352 ∧ (a' configKey).owner = PROGRAM_ID ∧
      ConfigBytes.view (a' configKey).data = (ConfigV1Bytes.view (a configKey).data).migrated ∧
      (ConfigBytes.view (a' configKey).data).effectiveMaxSlippageBps = DEFAULT_MAX_SLIPPAGE_BPS ∧
      rent CONFIG_LEN ≤ (a' configKey).lamports ∧
      ∀ admin', configMigrate rent configKey admin' a' = .error (.custom .invalidConfigVersion) ∧
        a'.commit (configMigrate rent configKey admin' a') = a' := by
  refine ⟨?_, ?_⟩
  · rw [← exists_payRent]
    constructor
    · rintro ⟨a', h⟩
      obtain ⟨_, _, hadmin, paid, hpaid, _⟩ := configMigrate_eq_ok.1 h
      exact ⟨hadmin.symm, paid, hpaid⟩
    · rintro ⟨hadmin, paid, hpaid⟩
      exact ⟨_, configMigrate_eq_ok.2 ⟨⟨howner, hdisc⟩, hlen, hadmin.symm, paid, hpaid, rfl⟩⟩
  · intro a' h
    have e := configMigrate_account h
    have hview : ConfigBytes.view (a' configKey).data =
        (ConfigV1Bytes.view (a configKey).data).migrated := by
      rw [e]; exact view_migrateData hlen
    refine ⟨?_, ?_, hview, ?_, ?_, ?_⟩
    · rw [e]; exact length_migrateData hlen
    · rw [e]; exact howner
    · rw [hview]; rfl
    · rw [e]
      show rent CONFIG_LEN ≤ (a configKey).lamports + rentDue rent (a configKey)
      unfold rentDue
      omega
    · intro admin'
      have hagain := configMigrate_again admin' h
      exact ⟨hagain, by rw [hagain]; rfl⟩

end

/-! A config of admin 1, short of the rent, at address 2. -/

def sampleV1Account (key : Pubkey) : Account :=
  if key = 2 then ⟨PROGRAM_ID, 1000, CONFIG_DISCRIMINATOR ++ leBytes 32 1 ++ List.replicate 120 7⟩
  else ⟨SYSTEM_PROGRAM_ID, 5000, []⟩

theorem configMigrate_exact_sample : ∃ a',
    configMigrate (fun len => 10 * len) 2 ⟨1, by decide⟩ sampleV1Account = .ok a' := by
  refine (configMigrate_exact (fun len => 10 * len) 2 ⟨1, by decide⟩ sampleV1Account rfl
    (by decide) rfl).1.2 ⟨rfl, .inr ⟨rfl, rfl, by decide⟩⟩

/-! ## The decoded configs -/

def statusOf (byte : U8) : Option ProtocolStatus :=
  match byte.toNat with
  | 0 => some .normal
  | 1 => some .paused
  | 2 => some .reduceOnly
  | _ => none

/-- The config of the protocol model, for a byte that encodes a status. -/
def ConfigBytes.config (c : ConfigBytes) : Option Config :=
  (statusOf c.status).map fun status => {
    admin := c.admin
    navUpdater := c.navUpdater
    treasuryAuthority := c.treasuryAuthority
    guardian := c.guardian
    nextVaultId := c.nextVaultId
    platformPerformanceFeeBps := c.platformPerformanceFeeBps
    platformManagementFeeBps := c.platformManagementFeeBps
    maxNavDeviationBps := c.maxNavDeviationBps
    maxEpochOutflowBps := c.maxEpochOutflowBps
    status := status
    pendingAdmin := c.pendingAdmin
    maxSlippageBps := c.maxSlippageBps }

def ConfigV1Bytes.config (c : ConfigV1Bytes) : Option ConfigV1 :=
  (statusOf c.status).map fun status => {
    admin := c.admin
    navUpdater := c.navUpdater
    treasuryAuthority := c.treasuryAuthority
    guardian := c.guardian
    nextVaultId := c.nextVaultId
    platformPerformanceFeeBps := c.platformPerformanceFeeBps
    platformManagementFeeBps := c.platformManagementFeeBps
    maxNavDeviationBps := c.maxNavDeviationBps
    maxEpochOutflowBps := c.maxEpochOutflowBps
    status := status }

/-- The migrated bytes decode to the migrated config. -/
theorem migrated_config (c : ConfigV1Bytes) :
    c.migrated.config = c.config.map ConfigV1.migrate := by
  unfold ConfigBytes.config ConfigV1Bytes.config
  rw [Option.map_map]
  rfl

end HedgeVault
