import HedgeVault.Lib.Serial
import HedgeVault.ProtocolProgram

/-!
# Authority over the config

`ConfigStep` says once what a processed transaction did to the config account. From it: the
pending admin is what the last nomination or accept left, so an accept is by the nominee of
the latest nomination, which the admin of that time signed; only an update by the admin ends
a pause; and the vault ids are the serial numbers of the config.
-/

namespace HedgeVault

open Lib

/-! ## An update of the config -/

/-- The fields of the config that decide who may do what. -/
structure Config.SameAuthority (c c' : Config) : Prop where
  admin : c'.admin = c.admin
  pendingAdmin : c'.pendingAdmin = c.pendingAdmin
  status : c'.status = c.status
  nextVaultId : c'.nextVaultId = c.nextVaultId

namespace Config

theorem SameAuthority.refl (c : Config) : SameAuthority c c := ⟨rfl, rfl, rfl, rfl⟩

theorem SameAuthority.trans {a b c : Config} (h₁ : SameAuthority a b) (h₂ : SameAuthority b c) :
    SameAuthority a c :=
  ⟨h₂.admin.trans h₁.admin, h₂.pendingAdmin.trans h₁.pendingAdmin, h₂.status.trans h₁.status,
    h₂.nextVaultId.trans h₁.nextVaultId⟩

theorem setIfSome_ok {α : Type} {o : Option α} {p : α → Prop} [DecidablePred p]
    {e : HedgeVaultError} {set : Config → α → Config} {c c' : Config}
    (h : setIfSome o p e set c = .ok c') :
    (∀ x, o = some x → p x) ∧ c' = o.elim c (set c) := by
  unfold setIfSome at h
  cases o with
  | none =>
    cases h
    exact ⟨nofun, rfl⟩
  | some x =>
    simp only [bind_eq_ok, validate_eq_ok, pure_eq_ok] at h
    obtain ⟨_, hp, rfl⟩ := h
    refine ⟨?_, rfl⟩
    intro y hy
    cases hy
    exact hp

theorem setIfSome_sameAuthority {α : Type} {o : Option α} {p : α → Prop} [DecidablePred p]
    {e : HedgeVaultError} {set : Config → α → Config} {c c' : Config}
    (h : setIfSome o p e set c = .ok c') (hset : ∀ c x, SameAuthority c (set c x)) :
    SameAuthority c c' := by
  obtain ⟨_, rfl⟩ := setIfSome_ok h
  cases o with
  | none => exact .refl c
  | some x => exact hset c x

/-- What an update does to the authority fields: a nomination of a key and a status. -/
theorem update_ok {c c' : Config} {args : ConfigUpdateArgs} (h : c.update args = .ok c') :
    c'.admin = c.admin ∧ c'.nextVaultId = c.nextVaultId ∧
      c'.pendingAdmin = args.pendingAdmin.getD c.pendingAdmin ∧
      (∀ k, args.pendingAdmin = some k → k ≠ Pubkey.default) ∧
      c'.status = args.status.getD c.status := by
  simp only [update, bind_eq_ok] at h
  obtain ⟨c₁, h1, c₂, h2, c₃, h3, c₄, h4, c₅, h5, c₆, h6, c₇, h7, c₈, h8, c₉, h9, h⟩ := h
  obtain ⟨hne, e1⟩ := setIfSome_ok h1
  -- the fields in between leave the authority alone
  have hmid : SameAuthority c₁ c₉ :=
    (setIfSome_sameAuthority h2 fun _ _ => ⟨rfl, rfl, rfl, rfl⟩).trans <|
    (setIfSome_sameAuthority h3 fun _ _ => ⟨rfl, rfl, rfl, rfl⟩).trans <|
    (setIfSome_sameAuthority h4 fun _ _ => ⟨rfl, rfl, rfl, rfl⟩).trans <|
    (setIfSome_sameAuthority h5 fun _ _ => ⟨rfl, rfl, rfl, rfl⟩).trans <|
    (setIfSome_sameAuthority h6 fun _ _ => ⟨rfl, rfl, rfl, rfl⟩).trans <|
    (setIfSome_sameAuthority h7 fun _ _ => ⟨rfl, rfl, rfl, rfl⟩).trans <|
    (setIfSome_sameAuthority h8 fun _ _ => ⟨rfl, rfl, rfl, rfl⟩).trans <|
    setIfSome_sameAuthority h9 fun _ _ => ⟨rfl, rfl, rfl, rfl⟩
  have hfirst : c₁.admin = c.admin ∧ c₁.nextVaultId = c.nextVaultId ∧ c₁.status = c.status ∧
      c₁.pendingAdmin = args.pendingAdmin.getD c.pendingAdmin := by
    rw [e1]
    cases args.pendingAdmin <;> exact ⟨rfl, rfl, rfl, rfl⟩
  obtain ⟨ha, hid, hst, hp⟩ := hfirst
  have hlast : c'.admin = c₉.admin ∧ c'.nextVaultId = c₉.nextVaultId ∧
      c'.pendingAdmin = c₉.pendingAdmin ∧ c'.status = args.status.getD c₉.status := by
    cases hs : args.status with
    | none =>
      rw [hs] at h
      cases h
      exact ⟨rfl, rfl, rfl, rfl⟩
    | some s =>
      rw [hs] at h
      cases h
      exact ⟨rfl, rfl, rfl, rfl⟩
  obtain ⟨ha', hid', hp', hst'⟩ := hlast
  refine ⟨ha'.trans (hmid.admin.trans ha), hid'.trans (hmid.nextVaultId.trans hid),
    hp'.trans (hmid.pendingAdmin.trans hp), hne, ?_⟩
  rw [hst', hmid.status, hst]

theorem acceptAdmin_ok {c c' : Config} {k : Pubkey} (h : c.acceptAdmin k = .ok c') :
    c.pendingAdmin = k ∧ c' = { c with admin := k, pendingAdmin := Pubkey.default } := by
  simp only [acceptAdmin, bind_eq_ok, validate_eq_ok, pure_eq_ok] at h
  obtain ⟨_, ⟨_, hk⟩, rfl⟩ := h
  exact ⟨hk, rfl⟩

end Config

variable {D : Deployment}

/-- Whether the transaction replaces or consumes a nomination. -/
def ProtocolTx.renominates (tx : ProtocolTx D) : Bool :=
  match tx.ix with
  | .configUpdate args => args.pendingAdmin.isSome
  | .adminAccept => true
  | _ => false

/-- The transactions that leave the config alone and open no vault. -/
def ProtocolInstruction.isQuiet : ProtocolInstruction → Bool
  | .configAddManager _ => true
  | .configRemoveManager _ => true
  | .vaultClose _ => true
  | .onVault _ _ => true
  | .tokens _ _ => true
  | _ => false

/-! ## What a transaction does to the config -/

namespace Protocol

def admin (p : Protocol) : Option Pubkey := p.config.map (·.admin)

def status (p : Protocol) : Option ProtocolStatus := p.config.map (·.status)

/-- The nominee, the default key when there is none. -/
def pendingAdmin (p : Protocol) : Pubkey := p.config.elim Pubkey.default (·.pendingAdmin)

def nextVaultId (p : Protocol) : Nat := p.config.elim 0 (·.nextVaultId.toNat)

inductive ConfigStep (p : Protocol) (tx : ProtocolTx D) (p' : Protocol) : Prop where
  | update {args c c'} (hix : tx.ix = .configUpdate args) (hc : p.config = some (.current c))
    (hadmin : c.admin = tx.signer.key) (h : c.update args = .ok c')
    (hc' : p'.config = some (.current c'))
  | pause {c} (hix : tx.ix = .configPause) (hc : p.config = some (.current c))
    (hc' : p'.config = some (.current c.pause))
  | accept {c c'} (hix : tx.ix = .adminAccept) (hc : p.config = some (.current c))
    (h : c.acceptAdmin tx.signer.key = .ok c') (hc' : p'.config = some (.current c'))
  | migrate {c} (hix : tx.ix = .configMigrate) (hc : p.config = some (.v1 c))
    (hc' : p'.config = some (.current c.migrate))
  | create {args} (hix : tx.ix = .configInitialize args) (hc : p.config = none)
  | newVault {args verdict m c c' o} (hix : tx.ix = .vaultInitialize args verdict m)
    (hc : p.config = some (.current c)) (h : c.incrementVaultId = .ok c')
    (hc' : p'.config = some (.current c')) (hnew : p.vaults.lookup c.nextVaultId = none)
    (hid : o.custody.world.vault.id = c.nextVaultId)
    (hvaults : p'.vaults = p.vaults.insert c.nextVaultId o)
  | same (hquiet : ∀ args, tx.ix ≠ .configUpdate args) (haccept : tx.ix ≠ .adminAccept)
    (hnew : ∀ args verdict m, tx.ix ≠ .vaultInitialize args verdict m)
    (hc : p'.config = p.config)

/-- An update by the admin that nominates `k`. -/
def Nominates (t : Transition Protocol (ProtocolTx D)) (k : Pubkey) : Prop :=
  t.pre.admin = some t.label.signer.key ∧
    ∃ args, t.label.ix = .configUpdate args ∧ args.pendingAdmin = some k

/-- The id in the vault account a step opens, which is found under the next id of the config. -/
def vaultIssued (t : Transition Protocol (ProtocolTx D)) : Option Nat :=
  match t.label.ix with
  | .vaultInitialize _ _ _ => do
    let config ← t.pre.config
    let o ← t.post.vaults.lookup config.nextVaultId
    pure o.custody.world.vault.id.toNat
  | _ => none

section

variable {p p' p₀ : Protocol} {tx : ProtocolTx D}
  {h : List (Transition Protocol (ProtocolTx D))} {c : Config}

section

variable {a : ConfigAccount} (hc : p.config = some a)

include hc

theorem admin_of : p.admin = some a.admin := by
  unfold admin
  rw [hc]
  rfl

theorem status_of : p.status = some a.status := by
  unfold status
  rw [hc]
  rfl

theorem pendingAdmin_of : p.pendingAdmin = a.pendingAdmin := by
  unfold pendingAdmin
  rw [hc]
  rfl

theorem nextVaultId_of : p.nextVaultId = a.nextVaultId.toNat := by
  unfold nextVaultId
  rw [hc]
  rfl

end

theorem ConfigStep.of_quiet (hq : tx.ix.isQuiet = true) (hc : p'.config = p.config) :
    ConfigStep p tx p' := by
  refine .same ?_ ?_ ?_ hc
  · intro args hix
    rw [hix] at hq
    cases hq
  · intro hix
    rw [hix] at hq
    cases hq
  · intro args verdict m hix
    rw [hix] at hq
    cases hq

theorem loadConfig_eq_ok : p.loadConfig = .ok c ↔ p.config = some (.current c) := by
  unfold loadConfig
  split <;> simp_all

theorem allocate_eq_ok {q : Prop} [Decidable q] {u : Unit} : World.allocate q = .ok u ↔ ¬ q := by
  unfold World.allocate
  split <;> simp_all

theorem genesis_ok {now : I64} {key : Pubkey} {managers : Finset Pubkey} {authority : Signer}
    {args : VaultInitializeArgs} {verdict : Result Unit}
    {m : { m : SplMint // m.amount .escrow = 0 }} {w : World}
    (h : World.genesis now key c managers authority args verdict m = .ok w) :
    c.incrementVaultId = .ok w.config ∧ w.vault.id = c.nextVaultId := by
  simp only [World.genesis, HedgeVault.vaultInitialize, bind_eq_ok, pure_eq_ok] at h
  obtain ⟨⟨c', v⟩, ⟨_, _, _, _, _, _, _, _, _, _, _, _, c₂, hc, e⟩, rfl⟩ := h
  cases e
  exact ⟨hc, rfl⟩

/-- What an accepted opening checked of the accounts it makes, and the vault it opened. -/
structure Opened (D : Deployment) (p : Protocol) (authority : D.Wallet) (now : I64)
    (args : VaultInitializeArgs) (mintExtensions : Result Unit) (mint : Pubkey) (c : Config)
    (w : World) (p' : Protocol) : Prop where
  found : p.config = some (.current c)
  new : p.vaults.lookup c.nextVaultId = none
  mint_ne : mint ≠ D.shareMint c.nextVaultId
  unissued : (p.ledgers (D.shareMint c.nextVaultId)).supply = 0
  unused : ((p.ledgers mint).rename (D.depositSeat c.nextVaultId)).amount .escrow = 0
  genesis : World.genesis now (D.vaultAddress c.nextVaultId) c p.managers authority.toSigner args
    mintExtensions ⟨(p.ledgers mint).rename (D.depositSeat c.nextVaultId), unused⟩ = .ok w
  after : p' = { p with
    config := some (.current w.config)
    vaults := p.vaults.insert c.nextVaultId ⟨mint, newCustody w⟩ }

theorem vaultInitialize_ok {authority : D.Wallet} {now : I64} {args : VaultInitializeArgs}
    {mintExtensions : Result Unit} {mint : Pubkey}
    (h : p.vaultInitialize D authority now args mintExtensions mint = .ok p') :
    ∃ c w, Opened D p authority now args mintExtensions mint c w p' := by
  simp only [Protocol.vaultInitialize, bind_eq_ok, loadConfig_eq_ok, allocate_eq_ok] at h
  obtain ⟨c, hc, _, hnew, _, hmint, h⟩ := h
  obtain ⟨hne, hsupply⟩ := not_or.1 hmint
  split at h
  · next hescrow =>
    simp only [bind_eq_ok, pure_eq_ok] at h
    obtain ⟨w, hw, rfl⟩ := h
    exact ⟨c, w, hc, Option.not_isSome_iff_eq_none.1 hnew, hne, not_not.1 hsupply, hescrow, hw, rfl⟩
  · cases h

theorem Step.configStep (st : p.Step D tx p') : ConfigStep p tx p' := by
  obtain ⟨signer, now, ix⟩ := tx
  unfold Step process at st
  cases ix with
  | configInitialize args =>
    simp only [configInitialize, bind_eq_ok, allocate_eq_ok] at st
    obtain ⟨_, hnone, _⟩ := st
    exact .create rfl (Option.not_isSome_iff_eq_none.1 hnone)
  | configMigrate =>
    simp only [configMigrate] at st
    split at st
    · cases st
    · cases st
    · next c hc =>
      simp only [bind_eq_ok, pure_eq_ok] at st
      obtain ⟨_, _, rfl⟩ := st
      exact .migrate rfl hc rfl
  | configUpdate args =>
    simp only [configUpdate, Config.validateAdmin, bind_eq_ok, pure_eq_ok, loadConfig_eq_ok,
      validate_eq_ok] at st
    obtain ⟨c, hc, _, hadmin, c', h, rfl⟩ := st
    exact .update rfl hc hadmin h rfl
  | configPause =>
    simp only [configPause, bind_eq_ok, pure_eq_ok, loadConfig_eq_ok] at st
    obtain ⟨c, hc, _, _, rfl⟩ := st
    exact .pause rfl hc rfl
  | adminAccept =>
    simp only [adminAccept, bind_eq_ok, pure_eq_ok, loadConfig_eq_ok] at st
    obtain ⟨c, hc, c', h, rfl⟩ := st
    exact .accept rfl hc h rfl
  | configAddManager authority =>
    simp only [configAddManager, bind_eq_ok, pure_eq_ok] at st
    obtain ⟨_, _, _, _, _, _, rfl⟩ := st
    exact .of_quiet rfl rfl
  | configRemoveManager authority =>
    simp only [configRemoveManager, bind_eq_ok, pure_eq_ok] at st
    obtain ⟨_, _, _, _, _, _, rfl⟩ := st
    exact .of_quiet rfl rfl
  | vaultInitialize args verdict m =>
    obtain ⟨c, w, hopened⟩ := vaultInitialize_ok st
    obtain ⟨hinc, hid⟩ := genesis_ok hopened.genesis
    rw [hopened.after]
    exact .newVault rfl hopened.found hinc rfl hopened.new hid rfl
  | vaultClose id =>
    simp only [vaultClose, bind_eq_ok, pure_eq_ok] at st
    obtain ⟨_, _, _, _, rfl⟩ := st
    exact .of_quiet rfl rfl
  | onVault id ix =>
    simp only [onVault, bind_eq_ok, pure_eq_ok] at st
    obtain ⟨_, _, _, _, _, _, _, _, _, _, rfl⟩ := st
    exact .of_quiet rfl rfl
  | tokens mint op =>
    simp only [tokens, bind_eq_ok, pure_eq_ok] at st
    obtain ⟨_, _, _, _, rfl⟩ := st
    exact .of_quiet rfl rfl

/-! ## Single steps -/

theorem ConfigStep.config_isSome (hs : ConfigStep p tx p') (hp : p.config.isSome = true) :
    p'.config.isSome = true := by
  cases hs with
  | create _ hc =>
    rw [hc] at hp
    cases hp
  | same _ _ _ hc => rw [hc]; exact hp
  | update _ _ _ _ hc' => rw [hc']; rfl
  | pause _ _ hc' => rw [hc']; rfl
  | accept _ _ _ hc' => rw [hc']; rfl
  | migrate _ _ hc' => rw [hc']; rfl
  | newVault _ _ _ hc' => rw [hc']; rfl

theorem incrementVaultId_ok {c' : Config} (h : c.incrementVaultId = .ok c') :
    c'.nextVaultId.toNat = c.nextVaultId.toNat + 1 ∧ c' = { c with nextVaultId := c'.nextVaultId } := by
  simp only [Config.incrementVaultId, bind_eq_ok, pure_eq_ok, safeAdd_eq_ok] at h
  obtain ⟨n, hn, rfl⟩ := h
  exact ⟨hn.symm, rfl⟩

/-- The nominee only changes by a nomination or an accept. -/
theorem ConfigStep.pendingAdmin_eq (hs : ConfigStep p tx p') (hp : p.config.isSome = true)
    (hq : tx.renominates = false) : p'.pendingAdmin = p.pendingAdmin := by
  unfold ProtocolTx.renominates at hq
  cases hs with
  | update hix hc hadmin h hc' =>
    rw [hix] at hq
    obtain ⟨_, _, hpending, _⟩ := Config.update_ok h
    rw [Option.not_isSome_iff_eq_none.1 (Bool.eq_false_iff.1 hq)] at hpending
    rw [pendingAdmin_of hc, pendingAdmin_of hc']
    exact hpending
  | pause _ hc hc' => rw [pendingAdmin_of hc, pendingAdmin_of hc']; rfl
  | accept hix =>
    rw [hix] at hq
    cases hq
  | migrate _ hc hc' => rw [pendingAdmin_of hc, pendingAdmin_of hc']; rfl
  | create _ hc =>
    rw [hc] at hp
    cases hp
  | newVault _ hc h hc' =>
    obtain ⟨_, e⟩ := incrementVaultId_ok h
    rw [pendingAdmin_of hc, pendingAdmin_of hc', e]
    rfl
  | same _ _ _ hc =>
    unfold pendingAdmin
    rw [hc]

/-- The admin only changes by an accept, to the nominee who signs it. -/
theorem ConfigStep.admin_eq (hs : ConfigStep p tx p') (hp : p.config.isSome = true)
    (hne : p'.admin ≠ p.admin) : tx.ix = .adminAccept ∧ p'.admin = some tx.signer.key ∧
      p.pendingAdmin = tx.signer.key := by
  cases hs with
  | accept hix hc h hc' =>
    obtain ⟨hk, rfl⟩ := Config.acceptAdmin_ok h
    refine ⟨hix, ?_, ?_⟩
    · rw [admin_of hc']
      rfl
    · rw [pendingAdmin_of hc]
      exact hk
  | update _ hc _ h hc' =>
    obtain ⟨ha, _⟩ := Config.update_ok h
    refine absurd ?_ hne
    rw [admin_of hc, admin_of hc']
    exact congrArg some ha
  | pause _ hc hc' =>
    refine absurd ?_ hne
    rw [admin_of hc, admin_of hc']
    rfl
  | migrate _ hc hc' =>
    refine absurd ?_ hne
    rw [admin_of hc, admin_of hc']
    rfl
  | create _ hc =>
    rw [hc] at hp
    cases hp
  | newVault _ hc h hc' =>
    obtain ⟨_, e⟩ := incrementVaultId_ok h
    refine absurd ?_ hne
    rw [admin_of hc, admin_of hc', e]
    rfl
  | same _ _ _ hc =>
    refine absurd ?_ hne
    unfold admin
    rw [hc]

/-- A pause ends in an update that the admin signed. -/
theorem ConfigStep.unpause (hs : ConfigStep p tx p') (hpaused : p.status = some .paused)
    (hne : p'.status ≠ some .paused) :
    (∃ args, tx.ix = .configUpdate args) ∧ p.admin = some tx.signer.key := by
  cases hs with
  | update hix hc hadmin _ _ =>
    refine ⟨⟨_, hix⟩, ?_⟩
    rw [admin_of hc]
    exact congrArg some hadmin
  | pause _ hc hc' =>
    refine absurd ?_ hne
    rw [status_of hc']; rfl
  | accept _ hc h hc' =>
    obtain ⟨_, rfl⟩ := Config.acceptAdmin_ok h
    refine absurd (Eq.trans ?_ hpaused) hne
    rw [status_of hc, status_of hc']
    rfl
  | migrate _ hc hc' =>
    refine absurd (Eq.trans ?_ hpaused) hne
    rw [status_of hc, status_of hc']
    rfl
  | create _ hc =>
    unfold status at hpaused
    rw [hc] at hpaused
    cases hpaused
  | newVault _ hc h hc' =>
    obtain ⟨_, e⟩ := incrementVaultId_ok h
    refine absurd (Eq.trans ?_ hpaused) hne
    rw [status_of hc, status_of hc', e]
    rfl
  | same _ _ _ hc =>
    refine absurd (Eq.trans ?_ hpaused) hne
    unfold status
    rw [hc]

/-- A nominee left by a nomination or an accept was nominated there, by the admin. -/
theorem ConfigStep.nominates (hs : ConfigStep p tx p') (hren : tx.renominates = true)
    (hne : p'.pendingAdmin ≠ Pubkey.default) : Nominates ⟨p, tx, p'⟩ p'.pendingAdmin := by
  unfold ProtocolTx.renominates at hren
  cases hs with
  | @update args c c' hix hc hadmin h hc' =>
    rw [hix] at hren
    obtain ⟨k, hk⟩ := Option.isSome_iff_exists.1 hren
    obtain ⟨_, _, hpending, _⟩ := Config.update_ok h
    have hk' : p'.pendingAdmin = k := by
      rw [hk] at hpending
      rw [pendingAdmin_of hc']
      exact hpending
    refine ⟨?_, args, hix, by rw [hk', hk]⟩
    rw [admin_of hc]
    exact congrArg some hadmin
  | accept _ _ h hc' =>
    obtain ⟨_, rfl⟩ := Config.acceptAdmin_ok h
    refine absurd ?_ hne
    rw [pendingAdmin_of hc']; rfl
  | pause hix => rw [hix] at hren; cases hren
  | migrate hix => rw [hix] at hren; cases hren
  | create hix => rw [hix] at hren; cases hren
  | newVault hix => rw [hix] at hren; cases hren
  | same hquiet haccept =>
    split at hren
    · next hix => exact absurd hix (hquiet _)
    · next hix => exact absurd hix haccept
    · cases hren

theorem ConfigStep.nextVaultId_eq (hs : ConfigStep p tx p') (hp : p.config.isSome = true)
    (hnew : ∀ args verdict m, tx.ix ≠ .vaultInitialize args verdict m) :
    p'.nextVaultId = p.nextVaultId := by
  cases hs with
  | newVault hix => exact absurd hix (hnew _ _ _)
  | update _ hc _ h hc' =>
    obtain ⟨_, hid, _⟩ := Config.update_ok h
    rw [nextVaultId_of hc, nextVaultId_of hc']
    exact congrArg BitVec.toNat hid
  | pause _ hc hc' => rw [nextVaultId_of hc, nextVaultId_of hc']; rfl
  | accept _ hc h hc' =>
    obtain ⟨_, rfl⟩ := Config.acceptAdmin_ok h
    rw [nextVaultId_of hc, nextVaultId_of hc']
    rfl
  | migrate _ hc hc' => rw [nextVaultId_of hc, nextVaultId_of hc']; rfl
  | create _ hc =>
    rw [hc] at hp
    cases hp
  | same _ _ _ hc =>
    unfold nextVaultId
    rw [hc]

/-- A new vault is stored under its id, which is the next one of the config. -/
structure NewVault (t : Transition Protocol (ProtocolTx D)) : Prop where
  stored : ∃ id o, t.pre.vaults.lookup id = none ∧ t.post.vaults = t.pre.vaults.insert id o ∧
    o.custody.world.vault.id = id ∧ vaultIssued t = some id.toNat ∧ id.toNat = t.pre.nextVaultId
  next : t.post.nextVaultId = t.pre.nextVaultId + 1

theorem ConfigStep.newVault_ok {args : VaultInitializeArgs} {verdict : Result Unit}
    {m : Pubkey} (hs : ConfigStep p tx p')
    (hix : tx.ix = .vaultInitialize args verdict m) : NewVault ⟨p, tx, p'⟩ := by
  cases hs with
  | @newVault args verdict m c c' o hix hc h hc' hnew hid hvaults =>
    obtain ⟨hinc, _⟩ := incrementVaultId_ok h
    have hnext : p.nextVaultId = c.nextVaultId.toNat := nextVaultId_of hc
    refine ⟨⟨c.nextVaultId, o, hnew, hvaults, hid, ?_, hnext.symm⟩, ?_⟩
    · have hfound : p'.vaults.lookup c.nextVaultId = some o := by
        rw [hvaults, Finmap.lookup_insert]
      unfold vaultIssued
      simp only [hix, hc]
      show ((p'.vaults.lookup c.nextVaultId).bind fun o =>
        some o.custody.world.vault.id.toNat) = _
      rw [hfound, Option.bind_some, hid]
    · show p'.nextVaultId = p.nextVaultId + 1
      rw [hnext, ← hinc]
      rw [nextVaultId_of hc']; rfl
  | update hix' => exact absurd (hix.symm.trans hix') nofun
  | pause hix' => exact absurd (hix.symm.trans hix') nofun
  | accept hix' => exact absurd (hix.symm.trans hix') nofun
  | migrate hix' => exact absurd (hix.symm.trans hix') nofun
  | create hix' => exact absurd (hix.symm.trans hix') nofun
  | same _ _ hno => exact absurd hix (hno _ _ _)

theorem ConfigStep.serial (hs : ConfigStep p tx p') (hp : p.config.isSome = true) :
    Serial nextVaultId vaultIssued ⟨p, tx, p'⟩ := by
  by_cases hnew : ∃ args verdict m, tx.ix = .vaultInitialize args verdict m
  · obtain ⟨args, verdict, m, hix⟩ := hnew
    obtain ⟨⟨id, w, _, _, _, hissued, hid⟩, hnext⟩ := hs.newVault_ok hix
    unfold Serial
    rw [hissued]
    exact ⟨hid, hnext.trans (congrArg (· + 1) hid.symm)⟩
  · have hnone : vaultIssued ⟨p, tx, p'⟩ = none := by
      unfold vaultIssued
      split
      · next hix => exact absurd ⟨_, _, _, hix⟩ hnew
      · rfl
    unfold Serial
    rw [hnone]
    exact hs.nextVaultId_eq hp fun args verdict m hix => hnew ⟨args, verdict, m, hix⟩

/-! ## Runs -/

theorem Initialised.config_isSome (h0 : p₀.Initialised) : p₀.config.isSome = true := by
  rcases h0 with ⟨_, _, hc⟩ | ⟨_, hc⟩
  · rw [hc]; rfl
  · rw [hc]; rfl

theorem Initialised.pendingAdmin_eq (h0 : p₀.Initialised) : p₀.pendingAdmin = Pubkey.default := by
  rcases h0 with ⟨_, _, hc⟩ | ⟨_, hc⟩
  · rw [pendingAdmin_of hc]
    rfl
  · rw [pendingAdmin_of hc]
    rfl

theorem run_config_isSome (h0 : p₀.Initialised) (hr : Run (Step D) p₀ h p) :
    p.config.isSome = true :=
  hr.inv (I := fun p => p.config.isSome = true) h0.config_isSome fun _ _ _ hp st =>
    (Step.configStep st).config_isSome hp

/-- Every executed step is a `ConfigStep` from a config that exists. -/
theorem run_configStep (h0 : p₀.Initialised) (hr : Run (Step D) p₀ h p)
    {t : Transition Protocol (ProtocolTx D)} (ht : t ∈ h) :
    t.pre.config.isSome = true ∧ ConfigStep t.pre t.label t.post := by
  obtain ⟨newer, older, rfl⟩ := List.append_of_mem ht
  obtain ⟨hpre, st, _⟩ := hr.split
  exact ⟨run_config_isSome h0 hpre, Step.configStep st⟩

/-- A nominee was nominated by the admin of the time, and by no later transaction. -/
theorem run_nominated (h0 : p₀.Initialised) (hr : Run (Step D) p₀ h p)
    (hne : p.pendingAdmin ≠ Pubkey.default) :
    ∃ later u earlier, h = later ++ u :: earlier ∧ Nominates u p.pendingAdmin ∧
      ∀ v ∈ later, v.label.renominates = false := by
  have hlast := hr.last_write (f := pendingAdmin) (p := fun t => t.label.renominates)
    fun t ht hq => by
      obtain ⟨hp, hs⟩ := run_configStep h0 hr ht
      exact hs.pendingAdmin_eq hp hq
  cases hfind : h.find? fun t => t.label.renominates with
  | none =>
    rw [hfind] at hlast
    exact absurd (hlast.trans h0.pendingAdmin_eq) hne
  | some u =>
    rw [hfind] at hlast
    have hu : p.pendingAdmin = u.post.pendingAdmin := hlast
    obtain ⟨hren, later, earlier, rfl, hlater⟩ := List.find?_eq_some_iff_append.1 hfind
    refine ⟨later, u, earlier, rfl, ?_, ?_⟩
    · obtain ⟨_, hs⟩ := run_configStep h0 hr (List.mem_append_right later List.mem_cons_self)
      rw [hu] at hne ⊢
      exact hs.nominates hren hne
    · intro v hv
      have hno := hlater v hv
      rwa [Bool.not_eq_true'] at hno

/-- The admin changes only in an accept by the nominee of the latest nomination, which the
admin of that time signed and nothing replaced or consumed since. -/
theorem run_admin (h0 : p₀.Initialised) {newer older : List (Transition Protocol (ProtocolTx D))}
    {t : Transition Protocol (ProtocolTx D)} (hr : Run (Step D) p₀ (newer ++ t :: older) p)
    (hne : t.post.admin ≠ t.pre.admin) :
    t.label.ix = .adminAccept ∧ t.post.admin = some t.label.signer.key ∧
    ∃ later u earlier, older = later ++ u :: earlier ∧ Nominates u t.label.signer.key ∧
      ∀ v ∈ later, v.label.renominates = false := by
  obtain ⟨hpre, st, _⟩ := hr.split
  obtain ⟨hix, hadmin, hpending⟩ :=
    (Step.configStep st).admin_eq (run_config_isSome h0 hpre) hne
  refine ⟨hix, hadmin, ?_⟩
  rw [← hpending]
  apply run_nominated h0 hpre
  rw [hpending]
  exact t.label.signer.ne_default

/-- Without the admin's signature a pause stays. -/
theorem run_paused (hr : Run (Step D) p₀ h p) (hpaused : p₀.status = some .paused)
    (hno : ∀ t ∈ h, t.pre.admin ≠ some t.label.signer.key) : p.status = some .paused := by
  induction hr with
  | nil => exact hpaused
  | snoc _ st ih =>
    have hold := ih fun t ht => hno t (List.mem_cons_of_mem _ ht)
    by_contra hne
    exact hno _ List.mem_cons_self ((Step.configStep st).unpause hold hne).2

/-- Authority over the config in every run from an initialised one, whoever signs. -/
theorem config_authority (h0 : p₀.Initialised) (hr : Run (Step D) p₀ h p) :
    (∀ newer (t : Transition Protocol (ProtocolTx D)) older, h = newer ++ t :: older →
      t.post.admin ≠ t.pre.admin →
      t.label.ix = .adminAccept ∧ t.post.admin = some t.label.signer.key ∧
      ∃ later u earlier, older = later ++ u :: earlier ∧ Nominates u t.label.signer.key ∧
        ∀ v ∈ later, v.label.renominates = false) ∧
    (∀ t ∈ h, t.pre.status = some .paused → t.post.status ≠ some .paused →
      (∃ args, t.label.ix = .configUpdate args) ∧ t.pre.admin = some t.label.signer.key) ∧
    (p₀.status = some .paused → (∀ t ∈ h, t.pre.admin ≠ some t.label.signer.key) →
      p.status = some .paused) ∧
    (∀ t ∈ h, (∃ args verdict m, t.label.ix = .vaultInitialize args verdict m) → NewVault t) ∧
    (h.filterMap vaultIssued).Nodup ∧ ∀ n ∈ h.filterMap vaultIssued, p₀.nextVaultId ≤ n := by
  have hserial : ∀ t ∈ h, Serial nextVaultId vaultIssued t := by
    intro t ht
    obtain ⟨hp, hs⟩ := run_configStep h0 hr ht
    exact hs.serial hp
  refine ⟨?_, ?_, run_paused hr, ?_, hr.issued_nodup hserial, hr.le_issued hserial⟩
  · intro newer t older he hne
    subst he
    exact run_admin h0 hr hne
  · intro t ht hpaused hne
    exact (run_configStep h0 hr ht).2.unpause hpaused hne
  · intro t ht ⟨args, verdict, m, hix⟩
    exact (run_configStep h0 hr ht).2.newVault_ok hix

end

/-! ## A sample protocol -/

/-- The addresses of a vault, four to an id. -/
def sampleAddress (a : VaultPda) : Pubkey :=
  match a with
  | .vault id => BitVec.ofNat 256 (1000 + 4 * id.toNat)
  | .depositEscrow id => BitVec.ofNat 256 (1001 + 4 * id.toNat)
  | .shareEscrow id => BitVec.ofNat 256 (1002 + 4 * id.toNat)
  | .shareMint id => BitVec.ofNat 256 (1003 + 4 * id.toNat)

theorem sampleAddress_toNat (a : VaultPda) : (sampleAddress a).toNat =
    match a with
    | .vault id => 1000 + 4 * id.toNat
    | .depositEscrow id => 1001 + 4 * id.toNat
    | .shareEscrow id => 1002 + 4 * id.toNat
    | .shareMint id => 1003 + 4 * id.toNat := by
  cases a with
  | _ id =>
    have hlt := id.isLt
    simp only [sampleAddress, BitVec.toNat_ofNat]
    omega

/-- The vault 0 is the authority of one account more, at the address 95. -/
def sampleDeployment : Deployment where
  address := sampleAddress
  address_inj a b h := by
    have hnat : (sampleAddress a).toNat = (sampleAddress b).toNat := congrArg BitVec.toNat h
    rw [sampleAddress_toNat, sampleAddress_toNat] at hnat
    cases a <;> cases b <;> simp only [VaultPda.vault.injEq, VaultPda.depositEscrow.injEq,
      VaultPda.shareEscrow.injEq, VaultPda.shareMint.injEq, reduceCtorEq] <;> bv_omega
  custodian k :=
    if k = 95 then some 0
    else if 1000 ≤ k.toNat ∧ k.toNat < 1000 + 2 ^ 66 then
      some (BitVec.ofNat 64 ((k.toNat - 1000) / 4))
    else none
  custodian_address a := by
    have hk := sampleAddress_toNat a
    have hne : sampleAddress a ≠ 95 := by
      intro he
      rw [he] at hk
      cases a <;> simp at hk <;> omega
    have hid : 1000 + 4 * a.id.toNat ≤ (sampleAddress a).toNat ∧
        (sampleAddress a).toNat ≤ 1003 + 4 * a.id.toNat := by
      rw [hk]
      cases a <;> simp [VaultPda.id]
    have hlt := a.id.isLt
    rw [if_neg hne, if_pos (by omega)]
    have hquot : ((sampleAddress a).toNat - 1000) / 4 = a.id.toNat := by omega
    rw [hquot, BitVec.ofNat_toNat, BitVec.setWidth_eq]
  mintProgram _ := .token
  pair _ := (60, 70)
  canonicalMint := 75

def wallet (s : Signer) (h : sampleDeployment.custodian s.key = none := by decide) :
    sampleDeployment.Wallet := ⟨s, h⟩

/-! The parties of the samples. -/

def adminWallet : sampleDeployment.Wallet := wallet World.admin
def updaterWallet : sampleDeployment.Wallet := wallet World.updater
def managerWallet : sampleDeployment.Wallet := wallet World.manager
def aliceWallet : sampleDeployment.Wallet := wallet World.alice
def bobWallet : sampleDeployment.Wallet := wallet World.bob

/-- A protocol whose config was just initialised by the admin. -/
def sample : Protocol where
  config := some (.current (Config.new World.admin.key {
    navUpdater := World.updater.key
    treasuryAuthority := World.admin.key
    guardian := World.admin.key
    platformPerformanceFeeBps := 0
    platformManagementFeeBps := 0
    maxNavDeviationBps := 10000
    maxEpochOutflowBps := 10000
    maxSlippageBps := 100 }))
  managers := ∅
  ledgers _ := Mint.empty
  vaults := ∅

def openVault (depositMint : Pubkey) : ProtocolInstruction :=
  .vaultInitialize {
    depositCap := 1000
    minDeposit := 1
    minWithdrawalShares := 1
    performanceFeeBps := 0
    managementFeeBps := 0 } (.ok ()) depositMint

/-- The admin ends the pause and hands over to bob, and a manager opens a vault, closes it and
opens another. -/
def sampleTxs : List (ProtocolTx sampleDeployment) := [
  ⟨adminWallet, 0, .configUpdate ⟨some World.bob.key, none, none, none, none, none, none,
    none, none, some .normal⟩⟩,
  ⟨bobWallet, 0, .adminAccept⟩,
  ⟨bobWallet, 0, .configAddManager World.manager.key⟩,
  ⟨managerWallet, 0, openVault 60⟩,
  ⟨managerWallet, 0, .vaultClose 0⟩,
  ⟨managerWallet, 0, openVault 60⟩]

def sampleHistory : List (Transition Protocol (ProtocolTx sampleDeployment)) :=
  history (process sampleDeployment) sample sampleTxs

theorem config_authority_sample : sampleHistory.filterMap vaultIssued = [1, 0] ∧
    (sampleHistory.filterMap vaultIssued).Nodup ∧
    ∀ t ∈ sampleHistory, t.pre.status = some .paused → t.post.status ≠ some .paused →
      (∃ args, t.label.ix = .configUpdate args) ∧ t.pre.admin = some t.label.signer.key := by
  have hr : Run (Step sampleDeployment) sample sampleHistory
      (final (process sampleDeployment) sample sampleTxs) := run_final (by rfl)
  obtain ⟨_, hstatus, _, _, hnodup, _⟩ := config_authority (.inl ⟨_, _, rfl⟩) hr
  exact ⟨by rfl, hnodup, hstatus⟩

end Protocol

end HedgeVault
