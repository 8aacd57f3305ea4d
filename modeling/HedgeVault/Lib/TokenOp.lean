import HedgeVault.Lib.Token
import Mathlib.Data.List.Basic
import Mathlib.Logic.Equiv.Basic
import Mathlib.Logic.Relation

/-!
# Operations on a token, and renamed accounts

`TokenOp κ` is an operation on a `Mint cap κ` as data and `Mint.run` executes it. `Mint.rename σ`
is the token under other names of its accounts; the operations go along with the names
(`run_rename`), so what one party does under its own names is the same operations under those of
another. An account loses something only as the source of an operation (`Via.le`). `Moves` are
operations on many mints.
-/

namespace HedgeVault.Lib

open Function Finset

inductive TokenOp (κ : Type*) where
  | transfer (src dst : κ) (n : Nat)
  | mintTo (dst : κ) (n : Nat)
  | burn (src : κ) (n : Nat)

namespace TokenOp

variable {κ μ : Type*}

/-- The account that pays. -/
def source : TokenOp κ → Option κ
  | transfer src _ _ => some src
  | mintTo _ _ => none
  | burn src _ => some src

/-- The account that is paid. -/
def dest : TokenOp κ → Option κ
  | transfer _ dst _ => some dst
  | mintTo dst _ => some dst
  | burn _ _ => none

def amount : TokenOp κ → Nat
  | transfer _ _ n => n
  | mintTo _ n => n
  | burn _ n => n

def isMintTo : TokenOp κ → Bool
  | mintTo _ _ => true
  | _ => false

def isTransfer : TokenOp κ → Bool
  | transfer _ _ _ => true
  | _ => false

def map (f : κ → μ) : TokenOp κ → TokenOp μ
  | transfer src dst n => transfer (f src) (f dst) n
  | mintTo dst n => mintTo (f dst) n
  | burn src n => burn (f src) n

@[simp] theorem source_map (f : κ → μ) (op : TokenOp κ) : (op.map f).source = op.source.map f := by
  cases op <;> rfl

theorem map_involutive {σ : κ → κ} (hσ : ∀ k, σ (σ k) = k) (op : TokenOp κ) :
    (op.map σ).map σ = op := by
  cases op <;> simp only [map, hσ]

@[simp] theorem isTransfer_map (f : κ → μ) (op : TokenOp κ) :
    (op.map f).isTransfer = op.isTransfer := by
  cases op <;> rfl

@[simp] theorem isMintTo_map (f : κ → μ) (op : TokenOp κ) : (op.map f).isMintTo = op.isMintTo := by
  cases op <;> rfl

theorem isMintTo_of_isTransfer {op : TokenOp κ} (h : op.isTransfer = true) :
    op.isMintTo = false := by
  cases op with
  | transfer => rfl
  | mintTo => cases h
  | burn => cases h

end TokenOp

namespace Mint

variable {cap : Nat} {κ : Type*}

/-! ## Renamed accounts -/

/-- The token where `k` has what `σ k` had. -/
def rename (m : Mint cap κ) (σ : Equiv.Perm κ) : Mint cap κ where
  supply := m.supply
  amount := m.amount ∘ σ
  supply_le := m.supply_le
  backed F := by
    have h := m.backed (F.map σ.toEmbedding)
    rwa [sum_map] at h

@[simp] theorem rename_amount (m : Mint cap κ) (σ : Equiv.Perm κ) (k : κ) :
    (m.rename σ).amount k = m.amount (σ k) := rfl

theorem rename_rename {σ : Equiv.Perm κ} (hσ : ∀ k, σ (σ k) = k) (m : Mint cap κ) :
    (m.rename σ).rename σ = m := by
  ext k
  · rfl
  · exact congrArg m.amount (hσ k)

/-- A token nobody can have anything of. -/
theorem eq_empty {m : Mint cap κ} (h : m.supply = 0) : m = Mint.empty := by
  ext k
  · exact h
  · exact Nat.le_zero.1 (h ▸ m.amount_le k)

variable [DecidableEq κ]

/-! ## Operations -/

def run (m : Mint cap κ) : TokenOp κ → Except TokenError (Mint cap κ)
  | .transfer src dst n => m.transfer src dst n
  | .mintTo dst n => m.mintTo dst n
  | .burn src n => m.burn src n

def runAll (m : Mint cap κ) (ops : List (TokenOp κ)) : Except TokenError (Mint cap κ) :=
  ops.foldlM run m

variable {m m' m₁ : Mint cap κ} {op : TokenOp κ} {ops ops' : List (TokenOp κ)} {k : κ}

theorem runAll_nil : m.runAll [] = .ok m' ↔ m = m' := by
  constructor
  · intro h
    cases h
    rfl
  · rintro rfl
    rfl

theorem runAll_cons :
    m.runAll (op :: ops) = .ok m' ↔ ∃ m₁, m.run op = .ok m₁ ∧ m₁.runAll ops = .ok m' := by
  unfold runAll
  rw [List.foldlM_cons]
  cases m.run op with
  | error => exact ⟨nofun, fun ⟨_, hno, _⟩ => by cases hno⟩
  | ok m₁ => exact ⟨fun h => ⟨m₁, rfl, h⟩, fun ⟨_, hm, h⟩ => by cases hm; exact h⟩

theorem runAll_single : m.runAll [op] = .ok m' ↔ m.run op = .ok m' := by
  rw [runAll_cons]
  constructor
  · rintro ⟨m₁, h, hnil⟩
    rw [← runAll_nil.1 hnil]
    exact h
  · intro h
    exact ⟨m', h, runAll_nil.2 rfl⟩

theorem supply_le_run (h : m.run op = .ok m') (hop : op.isMintTo = false) :
    m'.supply ≤ m.supply := by
  cases op with
  | transfer src dst n => exact (transfer_supply h).le
  | mintTo => cases hop
  | burn src n =>
    obtain ⟨_, hsupply, _⟩ := burn_ok h
    omega

theorem runAll_append (h : m.runAll ops = .ok m₁) (h' : m₁.runAll ops' = .ok m') :
    m.runAll (ops ++ ops') = .ok m' := by
  induction ops generalizing m with
  | nil =>
    rw [runAll_nil.1 h]
    exact h'
  | cons op ops ih =>
    obtain ⟨m₂, hop, hrest⟩ := runAll_cons.1 h
    exact runAll_cons.2 ⟨m₂, hop, ih hrest⟩

theorem le_run (h : m.run op = .ok m') (hsource : op.source ≠ some k) :
    m.amount k ≤ m'.amount k := by
  cases op with
  | transfer src dst n => exact le_transfer h fun hk => hsource (congrArg some hk.symm)
  | mintTo dst n => exact le_mintTo h k
  | burn src n => exact le_burn h fun hk => hsource (congrArg some hk.symm)

/-- What is neither its source nor its destination an operation leaves alone. -/
theorem run_other (h : m.run op = .ok m') (hsource : op.source ≠ some k)
    (hdest : op.dest ≠ some k) : m'.amount k = m.amount k := by
  cases op with
  | transfer src dst n =>
    exact transfer_other h (fun hk => hsource (congrArg some hk.symm))
      fun hk => hdest (congrArg some hk.symm)
  | mintTo dst n => exact mintTo_other h fun hk => hdest (congrArg some hk.symm)
  | burn src n =>
    obtain ⟨_, _, hamount⟩ := burn_ok h
    rw [hamount]
    exact update_of_ne (fun hk => hsource (congrArg some hk.symm)) _ _

/-- Who is paid by somebody else gets the amount. -/
theorem run_dest (h : m.run op = .ok m') (hsource : op.source ≠ some k) (hdest : op.dest = some k) :
    m'.amount k = m.amount k + op.amount := by
  cases op with
  | transfer src dst n =>
    cases hdest
    obtain ⟨_, _, _, hto, _⟩ := transfer_ok (fun hk => hsource (congrArg some hk)) h
    exact hto
  | mintTo dst n =>
    cases hdest
    obtain ⟨_, _, hamount⟩ := mintTo_ok h
    rw [hamount, update_self]
    rfl
  | burn => cases hdest

theorem le_runAll (h : m.runAll ops = .ok m') (hsource : ∀ op ∈ ops, op.source ≠ some k) :
    m.amount k ≤ m'.amount k := by
  induction ops generalizing m with
  | nil => rw [runAll_nil.1 h]
  | cons op ops ih =>
    obtain ⟨m₁, hop, hrest⟩ := runAll_cons.1 h
    have hfirst := le_run hop (hsource op List.mem_cons_self)
    have hothers := ih hrest fun o ho => hsource o (List.mem_cons_of_mem _ ho)
    omega

/-! The operations go along with the names. -/

theorem update_rename (f : κ → Nat) (σ : Equiv.Perm κ) (k : κ) (n : Nat) :
    update f (σ k) n ∘ σ = update (f ∘ σ) k n :=
  update_comp_eq_of_injective f σ.injective k n

theorem run_rename {σ : Equiv.Perm κ} (h : m.run (op.map σ) = .ok m') :
    (m.rename σ).run op = .ok (m'.rename σ) := by
  cases op with
  | transfer src dst n =>
    change m.transfer (σ src) (σ dst) n = .ok m' at h
    change (m.rename σ).transfer src dst n = .ok (m'.rename σ)
    unfold transfer at h ⊢
    split at h
    · next hle =>
      cases h
      rw [dif_pos (show n ≤ (m.rename σ).amount src from hle)]
      have hdebited : update (m.rename σ).amount src ((m.rename σ).amount src - n) =
          update m.amount (σ src) (m.amount (σ src) - n) ∘ σ := (update_rename _ _ _ _).symm
      refine congrArg Except.ok (Mint.ext rfl ?_)
      dsimp only
      rw [hdebited]
      exact (update_rename _ _ _ _).symm
    · cases h
  | mintTo dst n =>
    change m.mintTo (σ dst) n = .ok m' at h
    change (m.rename σ).mintTo dst n = .ok (m'.rename σ)
    unfold mintTo at h ⊢
    split at h
    · next hle =>
      cases h
      rw [dif_pos (show (m.rename σ).supply + n ≤ cap from hle)]
      exact congrArg Except.ok (Mint.ext rfl (update_rename _ _ _ _).symm)
    · cases h
  | burn src n =>
    change m.burn (σ src) n = .ok m' at h
    change (m.rename σ).burn src n = .ok (m'.rename σ)
    unfold burn at h ⊢
    split at h
    · next hle =>
      cases h
      rw [dif_pos (show n ≤ (m.rename σ).amount src from hle)]
      exact congrArg Except.ok (Mint.ext rfl (update_rename _ _ _ _).symm)
    · cases h

theorem runAll_rename {σ : Equiv.Perm κ} (h : m.runAll (ops.map (·.map σ)) = .ok m') :
    (m.rename σ).runAll ops = .ok (m'.rename σ) := by
  induction ops generalizing m with
  | nil =>
    rw [runAll_nil.1 h]
    rfl
  | cons op ops ih =>
    obtain ⟨m₁, hop, hrest⟩ := runAll_cons.1 h
    exact runAll_cons.2 ⟨_, run_rename hop, ih hrest⟩

/-! ## Operations of a kind -/

/-- `m'` is `m` after operations that are all as `P` says. -/
def Via (P : TokenOp κ → Prop) (m m' : Mint cap κ) : Prop :=
  ∃ ops, m.runAll ops = .ok m' ∧ ∀ op ∈ ops, P op

namespace Via

variable {P Q : TokenOp κ → Prop}

theorem refl : Via P m m := ⟨[], runAll_nil.2 rfl, nofun⟩

theorem single (h : m.run op = .ok m') (hop : P op) : Via P m m' := by
  refine ⟨[op], runAll_single.2 h, ?_⟩
  intro o ho
  rw [List.mem_singleton.1 ho]
  exact hop

theorem trans (h : Via P m m₁) (h' : Via P m₁ m') : Via P m m' := by
  obtain ⟨ops, hrun, hops⟩ := h
  obtain ⟨ops', hrun', hops'⟩ := h'
  refine ⟨ops ++ ops', runAll_append hrun hrun', ?_⟩
  intro op hop
  rcases List.mem_append.1 hop with hop | hop
  · exact hops op hop
  · exact hops' op hop

theorem mono (h : Via P m m') (himp : ∀ op, P op → Q op) : Via Q m m' := by
  obtain ⟨ops, hrun, hops⟩ := h
  exact ⟨ops, hrun, fun op hop => himp op (hops op hop)⟩

/-- What cannot be its source an account does not pay. -/
theorem le (h : Via P m m') (hsource : ∀ op, P op → op.source ≠ some k) :
    m.amount k ≤ m'.amount k := by
  obtain ⟨ops, hrun, hops⟩ := h
  exact le_runAll hrun fun op hop => hsource op (hops op hop)

/-- What takes no part in any of them is left alone. -/
theorem amount_eq (h : Via P m m') (hapart : ∀ op, P op → op.source ≠ some k ∧ op.dest ≠ some k) :
    m'.amount k = m.amount k := by
  obtain ⟨ops, hrun, hops⟩ := h
  induction ops generalizing m with
  | nil => rw [runAll_nil.1 hrun]
  | cons op ops ih =>
    obtain ⟨m₁, hop, hrest⟩ := runAll_cons.1 hrun
    obtain ⟨hsource, hdest⟩ := hapart op (hops op List.mem_cons_self)
    rw [ih hrest fun o ho => hops o (List.mem_cons_of_mem _ ho), run_other hop hsource hdest]

theorem supply_le (h : Via P m m') (hmint : ∀ op, P op → op.isMintTo = false) :
    m'.supply ≤ m.supply := by
  obtain ⟨ops, hrun, hops⟩ := h
  induction ops generalizing m with
  | nil => rw [runAll_nil.1 hrun]
  | cons op ops ih =>
    obtain ⟨m₁, hop, hrest⟩ := runAll_cons.1 hrun
    have hfirst := supply_le_run hop (hmint op (hops op List.mem_cons_self))
    have hothers := ih hrest fun o ho => hops o (List.mem_cons_of_mem _ ho)
    omega

/-- The same under other names, which go both ways. -/
theorem rename {σ : Equiv.Perm κ} (hσ : ∀ k, σ (σ k) = k) (h : Via P m m') :
    Via (fun op => P (op.map σ)) (m.rename σ) (m'.rename σ) := by
  obtain ⟨ops, hrun, hops⟩ := h
  have hback : (ops.map (·.map σ)).map (·.map σ) = ops := by
    rw [List.map_map]
    exact List.map_id'' (TokenOp.map_involutive hσ) ops
  refine ⟨ops.map (·.map σ), runAll_rename (by rwa [hback]), ?_⟩
  intro op hop
  obtain ⟨o, ho, rfl⟩ := List.mem_map.1 hop
  show P _
  rw [TokenOp.map_involutive hσ]
  exact hops o ho

end Via

/-! ## Many mints -/

section

variable {ι : Type*} [DecidableEq ι] {P : ι → TokenOp κ → Prop} {L L' L₁ : ι → Mint cap κ} {i : ι}

/-- One operation on one of the mints. -/
def Move (P : ι → TokenOp κ → Prop) (L L' : ι → Mint cap κ) : Prop :=
  ∃ i op m, (L i).run op = .ok m ∧ P i op ∧ L' = update L i m

/-- Operations on the mints, each as `P` says. -/
def Moves (P : ι → TokenOp κ → Prop) : (ι → Mint cap κ) → (ι → Mint cap κ) → Prop :=
  Relation.ReflTransGen (Move P)

theorem Moves.refl : Moves P L L := Relation.ReflTransGen.refl

theorem Moves.trans (h : Moves P L L₁) (h' : Moves P L₁ L') : Moves P L L' :=
  Relation.ReflTransGen.trans h h'

theorem Moves.single {op : TokenOp κ} (h : (L i).run op = .ok m) (hop : P i op) :
    Moves P L (update L i m) := Relation.ReflTransGen.single ⟨i, op, m, h, hop, rfl⟩

/-- What became of one of them. -/
theorem Moves.via (h : Moves P L L') (i : ι) : (L i).Via (P i) (L' i) := by
  induction h with
  | refl => exact .refl
  | @tail L₁ L' _ hmove ih =>
    obtain ⟨j, op, m, hrun, hop, rfl⟩ := hmove
    by_cases hij : i = j
    · subst hij
      rw [update_self]
      exact ih.trans (.single hrun hop)
    · rw [update_of_ne hij]
      exact ih

theorem Moves.of_via {Q : TokenOp κ → Prop} (h : (L i).Via Q m) (hP : ∀ op, Q op → P i op) :
    Moves P L (update L i m) := by
  obtain ⟨ops, hrun, hops⟩ := h
  induction ops generalizing L with
  | nil =>
    rw [← runAll_nil.1 hrun, update_eq_self]
    exact .refl
  | cons op ops ih =>
    obtain ⟨m₁, hop, hrest⟩ := runAll_cons.1 hrun
    have hothers : Moves P (update L i m₁) (update (update L i m₁) i m) := by
      refine ih ?_ fun o ho => hops o (List.mem_cons_of_mem _ ho)
      rw [update_self]
      exact hrest
    rw [update_idem] at hothers
    exact (Moves.single hop (hP op (hops op List.mem_cons_self))).trans hothers

end

end Mint

end HedgeVault.Lib
