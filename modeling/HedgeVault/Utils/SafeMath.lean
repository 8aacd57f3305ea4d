import HedgeVault.Error
import HedgeVault.Constants

/-!
# Checked arithmetic

The `SafeMath` operations at every unsigned width, `safe_to_u64`, and the `i64`
operations the vault uses. Each has one lemma that says when it succeeds and what
it returns, in natural numbers: a result of the type is in range, so an equation
between the values is all there is to say.
-/

namespace HedgeVault

section

variable {w : Nat} (a b : BitVec w)

def checkedAdd : Option (BitVec w) :=
  if a.toNat + b.toNat < 2 ^ w then some (a + b) else none

def checkedSub : Option (BitVec w) :=
  if b.toNat ≤ a.toNat then some (a - b) else none

def checkedMul : Option (BitVec w) :=
  if a.toNat * b.toNat < 2 ^ w then some (a * b) else none

def checkedDiv : Option (BitVec w) :=
  if b.toNat = 0 then none else some (a / b)

def orOverflow {α : Type} : Option α → Result α
  | some result => .ok result
  | none => .error (.custom .mathOverflow)

def safeAdd : Result (BitVec w) := orOverflow (checkedAdd a b)

def safeSub : Result (BitVec w) := orOverflow (checkedSub a b)

def safeMul : Result (BitVec w) := orOverflow (checkedMul a b)

def safeDiv : Result (BitVec w) := orOverflow (checkedDiv a b)

/-- `safe_to_u64`. -/
def safeToU64 : Result U64 :=
  if a.toNat < 2 ^ 64 then .ok (a.setWidth 64) else .error (.custom .conversionFailed)

/-- `as u128`. -/
def asU128 : U128 := a.setWidth 128

end

section

variable {w : Nat} {a b c : BitVec w}

theorem orOverflow_eq_ok {α : Type} {o : Option α} {r : α} :
    orOverflow o = .ok r ↔ o = some r := by
  cases o <;> simp [orOverflow]

theorem eq_add_of_toNat (h : c.toNat = a.toNat + b.toNat) : c = a + b := by
  apply BitVec.eq_of_toNat_eq
  rw [BitVec.toNat_add, ← h]
  exact (Nat.mod_eq_of_lt c.isLt).symm

theorem eq_sub_of_toNat (h : c.toNat + b.toNat = a.toNat) : c = a - b := by
  rw [eq_add_of_toNat h.symm, BitVec.add_sub_cancel]

theorem safeAdd_eq_ok : safeAdd a b = .ok c ↔ a.toNat + b.toNat = c.toNat := by
  unfold safeAdd checkedAdd
  rw [orOverflow_eq_ok]
  constructor
  · intro h
    split at h
    · cases h
      rw [BitVec.toNat_add, Nat.mod_eq_of_lt ‹_›]
    · cases h
  · intro h
    rw [if_pos (h ▸ c.isLt)]
    exact congrArg some (BitVec.eq_of_toNat_eq (by
      rw [BitVec.toNat_add, h, Nat.mod_eq_of_lt c.isLt]))

theorem safeSub_eq_ok : safeSub a b = .ok c ↔ c.toNat + b.toNat = a.toNat := by
  unfold safeSub checkedSub
  rw [orOverflow_eq_ok]
  constructor
  · intro h
    split at h
    · cases h
      rw [BitVec.toNat_sub_of_le (BitVec.le_def.2 ‹_›)]
      omega
    · cases h
  · intro h
    have hle : b.toNat ≤ a.toNat := by omega
    rw [if_pos hle]
    exact congrArg some (BitVec.eq_of_toNat_eq (by
      rw [BitVec.toNat_sub_of_le (BitVec.le_def.2 hle)]
      omega))

theorem safeMul_eq_ok : safeMul a b = .ok c ↔ a.toNat * b.toNat = c.toNat := by
  unfold safeMul checkedMul
  rw [orOverflow_eq_ok]
  constructor
  · intro h
    split at h
    · cases h
      rw [BitVec.toNat_mul, Nat.mod_eq_of_lt ‹_›]
    · cases h
  · intro h
    rw [if_pos (h ▸ c.isLt)]
    exact congrArg some (BitVec.eq_of_toNat_eq (by
      rw [BitVec.toNat_mul, h, Nat.mod_eq_of_lt c.isLt]))

theorem safeDiv_eq_ok : safeDiv a b = .ok c ↔ b.toNat ≠ 0 ∧ a.toNat / b.toNat = c.toNat := by
  unfold safeDiv checkedDiv
  rw [orOverflow_eq_ok]
  constructor
  · intro h
    split at h
    · cases h
    · cases h
      exact ⟨‹_›, (BitVec.toNat_udiv).symm⟩
  · rintro ⟨h0, h⟩
    rw [if_neg h0]
    exact congrArg some (BitVec.eq_of_toNat_eq (by rw [← h]; exact BitVec.toNat_udiv))

theorem safeToU64_eq_ok {c : U64} : safeToU64 a = .ok c ↔ a.toNat = c.toNat := by
  unfold safeToU64
  constructor
  · intro h
    split at h
    · cases h
      rw [BitVec.toNat_setWidth, Nat.mod_eq_of_lt ‹_›]
    · cases h
  · intro h
    rw [if_pos (h ▸ c.isLt)]
    exact congrArg Except.ok (BitVec.eq_of_toNat_eq (by
      rw [BitVec.toNat_setWidth, h, Nat.mod_eq_of_lt c.isLt]))

/-! The same with the value given as a number in range. -/

theorem exists_safeAdd (h : a.toNat + b.toNat < 2 ^ w) :
    ∃ c, safeAdd a b = .ok c ∧ c.toNat = a.toNat + b.toNat :=
  ⟨BitVec.ofNatLT _ h, safeAdd_eq_ok.2 (by simp), by simp⟩

theorem exists_safeSub (h : b.toNat ≤ a.toNat) :
    ∃ c, safeSub a b = .ok c ∧ c.toNat = a.toNat - b.toNat := by
  have hlt : a.toNat - b.toNat < 2 ^ w := Nat.lt_of_le_of_lt (Nat.sub_le _ _) a.isLt
  exact ⟨BitVec.ofNatLT _ hlt, safeSub_eq_ok.2 (by simp; omega), by simp⟩

theorem exists_safeMul (h : a.toNat * b.toNat < 2 ^ w) :
    ∃ c, safeMul a b = .ok c ∧ c.toNat = a.toNat * b.toNat :=
  ⟨BitVec.ofNatLT _ h, safeMul_eq_ok.2 (by simp), by simp⟩

theorem exists_safeDiv (h : b.toNat ≠ 0) :
    ∃ c, safeDiv a b = .ok c ∧ c.toNat = a.toNat / b.toNat := by
  have hlt : a.toNat / b.toNat < 2 ^ w := Nat.lt_of_le_of_lt (Nat.div_le_self _ _) a.isLt
  exact ⟨BitVec.ofNatLT _ hlt, safeDiv_eq_ok.2 ⟨h, by simp⟩, by simp⟩

theorem exists_safeToU64 (h : a.toNat < 2 ^ 64) :
    ∃ c, safeToU64 a = .ok c ∧ c.toNat = a.toNat :=
  ⟨BitVec.ofNatLT _ h, safeToU64_eq_ok.2 (by simp), by simp⟩

@[simp] theorem asU128_toNat_u64 (x : U64) : (asU128 x).toNat = x.toNat := by
  unfold asU128
  rw [BitVec.toNat_setWidth]; omega

@[simp] theorem asU128_toNat_u16 (x : U16) : (asU128 x).toNat = x.toNat := by
  unfold asU128
  rw [BitVec.toNat_setWidth]; omega

end

/-! ## Signed operations -/

namespace I64

/-- `safe_add` on `i64`. -/
def safeAdd (a b : I64) : Result I64 :=
  if h : -2 ^ 63 ≤ a.val + b.val ∧ a.val + b.val < 2 ^ 63 then .ok ⟨a.val + b.val, h.1, h.2⟩
  else .error (.custom .mathOverflow)

def saturatingSub (a b : I64) : I64 :=
  ⟨max (-2 ^ 63) (min (2 ^ 63 - 1) (a.val - b.val)), by omega, by omega⟩

/-- `as u128`, sign-extended. -/
def asU128 (a : I64) : U128 := BitVec.ofInt 128 a.val

theorem safeAdd_eq_ok {a b c : I64} : safeAdd a b = .ok c ↔ a.val + b.val = c.val := by
  unfold safeAdd
  constructor
  · intro h
    split at h
    · cases h; rfl
    · cases h
  · intro h
    rw [dif_pos ⟨h ▸ c.ge, h ▸ c.lt⟩]
    exact congrArg Except.ok (I64.ext h)

end I64

end HedgeVault
