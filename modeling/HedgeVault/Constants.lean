import Mathlib.Algebra.Order.Ring.Nat

/-!
# Machine integers, keys and constants

The unsigned types are bit vectors of their width, so a value of the type is in
range by construction. `I64` carries its range as fields. A `Signer` is a key
that can sign: the default key, the address of the system program, cannot.
-/

namespace HedgeVault

abbrev U8 := BitVec 8
abbrev U16 := BitVec 16
abbrev U32 := BitVec 32
abbrev U64 := BitVec 64
abbrev U128 := BitVec 128

def U64_MAX : Nat := 2 ^ 64 - 1

@[ext]
structure I64 where
  val : Int
  ge : -2 ^ 63 ≤ val
  lt : val < 2 ^ 63
  deriving DecidableEq, Repr

instance : Zero I64 := ⟨⟨0, by decide, by decide⟩⟩

/-- The range of `I64`, as a check that evaluates. -/
def I64.inRange (n : Int) : Bool := decide (-2 ^ 63 ≤ n ∧ n < 2 ^ 63)

def I64.literal (n : Int) (h : inRange n = true) : I64 :=
  ⟨n, (of_decide_eq_true h).1, (of_decide_eq_true h).2⟩

theorem toNat_le_max (x : U64) : x.toNat ≤ U64_MAX := by
  unfold U64_MAX; omega

abbrev Pubkey := BitVec 256

def Pubkey.default : Pubkey := 0

structure Signer where
  key : Pubkey
  ne_default : key ≠ Pubkey.default

/-- 100%. -/
def MAX_BPS : U16 := 10000

/-- Precision of NAV per share, 1e9 is one deposit mint unit per share. -/
def NAV_PRECISION : U64 := 1000000000

/-- Duration of a NAV epoch in seconds. -/
def EPOCH_DURATION : Int := 14400

def SECONDS_PER_YEAR : U128 := 31536000

/-- Delay before a manager fee increase takes effect. -/
def FEE_INCREASE_DELAY : I64 := ⟨604800, by decide, by decide⟩

/-- The slippage cap of a config that sets none, 3%. -/
def DEFAULT_MAX_SLIPPAGE_BPS : U16 := 300

/-- The treasury's part of claimed DLMM fees, 10%. -/
def TREASURY_CLAIM_FEE_BPS : U16 := 1000

/-- `NAV_PRECISION` as a number. -/
def NAV_SCALE : Nat := 1000000000

theorem NAV_SCALE_pos : 0 < NAV_SCALE := by decide

theorem navPrecision_toNat : NAV_PRECISION.toNat = NAV_SCALE := rfl

theorem maxBps_toNat : MAX_BPS.toNat = 10000 := rfl

end HedgeVault
