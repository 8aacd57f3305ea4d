import Mathlib.Data.List.Basic
import Mathlib.Algebra.Order.Ring.Nat

/-!
# Bytes, words and decoders

Little-endian words as bit vectors (`leWord`), which determine the bytes they are read from
(`leWord_inj`), slices of a byte string by offsets, and decoders of a prefix: a `Decoder`
reads some first bytes and returns the rest, a suffix of what it got. `Decoder.bind` runs
one after another and `Decoder.vec` reads a counted vector.
-/

namespace HedgeVault.Lib

abbrev Byte := BitVec 8

/-! ## Words -/

/-- The number with these digits to base 256, the lowest first. -/
def leNat : List Byte → Nat
  | [] => 0
  | b :: bs => b.toNat + 256 * leNat bs

theorem leNat_lt (bs : List Byte) : leNat bs < 2 ^ (8 * bs.length) := by
  induction bs with
  | nil => exact Nat.one_pos
  | cons b bs ih =>
    have hb : b.toNat < 256 := b.isLt
    have hpow : 2 ^ (8 * (b :: bs).length) = 256 * 2 ^ (8 * bs.length) := by
      rw [List.length_cons, Nat.mul_succ, Nat.pow_add, Nat.mul_comm]
    rw [hpow, leNat]
    omega

theorem leNat_inj {a b : List Byte} (hl : a.length = b.length) (h : leNat a = leNat b) :
    a = b := by
  induction a generalizing b with
  | nil => exact (List.length_eq_zero_iff.1 hl.symm).symm
  | cons x a ih =>
    cases b with
    | nil => cases hl
    | cons y b =>
      have hx : x.toNat < 256 := x.isLt
      have hy : y.toNat < 256 := y.isLt
      rw [leNat, leNat] at h
      have hxy : x = y := BitVec.eq_of_toNat_eq (by omega)
      rw [hxy, ih (Nat.succ.inj hl) (by omega)]

/-- `from_le_bytes` of a word of `w` bits. -/
def leWord (w : Nat) (bs : List Byte) : BitVec w := BitVec.ofNat w (leNat bs)

/-- Words are equal when their bytes are. -/
theorem leWord_inj {w : Nat} {a b : List Byte} (ha : 8 * a.length = w) (hb : 8 * b.length = w) :
    leWord w a = leWord w b ↔ a = b := by
  constructor
  · intro h
    have hlt : ∀ c : List Byte, 8 * c.length = w → leNat c % 2 ^ w = leNat c :=
      fun c hc => Nat.mod_eq_of_lt (hc ▸ leNat_lt c)
    have hnat := congrArg BitVec.toNat h
    unfold leWord at hnat
    rw [BitVec.toNat_ofNat, BitVec.toNat_ofNat, hlt a ha, hlt b hb] at hnat
    exact leNat_inj (by omega) hnat
  · rintro rfl
    rfl

/-- The lowest `n` digits of a number to base 256. -/
def leBytes : Nat → Nat → List Byte
  | 0, _ => []
  | n + 1, x => BitVec.ofNat 8 x :: leBytes n (x / 256)

theorem length_leBytes (n x : Nat) : (leBytes n x).length = n := by
  induction n generalizing x with
  | zero => rfl
  | succ n ih => exact congrArg Nat.succ (ih (x / 256))

theorem leNat_leBytes (n x : Nat) : leNat (leBytes n x) = x % 256 ^ n := by
  induction n generalizing x with
  | zero => exact (Nat.mod_one x).symm
  | succ n ih =>
    have hpow : 256 ^ (n + 1) = 256 * 256 ^ n := by rw [Nat.pow_succ, Nat.mul_comm]
    rw [leBytes, leNat, ih, BitVec.toNat_ofNat, hpow, Nat.mod_mul]

theorem leWord_leBytes {n : Nat} (x : BitVec (8 * n)) : leWord (8 * n) (leBytes n x.toNat) = x := by
  have hpow : 256 ^ n = 2 ^ (8 * n) := by rw [Nat.pow_mul]
  unfold leWord
  rw [leNat_leBytes, hpow, Nat.mod_eq_of_lt x.isLt, BitVec.ofNat_toNat, BitVec.setWidth_eq]

/-! ## Slices -/

section

variable {α : Type*}

/-- `bs[i..j]`. -/
def slice (bs : List α) (i j : Nat) : List α := (bs.drop i).take (j - i)

/-- The bytes from `n` to `m` before the end. -/
def fromEnd (bs : List α) (n m : Nat) : List α := slice bs (bs.length - n) (bs.length - m)

theorem length_fromEnd {bs : List α} {n m : Nat} (hm : m ≤ n) (hn : n ≤ bs.length) :
    (fromEnd bs n m).length = n - m := by
  unfold fromEnd slice
  rw [List.length_take, List.length_drop]
  omega

/-- A slice from the end falls into two at any offset in between. -/
theorem fromEnd_append {bs : List α} {n k m : Nat} (hk : k ≤ n) (hm : m ≤ k)
    (hn : n ≤ bs.length) : fromEnd bs n k ++ fromEnd bs k m = fromEnd bs n m := by
  unfold fromEnd slice
  have h1 : bs.length - k - (bs.length - n) = n - k := by omega
  have h2 : bs.length - m - (bs.length - k) = k - m := by omega
  have h3 : bs.length - m - (bs.length - n) = (n - k) + (k - m) := by omega
  have h4 : bs.length - k = bs.length - n + (n - k) := by omega
  rw [h1, h2, h3, h4, List.take_add, List.drop_drop]

/-- The slice just before the last `m` bytes. -/
theorem fromEnd_of_append (a b c : List α) :
    fromEnd (a ++ b ++ c) (b.length + c.length) c.length = b := by
  unfold fromEnd slice
  have h1 : (a ++ b ++ c).length - (b.length + c.length) = a.length := by
    simp only [List.length_append]
    omega
  have h2 : (a ++ b ++ c).length - c.length - a.length = b.length := by
    simp only [List.length_append]
    omega
  rw [h1, h2, List.append_assoc, List.drop_left, List.take_left]

end

/-! ## Decoders -/

/-- A decoder of a prefix: what it does not read is left as the rest. -/
structure Decoder (α : Type*) where
  run : List Byte → Option (α × List Byte)
  suffix : ∀ bs a rest, run bs = some (a, rest) → rest <:+ bs

namespace Decoder

variable {α β : Type*}

protected def pure (a : α) : Decoder α where
  run bs := some (a, bs)
  suffix bs _ _ h := by cases h; exact List.suffix_rfl

protected def bind (d : Decoder α) (f : α → Decoder β) : Decoder β where
  run bs := (d.run bs).bind fun p => (f p.1).run p.2
  suffix bs b rest h := by
    obtain ⟨⟨a, mid⟩, h1, h2⟩ := Option.bind_eq_some_iff.1 h
    exact ((f a).suffix _ _ _ h2).trans (d.suffix _ _ _ h1)

/-- The next `n` bytes. -/
def bytes (n : Nat) : Decoder (List Byte) where
  run bs := if n ≤ bs.length then some (bs.take n, bs.drop n) else none
  suffix bs a rest h := by
    split at h
    · cases h; exact List.drop_suffix n bs
    · cases h

/-- A little-endian word of `n` bytes. -/
def word (n : Nat) : Decoder (BitVec (8 * n)) := (bytes n).bind fun bs => .pure (leWord (8 * n) bs)

/-- `n` values one after another. -/
def times (d : Decoder α) : Nat → Decoder (List α)
  | 0 => .pure []
  | n + 1 => d.bind fun a => (d.times n).bind fun as => .pure (a :: as)

/-- A vector: its length as a word of four bytes, then its elements. -/
def vec (d : Decoder α) : Decoder (List α) := (word 4).bind fun n => d.times n.toNat

variable {d : Decoder α} {f : α → Decoder β} {bs rest : List Byte} {a : α} {b : β} {n : Nat}

theorem run_pure {a' : α} : (Decoder.pure a).run bs = some (a', rest) ↔ a = a' ∧ bs = rest := by
  simp [Decoder.pure]

theorem run_bind : (d.bind f).run bs = some (b, rest) ↔
    ∃ a mid, d.run bs = some (a, mid) ∧ (f a).run mid = some (b, rest) := by
  unfold Decoder.bind
  rw [Option.bind_eq_some_iff]
  constructor
  · rintro ⟨⟨a, mid⟩, h⟩
    exact ⟨a, mid, h⟩
  · rintro ⟨a, mid, h⟩
    exact ⟨(a, mid), h⟩

theorem run_bytes {x : List Byte} :
    (bytes n).run bs = some (x, rest) ↔ bs = x ++ rest ∧ x.length = n := by
  constructor
  · intro h
    dsimp only [bytes] at h
    split at h
    · next hn =>
      cases h
      exact ⟨(List.take_append_drop n bs).symm, List.length_take_of_le hn⟩
    · cases h
  · rintro ⟨rfl, rfl⟩
    simp [bytes]

theorem run_word {x : BitVec (8 * n)} : (word n).run bs = some (x, rest) ↔
    ∃ w, bs = w ++ rest ∧ w.length = n ∧ leWord (8 * n) w = x := by
  unfold word
  rw [run_bind]
  constructor
  · rintro ⟨w, mid, h1, h2⟩
    obtain ⟨rfl, hw⟩ := run_bytes.1 h1
    obtain ⟨hx, rfl⟩ := run_pure.1 h2
    exact ⟨w, rfl, hw, hx⟩
  · rintro ⟨w, rfl, hw, hx⟩
    exact ⟨w, rest, run_bytes.2 ⟨rfl, hw⟩, run_pure.2 ⟨hx, rfl⟩⟩

/-- A word is read back from its bytes. -/
theorem run_word_leBytes (x : BitVec (8 * n)) :
    (word n).run (leBytes n x.toNat ++ rest) = some (x, rest) :=
  run_word.2 ⟨_, rfl, length_leBytes n _, leWord_leBytes x⟩

end Decoder

end HedgeVault.Lib
