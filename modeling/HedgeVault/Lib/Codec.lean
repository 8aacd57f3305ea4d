import HedgeVault.Lib.Bytes

/-!
# Serializers with their decoders

`Decoder.Reads d x a`: on the bytes `x`, whatever follows, the decoder `d` returns `a` and
leaves what follows. The relation composes along `Decoder.bind` (`Reads.bind`,
`Reads.append`), so a record is read field by field, and it makes an encoding unambiguous:
two values with one encoding are equal (`Reads.unique`).

`Borsh` is the class of the types with such a pair: words, booleans, options by a tag of 0
or 1. A vector is its length as a word of four bytes and its elements (`serializeVec`), read
back up to that length (`reads_vec`). Variants are told apart by a first byte (`Reads.tag`).
-/

namespace HedgeVault.Lib

namespace Decoder

variable {α β : Type*}

/-- A decoder that accepts nothing. -/
def fail : Decoder α where
  run _ := none
  suffix _ _ _ h := by cases h

def Reads (d : Decoder α) (x : List Byte) (a : α) : Prop :=
  ∀ rest, d.run (x ++ rest) = some (a, rest)

variable {d : Decoder α} {f : α → Decoder β} {x y : List Byte} {a a' : α} {b : β}

theorem Reads.pure (a : α) : (Decoder.pure a).Reads [] a := fun _ => rfl

theorem Reads.bind (h1 : d.Reads x a) (h2 : (f a).Reads y b) : (d.bind f).Reads (x ++ y) b := by
  intro rest
  rw [List.append_assoc]
  exact run_bind.2 ⟨a, y ++ rest, h1 _, h2 rest⟩

/-- The last field of a record. -/
theorem Reads.last (g : α → β) (h : d.Reads x a) : (d.bind fun a => .pure (g a)).Reads x (g a) := by
  have hx := h.bind (f := fun a => .pure (g a)) (Reads.pure (g a))
  rwa [List.append_nil] at hx

/-- The bytes are consumed. -/
theorem Reads.run (h : d.Reads x a) : d.run x = some (a, []) := by
  have hx := h []
  rwa [List.append_nil] at hx

/-- Bytes that are read behind a head of `n` bytes have such a head. -/
theorem Reads.split_head {n : Nat} {g : List Byte → Decoder β} (h : ((bytes n).bind g).Reads x b) :
    ∃ head tail, x = head ++ tail ∧ head.length = n ∧ (g head).Reads tail b := by
  obtain ⟨head, tail, hhead, htail⟩ := run_bind.1 h.run
  obtain ⟨rfl, hlen⟩ := run_bytes.1 hhead
  refine ⟨head, tail, rfl, hlen, ?_⟩
  intro rest
  obtain ⟨head', tail', hhead', htail'⟩ := run_bind.1 (h rest)
  obtain ⟨e, hlen'⟩ := run_bytes.1 hhead'
  rw [List.append_assoc] at e
  obtain ⟨rfl, rfl⟩ := List.append_inj e (hlen.trans hlen'.symm)
  exact htail'

/-- One encoding, one value. -/
theorem Reads.unique (h : d.Reads x a) (h' : d.Reads x a') : a = a' := by
  have e := h.run.symm.trans h'.run
  cases e; rfl

theorem reads_bytes (x : List Byte) : (Decoder.bytes x.length).Reads x x :=
  fun _ => run_bytes.2 ⟨rfl, rfl⟩

theorem reads_word {n : Nat} (w : BitVec (8 * n)) : (Decoder.word n).Reads (leBytes n w.toNat) w :=
  fun _ => run_word_leBytes w

end Decoder

open Decoder

/-- A type with a serializer and the decoder that reads it back. -/
class Borsh (α : Type*) where
  serialize : α → List Byte
  deserialize : Decoder α
  reads : ∀ a, deserialize.Reads (serialize a) a

export Borsh (serialize deserialize)

/-! ## Words and tags -/

/-- A word of `n` bytes, the lowest first. -/
@[reducible] def Borsh.word (n : Nat) : Borsh (BitVec (8 * n)) where
  serialize w := leBytes n w.toNat
  deserialize := Decoder.word n
  reads := reads_word

instance : Borsh (BitVec 8) := Borsh.word 1
instance : Borsh (BitVec 32) := Borsh.word 4
instance : Borsh (BitVec 64) := Borsh.word 8
instance : Borsh (BitVec 128) := Borsh.word 16

/-- The tag of a variant, then the variant's own decoder. -/
def tagged {α : Type*} (variants : Byte → Decoder α) : Decoder α :=
  (deserialize (α := Byte)).bind variants

section

variable {α : Type*} {variants : Byte → Decoder α} {x : List Byte} {a : α}

theorem serialize_byte (t : Byte) : serialize t = [t] := by
  show leBytes 1 t.toNat = [t]
  rw [leBytes, leBytes, BitVec.ofNat_toNat, BitVec.setWidth_eq]

theorem Reads.tag {t : Byte} (h : (variants t).Reads x a) : (tagged variants).Reads (t :: x) a := by
  have ht := (Borsh.reads t).bind (f := variants) h
  rwa [serialize_byte] at ht

theorem Reads.tag_pure {t : Byte} (h : variants t = .pure a) : (tagged variants).Reads [t] a :=
  Reads.tag (h ▸ Reads.pure a)

end

instance : Borsh Bool where
  serialize b := [if b then 1 else 0]
  deserialize := tagged fun t =>
    if t = 0 then .pure false else if t = 1 then .pure true else .fail
  reads b := by
    cases b with
    | false => exact Reads.tag_pure rfl
    | true => exact Reads.tag_pure rfl

instance {α : Type*} [Borsh α] : Borsh (Option α) where
  serialize
    | none => [0]
    | some a => 1 :: serialize a
  deserialize := tagged fun t =>
    if t = 0 then .pure none
    else if t = 1 then deserialize.bind fun a => .pure (some a)
    else .fail
  reads o := by
    cases o with
    | none => exact Reads.tag_pure rfl
    | some a =>
      refine Reads.tag ?_
      rw [if_neg (by decide), if_pos rfl]
      exact (Borsh.reads a).last some

/-! ## Vectors -/

section

variable {α : Type*} [Borsh α]

def serializeVec (l : List α) : List Byte := leBytes 4 l.length ++ l.flatMap serialize

theorem reads_times (l : List α) :
    ((deserialize (α := α)).times l.length).Reads (l.flatMap serialize) l := by
  induction l with
  | nil => exact Reads.pure []
  | cons a l ih =>
    rw [List.flatMap_cons]
    exact (Borsh.reads a).bind (ih.last (a :: ·))

/-- A vector whose length fits its prefix is read back. -/
theorem reads_vec {l : List α} (h : l.length < 2 ^ 32) :
    (deserialize (α := α)).vec.Reads (serializeVec l) l := by
  have hlen : (BitVec.ofNat (8 * 4) l.length).toNat = l.length := by
    rw [BitVec.toNat_ofNat]
    exact Nat.mod_eq_of_lt h
  have hword := reads_word (n := 4) (BitVec.ofNat (8 * 4) l.length)
  rw [hlen] at hword
  refine hword.bind ?_
  rw [hlen]
  exact reads_times l

end

end HedgeVault.Lib
