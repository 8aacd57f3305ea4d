import HedgeVault.Lib.Bytes

/-!
# Fields of a buffer

A `Field` is a little-endian word at an offset. `writeAll` puts fields into a buffer one
after another and keeps everything else. Where the fields lie in the buffer and apart from
each other (`Fits`, a check on offsets and widths alone), each is read back from its own
slice (`slice_writeAll_of_mem`, `Fits.leWord_eq`) and a slice that no field meets is the
one of the buffer before (`slice_writeAll_of_apart`).
-/

namespace HedgeVault.Lib

structure Field where
  offset : Nat
  width : Nat
  word : BitVec (8 * width)

namespace Field

def stop (f : Field) : Nat := f.offset + f.width

def bytes (f : Field) : List Byte := leBytes f.width f.word.toNat

/-- Where the field lies. -/
def span (f : Field) : Nat × Nat := (f.offset, f.stop)

theorem length_bytes (f : Field) : f.bytes.length = f.width := length_leBytes _ _

end Field

/-- `bs[f.offset..f.stop].copy_from_slice(f.bytes)`. -/
def write (bs : List Byte) (f : Field) : List Byte :=
  bs.take f.offset ++ f.bytes ++ bs.drop f.stop

def writeAll (bs : List Byte) (fs : List Field) : List Byte := fs.foldl write bs

/-- Two spans that do not meet. -/
def Apart (s t : Nat × Nat) : Prop := s.2 ≤ t.1 ∨ t.2 ≤ s.1

instance (s t : Nat × Nat) : Decidable (Apart s t) := inferInstanceAs (Decidable (_ ∨ _))

/-- Spans within a buffer of `n` bytes that do not meet each other. -/
def Fits (n : Nat) (spans : List (Nat × Nat)) : Prop :=
  (∀ s ∈ spans, s.2 ≤ n) ∧ spans.Pairwise Apart

instance (n : Nat) (spans : List (Nat × Nat)) : Decidable (Fits n spans) :=
  inferInstanceAs (Decidable (_ ∧ _))

section

variable {bs : List Byte} {f : Field} {fs : List Field} {i j : Nat}

theorem getElem?_slice (bs : List Byte) (i j k : Nat) :
    (slice bs i j)[k]? = if k < j - i then bs[i + k]? else none := by
  unfold slice
  rw [List.getElem?_take]
  split
  · rw [List.getElem?_drop]
  · rfl

theorem slice_append_left {a : List Byte} (b : List Byte) (hj : j ≤ a.length) :
    slice (a ++ b) i j = slice a i j := by
  refine List.ext_getElem? fun k => ?_
  rw [getElem?_slice, getElem?_slice]
  by_cases hk : k < j - i
  · rw [if_pos hk, if_pos hk, List.getElem?_append_left (by omega)]
  · rw [if_neg hk, if_neg hk]

/-- Within a constant tail a slice is constant. -/
theorem slice_append_replicate {a : List Byte} {n : Nat} (x : Byte) (hi : a.length ≤ i)
    (hj : j ≤ a.length + n) : slice (a ++ List.replicate n x) i j = List.replicate (j - i) x := by
  refine List.ext_getElem? fun k => ?_
  rw [getElem?_slice, List.getElem?_replicate]
  by_cases hk : k < j - i
  · rw [if_pos hk, if_pos hk, List.getElem?_append_right (by omega), List.getElem?_replicate,
      if_pos (by omega)]
  · rw [if_neg hk, if_neg hk]

theorem leWord_zeros (w n : Nat) : leWord w (List.replicate n 0) = 0 := by
  have hzero : leNat (List.replicate n 0) = 0 := by
    induction n with
    | zero => rfl
    | succ n ih =>
      rw [List.replicate_succ, leNat, ih]; rfl
  unfold leWord
  rw [hzero]
  rfl

theorem getElem?_write (h : f.stop ≤ bs.length) (k : Nat) :
    (write bs f)[k]? =
      if f.offset ≤ k ∧ k < f.stop then f.bytes[k - f.offset]? else bs[k]? := by
  have hb := f.length_bytes
  unfold Field.stop at *
  have hhead : (bs.take f.offset).length = f.offset := by
    rw [List.length_take]; omega
  unfold write Field.stop
  rw [List.append_assoc]
  by_cases h1 : k < f.offset
  · rw [List.getElem?_append_left (by omega), List.getElem?_take_of_lt h1, if_neg (by omega)]
  · rw [List.getElem?_append_right (by omega), hhead]
    by_cases h2 : k < f.offset + f.width
    · rw [List.getElem?_append_left (by omega), if_pos (by omega)]
    · rw [List.getElem?_append_right (by omega), List.getElem?_drop, hb, if_neg (by omega)]
      congr 1
      omega

theorem length_write (h : f.stop ≤ bs.length) : (write bs f).length = bs.length := by
  have hb := f.length_bytes
  unfold write
  unfold Field.stop at *
  simp only [List.length_append, List.length_take, List.length_drop]
  omega

theorem slice_write_self (h : f.stop ≤ bs.length) :
    slice (write bs f) f.offset f.stop = f.bytes := by
  have hb := f.length_bytes
  refine List.ext_getElem? fun k => ?_
  rw [getElem?_slice, getElem?_write h]
  unfold Field.stop
  by_cases hk : k < f.width
  · rw [if_pos (by omega), if_pos (by omega), Nat.add_sub_cancel_left]
  · rw [if_neg (by omega), List.getElem?_eq_none (by omega)]

theorem slice_write_of_apart (h : f.stop ≤ bs.length) (ha : Apart (i, j) f.span) :
    slice (write bs f) i j = slice bs i j := by
  refine List.ext_getElem? fun k => ?_
  rw [getElem?_slice, getElem?_slice, getElem?_write h]
  unfold Apart Field.span at ha
  dsimp only at ha
  by_cases hk : k < j - i
  · rw [if_pos hk, if_pos hk, if_neg (by omega)]
  · rw [if_neg hk, if_neg hk]

theorem length_writeAll (h : ∀ f ∈ fs, f.stop ≤ bs.length) :
    (writeAll bs fs).length = bs.length := by
  induction fs generalizing bs with
  | nil => rfl
  | cons f fs ih =>
    have hf := length_write (h f List.mem_cons_self)
    have hrest : (writeAll (write bs f) fs).length = (write bs f).length :=
      ih fun g hg => hf ▸ h g (List.mem_cons_of_mem _ hg)
    exact hrest.trans hf

/-- A slice that no field meets is left as it was. -/
theorem slice_writeAll_of_apart (h : ∀ f ∈ fs, f.stop ≤ bs.length)
    (ha : ∀ f ∈ fs, Apart (i, j) f.span) : slice (writeAll bs fs) i j = slice bs i j := by
  induction fs generalizing bs with
  | nil => rfl
  | cons f fs ih =>
    have hf := h f List.mem_cons_self
    have hrest : slice (writeAll (write bs f) fs) i j = slice (write bs f) i j := ih
      (fun g hg => (length_write hf).symm ▸ h g (List.mem_cons_of_mem _ hg))
      fun g hg => ha g (List.mem_cons_of_mem _ hg)
    exact hrest.trans (slice_write_of_apart hf (ha f List.mem_cons_self))

/-- Each field is read back from its slice. -/
theorem slice_writeAll_of_mem (h : Fits bs.length (fs.map Field.span)) (hf : f ∈ fs) :
    slice (writeAll bs fs) f.offset f.stop = f.bytes := by
  obtain ⟨hin, hapart⟩ := h
  have hin' : ∀ g ∈ fs, g.stop ≤ bs.length := fun g hg => hin _ (List.mem_map_of_mem hg)
  clear hin
  induction fs generalizing bs with
  | nil => cases hf
  | cons g fs ih =>
    have hg := hin' g List.mem_cons_self
    have hrest : ∀ f ∈ fs, f.stop ≤ (write bs g).length :=
      fun f hf => (length_write hg).symm ▸ hin' f (List.mem_cons_of_mem _ hf)
    rw [List.map_cons, List.pairwise_cons] at hapart
    rcases List.mem_cons.1 hf with rfl | hf
    · -- the later fields lie apart from this one
      have hlater := slice_writeAll_of_apart (i := f.offset) (j := f.stop) hrest
        fun q hq => hapart.1 _ (List.mem_map_of_mem hq)
      exact hlater.trans (slice_write_self hg)
    · exact ih hf hapart.2 hrest

/-! A layout that fits the first `n` bytes is read back from any buffer of that length. -/

theorem Fits.mono {spans : List (Nat × Nat)} {m n : Nat} (h : Fits n spans) (hle : n ≤ m) :
    Fits m spans :=
  ⟨fun s hs => (h.1 s hs).trans hle, h.2⟩

variable {n : Nat}

theorem Fits.stop_le (h : Fits n (fs.map Field.span)) (hle : n ≤ bs.length) :
    ∀ f ∈ fs, f.stop ≤ bs.length :=
  fun _ hf => (h.1 _ (List.mem_map_of_mem hf)).trans hle

theorem Fits.length_writeAll (h : Fits n (fs.map Field.span)) (hle : n ≤ bs.length) :
    (writeAll bs fs).length = bs.length :=
  Lib.length_writeAll (h.stop_le hle)

theorem Fits.slice_of_apart (h : Fits n (fs.map Field.span)) (hle : n ≤ bs.length)
    (ha : ∀ s ∈ fs.map Field.span, Apart (i, j) s) :
    slice (writeAll bs fs) i j = slice bs i j :=
  slice_writeAll_of_apart (h.stop_le hle) fun _ hf => ha _ (List.mem_map_of_mem hf)

theorem Fits.leWord_eq (h : Fits n (fs.map Field.span)) (hle : n ≤ bs.length) (hf : f ∈ fs) :
    leWord (8 * f.width) (slice (writeAll bs fs) f.offset f.stop) = f.word := by
  rw [slice_writeAll_of_mem (h.mono hle) hf]
  exact leWord_leBytes f.word

/-- A field of one byte. -/
theorem Fits.getElem?_eq {x : Byte} (h : Fits n (fs.map Field.span)) (hle : n ≤ bs.length)
    (hf : ⟨i, 1, x⟩ ∈ fs) : (writeAll bs fs)[i]? = some x := by
  have hx : leBytes 1 x.toNat = [x] := by
    rw [leBytes, leBytes, BitVec.ofNat_toNat, BitVec.setWidth_eq]
  have hs : slice (writeAll bs fs) i (i + 1) = [x] :=
    (slice_writeAll_of_mem (h.mono hle) hf).trans hx
  have hb : (slice (writeAll bs fs) i (i + 1))[0]? = some x := by rw [hs]; rfl
  rwa [getElem?_slice, if_pos (by omega)] at hb

end

end HedgeVault.Lib
