/- Module: BmsFirmware/DataProcess/FrameDecode
   Source: application/dataprocess/process.c
   Digest: The decoding over its own input reads every field most significant byte first. -/

import BmsFirmware.DataProcess.Reception

set_option autoImplicit false
set_option relaxedAutoImplicit false

namespace BmsFirmware.DataProcess.FrameDecode

open BmsFirmware.Library.ByteMemory
open BmsFirmware.Registers.Frames
open BmsFirmware.DataProcess.Reception

/-- The two bytes at a position, most significant first. -/
def bigEndian16 (l : List Byte) (k : Nat) : Half := l.getD k 0 ++ l.getD (k + 1) 0

/-- The two bytes behind a list. -/
theorem bigEndian16_behind (l : List Byte) (c b : Byte) :
    bigEndian16 (l ++ [c, b]) l.length = c ++ b := by
  rw [bigEndian16, List.getD_append_right _ _ _ _ (Nat.le_refl _),
    List.getD_append_right _ _ _ _ (Nat.le_add_right _ 1), Nat.sub_self, Nat.add_sub_cancel_left]
  rfl

/-- The four bytes at a position, most significant first. -/
def bigEndian32 (l : List Byte) (k : Nat) : Word :=
  l.getD k 0 ++ l.getD (k + 1) 0 ++ l.getD (k + 2) 0 ++ l.getD (k + 3) 0

/-- The `n` items of a data field. -/
def bigEndianItems (n : Nat) (l : List Byte) : List Bufdata :=
  (List.range n).map fun i =>
    ⟨bigEndian16 l (8 * i), bigEndian16 l (8 * i + 2), bigEndian32 l (8 * i + 4)⟩

/-! ### The sums of the decoding loop -/

private theorem add_low (w : Word) (b : Byte) (clear : w.toNat % 256 = 0) :
    (w + b.setWidth 32).toNat = w.toNat + b.toNat := by
  have := w.isLt
  have := b.isLt
  rw [BitVec.toNat_add, BitVec.toNat_setWidth]
  omega

private theorem append_toNat {w : Nat} (x : BitVec w) (b : Byte) :
    (x ++ b).toNat = 256 * x.toNat + b.toNat := by
  rw [BitVec.toNat_append, ← Nat.shiftLeft_add_eq_or_of_lt b.isLt, Nat.shiftLeft_eq]
  omega

private theorem shifted_toNat (b : Byte) (k : Nat) (bound : k ≤ 24) :
    (b.setWidth 32 <<< k).toNat = b.toNat * 2 ^ k := by
  have small : b.toNat * 2 ^ k < 2 ^ 32 :=
    calc b.toNat * 2 ^ k < 2 ^ 8 * 2 ^ k := Nat.mul_lt_mul_of_pos_right b.isLt (Nat.two_pow_pos k)
      _ = 2 ^ (8 + k) := (Nat.pow_add 2 8 k).symm
      _ ≤ 2 ^ 32 := Nat.pow_le_pow_right (by omega) (by omega)
  have byte : b.toNat < 2 ^ 32 := Nat.lt_trans b.isLt (by omega)
  rw [BitVec.toNat_shiftLeft, BitVec.toNat_setWidth, Nat.mod_eq_of_lt byte, Nat.shiftLeft_eq,
    Nat.mod_eq_of_lt small]

private theorem halfSum (x y : Byte) :
    ((x.setWidth 32 <<< 8) + y.setWidth 32).setWidth 16 = x ++ y := by
  have := x.isLt
  have := y.isLt
  have high := shifted_toNat x 8 (by omega)
  apply BitVec.eq_of_toNat_eq
  rw [BitVec.toNat_setWidth, add_low _ _ (by omega), high, append_toNat]
  omega

private theorem wordSum (x y z w : Byte) :
    (x.setWidth 32 <<< 24) + (y.setWidth 32 <<< 16) + (z.setWidth 32 <<< 8) + w.setWidth 32 =
      x ++ y ++ z ++ w := by
  have := x.isLt
  have := y.isLt
  have := z.isLt
  have := w.isLt
  have first := shifted_toNat x 24 (by omega)
  have second := shifted_toNat y 16 (by omega)
  have third := shifted_toNat z 8 (by omega)
  apply BitVec.eq_of_toNat_eq
  simp only [BitVec.toNat_add, first, second, third, BitVec.toNat_setWidth, append_toNat]
  omega

/-! ### The decoding loop -/

/-- The item whose fields stand at `a`, most significant byte first. -/
private def networkItem (m : Memory) (a : Nat) : Bufdata :=
  ⟨m a ++ m (a + 1), m (a + 2) ++ m (a + 3), m (a + 4) ++ m (a + 5) ++ m (a + 6) ++ m (a + 7)⟩

private theorem networkItem_congr {m m' : Memory} {a : Nat}
    (same : ∀ x, a ≤ x → m x = m' x) : networkItem m a = networkItem m' a := by
  have place (k : Nat) : m (a + k) = m' (a + k) := same _ (by omega)
  have first : m a = m' a := place 0
  simp only [networkItem, first, place]

private theorem decodeItem_eq (m : Memory) (i : Nat) :
    decodeItem m i =
      fill (fill (fill m (8 * i) 2 (halfBytes (networkItem m (8 * i)).address)) (8 * i + 2) 2
        (halfBytes (networkItem m (8 * i)).offset)) (8 * i + 4) 4
        (wordBytes (networkItem m (8 * i)).data) := by
  -- no field is stored over bytes that are still to be read
  have kept (f : Nat → Byte) (x : Nat) (away : 8 * i + 2 ≤ x) :
      fill m (8 * i) 2 f x = m x := fill_outside (.inr away)
  have kept' (f g : Nat → Byte) (x : Nat) (away : 8 * i + 4 ≤ x) :
      fill (fill m (8 * i) 2 f) (8 * i + 2) 2 g x = m x := by
    rw [fill_outside (.inr (by omega)), kept f x (by omega)]
  have place : i * sizeofBufdata = 8 * i := Nat.mul_comm i 8
  simp only [decodeItem, place, halfSum, wordSum]
  rw [kept _ _ (by omega), kept _ _ (by omega), kept' _ _ _ (by omega), kept' _ _ _ (by omega),
    kept' _ _ _ (by omega), kept' _ _ _ (by omega)]
  rfl

private theorem decodeItem_outside (m : Memory) (i x : Nat) (away : x < 8 * i ∨ 8 * i + 8 ≤ x) :
    decodeItem m i x = m x := by
  rw [decodeItem_eq, fill_outside (by omega), fill_outside (by omega), fill_outside (by omega)]

private theorem decodeItem_inside (m : Memory) (i : Nat) :
    bufdataAt (decodeItem m i) (8 * i) = networkItem m (8 * i) := by
  rw [decodeItem_eq]
  generalize networkItem m (8 * i) = item
  have address : halfAt (fill (fill (fill m (8 * i) 2 (halfBytes item.address)) (8 * i + 2) 2
      (halfBytes item.offset)) (8 * i + 4) 4 (wordBytes item.data)) (8 * i) = item.address := by
    refine (halfAt_congr ?_).trans (halfAt_fill m (8 * i) item.address)
    intro k bound
    rw [fill_outside (by omega), fill_outside (by omega)]
  have offset : halfAt (fill (fill (fill m (8 * i) 2 (halfBytes item.address)) (8 * i + 2) 2
      (halfBytes item.offset)) (8 * i + 4) 4 (wordBytes item.data)) (8 * i + 2) = item.offset := by
    refine (halfAt_congr ?_).trans
      (halfAt_fill (fill m (8 * i) 2 (halfBytes item.address)) (8 * i + 2) item.offset)
    intro k bound
    rw [fill_outside (by omega)]
  rw [bufdataAt, address, offset, wordAt_fill]

private theorem bufdataAt_congr {m m' : Memory} {a : Nat}
    (same : ∀ i < 8, m (a + i) = m' (a + i)) : bufdataAt m a = bufdataAt m' a := by
  have address : halfAt m a = halfAt m' a := halfAt_congr fun i bound => same i (by omega)
  have offset : halfAt m (a + 2) = halfAt m' (a + 2) :=
    halfAt_congr fun i bound => by rw [Nat.add_assoc, same _ (by omega)]
  have data : wordAt m (a + 4) = wordAt m' (a + 4) :=
    wordAt_congr fun i bound => by rw [Nat.add_assoc, same _ (by omega)]
  rw [bufdataAt, address, offset, data, bufdataAt]

private theorem decodeInPlace_succ (m : Memory) (n : Nat) :
    decodeInPlace m (n + 1) = decodeItem (decodeInPlace m n) n := by
  rw [decodeInPlace, List.range_succ, List.foldl_append]
  rfl

private theorem decodeInPlace_beyond (m : Memory) (n x : Nat) (away : 8 * n ≤ x) :
    decodeInPlace m n x = m x := by
  induction n with
  | zero => rfl
  | succ n ih =>
    rw [decodeInPlace_succ, decodeItem_outside _ _ _ (by omega), ih (by omega)]

/-- Each decoded item holds the fields that stood in its place. -/
private theorem decodeInPlace_item (m : Memory) (n i : Nat) (bound : i < n) :
    bufdataAt (decodeInPlace m n) (8 * i) = networkItem m (8 * i) := by
  induction n with
  | zero => omega
  | succ n ih =>
    rw [decodeInPlace_succ]
    by_cases here : i = n
    · subst here
      rw [decodeItem_inside]
      exact networkItem_congr fun x beyond => decodeInPlace_beyond m i x beyond
    · rw [bufdataAt_congr fun k inside => decodeItem_outside _ _ _ (by omega)]
      exact ih (by omega)

/-- The handlers are given the items of the data field, most significant byte first. -/
theorem value_decodeInPlace (frame : ReceivedFrame) (l : List Byte) :
    frame.value (decodeInPlace (ofList l) frame.dataCount.toNat) =
      ⟨frame.addressID, frame.functionCode, frame.dataCount,
        bigEndianItems frame.dataCount.toNat l, frame.crcCheck⟩ := by
  have items : ∀ i ∈ List.range frame.dataCount.toNat,
      bufdataAt (decodeInPlace (ofList l) frame.dataCount.toNat) (sizeofBufdata * i) =
        ⟨bigEndian16 l (8 * i), bigEndian16 l (8 * i + 2), bigEndian32 l (8 * i + 4)⟩ :=
    fun i member => decodeInPlace_item (ofList l) _ i (List.mem_range.mp member)
  rw [ReceivedFrame.value, List.map_congr_left items, bigEndianItems]

end BmsFirmware.DataProcess.FrameDecode
