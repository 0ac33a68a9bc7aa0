/- Module: BmsFirmware/Library/TwoWire
   Scope: general
   Digest: Conditions on a clock and a data line, and a slave with auto-incrementing registers. -/

import BmsFirmware.Library.ByteMemory
import Mathlib.Tactic.IntervalCases

set_option autoImplicit false
set_option relaxedAutoImplicit false

namespace BmsFirmware.Library.TwoWire

open BmsFirmware.Library.ByteMemory

structure Levels where
  clock : Bool
  data : Bool
  deriving DecidableEq

/-- What a change of the lines means to those who listen. -/
inductive Condition where
  | start
  | stop
  | rise (bit : Bool)
  | fall
  deriving DecidableEq

/-- The data line may change freely as long as the clock is low. -/
def condition (before after : Levels) : Option Condition :=
  match before.clock, after.clock with
  | false, false => none
  | false, true => some (.rise after.data)
  | true, false => some .fall
  | true, true => match before.data, after.data with
    | true, false => some .start
    | false, true => some .stop
    | _, _ => none

/-! ### A slave -/

/-- What a received byte is taken for. -/
inductive Field where
  | address
  | pointer
  | data
  deriving DecidableEq

/-- Between the bits of a byte, or in the acknowledge that follows it. -/
inductive Phase where
  | idle
  | receiving (field : Field) (bits : List Bool)
  | taking (next : Field)
  | turning
  | sending (rest : List Bool)
  | awaiting
  | resuming
  deriving DecidableEq

/-- A slave with its address, direction bit clear, and 256 registers; it pulls the data line
low or leaves it alone. -/
structure Slave where
  address : Byte
  registers : Byte → Byte
  pointer : Byte
  phase : Phase
  pulls : Bool

def byteOf (bits : List Bool) : Byte :=
  bits.foldl (fun b bit => b <<< 1 ||| (BitVec.ofBool bit).setWidth 8) 0

def bitsOf (b : Byte) : List Bool := (List.range 8).map b.getMsbD

namespace Slave

variable (s : Slave)

/-- Drive the first bit of the register under the pointer, and move on. -/
def load : Slave :=
  let byte := s.registers s.pointer
  { s with pointer := s.pointer + 1, phase := .sending (bitsOf byte).tail, pulls := !byte.msb }

/-- A whole byte has come in: acknowledge it, unless it is somebody else's address. -/
def take (field : Field) (byte : Byte) : Slave :=
  match field with
  | .address =>
      if byte = s.address then { s with phase := .taking .pointer, pulls := true }
      else if byte = s.address ||| 1 then { s with phase := .turning, pulls := true }
      else { s with phase := .idle }
  | .pointer => { s with pointer := byte, phase := .taking .data, pulls := true }
  | .data =>
      { s with
        registers := Function.update s.registers s.pointer byte
        pointer := s.pointer + 1
        phase := .taking .data
        pulls := true }

def rise (bit : Bool) : Slave :=
  match s.phase with
  | .receiving field bits => { s with phase := .receiving field (bits ++ [bit]) }
  | .awaiting => { s with phase := if bit then .idle else .resuming }
  | _ => s

/-- The slave changes what it drives only while the clock is low. -/
def fall : Slave :=
  match s.phase with
  | .receiving field bits => if bits.length = 8 then s.take field (byteOf bits) else s
  | .taking next => { s with phase := .receiving next [], pulls := false }
  | .turning => s.load
  | .sending (bit :: rest) => { s with phase := .sending rest, pulls := !bit }
  | .sending [] => { s with phase := .awaiting, pulls := false }
  | .resuming => s.load
  | _ => s

def react : Condition → Slave
  | .start => { s with phase := .receiving .address [], pulls := false }
  | .stop => { s with phase := .idle, pulls := false }
  | .rise bit => s.rise bit
  | .fall => s.fall

/-- A bit clocked out to the slave. -/
def hear (bit : Bool) : Slave := (s.rise (bit && !s.pulls)).fall

variable {s} {field : Field}

/-- A slave that nobody has called does not listen. -/
theorem hear_idle (idle : s.phase = .idle) (bits : List Bool) : bits.foldl hear s = s := by
  induction bits with
  | nil => rfl
  | cons bit bits ih =>
    have same : s.hear bit = s := by simp [hear, rise, fall, idle]
    rw [List.foldl_cons, same, ih]

private theorem take_phase (phase : Phase) (byte : Byte) :
    ({ s with phase := phase } : Slave).take field byte = s.take field byte := by
  cases field with
  | address =>
    unfold take
    split_ifs <;> rfl
  | pointer => rfl
  | data => rfl

private theorem hear_receiving {bits : List Bool} (here : s.phase = .receiving field bits)
    (released : s.pulls = false) (bit : Bool) :
    s.hear bit = if bits.length = 7 then s.take field (byteOf (bits ++ [bit]))
      else { s with phase := .receiving field (bits ++ [bit]) } := by
  have risen : s.rise (bit && !s.pulls) = { s with phase := .receiving field (bits ++ [bit]) } := by
    simp [rise, here, released]
  rw [hear, risen]
  simp only [fall, List.length_append, List.length_singleton, Nat.reduceEqDiff, take_phase]

private theorem hear_rest {bits rest : List Bool} (here : s.phase = .receiving field bits)
    (released : s.pulls = false) (eight : bits.length + rest.length = 8) (more : rest ≠ []) :
    rest.foldl hear s = s.take field (byteOf (bits ++ rest)) := by
  induction rest generalizing s bits with
  | nil => exact absurd rfl more
  | cons bit rest ih =>
    rw [List.foldl_cons, hear_receiving here released]
    simp only [List.length_cons] at eight
    cases rest with
    | nil =>
      rw [if_pos (by simpa using eight)]
      rfl
    | cons next rest =>
      simp only [List.length_cons] at eight
      have early : bits.length ≠ 7 := by omega
      have left : (bits ++ [bit]).length + (next :: rest).length = 8 := by
        simp
        omega
      have later := @ih { s with phase := .receiving field (bits ++ [bit]) } (bits ++ [bit]) rfl
        released left (by simp)
      rw [if_neg early, later, take_phase, List.append_assoc, List.singleton_append]

/-- The eighth bit of a byte lets the slave take it. -/
theorem hear_byte (here : s.phase = .receiving field []) (released : s.pulls = false)
    {bits : List Bool} (eight : bits.length = 8) :
    bits.foldl hear s = s.take field (byteOf bits) :=
  hear_rest here released (by simpa using eight) (by rintro rfl; simp at eight)

end Slave

/-! ### Auto-incrementing registers -/

/-- Bytes written to consecutive registers. -/
def store (registers : Byte → Byte) (pointer : Byte) : List Byte → Byte → Byte
  | [] => registers
  | b :: rest => store (Function.update registers pointer b) (pointer + 1) rest

/-- The contents of consecutive registers. -/
def dump (registers : Byte → Byte) (pointer : Byte) : Nat → List Byte
  | 0 => []
  | n + 1 => registers pointer :: dump registers (pointer + 1) n

section Registers

variable {registers registers' : Byte → Byte} {pointer : Byte}

/-- The register `n` places behind the pointer. -/
theorem pointer_add (pointer : Byte) (n : Nat) :
    pointer + 1 + BitVec.ofNat 8 n = pointer + BitVec.ofNat 8 (n + 1) := by
  rw [BitVec.add_assoc, Nat.add_comm n, BitVec.ofNat_add]
  rfl

theorem store_other {bytes : List Byte} {register : Byte}
    (other : ∀ i < bytes.length, register ≠ pointer + BitVec.ofNat 8 i) :
    store registers pointer bytes register = registers register := by
  induction bytes generalizing registers pointer with
  | nil => rfl
  | cons b bytes ih =>
    have here : register ≠ pointer := by simpa using other 0 (by simp)
    have later : ∀ i < bytes.length, register ≠ pointer + 1 + BitVec.ofNat 8 i := by
      intro i bound
      rw [pointer_add]
      exact other (i + 1) (by simpa using bound)
    rw [store, ih later, Function.update_of_ne here]

theorem dump_congr {n : Nat}
    (same : ∀ i < n, registers (pointer + BitVec.ofNat 8 i) =
      registers' (pointer + BitVec.ofNat 8 i)) :
    dump registers pointer n = dump registers' pointer n := by
  induction n generalizing pointer with
  | zero => rfl
  | succ n ih =>
    have first : registers pointer = registers' pointer := by simpa using same 0 (by simp)
    have rest := @ih (pointer + 1) fun i bound => by
      rw [pointer_add]
      exact same (i + 1) (by omega)
    rw [dump, dump, first, rest]

/-- What has been written is there to be read, as long as the pointer does not come round. -/
theorem dump_store {bytes : List Byte} (short : bytes.length ≤ 256) :
    dump (store registers pointer bytes) pointer bytes.length = bytes := by
  induction bytes generalizing registers pointer with
  | nil => rfl
  | cons b bytes ih =>
    rw [List.length_cons] at short
    have kept : ∀ i < bytes.length, pointer ≠ pointer + 1 + BitVec.ofNat 8 i := by
      intro i bound same
      rw [pointer_add] at same
      have places := congrArg BitVec.toNat same
      simp only [BitVec.toNat_add, BitVec.toNat_ofNat] at places
      have size := pointer.isLt
      omega
    rw [List.length_cons, dump, store, ih (by omega), store_other kept, Function.update_self]

end Registers

/-! ### Bytes and bits -/

theorem byteOf_bitsOf (b : Byte) : byteOf (bitsOf b) = b := by
  apply BitVec.eq_of_getLsbD_eq
  intro i bound
  have bits : bitsOf b = [b.getMsbD 0, b.getMsbD 1, b.getMsbD 2, b.getMsbD 3, b.getMsbD 4,
    b.getMsbD 5, b.getMsbD 6, b.getMsbD 7] := rfl
  simp only [bits, byteOf, List.foldl_cons, List.foldl_nil, BitVec.getLsbD_or,
    BitVec.getLsbD_shiftLeft, BitVec.getLsbD_setWidth, BitVec.getMsbD]
  interval_cases i
  all_goals simp

end BmsFirmware.Library.TwoWire
