/- Module: BmsFirmware/Rtc/PinSample
   Source: application/rtc/sd3078.c
   Digest: The same transfers with the data line sampled from the input status register. -/

import BmsFirmware.Rtc.Sd3078

set_option autoImplicit false
set_option relaxedAutoImplicit false

namespace BmsFirmware.Rtc.PinSample

open BmsFirmware.Library.ByteMemory
open BmsFirmware.Library.TwoWire
open BmsFirmware.Rtc.Sd3078

/-! ### Routines inside a transfer -/

/-- With the clock low, a routine brings the slave from one state to another, returns a
result, and shows no stop meanwhile. -/
def Brings {α : Type} (p : StateM Wire α) (s s' : Slave) (result : α) : Prop :=
  ∀ sda sdaOut j, ∃ sda' sdaOut' es,
    p ⟨false, sda, sdaOut, s, j⟩ = (result, ⟨false, sda', sdaOut', s', j ++ es⟩) ∧ .stop ∉ es

section Sequences

variable {α β : Type} {p : StateM Wire α} {s s' s'' : Slave} {a : α} {b : β}

private theorem Brings.pure (s : Slave) (a : α) : Brings (pure a) s s a :=
  fun sda sdaOut j => ⟨sda, sdaOut, [], by rw [List.append_nil]; rfl, by simp⟩

private theorem Brings.bind {q : α → StateM Wire β} (first : Brings p s s' a)
    (second : Brings (q a) s' s'' b) : Brings (p >>= q) s s'' b := by
  intro sda sdaOut j
  obtain ⟨sda₁, sdaOut₁, es, run₁, quiet₁⟩ := first sda sdaOut j
  obtain ⟨sda₂, sdaOut₂, fs, run₂, quiet₂⟩ := second sda₁ sdaOut₁ (j ++ es)
  refine ⟨sda₂, sdaOut₂, es ++ fs, ?_, by simp [quiet₁, quiet₂]⟩
  change q (p _).1 (p _).2 = _
  rw [run₁, run₂, List.append_assoc]

private theorem Brings.unbroken (brings : Brings p s s' a) (sda sdaOut : Bool)
    (j : List Condition) : Unbroken p ⟨false, sda, sdaOut, s, j⟩ := by
  obtain ⟨sda', sdaOut', es, run, quiet⟩ := brings sda sdaOut j
  rw [Unbroken, run]
  simp [List.count_append, List.count_eq_zero.mpr quiet]

end Sequences

/-! ### Bytes to the slave -/

section Sending

variable {s : Slave}

private theorem ackLoop_seen (left : Nat) (w : Wire) (low : w.levels.data = false) :
    ackLoop .istat (left + 1) w = ((0 : Byte), (setScl false w).2) := by
  change (if w.levels.data then ackLoop .istat left else _ : StateM Wire Byte) w = _
  rw [low]
  rfl

/-- An acknowledge that the slave gives. -/
private theorem iicWaitAck_seen (sda sdaOut : Bool) (j : List Condition) (pulls : s.pulls = true)
    (steady : s.rise false = s) :
    iicWaitAck .istat ⟨false, sda, sdaOut, s, j⟩ =
      ((0 : Byte), ⟨false, true, false, s.fall, j ++ [.rise false] ++ [.fall]⟩) := by
  have low : (!s.pulls) = false := by rw [pulls]; rfl
  rw [iicWaitAck_low, low, steady, ackLoop_seen 250 _ (by simp [Wire.levels, pulls])]
  rfl

/-- A byte that the slave takes. -/
private theorem sendAcknowledged_taken {field : Field} {b : Byte}
    (here : s.phase = .receiving field []) (released : s.pulls = false)
    (pulls : (s.take field b).pulls = true)
    (steady : (s.take field b).rise false = s.take field b) :
    Brings (sendAcknowledged .istat b) s (s.take field b).fall () := by
  intro sda sdaOut j
  obtain ⟨sda', es, sent, quiet⟩ := iicSendByte_heard sda j sdaOut here released b
  refine ⟨true, false, es ++ [.rise false, .fall], ?_, by simpa using quiet⟩
  rw [sendAcknowledged_run, sent, iicWaitAck_seen _ _ _ pulls steady, List.append_assoc,
    List.append_assoc]
  rfl

end Sending

section Chip

variable (registers : Byte → Byte) (pointer : Byte)

/-- The chip, ready for a byte. -/
def listening (field : Field) : Slave :=
  ⟨sd3078_device_addr, registers, pointer, .receiving field [], false⟩

/-- The chip between two transfers. -/
def resting : Slave := ⟨sd3078_device_addr, registers, pointer, .idle, false⟩

/-- The chip with the first bit of the register under the pointer on the line. -/
def offering : Slave := (resting registers pointer).load

private theorem address_taken :
    Brings (sendAcknowledged .istat sd3078_device_addr) (listening registers pointer .address)
      (listening registers pointer .pointer) () :=
  sendAcknowledged_taken (s := listening registers pointer .address) rfl rfl rfl rfl

private theorem readAddress_taken :
    Brings (sendAcknowledged .istat (sd3078_device_addr + 1)) (listening registers pointer .address)
      (offering registers pointer) () := by
  have called : (listening registers pointer .address).take .address (sd3078_device_addr + 1) =
      { listening registers pointer .address with phase := .turning, pulls := true } := by
    have own : (listening registers pointer .address).address = sd3078_device_addr := rfl
    rw [Slave.take, own]
    rfl
  have taken := sendAcknowledged_taken (s := listening registers pointer .address)
    (b := sd3078_device_addr + 1) rfl rfl (by rw [called]) (by rw [called]; rfl)
  rwa [called] at taken

private theorem pointer_taken (b : Byte) :
    Brings (sendAcknowledged .istat b) (listening registers pointer .pointer)
      (listening registers b .data) () :=
  sendAcknowledged_taken (s := listening registers pointer .pointer) rfl rfl rfl rfl

private theorem data_taken (b : Byte) :
    Brings (sendAcknowledged .istat b) (listening registers pointer .data)
      (listening (Function.update registers pointer b) (pointer + 1) .data) () :=
  sendAcknowledged_taken (s := listening registers pointer .data) rfl rfl rfl rfl

/-- Data bytes go into consecutive registers. -/
private theorem sendAll_stored (bytes : List Byte) :
    Brings (sendAll .istat bytes) (listening registers pointer .data)
      (listening (store registers pointer bytes) (pointer + BitVec.ofNat 8 bytes.length) .data)
      () := by
  induction bytes generalizing registers pointer with
  | nil =>
    rw [List.length_nil, BitVec.add_zero]
    exact Brings.pure _ ()
  | cons b bytes ih =>
    rw [List.length_cons, ← pointer_add]
    exact (data_taken registers pointer b).bind (ih _ _)

/-! ### Bytes from the slave -/

/-- A bit comes in behind those that are there. -/
private theorem shift_in (b : Byte) (bit : Bool) :
    b <<< 1 + (if bit then (1 : Byte) else 0) = b <<< 1 ||| (BitVec.ofBool bit).setWidth 8 := by
  revert b bit
  decide +kernel

/-- With the clock high, the slave has the bits `rest` yet to send. -/
def midByte (sda pulls : Bool) (rest : List Bool) (j : List Condition) : Wire :=
  ⟨true, sda, false, ⟨sd3078_device_addr, registers, pointer, .sending rest, pulls⟩, j⟩

private theorem readBits_rest (sda pulls : Bool) (rest : List Bool) (j : List Condition)
    (receive : Byte) :
    ∃ pulls' es, readBits .istat rest.length receive (midByte registers pointer sda pulls rest j) =
      (rest.foldl (fun (b : Byte) bit => b <<< 1 ||| (BitVec.ofBool bit).setWidth 8) receive,
        midByte registers pointer sda pulls' [] (j ++ es)) ∧ .stop ∉ es := by
  induction rest generalizing pulls j receive with
  | nil => exact ⟨pulls, [], by rw [List.append_nil]; rfl, by simp⟩
  | cons bit rest ih =>
    have turn := sample_run .istat
      (fun bit => readBits .istat rest.length (receive <<< 1 + if bit then 1 else 0))
      (midByte registers pointer sda pulls (bit :: rest) j)
    have sampled : (setScl true (setScl false
        (midByte registers pointer sda pulls (bit :: rest) j)).2).2 =
        midByte registers pointer sda (!bit) rest (j ++ [.fall] ++ [.rise !!bit]) := rfl
    have line : (midByte registers pointer sda (!bit) rest
        (j ++ [.fall] ++ [.rise !!bit])).bit11 .istat = bit := by
      simp [midByte, Wire.bit11, Wire.levels]
    obtain ⟨pulls', es, run, quiet⟩ := ih (!bit) (j ++ [.fall] ++ [.rise !!bit])
      (receive <<< 1 + if bit then 1 else 0)
    refine ⟨pulls', [.fall, .rise !!bit] ++ es, ?_, by simpa using quiet⟩
    refine turn.trans ?_
    rw [sampled, line, run, shift_in, List.append_assoc j, List.append_assoc j]
    rfl

/-- All eight bits, of which the first one is on the line already. -/
private theorem readBits_offered (sda : Bool) (j : List Condition) :
    ∃ pulls es, readBits .istat 8 0 ⟨false, sda, false, offering registers pointer, j⟩ =
      (registers pointer, midByte registers (pointer + 1) sda pulls [] (j ++ es)) ∧ .stop ∉ es := by
  let byte := registers pointer
  let bit := byte.msb
  have turn := sample_run .istat
    (fun bit => readBits .istat 7 ((0 : Byte) <<< 1 + if bit then 1 else 0))
    ⟨false, sda, false, offering registers pointer, j⟩
  have sampled : (setScl true (setScl false
      ⟨false, sda, false, offering registers pointer, j⟩).2).2 =
      midByte registers (pointer + 1) sda (!bit) (bitsOf byte).tail (j ++ [.rise !!bit]) := rfl
  have line : (midByte registers (pointer + 1) sda (!bit) (bitsOf byte).tail
      (j ++ [.rise !!bit])).bit11 .istat = bit := by
    simp [midByte, Wire.bit11, Wire.levels]
  have whole : (bitsOf byte).tail.foldl
      (fun (b : Byte) bit => b <<< 1 ||| (BitVec.ofBool bit).setWidth 8)
      ((0 : Byte) <<< 1 ||| (BitVec.ofBool bit).setWidth 8) = byte := byteOf_bitsOf byte
  obtain ⟨pulls, es, run, quiet⟩ := readBits_rest registers (pointer + 1) sda (!bit)
    (bitsOf byte).tail (j ++ [.rise !!bit])
    ((0 : Byte) <<< 1 + if bit then 1 else 0)
  refine ⟨pulls, [.rise !!bit] ++ es, turn.trans ?_, by simpa using quiet⟩
  rw [sampled, line, ← List.append_assoc]
  refine run.trans ?_
  rw [shift_in, whole]

private theorem acknowledge_mid (bit sda pulls : Bool) (j : List Condition) :
    acknowledge bit (midByte registers pointer sda pulls [] j) =
      ((), ⟨false, bit, true,
        if bit then resting registers pointer else offering registers pointer,
        j ++ [.fall] ++ [.rise bit] ++ [.fall]⟩) := by
  cases bit with
  | true => rfl
  | false => rfl

/-- A byte of the chip, and what the acknowledge of the master makes of it. -/
private theorem iicReadByte_offered (ack : Bool) :
    Brings (iicReadByte .istat ack) (offering registers pointer)
      (if !ack then resting registers (pointer + 1) else offering registers (pointer + 1))
      (registers pointer) := by
  intro sda sdaOut j
  obtain ⟨pulls, es, read, quiet⟩ := readBits_offered registers pointer sda j
  have acknowledged : (if !ack then iicNAck else iicAck) = acknowledge !ack := by
    cases ack with
    | true => rfl
    | false => rfl
  have run := readByte_run (readBits .istat 8 0) (if !ack then iicNAck else iicAck)
    ⟨false, sda, sdaOut, offering registers pointer, j⟩
  have listened : (S_SET_IIC_SDA_IN ⟨false, sda, sdaOut, offering registers pointer, j⟩).2 =
      ⟨false, sda, false, offering registers pointer, j⟩ := rfl
  refine ⟨!ack, true, es ++ [.fall, .rise !ack, .fall], run.trans ?_, by simpa using quiet⟩
  rw [listened, read, acknowledged, acknowledge_mid]
  simp only [List.append_assoc, List.cons_append, List.nil_append]

/-- The registers come one after another, and the last byte ends the sending. -/
private theorem readAll_dumped (n : Nat) :
    Brings (readAll .istat (n + 1)) (offering registers pointer)
      (resting registers (pointer + BitVec.ofNat 8 (n + 1)))
      (dump registers pointer (n + 1)) := by
  induction n generalizing pointer with
  | zero => exact (iicReadByte_offered registers pointer false).bind (Brings.pure _ _)
  | succ n ih =>
    have first := iicReadByte_offered registers pointer true
    have others := ih (pointer + 1)
    rw [pointer_add] at others
    exact first.bind (others.bind (Brings.pure _ _))

/-! ### Transfers -/

private theorem iicStart_again :
    Brings iicStart (listening registers pointer .data) (listening registers pointer .address) () :=
  fun _ _ _ => ⟨false, true, [.rise true] ++ [.start] ++ [.fall], by
    simp only [← List.append_assoc]
    rfl, by simp⟩

private theorem writeTransfer_stored (addr : Byte) (data : List Byte) :
    Brings (writeTransfer .istat addr data) (listening registers pointer .address)
      (listening (store registers addr data) (addr + BitVec.ofNat 8 data.length) .data) () :=
  (address_taken registers pointer).bind
    ((pointer_taken registers pointer addr).bind (sendAll_stored registers addr data))

private theorem readTransfer_dumped (addr : Byte) (n : Nat) :
    Brings (readTransfer .istat addr (n + 1)) (listening registers pointer .address)
      (resting registers (addr + BitVec.ofNat 8 (n + 1))) (dump registers addr (n + 1)) := by
  have pointed : Brings (sendAll .istat [sd3078_device_addr, addr])
      (listening registers pointer .address) (listening registers addr .data) () :=
    (address_taken registers pointer).bind
      ((pointer_taken registers pointer addr).bind (Brings.pure _ ()))
  have turned : Brings (sendAll .istat [sd3078_device_addr + 1]) (listening registers addr .address)
      (offering registers addr) () :=
    (readAddress_taken registers addr).bind (Brings.pure _ ())
  exact pointed.bind ((iicStart_again registers addr).bind
    (turned.bind (readAll_dumped registers addr n)))

private theorem iicStop_low {s : Slave} (released : s.pulls = false) (sda sdaOut : Bool)
    (j : List Condition) :
    iicStop ⟨false, sda, sdaOut, s, j⟩ =
      ((), free { s with phase := .idle } (j ++ [.rise false] ++ [.stop])) := by
  obtain ⟨address, registers, pointer, phase, pulls⟩ := s
  obtain rfl : pulls = false := released
  cases phase <;> rfl

private theorem transfer_brings {α : Type} {body : StateM Wire α} {s : Slave} {a : α}
    (brings : Brings body (listening registers pointer .address) s a) (released : s.pulls = false)
    (j : List Condition) :
    ∃ j', transfer body (free (resting registers pointer) j) =
      (a, free { s with phase := .idle } j') := by
  have started : iicStart (free (resting registers pointer) j) =
      ((), ⟨false, false, true, listening registers pointer .address, j ++ [.start] ++ [.fall]⟩) :=
    iicStart_free j ⟨rfl, rfl⟩
  obtain ⟨sda, sdaOut, es, run, -⟩ := brings false true (j ++ [.start] ++ [.fall])
  rw [transfer_run, started, run, iicStop_low released]
  exact ⟨_, rfl⟩

end Chip

/-- From rest to rest, with a change of the registers. -/
def Rewrites (p : StateM Wire Unit) (change : (Byte → Byte) → Byte → Byte) : Prop :=
  ∀ registers pointer j, ∃ pointer' j', p (free (resting registers pointer) j) =
    ((), free (resting (change registers) pointer') j')

section Changes

variable {p q : StateM Wire Unit} {f g : (Byte → Byte) → Byte → Byte}

private theorem Rewrites.andThen (first : Rewrites p f) (second : Rewrites q g) :
    Rewrites (do p; q) fun registers => g (f registers) := by
  intro registers pointer j
  obtain ⟨pointer₁, j₁, run₁⟩ := first registers pointer j
  obtain ⟨pointer₂, j₂, run₂⟩ := second (f registers) pointer₁ j₁
  refine ⟨pointer₂, j₂, (then_run p q _).trans ?_⟩
  rw [run₁, run₂]

private theorem writeTransfer_rewrites (addr : Byte) (data : List Byte) :
    Rewrites (transfer (writeTransfer .istat addr data)) fun registers =>
      store registers addr data := by
  intro registers pointer j
  obtain ⟨j', run⟩ := transfer_brings registers pointer
    (writeTransfer_stored registers pointer addr data) rfl j
  exact ⟨_, j', run⟩

/-- What enabling and disabling writes does to the registers. -/
def enabled (registers : Byte → Byte) : Byte → Byte :=
  store (store registers SD3078_CTR2 [0x80]) SD3078_CTR1 [0x84]

def disabled (registers : Byte → Byte) : Byte → Byte := store registers SD3078_CTR1 [0x0, 0x0]

private theorem writeEnable_rewrites : Rewrites (sd3078WriteEnable .istat) enabled :=
  (writeTransfer_rewrites SD3078_CTR2 [0x80]).andThen (writeTransfer_rewrites SD3078_CTR1 [0x84])

private theorem writeData_rewrites (addr : Byte) (data : List Byte) :
    Rewrites (sd3078WriteData .istat addr data) fun registers =>
      disabled (store (enabled registers) addr data) :=
  writeEnable_rewrites.andThen
    ((writeTransfer_rewrites addr data).andThen (writeTransfer_rewrites SD3078_CTR1 [0x0, 0x0]))

end Changes

/-! ### Reading back -/

private theorem brings_started {α : Type} {body : StateM Wire α} {registers : Byte → Byte}
    {pointer : Byte} {s : Slave} {a : α}
    (brings : Brings body (listening registers pointer .address) s a) (j : List Condition) :
    Unbroken body (iicStart (free (resting registers pointer) j)).2 := by
  have started : (iicStart (free (resting registers pointer) j)).2 =
      ⟨false, false, true, listening registers pointer .address, j ++ [.start] ++ [.fall]⟩ :=
    congrArg Prod.snd (iicStart_free j ⟨rfl, rfl⟩)
  rw [started]
  exact brings.unbroken false true _

/-- Disabling writes leaves the registers of a request alone. -/
private theorem dump_disabled (registers : Byte → Byte) (r : Request) :
    dump (disabled (store registers r.addr r.data)) r.addr r.data.length = r.data := by
  have kept : dump (disabled (store registers r.addr r.data)) r.addr r.data.length =
      dump (store registers r.addr r.data) r.addr r.data.length := by
    apply dump_congr
    intro i bound
    apply store_other
    intro k two same
    obtain ⟨notCtr1, notCtr2⟩ := r.clear i bound
    have inside := r.inside
    have place := congrArg BitVec.toNat same
    simp only [BitVec.toNat_add, BitVec.toNat_ofNat, List.length_cons, List.length_nil] at place two
    have ctr1 : SD3078_CTR1.toNat = 15 := rfl
    have ctr2 : SD3078_CTR2.toNat = 16 := rfl
    omega
  rw [kept, dump_store r.short.le]

/-- With the input status register the routines read back what they have written, whatever
the range and the bytes. -/
theorem inputStatus_readsBack (registers : Byte → Byte) (pointer : Byte) (r : Request) :
    ReadsBack .istat (initialized registers pointer) r := by
  obtain ⟨pointer₁, j₁, opened⟩ := writeEnable_rewrites registers pointer []
  obtain ⟨pointer₂, j₂, written⟩ := writeData_rewrites r.addr r.data registers pointer []
  obtain ⟨n, length⟩ := Nat.exists_eq_succ_of_ne_zero (List.length_eq_zero_iff.not.mpr r.nonempty)
  have wrote : (sd3078WriteData .istat r.addr r.data (initialized registers pointer)).2 =
      free (resting (disabled (store (enabled registers) r.addr r.data)) pointer₂) j₂ :=
    congrArg Prod.snd written
  have reads := readTransfer_dumped (disabled (store (enabled registers) r.addr r.data)) pointer₂
    r.addr n
  rw [← Nat.succ_eq_add_one, ← length] at reads
  refine ⟨?_, ?_, ?_⟩
  · obtain ⟨j₃, run⟩ := transfer_brings _ _ reads rfl j₂
    rw [wrote, sd3078ReadData, run]
    exact dump_disabled (enabled registers) r
  · have ready : (sd3078WriteEnable .istat (initialized registers pointer)).2 =
        free (resting (enabled registers) pointer₁) j₁ := congrArg Prod.snd opened
    rw [ready]
    exact brings_started (writeTransfer_stored _ _ r.addr r.data) j₁
  · rw [wrote]
    exact brings_started reads j₂

end BmsFirmware.Rtc.PinSample
