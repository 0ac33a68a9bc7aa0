/- Module: BmsFirmware/Rtc/StaleSample
   Source: application/rtc/sd3078.c
   Digest: Transfers whose data line is sampled from the output control register. -/

import BmsFirmware.Rtc.Sd3078

set_option autoImplicit false
set_option relaxedAutoImplicit false

namespace BmsFirmware.Rtc.StaleSample

open BmsFirmware.Library.ByteMemory
open BmsFirmware.Library.TwoWire
open BmsFirmware.Rtc.Sd3078

section Transfers

variable {s : Slave} (j : List Condition)

/-- The loop never sees the line, and ends with a stop. -/
private theorem ackLoop_stops (left : Nat) (w : Wire) (high : w.sda = true) :
    ackLoop GPIOC_ODR left w = ((1 : Byte), (iicStop w).2) := by
  induction left with
  | zero => rfl
  | succ left ih =>
    change (if w.sda then ackLoop GPIOC_ODR left else _ : StateM Wire Byte) w = _
    rw [if_pos high, ih]

/-- The stop that ends the wait, with a slave at rest. -/
private theorem iicStop_rest (rest : AtRest s) (sdaOut : Bool) :
    iicStop ⟨true, true, sdaOut, s, j⟩ =
      ((), free s (j ++ [.fall] ++ [.rise false] ++ [.stop])) := by
  obtain ⟨address, registers, pointer, phase, pulls⟩ := s
  obtain rfl := rest.idle
  obtain rfl := rest.released
  cases sdaOut <;> rfl

/-- The same stop, with a slave that is just acknowledging its address. -/
private theorem iicStop_taking {next : Field} (taking : s.phase = .taking next)
    (pulls : s.pulls = true) :
    iicStop ⟨true, true, false, s, j⟩ =
      ((), free { s with phase := .idle, pulls := false }
        (j ++ [.fall] ++ [.rise false] ++ [.stop])) := by
  obtain ⟨address, registers, pointer, phase, pulls'⟩ := s
  obtain rfl := taking
  obtain rfl := pulls
  rfl

private theorem out_free (rest : AtRest s) (p : StateM Wire Unit) :
    (do
      S_SET_IIC_SDA_OUT
      setScl false
      p : StateM Wire Unit) (free s j) = p ⟨false, true, true, s, j ++ [.fall]⟩ := by
  obtain ⟨address, registers, pointer, phase, pulls⟩ := s
  obtain rfl := rest.idle
  obtain rfl := rest.released
  rfl

/-- A byte between two transfers is not heard, and ends with a stop. -/
private theorem sendAcknowledged_free (rest : AtRest s) (b : Byte) :
    ∃ es, sendAcknowledged GPIOC_ODR b (free s j) = ((), free s (j ++ es)) := by
  obtain ⟨sda, es, bits, -⟩ := sendBits_low true s (j ++ [.fall]) 8 b
  rw [Slave.hear_idle rest.idle] at bits
  have sent : iicSendByte b (free s j) = _ := (out_free j rest (sendBits 8 b)).trans bits
  have risen : s.rise (!s.pulls) = s := by simp [Slave.rise, rest.idle]
  refine ⟨[.fall] ++ es ++ [.rise !s.pulls, .fall, .rise false, .stop], ?_⟩
  rw [sendAcknowledged_run, sent, iicWaitAck_low, ackLoop_stops 251 _ rfl, risen,
    iicStop_rest _ rest]
  simp only [List.append_assoc, List.cons_append, List.nil_append]

/-- The first byte of a transfer is acknowledged, and broken off all the same. -/
private theorem sendAcknowledged_address (rest : AtRest s) (own : s.address = sd3078_device_addr) :
    ∃ es, sendAcknowledged GPIOC_ODR sd3078_device_addr (iicStart (free s j)).2 =
      ((), free s ((iicStart (free s j)).2.journal ++ es)) ∧ .stop ∈ es := by
  let called : Slave := { s with phase := .receiving .address [] }
  let acknowledging : Slave := { s with phase := .taking .pointer, pulls := true }
  obtain ⟨sda, es, sent, -⟩ := iicSendByte_heard false (j ++ [.start] ++ [.fall]) true
    (rfl : called.phase = _) rest.released sd3078_device_addr
  have taken : called.take .address sd3078_device_addr = acknowledging := if_pos own.symm
  have risen : acknowledging.rise (!acknowledging.pulls) = acknowledging := rfl
  have back : { acknowledging with phase := .idle, pulls := false } = s := by
    obtain ⟨address, registers, pointer, phase, pulls⟩ := s
    obtain rfl := rest.idle
    obtain rfl := rest.released
    rfl
  refine ⟨es ++ [.rise false, .fall, .rise false, .stop], ?_, by simp⟩
  rw [sendAcknowledged_run, iicStart_free j rest, sent, taken, iicWaitAck_low,
    ackLoop_stops 251 _ rfl, risen, iicStop_taking _ rfl rfl, back]
  simp only [List.append_assoc, List.cons_append, List.nil_append]
  rfl

private theorem sendAll_free (rest : AtRest s) (bytes : List Byte) :
    ∃ es, sendAll GPIOC_ODR bytes (free s j) = ((), free s (j ++ es)) := by
  induction bytes generalizing j with
  | nil => exact ⟨[], by rw [List.append_nil]; rfl⟩
  | cons b bytes ih =>
    obtain ⟨es, first⟩ := sendAcknowledged_free j rest b
    obtain ⟨fs, others⟩ := ih (j ++ es)
    refine ⟨es ++ fs, (then_run _ (sendAll GPIOC_ODR bytes) _).trans ?_⟩
    rw [first, others, List.append_assoc]

/-- A transfer to the chip is broken off behind its first byte; the rest goes nowhere. -/
private theorem sendAll_started (rest : AtRest s) (own : s.address = sd3078_device_addr)
    (bytes : List Byte) :
    ∃ es, sendAll GPIOC_ODR (sd3078_device_addr :: bytes) (iicStart (free s j)).2 =
      ((), free s ((iicStart (free s j)).2.journal ++ es)) ∧ .stop ∈ es := by
  obtain ⟨es, first, stopped⟩ := sendAcknowledged_address j rest own
  obtain ⟨fs, others⟩ := sendAll_free ((iicStart (free s j)).2.journal ++ es) rest bytes
  refine ⟨es ++ fs, (then_run _ (sendAll GPIOC_ODR bytes) _).trans ?_,
    List.mem_append_left fs stopped⟩
  rw [first, others, List.append_assoc]

private theorem transfer_free (rest : AtRest s) (own : s.address = sd3078_device_addr)
    (bytes : List Byte) :
    ∃ j', transfer (sendAll GPIOC_ODR (sd3078_device_addr :: bytes)) (free s j) =
      ((), free s j') := by
  obtain ⟨es, sent, -⟩ := sendAll_started j rest own bytes
  exact ⟨_, by rw [transfer_run, sent]; exact congrArg _ (congrArg _ (iicStop_rest _ rest true))⟩

private theorem writeEnable_free (rest : AtRest s) (own : s.address = sd3078_device_addr) :
    ∃ j', sd3078WriteEnable GPIOC_ODR (free s j) = ((), free s j') := by
  obtain ⟨j₁, first⟩ := transfer_free j rest own [SD3078_CTR2, 0x80]
  obtain ⟨j₂, second⟩ := transfer_free j₁ rest own [SD3078_CTR1, 0x84]
  refine ⟨j₂, (then_run _ (transfer _) _).trans ?_⟩
  rw [first, second]

/-- A stop condition appears inside the transfer of a write. -/
private theorem writeTransfer_broken (rest : AtRest s) (own : s.address = sd3078_device_addr)
    (addr : Byte) (data : List Byte) :
    ¬Unbroken (writeTransfer GPIOC_ODR addr data) (iicStart (free s j)).2 := by
  obtain ⟨es, sent, stopped⟩ := sendAll_started j rest own (addr :: data)
  intro unbroken
  rw [Unbroken, writeTransfer, sent] at unbroken
  have counted : (free s ((iicStart (free s j)).2.journal ++ es)).journal.count .stop =
      (iicStart (free s j)).2.journal.count .stop + es.count .stop := List.count_append
  have some_stop := List.count_pos_iff.mpr stopped
  simp only at unbroken
  omega

/-- A write changes no register of the chip. -/
theorem writeData_writesNothing (rest : AtRest s) (own : s.address = sd3078_device_addr)
    (addr : Byte) (data : List Byte) :
    ∃ j', sd3078WriteData GPIOC_ODR addr data (free s j) = ((), free s j') := by
  obtain ⟨j₁, enabled⟩ := writeEnable_free j rest own
  obtain ⟨j₂, written⟩ := transfer_free j₁ rest own (addr :: data)
  obtain ⟨j₃, disabled⟩ := transfer_free j₂ rest own [SD3078_CTR1, 0x0, 0x0]
  refine ⟨j₃, (then_run _ (do
    transfer (writeTransfer GPIOC_ODR addr data)
    sd3078WriteDisable GPIOC_ODR) _).trans ?_⟩
  rw [enabled]
  refine (then_run _ (sd3078WriteDisable GPIOC_ODR) _).trans ?_
  rw [writeTransfer, written]
  exact disabled

end Transfers

/-! ### What is read -/

/-- The bytes of a read: the bit that the last wait has set, and then the acknowledge of
the master itself. -/
def staleBytes : Nat → List Byte
  | 0 => []
  | n + 1 => 0xFF :: List.replicate n 0

section Reads

variable (w : Wire)

private theorem drive_sda (f : Wire → Wire) : (drive f w).2.sda = (f w).sda := by
  change (settle w (f w)).sda = _
  unfold settle
  split <;> rfl

/-- The same bit, shifted in again and again. -/
private def shiftIn (bit : Bool) : Nat → Byte → Byte
  | 0, receive => receive
  | n + 1, receive => shiftIn bit n (receive <<< 1 + if bit then 1 else 0)

private theorem readBits_stale (n : Nat) (receive : Byte) :
    (readBits GPIOC_ODR n receive w).1 = shiftIn w.sda n receive ∧
      (readBits GPIOC_ODR n receive w).2.sda = w.sda := by
  induction n generalizing receive w with
  | zero => exact ⟨rfl, rfl⟩
  | succ n ih =>
    have same : (setScl true (setScl false w).2).2.sda = w.sda := by
      rw [setScl, drive_sda, setScl, drive_sda]
    have turn : readBits GPIOC_ODR (n + 1) receive w = _ :=
      sample_run GPIOC_ODR
        (fun bit => readBits GPIOC_ODR n (receive <<< 1 + if bit then 1 else 0)) w
    obtain ⟨value, kept⟩ := ih (setScl true (setScl false w).2).2
      (receive <<< 1 + if w.sda then 1 else 0)
    have seen : (setScl true (setScl false w).2).2.bit11 GPIOC_ODR = w.sda := same
    rw [turn, seen]
    exact ⟨by rw [value, same, shiftIn], kept.trans same⟩

private theorem acknowledge_sda (sda : Bool) : (acknowledge sda w).2.sda = sda := by
  change (setScl false (setScl true (setSda sda _).2).2).2.sda = sda
  rw [setScl, drive_sda, setScl, drive_sda, setSda, drive_sda]

/-- A byte is eight times the bit written last, and its acknowledge writes the next one. -/
private theorem iicReadByte_stale (ack : Bool) :
    (iicReadByte GPIOC_ODR ack w).1 = shiftIn w.sda 8 0 ∧
      (iicReadByte GPIOC_ODR ack w).2.sda = !ack := by
  have run : iicReadByte GPIOC_ODR ack w = _ :=
    readByte_run (readBits GPIOC_ODR 8 0) (if !ack then iicNAck else iicAck) w
  have listening : (S_SET_IIC_SDA_IN w).2.sda = w.sda := drive_sda w _
  obtain ⟨value, -⟩ := readBits_stale (S_SET_IIC_SDA_IN w).2 8 0
  rw [run]
  refine ⟨by rw [value, listening], ?_⟩
  cases ack with
  | true => exact acknowledge_sda _ false
  | false => exact acknowledge_sda _ true

private theorem readAll_run (b : StateM Wire Byte) (rest : StateM Wire (List Byte)) :
    (do
      let b ← b
      let rest ← rest
      return b :: rest : StateM Wire (List Byte)) w = ((b w).1 :: (rest (b w).2).1,
      (rest (b w).2).2) := rfl

private theorem readAll_succ (n : Nat) :
    (readAll GPIOC_ODR (n + 1) w).1 = shiftIn w.sda 8 0 ::
      (readAll GPIOC_ODR n (iicReadByte GPIOC_ODR (n ≠ 0) w).2).1 := by
  have run : readAll GPIOC_ODR (n + 1) w = _ :=
    readAll_run w (iicReadByte GPIOC_ODR (n ≠ 0)) (readAll GPIOC_ODR n)
  rw [run, (iicReadByte_stale w _).1]

/-- Behind an acknowledge of the master every byte is 0. -/
private theorem readAll_low (n : Nat) (low : w.sda = false) :
    (readAll GPIOC_ODR n w).1 = List.replicate n 0 := by
  induction n generalizing w with
  | zero => rfl
  | succ n ih =>
    rw [readAll_succ, low, List.replicate_succ]
    cases n with
    | zero => rfl
    | succ n => rw [ih _ (iicReadByte_stale w _).2]; rfl

private theorem readAll_high (n : Nat) (high : w.sda = true) :
    (readAll GPIOC_ODR n w).1 = staleBytes n := by
  cases n with
  | zero => rfl
  | succ n =>
    rw [readAll_succ, high, staleBytes]
    cases n with
    | zero => rfl
    | succ n => rw [readAll_low _ _ (iicReadByte_stale w _).2]; rfl

private theorem iicStop_sda : (iicStop w).2.sda = true := by
  change (setSda true _).2.sda = true
  rw [setSda, drive_sda]

private theorem waitAck_run (p : StateM Wire Byte) :
    (do
      S_SET_IIC_SDA_IN
      setSda true
      setScl true
      p : StateM Wire Byte) w = p (setScl true (setSda true (S_SET_IIC_SDA_IN w).2).2).2 := rfl

/-- Every wait for an acknowledge leaves the bit set. -/
private theorem sendAll_sda (b : Byte) : (sendAll GPIOC_ODR [b] w).2.sda = true := by
  have high (v : Wire) : (setScl true (setSda true v).2).2.sda = true := by
    rw [setScl, drive_sda, setSda, drive_sda]
  have wait (v : Wire) : iicWaitAck GPIOC_ODR v = _ := waitAck_run v (ackLoop GPIOC_ODR 251)
  have one : sendAll GPIOC_ODR [b] w = _ :=
    then_run (sendAcknowledged GPIOC_ODR b) (sendAll GPIOC_ODR []) w
  rw [one, sendAcknowledged_run, wait, ackLoop_stops 251 _ (high _)]
  exact iicStop_sda _

private theorem readTransfer_run {α : Type} (p q r : StateM Wire Unit) (t : StateM Wire α) :
    (do
      p
      q
      r
      t : StateM Wire α) w = t (r (q (p w).2).2).2 := rfl

/-- What a read returns has nothing to do with the chip. -/
theorem readData_stale (addr : Byte) (n : Nat) :
    (sd3078ReadData GPIOC_ODR addr n w).1 = staleBytes n := by
  rw [sd3078ReadData, transfer_run]
  have run (v : Wire) : readTransfer GPIOC_ODR addr n v = _ :=
    readTransfer_run v (sendAll GPIOC_ODR [sd3078_device_addr, addr]) iicStart
      (sendAll GPIOC_ODR [sd3078_device_addr + 1]) (readAll GPIOC_ODR n)
  rw [run]
  exact readAll_high _ n (sendAll_sda _ _)

end Reads

/-- The routines never read back what they have written, whatever the range and the bytes. -/
theorem sd3078_neverReadsBack (registers : Byte → Byte) (pointer : Byte) (r : Request) :
    ¬ReadsBack GPIOC_ODR (initialized registers pointer) r := by
  let chip : Slave := ⟨sd3078_device_addr, registers, pointer, .idle, false⟩
  have rest : AtRest chip := ⟨rfl, rfl⟩
  obtain ⟨j, enabled⟩ := writeEnable_free [] rest rfl
  intro back
  have unbroken := back.writeWhole
  change Unbroken _ (iicStart (sd3078WriteEnable GPIOC_ODR (free chip [])).2).2 at unbroken
  rw [enabled] at unbroken
  exact writeTransfer_broken j rest rfl r.addr r.data unbroken

/-- A byte for the user memory of the chip. -/
def ramByte : Request where
  addr := 0x71
  data := [0x55]
  nonempty := by simp
  short := by decide
  inside := by decide
  clear := by decide

/-- The byte that `sd3078_get_status` writes and reads back. -/
theorem sd3078_readsStale :
    ¬ReadsBack GPIOC_ODR (initialized (fun _ => 0) 0) ramByte ∧
      (sd3078ReadData GPIOC_ODR 0x71 1
        (sd3078WriteData GPIOC_ODR 0x71 [0x55] (initialized (fun _ => 0) 0)).2).1 = [0xFF] := by
  have read := readData_stale (sd3078WriteData GPIOC_ODR 0x71 [0x55] (initialized (fun _ => 0) 0)).2
    0x71 1
  refine ⟨fun back => ?_, read⟩
  exact absurd (back.same.symm.trans read) (by decide)

end BmsFirmware.Rtc.StaleSample
