/- Module: BmsFirmware/Rtc/Sd3078
   Source: application/rtc/sd3078.c
   Digest: The bit-banged transfers of the clock chip, down to its two pins. -/

import BmsFirmware.Library.TwoWire

set_option autoImplicit false
set_option relaxedAutoImplicit false

namespace BmsFirmware.Rtc.Sd3078

open BmsFirmware.Library.ByteMemory
open BmsFirmware.Library.TwoWire

def sd3078_device_addr : Byte := 0x64
def SD3078_CTR1 : Byte := 0x0F
def SD3078_CTR2 : Byte := 0x10

/-- Bits 12 and 11 of the output control register of port C, whether pin 11 is an output,
and the slave at the other end; `journal` is what the lines have shown. -/
structure Wire where
  scl : Bool
  sda : Bool
  sdaOut : Bool
  slave : Slave
  journal : List Condition

/-- The data line is pulled up, and low where the slave or an output of the master is. -/
def Wire.levels (w : Wire) : Levels := ⟨w.scl, (!w.sdaOut || w.sda) && !w.slave.pulls⟩

/-- The output control register holds what was written last, the input status register
what the pin shows. -/
inductive GpioRegister where
  | octl
  | istat
  deriving DecidableEq

/-- Bit 11 of a register. -/
def Wire.bit11 (w : Wire) : GpioRegister → Bool
  | .octl => w.sda
  | .istat => w.levels.data

/-- The register at `GPIOC_ODR_Addr`, offset 12, whose bits `PCout` reads and writes. -/
def GPIOC_ODR : GpioRegister := .octl

/-! ### Pins -/

/-- The slave sees a change of the lines. -/
def settle (before after : Wire) : Wire :=
  match condition before.levels after.levels with
  | none => after
  | some c => { after with slave := after.slave.react c, journal := after.journal ++ [c] }

/-- A write to the port. -/
def drive (f : Wire → Wire) : StateM Wire Unit := modify fun w => settle w (f w)

def S_SET_IIC_SDA_OUT : StateM Wire Unit := drive fun w => { w with sdaOut := true }
def S_SET_IIC_SDA_IN : StateM Wire Unit := drive fun w => { w with sdaOut := false }
def setScl (v : Bool) : StateM Wire Unit := drive fun w => { w with scl := v }
def setSda (v : Bool) : StateM Wire Unit := drive fun w => { w with sda := v }

section Routines

-- The register that reads of `S_IIC_SDA_OUT` look at; the code has `GPIOC_ODR`.
variable (sampled : GpioRegister)

def readSda : StateM Wire Bool := return (← get).bit11 sampled

/-! ### Bits and bytes -/

def iicStart : StateM Wire Unit := do
  S_SET_IIC_SDA_OUT
  setSda true
  setScl true
  setSda false
  setScl false

def iicStop : StateM Wire Unit := do
  S_SET_IIC_SDA_OUT
  setScl false
  setSda false
  setScl true
  setSda true

/-- `while (S_IIC_SDA_OUT)`, with so many counts left before the time-out. -/
def ackLoop : Nat → StateM Wire Byte
  | 0 => do
      iicStop
      return 1
  | left + 1 => do
      if ← readSda sampled then ackLoop left
      else
        setScl false
        return 0

def iicWaitAck : StateM Wire Byte := do
  S_SET_IIC_SDA_IN
  setSda true
  setScl true
  ackLoop sampled 251

/-- `IIC_Ack` and `IIC_NAck`. -/
def acknowledge (sda : Bool) : StateM Wire Unit := do
  setScl false
  S_SET_IIC_SDA_OUT
  setSda sda
  setScl true
  setScl false

def iicAck : StateM Wire Unit := acknowledge false
def iicNAck : StateM Wire Unit := acknowledge true

def sendBits : Nat → Byte → StateM Wire Unit
  | 0, _ => return
  | n + 1, txd => do
      setSda ((txd &&& 0x80) >>> 7 ≠ 0)
      setScl true
      setScl false
      sendBits n (txd <<< 1)

def iicSendByte (txd : Byte) : StateM Wire Unit := do
  S_SET_IIC_SDA_OUT
  setScl false
  sendBits 8 txd

def readBits : Nat → Byte → StateM Wire Byte
  | 0, receive => return receive
  | n + 1, receive => do
      setScl false
      setScl true
      let bit ← readSda sampled
      readBits n (receive <<< 1 + if bit then 1 else 0)

def iicReadByte (ack : Bool) : StateM Wire Byte := do
  S_SET_IIC_SDA_IN
  let receive ← readBits sampled 8 0
  (if !ack then iicNAck else iicAck)
  return receive

/-! ### Transfers -/

/-- A byte, and the acknowledge whose result nothing looks at. -/
def sendAcknowledged (txd : Byte) : StateM Wire Unit := do
  iicSendByte txd
  let _ ← iicWaitAck sampled

def sendAll : List Byte → StateM Wire Unit
  | [] => return
  | b :: rest => do
      sendAcknowledged sampled b
      sendAll rest

/-- A start, what follows it, and a stop. -/
def transfer {α : Type} (body : StateM Wire α) : StateM Wire α := do
  iicStart
  let result ← body
  iicStop
  return result

def sd3078WriteEnable : StateM Wire Unit := do
  transfer (sendAll sampled [sd3078_device_addr, SD3078_CTR2, 0x80])
  transfer (sendAll sampled [sd3078_device_addr, SD3078_CTR1, 0x84])

def sd3078WriteDisable : StateM Wire Unit :=
  transfer (sendAll sampled [sd3078_device_addr, SD3078_CTR1, 0x0, 0x0])

/-- The bytes of the transfer of `sd3078_write_data`. -/
def writeTransfer (addr : Byte) (data : List Byte) : StateM Wire Unit :=
  sendAll sampled (sd3078_device_addr :: addr :: data)

def sd3078WriteData (addr : Byte) (data : List Byte) : StateM Wire Unit := do
  sd3078WriteEnable sampled
  transfer (writeTransfer sampled addr data)
  sd3078WriteDisable sampled

/-- So many bytes, of which the last one is not acknowledged. -/
def readAll : Nat → StateM Wire (List Byte)
  | 0 => return []
  | n + 1 => do
      let b ← iicReadByte sampled (n ≠ 0)
      let rest ← readAll n
      return b :: rest

/-- What `sd3078_read_data` does between its first start and its stop. -/
def readTransfer (addr : Byte) (length : Nat) : StateM Wire (List Byte) := do
  sendAll sampled [sd3078_device_addr, addr]
  iicStart
  sendAll sampled [sd3078_device_addr + 1]
  readAll sampled length

def sd3078ReadData (addr : Byte) (length : Nat) : StateM Wire (List Byte) :=
  transfer (readTransfer sampled addr length)

end Routines

/-- After `sd3078_gpio_init`, with a slave that waits for a start. -/
def initialized (registers : Byte → Byte) (pointer : Byte) : Wire :=
  ⟨true, true, true, ⟨sd3078_device_addr, registers, pointer, .idle, false⟩, []⟩

/-! ### Runs -/

private theorem acknowledged_run (p : StateM Wire Unit) (q : StateM Wire Byte) (w : Wire) :
    (do
      p
      let _ ← q : StateM Wire Unit) w = ((), (q (p w).2).2) := rfl

theorem sendAcknowledged_run (sampled : GpioRegister) (b : Byte) (w : Wire) :
    sendAcknowledged sampled b w = ((), (iicWaitAck sampled (iicSendByte b w).2).2) :=
  acknowledged_run (iicSendByte b) (iicWaitAck sampled) w

theorem then_run {α β : Type} (p : StateM Wire α) (q : StateM Wire β) (w : Wire) :
    (do
      let _ ← p
      q : StateM Wire β) w = q (p w).2 := rfl

/-- One turn of the loop over the bits of a byte that is read. -/
theorem sample_run (sampled : GpioRegister) (q : Bool → StateM Wire Byte) (w : Wire) :
    (do
      setScl false
      setScl true
      let bit ← readSda sampled
      q bit : StateM Wire Byte) w =
      q ((setScl true (setScl false w).2).2.bit11 sampled) (setScl true (setScl false w).2).2 := rfl

theorem readByte_run (p : StateM Wire Byte) (q : StateM Wire Unit) (w : Wire) :
    (do
      S_SET_IIC_SDA_IN
      let receive ← p
      q
      return receive : StateM Wire Byte) w =
      ((p (S_SET_IIC_SDA_IN w).2).1, (q (p (S_SET_IIC_SDA_IN w).2).2).2) := rfl

theorem transfer_run {α : Type} (body : StateM Wire α) (w : Wire) :
    transfer body w = ((body (iicStart w).2).1, (iicStop (body (iicStart w).2).2).2) := rfl

/-! ### What the slave sees -/

section Pins

variable (sda : Bool) (s : Slave) (j : List Condition)

/-- The bits of a byte as they go out. -/
def sentBits : Nat → Byte → List Bool
  | 0, _ => []
  | n + 1, txd => decide ((txd &&& 0x80) >>> 7 ≠ 0) :: sentBits n (txd <<< 1)

theorem sendBits_low (n : Nat) (txd : Byte) :
    ∃ sda' es, sendBits n txd ⟨false, sda, true, s, j⟩ =
      ((), ⟨false, sda', true, (sentBits n txd).foldl Slave.hear s, j ++ es⟩) ∧ .stop ∉ es := by
  induction n generalizing txd sda s j with
  | zero => exact ⟨sda, [], by rw [List.append_nil]; rfl, by simp⟩
  | succ n ih =>
    let bit := decide ((txd &&& 0x80) >>> 7 ≠ 0)
    obtain ⟨sda', es, run, quiet⟩ := ih bit (s.hear bit)
      (j ++ [.rise (bit && !s.pulls)] ++ [.fall]) (txd <<< 1)
    refine ⟨sda', [.rise (bit && !s.pulls), .fall] ++ es, ?_, by simpa using quiet⟩
    -- The data line moves while the clock is low, so that a bit is one rise and one fall.
    refine run.trans ?_
    rw [List.append_assoc j, List.append_assoc j]
    rfl

private theorem top_bit (b : Byte) : decide ((b &&& 0x80) >>> 7 ≠ 0) = b.msb := by
  revert b
  decide +kernel

theorem sentBits_eq (b : Byte) : sentBits 8 b = bitsOf b := by
  simp only [sentBits, top_bit, bitsOf, List.range, List.range.loop, List.map_cons, List.map_nil,
    BitVec.msb, BitVec.getMsbD_shiftLeft]

variable {s} {field : Field}

/-- Turning the data pin into an output shows nothing while the clock is low. -/
private theorem out_low (sdaOut : Bool) (p : StateM Wire Unit) :
    (do
      S_SET_IIC_SDA_OUT
      setScl false
      p : StateM Wire Unit) ⟨false, sda, sdaOut, s, j⟩ = p ⟨false, sda, true, s, j⟩ := rfl

private theorem raise_low {α : Type} (sdaOut : Bool) (p : StateM Wire α) :
    (do
      S_SET_IIC_SDA_IN
      setSda true
      setScl true
      p : StateM Wire α) ⟨false, sda, sdaOut, s, j⟩ =
      p ⟨true, true, false, s.rise !s.pulls, j ++ [.rise !s.pulls]⟩ := rfl

/-- A byte that the slave is ready for arrives. -/
theorem iicSendByte_heard (sdaOut : Bool) (here : s.phase = .receiving field [])
    (released : s.pulls = false) (b : Byte) :
    ∃ sda' es, iicSendByte b ⟨false, sda, sdaOut, s, j⟩ =
      ((), ⟨false, sda', true, s.take field b, j ++ es⟩) ∧ .stop ∉ es := by
  obtain ⟨sda', es, run, quiet⟩ := sendBits_low sda s j 8 b
  rw [sentBits_eq, Slave.hear_byte here released rfl, byteOf_bitsOf] at run
  exact ⟨sda', es, (out_low sda j sdaOut (sendBits 8 b)).trans run, quiet⟩

/-- The slave waits for a start, and leaves the data line alone. -/
structure AtRest (s : Slave) : Prop where
  idle : s.phase = .idle
  released : s.pulls = false

/-- The bus between two transfers. -/
def free (s : Slave) (j : List Condition) : Wire := ⟨true, true, true, s, j⟩

theorem iicStart_free (rest : AtRest s) :
    iicStart (free s j) =
      ((), ⟨false, false, true, { s with phase := .receiving .address [] },
        j ++ [.start] ++ [.fall]⟩) := by
  obtain ⟨address, registers, pointer, phase, pulls⟩ := s
  obtain rfl := rest.idle
  obtain rfl := rest.released
  rfl

/-- The clock of an acknowledge, up to where the line is looked at. -/
theorem iicWaitAck_low (sampled : GpioRegister) (sdaOut : Bool) :
    iicWaitAck sampled ⟨false, sda, sdaOut, s, j⟩ =
      ackLoop sampled 251 ⟨true, true, false, s.rise !s.pulls, j ++ [.rise !s.pulls]⟩ :=
  raise_low sda j sdaOut (ackLoop sampled 251)

end Pins

/-! ### Reading back -/

/-- A start address and the bytes for it: a range of the slave's registers without the
control registers that enabling and disabling writes changes. -/
structure Request where
  addr : Byte
  data : List Byte
  nonempty : data ≠ []
  short : data.length < 256
  inside : addr.toNat + data.length ≤ 256
  clear : ∀ i < data.length, addr.toNat + i ≠ SD3078_CTR1.toNat ∧ addr.toNat + i ≠ SD3078_CTR2.toNat

/-- No stop condition appears on the bus while the routine runs. -/
def Unbroken {α : Type} (p : StateM Wire α) (w : Wire) : Prop :=
  (p w).2.journal.count .stop = w.journal.count .stop

/-- What was written is read back, and neither transfer is broken off. -/
structure ReadsBack (sampled : GpioRegister) (w : Wire) (r : Request) : Prop where
  same : (sd3078ReadData sampled r.addr r.data.length
    (sd3078WriteData sampled r.addr r.data w).2).1 = r.data
  writeWhole : Unbroken (writeTransfer sampled r.addr r.data)
    (iicStart (sd3078WriteEnable sampled w).2).2
  readWhole : Unbroken (readTransfer sampled r.addr r.data.length)
    (iicStart (sd3078WriteData sampled r.addr r.data w).2).2

end BmsFirmware.Rtc.Sd3078
