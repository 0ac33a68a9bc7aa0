/- Module: BmsFirmware/Primary/SharedBus
   Source: application/dataprocess/process.c, application/primary/main.c
   Digest: The main loop and the receiver on one bus, compared with a run that hears nothing. -/

import BmsFirmware.DataProcess.GreedyDecoder
import BmsFirmware.DataProcess.RoundTrip
import BmsFirmware.Flash.PageImage
import BmsFirmware.Primary.MainLoop

set_option autoImplicit false
set_option relaxedAutoImplicit false

namespace BmsFirmware.Primary.SharedBus

open BmsFirmware.Library.ByteMemory
open BmsFirmware.Library.PowerLogic
open BmsFirmware.Library.BlockHeap
open BmsFirmware.Library.ActionMachine
open BmsFirmware.Flash.Controller
open BmsFirmware.Flash.Systick
open BmsFirmware.Flash.PageImage
open BmsFirmware.Registers.PuTable
open BmsFirmware.Registers.HashIndex
open BmsFirmware.Registers.Frames
open BmsFirmware.DataProcess.Process
open BmsFirmware.DataProcess.FrameEffect
open BmsFirmware.DataProcess.Reply
open BmsFirmware.DataProcess.Reception
open BmsFirmware.DataProcess.Units
open BmsFirmware.DataProcess.GreedyDecoder
open BmsFirmware.DataProcess.RoundTrip
open BmsFirmware.Primary.MainLoop

/-! ### The system on the bus -/

/-- The receiver with what it works on, and the main loop. -/
structure BusSystem where
  station : Station
  control : Control

/-- The main loop makes an access, or the interrupt receives a byte. -/
inductive BusAction where
  | main (service : Service)
  | byte (env : Environment) (grant : Nat → Bool) (receivedByte : Byte)

def BusSystem.initial (flash : Memory) : BusSystem := ⟨.atIdle (.initial flash) [], .turn⟩

/-- The frame that a byte completes: the second checksum byte of one whose checksum fits. -/
def completed (r : Receiver) (receivedByte : Byte) : Option CommFrame :=
  let crcCheck := r.receivedFrame.crcCheck ||| receivedByte.setWidth 16
  if r.currentState = .receivingCrc ∧ r.bytesCounter = 1 ∧ r.calcCrc = crcCheck then
    let pData := match r.receivedFrame.dataField with
      | some field => field.2
      | none => fun _ => 0
    some ({ r.receivedFrame with crcCheck := crcCheck }.value
      (decodeInPlace pData r.receivedFrame.dataCount.toNat))
  else none

section Frames

variable (env : Environment) (grant : Nat → Bool) (frame : CommFrame) (d : Device)

end Frames

/-! ### One byte -/

section Byte

variable (env : Environment) (grant : Nat → Bool) (s : Station) (b : Byte)

end Byte

/-! ### Two runs side by side -/

section Reply

variable (service : Service) (r : Nat) {d d' : Device}

end Reply

/-! ### Runs -/

/-- Bytes received while the main loop rests. -/
def received (bytes : List Byte) : List BusAction :=
  bytes.map (.byte (.flawless fun _ => 0) fun _ => true)

end BmsFirmware.Primary.SharedBus
