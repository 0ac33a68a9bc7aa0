/- Module: BmsFirmware/DataProcess/Reception
   Source: application/dataprocess/process.c
   Digest: The byte-wise frame receiver of the UART interrupt. -/

import BmsFirmware.DataProcess.Process

set_option autoImplicit false
set_option relaxedAutoImplicit false

namespace BmsFirmware.DataProcess.Reception

open BmsFirmware.Library.ByteMemory
open BmsFirmware.Library.BlockHeap
open BmsFirmware.Flash.Controller (Environment Board)
open BmsFirmware.Registers.Frames
open BmsFirmware.DataProcess.Process

inductive ReceivingState where
  | receivingAddress
  | receivingFunction
  | receivingDataLength
  | receivingData
  | receivingCrc
  | receivingComplete
  | receivingError
  deriving DecidableEq

def MAX_PUDATA_COUNT : Half := 3

/-- The variable `received_frame`; a data field is its heap block and its bytes. -/
structure ReceivedFrame where
  addressID : Byte
  functionCode : Byte
  dataCount : Half
  dataField : Option (Nat × Memory)
  crcCheck : Half

/-- The variables of the receiver. -/
structure Receiver where
  currentState : ReceivingState
  receivedFrame : ReceivedFrame
  receivedBuffer : Memory
  receivedBufferNumber : Byte
  bytesCounter : Byte
  calcCrc : Half

/-- The receiver as it is initialised, and as every reset leaves it. -/
def Receiver.idle : Receiver where
  currentState := .receivingAddress
  receivedFrame := ⟨0, 0, 0, none, 0⟩
  receivedBuffer := fun _ => 0
  receivedBufferNumber := 0
  bytesCounter := 0
  calcCrc := 0

/-- The receiver, what its handlers work on, and the frames handed to `process_reply` so
far; the code does not read the last. -/
structure Station where
  receiver : Receiver
  device : Device
  dispatched : List CommFrame

def Station.atIdle (d : Device) (dispatched : List CommFrame) : Station := ⟨.idle, d, dispatched⟩

def resetReception (s : Station) : Station where
  receiver := .idle
  device :=
    match s.receiver.receivedFrame.dataField with
    | some field => { s.device with heap := (free field.1 s.device.heap).2 }
    | none => s.device
  dispatched := s.dispatched

/-! ### Decoding in place -/

/-- The item the packed structure at `a` holds. -/
def bufdataAt (m : Memory) (a : Nat) : Bufdata := ⟨halfAt m a, halfAt m (a + 2), wordAt m (a + 4)⟩

/-- One turn of the decoding loop; each field is stored over the bytes it was read from. -/
def decodeItem (m : Memory) (i : Nat) : Memory :=
  let j := sizeofBufdata
  let address := (((m (i * j)).setWidth 32 <<< 8) + (m (i * j + 1)).setWidth 32).setWidth 16
  let m := fill m (i * j) 2 (halfBytes address)
  let offset := (((m (i * j + 2)).setWidth 32 <<< 8) + (m (i * j + 3)).setWidth 32).setWidth 16
  let m := fill m (i * j + 2) 2 (halfBytes offset)
  let data := ((m (i * j + 4)).setWidth 32 <<< 24) + ((m (i * j + 5)).setWidth 32 <<< 16) +
    ((m (i * j + 6)).setWidth 32 <<< 8) + (m (i * j + 7)).setWidth 32
  fill m (i * j + 4) 4 (wordBytes data)

def decodeInPlace (m : Memory) (dataCount : Nat) : Memory :=
  (List.range dataCount).foldl decodeItem m

/-- The frame as the handlers read it. -/
def ReceivedFrame.value (f : ReceivedFrame) (m : Memory) : CommFrame where
  addressID := f.addressID
  functionCode := f.functionCode
  dataCount := f.dataCount
  dataField := (List.range f.dataCount.toNat).map fun i => bufdataAt m (sizeofBufdata * i)
  crcCheck := f.crcCheck

/-! ### One byte -/

/-- `received_buffer[received_buffer_number++] = received_byte`. -/
def Receiver.store (r : Receiver) (receivedByte : Byte) : Receiver :=
  { r with
    receivedBuffer := Function.update r.receivedBuffer r.receivedBufferNumber.toNat receivedByte
    receivedBufferNumber := r.receivedBufferNumber + 1 }

def receiveAddress (receivedByte : Byte) (s : Station) : Station :=
  { s with
    receiver :=
      { s.receiver.store receivedByte with
        receivedFrame := { s.receiver.receivedFrame with addressID := receivedByte }
        currentState := .receivingFunction } }

def receiveFunction (receivedByte : Byte) (s : Station) : Station :=
  if receivedByte = PU_FUN_READ ∨ receivedByte = PU_FUN_WRITE ∨ receivedByte = PU_FUN_UPGRADE then
    { s with
      receiver :=
        { s.receiver.store receivedByte with
          receivedFrame := { s.receiver.receivedFrame with functionCode := receivedByte }
          currentState := .receivingDataLength } }
  else { s with receiver := { s.receiver with currentState := .receivingError } }

section Parser

variable (env : Environment) (grant : Nat → Bool)

def receiveDataLength (receivedByte : Byte) (s : Station) : Station :=
  if s.receiver.bytesCounter = 0 then
    { s with
      receiver :=
        { s.receiver.store receivedByte with
          receivedFrame :=
            { s.receiver.receivedFrame with dataCount := receivedByte.setWidth 16 <<< 8 }
          bytesCounter := s.receiver.bytesCounter + 1 } }
  else if s.receiver.bytesCounter = 1 then
    let dataCount := s.receiver.receivedFrame.dataCount ||| receivedByte.setWidth 16
    let r : Receiver :=
      { s.receiver.store receivedByte with
        receivedFrame := { s.receiver.receivedFrame with dataCount := dataCount }
        bytesCounter := 0 }
    if dataCount < 1 ∨ MAX_PUDATA_COUNT < dataCount then
      { s with receiver := { r with currentState := .receivingError } }
    else
      let allocated := malloc grant s.device.heap
      match allocated.1 with
      | none =>
          { s with
            receiver :=
              { r with
                receivedFrame := { r.receivedFrame with dataField := none }
                currentState := .receivingError }
            device := { s.device with heap := allocated.2 } }
      | some block =>
          { s with
            receiver :=
              { r with
                receivedFrame := { r.receivedFrame with dataField := some (block, fun _ => 0) }
                currentState := .receivingData }
            device := { s.device with heap := allocated.2 } }
  else s

def receiveData (receivedByte : Byte) (s : Station) : Station :=
  match s.receiver.receivedFrame.dataField with
  | none => s
  | some field =>
      let pData := Function.update field.2 s.receiver.bytesCounter.toNat receivedByte
      let r : Receiver :=
        { s.receiver.store receivedByte with
          receivedFrame := { s.receiver.receivedFrame with dataField := some (field.1, pData) }
          bytesCounter := s.receiver.bytesCounter + 1 }
      if sizeofBufdata * r.receivedFrame.dataCount.toNat ≤ r.bytesCounter.toNat then
        { s with
          receiver :=
            { r with
              calcCrc := calculateCrc16 r.receivedBuffer (r.receivedBufferNumber.setWidth 16)
              currentState := .receivingCrc
              bytesCounter := 0 } }
      else { s with receiver := r }

/-- The second checksum byte: decode and dispatch, or discard. -/
def finishFrame (receivedByte : Byte) (s : Station) : Station :=
  let crcCheck := s.receiver.receivedFrame.crcCheck ||| receivedByte.setWidth 16
  let r : Receiver :=
    { s.receiver.store receivedByte with
      receivedFrame := { s.receiver.receivedFrame with crcCheck := crcCheck }
      bytesCounter := 0 }
  if r.calcCrc = crcCheck then
    let pData := match r.receivedFrame.dataField with
      | some field => field.2
      | none => fun _ => 0
    let decoded := decodeInPlace pData r.receivedFrame.dataCount.toNat
    let frame := r.receivedFrame.value decoded
    { receiver :=
        { r with
          receivedFrame :=
            { r.receivedFrame with
              dataField := r.receivedFrame.dataField.map fun field => (field.1, decoded) }
          currentState := .receivingComplete }
      device := processReply env grant frame s.device
      dispatched := s.dispatched ++ [frame] }
  else { s with receiver := { r with currentState := .receivingError } }

def receiveCrc (receivedByte : Byte) (s : Station) : Station :=
  if s.receiver.bytesCounter = 0 then
    { s with
      receiver :=
        { s.receiver.store receivedByte with
          receivedFrame :=
            { s.receiver.receivedFrame with crcCheck := receivedByte.setWidth 16 <<< 8 }
          bytesCounter := s.receiver.bytesCounter + 1 } }
  else if s.receiver.bytesCounter = 1 then resetReception (finishFrame env grant receivedByte s)
  else s

/-- A finished or failed reception is reset. -/
def resetIfOver (s : Station) : Station :=
  if s.receiver.currentState = .receivingComplete ∨ s.receiver.currentState = .receivingError then
    resetReception s
  else s

def parseReceivedData (s : Station) (receivedByte : Byte) : Station :=
  let s := resetIfOver s
  resetIfOver <|
    match s.receiver.currentState with
    | .receivingAddress => receiveAddress receivedByte s
    | .receivingFunction => receiveFunction receivedByte s
    | .receivingDataLength => receiveDataLength grant receivedByte s
    | .receivingData => receiveData receivedByte s
    | .receivingCrc => receiveCrc env grant receivedByte s
    | .receivingComplete => s
    | .receivingError => s

/-- A stream, one byte at a time. -/
def feed (bytes : List Byte) (s : Station) : Station :=
  bytes.foldl (parseReceivedData env grant) s

end Parser

theorem feed_nil (env : Environment) (grant : Nat → Bool) (s : Station) : feed env grant [] s = s :=
  rfl

theorem feed_cons (env : Environment) (grant : Nat → Bool) (b : Byte) (l : List Byte)
    (s : Station) :
    feed env grant (b :: l) s = feed env grant l (parseReceivedData env grant s b) :=
  rfl

theorem feed_append (env : Environment) (grant : Nat → Bool) (l l' : List Byte) (s : Station) :
    feed env grant (l ++ l') s = feed env grant l' (feed env grant l s) :=
  List.foldl_append

end BmsFirmware.DataProcess.Reception
