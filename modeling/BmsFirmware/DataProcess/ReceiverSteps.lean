/- Module: BmsFirmware/DataProcess/ReceiverSteps
   Source: application/dataprocess/process.c
   Digest: The states of the receiver between two bytes, and one byte from each of them. -/

import BmsFirmware.DataProcess.FrameDecode

set_option autoImplicit false
set_option relaxedAutoImplicit false

namespace BmsFirmware.DataProcess.ReceiverSteps

open BmsFirmware.Library.ByteMemory
open BmsFirmware.Library.BlockHeap
open BmsFirmware.Flash.Controller (Environment Board)
open BmsFirmware.Registers.Frames
open BmsFirmware.DataProcess.Process
open BmsFirmware.DataProcess.Reception
open BmsFirmware.DataProcess.FrameDecode

def KnownFunction (f : Byte) : Prop := f = 0xC0 ∨ f = 0x03 ∨ f = 0x5E

instance (f : Byte) : Decidable (KnownFunction f) := inferInstanceAs (Decidable (_ ∨ _))

/-- The number of items a header announces. -/
def announcedItems (hi lo : Byte) : Nat := 256 * hi.toNat + lo.toNat

/-- The frame of a header, its data field and the checksum behind it, if the checksum fits. -/
def checkedFrame (a f hi lo : Byte) (field : List Byte) (crc : Half) : List CommFrame :=
  if crc = crcOf ([a, f, hi, lo] ++ field) then
    [⟨a, f, hi ++ lo, bigEndianItems (announcedItems hi lo) field, crc⟩]
  else []

/-! ### The receiver between two bytes -/

section States

variable (a f hi lo : Byte) (block : Nat) (got : List Byte)

def addressed : Receiver :=
  { Receiver.idle with
    currentState := .receivingFunction
    receivedFrame := ⟨a, 0, 0, none, 0⟩
    receivedBuffer := ofList [a]
    receivedBufferNumber := 1 }

def functioned : Receiver :=
  { Receiver.idle with
    currentState := .receivingDataLength
    receivedFrame := ⟨a, f, 0, none, 0⟩
    receivedBuffer := ofList [a, f]
    receivedBufferNumber := 2 }

def halfLengthened : Receiver :=
  { Receiver.idle with
    currentState := .receivingDataLength
    receivedFrame := ⟨a, f, hi.setWidth 16 <<< 8, none, 0⟩
    receivedBuffer := ofList [a, f, hi]
    receivedBufferNumber := 3
    bytesCounter := 1 }

/-- Filling the data field: `got` has arrived. -/
def filling : Receiver :=
  { Receiver.idle with
    currentState := .receivingData
    receivedFrame := ⟨a, f, hi ++ lo, some (block, ofList got), 0⟩
    receivedBuffer := ofList ([a, f, hi, lo] ++ got)
    receivedBufferNumber := BitVec.ofNat 8 (4 + got.length)
    bytesCounter := BitVec.ofNat 8 got.length }

/-- The data field is complete and its checksum latched. -/
def checking : Receiver :=
  { filling a f hi lo block got with
    currentState := .receivingCrc
    calcCrc := crcOf ([a, f, hi, lo] ++ got)
    bytesCounter := 0 }

def halfChecked (c : Byte) : Receiver :=
  { checking a f hi lo block got with
    receivedFrame := ⟨a, f, hi ++ lo, some (block, ofList got), c.setWidth 16 <<< 8⟩
    receivedBuffer := ofList ([a, f, hi, lo] ++ got ++ [c])
    receivedBufferNumber := BitVec.ofNat 8 (5 + got.length)
    bytesCounter := 1 }

end States

/-! ### One byte from each of these states -/

section Steps

variable (env : Environment) (grant : Nat → Bool) (d : Device) (done : List CommFrame)
variable (a f hi lo : Byte)

theorem step_address :
    parseReceivedData env grant ⟨.idle, d, done⟩ a = ⟨addressed a, d, done⟩ := by
  have buffer : Function.update (fun _ => 0) 0 a = ofList [a] := by
    rw [← ofList_nil]
    exact ofList_snoc [] a
  change Station.mk { addressed a with
    receivedBuffer := Function.update (fun _ => 0) 0 a } d done = _
  rw [buffer]
  rfl

theorem step_function (known : KnownFunction f) :
    parseReceivedData env grant ⟨addressed a, d, done⟩ f = ⟨functioned a f, d, done⟩ := by
  have buffer : Function.update (ofList [a]) 1 f = ofList [a, f] := ofList_snoc [a] f
  have coded : f = PU_FUN_READ ∨ f = PU_FUN_WRITE ∨ f = PU_FUN_UPGRADE := known
  change resetIfOver (receiveFunction f ⟨addressed a, d, done⟩) = _
  rw [receiveFunction, if_pos coded]
  change Station.mk { functioned a f with receivedBuffer := Function.update (ofList [a]) 1 f } d
    done = _
  rw [buffer]
  rfl

theorem step_unknown (unknown : ¬KnownFunction f) :
    parseReceivedData env grant ⟨addressed a, d, done⟩ f = ⟨.idle, d, done⟩ := by
  have coded : ¬(f = PU_FUN_READ ∨ f = PU_FUN_WRITE ∨ f = PU_FUN_UPGRADE) := unknown
  change resetIfOver (receiveFunction f ⟨addressed a, d, done⟩) = _
  rw [receiveFunction, if_neg coded]
  rfl

theorem step_length :
    parseReceivedData env grant ⟨functioned a f, d, done⟩ hi =
      ⟨halfLengthened a f hi, d, done⟩ := by
  have buffer : Function.update (ofList [a, f]) 2 hi = ofList [a, f, hi] := ofList_snoc [a, f] hi
  change Station.mk { halfLengthened a f hi with
    receivedBuffer := Function.update (ofList [a, f]) 2 hi } d done = _
  rw [buffer]
  rfl

/-- The count the receiver assembles from its two bytes. -/
private theorem count_append : hi.setWidth 16 <<< 8 ||| lo.setWidth 16 = hi ++ lo := by
  apply BitVec.eq_of_getLsbD_eq
  intro i hi'
  simp only [BitVec.getLsbD_or, BitVec.getLsbD_shiftLeft, BitVec.getLsbD_setWidth,
    BitVec.getLsbD_append]
  by_cases low : i < 8
  · simp [low, show i < 16 by omega]
  · simp [low, show i < 16 by omega, show i - 8 < 16 by omega,
      BitVec.getLsbD_of_ge lo i (by omega)]

theorem count_toNat : (hi ++ lo : Half).toNat = announcedItems hi lo := by
  have bound := lo.isLt
  rw [BitVec.toNat_append, announcedItems, ← Nat.shiftLeft_add_eq_or_of_lt bound,
    Nat.shiftLeft_eq, Nat.mul_comm]

/-- The second length byte of a count outside 1..3. -/
theorem receiveDataLength_rejects {s : Station} {b : Byte}
    (second : s.receiver.bytesCounter = 1)
    (outside : s.receiver.receivedFrame.dataCount ||| b.setWidth 16 < 1 ∨
      MAX_PUDATA_COUNT < s.receiver.receivedFrame.dataCount ||| b.setWidth 16) :
    receiveDataLength grant b s =
      { s with
        receiver :=
          { s.receiver.store b with
            receivedFrame :=
              { s.receiver.receivedFrame with
                dataCount := s.receiver.receivedFrame.dataCount ||| b.setWidth 16 }
            bytesCounter := 0
            currentState := .receivingError } } := by
  rw [receiveDataLength, if_neg (by rw [second]; decide), if_pos second]
  exact if_pos outside

/-- The second length byte of a count in 1..3 whose data field can be allocated. -/
theorem receiveDataLength_accepts {s : Station} {b : Byte}
    (second : s.receiver.bytesCounter = 1)
    (inside : ¬(s.receiver.receivedFrame.dataCount ||| b.setWidth 16 < 1 ∨
      MAX_PUDATA_COUNT < s.receiver.receivedFrame.dataCount ||| b.setWidth 16))
    (granted : grant s.device.heap.requests = true) :
    receiveDataLength grant b s =
      { s with
        receiver :=
          { s.receiver.store b with
            receivedFrame :=
              { s.receiver.receivedFrame with
                dataCount := s.receiver.receivedFrame.dataCount ||| b.setWidth 16
                dataField := some (s.device.heap.requests, fun _ => 0) }
            bytesCounter := 0
            currentState := .receivingData }
        device := { s.device with heap := (malloc grant s.device.heap).2 } } := by
  have allocated : (malloc grant s.device.heap).1 = some s.device.heap.requests := by
    rw [malloc, if_pos granted]
  rw [receiveDataLength, if_neg (by rw [second]; decide), if_pos second]
  refine (if_neg inside).trans ?_
  simp only [allocated]

/-- The second length byte of a count in 1..3 whose data field cannot be allocated. -/
theorem receiveDataLength_refuses {s : Station} {b : Byte}
    (second : s.receiver.bytesCounter = 1)
    (inside : ¬(s.receiver.receivedFrame.dataCount ||| b.setWidth 16 < 1 ∨
      MAX_PUDATA_COUNT < s.receiver.receivedFrame.dataCount ||| b.setWidth 16))
    (refused : grant s.device.heap.requests = false) :
    receiveDataLength grant b s =
      { s with
        receiver :=
          { s.receiver.store b with
            receivedFrame :=
              { s.receiver.receivedFrame with
                dataCount := s.receiver.receivedFrame.dataCount ||| b.setWidth 16
                dataField := none }
            bytesCounter := 0
            currentState := .receivingError }
        device := { s.device with heap := (malloc grant s.device.heap).2 } } := by
  have allocated : (malloc grant s.device.heap).1 = none := by
    rw [malloc, if_neg (by rw [refused]; decide)]
  rw [receiveDataLength, if_neg (by rw [second]; decide), if_pos second]
  refine (if_neg inside).trans ?_
  simp only [allocated]

theorem step_badLength (bad : ¬(1 ≤ announcedItems hi lo ∧ announcedItems hi lo ≤ 3)) :
    parseReceivedData env grant ⟨halfLengthened a f hi, d, done⟩ lo = ⟨.idle, d, done⟩ := by
  have outside : (hi ++ lo : Half) < 1 ∨ MAX_PUDATA_COUNT < (hi ++ lo : Half) := by
    rw [BitVec.lt_def, BitVec.lt_def, count_toNat]
    change announcedItems hi lo < 1 ∨ 3 < announcedItems hi lo
    omega
  rw [← count_append] at outside
  change resetIfOver (receiveDataLength grant lo ⟨halfLengthened a f hi, d, done⟩) = _
  rw [receiveDataLength_rejects grant (s := ⟨halfLengthened a f hi, d, done⟩) rfl outside]
  rfl

theorem step_goodLength (granted : grant d.heap.requests = true)
    (good : 1 ≤ announcedItems hi lo ∧ announcedItems hi lo ≤ 3) :
    parseReceivedData env grant ⟨halfLengthened a f hi, d, done⟩ lo =
      ⟨filling a f hi lo d.heap.requests [],
        { d with heap := (malloc grant d.heap).2 }, done⟩ := by
  have inside : ¬((hi ++ lo : Half) < 1 ∨ MAX_PUDATA_COUNT < (hi ++ lo : Half)) := by
    rw [BitVec.lt_def, BitVec.lt_def, count_toNat]
    change ¬(announcedItems hi lo < 1 ∨ 3 < announcedItems hi lo)
    omega
  have buffer : Function.update (ofList [a, f, hi]) 3 lo = ofList [a, f, hi, lo] :=
    ofList_snoc [a, f, hi] lo
  rw [← count_append] at inside
  change resetIfOver (receiveDataLength grant lo ⟨halfLengthened a f hi, d, done⟩) = _
  rw [receiveDataLength_accepts grant (s := ⟨halfLengthened a f hi, d, done⟩) rfl inside granted]
  change Station.mk { filling a f hi lo d.heap.requests [] with
    receivedFrame :=
      ⟨a, f, hi.setWidth 16 <<< 8 ||| lo.setWidth 16, some (d.heap.requests, ofList []), 0⟩
    receivedBuffer := Function.update (ofList [a, f, hi]) 3 lo } _ done = _
  rw [count_append, buffer]
  rfl

/-- Without memory for the data field the unit ends with its header. -/
theorem step_refusedLength (refused : grant d.heap.requests = false) :
    ∃ d', parseReceivedData env grant ⟨halfLengthened a f hi, d, done⟩ lo = ⟨.idle, d', done⟩ := by
  by_cases outside : hi.setWidth 16 <<< 8 ||| lo.setWidth 16 < (1 : Half) ∨
      MAX_PUDATA_COUNT < hi.setWidth 16 <<< 8 ||| lo.setWidth 16
  · refine ⟨d, ?_⟩
    change resetIfOver (receiveDataLength grant lo ⟨halfLengthened a f hi, d, done⟩) = _
    rw [receiveDataLength_rejects grant (s := ⟨halfLengthened a f hi, d, done⟩) rfl outside]
    rfl
  · refine ⟨{ d with heap := (malloc grant d.heap).2 }, ?_⟩
    change resetIfOver (receiveDataLength grant lo ⟨halfLengthened a f hi, d, done⟩) = _
    rw [receiveDataLength_refuses grant (s := ⟨halfLengthened a f hi, d, done⟩) rfl outside refused]
    rfl

section Field

variable (block : Nat) (got : List Byte) (b : Byte)

/-- The header is followed by at most 24 bytes of data. -/
private theorem counters (short : got.length < 24) :
    (BitVec.ofNat 8 got.length).toNat = got.length ∧
      (BitVec.ofNat 8 (4 + got.length)).toNat = 4 + got.length := by
  simp only [BitVec.toNat_ofNat]
  omega

private theorem filling_counter (short : got.length < 24) :
    (filling a f hi lo block (got ++ [b])).bytesCounter.toNat = got.length + 1 := by
  change (BitVec.ofNat 8 (got ++ [b]).length).toNat = _
  rw [List.length_append, List.length_singleton, BitVec.toNat_ofNat]
  omega

/-- What storing one byte of the data field does to the receiver. -/
private theorem filling_stored (short : got.length < 24) :
    let r := (filling a f hi lo block got).store b
    { r with
      receivedFrame :=
        { r.receivedFrame with
          dataField := some (block, Function.update (ofList got)
            (BitVec.ofNat 8 got.length).toNat b) }
      bytesCounter := r.bytesCounter + 1 } = filling a f hi lo block (got ++ [b]) := by
  obtain ⟨counter, number⟩ := counters got short
  have buffer := ofList_snoc ([a, f, hi, lo] ++ got) b
  have place : ([a, f, hi, lo] ++ got).length = 4 + got.length := by
    rw [List.length_append]
    rfl
  rw [place, List.append_assoc] at buffer
  have next : BitVec.ofNat 8 (4 + got.length) + 1 = BitVec.ofNat 8 (4 + (got ++ [b]).length) := by
    simp [BitVec.ofNat_add, BitVec.add_assoc]
  have count : BitVec.ofNat 8 got.length + 1 = BitVec.ofNat 8 (got ++ [b]).length := by
    simp [BitVec.ofNat_add]
  dsimp only [Receiver.store, filling]
  rw [counter, number, buffer, next, count, ofList_snoc]

private theorem receiveData_filling (short : got.length < 24) :
    receiveData b ⟨filling a f hi lo block got, d, done⟩ =
      let r := filling a f hi lo block (got ++ [b])
      if sizeofBufdata * (hi ++ lo : Half).toNat ≤ r.bytesCounter.toNat then
        ⟨{ r with
            calcCrc := calculateCrc16 r.receivedBuffer (r.receivedBufferNumber.setWidth 16)
            currentState := .receivingCrc
            bytesCounter := 0 }, d, done⟩
      else ⟨r, d, done⟩ := by
  rw [← filling_stored a f hi lo block got b short]
  rfl

theorem step_filling (few : announcedItems hi lo ≤ 3)
    (room : got.length + 1 < 8 * announcedItems hi lo) :
    parseReceivedData env grant ⟨filling a f hi lo block got, d, done⟩ b =
      ⟨filling a f hi lo block (got ++ [b]), d, done⟩ := by
  have counter := filling_counter a f hi lo block got b (by omega)
  change resetIfOver (receiveData b ⟨filling a f hi lo block got, d, done⟩) = _
  rw [receiveData_filling d done a f hi lo block got b (by omega)]
  dsimp only
  rw [counter, count_toNat, sizeofBufdata, if_neg (by omega)]
  rfl

theorem step_filled (few : announcedItems hi lo ≤ 3)
    (full : got.length + 1 = 8 * announcedItems hi lo) :
    parseReceivedData env grant ⟨filling a f hi lo block got, d, done⟩ b =
      ⟨checking a f hi lo block (got ++ [b]), d, done⟩ := by
  have counter := filling_counter a f hi lo block got b (by omega)
  have size : ([a, f, hi, lo] ++ (got ++ [b])).length = 4 + (got ++ [b]).length := by
    rw [List.length_append]
    rfl
  have number : (BitVec.ofNat 8 (4 + (got ++ [b]).length)).setWidth 16 =
      BitVec.ofNat 16 ([a, f, hi, lo] ++ (got ++ [b])).length := by
    apply BitVec.eq_of_toNat_eq
    rw [size, BitVec.toNat_setWidth, BitVec.toNat_ofNat, BitVec.toNat_ofNat, List.length_append,
      List.length_singleton]
    omega
  have checksum := calculateCrc16_ofList ([a, f, hi, lo] ++ (got ++ [b])) (by
    rw [size, List.length_append, List.length_singleton]
    omega)
  change resetIfOver (receiveData b ⟨filling a f hi lo block got, d, done⟩) = _
  rw [receiveData_filling d done a f hi lo block got b (by omega)]
  dsimp only
  rw [counter, count_toNat, sizeofBufdata, if_pos (by omega)]
  change Station.mk { checking a f hi lo block (got ++ [b]) with
    calcCrc := calculateCrc16 (ofList ([a, f, hi, lo] ++ (got ++ [b])))
      ((BitVec.ofNat 8 (4 + (got ++ [b]).length)).setWidth 16) } d done = _
  rw [number, checksum]
  rfl

theorem step_checking (few : got.length ≤ 24) :
    parseReceivedData env grant ⟨checking a f hi lo block got, d, done⟩ b =
      ⟨halfChecked a f hi lo block got b, d, done⟩ := by
  have number : (BitVec.ofNat 8 (4 + got.length)).toNat = ([a, f, hi, lo] ++ got).length := by
    rw [List.length_append, BitVec.toNat_ofNat]
    change _ = 4 + got.length
    omega
  have next : BitVec.ofNat 8 (4 + got.length) + 1 = BitVec.ofNat 8 (5 + got.length) := by
    apply BitVec.eq_of_toNat_eq
    rw [BitVec.toNat_add, BitVec.toNat_ofNat, BitVec.toNat_ofNat]
    change (_ + 1) % _ = _
    omega
  change Station.mk { halfChecked a f hi lo block got b with
    receivedBuffer := Function.update (ofList ([a, f, hi, lo] ++ got))
      (BitVec.ofNat 8 (4 + got.length)).toNat b
    receivedBufferNumber := BitVec.ofNat 8 (4 + got.length) + 1 } d done = _
  rw [number, next, ofList_snoc]
  rfl

/-- The second checksum byte ends the frame whichever way the comparison goes. -/
theorem step_checked (c : Byte) :
    ∃ d', parseReceivedData env grant ⟨halfChecked a f hi lo block got c, d, done⟩ b =
      ⟨.idle, d', done ++ checkedFrame a f hi lo got (c ++ b)⟩ := by
  have step : parseReceivedData env grant ⟨halfChecked a f hi lo block got c, d, done⟩ b =
      resetReception (finishFrame env grant b ⟨halfChecked a f hi lo block got c, d, done⟩) := rfl
  have calculated :
      (halfChecked a f hi lo block got c).calcCrc = crcOf ([a, f, hi, lo] ++ got) := rfl
  have latched : (halfChecked a f hi lo block got c).receivedFrame.crcCheck ||| b.setWidth 16 =
      c ++ b := count_append c b
  rw [step, finishFrame, checkedFrame]
  simp only [Receiver.store, calculated, latched]
  by_cases fits : c ++ b = crcOf ([a, f, hi, lo] ++ got)
  · have value := value_decodeInPlace
      ⟨a, f, hi ++ lo, some (block, ofList got), crcOf ([a, f, hi, lo] ++ got)⟩ got
    rw [count_toNat] at value
    rw [if_pos fits.symm, if_pos fits, fits, ← value, ← count_toNat]
    exact ⟨_, rfl⟩
  · rw [if_neg (Ne.symm fits), if_neg fits, List.append_nil]
    exact ⟨_, rfl⟩

end Field

end Steps

end BmsFirmware.DataProcess.ReceiverSteps
