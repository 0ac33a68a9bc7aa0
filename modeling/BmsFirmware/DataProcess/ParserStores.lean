/- Module: BmsFirmware/DataProcess/ParserStores
   Source: application/dataprocess/process.c
   Digest: Every store of the receiver into its frame buffer and its data field, in order. -/

import BmsFirmware.DataProcess.ReceiverSteps

set_option autoImplicit false
set_option relaxedAutoImplicit false

namespace BmsFirmware.DataProcess.ParserStores

open BmsFirmware.Library.ByteMemory
open BmsFirmware.Library.BlockHeap
open BmsFirmware.Flash.Controller (Environment Board)
open BmsFirmware.Registers.Frames
open BmsFirmware.DataProcess.Process
open BmsFirmware.DataProcess.Reception
open BmsFirmware.DataProcess.ReceiverSteps

def MAX_FRAME_LENGTH : Nat := 128

/-- A store: where it begins, its length and what it writes. -/
structure Store where
  place : Nat
  length : Nat
  content : Nat → Byte

/-- A memory after some stores. -/
def replay (stores : List Store) (m : Memory) : Memory :=
  stores.foldl (fun m s => fill m s.place s.length s.content) m

theorem replay_append (l l' : List Store) (m : Memory) :
    replay (l ++ l') m = replay l' (replay l m) :=
  List.foldl_append

/-- No store reaches the bound. -/
def Below (bound : Nat) (stores : List Store) : Prop := ∀ s ∈ stores, s.place + s.length ≤ bound

/-- Behind the bound nothing has changed. -/
theorem Below.replay_outside {bound : Nat} {stores : List Store} (below : Below bound stores)
    (m : Memory) {x : Nat} (behind : bound ≤ x) : replay stores m x = m x := by
  induction stores generalizing m with
  | nil => rfl
  | cons s stores ih =>
    have first := below s List.mem_cons_self
    refine (ih (fun t member => below t (List.mem_cons_of_mem s member)) _).trans ?_
    exact fill_outside (.inr (Nat.le_trans first behind))

theorem below_nil (bound : Nat) : Below bound [] := fun _ member => absurd member List.not_mem_nil

theorem Below.ite {bound : Nat} {stores : List Store} (below : Below bound stores) (c : Prop)
    [Decidable c] : Below bound (if c then stores else []) := by
  split_ifs
  · exact below
  · exact below_nil bound

private theorem fill_one (m : Memory) (x : Nat) (b : Byte) :
    fill m x 1 (fun _ => b) = Function.update m x b := by
  have one := fill_snoc m x 0 fun _ => b
  rw [fill_zero] at one
  exact one.symm

private theorem fill_const (lo len : Nat) (b : Byte) :
    fill (fun _ => b) lo len (fun _ => b) = fun _ => b := by
  funext x
  simp [fill]

/-! ### The call between its resets -/

section Calls

variable (env : Environment) (grant : Nat → Bool) (receivedByte : Byte) (s : Station)

/-- The switch of `parse_received_data`, up to the reset that may follow. -/
def handled : Station :=
  match s.receiver.currentState with
  | .receivingAddress => receiveAddress receivedByte s
  | .receivingFunction => receiveFunction receivedByte s
  | .receivingDataLength => receiveDataLength grant receivedByte s
  | .receivingData => receiveData receivedByte s
  | .receivingCrc =>
      if s.receiver.bytesCounter = 1 then finishFrame env grant receivedByte s
      else receiveCrc env grant receivedByte s
  | .receivingComplete => s
  | .receivingError => s

section Cases

variable {s}

theorem handled_address (state : s.receiver.currentState = .receivingAddress) :
    handled env grant receivedByte s = receiveAddress receivedByte s := by
  rw [handled, state]

theorem handled_function (state : s.receiver.currentState = .receivingFunction) :
    handled env grant receivedByte s = receiveFunction receivedByte s := by
  rw [handled, state]

theorem handled_dataLength (state : s.receiver.currentState = .receivingDataLength) :
    handled env grant receivedByte s = receiveDataLength grant receivedByte s := by
  rw [handled, state]

theorem handled_data (state : s.receiver.currentState = .receivingData) :
    handled env grant receivedByte s = receiveData receivedByte s := by
  rw [handled, state]

theorem handled_crc (state : s.receiver.currentState = .receivingCrc)
    (other : s.receiver.bytesCounter ≠ 1) :
    handled env grant receivedByte s = receiveCrc env grant receivedByte s := by
  rw [handled, state]
  exact if_neg other

theorem handled_finish (state : s.receiver.currentState = .receivingCrc)
    (second : s.receiver.bytesCounter = 1) :
    handled env grant receivedByte s = finishFrame env grant receivedByte s := by
  rw [handled, state]
  exact if_pos second

end Cases

def Over (r : Receiver) : Prop :=
  r.currentState = .receivingComplete ∨ r.currentState = .receivingError

instance (r : Receiver) : Decidable (Over r) := inferInstanceAs (Decidable (_ ∨ _))

/-! ### The stores -/

/-- `received_buffer[received_buffer_number++] = received_byte`. -/
def pushed : Store := ⟨s.receiver.receivedBufferNumber.toNat, 1, fun _ => receivedByte⟩

/-- The stores into `received_buffer` up to the reset. -/
def bufferStores : List Store :=
  match s.receiver.currentState with
  | .receivingAddress => [pushed receivedByte s]
  | .receivingFunction =>
      if receivedByte = PU_FUN_READ ∨ receivedByte = PU_FUN_WRITE ∨ receivedByte = PU_FUN_UPGRADE
      then [pushed receivedByte s] else []
  | .receivingDataLength =>
      if s.receiver.bytesCounter = 0 ∨ s.receiver.bytesCounter = 1 then [pushed receivedByte s]
      else []
  | .receivingData =>
      if s.receiver.receivedFrame.dataField.isSome then [pushed receivedByte s] else []
  | .receivingCrc =>
      if s.receiver.bytesCounter = 0 ∨ s.receiver.bytesCounter = 1 then [pushed receivedByte s]
      else []
  | .receivingComplete => []
  | .receivingError => []

/-- `memset(received_buffer, 0, sizeof(received_buffer))` of a reset. -/
def cleared : Store := ⟨0, MAX_FRAME_LENGTH, fun _ => 0⟩

/-- The stores of a whole call into `received_buffer`. -/
def callStores : List Store :=
  bufferStores receivedByte s ++
    if Over (handled env grant receivedByte s).receiver then [cleared] else []

end Calls

/-- The stores of one turn of the decoding loop. -/
def itemStores (m : Memory) (i : Nat) : List Store :=
  let j := sizeofBufdata
  let address := (((m (i * j)).setWidth 32 <<< 8) + (m (i * j + 1)).setWidth 32).setWidth 16
  let first : Store := ⟨i * j, 2, halfBytes address⟩
  let m := replay [first] m
  let offset := (((m (i * j + 2)).setWidth 32 <<< 8) + (m (i * j + 3)).setWidth 32).setWidth 16
  let second : Store := ⟨i * j + 2, 2, halfBytes offset⟩
  let m := replay [second] m
  let data := ((m (i * j + 4)).setWidth 32 <<< 24) + ((m (i * j + 5)).setWidth 32 <<< 16) +
    ((m (i * j + 6)).setWidth 32 <<< 8) + (m (i * j + 7)).setWidth 32
  [first, second, ⟨i * j + 4, 4, wordBytes data⟩]

/-- The stores of the decoding loop. -/
def decodeStores (m : Memory) : Nat → List Store
  | 0 => []
  | n + 1 => decodeStores m n ++ itemStores (decodeInPlace m n) n

theorem replay_decodeStores (m : Memory) (n : Nat) :
    replay (decodeStores m n) m = decodeInPlace m n := by
  induction n with
  | zero => rfl
  | succ n ih =>
    rw [decodeStores, replay_append, ih, decodeInPlace, decodeInPlace, List.range_succ,
      List.foldl_append]
    rfl

private theorem itemStores_below (m : Memory) {i n : Nat} (inside : i < n) :
    Below (sizeofBufdata * n) (itemStores m i) := by
  intro s member
  have item : i * 8 + 8 ≤ 8 * n := by omega
  change s ∈ [_, _, _] at member
  rcases List.mem_cons.mp member with rfl | member
  · exact Nat.le_trans (Nat.add_le_add_left (by decide : 2 ≤ 8) _) item
  rcases List.mem_cons.mp member with rfl | member
  · exact Nat.le_trans (Nat.add_le_add_left (by decide : 2 + 2 ≤ 8) _) item
  · obtain rfl := List.mem_singleton.mp member
    exact item

theorem decodeStores_below (m : Memory) (n : Nat) :
    Below (sizeofBufdata * n) (decodeStores m n) := by
  induction n with
  | zero => exact below_nil _
  | succ n ih =>
    intro s member
    rcases List.mem_append.mp member with earlier | last
    · exact Nat.le_trans (ih s earlier) (Nat.mul_le_mul_left _ (Nat.le_succ n))
    · exact itemStores_below _ (Nat.lt_succ_self n) s last

section Field

variable (env : Environment) (grant : Nat → Bool) (receivedByte : Byte) (s : Station)

/-- The bytes that `dataField` points to. -/
def fieldMemory : Memory :=
  match s.receiver.receivedFrame.dataField with
  | some field => field.2
  | none => fun _ => 0

/-- The stores through `dataField` up to the reset. -/
def fieldStores : List Store :=
  match s.receiver.currentState with
  | .receivingDataLength =>
      let dataCount := s.receiver.receivedFrame.dataCount ||| receivedByte.setWidth 16
      if s.receiver.bytesCounter = 1 ∧ ¬(dataCount < 1 ∨ MAX_PUDATA_COUNT < dataCount) ∧
          grant s.device.heap.requests = true
      then [⟨0, sizeofBufdata * dataCount.toNat, fun _ => 0⟩] else []
  | .receivingData =>
      if s.receiver.receivedFrame.dataField.isSome then
        [⟨s.receiver.bytesCounter.toNat, 1, fun _ => receivedByte⟩]
      else []
  | .receivingCrc =>
      if s.receiver.bytesCounter = 1 ∧
          s.receiver.calcCrc = s.receiver.receivedFrame.crcCheck ||| receivedByte.setWidth 16
      then decodeStores (fieldMemory s) s.receiver.receivedFrame.dataCount.toNat else []
  | _ => []

/-! ### The stores are all -/

private theorem replay_pushed (m : Memory) :
    replay [pushed receivedByte s] m =
      Function.update m s.receiver.receivedBufferNumber.toNat receivedByte :=
  fill_one m _ receivedByte

/-- The buffer behind the switch is that before it with these stores done. -/
theorem bufferStores_replay :
    replay (bufferStores receivedByte s) s.receiver.receivedBuffer =
      (handled env grant receivedByte s).receiver.receivedBuffer := by
  unfold bufferStores handled
  cases state : s.receiver.currentState with
  | receivingAddress => exact replay_pushed _ _ _
  | receivingFunction =>
    dsimp only
    unfold receiveFunction
    split_ifs
    · exact replay_pushed _ _ _
    · rfl
  | receivingDataLength =>
    dsimp only
    by_cases first : s.receiver.bytesCounter = 0
    · rw [if_pos (.inl first), receiveDataLength, if_pos first]
      exact replay_pushed _ _ _
    by_cases second : s.receiver.bytesCounter = 1
    · rw [if_pos (.inr second), receiveDataLength, if_neg first, if_pos second]
      dsimp only
      split
      · exact replay_pushed _ _ _
      · split
        · exact replay_pushed _ _ _
        · exact replay_pushed _ _ _
    · rw [if_neg (not_or_intro first second), receiveDataLength, if_neg first, if_neg second]
      rfl
  | receivingData =>
    dsimp only
    unfold receiveData
    cases field : s.receiver.receivedFrame.dataField with
    | none => rfl
    | some field =>
      rw [Option.isSome_some, if_pos rfl]
      dsimp only
      split
      · exact replay_pushed _ _ _
      · exact replay_pushed _ _ _
  | receivingCrc =>
    dsimp only
    by_cases second : s.receiver.bytesCounter = 1
    · rw [if_pos (.inr second), if_pos second, finishFrame]
      split
      · exact replay_pushed _ _ _
      · exact replay_pushed _ _ _
    rw [if_neg second, receiveCrc]
    by_cases first : s.receiver.bytesCounter = 0
    · rw [if_pos (.inl first), if_pos first]
      exact replay_pushed _ _ _
    · rw [if_neg (not_or_intro first second), if_neg first, if_neg second]
      rfl
  | receivingComplete => rfl
  | receivingError => rfl

omit env grant receivedByte in
variable {s} in
private theorem fieldMemory_of {block : Nat × Memory}
    (field : s.receiver.receivedFrame.dataField = some block) : fieldMemory s = block.2 := by
  rw [fieldMemory, field]

/-- The data field that the second checksum byte leaves to the reset. -/
theorem finishFrame_field :
    (finishFrame env grant receivedByte s).receiver.receivedFrame.dataField =
      s.receiver.receivedFrame.dataField.map fun block =>
        (block.1,
          if s.receiver.calcCrc = s.receiver.receivedFrame.crcCheck ||| receivedByte.setWidth 16
          then decodeInPlace block.2 s.receiver.receivedFrame.dataCount.toNat
          else block.2) := by
  simp only [finishFrame, Receiver.store]
  by_cases fits : s.receiver.calcCrc =
      s.receiver.receivedFrame.crcCheck ||| receivedByte.setWidth 16
  · simp only [fits, if_true]
    cases field : s.receiver.receivedFrame.dataField with
    | none => rfl
    | some block => rfl
  · simp only [fits, if_false]
    cases s.receiver.receivedFrame.dataField with
    | none => rfl
    | some block => rfl

section Cases

variable {s}

omit env in
private theorem dataLength_replay (state : s.receiver.currentState = .receivingDataLength)
    (empty : s.receiver.receivedFrame.dataField = none)
    (there : (receiveDataLength grant receivedByte s).receiver.receivedFrame.dataField.isSome =
      true) :
    replay (fieldStores grant receivedByte s) (fieldMemory s) =
      fieldMemory (receiveDataLength grant receivedByte s) := by
  simp only [fieldStores, state]
  by_cases second : s.receiver.bytesCounter = 1
  · rw [second]
    by_cases outside : s.receiver.receivedFrame.dataCount ||| receivedByte.setWidth 16 < 1 ∨
        MAX_PUDATA_COUNT < s.receiver.receivedFrame.dataCount ||| receivedByte.setWidth 16
    · rw [receiveDataLength_rejects grant second outside, if_neg fun h => h.2.1 outside]
      rfl
    cases granted : grant s.device.heap.requests with
    | false =>
      rw [receiveDataLength_refuses grant second outside granted] at there
      exact absurd there Bool.false_ne_true
    | true =>
      have before : fieldMemory s = fun _ => 0 := by rw [fieldMemory, empty]
      rw [receiveDataLength_accepts grant second outside granted, if_pos ⟨rfl, outside, rfl⟩,
        before]
      exact fill_const _ _ 0
  · rw [if_neg fun h => second h.1, receiveDataLength, if_neg second]
    split
    · rfl
    · rfl

omit env in
private theorem data_replay (state : s.receiver.currentState = .receivingData) :
    replay (fieldStores grant receivedByte s) (fieldMemory s) =
      fieldMemory (receiveData receivedByte s) := by
  simp only [fieldStores, state]
  unfold receiveData
  cases field : s.receiver.receivedFrame.dataField with
  | none => rfl
  | some block =>
    rw [Option.isSome_some, if_pos rfl, fieldMemory_of field]
    dsimp only
    split
    · exact fill_one _ _ _
    · exact fill_one _ _ _

private theorem finish_replay (state : s.receiver.currentState = .receivingCrc)
    (second : s.receiver.bytesCounter = 1)
    (there : (finishFrame env grant receivedByte s).receiver.receivedFrame.dataField.isSome =
      true) :
    replay (fieldStores grant receivedByte s) (fieldMemory s) =
      fieldMemory (finishFrame env grant receivedByte s) := by
  have after := finishFrame_field env grant receivedByte s
  simp only [fieldStores, state]
  cases field : s.receiver.receivedFrame.dataField with
  | none =>
    rw [after, field] at there
    exact absurd there Bool.false_ne_true
  | some block =>
    rw [field, Option.map_some] at after
    rw [fieldMemory_of field, fieldMemory_of after, second]
    by_cases fits : s.receiver.calcCrc =
        s.receiver.receivedFrame.crcCheck ||| receivedByte.setWidth 16
    · rw [if_pos ⟨rfl, fits⟩, if_pos fits, replay_decodeStores]
    · rw [if_neg fun h => fits h.2, if_neg fits]
      rfl

end Cases

/-- While there is a field, its bytes behind the switch are those before it with these
stores done. -/
theorem fieldStores_replay
    (apart : s.receiver.currentState = .receivingDataLength →
      s.receiver.receivedFrame.dataField = none)
    (there : (handled env grant receivedByte s).receiver.receivedFrame.dataField.isSome = true) :
    replay (fieldStores grant receivedByte s) (fieldMemory s) =
      fieldMemory (handled env grant receivedByte s) := by
  cases state : s.receiver.currentState with
  | receivingAddress =>
    rw [handled_address env grant receivedByte state, fieldStores, state]
    rfl
  | receivingFunction =>
    rw [handled_function env grant receivedByte state, receiveFunction]
    simp only [fieldStores, state]
    split
    · rfl
    · rfl
  | receivingDataLength =>
    rw [handled_dataLength env grant receivedByte state] at there ⊢
    exact dataLength_replay grant receivedByte state (apart state) there
  | receivingData =>
    rw [handled_data env grant receivedByte state]
    exact data_replay grant receivedByte state
  | receivingCrc =>
    by_cases second : s.receiver.bytesCounter = 1
    · rw [handled_finish env grant receivedByte state second] at there ⊢
      exact finish_replay env grant receivedByte state second there
    · rw [handled_crc env grant receivedByte state second, receiveCrc, if_neg second]
      simp only [fieldStores, state]
      rw [if_neg fun h => second h.1]
      split
      · rfl
      · rfl
  | receivingComplete =>
    rw [handled, fieldStores, state]
    rfl
  | receivingError =>
    rw [handled, fieldStores, state]
    rfl

end Field

end BmsFirmware.DataProcess.ParserStores
