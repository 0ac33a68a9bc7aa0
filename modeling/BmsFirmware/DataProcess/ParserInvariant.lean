/- Module: BmsFirmware/DataProcess/ParserInvariant
   Source: application/dataprocess/process.c
   Digest: One invariant of the receiver relates its state, counters, buffer and heap block. -/

import BmsFirmware.DataProcess.ParserStores

set_option autoImplicit false
set_option relaxedAutoImplicit false

namespace BmsFirmware.DataProcess.ParserInvariant

open BmsFirmware.Library.ByteMemory
open BmsFirmware.Library.BlockHeap
open BmsFirmware.Flash.Controller (Environment Board)
open BmsFirmware.Registers.Frames
open BmsFirmware.DataProcess.Process
open BmsFirmware.DataProcess.Reception
open BmsFirmware.DataProcess.ReceiverSteps
open BmsFirmware.DataProcess.ParserStores

/-- The receiver between two calls. -/
inductive Settled (r : Receiver) : Prop
  | address (state : r.currentState = .receivingAddress)
      (number : r.receivedBufferNumber.toNat = 0) (counter : r.bytesCounter = 0)
      (field : r.receivedFrame.dataField = none)
  | function (state : r.currentState = .receivingFunction)
      (number : r.receivedBufferNumber.toNat = 1) (counter : r.bytesCounter = 0)
      (field : r.receivedFrame.dataField = none)
  | dataLength (state : r.currentState = .receivingDataLength)
      (number : r.receivedBufferNumber.toNat = 2 + r.bytesCounter.toNat)
      (counter : r.bytesCounter.toNat ≤ 1) (field : r.receivedFrame.dataField = none)
  | data (state : r.currentState = .receivingData)
      (number : r.receivedBufferNumber.toNat = 4 + r.bytesCounter.toNat)
      (counter : r.bytesCounter.toNat < 8 * r.receivedFrame.dataCount.toNat)
      (field : r.receivedFrame.dataField.isSome = true)
      (items : 1 ≤ r.receivedFrame.dataCount.toNat ∧ r.receivedFrame.dataCount.toNat ≤ 3)
  | crc (state : r.currentState = .receivingCrc)
      (number : r.receivedBufferNumber.toNat =
        4 + 8 * r.receivedFrame.dataCount.toNat + r.bytesCounter.toNat)
      (counter : r.bytesCounter.toNat ≤ 1) (field : r.receivedFrame.dataField.isSome = true)
      (items : 1 ≤ r.receivedFrame.dataCount.toNat ∧ r.receivedFrame.dataCount.toNat ≤ 3)

theorem settled_idle : Settled .idle := .address rfl rfl rfl rfl

/-- The live block is that of the data field, and every other one has been released once. -/
structure Owned (grant : Nat → Bool) (s : Station) : Prop where
  live : s.device.heap.live = (s.receiver.receivedFrame.dataField.map Prod.fst).toList
  accounted : s.device.heap.Accounted grant

theorem Owned.kept {grant : Nat → Bool} {s t : Station} (owned : Owned grant s)
    (heap : t.device.heap = s.device.heap)
    (field : t.receiver.receivedFrame.dataField = s.receiver.receivedFrame.dataField) :
    Owned grant t := by
  refine ⟨?_, ?_⟩
  · rw [heap, field]
    exact owned.live
  · rw [heap]
    exact owned.accounted

structure Invariant (grant : Nat → Bool) (s : Station) : Prop where
  settled : Settled s.receiver
  owned : Owned grant s
  clear : ∀ x, s.receiver.receivedBufferNumber.toNat ≤ x → s.receiver.receivedBuffer x = 0

section Switch

variable {env : Environment} {grant : Nat → Bool} {s : Station} {b : Byte}

theorem Settled.number_le {r : Receiver} (settled : Settled r) :
    r.receivedBufferNumber.toNat ≤ 29 := by
  cases settled with
  | address _ number => omega
  | function _ number => omega
  | dataLength _ number counter => omega
  | data _ number counter _ items => omega
  | crc _ number counter _ items => omega

theorem Settled.not_over {r : Receiver} (settled : Settled r) : ¬Over r := by
  unfold Over
  cases settled with
  | address state => simp [state]
  | function state => simp [state]
  | dataLength state => simp [state]
  | data state => simp [state]
  | crc state => simp [state]

/-- What the switch leaves to the reset: its block accounted for, and a further byte in the
buffer or the end of the reception. -/
structure Handled (grant : Nat → Bool) (s t : Station) : Prop where
  owned : Owned grant t
  carried : Over t.receiver ∨ Settled t.receiver ∧
    t.receiver.receivedBufferNumber.toNat = s.receiver.receivedBufferNumber.toNat + 1

private theorem byte_succ {x : Byte} (room : x.toNat ≤ 29) : (x + 1).toNat = x.toNat + 1 := by
  rw [BitVec.toNat_add]
  exact Nat.mod_eq_of_lt (by change _ + 1 < 256; omega)

private theorem one_of_le {x : Byte} (low : x.toNat ≤ 1) (other : x ≠ 0) : x = 1 := by
  have positive : x.toNat ≠ 0 := fun zero => other (BitVec.eq_of_toNat_eq zero)
  exact BitVec.eq_of_toNat_eq (by change x.toNat = 1; omega)

private theorem counted {dataCount : Half}
    (inside : ¬(dataCount < 1 ∨ MAX_PUDATA_COUNT < dataCount)) :
    1 ≤ dataCount.toNat ∧ dataCount.toNat ≤ 3 := by
  rw [BitVec.lt_def, BitVec.lt_def] at inside
  change ¬(dataCount.toNat < 1 ∨ 3 < dataCount.toNat) at inside
  omega

private theorem receiveDataLength_handled (owned : Owned grant s)
    (state : s.receiver.currentState = .receivingDataLength)
    (number : s.receiver.receivedBufferNumber.toNat = 2 + s.receiver.bytesCounter.toNat)
    (counter : s.receiver.bytesCounter.toNat ≤ 1)
    (field : s.receiver.receivedFrame.dataField = none) :
    Handled grant s (receiveDataLength grant b s) := by
  have room := byte_succ (x := s.receiver.receivedBufferNumber) (by omega)
  by_cases first : s.receiver.bytesCounter = 0
  · rw [receiveDataLength, if_pos first]
    rw [first] at number
    have next : s.receiver.bytesCounter + 1 = 1 := by rw [first]; decide
    refine ⟨owned.kept rfl rfl, .inr ⟨.dataLength state ?_ ?_ field, room⟩⟩
    · change (s.receiver.receivedBufferNumber + 1).toNat = 2 + (s.receiver.bytesCounter + 1).toNat
      rw [room, number, next]
      rfl
    · change (s.receiver.bytesCounter + 1).toNat ≤ 1
      rw [next]
      exact Nat.le_refl 1
  have second : s.receiver.bytesCounter = 1 := one_of_le counter first
  by_cases outside : s.receiver.receivedFrame.dataCount ||| b.setWidth 16 < 1 ∨
      MAX_PUDATA_COUNT < s.receiver.receivedFrame.dataCount ||| b.setWidth 16
  · rw [receiveDataLength_rejects grant second outside]
    exact ⟨owned.kept rfl rfl, .inl (.inr rfl)⟩
  have inside := counted outside
  have empty : s.device.heap.live = [] := by rw [owned.live, field]; rfl
  cases granted : grant s.device.heap.requests with
  | false =>
    rw [receiveDataLength_refuses grant second outside granted]
    refine ⟨⟨?_, owned.accounted.malloc⟩, .inl (.inr rfl)⟩
    rw [malloc, if_neg (by simp [granted])]
    exact empty
  | true =>
    rw [receiveDataLength_accepts grant second outside granted]
    refine ⟨⟨?_, owned.accounted.malloc⟩, .inr ⟨.data rfl ?_ ?_ rfl inside, room⟩⟩
    · rw [malloc, if_pos granted]
      exact congrArg (s.device.heap.requests :: ·) empty
    · refine room.trans ?_
      rw [number, second]
      rfl
    · exact Nat.mul_pos (by decide) inside.1

private theorem receiveData_handled (owned : Owned grant s)
    (state : s.receiver.currentState = .receivingData)
    (number : s.receiver.receivedBufferNumber.toNat = 4 + s.receiver.bytesCounter.toNat)
    (counter : s.receiver.bytesCounter.toNat < 8 * s.receiver.receivedFrame.dataCount.toNat)
    (field : s.receiver.receivedFrame.dataField.isSome = true)
    (items : 1 ≤ s.receiver.receivedFrame.dataCount.toNat ∧
      s.receiver.receivedFrame.dataCount.toNat ≤ 3) :
    Handled grant s (receiveData b s) := by
  have room := byte_succ (x := s.receiver.receivedBufferNumber) (by omega)
  have next := byte_succ (x := s.receiver.bytesCounter) (by omega)
  have live := owned.live
  obtain ⟨block, field⟩ := Option.isSome_iff_exists.mp field
  rw [field] at live
  simp only [receiveData, field]
  split
  · next full =>
    refine ⟨⟨live, owned.accounted⟩, .inr ⟨.crc rfl ?_ (Nat.zero_le 1) rfl items, room⟩⟩
    refine room.trans ?_
    rw [next] at full
    change 8 * _ ≤ _ at full
    change _ = 4 + 8 * s.receiver.receivedFrame.dataCount.toNat + 0
    omega
  · next short =>
    refine ⟨⟨live, owned.accounted⟩, .inr ⟨.data state ?_ ?_ rfl items, room⟩⟩
    · refine room.trans ?_
      change _ = 4 + (s.receiver.bytesCounter + 1).toNat
      rw [next, number]
      rfl
    · exact Nat.lt_of_not_le short

/-- The second checksum byte ends the reception; the items have been counted before. -/
private theorem finishFrame_ends :
    Over (finishFrame env grant b s).receiver ∧
      (finishFrame env grant b s).receiver.receivedFrame.dataCount =
        s.receiver.receivedFrame.dataCount := by
  simp only [finishFrame, Receiver.store]
  by_cases fits : s.receiver.calcCrc = s.receiver.receivedFrame.crcCheck ||| b.setWidth 16
  · simp only [fits, if_true]
    exact ⟨.inl rfl, trivial⟩
  · simp only [fits, if_false]
    exact ⟨.inr rfl, trivial⟩

variable (env b) in
private theorem finishFrame_heap (accounted : s.device.heap.Accounted grant) :
    (finishFrame env grant b s).device.heap.Accounted grant ∧
      (finishFrame env grant b s).device.heap.live = s.device.heap.live := by
  simp only [finishFrame, Receiver.store]
  by_cases fits : s.receiver.calcCrc = s.receiver.receivedFrame.crcCheck ||| b.setWidth 16
  · simp only [fits, if_true]
    exact processReply_heap env _ accounted
  · simp only [fits, if_false]
    exact ⟨accounted, trivial⟩

private theorem finishFrame_handled (owned : Owned grant s) :
    Handled grant s (finishFrame env grant b s) := by
  obtain ⟨accounted, live⟩ := finishFrame_heap env b owned.accounted
  refine ⟨⟨?_, accounted⟩, .inl finishFrame_ends.1⟩
  rw [live, owned.live, finishFrame_field, Option.map_map]
  rfl

variable (env b) in
/-- One byte from a settled receiver. -/
theorem handled_settled (settled : Settled s.receiver) (owned : Owned grant s) :
    Handled grant s (handled env grant b s) := by
  have room := byte_succ settled.number_le
  cases settled with
  | address state number counter field =>
    rw [handled_address env grant b state]
    refine ⟨owned.kept rfl rfl, .inr ⟨.function rfl ?_ counter field, room⟩⟩
    exact room.trans (by rw [number])
  | function state number counter field =>
    rw [handled_function env grant b state, receiveFunction]
    split_ifs
    · refine ⟨owned.kept rfl rfl, .inr ⟨.dataLength rfl ?_ ?_ field, room⟩⟩
      · refine room.trans ?_
        change _ = 2 + s.receiver.bytesCounter.toNat
        rw [number, counter]
        rfl
      · change s.receiver.bytesCounter.toNat ≤ 1
        rw [counter]
        exact Nat.zero_le 1
    · exact ⟨owned.kept rfl rfl, .inl (.inr rfl)⟩
  | dataLength state number counter field =>
    rw [handled_dataLength env grant b state]
    exact receiveDataLength_handled owned state number counter field
  | data state number counter field items =>
    rw [handled_data env grant b state]
    exact receiveData_handled owned state number counter field items
  | crc state number counter field items =>
    by_cases first : s.receiver.bytesCounter = 0
    · have next : s.receiver.bytesCounter + 1 = 1 := by rw [first]; decide
      rw [first] at number
      rw [handled_crc env grant b state (by rw [first]; decide), receiveCrc, if_pos first]
      refine ⟨owned.kept rfl rfl, .inr ⟨.crc state ?_ ?_ field items, room⟩⟩
      · refine room.trans ?_
        change _ = _ + (s.receiver.bytesCounter + 1).toNat
        rw [number, next]
        rfl
      · change (s.receiver.bytesCounter + 1).toNat ≤ 1
        rw [next]
        exact Nat.le_refl 1
    · rw [handled_finish env grant b state (one_of_le counter first)]
      exact finishFrame_handled owned

end Switch

/-! ### A whole call -/

section Calls

variable {env : Environment} {grant : Nat → Bool} {s : Station} {b : Byte}

private theorem resetIfOver_over (ended : Over s.receiver) : resetIfOver s = resetReception s :=
  if_pos ended

private theorem resetIfOver_kept (running : ¬Over s.receiver) : resetIfOver s = s :=
  if_neg running

/-- A reset releases the block of the data field. -/
theorem resetReception_invariant (owned : Owned grant s) : Invariant grant (resetReception s) := by
  refine ⟨settled_idle, ?_, fun _ _ => rfl⟩
  have live := owned.live
  unfold resetReception
  cases field : s.receiver.receivedFrame.dataField with
  | none =>
    rw [field] at live
    exact ⟨live, owned.accounted⟩
  | some block =>
    rw [field] at live
    have alone : s.device.heap.live = [block.1] := live
    refine ⟨?_, owned.accounted.free (by simp [alone])⟩
    change s.device.heap.live.erase block.1 = []
    rw [alone, List.erase_cons_head]

variable (env grant b) in
/-- The resets of a call come behind the switch. -/
theorem parseReceivedData_eq (settled : Settled s.receiver) :
    parseReceivedData env grant s b = resetIfOver (handled env grant b s) := by
  have running := resetIfOver_kept settled.not_over
  unfold parseReceivedData
  rw [running]
  dsimp only
  cases settled with
  | address state => rw [state, handled_address env grant b state]
  | function state => rw [state, handled_function env grant b state]
  | dataLength state => rw [state, handled_dataLength env grant b state]
  | data state => rw [state, handled_data env grant b state]
  | crc state =>
    simp only [state]
    by_cases second : s.receiver.bytesCounter = 1
    · rw [handled_finish env grant b state second, resetIfOver_over finishFrame_ends.1, receiveCrc,
        if_neg (by rw [second]; decide), if_pos second]
      exact resetIfOver_kept settled_idle.not_over
    · rw [handled_crc env grant b state second]

theorem bufferStores_below :
    Below (s.receiver.receivedBufferNumber.toNat + 1) (bufferStores b s) := by
  have one : Below (s.receiver.receivedBufferNumber.toNat + 1) [pushed b s] := by
    intro store member
    obtain rfl := List.mem_singleton.mp member
    exact Nat.le_refl _
  unfold bufferStores
  split
  · exact one
  · exact one.ite _
  · exact one.ite _
  · exact one.ite _
  · exact one.ite _
  · exact below_nil _
  · exact below_nil _

/-- The next byte from a state of the invariant. -/
theorem parseReceivedData_invariant (h : Invariant grant s) :
    Invariant grant (parseReceivedData env grant s b) := by
  have step := handled_settled env b h.settled h.owned
  rw [parseReceivedData_eq env grant b h.settled]
  rcases step.carried with ended | ⟨settled, number⟩
  · rw [resetIfOver_over ended]
    exact resetReception_invariant step.owned
  · rw [resetIfOver_kept settled.not_over]
    refine ⟨settled, step.owned, fun x behind => ?_⟩
    rw [number] at behind
    rw [← bufferStores_replay, bufferStores_below.replay_outside _ behind]
    exact h.clear x (Nat.le_of_succ_le behind)

theorem feed_invariant (bytes : List Byte) (h : Invariant grant s) :
    Invariant grant (feed env grant bytes s) := by
  induction bytes generalizing s with
  | nil => exact h
  | cons b bytes ih => exact ih (parseReceivedData_invariant h)

private theorem receiveData_count :
    (receiveData b s).receiver.receivedFrame.dataCount = s.receiver.receivedFrame.dataCount := by
  unfold receiveData
  split
  · rfl
  · dsimp only
    split
    · rfl
    · rfl

/-- The stores through `dataField` stay inside the block. -/
theorem fieldStores_below (settled : Settled s.receiver) :
    Below (8 * (handled env grant b s).receiver.receivedFrame.dataCount.toNat)
      (fieldStores grant b s) := by
  unfold fieldStores
  cases settled with
  | address state =>
    rw [state]
    exact below_nil _
  | function state =>
    rw [state]
    exact below_nil _
  | dataLength state =>
    simp only [state, handled_dataLength]
    split
    · next allocates =>
      obtain ⟨second, inside, granted⟩ := allocates
      rw [receiveDataLength_accepts grant second inside granted]
      intro store member
      obtain rfl := List.mem_singleton.mp member
      exact Nat.le_of_eq (Nat.zero_add _)
    · exact below_nil _
  | data state _ counter field =>
    simp only [state]
    rw [if_pos field, handled_data env grant b state, receiveData_count]
    intro store member
    obtain rfl := List.mem_singleton.mp member
    exact counter
  | crc state =>
    simp only [state]
    by_cases decodes : s.receiver.bytesCounter = 1 ∧
        s.receiver.calcCrc = s.receiver.receivedFrame.crcCheck ||| b.setWidth 16
    · rw [if_pos decodes, handled_finish env grant b state decodes.1, finishFrame_ends.2]
      exact decodeStores_below _ _
    · rw [if_neg decodes]
      exact below_nil _

/-- Every store into `received_buffer` stays inside the array. -/
theorem callStores_below (settled : Settled s.receiver) :
    Below MAX_FRAME_LENGTH (callStores env grant b s) := by
  intro store member
  rcases List.mem_append.mp member with handling | reset
  · have number := settled.number_le
    have bound := bufferStores_below store handling
    exact Nat.le_trans bound (by change _ ≤ 128; omega)
  · have whole : Below MAX_FRAME_LENGTH [cleared] := by
      intro store member
      obtain rfl := List.mem_singleton.mp member
      exact Nat.le_refl _
    exact whole.ite _ store reset

/-- The buffer behind the call is that before it with these stores done. -/
theorem callStores_replay (h : Invariant grant s) :
    replay (callStores env grant b s) s.receiver.receivedBuffer =
      (parseReceivedData env grant s b).receiver.receivedBuffer := by
  rw [parseReceivedData_eq env grant b h.settled, callStores, replay_append]
  by_cases ended : Over (handled env grant b s).receiver
  · rw [if_pos ended, resetIfOver_over ended]
    have number := h.settled.number_le
    funext x
    change fill _ 0 MAX_FRAME_LENGTH (fun _ => 0) x = 0
    by_cases inside : x < MAX_FRAME_LENGTH
    · exact fill_inside (Nat.zero_le x) (by rwa [Nat.zero_add])
    · have behind : 128 ≤ x := Nat.le_of_not_lt inside
      rw [fill_outside (.inr (by change 0 + 128 ≤ x; omega)),
        bufferStores_below.replay_outside _ (by omega)]
      exact h.clear x (by omega)
  · rw [if_neg ended, resetIfOver_kept ended]
    exact bufferStores_replay env grant b s

variable (env) in
/-- As many bytes as a frame can have lead through the first state. -/
theorem feed_passes_address (h : Invariant grant s) (bytes : List Byte)
    (long : 29 < s.receiver.receivedBufferNumber.toNat + bytes.length) :
    ∃ n, 1 ≤ n ∧ n ≤ bytes.length ∧
      (feed env grant (bytes.take n) s).receiver.currentState = .receivingAddress := by
  induction bytes generalizing s with
  | nil => exact absurd h.settled.number_le (Nat.not_le_of_lt long)
  | cons b bytes ih =>
    have step := parseReceivedData_eq env grant b h.settled
    rcases (handled_settled env b h.settled h.owned).carried with ended | ⟨settled, number⟩
    · refine ⟨1, Nat.le_refl 1, Nat.le_add_left 1 _, ?_⟩
      change (parseReceivedData env grant s b).receiver.currentState = _
      rw [step, resetIfOver_over ended]
      rfl
    · rw [resetIfOver_kept settled.not_over] at step
      obtain ⟨n, low, high, passed⟩ := ih (parseReceivedData_invariant h) (by
        rw [step, number]
        rw [List.length_cons] at long
        omega)
      exact ⟨n + 1, Nat.le_add_left 1 n, Nat.succ_le_succ high, passed⟩

end Calls

/-! ### Every stream -/

/-- The receiver holds a data field. -/
def HoldsField (r : Receiver) : Prop :=
  r.currentState = .receivingData ∨ r.currentState = .receivingCrc

/-- What holds of the receiver between two calls, and of the next call. -/
structure Safe (env : Environment) (grant : Nat → Bool) (s : Station) : Prop where
  running : s.receiver.currentState ≠ .receivingComplete ∧ s.receiver.currentState ≠ .receivingError
  number : s.receiver.receivedBufferNumber.toNat ≤ 29
  /-- These are all stores of a call into the buffer, and they stay inside it. -/
  buffer : ∀ b, replay (callStores env grant b s) s.receiver.receivedBuffer =
      (parseReceivedData env grant s b).receiver.receivedBuffer ∧
    Below MAX_FRAME_LENGTH (callStores env grant b s)
  /-- A call is its switch, with the reset behind it. -/
  handling : ∀ b, parseReceivedData env grant s b = resetIfOver (handled env grant b s)
  /-- Likewise for the data field, up to the reset, as long as there is one. -/
  field : ∀ b, ((handled env grant b s).receiver.receivedFrame.dataField.isSome = true →
      replay (fieldStores grant b s) (fieldMemory s) = fieldMemory (handled env grant b s)) ∧
    Below (8 * (handled env grant b s).receiver.receivedFrame.dataCount.toNat)
      (fieldStores grant b s)
  held : s.receiver.receivedFrame.dataField.isSome = true ↔ HoldsField s.receiver
  items : HoldsField s.receiver → 1 ≤ s.receiver.receivedFrame.dataCount.toNat ∧
    s.receiver.receivedFrame.dataCount.toNat ≤ 3
  /-- The block of the data field is the only live one. -/
  live : s.device.heap.live = (s.receiver.receivedFrame.dataField.map Prod.fst).toList
  /-- Every other block has been released once. -/
  accounted : s.device.heap.Accounted grant
  passes : ∀ next : List Byte, next.length = 30 → ∃ n, 1 ≤ n ∧ n ≤ 30 ∧
    (feed env grant (next.take n) s).receiver.currentState = .receivingAddress

section Streams

variable {grant : Nat → Bool} {s : Station}

private theorem Settled.held {r : Receiver} (settled : Settled r) :
    r.receivedFrame.dataField.isSome = true ↔ HoldsField r := by
  unfold HoldsField
  cases settled with
  | address state _ _ field => simp [state, field]
  | function state _ _ field => simp [state, field]
  | dataLength state _ _ field => simp [state, field]
  | data state _ _ field => simp [state, field]
  | crc state _ _ field => simp [state, field]

private theorem Settled.items {r : Receiver} (settled : Settled r) (holds : HoldsField r) :
    1 ≤ r.receivedFrame.dataCount.toNat ∧ r.receivedFrame.dataCount.toNat ≤ 3 := by
  have held := settled.held.mpr holds
  cases settled with
  | address _ _ _ field => simp [field] at held
  | function _ _ _ field => simp [field] at held
  | dataLength _ _ _ field => simp [field] at held
  | data _ _ _ _ items => exact items
  | crc _ _ _ _ items => exact items

private theorem Settled.unallocated {r : Receiver} (settled : Settled r)
    (state : r.currentState = .receivingDataLength) : r.receivedFrame.dataField = none := by
  have held := settled.held
  cases field : r.receivedFrame.dataField with
  | none => rfl
  | some block =>
    rw [field] at held
    have holds := held.mp rfl
    rw [HoldsField, state] at holds
    exact absurd holds (by decide)

theorem Invariant.safe (env : Environment) (h : Invariant grant s) : Safe env grant s where
  running := not_or.mp h.settled.not_over
  number := h.settled.number_le
  buffer _ := ⟨callStores_replay h, callStores_below h.settled⟩
  handling b := parseReceivedData_eq env grant b h.settled
  field b := ⟨fieldStores_replay env grant b s h.settled.unallocated, fieldStores_below h.settled⟩
  held := h.settled.held
  items := h.settled.items
  live := h.owned.live
  accounted := h.owned.accounted
  passes next length := by
    obtain ⟨n, low, high, passed⟩ := feed_passes_address env h next (by omega)
    exact ⟨n, low, length ▸ high, passed⟩

end Streams

theorem invariant_idle (grant : Nat → Bool) (d : Device) :
    Invariant grant (.atIdle { d with heap := .empty } []) :=
  ⟨settled_idle, ⟨rfl, accounted_empty⟩, fun _ _ => rfl⟩

/-- Whatever arrives and whichever requests for memory succeed, the receiver is safe after
every byte. -/
theorem feed_safe (env : Environment) (grant : Nat → Bool) (d : Device) (bytes : List Byte) :
    Safe env grant (feed env grant bytes (.atIdle { d with heap := .empty } [])) :=
  (feed_invariant bytes (invariant_idle grant d)).safe env

end BmsFirmware.DataProcess.ParserInvariant
