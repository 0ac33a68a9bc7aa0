/- Module: BmsFirmware/DataProcess/DeliveredReply
   Source: application/dataprocess/process.c, application/drive/i2c.c
   Digest: When a reply carries what the AFE has answered to the command of its register. -/

import BmsFirmware.DataProcess.Reply
import BmsFirmware.Drive.I2cSteps

set_option autoImplicit false
set_option relaxedAutoImplicit false

namespace BmsFirmware.DataProcess.DeliveredReply

open BmsFirmware.Library.ByteMemory
open BmsFirmware.Library.PowerLogic
open BmsFirmware.Registers.PuTable
open BmsFirmware.Registers.Frames
open BmsFirmware.DataProcess.Process
open BmsFirmware.DataProcess.Reply
open BmsFirmware.Drive.I2c
open BmsFirmware.Drive.I2cSteps

/-- What `send_reply_data` does with the two bytes of `replay_data` that
`i2c_buffer_read`, whose result it drops, has left at address 0. -/
def sendReply (grant : Nat → Bool) (index : Nat) (d : Device) (s : Bus) : Device × Handed :=
  sendReplyData ⟨grant, (s.memory 0, s.memory 1)⟩ index d

/-- The register that the AFE has been told last, and the bytes it has sent while this was
the one in question. -/
structure Asked where
  selected : Option Byte
  answers : List Byte
  deriving DecidableEq

def ask (command : Byte) (a : Asked) : Event → Asked
  | .addressTransmit data => { a with selected := some data }
  | .dataReceive _ data =>
      if a.selected = some command then { a with answers := a.answers ++ [data] } else a
  | _ => a

/-- The bytes received in a call in answer to a command. -/
def asked (command : Byte) (journal : List Event) : Asked :=
  journal.foldl (ask command) ⟨none, []⟩

/-- A reply carries the two bytes that the AFE has answered, and after a failed read there is
none and the register keeps its data. -/
structure Delivered (index : Nat) (d : Device) (result : Byte) (journal : List Event)
    (out : Device × Handed) : Prop where
  answer : ∀ frame, out.2 = .reply frame → ∃ low high,
    (asked (puGetCommand d.table index) journal).answers = [low, high] ∧
      frame.dataField.map Bufdata.data = [(high ++ low : Half).setWidth 32]
  failure : result = I2C_FAIL → (∀ frame, out.2 ≠ .reply frame) ∧
    puGetData out.1.table index = puGetData d.table index

/-- A wait has timed out that ends a buffer read. -/
def GaveUp (journal : List Event) : Prop :=
  ∃ flag ∈ [Flag.i2cbsy, .addsend, .btc], .waited .bufferRead flag false ∈ journal

/-- What decides whether the command goes out before the data come in. -/
def deciding : Event → Bool
  | .dataReceive _ _ => true
  | .waited .bufferRead .tbe true => true
  | _ => false

/-- Before the first byte is received, TBE has been seen in time. -/
def CommandFirst (journal : List Event) : Prop :=
  ∀ target data, journal.find? deciding ≠ some (.dataReceive target data)

/-! ### The journal of a read -/

section Journal

variable {hw : Hardware} {command : Byte} {l : BufferRead} {out : BufferRead ⊕ Byte}
  {es journal : List Event}

private theorem gaveUp_append : GaveUp (journal ++ es) ↔ GaveUp journal ∨ GaveUp es := by
  simp only [GaveUp, List.mem_append, and_or_left, exists_or]

private theorem asked_append :
    asked command (journal ++ es) = es.foldl (ask command) (asked command journal) :=
  List.foldl_append

variable (command) in
private theorem foldl_taken {pBuffer first k : Nat} (taken : DataTaken hw pBuffer first k es)
    (a : Asked) :
    es.foldl (ask command) a =
      if a.selected = some command then
        { a with answers := a.answers ++ (List.range k).map fun i => hw.data (first + i) }
      else a := by
  induction taken with
  | none => simp
  | ending _ ends ih =>
    rw [List.foldl_append, ih]
    rcases ends with rfl | rfl
    · rfl
    · rfl
  | byte _ ih =>
    rw [List.foldl_append, ih]
    by_cases told : a.selected = some command
    · simp [told, ask, List.range_succ]
    · simp [told, ask]

private theorem find_taken {pBuffer first k : Nat} (taken : DataTaken hw pBuffer first k es) :
    es.find? deciding =
      if k = 0 then none else some (.dataReceive pBuffer (hw.data first)) := by
  induction taken with
  | none => rfl
  | ending _ ends ih =>
    rw [List.find?_append, ih]
    rcases ends with rfl | rfl
    · simp [deciding]
    · simp [deciding]
  | @byte k _ _ ih =>
    rw [List.find?_append, ih]
    by_cases zero : k = 0
    · simp [zero, deciding]
    · simp [zero]

/-- A quiet pass asks for nothing, or it sees TBE and sends the command. -/
private theorem quiet_asks (step : BufferReadStep command l out es) :
    (es.find? deciding = none ∧ ∀ a, es.foldl (ask command) a = a) ∨
      (es.find? deciding = some (.waited .bufferRead .tbe true) ∧
        ∀ a, es.foldl (ask command) a = { a with selected := some command }) := by
  cases step with
  | addressed _ _ empty =>
    cases empty with
    | true => exact Or.inr ⟨rfl, fun _ => rfl⟩
    | false => exact Or.inl ⟨rfl, fun _ => rfl⟩
  | unaddressed _ _ empty =>
    cases empty with
    | true => exact Or.inr ⟨rfl, fun _ => rfl⟩
    | false => exact Or.inl ⟨rfl, fun _ => rfl⟩
  | idle => exact Or.inl (by split_ifs <;> exact ⟨rfl, fun _ => rfl⟩)
  | started => exact Or.inl (by split_ifs <;> exact ⟨rfl, fun _ => rfl⟩)
  | acknowledged => exact Or.inl (by split_ifs <;> exact ⟨rfl, fun _ => rfl⟩)
  | _ => exact Or.inl ⟨rfl, fun _ => rfl⟩

/-- A quiet pass fails where it gives up. -/
private theorem quiet_gaveUp (step : BufferReadStep command l out es) :
    (out = .inr I2C_FAIL ∧ GaveUp es) ∨
      ((out = .inr I2C_END ∧ l.state = .stop ∨
        ∃ l', out = .inl l' ∧ l'.state ≠ .stop ∧ l'.pBuffer = l.pBuffer ∧
          l'.numberOfByte = l.numberOfByte) ∧ ¬GaveUp es) := by
  cases step with
  | busy => exact Or.inl ⟨rfl, .i2cbsy, by simp, by simp⟩
  | unacknowledged => exact Or.inl ⟨rfl, .addsend, by simp, by simp⟩
  | unaddressed => exact Or.inl ⟨rfl, .btc, by simp, by simp⟩
  | stopped here => exact Or.inr ⟨Or.inl ⟨rfl, here⟩, by simp [GaveUp]⟩
  | idle =>
    refine Or.inr ⟨Or.inr ⟨_, rfl, by simp, rfl, rfl⟩, ?_⟩
    split_ifs <;> simp [GaveUp]
  | started =>
    refine Or.inr ⟨Or.inr ⟨_, rfl, by simp, rfl, rfl⟩, ?_⟩
    split_ifs <;> simp [GaveUp]
  | acknowledged =>
    refine Or.inr ⟨Or.inr ⟨_, rfl, by simp, rfl, rfl⟩, ?_⟩
    split_ifs <;> simp [GaveUp]
  | addressed _ _ empty =>
    refine Or.inr ⟨Or.inr ⟨_, rfl, by simp, rfl, rfl⟩, ?_⟩
    cases empty <;> simp [GaveUp]
  | _ => exact Or.inr ⟨Or.inr ⟨_, rfl, by simp, rfl, rfl⟩, by simp [GaveUp]⟩

private theorem taken_gaveUp {pBuffer first k : Nat} (taken : DataTaken hw pBuffer first k es) :
    ¬GaveUp es := by
  induction taken with
  | none => simp [GaveUp]
  | ending _ ends ih =>
    rw [gaveUp_append, or_iff_right ih]
    rcases ends with rfl | rfl
    · simp [GaveUp]
    · simp [GaveUp]
  | byte _ ih =>
    rw [gaveUp_append, or_iff_right ih]
    simp [GaveUp]

end Journal

/-! ### The whole read -/

section Read

variable {hw : Hardware} {command : Byte}

variable (command) in
/-- The invariant of the loop: how far the read is, and whether the command went out first. -/
inductive Phase (l : BufferRead) (s : Bus) : Prop where
  | unsent (undecided : s.journal.find? deciding = none)
      (scan : asked command s.journal = ⟨none, []⟩) (place : l.pBuffer = 0)
      (count : l.numberOfByte = 2) (other : l.state ≠ .stop)
  | sent (first : s.journal.find? deciding = some (.waited .bufferRead .tbe true))
      (scan : asked command s.journal = ⟨some command, []⟩) (place : l.pBuffer = 0)
      (count : l.numberOfByte = 2) (other : l.state ≠ .stop)
  | missed (first : ∃ target data, s.journal.find? deciding = some (.dataReceive target data))
      (answers : (asked command s.journal).answers = []) (count : l.numberOfByte = 0)
  | answered (first : s.journal.find? deciding = some (.waited .bufferRead .tbe true))
      (answers : (asked command s.journal).answers = [s.memory 0, s.memory 1])
      (count : l.numberOfByte = 0)

/-- Events that come after the deciding one. -/
private theorem find_later {journal es : List Event} {e : Event}
    (first : journal.find? deciding = some e) : (journal ++ es).find? deciding = some e := by
  rw [List.find?_append, first, Option.some_or]

private theorem find_sooner {journal es : List Event} (undecided : journal.find? deciding = none) :
    (journal ++ es).find? deciding = es.find? deciding := by
  rw [List.find?_append, undecided, Option.none_or]

/-- A quiet pass keeps the phase, but for sending the command. -/
private theorem Phase.quiet {l l' : BufferRead} {s : Bus} {polls : Nat} {es : List Event}
    {out : BufferRead ⊕ Byte} (phase : Phase command l s) (step : BufferReadStep command l out es)
    (other : l.state ≠ .stop → l'.state ≠ .stop) (place : l'.pBuffer = l.pBuffer)
    (count : l'.numberOfByte = l.numberOfByte) : Phase command l' (did s polls es) := by
  have scanned : asked command (did s polls es).journal =
      es.foldl (ask command) (asked command s.journal) := asked_append
  have keeps : ∀ a, (es.foldl (ask command) a).answers = a.answers := by
    intro a
    rcases quiet_asks step with ⟨-, same⟩ | ⟨-, told⟩
    · rw [same]
    · rw [told]
  cases phase with
  | unsent undecided scan buffer left running =>
    rcases quiet_asks step with ⟨none, same⟩ | ⟨tbe, told⟩
    · exact .unsent ((find_sooner undecided).trans none) (by rw [scanned, same, scan])
        (place.trans buffer) (count.trans left) (other running)
    · exact .sent ((find_sooner undecided).trans tbe) (by rw [scanned, told, scan])
        (place.trans buffer) (count.trans left) (other running)
  | sent first scan buffer left running =>
    refine .sent (find_later first) ?_ (place.trans buffer) (count.trans left) (other running)
    rcases quiet_asks step with ⟨-, same⟩ | ⟨-, told⟩
    · rw [scanned, same, scan]
    · rw [scanned, told, scan]
  | missed first answers left =>
    obtain ⟨target, data, found⟩ := first
    exact .missed ⟨target, data, find_later found⟩ (by rw [scanned, keeps, answers])
      (count.trans left)
  | answered first answers left =>
    exact .answered (find_later first) (by rw [scanned, keeps, answers]; rfl) (count.trans left)

/-- The loop over the data answers, if the command has been sent. -/
private theorem Phase.receive {l : BufferRead} {s t : Bus} {cycle : Bool}
    (phase : Phase command l s) (received : Received hw l.pBuffer s l.numberOfByte.toNat t) :
    Phase command ⟨.stop, cycle, l.pBuffer + l.numberOfByte.toNat, 0, 0⟩ t := by
  obtain ⟨memory, -, es, listed, taken⟩ := received
  have scanned := foldl_taken command taken (asked command s.journal)
  rw [← asked_append, ← listed] at scanned
  have found := find_taken taken
  cases phase with
  | unsent undecided scan buffer left =>
    rw [left] at found
    rw [scan, if_neg (by simp)] at scanned
    refine .missed ⟨l.pBuffer, hw.data s.received, ?_⟩ (congrArg Asked.answers scanned) rfl
    rw [listed, find_sooner undecided]
    exact found
  | sent first scan buffer left =>
    rw [scan, left, if_pos rfl] at scanned
    refine .answered (by rw [listed]; exact find_later first) ?_ rfl
    rw [scanned, memory, buffer, left]
    rfl
  | missed first answers left =>
    obtain ⟨target, data, found⟩ := first
    refine .missed ⟨target, data, by rw [listed]; exact find_later found⟩ ?_ rfl
    rw [scanned, left]
    split_ifs
    · exact (List.append_nil _).trans answers
    · exact answers
  | answered first answers left =>
    refine .answered (by rw [listed]; exact find_later first) ?_ rfl
    have same : t.memory = s.memory := by
      rw [memory, left]
      exact fill_zero _ _ _
    rw [scanned, left, same]
    split_ifs
    · exact (List.append_nil _).trans answers
    · exact answers

/-- What a read of `replay_data` has come to when it returns. -/
inductive ReadEnd (command : Byte) (result : Byte) (s : Bus) : Prop where
  | failed (result : result = I2C_FAIL) (gaveUp : GaveUp s.journal)
  | missed (result : result = I2C_END) (patient : ¬GaveUp s.journal)
      (first : ¬CommandFirst s.journal) (answers : (asked command s.journal).answers = [])
  | answered (result : result = I2C_END) (patient : ¬GaveUp s.journal)
      (first : CommandFirst s.journal)
      (answers : (asked command s.journal).answers = [s.memory 0, s.memory 1])

/-- What a return owes after the phases. -/
private theorem Phase.ends {l : BufferRead} {s : Bus} (phase : Phase command l s)
    (here : l.state = .stop) (patient : ¬GaveUp s.journal) : ReadEnd command I2C_END s := by
  cases phase with
  | unsent _ _ _ _ other => exact absurd here other
  | sent _ _ _ _ other => exact absurd here other
  | missed first answers =>
    obtain ⟨target, data, found⟩ := first
    exact .missed rfl patient (fun before => before target data found) answers
  | answered first answers =>
    refine .answered rfl patient (fun target data found => ?_) answers
    rw [first] at found
    simp at found

private theorem phase_pass {l : BufferRead} {s : Bus} {out : BufferRead ⊕ Byte} {k : Nat}
    {es : List Event} (phase : Phase command l s) (patient : ¬GaveUp s.journal)
    (step : BufferReadStep command l out es) :
    Next (fun l s => Phase command l s ∧ ¬GaveUp s.journal) (ReadEnd command) out
      (did s k es) := by
  rcases quiet_gaveUp step with ⟨rfl, gaveUp⟩ | ⟨ends | ⟨l', rfl, other, place, count⟩, fine⟩
  · exact .failed rfl (gaveUp_append.mpr (Or.inr gaveUp))
  · obtain ⟨rfl, here⟩ := ends
    have still : ¬GaveUp (s.journal ++ es) := fun gaveUp =>
      (gaveUp_append.mp gaveUp).elim patient fine
    exact (phase.quiet step id rfl rfl).ends here still
  · have still : ¬GaveUp (s.journal ++ es) := fun gaveUp =>
      (gaveUp_append.mp gaveUp).elim patient fine
    exact ⟨phase.quiet step (fun _ => other) place count, still⟩

/-- The read of two bytes into `replay_data`. -/
private theorem read_ends (hw : Hardware) (fuel : Nat) (command : Byte) :
    (i2cBufferRead hw fuel 0 command 2 (fresh fun _ => 0)).Sat (ReadEnd command)
      fun _ => True := by
  refine bufferRead_sat (I := fun l s => Phase command l s ∧ ¬GaveUp s.journal)
    (fun l s out k es holds step => phase_pass holds.1 holds.2 step) ?_
    (fun _ _ _ _ _ _ _ _ _ => trivial) (fun _ _ _ => trivial) (fresh fun _ => 0) ?_
  · intro l s t cycle holds _ _ received
    refine ⟨holds.1.receive received, ?_⟩
    obtain ⟨-, -, es, listed, taken⟩ := received
    rw [listed, gaveUp_append, or_iff_right holds.2]
    exact taken_gaveUp taken
  · exact ⟨.unsent rfl rfl rfl rfl (by simp), by simp [GaveUp, did, fresh]⟩

end Read

/-! ### The reply -/

section Reply

variable {grant : Nat → Bool} {index : Nat} {d : Device} {s : Bus}

/-- The value of two bytes, the first the low one. -/
private theorem voltageValue_append (low high : Byte) : voltageValue (low, high) = high ++ low := by
  apply BitVec.eq_of_getLsbD_eq
  intro i bound
  simp only [voltageValue, BitVec.getLsbD_or, BitVec.getLsbD_shiftLeft, BitVec.getLsbD_setWidth,
    BitVec.getLsbD_append]
  grind

private theorem sendReply_frame {frame : CommFrame}
    (replied : (sendReply grant index d s).2 = .reply frame) :
    frame.dataField.map Bufdata.data =
      [(s.memory 1 ++ s.memory 0 : Half).setWidth 32] := by
  obtain ⟨-, rfl⟩ := sendReplyData_reply_iff.mp replied
  rw [replyFrame_data, refreshed_data, voltageValue_append]

private theorem sendReply_granted (index : Nat) (d : Device) (s : Bus) :
    ∃ frame, (sendReply (fun _ => true) index d s).2 = .reply frame :=
  ⟨_, sendReplyData_reply_iff.mpr ⟨⟨⟨rfl, fun _ => rfl⟩, rfl⟩, rfl⟩⟩

end Reply

/-- Whatever can be allocated, the reply carries what the AFE has answered and a failed read
leaves none, exactly when no wait has timed out that ends the read and the command went out
before the data came in. -/
theorem sendReply_delivered_iff (hw : Hardware) (fuel index : Nat) (d : Device) :
    (i2cBufferRead hw fuel 0 (puGetCommand d.table index) 2 (fresh fun _ => 0)).Sat
      (fun result s =>
        (∀ grant, Delivered index d result s.journal (sendReply grant index d s)) ↔
          ¬GaveUp s.journal ∧ CommandFirst s.journal)
      fun _ => True := by
  refine (read_ends hw fuel _).mono ?_ fun _ _ => trivial
  intro result s ends
  cases ends with
  | failed failed gaveUp =>
    refine iff_of_false (fun delivered => ?_) fun fine => fine.1 gaveUp
    obtain ⟨frame, replied⟩ := sendReply_granted index d s
    exact ((delivered fun _ => true).failure failed).1 frame replied
  | missed _ _ first answers =>
    refine iff_of_false (fun delivered => ?_) fun fine => first fine.2
    obtain ⟨frame, replied⟩ := sendReply_granted index d s
    obtain ⟨low, high, two, -⟩ := (delivered fun _ => true).answer frame replied
    rw [answers] at two
    cases two
  | answered ended patient first answers =>
    refine iff_of_true (fun grant => ⟨fun frame replied => ?_, fun failed => ?_⟩) ⟨patient, first⟩
    · exact ⟨_, _, answers, sendReply_frame replied⟩
    · rw [ended] at failed
      exact absurd failed (by decide)

/-! ### A bus that stays busy -/

def busyBus : Hardware := ⟨fun _ flag => decide (flag = .i2cbsy), fun _ => 0⟩

private theorem busy_fails {hw : Hardware} (busy : ∀ k, hw.flag k .i2cbsy = true)
    (command : Byte) :
    ∃ s, i2cBufferRead hw 1 0 command 2 (fresh fun _ => 0) = .done I2C_FAIL s ∧
      s.memory = fun _ => 0 := by
  obtain ⟨k, wait⟩ := waitClear_steady busy .bufferRead
    (did (fresh fun _ => 0) 0 [.ackConfig true])
  refine ⟨did (fresh fun _ => 0) k
    [.ackConfig true, .waited .bufferRead .i2cbsy false, .busReset], ?_, rfl⟩
  rw [i2cBufferRead, act_bind]
  refine loopWith_leave ?_ 0
  simp only [bufferReadTurn]
  rw [if_neg Bool.false_ne_true]
  refine (bind_done wait).trans ?_
  rw [Bool.not_true, if_neg Bool.false_ne_true, act_bind, did_did, did_did]
  rfl

/-- On a busy bus the first cell voltage is answered with 0. -/
theorem sendReply_answersZero :
    ∃ s, i2cBufferRead busyBus 1 0 (puGetCommand .initial 72) 2 (fresh fun _ => 0) =
        .done I2C_FAIL s ∧
      (∃ frame, (sendReply (fun _ => true) 72 (.initial fun _ => 0xFF) s).2 = .reply frame ∧
        frame.dataField.map Bufdata.data = [0]) ∧
      ¬∀ grant, Delivered 72 (.initial fun _ => 0xFF) I2C_FAIL s.journal
        (sendReply grant 72 (.initial fun _ => 0xFF) s) := by
  have busy : ∀ k, busyBus.flag k .i2cbsy = true := fun _ => rfl
  obtain ⟨s, run, zeros⟩ := busy_fails busy (puGetCommand .initial 72)
  obtain ⟨frame, replied⟩ := sendReply_granted 72 (.initial fun _ => 0xFF) s
  refine ⟨s, run, ⟨frame, replied, ?_⟩, fun delivered => ?_⟩
  · rw [sendReply_frame replied, zeros]
    rfl
  · exact ((delivered fun _ => true).failure rfl).1 frame replied

end BmsFirmware.DataProcess.DeliveredReply
