/- Module: BmsFirmware/Drive/LastByte
   Source: application/drive/i2c_inter.c
   Digest: For which lengths a read leaves its last byte without an acknowledge. -/

import BmsFirmware.Drive.ReadTransfer

set_option autoImplicit false
set_option relaxedAutoImplicit false

namespace BmsFirmware.Drive.LastByte

open BmsFirmware.Library.ByteMemory
open BmsFirmware.Library.ActionMachine
open BmsFirmware.Drive.I2cInter
open BmsFirmware.Drive.ReadTransfer

def ErrorFree : Action → Prop
  | .request _ => True
  | .event _ _ => True
  | .error _ => False

/-- How a read that was requested in the state `start` comes to its end: one stop condition,
right behind the last byte, and an acknowledge for the next transfer. -/
structure Ending (start s : Driver) : Prop where
  pending : s.rxCount ≠ 0 → BusOp.stop ∉ since start s
  stopped : s.rxCount = 0 → ∃ front data,
    since start s = front ++ [.dataReceive data, .stop] ∧ BusOp.stop ∉ front
  enabled : s.state = .idle → s.peripheral.acken = true

/-- No action that takes the last byte finds the acknowledge enabled. -/
structure ProperEnd (start s : Driver) : Prop where
  ending : Ending start s
  unacknowledged : ∀ a : Action, ErrorFree a → s.rxCount ≠ 0 → (a.run s).rxCount = 0 →
    s.peripheral.acken = false

/-! ### The course of a read -/

/-- The sub-states before the data. -/
def BeforeData (state : SubState) : Prop :=
  state ∈ [.readStart1, .readSendAddrW, .readAddrWAck, .readSendReg, .readStart2, .readSendAddrR]

instance (state : SubState) : Decidable (BeforeData state) := inferInstanceAs (Decidable (_ ∈ _))

private theorem preludeNext_beforeData {state next : SubState}
    (move : preludeNext state = some next) : BeforeData state ∧ BeforeData next := by
  cases state with
  | readStart1 | readSendAddrW | readAddrWAck | readSendReg | readStart2 =>
    obtain rfl := Option.some.inj move
    decide
  | _ => cases move

/-- With so few of `n` bytes left the acknowledge is to be off: the read is a short one, or it
has been through the state with three left. -/
def Late (n left : Word) : Prop := n ≤ 2 ∨ left < n ∧ left ≤ 3

/-- What a read of `n` bytes keeps beside the transfer itself. -/
structure Course (start : Driver) (n : Word) (s : Driver) : Prop where
  ending : Ending start s
  fresh : BeforeData s.state → s.rxCount = n
  off : n ≠ 3 → s.state = .readData → Late n s.rxCount → s.peripheral.acken = false

section Steps

variable {start s : Driver} {pBuf : Nat} {n : Word} {data : Byte}

/-- From the data on the counter may be below `n`. -/
private theorem later (state : SubState) (here : s.state = state) (after : ¬BeforeData state) :
    BeforeData s.state → s.rxCount = n := by
  intro before
  rw [here] at before
  exact absurd before after

private theorem Ending.quiet {s' : Driver} {ops : List BusOp} (h : Ending start s)
    (some : s.rxCount ≠ 0) (begun : start.journal <+: s.journal)
    (more : s'.journal = s.journal ++ ops) (none : BusOp.stop ∉ ops) (count : s'.rxCount ≠ 0)
    (busy : s'.state ≠ .idle) : Ending start s' := by
  refine ⟨?_, fun zero => absurd zero count, fun idle => absurd idle busy⟩
  intro _
  rw [since_append begun more, List.mem_append]
  intro member
  rcases member with before | now
  · exact h.pending some before
  · exact none now

/-- As long as the last byte is to come, fewer bytes left are late only if more were. -/
private theorem late_before {left : Word} (other : n ≠ 3) (some : left ≠ 0) (most : left ≤ n)
    (many : left - 1 ≠ 3) (late : Late n (left - 1)) : Late n left := by
  unfold Late at late ⊢
  bv_omega

private theorem late_one (most : 1 ≤ n) : Late n 1 := by
  unfold Late
  bv_omega

private theorem Course.received (h : Course start n s) (transfer : Transfer start pBuf n s)
    (here : s.state = .readData) (some : s.rxCount ≠ 0) :
    Course start n (receiveData data s) := by
  have most : s.rxCount ≤ n := by
    have count := transfer.count
    rw [BitVec.le_def]
    omega
  have taken : (takeByte data s).journal = s.journal ++ [.dataReceive data] := rfl
  have left : (takeByte data s).rxCount = s.rxCount - 1 := rfl
  have quiet : BusOp.stop ∉ [BusOp.dataReceive data] := by simp
  unfold receiveData
  dsimp only
  rw [left]
  split_ifs with three zero
  · have more : s.rxCount - 1 ≠ 0 := by
      rw [three]
      decide
    refine ⟨h.ending.quiet some transfer.begun taken quiet more (by simp),
      later .read3LeftWaitBtc rfl (by decide), ?_⟩
    · intro other before
      cases before
  · have stopped : (onBus (takeByte data s) .stop).journal =
        s.journal ++ [.dataReceive data, .stop] := List.append_assoc _ _ _
    refine ⟨⟨fun more => absurd zero more, ?_, ?_⟩,
      later .readStop rfl (by decide), ?_⟩
    · intro _
      exact ⟨since start s, data, since_append transfer.begun stopped, h.ending.pending some⟩
    · intro idle
      cases idle
    · intro other before
      cases before
  · refine ⟨h.ending.quiet some transfer.begun taken quiet zero ?_,
      later .readData here (by decide), ?_⟩
    · change s.state ≠ .idle
      rw [here]
      decide
    · intro other _ late
      exact h.off other here (late_before other some most three late)

private theorem Course.event (h : Course start n s) (transfer : Transfer start pBuf n s)
    (running : Running s) {s' : Driver} (moved : EventStep data s s') : Course start n s' := by
  have some (other : s.state ≠ .readStop) : s.rxCount ≠ 0 := fun zero =>
    other (running.left.mpr zero)
  cases moved with
  | ignored => exact h
  | prelude move op quiet =>
    obtain ⟨before, after⟩ := preludeNext_beforeData move
    obtain ⟨-, other, -⟩ := preludeNext_inRead move
    have silent : BusOp.stop ∉ [op] := by
      intro member
      rw [← List.mem_singleton.mp member] at quiet
      exact quiet
    refine ⟨h.ending.quiet (some other) transfer.begun rfl silent (some other) ?_, ?_, ?_⟩
    · rintro rfl
      exact absurd after (by decide)
    · exact fun _ => h.fresh before
    · rintro - rfl
      exact absurd after (by decide)
  | addressed here =>
    have other := some (by rw [here]; decide)
    have whole : s.rxCount = n := h.fresh (by rw [here]; decide)
    rw [addressedToRead_eq]
    refine ⟨h.ending.quiet other transfer.begun rfl (by simp) other (by simp),
      later .readData rfl (by decide), ?_⟩
    intro _ _ late
    change Late n s.rxCount at late
    have short : s.rxCount ≤ 2 := by
      rw [whole] at late ⊢
      rcases late with short | ⟨fewer, -⟩
      · exact short
      · exact absurd fewer (BitVec.lt_irrefl n)
    exact if_pos short
  | received here => exact h.received transfer here (some (by rw [here]; decide))
  | threeLeft here =>
    have other := some (by rw [here]; decide)
    exact ⟨h.ending.quiet other transfer.begun (List.append_nil _).symm List.not_mem_nil other
      (by simp), later .readData rfl (by decide), fun _ _ _ => rfl⟩
  | stopped here =>
    have zero := running.left.mp here
    refine ⟨⟨fun more => absurd zero more, fun _ => h.ending.stopped zero, fun _ => rfl⟩,
      later .idle rfl (by decide), ?_⟩
    intro other before
    cases before

private theorem Course.step (h : Course start n s) (transfer : Transfer start pBuf n s)
    (busy : s.state ≠ .idle) (a : Action) (quiet : ErrorFree a) : Course start n (a.run s) := by
  have running := transfer.running busy
  cases a with
  | request r =>
    change Course start n (r.run s)
    rw [request_busy running.busy]
    exact h
  | event stat data => exact h.event transfer running (evIrqHandler_step stat data s)
  | error stat => exact quiet.elim

private theorem taken_last {s' : Driver} (moved : EventStep data s s') (some : s.rxCount ≠ 0)
    (last : s'.rxCount = 0) : s.state = .readData ∧ s.rxCount = 1 := by
  cases moved with
  | ignored => exact absurd last some
  | prelude move op quiet => exact absurd last some
  | addressed here =>
    rw [addressedToRead_eq] at last
    exact absurd last some
  | received here =>
    rw [receiveData_count] at last
    exact ⟨here, by bv_omega⟩
  | threeLeft here => exact absurd last some
  | stopped here => exact absurd last some

private theorem Course.properEnd (h : Course start n s) (transfer : Transfer start pBuf n s)
    (other : n ≠ 3) : ProperEnd start s := by
  refine ⟨h.ending, ?_⟩
  intro a quiet some last
  have running : Running s := transfer.phase.resolve_right fun ended => some ended.left
  cases a with
  | request r =>
    change (r.run s).rxCount = 0 at last
    rw [request_busy running.busy] at last
    exact absurd last some
  | event stat data =>
    obtain ⟨here, one⟩ := taken_last (evIrqHandler_step stat data s) some last
    have most : 1 ≤ n := by
      have count := transfer.count
      rw [one] at count
      rw [BitVec.le_def]
      omega
    apply h.off other here
    rw [one]
    exact late_one most
  | error stat => exact quiet.elim

end Steps

/-! ### Every run of a read -/

section Read

variable {devAddr regAddr : Byte} {pBuf : Nat} {n : Word} {start : Driver}

private theorem requested_course (idle : start.Idle) (positive : 0 < n) :
    Course start n (requested devAddr regAddr pBuf n start) := by
  have some : n ≠ 0 := by
    rintro rfl
    exact absurd positive (by decide)
  refine ⟨⟨?_, ?_, ?_⟩, ?_, ?_⟩
  · intro _
    rw [requested_since idle]
    simp
  · rw [requested_eq idle]
    exact fun zero => absurd zero some
  · rw [requested_eq idle]
    exact fun idle => by cases idle
  · rw [requested_eq idle]
    exact fun _ => rfl
  · rw [requested_eq idle]
    intro other before
    cases before

private theorem read_properEnd (idle : start.Idle) (positive : 0 < n) (other : n ≠ 3)
    {as : List Action} (errorFree : ∀ a ∈ as, ErrorFree a)
    (running : UntilIdle as (requested devAddr regAddr pBuf n start)) :
    ProperEnd start (exec step as (requested devAddr regAddr pBuf n start)) := by
  have course := (running.and (Along.of_forall (fun a member _ => errorFree a member) _)).keeps
    (P := fun s => Transfer start pBuf n s ∧ Course start n s)
    (fun a s now h => ⟨h.1.step now.1 a, h.2.step h.1 now.1 a now.2⟩)
    ⟨requested_transfer idle positive, requested_course idle positive⟩
  exact course.2.properEnd course.1 other

/-! ### Three bytes -/

/-- On the way to the last byte with the acknowledge enabled. -/
private structure Acknowledging (state : SubState) (left : Word) (s : Driver) : Prop where
  state : s.state = state
  left : s.rxCount = left
  acken : s.peripheral.acken = true
  evie : s.peripheral.evie = true
  bufie : s.peripheral.bufie = true

/-- An event interrupt that finds every flag set. -/
private def pulse (s : Driver) : Driver := evIrqHandler (fun _ => true) 0 s

private theorem Acknowledging.prelude {state next : SubState} {left : Word} {s : Driver}
    (h : Acknowledging state left s) (move : preludeNext state = some next) :
    Acknowledging next left (pulse s) := by
  have here := h.state
  unfold pulse evIrqHandler
  simp only [here, interruptFlagGet, h.evie, h.bufie, Bool.and_self, if_true]
  cases state with
  | readStart1 | readSendAddrW | readAddrWAck | readSendReg | readStart2 =>
    obtain rfl := Option.some.inj move
    exact ⟨rfl, h.left, h.acken, h.evie, h.bufie⟩
  | _ => cases move

private theorem Acknowledging.addressed {s : Driver} (h : Acknowledging .readSendAddrR 3 s) :
    Acknowledging .readData 3 (pulse s) := by
  have long : ¬s.rxCount ≤ 2 := by
    rw [h.left]
    decide
  unfold pulse evIrqHandler
  simp only [h.state, interruptFlagGet, h.evie, Bool.and_self, if_true]
  rw [addressedToRead_eq, if_neg long]
  exact ⟨rfl, h.left, h.acken, h.evie, h.bufie⟩

private theorem Acknowledging.pulse_eq {left : Word} {s : Driver}
    (h : Acknowledging .readData left s) : pulse s = receiveData 0 s := by
  unfold pulse evIrqHandler
  simp only [h.state, interruptFlagGet, h.evie, h.bufie, Bool.and_self, if_true]

private theorem Acknowledging.received {left : Word} {s : Driver}
    (h : Acknowledging .readData left s) (three : left - 1 ≠ 3) (some : left - 1 ≠ 0) :
    Acknowledging .readData (left - 1) (pulse s) := by
  have count : (takeByte 0 s).rxCount = left - 1 := by
    rw [← h.left]
    rfl
  rw [h.pulse_eq]
  unfold receiveData
  dsimp only
  rw [count, if_neg three, if_neg some]
  exact ⟨h.state, count, h.acken, h.evie, h.bufie⟩

/-- The next byte is the last one. -/
private theorem Acknowledging.not_properEnd {s : Driver} (h : Acknowledging .readData 1 s) :
    ¬ProperEnd start s := by
  intro proper
  have last : (pulse s).rxCount = 0 := by
    rw [h.pulse_eq, receiveData_count, h.left]
    rfl
  have off := proper.unacknowledged (.event (fun _ => true) 0) trivial (by simp [h.left]) last
  rw [h.acken] at off
  cases off

private theorem requested_acknowledging (devAddr regAddr : Byte) (pBuf : Nat) (n : Word)
    (idle : start.Idle) (acken : start.peripheral.acken = true) :
    Acknowledging .readStart1 n (requested devAddr regAddr pBuf n start) := by
  rw [requested_eq idle]
  exact ⟨rfl, rfl, acken, rfl, rfl⟩

private theorem flagged_errorFree {data : Byte} {k : Nat} : ∀ a ∈ flagged data k, ErrorFree a := by
  intro a member
  rw [List.eq_of_mem_replicate member]
  trivial

/-- Eight events bring a read of three bytes to its last one, which is acknowledged. -/
private theorem three_acknowledged (devAddr regAddr : Byte) (pBuf : Nat) (start : Driver)
    (idle : start.Idle) (acken : start.peripheral.acken = true) :
    UntilIdle (flagged 0 8) (requested devAddr regAddr pBuf 3 start) ∧
      Acknowledging .readData 1
        (exec step (flagged 0 8) (requested devAddr regAddr pBuf 3 start)) := by
  have busy {state : SubState} {left : Word} {s : Driver} (h : Acknowledging state left s)
      (other : state ≠ .idle) : s.state ≠ .idle := h.state ▸ other
  have start1 := requested_acknowledging devAddr regAddr pBuf 3 idle acken
  have sendAddrW := start1.prelude rfl
  have addrWAck := sendAddrW.prelude rfl
  have sendReg := addrWAck.prelude rfl
  have start2 := sendReg.prelude rfl
  have sendAddrR := start2.prelude rfl
  have three := sendAddrR.addressed
  have two := three.received (by decide) (by decide)
  have one := two.received (by decide) (by decide)
  refine ⟨⟨busy start1 (by decide), busy sendAddrW (by decide), busy addrWAck (by decide),
    busy sendReg (by decide), busy start2 (by decide), busy sendAddrR (by decide),
    busy three (by decide), busy two (by decide), trivial⟩, one⟩

/-- Reads of every length but three come to a proper end. -/
theorem properEnd_iff (devAddr regAddr : Byte) (pBuf : Nat) (n : Word) (positive : 0 < n)
    (start : Driver) (idle : start.Idle) (acken : start.peripheral.acken = true) :
    (∀ as : List Action, (∀ a ∈ as, ErrorFree a) →
      UntilIdle as (requested devAddr regAddr pBuf n start) →
        ProperEnd start (exec step as (requested devAddr regAddr pBuf n start))) ↔ n ≠ 3 := by
  constructor
  · rintro proper rfl
    obtain ⟨running, acknowledging⟩ := three_acknowledged devAddr regAddr pBuf start idle acken
    exact acknowledging.not_properEnd (proper _ flagged_errorFree running)
  · exact fun other as errorFree running => read_properEnd idle positive other errorFree running

/-- A read of five bytes, which takes the way through the state with three left. -/
theorem properEnd_iff_five :
    (∀ as : List Action, (∀ a ∈ as, ErrorFree a) →
      UntilIdle as (requested 0x10 0x00 0x20000000 5 (.initial fun _ => 0)) →
        ProperEnd (.initial fun _ => 0)
          (exec step as (requested 0x10 0x00 0x20000000 5 (.initial fun _ => 0)))) ↔
      (5 : Word) ≠ 3 :=
  properEnd_iff _ _ _ _ (by decide) _ ⟨rfl, rfl⟩ rfl

/-- The last of three bytes is acknowledged. -/
theorem three_notProperEnd :
    (∀ a ∈ flagged 0 8, ErrorFree a) ∧
      UntilIdle (flagged 0 8) (requested 0x10 0x00 0x20000000 3 (.initial fun _ => 0)) ∧
        ¬ProperEnd (.initial fun _ => 0)
          (exec step (flagged 0 8) (requested 0x10 0x00 0x20000000 3 (.initial fun _ => 0))) := by
  obtain ⟨running, acknowledging⟩ := three_acknowledged 0x10 0x00 0x20000000
    (.initial fun _ => 0) ⟨rfl, rfl⟩ rfl
  exact ⟨flagged_errorFree, running, acknowledging.not_properEnd⟩

end Read

end BmsFirmware.Drive.LastByte
