/- Module: BmsFirmware/Primary/MainLoop
   Source: application/primary/main.c, application/dataprocess/process.c
   Digest: The main loop access by access, with frames arriving between any two accesses. -/

import BmsFirmware.DataProcess.FrameEffect
import BmsFirmware.DataProcess.Reply
import BmsFirmware.Library.ActionMachine

set_option autoImplicit false
set_option relaxedAutoImplicit false

namespace BmsFirmware.Primary.MainLoop

open BmsFirmware.Library.ByteMemory
open BmsFirmware.Library.ActionMachine
open BmsFirmware.Flash.Controller (Environment Board)
open BmsFirmware.Flash.Systick
open BmsFirmware.Registers.PuTable
open BmsFirmware.Registers.HashIndex
open BmsFirmware.Registers.Frames
open BmsFirmware.DataProcess.Process
open BmsFirmware.DataProcess.FrameEffect
open BmsFirmware.DataProcess.Reply

/-! ### The loop of `main` -/

/-- The address pairs that one call of `process_base_address` looks up, in order. -/
def scanned (baseAddress : Word) (baseOffset step : Nat) : List (Word × Word) :=
  (List.range' 0 ((baseOffset + step - 1) / step) step).map fun i =>
    (baseAddress, BitVec.ofNat 32 i)

/-- The address pairs of the four calls in one turn of the loop. -/
def passPairs : List (Word × Word) :=
  scanned 0x1000 0x0110 4 ++ scanned 0x1200 0x0100 2 ++ scanned 0x1400 0x0024 4 ++
    scanned 0x1600 0x000E 4

/-- The register that a pair of the scan is looked up to; 0 is skipped. -/
def pairId (pair : Word × Word) : Nat := puSearchId pair.1 pair.2

/-- A register that the loop serves. -/
def Scanned (r : Nat) : Prop := r ∈ passPairs.map pairId ∧ r ≠ 0

/-- The next access of `process_base_address` to the register it has found. -/
inductive Access where
  | testRead
  | clearRead
  | sendReply
  | testWrite
  | clearWrite
  | writeCommand
  deriving DecidableEq

/-- Where the main loop stands; `rest` are the pairs of this turn still to be looked up. -/
inductive Control where
  | turn
  | search (rest : List (Word × Word))
  | visit (access : Access) (r : Nat) (rest : List (Word × Word))
  | flagCheck
  | jumped

structure System where
  device : Device
  control : Control

/-- What can be seen of the main loop from outside. -/
inductive Event where
  | passStarts
  | passEnds
  | replied (r : Nat) (handed : Handed)
  | commanded (r : Nat) (write : Option AfeWrite)
  deriving DecidableEq

/-- Which access follows; every branch of the loop is decided here. -/
def nextControl (d : Device) : Control → Control
  | .turn => .search passPairs
  | .search [] => .flagCheck
  | .search (pair :: rest) =>
      if pairId pair ≠ 0 then .visit .testRead (pairId pair) rest else .search rest
  | .visit .testRead r rest =>
      if puGetStatus d.table r = 1 then .visit .clearRead r rest else .visit .testWrite r rest
  | .visit .clearRead r rest => .visit .sendReply r rest
  | .visit .sendReply r rest => .visit .testWrite r rest
  | .visit .testWrite r rest =>
      if puGetStatus d.table r = 10 then .visit .clearWrite r rest else .search rest
  | .visit .clearWrite r rest => .visit .writeCommand r rest
  | .visit .writeCommand _ rest => .search rest
  | .flagCheck =>
      if wordAt d.board.flash upgradeFlagAddress.toNat = UPGRADESTART then .jumped else .turn
  | .jumped => .jumped

/-- What an access does to the device. -/
def effect (service : Service) (d : Device) : Control → Device
  | .visit .clearRead r _ => { d with table := puSetStatus d.table r 0 }
  | .visit .sendReply r _ => (sendReplyData service r d).1
  | .visit .clearWrite r _ => { d with table := puSetStatus d.table r 0 }
  | _ => d

/-- What can be seen of an access. -/
def event (service : Service) (d : Device) : Control → Option Event
  | .turn => some .passStarts
  | .search [] => some .passEnds
  | .visit .sendReply r _ => some (.replied r (sendReplyData service r d).2)
  | .visit .writeCommand r _ => some (.commanded r (writeCommandData r d))
  | _ => none

/-- One access of the main loop. -/
def mainStep (service : Service) (s : System) : System × Option Event :=
  (⟨effect service s.device s.control, nextControl s.device s.control⟩,
    event service s.device s.control)

/-- Either the main loop makes its next access, or the interrupt accepts a frame. -/
inductive Action where
  | main (service : Service)
  | frame (env : Environment) (grant : Nat → Bool) (input : CommFrame)

def step : Action → System → System × Option Event
  | .main service, s => mainStep service s
  | .frame env grant input, s => (⟨processReply env grant input s.device, s.control⟩, none)

/-- The system when `main` enters its loop. -/
def System.initial (flash : Memory) : System := ⟨.initial flash, .turn⟩

/-- The value of a register's status column. -/
def System.status (s : System) (r : Nat) : Word := puGetStatus s.device.table r

/-! ### The two kinds of request -/

inductive Request where
  | read
  | write
  deriving DecidableEq

namespace Request

def other : Request → Request
  | read => write
  | write => read

/-- The status of a register while such a request is pending. -/
def code : Request → Word
  | read => 1
  | write => 10

def test : Request → Access
  | read => .testRead
  | write => .testWrite

def clear : Request → Access
  | read => .clearRead
  | write => .clearWrite

def serve : Request → Access
  | read => .sendReply
  | write => .writeCommand

/-- The frame names the register in such a request; a write must find it writable. -/
def Asks (r : Nat) (input : CommFrame) : Request → Prop
  | read => input.functionCode = PU_FUN_READ ∧ Named input.dataField r
  | write => input.functionCode = PU_FUN_WRITE ∧ Named input.dataField r ∧ (initialRow r).type = 'W'

instance (r : Nat) (input : CommFrame) : (k : Request) → Decidable (k.Asks r input)
  | .read => inferInstanceAs (Decidable (_ ∧ _))
  | .write => inferInstanceAs (Decidable (_ ∧ _ ∧ _))

/-- The event that serves such a request. -/
def Served (r : Nat) : Request → Event → Prop
  | read, .replied r' _ => r' = r
  | write, .commanded r' _ => r' = r
  | _, _ => False

end Request

/-- The two kinds are all there are. -/
theorem Request.both {P : Request → Prop} (k : Request) (one : P k) (two : P k.other) :
    ∀ k', P k' := by
  intro k'
  cases k <;> cases k'
  · exact one
  · exact two
  · exact two
  · exact one

/-- The next access of the main loop is this one. -/
def At (access : Access) (r : Nat) (s : System) : Prop := ∃ rest, s.control = .visit access r rest

/-- The registers that this turn has still to look up. -/
def upcoming : Control → List Nat
  | .search rest => rest.map pairId
  | .visit _ _ rest => rest.map pairId
  | _ => []

/-! ### One access of the main loop -/

section MainStep

variable (service : Service) {s : System} {r : Nat}

theorem At.unique {a b : Access} {r' : Nat} (here : At a r s) (there : At b r' s) :
    a = b ∧ r = r' := by
  obtain ⟨rest, here⟩ := here
  obtain ⟨rest', there⟩ := there
  rw [here, Control.visit.injEq] at there
  exact ⟨there.1, there.2.1⟩

/-- At the top of the loop no register is being visited. -/
theorem not_at_of_turn {access : Access} (turning : s.control = .turn) : ¬At access r s := by
  intro here
  obtain ⟨rest, here⟩ := here
  rw [turning] at here
  cases here

/-- Only the two clearing accesses change a status. -/
theorem mainStep_status (kept : ∀ k : Request, ¬At k.clear r s) :
    (mainStep service s).1.status r = s.status r := by
  obtain ⟨d, control⟩ := s
  have away (k : Request) (r' : Nat) (rest : List (Word × Word))
      (here : control = .visit k.clear r' rest) : r ≠ r' := by
    intro same
    subst same
    exact kept k ⟨rest, here⟩
  cases control with
  | visit access r' rest =>
    cases access with
    | clearRead =>
      exact congrArg PUData.status (puSetStatus_other d.table 0 (away .read r' rest rfl))
    | sendReply => exact sendReplyData_status service r' d r
    | clearWrite =>
      exact congrArg PUData.status (puSetStatus_other d.table 0 (away .write r' rest rfl))
    | _ => rfl
  | _ => rfl

theorem mainStep_cleared {k : Request} (here : At k.clear r s) :
    (mainStep service s).1.status r = 0 := by
  obtain ⟨d, control⟩ := s
  obtain ⟨rest, here⟩ := here
  change control = _ at here
  subst here
  cases k <;> exact congrArg PUData.status (puSetStatus_self d.table r 0)

/-- Only the answering access changes the data of a register. -/
theorem mainStep_data (elsewhere : ¬At .sendReply r s) :
    puGetData (mainStep service s).1.device.table r = puGetData s.device.table r := by
  obtain ⟨d, control⟩ := s
  cases control with
  | visit access r' rest =>
    cases access with
    | sendReply =>
      have other : r ≠ r' := by
        intro same
        subst same
        exact elsewhere ⟨rest, rfl⟩
      exact congrArg PUData.data (sendReplyData_other service r' d other)
    | clearRead => exact puSetStatus_data d.table r' r 0
    | clearWrite => exact puSetStatus_data d.table r' r 0
    | _ => rfl
  | _ => rfl

/-- What comes right before an access. -/
private def Before (d : Device) (r : Nat) (rest : List (Word × Word)) (c : Control) : Access → Prop
  | .testRead => ∃ pair, c = .search (pair :: rest) ∧ pairId pair = r ∧ r ≠ 0
  | .clearRead => c = .visit .testRead r rest ∧ puGetStatus d.table r = 1
  | .sendReply => c = .visit .clearRead r rest
  | .testWrite =>
      c = .visit .testRead r rest ∧ puGetStatus d.table r ≠ 1 ∨ c = .visit .sendReply r rest
  | .clearWrite => c = .visit .testWrite r rest ∧ puGetStatus d.table r = 10
  | .writeCommand => c = .visit .clearWrite r rest

private theorem nextControl_visit {d : Device} {c : Control} {access : Access}
    {rest : List (Word × Word)} (next : nextControl d c = .visit access r rest) :
    Before d r rest c access := by
  cases c with
  | turn => cases next
  | search pairs =>
    cases pairs with
    | nil => cases next
    | cons pair pairs =>
      by_cases found : pairId pair ≠ 0
      · rw [nextControl, if_pos found] at next
        cases next
        exact ⟨pair, rfl, rfl, found⟩
      · rw [nextControl, if_neg found] at next
        cases next
  | visit before r' pairs =>
    cases before with
    | testRead =>
      by_cases one : puGetStatus d.table r' = 1
      · rw [nextControl, if_pos one] at next
        cases next
        exact ⟨rfl, one⟩
      · rw [nextControl, if_neg one] at next
        cases next
        exact Or.inl ⟨rfl, one⟩
    | clearRead =>
      cases next
      exact rfl
    | sendReply =>
      cases next
      exact Or.inr rfl
    | testWrite =>
      by_cases ten : puGetStatus d.table r' = 10
      · rw [nextControl, if_pos ten] at next
        cases next
        exact ⟨rfl, ten⟩
      · rw [nextControl, if_neg ten] at next
        cases next
    | clearWrite =>
      cases next
      exact rfl
    | writeCommand => cases next
  | flagCheck =>
    rw [nextControl] at next
    split at next <;> cases next
  | jumped => cases next

/-- A status is cleared right after it has been tested. -/
theorem mainStep_clear {k : Request} (next : At k.clear r (mainStep service s).1) :
    At k.test r s ∧ s.status r = k.code := by
  obtain ⟨rest, next⟩ := next
  have before := nextControl_visit next
  cases k with
  | read => exact ⟨⟨rest, before.1⟩, before.2⟩
  | write => exact ⟨⟨rest, before.1⟩, before.2⟩

/-- A request is served right after its status has been cleared. -/
theorem mainStep_serve {k : Request} (next : At k.serve r (mainStep service s).1) :
    At k.clear r s := by
  obtain ⟨rest, next⟩ := next
  have before := nextControl_visit next
  cases k with
  | read => exact ⟨rest, before⟩
  | write => exact ⟨rest, before⟩

/-- A test that finds a pending request leads to its clearing. -/
theorem mainStep_of_test {k : Request} (here : At k.test r s) (pending : s.status r = k.code) :
    At k.clear r (mainStep service s).1 := by
  obtain ⟨rest, here⟩ := here
  refine ⟨rest, ?_⟩
  change nextControl s.device s.control = _
  rw [here]
  cases k with
  | read => exact if_pos pending
  | write => exact if_pos pending

theorem mainStep_of_clear {k : Request} (here : At k.clear r s) :
    At k.serve r (mainStep service s).1 := by
  obtain ⟨rest, here⟩ := here
  refine ⟨rest, ?_⟩
  change nextControl s.device s.control = _
  rw [here]
  cases k <;> rfl

/-- A read is tested before a write, which then is tested next. -/
theorem mainStep_of_testRead (here : At .testRead r s) (other : s.status r ≠ 1) :
    At .testWrite r (mainStep service s).1 := by
  obtain ⟨rest, here⟩ := here
  refine ⟨rest, ?_⟩
  change nextControl s.device s.control = _
  rw [here]
  exact if_neg other

/-- A register is found in its turn. -/
theorem mainStep_upcoming (found : r ≠ 0) (ahead : r ∈ upcoming s.control) :
    r ∈ upcoming (mainStep service s).1.control ∨ At .testRead r (mainStep service s).1 := by
  obtain ⟨d, control⟩ := s
  change r ∈ upcoming (nextControl d control) ∨ _
  cases control with
  | search rest =>
    cases rest with
    | nil => exact absurd ahead List.not_mem_nil
    | cons pair rest =>
      rcases List.mem_cons.mp ahead with here | later
      · subst here
        exact Or.inr ⟨rest, if_pos found⟩
      · left
        rw [nextControl]
        split <;> exact later
  | visit access r' rest =>
    left
    cases access with
    | testRead =>
      rw [nextControl]
      split <;> exact ahead
    | testWrite =>
      rw [nextControl]
      split <;> exact ahead
    | _ => exact ahead
  | _ => exact absurd ahead List.not_mem_nil

/-- A pass starts with the whole scan before it. -/
theorem mainStep_passStarts (starts : (mainStep service s).2 = some .passStarts) :
    upcoming (mainStep service s).1.control = passPairs.map pairId := by
  obtain ⟨d, control⟩ := s
  change event service d control = _ at starts
  change upcoming (nextControl d control) = _
  cases control with
  | turn => rfl
  | search rest => cases rest <;> cases starts
  | visit access r' rest => cases access <;> cases starts
  | flagCheck => cases starts
  | jumped => cases starts

/-- A pass ends when the scan has no pair left. -/
theorem mainStep_passEnds (ends : (mainStep service s).2 = some .passEnds) :
    s.control = .search [] := by
  obtain ⟨d, control⟩ := s
  change event service d control = _ at ends
  cases control with
  | search rest =>
    cases rest with
    | nil => rfl
    | cons => cases ends
  | turn => cases ends
  | visit access r' rest => cases access <;> cases ends
  | flagCheck => cases ends
  | jumped => cases ends

/-- Serving a request is seen, and nothing else is seen as that. -/
theorem mainStep_served (k : Request) :
    Seen (k.Served r) (mainStep service s).2.toList ↔ At k.serve r s := by
  obtain ⟨d, control⟩ := s
  constructor
  · intro seen
    obtain ⟨e, member, served⟩ := seen
    have emitted : event service d control = some e := Option.mem_toList.mp member
    cases control with
    | turn => cases emitted; cases k <;> exact served.elim
    | search rest =>
      cases rest with
      | nil => cases emitted; cases k <;> exact served.elim
      | cons => cases emitted
    | visit access r' rest =>
      cases access with
      | sendReply =>
        cases emitted
        cases k with
        | read => subst served; exact ⟨rest, rfl⟩
        | write => exact served.elim
      | writeCommand =>
        cases emitted
        cases k with
        | read => exact served.elim
        | write => subst served; exact ⟨rest, rfl⟩
      | _ => cases emitted
    | flagCheck => cases emitted
    | jumped => cases emitted
  · intro here
    obtain ⟨rest, here⟩ := here
    change control = _ at here
    subst here
    cases k with
    | read => exact Seen.single rfl rfl
    | write => exact Seen.single rfl rfl

end MainStep

/-! ### One accepted frame -/

section Frame

variable (env : Environment) (grant : Nat → Bool) (input : CommFrame) (s : System) {r : Nat}

private theorem named_iff (found : r ≠ 0) :
    Named input.dataField r ↔ ∃ item ∈ input.dataField, registerId item = r := by
  simp only [Named, registerId_eq_iff found]

private theorem frame_read (code : input.functionCode = PU_FUN_READ) :
    (step (.frame env grant input) s).1.device = processRead grant input s.device :=
  if_pos code

private theorem frame_write (code : input.functionCode = PU_FUN_WRITE) :
    (step (.frame env grant input) s).1.device = processWrite input s.device := by
  have other : ¬input.functionCode = PU_FUN_READ := by
    rw [code]
    decide
  exact (if_neg other).trans (if_pos code)

/-- A request sets the status of the registers it asks for. -/
theorem frame_asked {k : Request} (found : r ≠ 0) (asked : k.Asks r input)
    (granted : k = .read → FrameGranted grant input.dataCount s.device.heap) :
    (step (.frame env grant input) s).1.status r = k.code := by
  cases k with
  | read =>
    rw [System.status, puGetStatus, frame_read env grant input s asked.1, processRead_table,
      if_pos (granted rfl), readStatus_row, if_pos ((named_iff input found).mp asked.2)]
    rfl
  | write =>
    obtain ⟨code, named, writable⟩ := asked
    have written := lastWritten_isSome.mpr ((named_iff input found).mp named)
    rw [System.status, puGetStatus, frame_write env grant input s code, processWrite_row]
    cases last : lastWritten input.dataField r with
    | none =>
      rw [last] at written
      exact absurd written (by decide)
    | some data =>
      simp only [writable, if_true]
      rfl

/-- A frame that asks nothing of a register leaves it as it is. -/
theorem frame_unasked (found : r ≠ 0) (unasked : ∀ k : Request, ¬k.Asks r input) :
    (step (.frame env grant input) s).1.device.table.row r = s.device.table.row r := by
  by_cases read : input.functionCode = PU_FUN_READ
  · have unnamed : ¬∃ item ∈ input.dataField, registerId item = r :=
      fun hit => unasked .read ⟨read, (named_iff input found).mpr hit⟩
    rw [frame_read env grant input s read, processRead_table]
    split
    · rw [readStatus_row, if_neg unnamed]
    · rfl
  · by_cases write : input.functionCode = PU_FUN_WRITE
    · rw [frame_write env grant input s write, processWrite_row]
      cases last : lastWritten input.dataField r with
      | none => rfl
      | some data =>
        have hit := lastWritten_isSome.mp (by rw [last]; rfl)
        have fixed : ¬(initialRow r).type = 'W' :=
          fun writable => unasked .write ⟨write, (named_iff input found).mpr hit, writable⟩
        exact if_neg fixed
    · change (processReply env grant input s.device).table.row r = _
      rw [processReply, if_neg read, if_neg write]
      split <;> rfl

/-- A read frame whose answer cannot be allocated marks nothing. -/
theorem frame_refused (read : input.functionCode = PU_FUN_READ)
    (refused : ¬FrameGranted grant input.dataCount s.device.heap) :
    (step (.frame env grant input) s).1.device.table = s.device.table := by
  rw [frame_read env grant input s read, processRead_table, if_neg refused]

end Frame

end BmsFirmware.Primary.MainLoop
