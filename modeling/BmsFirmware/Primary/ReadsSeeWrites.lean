/- Module: BmsFirmware/Primary/ReadsSeeWrites
   Source: application/dataprocess/process.c, application/primary/main.c
   Digest: When a read after a write is answered with the value that was written. -/

import BmsFirmware.Primary.Requests

set_option autoImplicit false
set_option relaxedAutoImplicit false

namespace BmsFirmware.Primary.ReadsSeeWrites

open BmsFirmware.Library.ByteMemory
open BmsFirmware.Library.ActionMachine
open BmsFirmware.Flash.Controller (Environment Board)
open BmsFirmware.Registers.PuTable
open BmsFirmware.Registers.HashIndex
open BmsFirmware.Registers.Frames
open BmsFirmware.DataProcess.Process
open BmsFirmware.DataProcess.FrameEffect
open BmsFirmware.DataProcess.Reply
open BmsFirmware.Primary.MainLoop
open BmsFirmware.Primary.Pass
open BmsFirmware.Primary.Requests

/-- What was handed over is a frame whose only item has this value. -/
def Carries (v : Word) (handed : Handed) : Prop :=
  ∃ frame, handed = .reply frame ∧ frame.dataField.map Bufdata.data = [v]

/-- The register is answered, only with this value, and holds it in the end. -/
structure SeesWrite (r : Nat) (v : Word) (actions : List Action) (s : System) : Prop where
  answered : Seen (Request.read.Served r) (emitted step actions s)
  carried : ∀ handed, Event.replied r handed ∈ emitted step actions s → Carries v handed
  kept : puGetData (exec step actions s).device.table r = v

/-- The action is no frame that names the register. -/
def NotNaming (r : Nat) : Action → Prop
  | .main _ => True
  | .frame _ _ input => ¬Named input.dataField r

/-- A call of `send_reply_data` for the register finds memory, and the AFE answers with
this value, which must fit into 16 bits. -/
def AfeAnswers (r : Nat) (v : Word) : Action → System → Prop
  | .main service, s => At .sendReply r s →
      ReplyGranted service s.device ∧ (voltageValue service.replayData).setWidth 32 = v
  | .frame _ _ _, _ => True

/-! ### One call -/

section Call

variable (service : Service) (d : Device) (r : Nat) (v : Word)

/-- What a call hands over carries the value exactly if the AFE answers with it. -/
private theorem sendReplyData_carries :
    Carries v (sendReplyData service r d).2 ↔
      ReplyGranted service d ∧ (voltageValue service.replayData).setWidth 32 = v := by
  constructor
  · intro carries
    obtain ⟨frame, replied, data⟩ := carries
    obtain ⟨granted, rfl⟩ := sendReplyData_reply_iff.mp replied
    rw [replyFrame_data, refreshed_data] at data
    exact ⟨granted, List.singleton_inj.mp data⟩
  · intro answers
    refine ⟨_, sendReplyData_reply_iff.mpr ⟨answers.1, rfl⟩, ?_⟩
    rw [replyFrame_data, refreshed_data, answers.2]

private theorem sendReplyData_data (granted : ReplyGranted service d) :
    puGetData (sendReplyData service r d).1.table r =
      (voltageValue service.replayData).setWidth 32 := by
  rw [(sendReplyData_created service r d granted.1).1, refreshed_data]

end Call

/-! ### One action -/

section Actions

variable {r : Nat} {v : Word} {s : System}

/-- The event of the answering access, and the only access with such an event. -/
private theorem replied_iff {service : Service} {handed : Handed} :
    (mainStep service s).2 = some (.replied r handed) ↔
      At .sendReply r s ∧ handed = (sendReplyData service r s.device).2 := by
  constructor
  · intro replied
    have here : At .sendReply r s :=
      (mainStep_served service .read).mp (Seen.single replied rfl)
    obtain ⟨rest, visiting⟩ := here
    refine ⟨⟨rest, visiting⟩, ?_⟩
    change event service s.device s.control = _ at replied
    rw [visiting] at replied
    cases replied
    rfl
  · intro here
    obtain ⟨⟨rest, visiting⟩, same⟩ := here
    change event service s.device s.control = _
    rw [visiting, same]
    rfl

private theorem notNaming_asks {k : Request} {a : Action} (silent : NotNaming r a) :
    AsksNot k r a := by
  cases a with
  | main service => trivial
  | frame env grant input =>
    intro asked
    cases k with
    | read => exact silent asked.2
    | write => exact silent asked.2.1

/-- The answering access leaves the value it has answered with. -/
private theorem data_answered {service : Service} (answers : AfeAnswers r v (.main service) s)
    (here : At .sendReply r s) : puGetData (mainStep service s).1.device.table r = v := by
  obtain ⟨granted, value⟩ := answers here
  obtain ⟨rest, visiting⟩ := here
  change puGetData (effect service s.device s.control).table r = v
  rw [visiting]
  exact (sendReplyData_data service s.device r granted).trans value

private theorem data_step (a : Action) (silent : NotNaming r a) (found : r ≠ 0)
    (answers : AfeAnswers r v a s) (holds : puGetData s.device.table r = v) :
    puGetData (step a s).1.device.table r = v := by
  cases a with
  | main service =>
    by_cases here : At .sendReply r s
    · exact data_answered answers here
    · exact (mainStep_data service here).trans holds
  | frame env grant input =>
    have kept := frame_unasked env grant input s found fun k => notNaming_asks silent
    rw [puGetData, kept]
    exact holds

private theorem data_replied (a : Action) (answers : AfeAnswers r v a s)
    (seen : Seen (Request.read.Served r) (step a s).2.toList) :
    puGetData (step a s).1.device.table r = v := by
  cases a with
  | main service =>
    exact data_answered answers ((mainStep_served service .read).mp seen)
  | frame env grant input =>
    obtain ⟨e, member, -⟩ := seen
    exact absurd member List.not_mem_nil

/-- An action answers the register with the value exactly if its event carries it. -/
private theorem answers_iff (a : Action) :
    AfeAnswers r v a s ↔ ∀ e, (step a s).2 = some e →
      ∀ handed, e = .replied r handed → Carries v handed := by
  cases a with
  | main service =>
    constructor
    · intro answers e emitted handed same
      subst same
      obtain ⟨here, rfl⟩ := replied_iff.mp emitted
      exact (sendReplyData_carries service s.device r v).mpr (answers here)
    · intro carried here
      have replied : (mainStep service s).2 =
          some (.replied r (sendReplyData service r s.device).2) := replied_iff.mpr ⟨here, rfl⟩
      exact (sendReplyData_carries service s.device r v).mp (carried _ replied _ rfl)
  | frame env grant input => exact ⟨fun _ e emitted => (nomatch emitted), fun _ => trivial⟩

/-- A status that is not that of a pending read does not become so by itself. -/
private theorem status_ne_step (found : r ≠ 0) (a : Action) (silent : NotNaming r a)
    (idle : s.status r ≠ 1) : (step a s).1.status r ≠ 1 := by
  cases a with
  | main service =>
    by_cases kept : ∀ k : Request, ¬At k.clear r s
    · exact fun one => idle ((mainStep_status service kept).symm.trans one)
    · obtain ⟨k, clearing⟩ := not_forall_not.mp kept
      intro one
      exact absurd ((mainStep_cleared service clearing).symm.trans one) (by decide)
  | frame env grant input =>
    have kept := frame_unasked env grant input s found fun k => notNaming_asks silent
    rw [System.status, puGetStatus, kept]
    exact idle

private theorem notNaming_timely (a : Action) (silent : NotNaming r a) : Timely r a s := by
  cases a with
  | main service => trivial
  | frame env grant input => exact fun k asked => absurd asked (notNaming_asks silent)

end Actions

/-! ### The runs after the read -/

section Runs

variable {r : Nat} {v : Word} {s : System} {final : List Action}

/-- A pending read that is left alone is answered within a pass. -/
private theorem read_answered (scanned : Scanned r) (pending : Pending .read r s)
    (silent : ∀ a ∈ final, NotNaming r a)
    (passed : List.Sublist [.passStarts, .passEnds] (emitted step final s)) :
    Seen (Request.read.Served r) (emitted step final s) :=
  pending_served scanned pending
    (Along.of_forall (fun a member _ => notNaming_timely a (silent a member)) s) passed

private theorem seesWrite_of_answers (scanned : Scanned r) (pending : Pending .read r s)
    (silent : ∀ a ∈ final, NotNaming r a)
    (passed : List.Sublist [.passStarts, .passEnds] (emitted step final s))
    (answers : Along step (AfeAnswers r v) final s) : SeesWrite r v final s := by
  have answered := read_answered scanned pending silent passed
  refine ⟨answered, ?_, ?_⟩
  · intro handed member
    have carried := answers.emits (P := fun _ => True)
      (fun a _ ok _ => ⟨trivial, (answers_iff a).mp ok⟩) trivial
    exact carried _ member handed rfl
  · have quiet : Along step (fun a _ => NotNaming r a) final s :=
      Along.of_forall (fun a member _ => silent a member) s
    refine (answers.and quiet).since (P := fun s => puGetData s.device.table r = v) ?_ ?_ answered
    · exact fun a s ok seen => data_replied a ok.1 seen
    · exact fun a s ok holds => data_step a ok.2 scanned.2 ok.1 holds

private theorem answers_of_seesWrite (sees : SeesWrite r v final s) :
    Along step (AfeAnswers r v) final s := by
  have carried : Along step (fun a s => ∀ e, (step a s).2 = some e →
      ∀ handed, e = .replied r handed → Carries v handed) final s :=
    Along.of_emitted fun e member handed same => sees.carried handed (same ▸ member)
  exact carried.mono fun a s events => (answers_iff a).mpr events

end Runs

/-! ### A write, then a read -/

/-- A frame as the interrupt accepts it. -/
structure Reception where
  env : Environment
  grant : Nat → Bool
  input : CommFrame

def Reception.action (f : Reception) : Action := .frame f.env f.grant f.input

/-- A write frame, what happens until the read frame, the read frame, and what happens then. -/
structure Schedule where
  start : System
  write : Reception
  between : List Action
  read : Reception
  final : List Action

namespace Schedule

variable (c : Schedule)

def afterWrite : System := (step c.write.action c.start).1

def beforeRead : System := exec step c.between c.afterWrite

def afterRead : System := (step c.read.action c.beforeRead).1

/-- The write stores the value in a writable register that is scanned; nothing else names
the register but the read, which the main loop does not find in the middle of a visit to
it; and then the main loop makes a full pass. -/
structure WritesThenReads (r : Nat) (v : Word) : Prop where
  scanned : Scanned r
  writable : (initialRow r).type = 'W'
  writes : c.write.input.functionCode = PU_FUN_WRITE
  stores : lastNamed c.write.input.dataField r = some v
  quietBetween : ∀ a ∈ c.between, NotNaming r a
  notVisiting : ∀ access, ¬At access r c.beforeRead
  reads : Request.read.Asks r c.read.input
  quietFinal : ∀ a ∈ c.final, NotNaming r a
  passed : List.Sublist [.passStarts, .passEnds] (emitted step c.final c.afterRead)

/-- The read frame can allocate its answer, and the AFE answers with the value when the
main loop comes to the register. -/
structure Answered (r : Nat) (v : Word) : Prop where
  marked : FrameGranted c.read.grant c.read.input.dataCount c.beforeRead.device.heap
  answers : Along step (AfeAnswers r v) c.final c.afterRead

end Schedule

section Schedules

variable {c : Schedule} {r : Nat} {v : Word}

private theorem named_of_lastNamed {items : List Bufdata} (stores : lastNamed items r = some v) :
    Named items r := by
  rw [lastNamed, Option.map_eq_some_iff] at stores
  obtain ⟨item, last, -⟩ := stores
  have member := List.mem_of_getLast? last
  rw [List.mem_filter] at member
  exact ⟨item, member.1, of_decide_eq_true member.2⟩

private theorem beforeRead_status (h : c.WritesThenReads r v) : c.beforeRead.status r ≠ 1 := by
  have found := h.scanned.2
  have written : c.afterWrite.status r = 10 :=
    frame_asked (k := .write) _ _ _ _ found
      ⟨h.writes, named_of_lastNamed h.stores, h.writable⟩ fun read => nomatch read
  have quiet : Along step (fun a _ => NotNaming r a) c.between c.afterWrite :=
    Along.of_forall (fun a member _ => h.quietBetween a member) _
  refine quiet.keeps (P := fun s => s.status r ≠ 1) ?_ ?_
  · intro a s silent idle
    exact status_ne_step found a silent idle
  · rw [written]
    decide

/-- Without memory for its answer a read is not even marked. -/
private theorem marked_of_seesWrite (h : c.WritesThenReads r v)
    (sees : SeesWrite r v c.final c.afterRead) :
    FrameGranted c.read.grant c.read.input.dataCount c.beforeRead.device.heap := by
  by_contra refused
  have kept : c.afterRead.device.table = c.beforeRead.device.table :=
    frame_refused _ _ _ _ h.reads.1 refused
  have unasked : Unasked .read r c.afterRead := by
    refine ⟨?_, h.notVisiting _, h.notVisiting _⟩
    rw [System.status, kept]
    exact beforeRead_status h
  have quiet : Along step (fun a _ => AsksNot .read r a) c.final c.afterRead :=
    Along.of_forall (fun a member _ => notNaming_asks (h.quietFinal a member)) _
  obtain ⟨e, member, served⟩ := sees.answered
  exact quiet.emits (fun a s none idle => unasked_step h.scanned.2 a s none idle) unasked e member
    served

/-- The read sees what the AFE answers, whatever has been written. -/
private theorem seesWrite_of_answered (h : c.WritesThenReads r v) {answer : Word}
    (answered : c.Answered r answer) : SeesWrite r answer c.final c.afterRead := by
  have status : c.afterRead.status r = 1 :=
    frame_asked (k := .read) _ _ _ _ h.scanned.2 h.reads fun _ => answered.marked
  have pending : Pending .read r c.afterRead := Or.inl ⟨status, h.notVisiting _⟩
  exact seesWrite_of_answers h.scanned pending h.quietFinal h.passed answered.answers

/-- A read after a write sees the written value exactly when the read can be marked and the
AFE happens to answer with that value. -/
theorem reads_seeWrites_iff (c : Schedule) (r : Nat) (v : Word) (h : c.WritesThenReads r v) :
    SeesWrite r v c.final c.afterRead ↔ c.Answered r v := by
  constructor
  · intro sees
    exact ⟨marked_of_seesWrite h sees, answers_of_seesWrite sees⟩
  · exact seesWrite_of_answered h

end Schedules

/-! ### A value that survives and one that is lost -/

/-- A write of 5 to the first register, a read of it, and `n` accesses of the main loop in
which every answer of the AFE is the same. -/
def writeFive (replayData : Byte × Byte) (n : Nat) : Schedule where
  start := .initial fun _ => 0xFF
  write := ⟨.flawless fun _ => 0, fun _ => true, writeOne⟩
  between := []
  read := ⟨.flawless fun _ => 0, fun _ => true, readOne⟩
  final := mains (fun _ => ⟨fun _ => true, replayData⟩) 0 n

private theorem writeFive_valid (replayData : Byte × Byte) {n : Nat} (enough : passBound ≤ n) :
    (writeFive replayData n).WritesThenReads 1 5 where
  scanned := scanned_one
  writable := by decide +kernel
  writes := rfl
  stores := by
    change lastNamed writeOne.dataField 1 = some 5
    decide +kernel
  quietBetween := fun a member => absurd member List.not_mem_nil
  notVisiting _ := not_at_of_turn rfl
  reads := readOne_asks
  quietFinal := by
    intro a member
    obtain ⟨i, rfl⟩ := main_of_mains member
    trivial
  passed := pass_ends _ _ 0 n enough

private theorem writeFive_answered (replayData : Byte × Byte) (n : Nat) :
    (writeFive replayData n).Answered 1 ((voltageValue replayData).setWidth 32) := by
  refine ⟨⟨rfl, fun _ => rfl⟩, along_mains ?_ _⟩
  intro i s here
  exact ⟨⟨⟨rfl, fun _ => rfl⟩, rfl⟩, rfl⟩

/-- An AFE that answers 5 lets the read see the 5 that was written. -/
theorem reads_seeWrites_five :
    SeesWrite 1 5 (writeFive (5, 0) passBound).final (writeFive (5, 0) passBound).afterRead := by
  have value : (voltageValue (5, 0)).setWidth 32 = (5 : Word) := by decide
  have answered := writeFive_answered (5, 0) passBound
  rw [value] at answered
  have valid := writeFive_valid (5, 0) (Nat.le_refl passBound)
  exact (reads_seeWrites_iff (writeFive (5, 0) passBound) 1 5 valid).mpr answered

/-- An AFE that answers 0 makes the read see 0. -/
theorem writeFive_seesZero :
    ¬SeesWrite 1 5 (writeFive (0, 0) passBound).final (writeFive (0, 0) passBound).afterRead := by
  intro sees
  have zero : (voltageValue (0, 0)).setWidth 32 = (0 : Word) := by decide
  have answered := writeFive_answered (0, 0) passBound
  rw [zero] at answered
  have seesZero := seesWrite_of_answered (writeFive_valid (0, 0) (Nat.le_refl passBound)) answered
  exact absurd (sees.kept.symm.trans seesZero.kept) (by decide)

end BmsFirmware.Primary.ReadsSeeWrites
