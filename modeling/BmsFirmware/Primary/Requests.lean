/- Module: BmsFirmware/Primary/Requests
   Source: application/primary/main.c, application/dataprocess/process.c
   Digest: When every request of a frame is served by the end of the next full pass. -/

import BmsFirmware.Primary.Pass

set_option autoImplicit false
set_option relaxedAutoImplicit false

namespace BmsFirmware.Primary.Requests

open BmsFirmware.Library.ByteMemory
open BmsFirmware.Library.ActionMachine
open BmsFirmware.Flash.Controller (Environment Board)
open BmsFirmware.Registers.PuTable
open BmsFirmware.Registers.HashIndex
open BmsFirmware.Registers.Frames
open BmsFirmware.DataProcess.Process
open BmsFirmware.DataProcess.FrameEffect
open BmsFirmware.DataProcess.Reply
open BmsFirmware.Primary.MainLoop
open BmsFirmware.Primary.Pass

/-- Whenever a frame of the run asks something of the register and a pass that starts
after it has ended, the request has been served in between. -/
def NoRequestLost (r : Nat) (actions : List Action) (start : System) : Prop :=
  ∀ (k : Request) (front : List Action) (env : Environment) (grant : Nat → Bool)
    (input : CommFrame) (back : List Action),
    actions = front ++ .frame env grant input :: back → k.Asks r input →
      let later := emitted step back (exec step (front ++ [.frame env grant input]) start)
      List.Sublist [.passStarts, .passEnds] later → Seen (k.Served r) later

/-- A frame that asks something of the register finds no request of the other kind pending,
and a read frame can allocate its answer. -/
def Timely (r : Nat) : Action → System → Prop
  | .main _, _ => True
  | .frame _ grant input, s => ∀ k : Request, k.Asks r input →
      s.status r ≠ k.other.code ∧
        (k = .read → FrameGranted grant input.dataCount s.device.heap)

/-! ### What a timely step keeps -/

/-- A status that is about to be cleared is still the one that was tested. -/
def Settled (r : Nat) (s : System) : Prop := ∀ k : Request, At k.clear r s → s.status r = k.code

/-- A request is pending: it is in the status, or about to be served. -/
def Pending (k : Request) (r : Nat) (s : System) : Prop :=
  s.status r = k.code ∧ ¬At k.other.clear r s ∨ At k.serve r s

/-- The pending request is still ahead in this turn. -/
structure Ahead (k : Request) (r : Nat) (s : System) : Prop where
  pending : Pending k r s
  place : r ∈ upcoming s.control ∨ At .testRead r s ∨ At k.test r s ∨ At k.clear r s ∨
    At k.serve r s

section Steps

variable {r : Nat} {s : System}

private theorem code_other (k : Request) : k.code ≠ k.other.code := by
  cases k <;> decide

private theorem status_main (service : Service) (kept : ∀ k : Request, ¬At k.clear r s) :
    (step (.main service) s).1.status r = s.status r :=
  mainStep_status service kept

/-- After a timely frame: the request it makes is in the status, or the status is kept. -/
private theorem status_frame {env : Environment} {grant : Nat → Bool} {input : CommFrame}
    (found : r ≠ 0) (timely : Timely r (.frame env grant input) s) :
    (∃ k : Request, k.Asks r input ∧ s.status r ≠ k.other.code ∧
        (step (.frame env grant input) s).1.status r = k.code) ∨
      (step (.frame env grant input) s).1.status r = s.status r := by
  by_cases asked : ∃ k : Request, k.Asks r input
  · obtain ⟨k, asked⟩ := asked
    obtain ⟨other, granted⟩ := timely k asked
    exact Or.inl ⟨k, asked, other, frame_asked env grant input s found asked granted⟩
  · have unasked : ∀ k : Request, ¬k.Asks r input := fun k h => asked ⟨k, h⟩
    exact Or.inr (congrArg PUData.status (frame_unasked env grant input s found unasked))

/-- A timely frame does not take the place of a pending request. -/
private theorem status_held {env : Environment} {grant : Nat → Bool} {input : CommFrame}
    {k : Request} (found : r ≠ 0) (timely : Timely r (.frame env grant input) s)
    (status : s.status r = k.code) : (step (.frame env grant input) s).1.status r = k.code := by
  rcases status_frame found timely with ⟨k', -, other, after⟩ | kept
  · have same : k' = k := by
      cases k <;> cases k'
      · rfl
      · exact absurd status other
      · exact absurd status other
      · rfl
    rw [after, same]
  · rw [kept, status]

private theorem settled_step (found : r ≠ 0) (a : Action) (timely : Timely r a s)
    (settled : Settled r s) : Settled r (step a s).1 := by
  intro k clearing
  cases a with
  | main service =>
    obtain ⟨testing, pending⟩ := mainStep_clear service clearing
    rw [status_main service, pending]
    intro k' clearing'
    have same := (testing.unique clearing').1
    cases k <;> cases k' <;> cases same
  | frame env grant input => exact status_held found timely (settled k clearing)

/-- Only being served ends a pending request. -/
private theorem pending_step {k : Request} (found : r ≠ 0) (a : Action) (timely : Timely r a s)
    (pending : Pending k r s) :
    Seen (k.Served r) (step a s).2.toList ∨ Pending k r (step a s).1 := by
  rcases pending with ⟨status, untouched⟩ | serving
  · right
    cases a with
    | main service =>
      by_cases clearing : At k.clear r s
      · exact Or.inr (mainStep_of_clear service clearing)
      · have kept : ∀ k' : Request, ¬At k'.clear r s := Request.both k clearing untouched
        refine Or.inl ⟨(status_main service kept).trans status, ?_⟩
        intro clearing'
        exact code_other k (status.symm.trans (mainStep_clear service clearing').2)
    | frame env grant input => exact Or.inl ⟨status_held found timely status, untouched⟩
  · cases a with
    | main service => exact Or.inl ((mainStep_served service k).mpr serving)
    | frame env grant input => exact Or.inr (Or.inr serving)

private theorem not_passEnds {k : Request} {service : Service} (ahead : Ahead k r s) :
    (mainStep service s).2 ≠ some .passEnds := by
  intro ends
  have ended := mainStep_passEnds service ends
  have visiting (access : Access) : ¬At access r s := by
    intro here
    obtain ⟨rest, here⟩ := here
    rw [ended] at here
    cases here
  rcases ahead.place with later | here | here | here | here
  · rw [ended] at later
    exact absurd later List.not_mem_nil
  · exact visiting _ here
  · exact visiting _ here
  · exact visiting _ here
  · exact visiting _ here

/-- A pending request that is ahead in this turn is served before the pass ends. -/
private theorem ahead_step {k : Request} (found : r ≠ 0) (a : Action) (timely : Timely r a s)
    (ahead : Ahead k r s) :
    Seen (k.Served r) (step a s).2.toList ∨
      Ahead k r (step a s).1 ∧ (step a s).2 ≠ some .passEnds := by
  rcases pending_step found a timely ahead.pending with served | pending
  · exact Or.inl served
  · cases a with
    | main service =>
      by_cases serving : At k.serve r s
      · exact Or.inl ((mainStep_served service k).mpr serving)
      · have status : s.status r = k.code := (ahead.pending.resolve_right serving).1
        refine Or.inr ⟨⟨pending, ?_⟩, not_passEnds ahead⟩
        rcases ahead.place with later | testing | testing | clearing | serving'
        · exact (mainStep_upcoming service found later).imp_right Or.inl
        · cases k with
          | read =>
            have clearing : At Request.read.clear r _ := mainStep_of_test service testing status
            exact Or.inr (Or.inr (Or.inr (Or.inl clearing)))
          | write =>
            have other : s.status r ≠ 1 := by
              rw [status]
              decide
            exact Or.inr (Or.inr (Or.inl (mainStep_of_testRead service testing other)))
        · exact Or.inr (Or.inr (Or.inr (Or.inl (mainStep_of_test service testing status))))
        · exact Or.inr (Or.inr (Or.inr (Or.inr (mainStep_of_clear service clearing))))
        · exact absurd serving' serving
    | frame env grant input =>
      exact Or.inr ⟨⟨pending, ahead.place⟩, fun ends => Option.some_ne_none _ ends.symm⟩

/-- A pass that starts finds every pending request ahead. -/
private theorem ahead_of_passStarts {k : Request} {a : Action} (served : Scanned r)
    (pending : Pending k r (step a s).1) (starts : (step a s).2 = some .passStarts) :
    Ahead k r (step a s).1 := by
  cases a with
  | main service =>
    refine ⟨pending, Or.inl ?_⟩
    change r ∈ upcoming (mainStep service s).1.control
    rw [mainStep_passStarts service starts]
    exact served.1
  | frame env grant input => exact absurd starts.symm (Option.some_ne_none _)

end Steps

/-! ### Whole runs -/

/-- A pending request for a scanned register is served within the next full pass. -/
theorem pending_served {k : Request} {r : Nat} {s : System} {actions : List Action}
    (scanned : Scanned r) (pending : Pending k r s) (timely : Along step (Timely r) actions s)
    (passed : List.Sublist [.passStarts, .passEnds] (emitted step actions s)) :
    Seen (k.Served r) (emitted step actions s) := by
  refine timely.response (P := Pending k r) (Q := Ahead k r) ?_ ?_ pending passed
  · intro a s ok waiting
    rcases pending_step scanned.2 a ok waiting with served | next
    · exact Or.inl served
    · exact Or.inr ⟨next, ahead_of_passStarts scanned next⟩
  · intro a s ok ahead
    exact ahead_step scanned.2 a ok ahead

/-- In a run from the reset whose frames are timely for a scanned register, no request for
it is lost. -/
theorem requests_served (flash : Memory) (r : Nat) (scanned : Scanned r) (actions : List Action)
    (timely : Along step (Timely r) actions (.initial flash)) :
    NoRequestLost r actions (.initial flash) := by
  intro k front env grant input back split asked later passed
  have found : r ≠ 0 := scanned.2
  rw [split, Along.append] at timely
  obtain ⟨before, now, after⟩ := timely
  have settled : Settled r (exec step front (.initial flash)) := by
    refine before.keeps (fun a s ok => settled_step found a ok) ?_
    intro k clearing
    exact absurd clearing (not_at_of_turn rfl)
  obtain ⟨other, granted⟩ := now k asked
  have state : exec step (front ++ [.frame env grant input]) (.initial flash) =
      (step (.frame env grant input) (exec step front (.initial flash))).1 :=
    exec_append front [_] _
  have pending : Pending k r (step (.frame env grant input) (exec step front (.initial flash))).1 :=
    Or.inl ⟨frame_asked env grant input _ found asked granted,
      fun clearing => other (settled k.other clearing)⟩
  simp only [later, state] at passed ⊢
  exact pending_served scanned pending after passed

/-! ### A register nobody asks for -/

/-- No request of this kind is pending. -/
structure Unasked (k : Request) (r : Nat) (s : System) : Prop where
  status : s.status r ≠ k.code
  clearing : ¬At k.clear r s
  serving : ¬At k.serve r s

/-- The action is no frame that asks this of the register. -/
def AsksNot (k : Request) (r : Nat) : Action → Prop
  | .main _ => True
  | .frame _ _ input => ¬k.Asks r input

/-- Without a frame that asks for it, nothing is served. -/
theorem unasked_step {k : Request} {r : Nat} (found : r ≠ 0) (a : Action) (s : System)
    (none : AsksNot k r a) (unasked : Unasked k r s) :
    Unasked k r (step a s).1 ∧ ∀ e, (step a s).2 = some e → ¬k.Served r e := by
  cases a with
  | main service =>
    refine ⟨⟨?_, ?_, ?_⟩, ?_⟩
    · by_cases kept : ∀ k' : Request, ¬At k'.clear r s
      · rw [status_main service kept]
        exact unasked.status
      · obtain ⟨k', clearing⟩ := not_forall_not.mp kept
        change (mainStep service s).1.status r ≠ k.code
        rw [mainStep_cleared service clearing]
        cases k <;> decide
    · intro next
      exact unasked.status (mainStep_clear service next).2
    · intro next
      exact unasked.clearing (mainStep_serve service next)
    · intro e emitted served
      exact unasked.serving ((mainStep_served service k).mp (Seen.single emitted served))
  | frame env grant input =>
    refine ⟨⟨?_, unasked.clearing, unasked.serving⟩, fun e emitted => nomatch emitted⟩
    by_cases asked : k.other.Asks r input
    · by_cases granted : k.other = .read → FrameGranted grant input.dataCount s.device.heap
      · rw [frame_asked env grant input s found asked granted]
        exact (code_other k).symm
      · obtain ⟨read, refused⟩ := Classical.not_imp.mp granted
        rw [read] at asked
        have kept := frame_refused env grant input s asked.1 refused
        rw [System.status, kept]
        exact unasked.status
    · have nothing : ∀ k' : Request, ¬k'.Asks r input := Request.both k none asked
      have kept := frame_unasked env grant input s found nothing
      rw [System.status, puGetStatus, kept]
      exact unasked.status

/-! ### A request that is served and one that is lost -/

/-- The interrupt accepts a frame while all allocations and flash operations succeed. -/
def accepts (input : CommFrame) : Action := .frame (.flawless fun _ => 0) (fun _ => true) input

/-- A bus on which nothing answers, and memory for every request. -/
def silentBus : Service := ⟨fun _ => true, (0, 0)⟩

/-- `n` accesses of the main loop on the silent bus. -/
def runsOn (n : Nat) : List Action := mains (fun _ => silentBus) 0 n

private theorem timely_runsOn (r n : Nat) (s : System) : Along step (Timely r) (runsOn n) s :=
  along_mains (fun _ _ => trivial) s

private theorem timely_accepts {r : Nat} {input : CommFrame} {s : System}
    (idle : ∀ k : Request, s.status r ≠ k.other.code) : Timely r (accepts input) s :=
  fun k _ => ⟨idle k, fun _ => ⟨rfl, fun _ => rfl⟩⟩

/-- Of two requests of different kinds that arrive before the main loop looks, the first
is lost. -/
private theorem overwritten {k : Request} {r : Nat} {first second : CommFrame} (found : r ≠ 0)
    (asked : k.Asks r first) (asked' : k.other.Asks r second) (d : Device) {n : Nat}
    (enough : passBound ≤ n) :
    ¬NoRequestLost r (accepts first :: accepts second :: runsOn n) ⟨d, .turn⟩ := by
  intro served
  let after := (step (accepts second) (step (accepts first) ⟨d, .turn⟩).1).1
  have pending : after.status r = k.other.code :=
    frame_asked _ _ second _ found asked' fun _ => ⟨rfl, fun _ => rfl⟩
  have unasked : Unasked k r after :=
    ⟨fun same => code_other k (same.symm.trans pending), not_at_of_turn rfl, not_at_of_turn rfl⟩
  have passed : List.Sublist [.passStarts, .passEnds] (emitted step (runsOn n) after) :=
    pass_ends (fun _ => silentBus) after.device 0 n enough
  have mains : Along step (fun a _ => AsksNot k r a) (runsOn n) after :=
    along_mains (fun _ _ => trivial) after
  have later := served k [] _ _ first (accepts second :: runsOn n) rfl asked
  change List.Sublist _ (emitted step (accepts second :: runsOn n) (step (accepts first) _).1) →
    Seen _ (emitted step (accepts second :: runsOn n) (step (accepts first) _).1) at later
  rw [emitted_cons] at later
  obtain ⟨e, member, seen⟩ := later passed
  exact mains.emits (fun a s none kept => unasked_step found a s none kept) unasked e member seen

def readOne : CommFrame := ⟨0x01, PU_FUN_READ, 1, [⟨0x1000, 0x0000, 0⟩], 0⟩

def writeOne : CommFrame := ⟨0x01, PU_FUN_WRITE, 1, [⟨0x1000, 0x0000, 5⟩], 0⟩

/-- The register behind the reserved one is served. -/
theorem scanned_one : Scanned 1 :=
  ⟨List.mem_map.mpr ⟨(0x1000, 0x0000), by decide +kernel, puSearchId_of_names (by decide +kernel)⟩,
    by decide⟩

theorem readOne_asks : Request.read.Asks 1 readOne := by
  decide +kernel

/-- A read frame for the first register right before the loop tests for it, and a write frame
for it between the answer and the next test. -/
def readThenWrite : List Action :=
  runsOn 2 ++ accepts readOne :: (runsOn 3 ++ accepts writeOne :: runsOn (2 * passBound))

/-- Neither of two requests that arrive between accesses of a pass is lost. -/
theorem requests_served_between : NoRequestLost 1 readThenWrite (.initial fun _ => 0xFF) := by
  refine requests_served (fun _ => 0xFF) 1 scanned_one _ ?_
  refine Along.append.mpr ⟨timely_runsOn 1 2 _, timely_accepts ?_, ?_⟩
  · intro k
    cases k <;> decide +kernel
  refine Along.append.mpr ⟨timely_runsOn 1 3 _, timely_accepts ?_, timely_runsOn 1 _ _⟩
  intro k
  cases k <;> decide +kernel

/-- A write of the first register that arrives before the main loop has seen a read of it
takes its place. -/
theorem readThenWrite_loses :
    ¬NoRequestLost 1 (accepts readOne :: accepts writeOne :: runsOn passBound)
      (.initial fun _ => 0xFF) :=
  overwritten (k := .read) (by decide) readOne_asks (by decide +kernel) _
    (Nat.le_refl _)

end BmsFirmware.Primary.Requests
