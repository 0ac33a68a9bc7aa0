/- Module: BmsFirmware/Drive/BackToIdle
   Source: application/drive/i2c_inter.c
   Digest: From which states of the I2C driver interrupts lead back to the idle one. -/

import BmsFirmware.Drive.I2cInter

set_option autoImplicit false
set_option relaxedAutoImplicit false

namespace BmsFirmware.Drive.BackToIdle

open BmsFirmware.Library.ByteMemory
open BmsFirmware.Library.ActionMachine
open BmsFirmware.Drive.I2cInter

/-! ### Runs of the driver -/

/-- An interrupt occurs only while it is enabled. -/
def Occurs : Action → Driver → Prop
  | .request _, _ => True
  | .event _ _, s => s.peripheral.evie = true ∧ s.peripheral.evIrq = true
  | .error _, s => s.peripheral.errie = true ∧ s.peripheral.erIrq = true

instance : (a : Action) → (s : Driver) → Decidable (Occurs a s)
  | .request _, _ => inferInstanceAs (Decidable True)
  | .event _ _, _ => inferInstanceAs (Decidable (_ ∧ _))
  | .error _, _ => inferInstanceAs (Decidable (_ ∧ _))

def IsInterrupt : Action → Prop
  | .request _ => False
  | .event _ _ => True
  | .error _ => True

/-- The sub-state in which a request that is accepted leaves the driver. -/
def firstState : Request → SubState
  | .write _ _ _ _ => .writeStart
  | .read _ _ _ _ => .readStart1

/-- Interrupts can bring the driver back to idle, so that it accepts the next request. -/
def CanReturn (s : Driver) : Prop :=
  ∃ as : List Action, (∀ a ∈ as, IsInterrupt a) ∧ Along step Occurs as s ∧
    (exec step as s).Idle ∧ ∀ r : Request, (r.run (exec step as s)).state = firstState r

/-- Neither a write that is accepted nor an error interrupt in a transfer. -/
def Harmless : Action → Driver → Prop
  | .request (.write _ _ _ _), s => s.busy = true
  | .request (.read _ _ _ _), _ => True
  | .event _ _, _ => True
  | .error _, s => s.busy = false

/-! ### The phases of the driver -/

/-- The three interrupts are switched on or off together. -/
structure Enabled (on : Bool) (s : Driver) : Prop where
  evie : s.peripheral.evie = on
  errie : s.peripheral.errie = on
  bufie : s.peripheral.bufie = on
  evIrq : s.peripheral.evIrq = true
  erIrq : s.peripheral.erIrq = true

structure Free (s : Driver) : Prop where
  idle : s.Idle
  enabled : Enabled false s

structure Reading (s : Driver) : Prop where
  busy : s.busy = true
  state : InRead s.state
  enabled : Enabled true s

/-- Nothing leads out: a write has no handler, and an error has switched the interrupts off. -/
structure Stuck (s : Driver) : Prop where
  busy : s.busy = true
  locked : s.state = .writeStart ∧ Enabled true s ∨ Enabled false s

/-- The phases in which the driver can still return. -/
def Alive (s : Driver) : Prop := Free s ∨ Reading s

section Phases

variable {s : Driver}

theorem idle_accepts (idle : s.Idle) (r : Request) : (r.run s).state = firstState r := by
  have free : ¬s.busy = true := by simp [idle.free]
  cases r <;> exact congrArg Driver.state (if_neg free)

private theorem Free.request (free : Free s) (r : Request) :
    (r.run s).busy = true ∧ (r.run s).state = firstState r ∧ Enabled true (r.run s) := by
  have idle : ¬s.busy = true := by simp [free.idle.free]
  have accepted := idle_accepts free.idle r
  cases r with
  | write devAddr regAddr pData length =>
    have run : (Request.write devAddr regAddr pData length).run s = _ := if_neg idle
    rw [run] at accepted ⊢
    exact ⟨rfl, accepted, ⟨rfl, rfl, rfl, free.enabled.evIrq, free.enabled.erIrq⟩⟩
  | read devAddr regAddr pBuf length =>
    have run : (Request.read devAddr regAddr pBuf length).run s = _ := if_neg idle
    rw [run] at accepted ⊢
    exact ⟨rfl, accepted, ⟨rfl, rfl, rfl, free.enabled.evIrq, free.enabled.erIrq⟩⟩

private theorem Enabled.off {a : Action} (off : Enabled false s) (occurs : Occurs a s) :
    ∃ r, a = .request r := by
  cases a with
  | request r => exact ⟨r, rfl⟩
  | event stat data =>
    have on := occurs.1
    rw [off.evie] at on
    cases on
  | error stat =>
    have on := occurs.1
    rw [off.errie] at on
    cases on

/-- After an error interrupt all interrupts are off. -/
private theorem error_off (stat : Flag → Bool) (s : Driver) :
    Enabled false (erIrqHandler stat s) := by
  rw [erIrqHandler_eq]
  exact ⟨rfl, rfl, rfl, rfl, rfl⟩

private theorem error_busy (stat : Flag → Bool) (s : Driver) :
    (erIrqHandler stat s).busy = s.busy := by
  rw [erIrqHandler_eq]

private theorem Stuck.next {a : Action} (stuck : Stuck s) (occurs : Occurs a s) :
    Stuck (a.run s) := by
  cases a with
  | request r =>
    change Stuck (r.run s)
    rw [request_busy stuck.busy]
    exact stuck
  | event stat data =>
    rcases stuck.locked with ⟨writing, -⟩ | off
    · have ignored : evIrqHandler stat data s = s := by
        unfold evIrqHandler
        simp only [writing]
      change Stuck (evIrqHandler stat data s)
      rw [ignored]
      exact stuck
    · obtain ⟨r, request⟩ := off.off occurs
      cases request
  | error stat => exact ⟨(error_busy stat s).trans stuck.busy, Or.inr (error_off stat s)⟩

/-- A driver that is stuck stays stuck. -/
theorem Stuck.not_canReturn (stuck : Stuck s) : ¬CanReturn s := by
  rintro ⟨as, -, occurs, idle, -⟩
  have still : Stuck (exec step as s) :=
    occurs.keeps (P := Stuck) (fun a s (now : Occurs a s) h => h.next now) stuck
  have free := idle.free
  rw [still.busy] at free
  cases free

private theorem Reading.at {s' : Driver} (reading : Reading s) (state : SubState)
    (here : s'.state = state) (busy : s'.busy = s.busy) (inside : InRead state)
    (enabled : Enabled true s') : Reading s' := by
  refine ⟨busy.trans reading.busy, ?_, enabled⟩
  rw [here]
  exact inside

private theorem enabled_receiveData {on : Bool} (enabled : Enabled on s) (data : Byte) :
    Enabled on (receiveData data s) ∧ (receiveData data s).busy = s.busy := by
  unfold receiveData
  dsimp only
  split_ifs <;> exact ⟨⟨enabled.evie, enabled.errie, enabled.bufie, enabled.evIrq,
    enabled.erIrq⟩, rfl⟩

private theorem finishRead_free (enabled : Enabled true s) : Free (finishRead s) :=
  ⟨⟨rfl, rfl⟩, ⟨rfl, rfl, rfl, enabled.evIrq, enabled.erIrq⟩⟩

/-- An event interrupt carries a read on or finishes it. -/
private theorem Reading.event (reading : Reading s) {s' : Driver} {data : Byte}
    (moved : EventStep data s s') : Reading s' ∨ Free s' := by
  have enabled := reading.enabled
  cases moved with
  | ignored => exact Or.inl reading
  | prelude move op quiet =>
    exact Or.inl (reading.at _ rfl rfl (preludeNext_inRead move).1
      ⟨enabled.evie, enabled.errie, enabled.bufie, enabled.evIrq, enabled.erIrq⟩)
  | addressed here =>
    left
    rw [addressedToRead_eq]
    exact reading.at .readData rfl rfl (by decide)
      ⟨enabled.evie, enabled.errie, enabled.bufie, enabled.evIrq, enabled.erIrq⟩
  | received here =>
    left
    obtain ⟨still, busy⟩ := enabled_receiveData enabled data
    refine reading.at _ (receiveData_state data s) busy ?_ still
    split_ifs
    · decide
    · decide
    · exact reading.state
  | threeLeft here =>
    exact Or.inl (reading.at .readData rfl rfl (by decide)
      ⟨enabled.evie, enabled.errie, enabled.bufie, enabled.evIrq, enabled.erIrq⟩)
  | stopped here => exact Or.inr (finishRead_free enabled)

/-- A harmless action keeps the driver alive. -/
private theorem Alive.next {a : Action} (alive : Alive s) (occurs : Occurs a s)
    (harmless : Harmless a s) : Alive (a.run s) := by
  rcases alive with free | reading
  · obtain ⟨r, rfl⟩ := free.enabled.off occurs
    obtain ⟨busy, state, enabled⟩ := free.request r
    cases r with
    | write devAddr regAddr pData length =>
      have taken : s.busy = true := harmless
      rw [free.idle.free] at taken
      cases taken
    | read devAddr regAddr pBuf length =>
      refine Or.inr ⟨busy, ?_, enabled⟩
      change InRead (Request.run _ s).state
      rw [state]
      change InRead .readStart1
      decide
  · cases a with
    | request r =>
      change Alive (r.run s)
      rw [request_busy reading.busy]
      exact Or.inr reading
    | event stat data => exact (reading.event (evIrqHandler_step stat data s)).symm
    | error stat =>
      have idle : s.busy = false := harmless
      rw [reading.busy] at idle
      cases idle

/-- Any other one leaves it stuck. -/
private theorem Alive.harmed {a : Action} (alive : Alive s) (occurs : Occurs a s)
    (harmful : ¬Harmless a s) : Stuck (a.run s) := by
  cases a with
  | request r =>
    cases r with
    | write devAddr regAddr pData length =>
      rcases alive with free | reading
      · obtain ⟨busy, state, enabled⟩ := free.request (.write devAddr regAddr pData length)
        exact ⟨busy, Or.inl ⟨state, enabled⟩⟩
      · exact absurd reading.busy harmful
    | read devAddr regAddr pBuf length => exact absurd trivial harmful
  | event stat data => exact absurd trivial harmful
  | error stat =>
    rcases alive with free | reading
    · exact absurd free.idle.free harmful
    · exact ⟨(error_busy stat s).trans reading.busy, Or.inr (error_off stat s)⟩

/-! ### Progress of a read -/

/-- The bytes still to be taken; a counter of zero runs through all its values. -/
private def bytesLeft (s : Driver) : Nat := (s.rxCount - 1).toNat + 1

/-- A bound on the event interrupts, each with its flag set, up to the idle state. -/
private def remaining (s : Driver) : Nat :=
  match s.state with
  | .readStart1 => 2 * bytesLeft s + 7
  | .readSendAddrW => 2 * bytesLeft s + 6
  | .readAddrWAck => 2 * bytesLeft s + 5
  | .readSendReg => 2 * bytesLeft s + 4
  | .readStart2 => 2 * bytesLeft s + 3
  | .readSendAddrR => 2 * bytesLeft s + 2
  | .readData => 2 * bytesLeft s + 1
  | .read3LeftWaitBtc => 2 * bytesLeft s + 2
  | .readStop => 1
  | _ => 0

private theorem remaining_receiveData (here : s.state = .readData) (data : Byte) :
    remaining (receiveData data s) < remaining s := by
  have before : remaining s = 2 * bytesLeft s + 1 := by
    unfold remaining
    simp only [here]
  have left : bytesLeft s = (s.rxCount - 1).toNat + 1 := rfl
  have next : bytesLeft (receiveData data s) = (s.rxCount - 1 - 1).toNat + 1 := by
    rw [bytesLeft, receiveData_count]
  have state := receiveData_state data s
  rw [before, remaining]
  split_ifs at state with three zero
  · simp only [state]
    have fewer := count_less (show s.rxCount - 1 ≠ 0 by rw [three]; decide)
    omega
  · simp only [state]
    omega
  · rw [here] at state
    simp only [state]
    have fewer := count_less zero
    omega

/-- With every flag set an event interrupt makes progress. -/
private theorem Reading.pulse (reading : Reading s) (data : Byte) :
    remaining (evIrqHandler (fun _ => true) data s) < remaining s := by
  have enabled := reading.enabled
  have set (flag : Flag) : interruptFlagGet (fun _ => true) s.peripheral flag = true := by
    cases flag <;> simp [interruptFlagGet, enabled.evie, enabled.errie, enabled.bufie]
  have inside := reading.state
  unfold evIrqHandler
  simp only [set, if_true]
  cases here : s.state with
  | readData => exact remaining_receiveData here data
  | readSendAddrR =>
    unfold remaining
    simp only [here, addressedToRead_eq]
    exact Nat.lt_succ_self _
  | readStart1 | readSendAddrW | readAddrWAck | readSendReg | readStart2 | read3LeftWaitBtc =>
    unfold remaining
    simp only [here]
    exact Nat.lt_succ_self _
  | readStop =>
    unfold remaining
    simp only [here]
    exact Nat.succ_pos _
  | _ =>
    rw [here] at inside
    exact absurd inside (by decide)

/-- A read comes to its end by event interrupts. -/
private theorem Reading.canReturn (reading : Reading s) : CanReturn s := by
  induction bound : remaining s using Nat.strongRecOn generalizing s with
  | ind k ih =>
    let pulse : Action := .event (fun _ => true) 0
    have occurs : Occurs pulse s := ⟨reading.enabled.evie, reading.enabled.evIrq⟩
    rcases reading.event (evIrqHandler_step (fun _ => true) 0 s) with still | free
    · have less : remaining (evIrqHandler (fun _ => true) 0 s) < k := bound ▸ reading.pulse 0
      obtain ⟨as, interrupts, occur, idle, accepts⟩ := ih _ less still rfl
      refine ⟨pulse :: as, ?_, ⟨occurs, occur⟩, idle, accepts⟩
      intro a member
      rcases List.mem_cons.mp member with rfl | member
      · exact trivial
      · exact interrupts a member
    · refine ⟨[pulse], ?_, ⟨occurs, trivial⟩, free.idle, fun r => idle_accepts free.idle r⟩
      intro a member
      obtain rfl := List.mem_singleton.mp member
      exact trivial

theorem Alive.canReturn (alive : Alive s) : CanReturn s := by
  rcases alive with free | reading
  · exact ⟨[], fun a member => absurd member List.not_mem_nil, trivial, free.idle,
      fun r => idle_accepts free.idle r⟩
  · exact reading.canReturn

end Phases

/-! ### Every run -/

private theorem alive_initial (memory : Memory) : Alive (.initial memory) :=
  Or.inl ⟨⟨rfl, rfl⟩, ⟨rfl, rfl, rfl, rfl, rfl⟩⟩

private theorem returns_iff {as : List Action} {s : Driver} (alive : Alive s)
    (occur : Along step Occurs as s) :
    (∀ front, front <+: as → CanReturn (exec step front s)) ↔ Along step Harmless as s := by
  induction as generalizing s with
  | nil =>
    refine iff_of_true ?_ trivial
    intro front prefixed
    obtain rfl := List.prefix_nil.mp prefixed
    exact alive.canReturn
  | cons a as ih =>
    obtain ⟨now, later⟩ := occur
    constructor
    · intro returns
      have harmless : Harmless a s := by
        by_contra harmful
        refine (alive.harmed now harmful).not_canReturn ?_
        exact returns [a] ⟨as, rfl⟩
      refine ⟨harmless, (ih (alive.next now harmless) later).mp ?_⟩
      intro front prefixed
      exact returns (a :: front) (List.cons_prefix_cons.mpr ⟨rfl, prefixed⟩)
    · rintro ⟨harmless, rest⟩ front prefixed
      rcases List.prefix_cons_iff.mp prefixed with rfl | ⟨front, rfl, shorter⟩
      · exact alive.canReturn
      · exact (ih (alive.next now harmless) later).mpr rest front shorter

/-- In every run the driver can return to idle from every state it reaches exactly if no
write is accepted and no error interrupt comes in a transfer. -/
theorem driver_returns_iff (memory : Memory) (as : List Action)
    (occur : Along step Occurs as (.initial memory)) :
    (∀ front, front <+: as → CanReturn (exec step front (.initial memory))) ↔
      Along step Harmless as (.initial memory) :=
  returns_iff (alive_initial memory) occur

/-- A read of one byte that is served throughout. -/
theorem driver_returns_read :
    (∀ front, front <+: .request (.read 0x10 0x00 0x20000000 1) :: flagged 0x5A 8 →
        CanReturn (exec step front (.initial fun _ => 0))) ↔
      Along step Harmless (.request (.read 0x10 0x00 0x20000000 1) :: flagged 0x5A 8)
        (.initial fun _ => 0) :=
  driver_returns_iff _ _ (by decide)

/-- After a write of one byte nothing brings the driver back. -/
theorem write_neverReturns :
    ¬∀ as : List Action, Along step Occurs as (.initial fun _ => 0) →
      CanReturn (exec step as (.initial fun _ => 0)) := by
  intro returns
  have stuck : Stuck (exec step [.request (.write 0x10 0x00 0x20000000 1)] (.initial fun _ => 0)) :=
    ⟨rfl, Or.inl ⟨rfl, ⟨rfl, rfl, rfl, rfl, rfl⟩⟩⟩
  exact stuck.not_canReturn (returns _ ⟨trivial, trivial⟩)

end BmsFirmware.Drive.BackToIdle
