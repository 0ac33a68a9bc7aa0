/- Module: BmsFirmware/Drive/ReadTransfer
   Source: application/drive/i2c_inter.c
   Digest: What a read has stored, counted and reported, in every state of every run. -/

import BmsFirmware.Drive.I2cInter

set_option autoImplicit false
set_option relaxedAutoImplicit false

namespace BmsFirmware.Drive.ReadTransfer

open BmsFirmware.Library.ByteMemory
open BmsFirmware.Library.ActionMachine
open BmsFirmware.Drive.I2cInter

/-! ### The bytes of a transfer -/

/-- The bytes taken from the data register. -/
def received (ops : List BusOp) : List Byte :=
  ops.filterMap fun
    | .dataReceive data => some data
    | _ => none

/-- What has been done on the bus since the state `start`. -/
def since (start s : Driver) : List BusOp := s.journal.drop start.journal.length

/-- The bytes taken since the state `start`, in order. -/
def taken (start s : Driver) : List Byte := received (since start s)

theorem received_append (ops ops' : List BusOp) :
    received (ops ++ ops') = received ops ++ received ops' :=
  List.filterMap_append

theorem received_quiet {op : BusOp} (quiet : op.Quiet) : received [op] = [] := by
  cases op with
  | dataReceive data => exact quiet.elim
  | _ => rfl

section Since

variable {start s s' : Driver}

theorem since_append {ops : List BusOp} (begun : start.journal <+: s.journal)
    (more : s'.journal = s.journal ++ ops) : since start s' = since start s ++ ops := by
  rw [since, more, List.drop_append_of_le_length begun.length_le, since]

theorem taken_append {ops : List BusOp} (begun : start.journal <+: s.journal)
    (more : s'.journal = s.journal ++ ops) : taken start s' = taken start s ++ received ops := by
  rw [taken, since_append begun more, received_append, taken]

end Since

/-! ### The invariant of a read -/

/-- The read is under way; only its last state has nothing left to count. -/
structure Running (s : Driver) : Prop where
  busy : s.busy = true
  pending : s.success = false
  state : InRead s.state
  left : s.state = .readStop ↔ s.rxCount = 0

private theorem Running.at {s s' : Driver} (h : Running s) (state : SubState)
    (here : s'.state = state) (busy : s'.busy = s.busy) (pending : s'.success = s.success)
    (inside : InRead state) (left : state = .readStop ↔ s'.rxCount = 0) : Running s' := by
  refine ⟨busy.trans h.busy, pending.trans h.pending, ?_, ?_⟩
  · rw [here]
    exact inside
  · rw [here]
    exact left

/-- The read is over. -/
structure Finished (s : Driver) : Prop where
  state : s.state = .idle
  free : s.busy = false
  done : s.success = true
  left : s.rxCount = 0

/-- A read of `n` bytes to `pBuf` that was requested in the state `start`. -/
structure Transfer (start : Driver) (pBuf : Nat) (n : Word) (s : Driver) : Prop where
  begun : start.journal <+: s.journal
  stored : s.memory = fill start.memory pBuf (taken start s).length (ofList (taken start s))
  pointer : s.rxBuf = pBuf + (taken start s).length
  count : s.rxCount.toNat + (taken start s).length = n.toNat
  phase : Running s ∨ Finished s

section Steps

variable {start s : Driver} {pBuf : Nat} {n : Word}

theorem Transfer.running (h : Transfer start pBuf n s) (busy : s.state ≠ .idle) : Running s :=
  h.phase.resolve_right fun ended => busy ended.state

/-- A step that takes no byte and leaves the buffer alone. -/
private theorem Transfer.quiet {s' : Driver} (h : Transfer start pBuf n s) {ops : List BusOp}
    (more : s'.journal = s.journal ++ ops) (none : received ops = [])
    (memory : s'.memory = s.memory) (pointer : s'.rxBuf = s.rxBuf)
    (count : s'.rxCount = s.rxCount) (phase : Running s' ∨ Finished s') :
    Transfer start pBuf n s' := by
  have same : taken start s' = taken start s := by
    rw [taken_append h.begun more, none, List.append_nil]
  refine ⟨?_, ?_, ?_, ?_, phase⟩
  · rw [more]
    exact h.begun.trans (List.prefix_append _ _)
  · rw [memory, same]
    exact h.stored
  · rw [pointer, same]
    exact h.pointer
  · rw [count, same]
    exact h.count

/-- One more byte behind those that are stored. -/
private theorem stored_snoc (m : Memory) (lo : Nat) (l : List Byte) (b : Byte) :
    Function.update (fill m lo l.length (ofList l)) (lo + l.length) b =
      fill m lo (l ++ [b]).length (ofList (l ++ [b])) := by
  funext x
  rw [List.length_append, List.length_singleton, Function.update_apply]
  by_cases last : x = lo + l.length
  · subst last
    rw [if_pos rfl, fill_inside (by omega) (by omega), Nat.add_sub_cancel_left]
    simp [ofList]
  · rw [if_neg last]
    by_cases inside : lo ≤ x ∧ x < lo + l.length
    · rw [fill_inside inside.1 inside.2, fill_inside inside.1 (by omega)]
      exact (List.getD_append _ _ _ _ (by omega)).symm
    · rw [fill_outside (by omega), fill_outside (by omega)]

/-- A byte is taken and stored, and one is left less. -/
private theorem Transfer.takeByte (h : Transfer start pBuf n s) (some : s.rxCount ≠ 0)
    (data : Byte) {s' : Driver} {ops : List BusOp}
    (more : s'.journal = (takeByte data s).journal ++ ops) (none : received ops = [])
    (memory : s'.memory = (takeByte data s).memory) (pointer : s'.rxBuf = (takeByte data s).rxBuf)
    (count : s'.rxCount = (takeByte data s).rxCount) (phase : Running s' ∨ Finished s') :
    Transfer start pBuf n s' := by
  have one : s'.journal = s.journal ++ ([.dataReceive data] ++ ops) := by
    rw [more, ← List.append_assoc]
    rfl
  have next : taken start s' = taken start s ++ [data] := by
    rw [taken_append h.begun one, received_append, none]
    rfl
  refine ⟨?_, ?_, ?_, ?_, phase⟩
  · rw [one]
    exact h.begun.trans (List.prefix_append _ _)
  · rw [memory, next, ← stored_snoc, ← h.stored, ← h.pointer]
    rfl
  · rw [pointer, next, List.length_append, ← Nat.add_assoc, ← h.pointer]
    rfl
  · have total := h.count
    have less := count_less some
    change (I2cInter.takeByte data s).rxCount.toNat + 1 = s.rxCount.toNat at less
    rw [count, next, List.length_append, List.length_singleton]
    omega

private theorem Transfer.receiveData (h : Transfer start pBuf n s) (running : Running s)
    (here : s.state = .readData) (data : Byte) :
    Transfer start pBuf n (I2cInter.receiveData data s) := by
  have some : s.rxCount ≠ 0 := by
    intro zero
    have last := running.left.mpr zero
    rw [here] at last
    cases last
  unfold I2cInter.receiveData
  dsimp only
  split_ifs with three zero
  · refine h.takeByte some data (List.append_nil _).symm rfl rfl rfl rfl (Or.inl ?_)
    refine running.at .read3LeftWaitBtc rfl rfl rfl (by decide) (iff_of_false (by decide) ?_)
    intro zero
    exact absurd (three.symm.trans zero) (by decide)
  · refine h.takeByte some data rfl rfl rfl rfl rfl (Or.inl ?_)
    exact running.at .readStop rfl rfl rfl (by decide) (iff_of_true rfl zero)
  · refine h.takeByte some data (List.append_nil _).symm rfl rfl rfl rfl (Or.inl ?_)
    exact running.at .readData here rfl rfl (by decide) (iff_of_false (by decide) zero)

private theorem Transfer.event (h : Transfer start pBuf n s) (running : Running s) {s' : Driver}
    {data : Byte} (moved : EventStep data s s') : Transfer start pBuf n s' := by
  have some (other : s.state ≠ .readStop) : s.rxCount ≠ 0 := fun zero =>
    other (running.left.mpr zero)
  cases moved with
  | ignored => exact h
  | prelude move op quiet =>
    obtain ⟨inside, before, after⟩ := preludeNext_inRead move
    refine h.quiet rfl (received_quiet quiet) rfl rfl rfl (Or.inl ?_)
    exact running.at _ rfl rfl rfl inside (iff_of_false after (some before))
  | addressed here =>
    have other := some (by rw [here]; decide)
    rw [addressedToRead_eq]
    refine h.quiet rfl rfl rfl rfl rfl (Or.inl ?_)
    exact running.at .readData rfl rfl rfl (by decide) (iff_of_false (by decide) other)
  | received here => exact h.receiveData running here data
  | threeLeft here =>
    have other := some (by rw [here]; decide)
    refine h.quiet (List.append_nil _).symm rfl rfl rfl rfl (Or.inl ?_)
    exact running.at .readData rfl rfl rfl (by decide) (iff_of_false (by decide) other)
  | stopped here =>
    refine h.quiet (List.append_nil _).symm rfl rfl rfl rfl (Or.inr ?_)
    exact ⟨rfl, rfl, rfl, running.left.mp here⟩

private theorem received_cleared (flags : List Flag) : received (flags.map .flagClear) = [] := by
  induction flags with
  | nil => rfl
  | cons flag flags ih => exact ih

/-- Whatever happens while the read is under way. -/
theorem Transfer.step (h : Transfer start pBuf n s) (busy : s.state ≠ .idle)
    (a : Action) : Transfer start pBuf n (a.run s) := by
  have running := h.running busy
  cases a with
  | request r =>
    change Transfer start pBuf n (r.run s)
    rw [request_busy running.busy]
    exact h
  | event stat data => exact h.event running (evIrqHandler_step stat data s)
  | error stat =>
    change Transfer start pBuf n (erIrqHandler stat s)
    rw [erIrqHandler_eq]
    refine h.quiet rfl (received_cleared _) rfl rfl rfl (Or.inl ?_)
    exact running.at s.state rfl rfl rfl running.state running.left

end Steps

/-! ### Every run of a read -/

section Read

variable (devAddr regAddr : Byte) (pBuf : Nat) (n : Word)

/-- The driver right after it has been asked for `n` bytes. -/
def requested (start : Driver) : Driver := i2cMasterReadReg devAddr regAddr pBuf n start

/-- Runs that do not go on behind the next idle state. -/
def UntilIdle (as : List Action) (s : Driver) : Prop :=
  Along I2cInter.step (fun _ s => s.state ≠ .idle) as s

variable {devAddr regAddr pBuf n}

theorem requested_eq {start : Driver} (idle : start.Idle) :
    requested devAddr regAddr pBuf n start = { start with
      busy := true
      success := false
      op := .read
      state := .readStart1
      slaveAddr := devAddr
      regAddr := regAddr
      rxBuf := pBuf
      rxCount := n
      peripheral := { start.peripheral with evie := true, errie := true, bufie := true }
      journal := start.journal ++ [.start] } :=
  if_neg (by simp [idle.free])

theorem requested_since {start : Driver} (idle : start.Idle) :
    since start (requested devAddr regAddr pBuf n start) = [.start] := by
  rw [requested_eq idle, since]
  exact List.drop_left

theorem requested_transfer {start : Driver} (idle : start.Idle) (positive : 0 < n) :
    Transfer start pBuf n (requested devAddr regAddr pBuf n start) := by
  have some : n ≠ 0 := by
    rintro rfl
    exact absurd positive (by decide)
  have inside : InRead .readStart1 := by decide
  have first : SubState.readStart1 ≠ .readStop := by decide
  have none : taken start (requested devAddr regAddr pBuf n start) = [] := by
    rw [taken, requested_since idle]
    rfl
  refine ⟨?_, ?_, ?_, ?_, Or.inl ?_⟩
  · rw [requested_eq idle]
    exact List.prefix_append _ _
  · rw [none, requested_eq idle, List.length_nil, fill_zero]
  · rw [none, requested_eq idle]
    rfl
  · rw [none, requested_eq idle]
    rfl
  · rw [requested_eq idle]
    exact ⟨rfl, rfl, inside, iff_of_false first some⟩

/-- What holds of a read of `n` bytes to `pBuf` in a state of its run: `start` is the state in
which it was requested. -/
structure Delivered (start : Driver) (pBuf : Nat) (n : Word) (s : Driver) : Prop where
  most : (taken start s).length ≤ n.toNat
  count : s.rxCount.toNat = n.toNat - (taken start s).length
  stored : s.memory = fill start.memory pBuf (taken start s).length (ofList (taken start s))
  refused : s.state ≠ .idle → ∀ r : Request, r.run s = s
  success : s.success = true → s.busy = false ∧ (taken start s).length = n.toNat

private theorem Transfer.delivered {start s : Driver} (h : Transfer start pBuf n s) :
    Delivered start pBuf n s := by
  have count := h.count
  refine ⟨by omega, by omega, h.stored, fun busy r => request_busy (h.running busy).busy r, ?_⟩
  intro success
  rcases h.phase with running | ended
  · rw [running.pending] at success
    cases success
  · have zero : s.rxCount.toNat = 0 := by
      rw [ended.left]
      rfl
    exact ⟨ended.free, by omega⟩

/-- In every state of every run of a read, up to the next idle state, the bytes taken so far
lie in the buffer, the counter is what is missing, and success means that nothing is. -/
theorem read_delivers (devAddr regAddr : Byte) (pBuf : Nat) (n : Word) (positive : 0 < n)
    (start : Driver) (idle : start.Idle) (as : List Action)
    (running : UntilIdle as (requested devAddr regAddr pBuf n start)) :
    Delivered start pBuf n
      (exec I2cInter.step as (requested devAddr regAddr pBuf n start)) :=
  (running.keeps (P := Transfer start pBuf n) (fun a _ busy h => h.step busy a)
    (requested_transfer idle positive)).delivered

/-- Five bytes are read while a flagless event and a write request come between the first two,
and an event without BTC while three bytes are left. -/
def fiveBytes : List Action :=
  flagged 0x00 6 ++ [.event (fun _ => false) 0xEE, .event (fun _ => true) 0x11,
    .request (.write 0x20 0x01 0x20001000 2), .event (fun _ => true) 0x12,
    .event (fun flag => flag = .rbne) 0xEE, .event (fun _ => true) 0xEE,
    .event (fun _ => true) 0x13, .event (fun _ => true) 0x14, .event (fun _ => true) 0x15,
    .event (fun _ => true) 0xEE]

theorem read_delivers_five :
    (exec I2cInter.step (fiveBytes.take 11)
        (requested 0x10 0x00 0x20000000 5 (.initial fun _ => 0))).state = .read3LeftWaitBtc ∧
      (exec I2cInter.step fiveBytes
        (requested 0x10 0x00 0x20000000 5 (.initial fun _ => 0))).success = true ∧
      Delivered (.initial fun _ => 0) 0x20000000 5
        (exec I2cInter.step fiveBytes
          (requested 0x10 0x00 0x20000000 5 (.initial fun _ => 0))) := by
  have running :
      UntilIdle fiveBytes (requested 0x10 0x00 0x20000000 5 (.initial fun _ => 0)) := by
    unfold UntilIdle
    decide
  exact ⟨by decide, by decide, read_delivers _ _ _ _ (by decide) _ ⟨rfl, rfl⟩ _ running⟩

end Read

end BmsFirmware.Drive.ReadTransfer
