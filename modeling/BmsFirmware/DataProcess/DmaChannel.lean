/- Module: BmsFirmware/DataProcess/DmaChannel
   Source: application/dataprocess/process.c
   Digest: Replies through the shared send buffer while the DMA channel is reading it. -/

import BmsFirmware.DataProcess.Reply
import BmsFirmware.Library.ActionMachine

set_option autoImplicit false
set_option relaxedAutoImplicit false

namespace BmsFirmware.DataProcess.DmaChannel

open BmsFirmware.Library.ByteMemory
open BmsFirmware.Library.BlockHeap
open BmsFirmware.Library.ActionMachine
open BmsFirmware.Registers.PuTable
open BmsFirmware.Registers.Frames
open BmsFirmware.DataProcess.Process
open BmsFirmware.DataProcess.Reply

/-! ### The calls -/

/-- One call of `send_reply_data` for which there is memory. -/
structure Call where
  service : Service
  index : Nat
  device : Device
  granted : ReplyGranted service device

/-- The frame the call serialises. -/
def Call.frame (c : Call) : CommFrame := replyFrame c.index (refreshed c.service c.index c.device)

theorem Call.handed (c : Call) : (sendReplyData c.service c.index c.device).2 = .reply c.frame := by
  rw [(sendReplyData_created c.service c.index c.device c.granted.1).2, if_pos c.granted.2]
  rfl

/-- The serialised frame, and the `buf_length` that is sent of it. -/
def Call.bytes (c : Call) : List Byte := serialized c.frame

def Call.length (c : Call) : Nat := (bufferSize c.frame).toNat

@[simp] theorem Call.bytes_length (c : Call) : c.bytes.length = c.length := rfl

/-! ### The channel and the code that feeds it -/

/-- What the processor does next; `rest` are the calls it has not begun. -/
inductive Cpu where
  | next (rest : List Call)
  | copying (call : Call) (i : Nat) (rest : List Call)
  | testing (call : Call) (rest : List Call)
  | disabling (call : Call) (rest : List Call)
  | settingCount (call : Call) (rest : List Call)
  | settingAddress (call : Call) (rest : List Call)
  | enabling (call : Call) (rest : List Call)

/-- The processor, `send_buffer`, and the channel: whether it is enabled, how many bytes it
has still to take, and from which index of the buffer the next one. -/
structure Station where
  cpu : Cpu
  sendBuffer : Memory
  enabled : Bool
  count : Nat
  address : Nat

inductive Action where
  | cpu
  | dma
  deriving DecidableEq

/-- One step of `send_reply_data`: a byte of its `memcpy`, or an access of `usartSendDMA`. -/
def cpuStep (s : Station) : Station :=
  match s.cpu with
  | .next [] => s
  | .next (call :: rest) => { s with cpu := .copying call 0 rest }
  | .copying call i rest =>
      if i < call.length then
        { s with
          cpu := .copying call (i + 1) rest
          sendBuffer := Function.update s.sendBuffer i (call.bytes.getD i 0) }
      else { s with cpu := .testing call rest }
  | .testing call rest =>
      if s.count = 0 then { s with cpu := .disabling call rest } else { s with cpu := .next rest }
  | .disabling call rest => { s with cpu := .settingCount call rest, enabled := false }
  | .settingCount call rest => { s with cpu := .settingAddress call rest, count := call.length }
  | .settingAddress call rest => { s with cpu := .enabling call rest, address := 0 }
  | .enabling _ rest => { s with cpu := .next rest, enabled := true }

/-- The channel puts one byte on the wire. -/
def dmaStep (s : Station) : Station × Option Byte :=
  if s.enabled ∧ 0 < s.count then
    ({ s with count := s.count - 1, address := s.address + 1 }, some (s.sendBuffer s.address))
  else (s, none)

def step : Action → Station → Station × Option Byte
  | .cpu, s => (cpuStep s, none)
  | .dma, s => dmaStep s

/-- Once all calls are made and the channel has drained, the wire has carried the frames
of the calls, complete and in order. -/
def RepliesWhole (calls : List Call) (actions : List Action) (start : Station) : Prop :=
  (exec step actions start).cpu = .next [] → (exec step actions start).count = 0 →
    emitted step actions start = calls.flatMap Call.bytes

/-- The processor's next step changes no byte that is still to be sent, and its test finds
the channel drained. -/
def Harmless (s : Station) : Cpu → Prop
  | .copying call i _ => i < call.length → s.enabled = true →
      s.address ≤ i → i < s.address + s.count → s.sendBuffer i = call.bytes.getD i 0
  | .testing _ _ => s.count = 0
  | _ => True

instance (s : Station) : (cpu : Cpu) → Decidable (Harmless s cpu)
  | .copying _ _ _ => inferInstanceAs (Decidable (_ → _ → _ → _ → _))
  | .testing _ _ => inferInstanceAs (Decidable (_ = _))
  | .next _ => isTrue trivial
  | .disabling _ _ => isTrue trivial
  | .settingCount _ _ => isTrue trivial
  | .settingAddress _ _ => isTrue trivial
  | .enabling _ _ => isTrue trivial

def Undisturbed (a : Action) (s : Station) : Prop := a = .cpu → Harmless s s.cpu

instance (a : Action) (s : Station) : Decidable (Undisturbed a s) :=
  inferInstanceAs (Decidable (_ → _))

/-! ### What has been sent and what is still to be sent -/

/-- The calls whose frames have not yet been handed to the channel. -/
def remaining : Cpu → List Call
  | .next rest => rest
  | .copying call _ rest => call :: rest
  | .testing call rest => call :: rest
  | .disabling call rest => call :: rest
  | .settingCount call rest => call :: rest
  | .settingAddress call rest => call :: rest
  | .enabling call rest => call :: rest

/-- The bytes the channel has still to take. -/
def unread (s : Station) : List Byte :=
  if s.enabled = true then (List.range' s.address s.count).map s.sendBuffer else []

/-- The first bytes of the call's frame are in the buffer. -/
def Prepared (call : Call) (i : Nat) (s : Station) : Prop :=
  ∀ j < i, s.sendBuffer j = call.bytes.getD j 0

/-- How far the current call has come. -/
def Phase (s : Station) : Prop :=
  match s.cpu with
  | .next _ => True
  | .copying call i _ => i ≤ call.length ∧ Prepared call i s
  | .testing call _ => Prepared call call.length s
  | .disabling call _ => Prepared call call.length s ∧ s.count = 0
  | .settingCount call _ => Prepared call call.length s ∧ s.enabled = false
  | .settingAddress call _ =>
      Prepared call call.length s ∧ s.enabled = false ∧ s.count = call.length
  | .enabling call _ =>
      Prepared call call.length s ∧ s.enabled = false ∧ s.count = call.length ∧ s.address = 0

/-- The wire and what the channel still holds are the frames of the calls handed over. -/
structure Accounted (calls : List Call) (wire : List Byte) (s : Station) : Prop where
  phase : Phase s
  account : ∃ sent, calls = sent ++ remaining s.cpu ∧ wire ++ unread s = sent.flatMap Call.bytes

section Steps

variable {s : Station} {call : Call} {calls : List Call} {wire : List Byte}

private theorem unread_of_disabled (disabled : s.enabled = false) : unread s = [] := by
  rw [unread, disabled, if_neg (by decide)]

private theorem unread_of_drained (drained : s.count = 0) : unread s = [] := by
  rw [unread, drained, List.range'_zero, List.map_nil, ite_self]

/-- A copied byte that is harmless leaves what is still to be sent. -/
private theorem unread_copied (cpu : Cpu) {i : Nat} {b : Byte}
    (harmless : s.enabled = true → s.address ≤ i → i < s.address + s.count → s.sendBuffer i = b) :
    unread { s with cpu := cpu, sendBuffer := Function.update s.sendBuffer i b } = unread s := by
  by_cases running : s.enabled = true
  · rw [unread, unread, if_pos running, if_pos running]
    apply List.map_congr_left
    intro j member
    rw [List.mem_range'_1] at member
    change Function.update s.sendBuffer i b j = s.sendBuffer j
    rw [Function.update_apply]
    split_ifs with same
    · subst same
      exact (harmless running member.1 member.2).symm
    · rfl
  · rw [unread, unread, if_neg running, if_neg running]

private theorem prepared_copied {i : Nat} {cpu : Cpu} (before : Prepared call i s) :
    Prepared call (i + 1) { s with
      cpu := cpu, sendBuffer := Function.update s.sendBuffer i (call.bytes.getD i 0) } := by
  intro j bound
  change Function.update s.sendBuffer i _ j = _
  rw [Function.update_apply]
  split_ifs with same
  · rw [same]
  · exact before j (by omega)

/-- A prepared frame is what the channel holds once it is enabled. -/
private theorem unread_enabled (cpu : Cpu) (prepared : Prepared call call.length s)
    (count : s.count = call.length) (address : s.address = 0) :
    unread { s with cpu := cpu, enabled := true } = call.bytes := by
  rw [unread, if_pos rfl]
  change (List.range' s.address s.count).map s.sendBuffer = call.bytes
  rw [count, address, ← List.range_eq_range', ← call.bytes_length]
  have same : ∀ j ∈ List.range call.bytes.length, s.sendBuffer j = ofList call.bytes j :=
    fun j member => prepared j (List.mem_range.mp member)
  rw [List.map_congr_left same, ofList_range]

/-- The first byte still to be sent. -/
private theorem unread_dma (running : s.enabled = true ∧ 0 < s.count) :
    unread s = s.sendBuffer s.address ::
      unread { s with count := s.count - 1, address := s.address + 1 } := by
  obtain ⟨n, count⟩ := Nat.exists_eq_succ_of_ne_zero (Nat.ne_of_gt running.2)
  rw [unread, unread, if_pos running.1]
  change _ = _ :: if s.enabled = true then
    (List.range' (s.address + 1) (s.count - 1)).map s.sendBuffer else []
  rw [if_pos running.1, count, Nat.succ_eq_add_one, List.range'_succ, List.map_cons,
    Nat.add_sub_cancel]

private theorem cpu_step (undisturbed : Harmless s s.cpu) (accounted : Accounted calls wire s) :
    Accounted calls wire (cpuStep s) := by
  obtain ⟨phase, sent, rest, account⟩ := accounted
  obtain ⟨cpu, sendBuffer, enabled, count, address⟩ := s
  cases cpu with
  | next waiting =>
    cases waiting with
    | nil => exact ⟨phase, sent, rest, account⟩
    | cons call waiting =>
      exact ⟨⟨Nat.zero_le _, fun j bound => absurd bound (Nat.not_lt_zero j)⟩, sent, rest, account⟩
  | copying call i waiting =>
    by_cases more : i < call.length
    · have goes : cpuStep ⟨.copying call i waiting, sendBuffer, enabled, count, address⟩ =
          ⟨.copying call (i + 1) waiting, Function.update sendBuffer i (call.bytes.getD i 0),
            enabled, count, address⟩ := if_pos more
      have kept := unread_copied (.copying call (i + 1) waiting) (undisturbed more)
      rw [goes]
      refine ⟨⟨more, prepared_copied phase.2⟩, sent, rest, ?_⟩
      exact (congrArg (wire ++ ·) kept).trans account
    · have goes : cpuStep ⟨.copying call i waiting, sendBuffer, enabled, count, address⟩ =
          ⟨.testing call waiting, sendBuffer, enabled, count, address⟩ := if_neg more
      have all : i = call.length := Nat.le_antisymm phase.1 (Nat.not_lt.mp more)
      have prepared := phase.2
      rw [all] at prepared
      rw [goes]
      exact ⟨prepared, sent, rest, account⟩
  | testing call waiting =>
    have goes : cpuStep ⟨.testing call waiting, sendBuffer, enabled, count, address⟩ =
        ⟨.disabling call waiting, sendBuffer, enabled, count, address⟩ := if_pos undisturbed
    rw [goes]
    exact ⟨⟨phase, undisturbed⟩, sent, rest, account⟩
  | disabling call waiting =>
    refine ⟨⟨phase.1, rfl⟩, sent, rest, ?_⟩
    have off : unread ⟨.settingCount call waiting, sendBuffer, false, count, address⟩ = [] :=
      unread_of_disabled rfl
    rw [unread_of_drained phase.2] at account
    exact (congrArg (wire ++ ·) off).trans account
  | settingCount call waiting =>
    refine ⟨⟨phase.1, phase.2, rfl⟩, sent, rest, ?_⟩
    have off :
        unread ⟨.settingAddress call waiting, sendBuffer, enabled, call.length, address⟩ = [] :=
      unread_of_disabled phase.2
    rw [unread_of_disabled phase.2] at account
    exact (congrArg (wire ++ ·) off).trans account
  | settingAddress call waiting =>
    refine ⟨⟨phase.1, phase.2.1, phase.2.2, rfl⟩, sent, rest, ?_⟩
    have off : unread ⟨.enabling call waiting, sendBuffer, enabled, count, 0⟩ = [] :=
      unread_of_disabled phase.2.1
    rw [unread_of_disabled phase.2.1] at account
    exact (congrArg (wire ++ ·) off).trans account
  | enabling call waiting =>
    obtain ⟨prepared, disabled, size, first⟩ := phase
    refine ⟨trivial, sent ++ [call], ?_, ?_⟩
    · rw [List.append_assoc]
      exact rest
    · have loaded := unread_enabled (.next waiting) prepared size first
      rw [unread_of_disabled disabled, List.append_nil] at account
      rw [List.flatMap_append, List.flatMap_singleton, ← account]
      exact congrArg (wire ++ ·) loaded

private theorem dma_step (accounted : Accounted calls wire s) :
    Accounted calls (wire ++ (dmaStep s).2.toList) (dmaStep s).1 := by
  obtain ⟨phase, sent, rest, account⟩ := accounted
  by_cases running : s.enabled = true ∧ 0 < s.count
  · rw [dmaStep, if_pos running]
    refine ⟨?_, sent, rest, ?_⟩
    · obtain ⟨cpu, sendBuffer, enabled, count, address⟩ := s
      obtain ⟨enabled', positive⟩ := running
      -- the channel is off, or has nothing left, while the processor sets it up
      cases cpu with
      | next => trivial
      | copying => exact phase
      | testing => exact phase
      | disabling => exact absurd phase.2 (Nat.ne_of_gt positive)
      | settingCount => exact absurd (enabled'.symm.trans phase.2) (by decide)
      | settingAddress => exact absurd (enabled'.symm.trans phase.2.1) (by decide)
      | enabling => exact absurd (enabled'.symm.trans phase.2.1) (by decide)
    · rw [unread_dma running] at account
      rw [Option.toList_some, List.append_assoc, List.singleton_append]
      exact account
  · rw [dmaStep, if_neg running, Option.toList_none, List.append_nil]
    exact ⟨phase, sent, rest, account⟩

private theorem accounted_step (l : List Byte) (a : Action) (s : Station)
    (undisturbed : Undisturbed a s) (accounted : Accounted calls l s) :
    Accounted calls (l ++ (step a s).2.toList) (step a s).1 := by
  cases a with
  | cpu =>
    change Accounted calls (l ++ []) (cpuStep s)
    rw [List.append_nil]
    exact cpu_step (undisturbed rfl) accounted
  | dma => exact dma_step accounted

end Steps

/-! ### Whole runs -/

/-- The station before its first call, with an idle channel. -/
def Station.idle (calls : List Call) (sendBuffer : Memory) (enabled : Bool) (address : Nat) :
    Station :=
  ⟨.next calls, sendBuffer, enabled, 0, address⟩

/-- Where no call disturbs the one before it, the wire carries at every moment a beginning
of the frames of the calls, and all of them once the channel has drained. -/
theorem replies_leaveWhole (calls : List Call) (sendBuffer : Memory) (enabled : Bool)
    (address : Nat) (actions : List Action)
    (undisturbed : Along step Undisturbed actions (.idle calls sendBuffer enabled address)) :
    emitted step actions (.idle calls sendBuffer enabled address) <+: calls.flatMap Call.bytes ∧
      RepliesWhole calls actions (.idle calls sendBuffer enabled address) := by
  have start : Accounted calls [] (.idle calls sendBuffer enabled address) :=
    ⟨trivial, [], rfl, unread_of_drained rfl⟩
  have ended := undisturbed.tracks accounted_step start
  rw [List.nil_append] at ended
  obtain ⟨sent, rest, account⟩ := ended.account
  have frames := congrArg (List.flatMap Call.bytes) rest
  rw [List.flatMap_append, ← account, List.append_assoc] at frames
  constructor
  · rw [frames]
    exact List.prefix_append _ _
  · intro finished drained
    rw [unread_of_drained drained, List.append_nil] at account
    rw [finished] at rest
    rw [account, rest]
    exact congrArg _ (List.append_nil sent).symm

/-! ### Calls that wait and calls that do not -/

/-- An answer for a register after a reset, with memory for everything. -/
def answer (index : Nat) (replayData : Byte × Byte) : Call where
  service := ⟨fun _ => true, replayData⟩
  index := index
  device := .initial fun _ => 0xFF
  granted := ⟨⟨rfl, fun _ => rfl⟩, rfl⟩

def twoAnswers : List Call := [answer 1 (1, 0), answer 2 (2, 0)]

/-- Both calls are made before the channel takes a byte. -/
def backToBack : List Action := List.replicate 38 .cpu ++ List.replicate 14 .dma

/-- The channel drains between the calls. -/
def oneByOne : List Action :=
  List.replicate 21 .cpu ++ List.replicate 14 .dma ++ List.replicate 21 .cpu ++
    List.replicate 14 .dma

/-- The processor has made all its calls. -/
private def Cpu.done : Cpu → Bool
  | .next [] => true
  | _ => false

private theorem Cpu.eq_of_done {cpu : Cpu} (done : cpu.done = true) : cpu = .next [] := by
  cases cpu with
  | next rest =>
    cases rest with
    | nil => rfl
    | cons => cases done
  | _ => cases done

/-- Calls that wait for the channel leave both frames whole. -/
theorem replies_leaveWhole_oneByOne :
    emitted step oneByOne (.idle twoAnswers (fun _ => 0) true 0) = twoAnswers.flatMap Call.bytes :=
  (replies_leaveWhole twoAnswers (fun _ => 0) true 0 oneByOne (by decide +kernel)).2
    (Cpu.eq_of_done (by decide +kernel)) (by decide +kernel)

/-- The second of two calls in a row alters the frame of the first and is not sent itself. -/
theorem backToBack_losesFrame :
    ¬RepliesWhole twoAnswers backToBack (.idle twoAnswers (fun _ => 0) true 0) := by
  intro whole
  have sent := congrArg List.length (whole (Cpu.eq_of_done (by decide +kernel)) (by decide +kernel))
  revert sent
  decide +kernel

end BmsFirmware.DataProcess.DmaChannel
