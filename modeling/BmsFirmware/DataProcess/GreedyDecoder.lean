/- Module: BmsFirmware/DataProcess/GreedyDecoder
   Source: application/dataprocess/process.c
   Digest: The receiver dispatches what a greedy decoder of the whole stream finds. -/

import BmsFirmware.DataProcess.Units

set_option autoImplicit false
set_option relaxedAutoImplicit false

namespace BmsFirmware.DataProcess.GreedyDecoder

open BmsFirmware.Library.ByteMemory
open BmsFirmware.Library.BlockHeap
open BmsFirmware.Flash.Controller (Environment Board)
open BmsFirmware.Registers.Frames
open BmsFirmware.DataProcess.Process
open BmsFirmware.DataProcess.Reception
open BmsFirmware.DataProcess.FrameDecode
open BmsFirmware.DataProcess.ReceiverSteps
open BmsFirmware.DataProcess.Units

/-- The frames a greedy decoder finds in a stream. -/
def greedy : List Byte → List CommFrame
  | a :: f :: rest =>
      if KnownFunction f then
        match rest with
        | hi :: lo :: rest =>
            let n := announcedItems hi lo
            if 1 ≤ n ∧ n ≤ 3 then
              if 8 * n + 2 ≤ rest.length then
                checkedFrame a f hi lo (rest.take (8 * n)) (bigEndian16 rest (8 * n)) ++
                  greedy (rest.drop (8 * n + 2))
              else []
            else greedy rest
        | _ => []
      else greedy rest
  | _ => []
termination_by l => l.length
decreasing_by
  all_goals
    simp only [List.length_cons, List.length_drop]
    omega

/-! ### Unit by unit -/

/-- Nothing is found in an unfinished unit. -/
theorem greedy_unfinished {g : List Byte} (inside : Unfinished g) : greedy g = [] := by
  match g, inside with
  | [], _ => simp [greedy]
  | [_], _ => simp [greedy]
  | [_, f], known => simp [greedy, show KnownFunction f from known]
  | [_, f, _], known => simp [greedy, show KnownFunction f from known]
  | _ :: f :: hi :: lo :: got, ⟨known, good, short⟩ =>
    rw [greedy, if_pos known]
    dsimp only
    rw [if_pos good, if_neg (by omega)]

/-- A unit is decoded, and the decoder goes on behind it. -/
theorem greedy_unit {u : List Byte} (whole : WholeUnit u) (rest : List Byte) :
    greedy (u ++ rest) = unitFrames u ++ greedy rest := by
  match u, whole with
  | [], ⟨_, ended⟩ => exact absurd trivial ended
  | [_], ⟨_, ended⟩ => exact absurd trivial ended
  | [a, f], ⟨_, unknown⟩ =>
    change greedy (a :: f :: rest) = _
    rw [greedy.eq_def]
    exact if_neg unknown
  | [_, _, _], ⟨known, ended⟩ => exact absurd known ended
  | a :: f :: hi :: lo :: got, ⟨before, ended⟩ =>
    have known : KnownFunction f := by
      have h := (Unfinished.front before : [a, f] <+: _ → _) (by
        cases got <;> exact ⟨_, rfl⟩)
      exact h
    change greedy (a :: f :: hi :: lo :: (got ++ rest)) = _
    rw [greedy, if_pos known]
    dsimp only
    by_cases good : 1 ≤ announcedItems hi lo ∧ announcedItems hi lo ≤ 3
    · have size : got.length = 8 * announcedItems hi lo + 2 :=
        WholeUnit.field_length ⟨before, ended⟩ known good
      have field : (got ++ rest).take (8 * announcedItems hi lo) =
          got.take (8 * announcedItems hi lo) := List.take_append_of_le_length (by omega)
      have checksum : bigEndian16 (got ++ rest) (8 * announcedItems hi lo) =
          bigEndian16 got (8 * announcedItems hi lo) := by
        rw [bigEndian16, List.getD_append _ _ _ _ (by omega),
          List.getD_append _ _ _ _ (by omega), bigEndian16]
      have behind : (got ++ rest).drop (8 * announcedItems hi lo + 2) = rest := by
        rw [← size, List.drop_left]
      rw [if_pos good, if_pos (by rw [List.length_append]; omega), field, checksum, behind,
        unitFrames, if_pos ⟨known, good⟩]
    · have short : got = [] := by
        cases got with
        | nil => rfl
        | cons b got => exact absurd before.2.1 good
      subst short
      rw [if_neg good, unitFrames, if_neg fun h => good h.2]
      rfl

/-! ### Whole streams -/

/-- Inside a unit the receiver dispatches what a greedy decoder finds from the unit on. -/
theorem feed_during (env : Environment) (bytes : List Byte) (d : Device) (done : List CommFrame)
    (block : Nat) {g : List Byte} (inside : Unfinished g) :
    (feed env (fun _ => true) bytes ⟨during block g, d, done⟩).dispatched =
      done ++ greedy (g ++ bytes) := by
  induction bytes generalizing block g d done with
  | nil => rw [feed_nil, List.append_nil, greedy_unfinished inside, List.append_nil]
  | cons b bytes ih =>
    obtain ⟨block', d', step⟩ := step_unit env (fun _ => true) d done block inside
      (fun _ => rfl) b
    rw [feed_cons, step, List.append_cons g b bytes]
    by_cases still : Unfinished (g ++ [b])
    · rw [if_pos still, ih d' done block' still]
    · have whole : WholeUnit (g ++ [b]) := ⟨by rwa [List.dropLast_concat], still⟩
      have rest := ih d' (done ++ unitFrames (g ++ [b])) 0 (g := []) trivial
      rw [if_neg still, greedy_unit whole, ← List.append_assoc]
      exact rest

/-! ### What a byte does to the device -/

/-- The same register table and board, and as many requests made of the heap. -/
structure Alike (d d' : Device) : Prop where
  table : d'.table = d.table
  board : d'.board = d.board
  requests : d'.heap.requests = d.heap.requests

theorem Alike.refl (d : Device) : Alike d d := ⟨rfl, rfl, rfl⟩

theorem Alike.trans {d d' d'' : Device} (h : Alike d d') (h' : Alike d' d'') : Alike d d'' :=
  ⟨h'.table.trans h.table, h'.board.trans h.board, h'.requests.trans h.requests⟩

/-- A byte that dispatches nothing leaves the table and the board alone; one that dispatches a
frame leaves them as the handler of the frame does. -/
def Handles (env : Environment) (grant : Nat → Bool) (s s' : Station) : Prop :=
  (s'.dispatched = s.dispatched ∧ s'.device.table = s.device.table ∧
      s'.device.board = s.device.board) ∨
    ∃ frame d, Alike s.device d ∧ s'.dispatched = s.dispatched ++ [frame] ∧
      s'.device.table = (processReply env grant frame d).table ∧
        s'.device.board = (processReply env grant frame d).board

private theorem resetReception_quiet (s : Station) :
    (resetReception s).dispatched = s.dispatched ∧ Alike s.device (resetReception s).device := by
  unfold resetReception
  cases s.receiver.receivedFrame.dataField <;> exact ⟨rfl, rfl, rfl, rfl⟩

private theorem resetIfOver_quiet (s : Station) :
    (resetIfOver s).dispatched = s.dispatched ∧ Alike s.device (resetIfOver s).device := by
  unfold resetIfOver
  split
  · exact resetReception_quiet s
  · exact ⟨rfl, Alike.refl _⟩

section Bytes

variable (env : Environment) (grant : Nat → Bool) (s : Station) (b : Byte)

private theorem receiveFunction_handles : Handles env grant s (receiveFunction b s) := by
  left
  unfold receiveFunction
  split <;> exact ⟨rfl, rfl, rfl⟩

private theorem receiveDataLength_handles : Handles env grant s (receiveDataLength grant b s) := by
  left
  unfold receiveDataLength
  split_ifs with first second
  · exact ⟨rfl, rfl, rfl⟩
  · dsimp only
    split_ifs with outside
    · exact ⟨rfl, rfl, rfl⟩
    · split <;> exact ⟨rfl, rfl, rfl⟩
  · exact ⟨rfl, rfl, rfl⟩

private theorem receiveData_handles : Handles env grant s (receiveData b s) := by
  left
  unfold receiveData
  split
  · exact ⟨rfl, rfl, rfl⟩
  · dsimp only
    split <;> exact ⟨rfl, rfl, rfl⟩

private theorem finishFrame_handles : Handles env grant s (finishFrame env grant b s) := by
  unfold finishFrame
  dsimp only
  split_ifs with fits
  · exact Or.inr ⟨_, s.device, Alike.refl _, rfl, rfl, rfl⟩
  · exact Or.inl ⟨rfl, rfl, rfl⟩

/-- Resets before and after a byte change nothing of this. -/
private theorem Handles.between {s₁ s' s'' : Station} (handled : Handles env grant s₁ s')
    (before : s₁.dispatched = s.dispatched ∧ Alike s.device s₁.device)
    (after : s''.dispatched = s'.dispatched ∧ Alike s'.device s''.device) :
    Handles env grant s s'' := by
  rcases handled with ⟨same, table, board⟩ | ⟨frame, d, alike, more, table, board⟩
  · exact Or.inl ⟨after.1.trans (same.trans before.1),
      after.2.table.trans (table.trans before.2.table),
      after.2.board.trans (board.trans before.2.board)⟩
  · refine Or.inr ⟨frame, d, before.2.trans alike, ?_, after.2.table.trans table,
      after.2.board.trans board⟩
    rw [after.1, more, before.1]

private theorem receiveCrc_handles : Handles env grant s (receiveCrc env grant b s) := by
  unfold receiveCrc
  split_ifs with first second
  · exact Or.inl ⟨rfl, rfl, rfl⟩
  · exact (finishFrame_handles env grant s b).between env grant s ⟨rfl, Alike.refl _⟩
      (resetReception_quiet _)
  · exact Or.inl ⟨rfl, rfl, rfl⟩

theorem parseReceivedData_handles : Handles env grant s (parseReceivedData env grant s b) := by
  refine Handles.between env grant s ?_ (resetIfOver_quiet s) (resetIfOver_quiet _)
  cases (resetIfOver s).receiver.currentState with
  | receivingAddress => exact Or.inl ⟨rfl, rfl, rfl⟩
  | receivingFunction => exact receiveFunction_handles env grant _ b
  | receivingDataLength => exact receiveDataLength_handles env grant _ b
  | receivingData => exact receiveData_handles env grant _ b
  | receivingCrc => exact receiveCrc_handles env grant _ b
  | receivingComplete => exact Or.inl ⟨rfl, rfl, rfl⟩
  | receivingError => exact Or.inl ⟨rfl, rfl, rfl⟩

end Bytes

/-- The frames the receiver dispatches from the idle state are those of the greedy decoder,
and a byte that completes none of them changes neither the register table nor the flash. -/
theorem receiver_acceptsGrammar (env : Environment) (d : Device) (bytes : List Byte) :
    (feed env (fun _ => true) bytes (.atIdle d [])).dispatched = greedy bytes ∧
      ∀ front b, front ++ [b] <+: bytes →
        let before := feed env (fun _ => true) front (.atIdle d [])
        let after := feed env (fun _ => true) (front ++ [b]) (.atIdle d [])
        after.dispatched = before.dispatched →
          after.device.table = before.device.table ∧ after.device.board = before.device.board := by
  constructor
  · exact feed_during env bytes d [] 0 (g := []) trivial
  · intro front b _ before after same
    have step : after = parseReceivedData env (fun _ => true) before b := by
      rw [show after = _ from feed_append env _ front [b] _, feed_cons, feed_nil]
    rw [step] at same ⊢
    rcases parseReceivedData_handles env (fun _ => true) before b with
      quiet | ⟨frame, d, -, more, -⟩
    · exact quiet.2
    · rw [same] at more
      exact absurd more (by simp)

end BmsFirmware.DataProcess.GreedyDecoder
