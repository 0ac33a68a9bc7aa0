/- Module: BmsFirmware/DataProcess/Units
   Source: application/dataprocess/process.c
   Digest: The receiver's state is a function of the bytes of the unit it is reading. -/

import BmsFirmware.DataProcess.ReceiverSteps

set_option autoImplicit false
set_option relaxedAutoImplicit false

namespace BmsFirmware.DataProcess.Units

open BmsFirmware.Library.ByteMemory
open BmsFirmware.Library.BlockHeap
open BmsFirmware.Flash.Controller (Environment)
open BmsFirmware.Registers.Frames
open BmsFirmware.DataProcess.Process
open BmsFirmware.DataProcess.Reception
open BmsFirmware.DataProcess.FrameDecode
open BmsFirmware.DataProcess.ReceiverSteps

/-! ### Units -/

/-- The bytes from one reset of the receiver to the next: up to an unknown function code, up
to a count outside 1..3, or a whole frame. -/
def unitLength (f hi lo : Byte) : Nat :=
  if KnownFunction f then
    if 1 ≤ announcedItems hi lo ∧ announcedItems hi lo ≤ 3 then 8 * announcedItems hi lo + 6
    else 4
  else 2

/-- Bytes that leave the receiver inside a unit. -/
def Unfinished : List Byte → Prop
  | [] => True
  | [_] => True
  | [_, f] => KnownFunction f
  | [_, f, _] => KnownFunction f
  | _ :: f :: hi :: lo :: got =>
      KnownFunction f ∧ (1 ≤ announcedItems hi lo ∧ announcedItems hi lo ≤ 3) ∧
        got.length < 8 * announcedItems hi lo + 2

instance : (g : List Byte) → Decidable (Unfinished g)
  | [] => inferInstanceAs (Decidable True)
  | [_] => inferInstanceAs (Decidable True)
  | [_, f] => inferInstanceAs (Decidable (KnownFunction f))
  | [_, f, _] => inferInstanceAs (Decidable (KnownFunction f))
  | _ :: _ :: _ :: _ :: _ => inferInstanceAs (Decidable (_ ∧ _ ∧ _))

/-- A whole unit: only its last byte ends it. -/
def WholeUnit (u : List Byte) : Prop := Unfinished u.dropLast ∧ ¬Unfinished u

instance (u : List Byte) : Decidable (WholeUnit u) := inferInstanceAs (Decidable (_ ∧ _))

theorem Unfinished.dropLast {l : List Byte} (inside : Unfinished l) : Unfinished l.dropLast := by
  match l, inside with
  | [], _ => trivial
  | [_], _ => trivial
  | [_, _], _ => trivial
  | [_, _, _], known => exact known
  | [_, _, _, _], h => exact h.1
  | _ :: _ :: _ :: _ :: b :: got, ⟨known, good, short⟩ =>
    refine ⟨known, good, ?_⟩
    rw [List.length_dropLast]
    omega

theorem Unfinished.front {front l : List Byte} (inside : Unfinished l) (h : front <+: l) :
    Unfinished front := by
  obtain ⟨back, rfl⟩ := h
  induction back using List.reverseRecOn with
  | nil => rwa [List.append_nil] at inside
  | append_singleton back b ih =>
    have shorter := inside.dropLast
    rw [← List.append_assoc, List.dropLast_concat] at shorter
    exact ih shorter

theorem WholeUnit.inside_of_proper {front u : List Byte} (whole : WholeUnit u) (h : front <+: u)
    (proper : front ≠ u) : Unfinished front := by
  obtain rfl | ⟨g, b, rfl⟩ := u.eq_nil_or_concat'
  · exact absurd (List.prefix_nil.mp h) proper
  · have inside := whole.1
    rw [List.dropLast_concat] at inside
    rcases List.prefix_concat_iff.mp h with same | shorter
    · exact absurd same proper
    · exact inside.front shorter

/-- A unit with a good header has its data field and its checksum. -/
theorem WholeUnit.field_length {a f hi lo : Byte} {got : List Byte}
    (whole : WholeUnit (a :: f :: hi :: lo :: got)) (known : KnownFunction f)
    (good : 1 ≤ announcedItems hi lo ∧ announcedItems hi lo ≤ 3) :
    got.length = 8 * announcedItems hi lo + 2 := by
  have late : ¬got.length < 8 * announcedItems hi lo + 2 := fun h => whole.2 ⟨known, good, h⟩
  cases got with
  | nil => exact absurd (Nat.succ_pos _) late
  | cons b got =>
    have early : (b :: got).dropLast.length < 8 * announcedItems hi lo + 2 := whole.1.2.2
    rw [List.length_dropLast] at early
    omega

/-- The frame that a finished unit dispatches, if any. -/
def unitFrames : List Byte → List CommFrame
  | a :: f :: hi :: lo :: rest =>
      if KnownFunction f ∧ 1 ≤ announcedItems hi lo ∧ announcedItems hi lo ≤ 3 then
        checkedFrame a f hi lo (rest.take (8 * announcedItems hi lo))
          (bigEndian16 rest (8 * announcedItems hi lo))
      else []
  | _ => []

/-- The receiver inside a unit, its data field in the given block. -/
def during (block : Nat) : List Byte → Receiver
  | [] => .idle
  | [a] => addressed a
  | [a, f] => functioned a f
  | [a, f, hi] => halfLengthened a f hi
  | a :: f :: hi :: lo :: got =>
      let size := 8 * announcedItems hi lo
      if got.length < size then filling a f hi lo block got
      else if got.length = size then checking a f hi lo block got
      else halfChecked a f hi lo block (got.take size) (got.getD size 0)

/-! ### One byte of a unit -/

section Step

variable (env : Environment) (grant : Nat → Bool) (d : Device) (done : List CommFrame)

section Field

variable (a f hi lo : Byte) (block : Nat) (got : List Byte)

private theorem during_filling (short : got.length < 8 * announcedItems hi lo) :
    during block (a :: f :: hi :: lo :: got) = filling a f hi lo block got :=
  if_pos short

private theorem during_checking (full : got.length = 8 * announcedItems hi lo) :
    during block (a :: f :: hi :: lo :: got) = checking a f hi lo block got := by
  rw [during]
  rw [if_neg (by omega), if_pos full]

private theorem during_halfChecked (c : Byte) (full : got.length = 8 * announcedItems hi lo) :
    during block (a :: f :: hi :: lo :: (got ++ [c])) = halfChecked a f hi lo block got c := by
  have longer : (got ++ [c]).length = 8 * announcedItems hi lo + 1 := by
    rw [List.length_append, full]
    rfl
  rw [during]
  rw [if_neg (by omega), if_neg (by omega), ← full, List.take_left,
    List.getD_append_right _ _ _ _ (Nat.le_refl _), Nat.sub_self]
  rfl

/-- A byte of the data field or of the checksum. -/
private theorem step_field {a f hi lo : Byte} {got : List Byte} (known : KnownFunction f)
    (good : 1 ≤ announcedItems hi lo ∧ announcedItems hi lo ≤ 3)
    (short : got.length < 8 * announcedItems hi lo + 2) (b : Byte) :
    ∃ d', parseReceivedData env grant ⟨during block (a :: f :: hi :: lo :: got), d, done⟩ b =
      if got.length + 1 < 8 * announcedItems hi lo + 2 then
        ⟨during block (a :: f :: hi :: lo :: (got ++ [b])), d', done⟩
      else ⟨.idle, d', done ++ unitFrames (a :: f :: hi :: lo :: (got ++ [b]))⟩ := by
  have next : (got ++ [b]).length = got.length + 1 := by simp
  by_cases room : got.length + 1 < 8 * announcedItems hi lo
  · refine ⟨d, ?_⟩
    rw [during_filling _ _ _ _ _ _ (by omega), step_filling _ _ _ _ _ _ _ _ _ _ _ good.2 room,
      if_pos (by omega), during_filling _ _ _ _ _ _ (by omega)]
  · by_cases last : got.length + 1 = 8 * announcedItems hi lo
    · refine ⟨d, ?_⟩
      rw [during_filling _ _ _ _ _ _ (by omega), step_filled _ _ _ _ _ _ _ _ _ _ _ good.2 last,
        if_pos (by omega), during_checking _ _ _ _ _ _ (by omega)]
    · by_cases full : got.length = 8 * announcedItems hi lo
      · refine ⟨d, ?_⟩
        rw [during_checking _ _ _ _ _ _ full, step_checking _ _ _ _ _ _ _ _ _ _ _ (by omega),
          if_pos (by omega), during_halfChecked _ _ _ _ _ _ _ full]
      · obtain rfl | ⟨front, c, rfl⟩ := got.eq_nil_or_concat'
        · simp only [List.length_nil] at room last full
          omega
        · rw [List.length_append, List.length_singleton] at *
          have size : front.length = 8 * announcedItems hi lo := by omega
          obtain ⟨d', checked⟩ := step_checked env grant d done a f hi lo block front b c
          refine ⟨d', ?_⟩
          have field : (front ++ [c] ++ [b]).take (8 * announcedItems hi lo) = front := by
            rw [← size, List.append_assoc, List.take_left]
          have checksum :
              bigEndian16 (front ++ [c] ++ [b]) (8 * announcedItems hi lo) = c ++ b := by
            rw [← size, List.append_assoc]
            exact bigEndian16_behind front c b
          rw [during_halfChecked _ _ _ _ _ _ _ size, checked, if_neg (by omega), unitFrames,
            if_pos ⟨known, good⟩, field, checksum]

end Field

/-- One byte either stays inside the unit or ends it, with its frame dispatched. -/
theorem step_unit (block : Nat) {g : List Byte} (inside : Unfinished g)
    (granted : g.length = 3 → grant d.heap.requests = true) (b : Byte) :
    ∃ block' d', parseReceivedData env grant ⟨during block g, d, done⟩ b =
      if Unfinished (g ++ [b]) then ⟨during block' (g ++ [b]), d', done⟩
      else ⟨.idle, d', done ++ unitFrames (g ++ [b])⟩ := by
  match g, inside, granted with
  | [], _, _ => exact ⟨block, d, step_address env grant d done b⟩
  | [a], _, _ =>
    refine ⟨block, d, ?_⟩
    by_cases known : KnownFunction b
    · rw [if_pos (show Unfinished ([a] ++ [b]) from known)]
      exact step_function env grant d done a b known
    · rw [if_neg (show ¬Unfinished ([a] ++ [b]) from known)]
      exact (step_unknown env grant d done a b known).trans (by simp [unitFrames])
  | [a, f], known, _ =>
    refine ⟨block, d, ?_⟩
    rw [if_pos (show Unfinished ([a, f] ++ [b]) from known)]
    exact step_length env grant d done a f b
  | [a, f, hi], known, granted =>
    by_cases good : 1 ≤ announcedItems hi b ∧ announcedItems hi b ≤ 3
    · refine ⟨d.heap.requests, { d with heap := (malloc grant d.heap).2 }, ?_⟩
      have whole : Unfinished ([a, f, hi] ++ [b]) := ⟨known, good, Nat.succ_pos _⟩
      have start : during d.heap.requests ([a, f, hi] ++ [b]) =
          filling a f hi b d.heap.requests [] := if_pos (show 0 < 8 * announcedItems hi b by omega)
      rw [if_pos whole, start]
      exact step_goodLength env grant d done a f hi b (granted rfl) good
    · refine ⟨block, d, ?_⟩
      have ended : ¬Unfinished ([a, f, hi] ++ [b]) := fun h => good h.2.1
      have nothing : unitFrames ([a, f, hi] ++ [b]) = [] := if_neg fun h => good h.2
      rw [if_neg ended, nothing, List.append_nil]
      exact step_badLength env grant d done a f hi b good
  | a :: f :: hi :: lo :: got, ⟨known, good, short⟩, _ =>
    obtain ⟨d', step⟩ := step_field env grant d done block known good short b
    refine ⟨block, d', step.trans ?_⟩
    refine if_congr ?_ rfl rfl
    change _ ↔ KnownFunction f ∧ _ ∧ (got ++ [b]).length < _
    rw [List.length_append, List.length_singleton]
    exact ⟨fun h => ⟨known, good, h⟩, fun h => h.2.2⟩

end Step

/-! ### Many bytes of a unit -/

section Feed

variable (env : Environment) (d : Device) (done : List CommFrame) (block : Nat)

/-- Bytes that do not end the unit. -/
theorem feed_inside {g : List Byte} (l : List Byte) (inside : Unfinished (g ++ l)) :
    ∃ block' d', feed env (fun _ => true) l ⟨during block g, d, done⟩ =
      ⟨during block' (g ++ l), d', done⟩ := by
  induction l generalizing g block d with
  | nil => exact ⟨block, d, by rw [List.append_nil, feed_nil]⟩
  | cons b l ih =>
    have regroup : g ++ b :: l = g ++ [b] ++ l := (List.append_cons g b l)
    rw [regroup] at inside ⊢
    have next : Unfinished (g ++ [b]) := inside.front (List.prefix_append _ _)
    obtain ⟨block', d', step⟩ := step_unit env (fun _ => true) d done block
      (next.front (List.prefix_append g [b])) (fun _ => rfl) b
    rw [feed_cons, step, if_pos next]
    exact ih d' block' inside

/-- A whole unit leaves its frame dispatched and the receiver idle. -/
theorem feed_unit {u : List Byte} (whole : WholeUnit u) :
    ∃ d', feed env (fun _ => true) u ⟨.idle, d, done⟩ = ⟨.idle, d', done ++ unitFrames u⟩ := by
  obtain rfl | ⟨g, b, rfl⟩ := u.eq_nil_or_concat'
  · exact absurd trivial whole.2
  · have inside : Unfinished g := by
      have h := whole.1
      rwa [List.dropLast_concat] at h
    obtain ⟨block', d', front⟩ := feed_inside env d done 0 (g := []) g inside
    obtain ⟨_, d'', step⟩ := step_unit env (fun _ => true) d' done block' inside
      (fun _ => rfl) b
    refine ⟨d'', ?_⟩
    rw [feed_append]
    change feed env _ [b] (feed env _ g ⟨during 0 [], d, done⟩) = _
    rw [front, List.nil_append, feed_cons, feed_nil, step, if_neg whole.2]

end Feed

/-! ### The states that bytes lead to -/

/-- The states of the receiver between two bytes, whatever the allocations and the handlers
do in the meantime. -/
inductive Reachable : Receiver → Prop
  | reset : Reachable .idle
  | byte {r : Receiver} (before : Reachable r) (env : Environment) (grant : Nat → Bool)
      (d : Device) (done : List CommFrame) (b : Byte) :
      Reachable (parseReceivedData env grant ⟨r, d, done⟩ b).receiver

/-- The bytes of the unit the receiver is reading. -/
def unfinished (r : Receiver) : List Byte :=
  (List.range r.receivedBufferNumber.toNat).map r.receivedBuffer

/-- Between two bytes the receiver is inside a unit. -/
theorem Reachable.inside {r : Receiver} (reached : Reachable r) :
    ∃ block g, Unfinished g ∧ r = during block g := by
  induction reached with
  | reset => exact ⟨0, [], trivial, rfl⟩
  | byte before env grant d done b ih =>
    obtain ⟨block, g, inside, rfl⟩ := ih
    by_cases granted : g.length = 3 → grant d.heap.requests = true
    · obtain ⟨block', d', step⟩ := step_unit env grant d done block inside granted b
      rw [step]
      split
      · rename_i still
        exact ⟨block', g ++ [b], still, rfl⟩
      · exact ⟨0, [], trivial, rfl⟩
    · obtain ⟨size, refused⟩ := Classical.not_imp.mp granted
      obtain ⟨a, f, hi, rfl⟩ := List.length_eq_three.mp size
      obtain ⟨d', step⟩ := step_refusedLength env grant d done a f hi b
        (Bool.eq_false_iff.mpr refused)
      exact ⟨0, [], trivial, congrArg Station.receiver step⟩

/-- The buffer of the receiver holds the bytes of the unit. -/
theorem unfinished_during (block : Nat) {g : List Byte} (inside : Unfinished g) :
    unfinished (during block g) = g := by
  have stored {r : Receiver} {g : List Byte} (few : g.length < 256)
      (buffer : r.receivedBuffer = ofList g)
      (number : r.receivedBufferNumber = BitVec.ofNat 8 g.length) : unfinished r = g := by
    rw [unfinished, buffer, number, BitVec.toNat_ofNat, Nat.mod_eq_of_lt few, ofList_range]
  match g, inside with
  | [], _ => rfl
  | [a], _ => exact stored (r := addressed a) (by simp) rfl rfl
  | [a, f], _ => exact stored (r := functioned a f) (by simp) rfl rfl
  | [a, f, hi], _ => exact stored (r := halfLengthened a f hi) (by simp) rfl rfl
  | a :: f :: hi :: lo :: got, ⟨_, good, short⟩ =>
    have few : (a :: f :: hi :: lo :: got).length < 256 := by
      simp only [List.length_cons]
      omega
    have size : 4 + got.length = (a :: f :: hi :: lo :: got).length := by
      simp only [List.length_cons]
      omega
    by_cases room : got.length < 8 * announcedItems hi lo
    · rw [during_filling _ _ _ _ _ _ room]
      exact stored few rfl (by rw [← size]; rfl)
    · by_cases full : got.length = 8 * announcedItems hi lo
      · rw [during_checking _ _ _ _ _ _ full]
        exact stored few rfl (by rw [← size]; rfl)
      · obtain rfl | ⟨front, c, rfl⟩ := got.eq_nil_or_concat'
        · simp only [List.length_nil] at room full
          omega
        · rw [List.length_append, List.length_singleton] at room full short
          have half : front.length = 8 * announcedItems hi lo := by omega
          rw [during_halfChecked _ _ _ _ _ _ _ half]
          apply stored few rfl
          rw [← size, List.length_append, List.length_singleton]
          change BitVec.ofNat 8 (5 + front.length) = _
          congr 1
          omega

end BmsFirmware.DataProcess.Units
