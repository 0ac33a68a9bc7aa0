/- Module: BmsFirmware/DataProcess/Resync
   Source: application/dataprocess/process.c
   Digest: A frame sent over and over reaches a misaligned receiver in 30 repetitions or never. -/

import BmsFirmware.DataProcess.GreedyDecoder
import BmsFirmware.DataProcess.RoundTrip
import BmsFirmware.Library.CyclicStream

set_option autoImplicit false
set_option relaxedAutoImplicit false

namespace BmsFirmware.DataProcess.Resync

open BmsFirmware.Library.ByteMemory
open BmsFirmware.Library.CyclicStream
open BmsFirmware.Flash.Controller (Environment)
open BmsFirmware.Registers.Frames
open BmsFirmware.DataProcess.Process
open BmsFirmware.DataProcess.Reception
open BmsFirmware.DataProcess.FrameDecode
open BmsFirmware.DataProcess.ReceiverSteps
open BmsFirmware.DataProcess.Units
open BmsFirmware.DataProcess.GreedyDecoder
open BmsFirmware.DataProcess.RoundTrip

/-! ### Units of a stream -/

/-- The length of the unit that starts at a position of a stream. -/
def unitAt (σ : Nat → Byte) (p : Nat) : Nat := unitLength (σ (p + 1)) (σ (p + 2)) (σ (p + 3))

/-- Where the unit that starts at a position ends. -/
def advance (σ : Nat → Byte) (p : Nat) : Nat := p + unitAt σ p

theorem unitLength_le (f hi lo : Byte) : unitLength f hi lo ≤ 30 := by
  unfold unitLength
  split_ifs with known good
  · omega
  · omega
  · omega

theorem unitLength_even (f hi lo : Byte) : ∃ h, unitLength f hi lo = 2 * h := by
  unfold unitLength
  split_ifs with known good
  · exact ⟨4 * announcedItems hi lo + 3, by omega⟩
  · exact ⟨2, rfl⟩
  · exact ⟨1, rfl⟩

section Streams

variable (σ : Nat → Byte) (p : Nat)

/-- A window is unfinished as long as it is shorter than the unit. -/
theorem unfinished_window (n : Nat) : Unfinished (window σ p n) ↔ n < unitAt σ p := by
  unfold unitAt unitLength
  match n with
  | 0 =>
    apply iff_of_true trivial
    split_ifs <;> omega
  | 1 =>
    apply iff_of_true trivial
    split_ifs <;> omega
  | 2 =>
    change KnownFunction (σ (p + 1)) ↔ _
    split_ifs with known good <;> simp [known]
  | 3 =>
    change KnownFunction (σ (p + 1)) ↔ _
    split_ifs with known good <;> simp [known]
  | n + 4 =>
    change KnownFunction (σ (p + 1)) ∧ (1 ≤ announcedItems (σ (p + 2)) (σ (p + 3)) ∧
      announcedItems (σ (p + 2)) (σ (p + 3)) ≤ 3) ∧ (window σ (p + 4) n).length <
        8 * announcedItems (σ (p + 2)) (σ (p + 3)) + 2 ↔ _
    rw [length_window]
    split_ifs with known good
    · simp only [known, true_and]
      exact ⟨fun h => by have := h.2; omega, fun h => ⟨good, by omega⟩⟩
    · exact iff_of_false (fun h => good h.2.1) (by omega)
    · exact iff_of_false (fun h => known h.1) (by omega)

private theorem dropLast_window (n : Nat) : (window σ p (n + 1)).dropLast = window σ p n := by
  rw [window_append]
  exact List.dropLast_concat

/-- A window is a unit exactly if it has its length. -/
theorem wholeUnit_window (n : Nat) : WholeUnit (window σ p n) ↔ n = unitAt σ p := by
  cases n with
  | zero =>
    have inside := (unfinished_window σ p 0).mp trivial
    exact iff_of_false (fun h => h.2 trivial) (by omega)
  | succ n =>
    rw [WholeUnit, dropLast_window, unfinished_window, unfinished_window]
    omega

/-- The decoder finds the frames of the units that fit into a window. -/
theorem mem_greedy_window (n : Nat) (frame : CommFrame) :
    frame ∈ greedy (window σ p n) ↔ ∃ j, (advance σ)^[j + 1] p ≤ p + n ∧
      frame ∈ unitFrames (window σ ((advance σ)^[j] p) (unitAt σ ((advance σ)^[j] p))) := by
  induction n using Nat.strong_induction_on generalizing p with
  | _ n ih =>
    have least := (unfinished_window σ p 0).mp trivial
    have ahead (q : Nat) : q ≤ advance σ q := Nat.le_add_right _ _
    have grows (j : Nat) (q : Nat) : q ≤ (advance σ)^[j] q := by
      induction j with
      | zero => exact Nat.le_refl q
      | succ j ih =>
        rw [Function.iterate_succ_apply']
        exact ih.trans (ahead _)
    by_cases fits : unitAt σ p ≤ n
    · obtain ⟨m, rfl⟩ := Nat.exists_eq_add_of_le fits
      have whole : WholeUnit (window σ p (unitAt σ p)) := (wholeUnit_window σ p _).mpr rfl
      rw [window_append, greedy_unit whole, List.mem_append, ih m (by omega)]
      constructor
      · rintro (first | ⟨j, within, later⟩)
        · exact ⟨0, by change p + unitAt σ p ≤ _; omega, first⟩
        · refine ⟨j + 1, ?_, later⟩
          change (advance σ)^[j + 1] (p + unitAt σ p) ≤ _
          omega
      · rintro ⟨j, within, later⟩
        cases j with
        | zero => exact Or.inl later
        | succ j =>
          right
          refine ⟨j, ?_, later⟩
          change (advance σ)^[j + 1] (p + unitAt σ p) ≤ _ at within
          omega
    · rw [greedy_unfinished ((unfinished_window σ p n).mpr (by omega))]
      apply iff_of_false List.not_mem_nil
      rintro ⟨j, within, -⟩
      have past := grows j (advance σ p)
      rw [Function.iterate_succ_apply] at within
      change p + unitAt σ p ≤ _ at past
      omega

end Streams

/-! ### A frame over and over -/

/-- What a receiver inside a unit reads: the bytes of the unit so far, and then the same list
over and over. -/
def incoming (r : Receiver) (l : List Byte) : Nat → Byte := precede (unfinished r) (cycle l)

/-- The start of the `j`-th unit it reads. -/
def unitStart (r : Receiver) (l : List Byte) (j : Nat) : Nat := (advance (incoming r l))^[j] 0

/-- Some unit it reads starts where the next bytes are those of the list. -/
def Arrives (r : Receiver) (l : List Byte) : Prop :=
  ∃ j, window (incoming r l) (unitStart r l j) l.length = l

/-- Feeding the bytes of a frame `n` times over dispatches the frame. -/
def Redispatched (env : Environment) (s : Station) (frame : CommFrame) (n : Nat) : Prop :=
  ∃ new, (feed env (fun _ => true) (List.replicate n (serialized frame)).flatten s).dispatched =
      s.dispatched ++ new ∧ { frame with crcCheck := frameCrc frame } ∈ new

section Frame

variable {frame : CommFrame}

private theorem serialized_crcCheck (crc : Half) :
    serialized { frame with crcCheck := crc } = serialized frame := rfl

/-- The frame is dispatched by the unit of its bytes and by no other. -/
private theorem mem_unitFrames (sent : Receivable frame) {u : List Byte} (whole : WholeUnit u) :
    { frame with crcCheck := frameCrc frame } ∈ unitFrames u ↔ u = serialized frame := by
  constructor
  · intro dispatched
    rw [← (serialized_unitFrames whole dispatched).2, serialized_crcCheck]
  · rintro rfl
    rw [unitFrames_serialized sent]
    exact List.mem_singleton_self _

private theorem mem_unitFrames_window (sent : Receivable frame) (σ : Nat → Byte) (p : Nat) :
    { frame with crcCheck := frameCrc frame } ∈ unitFrames (window σ p (unitAt σ p)) ↔
      window σ p (serialized frame).length = serialized frame := by
  rw [mem_unitFrames sent ((wholeUnit_window σ p _).mpr rfl)]
  constructor
  · intro same
    have size := congrArg List.length same
    rw [length_window] at size
    rwa [← size]
  · intro same
    have whole := serialized_wholeUnit sent
    rw [← same, wholeUnit_window] at whole
    rwa [whole] at same

/-- The frame is dispatched if a unit of its bytes ends within the repetitions. -/
private theorem redispatched_iff (env : Environment) {s : Station} (reached : Reachable s.receiver)
    (sent : Receivable frame) (n : Nat) :
    Redispatched env s frame n ↔ ∃ j, unitStart s.receiver (serialized frame) (j + 1) ≤
        (unfinished s.receiver).length + n * (serialized frame).length ∧
      window (incoming s.receiver (serialized frame)) (unitStart s.receiver (serialized frame) j)
        (serialized frame).length = serialized frame := by
  obtain ⟨r, d, done⟩ := s
  obtain ⟨block, g, inside, rfl⟩ := reached.inside
  have read := feed_during env (List.replicate n (serialized frame)).flatten d done
    block inside
  have bytes : g ++ (List.replicate n (serialized frame)).flatten =
      window (incoming (during block g) (serialized frame)) 0
        (g.length + n * (serialized frame).length) := by
    rw [incoming, unfinished_during block inside, window_precede, window_cycle]
  rw [bytes] at read
  have found := mem_greedy_window (incoming (during block g) (serialized frame)) 0
    (g.length + n * (serialized frame).length) { frame with crcCheck := frameCrc frame }
  simp only [mem_unitFrames_window sent, Nat.zero_add] at found
  dsimp only
  rw [unfinished_during block inside]
  refine Iff.trans ?_ found
  rw [Redispatched, read]
  constructor
  · rintro ⟨new, same, member⟩
    rwa [List.append_cancel_left same]
  · intro member
    exact ⟨_, rfl, member⟩

end Frame

/-! ### Coming round -/

section Walk

variable (l : List Byte)

private theorem unitAt_cycle {p q : Nat} (same : p % l.length = q % l.length) :
    unitAt (cycle l) p = unitAt (cycle l) q := by
  have place (i : Nat) : cycle l (p + i) = cycle l (q + i) := by
    rw [← cycle_mod l (p + i), ← cycle_mod l (q + i), Nat.add_mod, same, ← Nat.add_mod]
  rw [unitAt, unitAt, place, place, place]

/-- Half the length of a unit. -/
private def half (σ : Nat → Byte) (p : Nat) : Nat := unitAt σ p / 2

private theorem advance_half (σ : Nat → Byte) (p : Nat) : advance σ p = p + 2 * half σ p := by
  obtain ⟨h, same⟩ := unitLength_even (σ (p + 1)) (σ (p + 2)) (σ (p + 3))
  change p + unitLength _ _ _ = p + 2 * (unitLength _ _ _ / 2)
  rw [same]
  omega

variable {m : Nat} (size : l.length = 2 * m) (positive : 0 < m)

/-- The walk of the units round the list, counted in pairs of bytes from `x` on. -/
private def around (x : Nat) (k : Fin m) : Fin m :=
  ⟨(k.val + half (cycle l) (x + 2 * k.val)) % m, Nat.mod_lt _ positive⟩

include size in
private theorem around_position (x : Nat) (j : Nat) :
    (advance (cycle l))^[j] x % l.length =
      (x + 2 * ((around l positive x)^[j] ⟨0, positive⟩).val) % l.length := by
  induction j with
  | zero => rfl
  | succ j ih =>
    rw [Function.iterate_succ_apply', Function.iterate_succ_apply', advance_half, half,
      unitAt_cycle l ih, ← half]
    generalize (around l positive x)^[j] ⟨0, positive⟩ = k at ih ⊢
    change _ = (x + 2 * ((k.val + half (cycle l) (x + 2 * k.val)) % m)) % l.length
    rw [Nat.add_mod, ih, ← Nat.add_mod, size, ← Nat.mul_mod_mul_left, Nat.add_mod_mod,
      Nat.mul_add, Nat.add_assoc]

include size positive in
/-- A walk that starts on the list once starts on it within half its length. -/
private theorem starts_early (x : Nat)
    (met : ∃ j, window (cycle l) ((advance (cycle l))^[j] x) l.length = l) :
    ∃ j < m, window (cycle l) ((advance (cycle l))^[j] x) l.length = l := by
  have seen (j : Nat) : window (cycle l) ((advance (cycle l))^[j] x) l.length =
      window (cycle l) (x + 2 * ((around l positive x)^[j] ⟨0, positive⟩).val) l.length :=
    window_cycle_congr l (around_position l size positive x j) _
  simp only [seen] at met ⊢
  have early := iterate_meets_early (around l positive x)
    (fun k => window (cycle l) (x + 2 * k.val) l.length = l) met
  rwa [Fintype.card_fin] at early

end Walk

/-! ### Resynchronisation -/

section Resynchronisation

variable {r : Receiver} {l : List Byte}

private theorem unitStart_succ (r : Receiver) (l : List Byte) (j : Nat) :
    unitStart r l (j + 1) = advance (incoming r l) (unitStart r l j) :=
  Function.iterate_succ_apply' _ _ _

private theorem unitStart_le (r : Receiver) (l : List Byte) (j : Nat) :
    unitStart r l j ≤ 30 * j := by
  induction j with
  | zero => exact Nat.le_refl 0
  | succ j ih =>
    have short : unitAt (incoming r l) (unitStart r l j) ≤ 30 := unitLength_le _ _ _
    rw [unitStart_succ, advance]
    omega

/-- The first unit covers the bytes that the receiver has already. -/
private theorem unfinished_lt (reached : Reachable r) (l : List Byte) :
    (unfinished r).length < unitStart r l 1 := by
  obtain ⟨block, g, inside, rfl⟩ := reached.inside
  have ahead : window (incoming (during block g) l) 0 g.length = g := by
    have h := window_precede g (cycle l) 0
    rw [Nat.add_zero, window, List.append_nil] at h
    rw [incoming, unfinished_during block inside, h]
  change _ < 0 + unitAt (incoming (during block g) l) 0
  rw [Nat.zero_add, unfinished_during block inside, ← unfinished_window, ahead]
  exact inside

/-- From the second unit on only the list is read. -/
private theorem advance_behind (r : Receiver) (l : List Byte) (x : Nat) :
    advance (incoming r l) ((unfinished r).length + x) =
      (unfinished r).length + advance (cycle l) x := by
  simp only [advance, unitAt, incoming, Nat.add_assoc, precede_behind]

private theorem unitStart_behind (reached : Reachable r) (l : List Byte) (j : Nat) :
    unitStart r l (j + 1) = (unfinished r).length +
      (advance (cycle l))^[j] (unitStart r l 1 - (unfinished r).length) := by
  induction j with
  | zero =>
    have covered := unfinished_lt reached l
    change unitStart r l 1 = _ + (unitStart r l 1 - _)
    omega
  | succ j ih =>
    rw [unitStart_succ, ih, advance_behind, Function.iterate_succ_apply']

private theorem window_behind (r : Receiver) (l : List Byte) (x n : Nat) :
    window (incoming r l) ((unfinished r).length + x) n = window (cycle l) x n :=
  window_congr fun i _ => by rw [incoming, Nat.add_assoc, precede_behind]

/-- A unit that starts on the list at all starts on it early. -/
private theorem arrives_early (reached : Reachable r) {m : Nat} (size : l.length = 2 * m)
    (positive : 0 < m) (arrives : Arrives r l) :
    ∃ j ≤ m, window (incoming r l) (unitStart r l j) l.length = l := by
  obtain ⟨j, here⟩ := arrives
  cases j with
  | zero => exact ⟨0, Nat.zero_le m, here⟩
  | succ j =>
    rw [unitStart_behind reached, window_behind] at here
    obtain ⟨i, early, there⟩ := starts_early l size positive _ ⟨j, here⟩
    refine ⟨i + 1, early, ?_⟩
    rwa [unitStart_behind reached, window_behind]

end Resynchronisation

/-- Wherever the receiver stands, a frame sent over and over is dispatched within 30
repetitions exactly if some unit the receiver reads starts on it, and else never. -/
theorem resynchronises_iff (env : Environment) (s : Station) (reached : Reachable s.receiver)
    (frame : CommFrame) (sent : Receivable frame) :
    (Redispatched env s frame 30 ↔ Arrives s.receiver (serialized frame)) ∧
      ∀ n, Redispatched env s frame n → Arrives s.receiver (serialized frame) := by
  have met (n : Nat) (again : Redispatched env s frame n) :
      Arrives s.receiver (serialized frame) := by
    obtain ⟨j, -, here⟩ := (redispatched_iff env reached sent n).mp again
    exact ⟨j, here⟩
  refine ⟨⟨met 30, ?_⟩, met⟩
  intro arrives
  have size : (serialized frame).length = 2 * (3 + 4 * frame.dataField.length) := by
    rw [length_serialized]
    omega
  obtain ⟨j, early, here⟩ := arrives_early reached size (by omega) arrives
  refine (redispatched_iff env reached sent 30).mpr ⟨j, ?_, here⟩
  have near := unitStart_le s.receiver (serialized frame) (j + 1)
  omega

private theorem reachable_feed (env : Environment) (grant : Nat → Bool) (bytes : List Byte)
    {s : Station} (reached : Reachable s.receiver) :
    Reachable (feed env grant bytes s).receiver := by
  induction bytes generalizing s with
  | nil => exact reached
  | cons b bytes ih => exact ih (.byte reached env grant s.device s.dispatched b)

def readOne : CommFrame := ⟨0x01, 0xC0, 1, [⟨0x1200, 0x0002, 0⟩], 0⟩

/-- A receiver that has read the start of a frame and waits for the rest of its item. -/
def insideItem : Station :=
  feed (.flawless fun _ => 0) (fun _ => true) [0x01, 0xC0, 0x00, 0x01, 0x12, 0x00]
    (.atIdle (.initial fun _ => 0xFF) [])

/-- From inside a frame, a read frame that is sent over and over is dispatched. -/
theorem resynchronises_iff_inside : insideItem.receiver.currentState = .receivingData ∧
    (Redispatched (.flawless fun _ => 0) insideItem readOne 30 ↔
      Arrives insideItem.receiver (serialized readOne)) ∧
    Redispatched (.flawless fun _ => 0) insideItem readOne 30 := by
  have reached : Reachable insideItem.receiver := reachable_feed _ _ _ .reset
  have sent : Receivable readOne := ⟨by decide, rfl, by decide, by decide⟩
  have arrives : Arrives insideItem.receiver (serialized readOne) := ⟨4, by decide +kernel⟩
  obtain ⟨iff, -⟩ := resynchronises_iff (.flawless fun _ => 0) insideItem reached readOne sent
  exact ⟨by decide +kernel, iff, iff.mpr arrives⟩

/-- Behind one byte, a frame none of whose bytes at even places is a function code is read in
units of two bytes, which never start on it. -/
private theorem not_arrives {r : Receiver} {frame : CommFrame} (sent : Receivable frame)
    (behind : (unfinished r).length = 1)
    (codes : ∀ k, ¬KnownFunction (cycle (serialized frame) (2 * k))) :
    ¬Arrives r (serialized frame) := by
  have code (k : Nat) : ¬KnownFunction (incoming r (serialized frame) (2 * k + 1)) := by
    rw [Nat.add_comm, ← behind, incoming, precede_behind]
    exact codes k
  have pair (k : Nat) : unitAt (incoming r (serialized frame)) (2 * k) = 2 :=
    if_neg (code k)
  have starts (j : Nat) : unitStart r (serialized frame) j = 2 * j := by
    induction j with
    | zero => rfl
    | succ j ih =>
      rw [unitStart_succ, ih, advance, pair]
      omega
  rintro ⟨j, here⟩
  have whole := serialized_wholeUnit sent
  have size := length_serialized frame
  rw [← here, wholeUnit_window, starts, pair] at whole
  omega

/-- After one byte a certain frame is never dispatched, however often it is sent. -/
theorem resynchronises_never :
    ¬∀ (env : Environment) (s : Station) (frame : CommFrame), Reachable s.receiver →
      Receivable frame → Redispatched env s frame 30 := by
  intro promised
  have sent : Receivable readOne := ⟨by decide, rfl, by decide, by decide⟩
  have bytes : serialized readOne =
      [0x01, 0xC0, 0x00, 0x01, 0x12, 0x00, 0x00, 0x02, 0x00, 0x00, 0x00, 0x00, 0x57, 0x41] := by
    decide +kernel
  have byte := step_address (.flawless fun _ => 0) (fun _ => true) (.initial fun _ => 0xFF) [] 0x01
  have reached : Reachable (addressed 0x01) := by
    have reached := Reachable.byte .reset (.flawless fun _ => 0) (fun _ => true)
      (.initial fun _ => 0xFF) [] 0x01
    rwa [byte] at reached
  have first : unfinished (addressed 0x01) = [0x01] :=
    unfinished_during 0 (g := [0x01]) trivial
  have again := promised (.flawless fun _ => 0) ⟨addressed 0x01, .initial fun _ => 0xFF, []⟩ _
    reached sent
  obtain ⟨j, -, here⟩ := (redispatched_iff _ reached sent 30).mp again
  refine not_arrives sent (congrArg List.length first) ?_ ⟨j, here⟩
  intro k
  have even : 2 * k % 14 = 2 * (k % 7) := Nat.mul_mod_mul_left 2 k 7
  have all : ∀ i < 7, ¬KnownFunction
      ([0x01, 0xC0, 0x00, 0x01, 0x12, 0x00, 0x00, 0x02, 0x00, 0x00, 0x00, 0x00, 0x57, 0x41].getD
        (2 * i) default) := by
    decide
  rw [bytes, cycle]
  change ¬KnownFunction (List.getD _ (2 * k % 14) default)
  rw [even]
  exact all (k % 7) (Nat.mod_lt k (by decide))

end BmsFirmware.DataProcess.Resync
