/- Module: BmsFirmware/Drive/PageRetry
   Source: application/drive/i2c.c
   Digest: What a page write transmits at each visit of its transmit state. -/

import BmsFirmware.Drive.I2cSteps

set_option autoImplicit false
set_option relaxedAutoImplicit false

namespace BmsFirmware.Drive.PageRetry

open BmsFirmware.Library.ByteMemory
open BmsFirmware.Library.PowerLogic
open BmsFirmware.Drive.I2c
open BmsFirmware.Drive.I2cSteps

/-! ### Visits of the transmit state -/

/-- The transmit state begins with its wait for TBE; a data byte belongs to the visit begun
last. -/
def visitStep (visits : List (List (Nat × Byte))) : Event → List (List (Nat × Byte))
  | .waited .pageWrite .tbe _ => [] :: visits
  | .dataTransmit source data => match visits with
    | [] => [[(source, data)]]
    | visit :: earlier => (visit ++ [(source, data)]) :: earlier
  | _ => visits

/-- The data bytes of each visit with the addresses they come from, the last visit first. -/
def visits (journal : List Event) : List (List (Nat × Byte)) := journal.foldl visitStep []

/-- The bytes of a buffer with their addresses. -/
def bufferBytes (m : Memory) (pBuffer n : Nat) : List (Nat × Byte) :=
  (List.range' pBuffer n).map fun a => (a, m a)

/-- Every data byte comes out of the buffer, and every visit of the transmit state sends
exactly the buffer. -/
structure StaysInBuffer (m : Memory) (pBuffer n : Nat) (journal : List Event) : Prop where
  sources : ∀ a data, .dataTransmit a data ∈ journal → pBuffer ≤ a ∧ a < pBuffer + n
  visits : ∀ visit ∈ visits journal, visit = bufferBytes m pBuffer n

/-- How often the address has been acknowledged. -/
def acknowledgements (journal : List Event) : Nat :=
  journal.count (.waited .pageWrite .addsend true)

/-! ### One pass -/

section Passes

variable {hw : Hardware} {m : Memory} {pBuffer n k k' : Nat} {writeAddress : Byte}
  {l : PageWrite} {out : PageWrite ⊕ Byte} {es journal : List Event}

private theorem visits_append (es : List Event) :
    visits (journal ++ es) = es.foldl visitStep (visits journal) :=
  List.foldl_append

private theorem visits_sent (sent : DataSent hw m pBuffer k n k' es) (visit : List (Nat × Byte))
    (earlier : List (List (Nat × Byte))) :
    es.foldl visitStep (visit :: earlier) = (visit ++ bufferBytes m pBuffer n) :: earlier := by
  induction sent generalizing visit with
  | none => simp [bufferBytes]
  | byte ended rest ih =>
    simp only [List.foldl_cons, visitStep]
    rw [ih, bufferBytes, bufferBytes, List.range'_succ, List.map_cons, List.append_assoc,
      List.singleton_append]

private theorem sources_sent (sent : DataSent hw m pBuffer k n k' es) {a : Nat} {data : Byte}
    (listed : .dataTransmit a data ∈ es) : pBuffer ≤ a ∧ a < pBuffer + n := by
  induction sent with
  | none => simp at listed
  | byte ended rest ih =>
    simp only [List.mem_cons, Event.dataTransmit.injEq, reduceCtorEq, false_or] at listed
    rcases listed with ⟨rfl, -⟩ | later
    · omega
    · have inside := ih later
      omega

private theorem acknowledgements_sent (sent : DataSent hw m pBuffer k n k' es) :
    acknowledgements es = 0 := by
  induction sent with
  | none => rfl
  | byte ended rest ih => simpa [acknowledgements] using ih

private theorem acknowledgements_append (es : List Event) :
    acknowledgements (journal ++ es) = acknowledgements journal + acknowledgements es :=
  List.count_append

variable (journal) in
/-- A pass outside the transmit state sends no data. -/
private theorem pass_quiet (step : PageWriteStep hw writeAddress m l k k' out es)
    (other : l.state ≠ .transmitData) :
    visits (journal ++ es) = visits journal ∧ ∀ a data, .dataTransmit a data ∉ es := by
  rw [visits_append]
  cases step with
  | transmitted here => exact absurd here other
  | _ => exact ⟨rfl, by simp⟩

variable (journal) in
/-- A pass of the transmit state sends the bytes its variables point to. -/
private theorem pass_transmit (step : PageWriteStep hw writeAddress m l k k' out es)
    (here : l.state = .transmitData) :
    out = .inl ⟨.stop, l.pBuffer + l.numberOfByte.toNat, 0xFF⟩ ∧
      visits (journal ++ es) =
        bufferBytes m l.pBuffer l.numberOfByte.toNat :: visits journal ∧
      (∀ a data, .dataTransmit a data ∈ es →
        l.pBuffer ≤ a ∧ a < l.pBuffer + l.numberOfByte.toNat) ∧ acknowledgements es = 0 := by
  rw [visits_append]
  cases step with
  | @transmitted _ empty seen i j emptied first es sent =>
    refine ⟨rfl, ?_, ?_, ?_⟩
    · cases empty <;> simp [visitStep, visits_sent sent]
    · intro a data listed
      apply sources_sent sent
      cases empty <;> simpa using listed
    · have none := acknowledgements_sent sent
      cases empty <;> simpa [acknowledgements] using none
  | idle other => rw [here] at other; cases other
  | busy other => rw [here] at other; cases other
  | started other => rw [here] at other; cases other
  | unstarted other => rw [here] at other; cases other
  | acknowledged other => rw [here] at other; cases other
  | unacknowledged other => rw [here] at other; cases other
  | stopped other => rw [here] at other; cases other
  | unstopped other => rw [here] at other; cases other

end Passes

/-! ### A whole call -/

section Call

variable {m : Memory} {pBuffer : Nat} {writeAddress numberOfByte : Byte}

/-- Whether the next pass is one of the transmit state. -/
def entering (l : PageWrite) : Nat := if l.state = .transmitData then 1 else 0

variable (m pBuffer numberOfByte) in
/-- What the visits so far have sent, and where they have left the variables. -/
inductive Sent (l : PageWrite) (journal : List Event) : Prop where
  | notYet (none : visits journal = []) (silent : ∀ a data, .dataTransmit a data ∉ journal)
      (buffer : l.pBuffer = pBuffer) (count : l.numberOfByte = numberOfByte)
  | once (one : visits journal = [bufferBytes m pBuffer numberOfByte.toNat])
      (sources : ∀ a data, .dataTransmit a data ∈ journal →
        pBuffer ≤ a ∧ a < pBuffer + numberOfByte.toNat)
      (buffer : l.pBuffer = pBuffer + numberOfByte.toNat) (count : l.numberOfByte = 0xFF)
  | again (more : 2 ≤ (visits journal).length)
      (other : ∃ visit ∈ visits journal, visit ≠ bufferBytes m pBuffer numberOfByte.toNat)

variable (m pBuffer numberOfByte) in
/-- The invariant of the loop. -/
structure Visited (l : PageWrite) (s : Bus) : Prop where
  memory : s.memory = m
  sent : Sent m pBuffer numberOfByte l s.journal
  counted : acknowledgements s.journal = (visits s.journal).length + entering l

/-- Only the buffer is sent as long as there is no second visit. -/
private theorem Sent.stays_iff {l : PageWrite} {journal : List Event}
    (sent : Sent m pBuffer numberOfByte l journal) :
    StaysInBuffer m pBuffer numberOfByte.toNat journal ↔ (visits journal).length ≤ 1 := by
  cases sent with
  | notYet none silent =>
    rw [none]
    refine iff_of_true ⟨fun a data listed => absurd listed (silent a data), ?_⟩ (Nat.zero_le 1)
    intro visit listed
    rw [none] at listed
    exact absurd listed List.not_mem_nil
  | once one sources =>
    rw [one]
    refine iff_of_true ⟨sources, ?_⟩ (Nat.le_refl 1)
    intro visit listed
    rw [one] at listed
    exact List.mem_singleton.mp listed
  | again more other =>
    obtain ⟨visit, listed, differs⟩ := other
    exact iff_of_false (fun stays => differs (stays.visits visit listed)) (by omega)

/-- A pass without data keeps what has been sent. -/
private theorem Sent.quiet {l l' : PageWrite} {journal es : List Event}
    (sent : Sent m pBuffer numberOfByte l journal) (same : visits (journal ++ es) = visits journal)
    (silent : ∀ a data, .dataTransmit a data ∉ es) (buffer : l'.pBuffer = l.pBuffer)
    (count : l'.numberOfByte = l.numberOfByte) :
    Sent m pBuffer numberOfByte l' (journal ++ es) := by
  have before {a : Nat} {data : Byte} (listed : .dataTransmit a data ∈ journal ++ es) :
      .dataTransmit a data ∈ journal :=
    (List.mem_append.mp listed).resolve_right (silent a data)
  cases sent with
  | notYet none quiet place left =>
    exact .notYet (same.trans none) (fun a data listed => quiet a data (before listed))
      (buffer.trans place) (count.trans left)
  | once one sources place left =>
    exact .once (same.trans one) (fun a data listed => sources a data (before listed))
      (buffer.trans place) (count.trans left)
  | again more other => exact .again (by rwa [same]) (by rwa [same])

/-- A visit sends the buffer the first time, and something else after that. -/
private theorem Sent.visit {l l' : PageWrite} {journal es : List Event}
    (few : numberOfByte.toNat ≤ 8) (sent : Sent m pBuffer numberOfByte l journal)
    (visited : visits (journal ++ es) =
      bufferBytes m l.pBuffer l.numberOfByte.toNat :: visits journal)
    (sources : ∀ a data, .dataTransmit a data ∈ es →
      l.pBuffer ≤ a ∧ a < l.pBuffer + l.numberOfByte.toNat)
    (buffer : l'.pBuffer = l.pBuffer + l.numberOfByte.toNat) (count : l'.numberOfByte = 0xFF) :
    Sent m pBuffer numberOfByte l' (journal ++ es) := by
  cases sent with
  | notYet none quiet place left =>
    rw [place, left] at visited sources buffer
    refine .once (by rw [visited, none]) ?_ buffer count
    intro a data listed
    exact sources a data ((List.mem_append.mp listed).resolve_left (quiet a data))
  | once one _ place left =>
    refine .again (by simp [visited, one]) ⟨_, by rw [visited]; exact List.mem_cons_self, ?_⟩
    intro same
    have lengths := congrArg List.length same
    rw [left] at lengths
    simp only [bufferBytes, List.length_map, List.length_range'] at lengths
    change 255 = _ at lengths
    omega
  | again more other =>
    obtain ⟨visit, listed, differs⟩ := other
    refine .again ?_ ⟨visit, by rw [visited]; exact List.mem_cons_of_mem _ listed, differs⟩
    rw [visited, List.length_cons]
    omega

/-- A pass that leaves the pointer and the count alone; it counts an acknowledgement when it
enters the transmit state. -/
private def Untouched (l : PageWrite) (es : List Event) : PageWrite ⊕ Byte → Prop
  | .inl l' => l'.pBuffer = l.pBuffer ∧ l'.numberOfByte = l.numberOfByte ∧
      acknowledgements es = entering l'
  | .inr _ => acknowledgements es = 0

private theorem pass_untouched {hw : Hardware} {l : PageWrite} {out : PageWrite ⊕ Byte} {k k' : Nat}
    {es : List Event} (step : PageWriteStep hw writeAddress m l k k' out es)
    (other : l.state ≠ .transmitData) :
    Untouched l es out := by
  cases step with
  | transmitted here => exact absurd here other
  | acknowledged => exact ⟨rfl, rfl, rfl⟩
  | idle => exact ⟨rfl, rfl, rfl⟩
  | started => exact ⟨rfl, rfl, rfl⟩
  | unstarted => exact ⟨rfl, rfl, rfl⟩
  | unstopped => exact ⟨rfl, rfl, rfl⟩
  | busy => exact rfl
  | unacknowledged => exact rfl
  | stopped => exact rfl

/-- What a return owes. -/
private def Returned (m : Memory) (pBuffer : Nat) (numberOfByte : Byte) (s : Bus) : Prop :=
  StaysInBuffer m pBuffer numberOfByte.toNat s.journal ↔ acknowledgements s.journal ≤ 1

/-- What a cut owes. -/
private def Running (m : Memory) (pBuffer : Nat) (numberOfByte : Byte) (s : Bus) : Prop :=
  StaysInBuffer m pBuffer numberOfByte.toNat s.journal ↔ (visits s.journal).length ≤ 1

private theorem visited_pass {hw : Hardware} (few : numberOfByte.toNat ≤ 8) {l : PageWrite}
    {s : Bus} {out : PageWrite ⊕ Byte} {k : Nat} {es : List Event}
    (so_far : Visited m pBuffer numberOfByte l s)
    (step : PageWriteStep hw writeAddress s.memory l s.polls k out es) :
    Next (Visited m pBuffer numberOfByte) (fun _ t => Returned m pBuffer numberOfByte t) out
      (did s k es) := by
  obtain ⟨memory, sent, counted⟩ := so_far
  rw [memory] at step
  by_cases here : l.state = .transmitData
  · obtain ⟨rfl, visited, sources, none⟩ := pass_transmit s.journal step here
    refine ⟨memory, sent.visit few visited sources rfl rfl, ?_⟩
    change acknowledgements (s.journal ++ es) = (visits (s.journal ++ es)).length + 0
    rw [acknowledgements_append, counted, visited, none, entering, if_pos here]
    rfl
  · obtain ⟨same, silent⟩ := pass_quiet s.journal step here
    have untouched := pass_untouched step here
    rw [entering, if_neg here] at counted
    cases out with
    | inl l' =>
      obtain ⟨place, left, entered⟩ := untouched
      refine ⟨memory, sent.quiet same silent place left, ?_⟩
      change acknowledgements (s.journal ++ es) = (visits (s.journal ++ es)).length + _
      rw [acknowledgements_append, counted, same, entered]
      rfl
    | inr r =>
      have kept : Sent m pBuffer numberOfByte l (s.journal ++ es) :=
        sent.quiet same silent rfl rfl
      change StaysInBuffer _ _ _ (s.journal ++ es) ↔ acknowledgements (s.journal ++ es) ≤ 1
      rw [kept.stays_iff, acknowledgements_append, counted, same,
        show acknowledgements es = 0 from untouched]
      rfl

private theorem pageWrite_visited (hw : Hardware) (fuel : Nat) (m : Memory) (pBuffer : Nat)
    (writeAddress : Byte) (few : numberOfByte.toNat ≤ 8) :
    (i2cPageWriteTimeout hw fuel pBuffer writeAddress numberOfByte (fresh m)).Sat
      (fun _ s => Returned m pBuffer numberOfByte s) (Running m pBuffer numberOfByte) := by
  refine pageWrite_sat (I := Visited m pBuffer numberOfByte)
    (fun l s out k es so_far step => visited_pass few so_far step)
    (fun l s so_far => so_far.sent.stays_iff) (fresh m) ?_
  exact ⟨rfl, .notYet rfl (by simp [did, fresh]) rfl rfl, rfl⟩

/-- A call that is still running after a second visit has left its buffer. -/
private theorem visited_cut {hw : Hardware} {fuel : Nat} {s : Bus} (few : numberOfByte.toNat ≤ 8)
    (run : i2cPageWriteTimeout hw fuel pBuffer writeAddress numberOfByte (fresh m) = .cut s)
    (again : 2 ≤ (visits s.journal).length) :
    ¬StaysInBuffer m pBuffer numberOfByte.toNat s.journal := by
  have law := pageWrite_visited hw fuel m pBuffer writeAddress few
  rw [run] at law
  intro stays
  have once : (visits s.journal).length ≤ 1 := law.mp stays
  omega

end Call

/-- A page write sends its buffer and nothing else exactly when the address is acknowledged
at most once; while it is still running, when it has visited the transmit state at most
once. -/
theorem pageWrite_staysInBuffer_iff (hw : Hardware) (fuel : Nat) (m : Memory) (pBuffer : Nat)
    (writeAddress numberOfByte : Byte) (few : numberOfByte.toNat ≤ 8) :
    (i2cPageWriteTimeout hw fuel pBuffer writeAddress numberOfByte (fresh m)).Sat
      (fun _ s => StaysInBuffer m pBuffer numberOfByte.toNat s.journal ↔
        acknowledgements s.journal ≤ 1)
      (fun s => StaysInBuffer m pBuffer numberOfByte.toNat s.journal ↔
        (visits s.journal).length ≤ 1) :=
  pageWrite_visited hw fuel m pBuffer writeAddress few

/-- A write of two bytes to a peripheral that is always ready. -/
theorem pageWrite_staysInBuffer_two :
    (i2cPageWriteTimeout (responsive fun _ => 0) 5 0 0 2 (fresh fun _ => 0)).Sat
      (fun _ s => StaysInBuffer (fun _ => 0) 0 (2 : Byte).toNat s.journal ↔
        acknowledgements s.journal ≤ 1)
      (fun s => StaysInBuffer (fun _ => 0) 0 (2 : Byte).toNat s.journal ↔
        (visits s.journal).length ≤ 1) :=
  pageWrite_staysInBuffer_iff (responsive fun _ => 0) 5 (fun _ => 0) 0 0 2 (by decide)

/-! ### A stop bit that does not clear -/

/-- The bus is idle and every flag is set when it is waited for, but so is the stop bit. -/
def stuckStop : Hardware := ⟨fun _ flag => decide (flag ≠ .i2cbsy), fun _ => 0⟩

section StuckStop

variable {hw : Hardware} (writeAddress : Byte)

private theorem stuck_stop (stuck : ∀ k, hw.flag k .stop = true) (pBuffer : Nat) (s : Bus) :
    ∃ t, pageWriteTurn hw writeAddress ⟨.stop, pBuffer, 0xFF⟩ s =
      .done (.inl ⟨.start, pBuffer, 0xFF⟩) t ∧ visits t.journal = visits s.journal := by
  obtain ⟨k, wait⟩ := waitClear_steady stuck .pageWrite (did s s.polls [.stopOnBus])
  refine ⟨did s k [.stopOnBus, .waited .pageWrite .stop false], ?_, visits_append _⟩
  simp only [pageWriteTurn]
  rw [act_bind, bind_done wait, did_did]
  rfl

/-- One attempt visits the transmit state and then starts again. -/
private theorem stuck_attempt (ready : Ready hw) (stuck : ∀ k, hw.flag k .stop = true)
    (pBuffer : Nat) (numberOfByte : Byte) (s : Bus) :
    ∃ t, (∀ fuel, loopWith (pageWriteTurn hw writeAddress) (fuel + 5)
        ⟨.start, pBuffer, numberOfByte⟩ s =
        loopWith (pageWriteTurn hw writeAddress) fuel
          ⟨.start, pBuffer + numberOfByte.toNat, 0xFF⟩ t) ∧
      (visits t.journal).length = (visits s.journal).length + 1 := by
  obtain ⟨t, addressed, k, rfl⟩ :=
    ready.pageWrite_addressed writeAddress pBuffer numberOfByte s
  obtain ⟨out, k', es, transmit, step⟩ := pageWriteTurn_step hw writeAddress
    ⟨.transmitData, pBuffer, numberOfByte⟩ (did s k _)
  obtain ⟨rfl, visited, -⟩ := pass_transmit (did s k _).journal step rfl
  obtain ⟨u, stop, same⟩ := stuck_stop writeAddress stuck (pBuffer + numberOfByte.toNat)
    (did (did s k _) k' es)
  refine ⟨u, fun fuel => ?_, ?_⟩
  · rw [addressed (fuel + 2), loopWith_next transmit, loopWith_next stop]
  · refine (congrArg List.length (same.trans visited)).trans ?_
    exact congrArg (·.length + 1) (visits_append _)

end StuckStop

/-- With a stop bit that does not clear, a write of two bytes leaves its buffer. -/
theorem pageWrite_leavesBuffer :
    ∃ s, i2cPageWriteTimeout stuckStop 10 0 0 2 (fresh fun _ => 0) = .cut s ∧
      ¬StaysInBuffer (fun _ => 0) 0 2 s.journal := by
  have ready : Ready stuckStop := ⟨fun _ => rfl, fun _ => rfl, fun _ => rfl⟩
  have stuck : ∀ k, stuckStop.flag k .stop = true := fun _ => rfl
  obtain ⟨t, first, one⟩ := stuck_attempt 0 ready stuck 0 2
    (did (fresh fun _ => 0) (fresh fun _ => 0).polls [.ackConfig true])
  obtain ⟨u, second, two⟩ := stuck_attempt 0 ready stuck (0 + (2 : Byte).toNat) 0xFF t
  have run : i2cPageWriteTimeout stuckStop (0 + 5 + 5) 0 0 2 (fresh fun _ => 0) = .cut u := by
    rw [i2cPageWriteTimeout, act_bind, first, second, loopWith]
  refine ⟨u, run, visited_cut (by decide) run ?_⟩
  rw [two, one]
  exact Nat.le_add_left 2 _

end BmsFirmware.Drive.PageRetry
