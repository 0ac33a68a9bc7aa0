/- Module: BmsFirmware/Drive/PolledRead
   Source: application/drive/i2c.c
   Digest: What a polled buffer read has stored when it returns or is still running. -/

import BmsFirmware.Drive.I2cSteps

set_option autoImplicit false
set_option relaxedAutoImplicit false

namespace BmsFirmware.Drive.PolledRead

open BmsFirmware.Library.ByteMemory
open BmsFirmware.Library.PowerLogic
open BmsFirmware.Drive.I2c
open BmsFirmware.Drive.I2cSteps

/-- A byte taken from the data register, with the address it is stored to. -/
def storeOf : Event → Option (Nat × Byte)
  | .dataReceive target data => some (target, data)
  | _ => none

/-- Everything that is stored, in the order of the journal. -/
def stores (journal : List Event) : List (Nat × Byte) := journal.filterMap storeOf

/-- The first `k` places of the buffer hold the first `k` bytes of the data register, each
stored once and in this order, and nothing else has been stored. -/
structure Stored (hw : Hardware) (m : Memory) (pBuffer k : Nat) (s : Bus) : Prop where
  memory : s.memory = fill m pBuffer k hw.data
  received : s.received = k
  order : stores s.journal = (List.range k).map fun i => (pBuffer + i, hw.data i)

section Stores

variable {hw : Hardware}

private theorem stores_append (es fs : List Event) :
    stores (es ++ fs) = stores es ++ stores fs :=
  List.filterMap_append

private theorem stores_taken {pBuffer first k : Nat} {es : List Event}
    (taken : DataTaken hw pBuffer first k es) :
    stores es = (List.range k).map fun i => (pBuffer + i, hw.data (first + i)) := by
  induction taken with
  | none => rfl
  | ending _ ends ih =>
    rw [stores_append, ih]
    rcases ends with rfl | rfl
    · exact List.append_nil _
    · exact List.append_nil _
  | byte _ ih =>
    rw [stores_append, ih, List.range_succ, List.map_append]
    rfl

private theorem stores_quiet {readAddress : Byte} {l : BufferRead} {out : BufferRead ⊕ Byte}
    {es : List Event} (step : BufferReadStep readAddress l out es) : stores es = [] := by
  cases step with
  | idle => split_ifs <;> rfl
  | started => split_ifs <;> rfl
  | acknowledged => split_ifs <;> rfl
  | addressed _ _ empty => cases empty <;> rfl
  | unaddressed _ _ empty => cases empty <;> rfl
  | _ => rfl

private theorem Stored.quiet {m : Memory} {pBuffer k : Nat} {s : Bus}
    (stored : Stored hw m pBuffer k s) (polls : Nat) {es : List Event} (none : stores es = []) :
    Stored hw m pBuffer k (did s polls es) := by
  refine ⟨stored.memory, stored.received, ?_⟩
  change stores (s.journal ++ es) = _
  rw [stores_append, none, List.append_nil, stored.order]

/-- From nothing stored, the loop over the data stores the first bytes. -/
private theorem Stored.receive {m : Memory} {pBuffer k : Nat} {s t : Bus}
    (stored : Stored hw m pBuffer 0 s) (received : Received hw pBuffer s k t) :
    Stored hw m pBuffer k t := by
  obtain ⟨memory, count, es, listed, taken⟩ := received
  rw [stored.received] at memory count taken
  simp only [Nat.zero_add] at memory count
  refine ⟨?_, count, ?_⟩
  · rw [memory, stored.memory, fill_zero]
  · rw [listed, stores_append, stored.order, stores_taken taken]
    simp

/-- Nothing to receive keeps what is stored. -/
private theorem Stored.receiveNone {m : Memory} {pBuffer place k : Nat} {s t : Bus}
    (stored : Stored hw m pBuffer k s) (received : Received hw place s 0 t) :
    Stored hw m pBuffer k t := by
  obtain ⟨memory, count, es, listed, taken⟩ := received
  refine ⟨?_, count.trans stored.received, ?_⟩
  · rw [memory, fill_zero, stored.memory]
  · rw [listed, stores_append, stored.order, stores_taken taken]
    exact List.append_nil _

end Stores

section Call

variable {hw : Hardware} {m : Memory} {pBuffer : Nat} {numberOfByte : Half}

variable (hw m pBuffer numberOfByte) in
/-- The invariant of the loop: nothing is stored yet, or all of it is, and the stop state is
only reached with everything stored. -/
inductive Progress (l : BufferRead) (s : Bus) : Prop where
  | before (stored : Stored hw m pBuffer 0 s) (buffer : l.pBuffer = pBuffer)
      (count : l.numberOfByte = numberOfByte) (other : l.state ≠ .stop)
  | after (stored : Stored hw m pBuffer numberOfByte.toNat s) (count : l.numberOfByte = 0)

/-- What a return owes. -/
private def Returned (hw : Hardware) (m : Memory) (pBuffer n : Nat) (r : Byte) (s : Bus) : Prop :=
  ∃ k ≤ n, Stored hw m pBuffer k s ∧ (r = I2C_END ∧ k = n ∨ r = I2C_FAIL ∧ (k = 0 ∨ k = n))

private theorem Progress.running {l : BufferRead} {s : Bus}
    (progress : Progress hw m pBuffer numberOfByte l s) :
    ∃ k ≤ numberOfByte.toNat, Stored hw m pBuffer k s := by
  cases progress with
  | before stored => exact ⟨0, Nat.zero_le _, stored⟩
  | after stored => exact ⟨_, Nat.le_refl _, stored⟩

private theorem Progress.failed {l : BufferRead} {s : Bus}
    (progress : Progress hw m pBuffer numberOfByte l s) :
    Returned hw m pBuffer numberOfByte.toNat I2C_FAIL s := by
  cases progress with
  | before stored => exact ⟨0, Nat.zero_le _, stored, Or.inr ⟨rfl, Or.inl rfl⟩⟩
  | after stored => exact ⟨_, Nat.le_refl _, stored, Or.inr ⟨rfl, Or.inr rfl⟩⟩

/-- A pass that keeps the pointer and the count and does not enter the stop state. -/
private theorem Progress.next {l l' : BufferRead} {s : Bus}
    (progress : Progress hw m pBuffer numberOfByte l s) (buffer : l'.pBuffer = l.pBuffer)
    (count : l'.numberOfByte = l.numberOfByte) (other : l'.state ≠ .stop) :
    Progress hw m pBuffer numberOfByte l' s := by
  cases progress with
  | before stored place left => exact .before stored (buffer.trans place) (count.trans left) other
  | after stored left => exact .after stored (count.trans left)

private theorem Progress.quiet {l : BufferRead} {s : Bus}
    (progress : Progress hw m pBuffer numberOfByte l s) (polls : Nat) {es : List Event}
    (none : stores es = []) : Progress hw m pBuffer numberOfByte l (did s polls es) := by
  cases progress with
  | before stored place left other => exact .before (stored.quiet polls none) place left other
  | after stored left => exact .after (stored.quiet polls none) left

private theorem progress_pass {readAddress : Byte} {l : BufferRead} {s : Bus}
    {out : BufferRead ⊕ Byte} {k : Nat} {es : List Event}
    (progress : Progress hw m pBuffer numberOfByte l s)
    (step : BufferReadStep readAddress l out es) :
    Next (Progress hw m pBuffer numberOfByte) (Returned hw m pBuffer numberOfByte.toNat) out
      (did s k es) := by
  have kept := progress.quiet k (stores_quiet step)
  cases step with
  | busy => exact kept.failed
  | unacknowledged => exact kept.failed
  | unaddressed => exact kept.failed
  | stopped here =>
    cases kept with
    | before _ _ _ other => exact absurd here other
    | after stored => exact ⟨_, Nat.le_refl _, stored, Or.inl ⟨rfl, rfl⟩⟩
  | _ => exact kept.next rfl rfl (by simp)

private theorem progress_stored {l : BufferRead} {s t : Bus} {cycle : Bool}
    (progress : Progress hw m pBuffer numberOfByte l s)
    (received : Received hw l.pBuffer s l.numberOfByte.toNat t) :
    Progress hw m pBuffer numberOfByte ⟨.stop, cycle, l.pBuffer + l.numberOfByte.toNat, 0, 0⟩
      t := by
  cases progress with
  | before stored place left =>
    rw [place, left] at received
    exact .after (stored.receive received) rfl
  | after stored left =>
    rw [left] at received
    exact .after (stored.receiveNone received) rfl

private theorem progress_taking {l : BufferRead} {s t : Bus} {k : Nat}
    (progress : Progress hw m pBuffer numberOfByte l s) (bound : k ≤ l.numberOfByte.toNat)
    (received : Received hw l.pBuffer s k t) :
    ∃ k ≤ numberOfByte.toNat, Stored hw m pBuffer k t := by
  cases progress with
  | before stored place left =>
    rw [left] at bound
    rw [place] at received
    exact ⟨k, bound, stored.receive received⟩
  | after stored left =>
    rw [left] at bound
    obtain rfl : k = 0 := Nat.le_zero.mp bound
    exact ⟨_, Nat.le_refl _, stored.receiveNone received⟩

end Call

/-- A polled read that succeeds has stored the whole buffer, and one that fails all of it or
none, whatever the flags do; one that is still running has stored a first part of it. -/
theorem bufferRead_allOrNothing (hw : Hardware) (fuel : Nat) (m : Memory) (pBuffer : Nat)
    (readAddress : Byte) (numberOfByte : Half) :
    (i2cBufferRead hw fuel pBuffer readAddress numberOfByte (fresh m)).Sat
      (fun r s => ∃ k ≤ numberOfByte.toNat, Stored hw m pBuffer k s ∧
        (r = I2C_END ∧ k = numberOfByte.toNat ∨
          r = I2C_FAIL ∧ (k = 0 ∨ k = numberOfByte.toNat)))
      fun s => ∃ k ≤ numberOfByte.toNat, Stored hw m pBuffer k s := by
  refine bufferRead_sat (I := Progress hw m pBuffer numberOfByte)
    (fun l s out k es progress step => progress_pass progress step)
    (fun l s t cycle progress _ _ received => progress_stored progress received)
    (fun l s k t progress _ _ bound received => progress_taking progress bound received)
    (fun l s progress => progress.running) (fresh m) ?_
  exact .before ⟨(fill_zero m pBuffer hw.data).symm, rfl, rfl⟩ rfl rfl (by simp)

end BmsFirmware.Drive.PolledRead
