/- Module: BmsFirmware/Drive/PageSplit
   Source: application/drive/i2c.c, application/drive/i2c.h
   Digest: For which lengths the page writes of a buffer write make up its buffer. -/

import BmsFirmware.Drive.I2c
import Mathlib.Data.Nat.Find

set_option autoImplicit false
set_option relaxedAutoImplicit false

namespace BmsFirmware.Drive.PageSplit

open BmsFirmware.Library.ByteMemory
open BmsFirmware.Library.PowerLogic
open BmsFirmware.Drive.I2c

/-- The arguments of a page write. -/
structure Chunk where
  pBuffer : Nat
  writeAddress : Byte
  numberOfByte : Byte
  deriving DecidableEq

/-! ### Recorded runs -/

/-- How many calls there have been, and the page writes among them. -/
structure Recorder where
  calls : Nat
  issued : List Chunk

section Recording

variable (results : Nat → Byte)

def recordPageWrite (pBuffer : Nat) (writeAddress numberOfByte : Byte) : Proc Recorder Byte :=
  fun s => .done (results s.calls)
    ⟨s.calls + 1, s.issued ++ [⟨pBuffer, writeAddress, numberOfByte⟩]⟩

def recordStandby : Proc Recorder Byte := fun s =>
  .done (results s.calls) { s with calls := s.calls + 1 }

/-- A buffer write whose page writes and standby waits have the given results. -/
def recorded (pBuffer : Nat) (writeAddress : Byte) (numberOfByte : Half) :
    Outcome Recorder Byte :=
  bufferWrite (recordPageWrite results) (recordStandby results) pBuffer writeAddress numberOfByte
    ⟨0, []⟩

end Recording

/-- The page writes of a buffer write that meets no failure. -/
def flawless (pBuffer : Nat) (writeAddress : Byte) (numberOfByte : Half) : List Chunk :=
  (recorded (fun _ => I2C_OK) pBuffer writeAddress numberOfByte).state.issued

/-- Page writes that cover a buffer: its bytes in order, at consecutive addresses, each
within a page of eight. -/
structure Covers (pBuffer : Nat) (writeAddress : Byte) (n : Nat) (issued : List Chunk) : Prop where
  bytes : issued.flatMap (fun c => List.range' c.pBuffer c.numberOfByte.toNat) =
    List.range' pBuffer n
  addresses : ∀ c ∈ issued, ∃ i, c.pBuffer = pBuffer + i ∧
    c.writeAddress = writeAddress + BitVec.ofNat 8 i
  pages : ∀ c ∈ issued, c.writeAddress.toNat % 8 + c.numberOfByte.toNat ≤ 8

/-- Call `k` is the first that fails. -/
def FirstFailing (results : Nat → Byte) (k : Nat) : Prop :=
  results k ≠ I2C_OK ∧ ∀ i < k, results i = I2C_OK

/-- Whatever the results: a buffer write that returns `I2C_OK` has covered its buffer, and
one with a failing call has issued the page writes up to it and returns its result. -/
def LosesNothing (pBuffer : Nat) (writeAddress : Byte) (numberOfByte : Half) : Prop :=
  ∀ results, ∃ r s, recorded results pBuffer writeAddress numberOfByte = .done r s ∧
    (r = I2C_OK → Covers pBuffer writeAddress numberOfByte.toNat s.issued) ∧
    ∀ k, FirstFailing results k → k < 2 * (flawless pBuffer writeAddress numberOfByte).length →
      r = results k ∧
        s.issued = (flawless pBuffer writeAddress numberOfByte).take (k / 2 + 1)

/-- The whole pages of the part behind the first page boundary fit the 8-bit count, or
there is nothing but more pages than that. -/
def Fits (writeAddress : Byte) (numberOfByte : Half) : Prop :=
  if writeAddress.toNat % 8 = 0 then numberOfByte.toNat < 2048 ∨ 2048 ∣ numberOfByte.toNat
  else numberOfByte.toNat - (8 - writeAddress.toNat % 8) < 2048

instance (writeAddress : Byte) (numberOfByte : Half) :
    Decidable (Fits writeAddress numberOfByte) := by
  unfold Fits
  infer_instance

/-! ### The chunks of a buffer write -/

def pageChunks : Nat → Nat → Byte → List Chunk
  | 0, _, _ => []
  | n + 1, pBuffer, writeAddress =>
      ⟨pBuffer, writeAddress, I2C_PAGE_SIZE⟩ :: pageChunks n (pBuffer + 8) (writeAddress + 8)

/-- From a page boundary on: the pages that the 8-bit count has, and what is left. -/
def alignedChunks (pBuffer : Nat) (writeAddress : Byte) (numberOfByte : Half) : List Chunk :=
  let pages := ((numberOfByte / 8).setWidth 8 : Byte).toNat
  let single : Byte := (numberOfByte % 8).setWidth 8
  pageChunks pages pBuffer writeAddress ++
    if single ≠ 0 then
      [⟨pBuffer + 8 * pages, writeAddress + BitVec.ofNat 8 (8 * pages), single⟩]
    else []

def chunks (pBuffer : Nat) (writeAddress : Byte) (numberOfByte : Half) : List Chunk :=
  let count := I2C_PAGE_SIZE - writeAddress % I2C_PAGE_SIZE
  if writeAddress % I2C_PAGE_SIZE = 0 then alignedChunks pBuffer writeAddress numberOfByte
  else if numberOfByte < count.setWidth 16 then
    [⟨pBuffer, writeAddress, numberOfByte.setWidth 8⟩]
  else ⟨pBuffer, writeAddress, count⟩ ::
    alignedChunks (pBuffer + count.toNat) (writeAddress + count)
      (numberOfByte - count.setWidth 16)

section Refinement

variable {σ : Type} (pageWrite : Nat → Byte → Byte → Proc σ Byte) (standby : Proc σ Byte)

/-- Write chunks one after the other. -/
def writeChunks : List Chunk → Byte → Proc σ Byte
  | [], result => pure result
  | c :: cs, _ => writeThen pageWrite standby c.pBuffer c.writeAddress c.numberOfByte
      (writeChunks cs)

private theorem writePages_eq {next : Nat → Byte → Byte → Proc σ Byte} {tail : List Chunk}
    (n pBuffer : Nat) (writeAddress result : Byte)
    (rest : next (pBuffer + 8 * n) (writeAddress + BitVec.ofNat 8 (8 * n)) =
      writeChunks pageWrite standby tail) :
    writePages pageWrite standby next n pBuffer writeAddress result =
      writeChunks pageWrite standby (pageChunks n pBuffer writeAddress ++ tail) result := by
  induction n generalizing pBuffer writeAddress result with
  | zero =>
    simp only [Nat.mul_zero, Nat.add_zero, BitVec.add_zero] at rest
    exact congrFun rest result
  | succ n ih =>
    simp only [writePages, pageChunks, List.cons_append, writeChunks]
    congr 1
    funext result
    apply ih
    rw [← rest]
    congr 1
    · change pBuffer + 8 + 8 * n = _
      omega
    · rw [Nat.mul_succ, Nat.add_comm, BitVec.ofNat_add, ← BitVec.add_assoc]
      rfl

private theorem alignedWrite_eq (pBuffer : Nat) (writeAddress : Byte) (numberOfByte : Half)
    (result : Byte) :
    writePages pageWrite standby
        (writeSingle pageWrite standby ((numberOfByte % 8).setWidth 8))
        ((numberOfByte / 8).setWidth 8 : Byte).toNat pBuffer writeAddress result =
      writeChunks pageWrite standby (alignedChunks pBuffer writeAddress numberOfByte) result := by
  apply writePages_eq
  funext result
  unfold writeSingle
  split_ifs <;> rfl

/-- A buffer write writes its chunks. -/
theorem bufferWrite_eq (pBuffer : Nat) (writeAddress : Byte) (numberOfByte : Half) :
    bufferWrite pageWrite standby pBuffer writeAddress numberOfByte =
      writeChunks pageWrite standby (chunks pBuffer writeAddress numberOfByte) 3 := by
  unfold bufferWrite chunks
  simp only
  by_cases aligned : writeAddress % I2C_PAGE_SIZE = 0
  · rw [if_pos aligned, if_pos aligned]
    exact alignedWrite_eq pageWrite standby pBuffer writeAddress numberOfByte 3
  · have positive : I2C_PAGE_SIZE - writeAddress % I2C_PAGE_SIZE ≠ 0 := by
      intro none
      have size : I2C_PAGE_SIZE.toNat = 8 := rfl
      have rest := congrArg BitVec.toNat none
      rw [BitVec.toNat_sub, BitVec.toNat_umod, size] at rest
      change _ % 256 = 0 at rest
      omega
    rw [if_neg aligned, if_neg aligned, if_pos positive]
    by_cases short : numberOfByte < (I2C_PAGE_SIZE - writeAddress % I2C_PAGE_SIZE).setWidth 16
    · rw [if_pos short, if_pos short]
      rfl
    · rw [if_neg short, if_neg short, writeChunks]
      congr 1
      funext result
      exact alignedWrite_eq pageWrite standby _ _ _ result

end Refinement

/-! ### Recorded chunks -/

section Runs

variable {results : Nat → Byte}

private theorem recordPageWrite_done (c : Chunk) {s : Recorder} {result : Byte}
    (value : results s.calls = result) :
    recordPageWrite results c.pBuffer c.writeAddress c.numberOfByte s =
      .done result ⟨s.calls + 1, s.issued ++ [c]⟩ := by
  rw [recordPageWrite, value]

private theorem recordStandby_done {s : Recorder} {result : Byte}
    (value : results s.calls = result) :
    recordStandby results s = .done result ⟨s.calls + 1, s.issued⟩ := by
  rw [recordStandby, value]

private theorem writeChunks_flawless (cs : List Chunk) (result : Byte) (s : Recorder)
    (fine : ∀ i < 2 * cs.length, results (s.calls + i) = I2C_OK) :
    writeChunks (recordPageWrite results) (recordStandby results) cs result s =
      .done (if cs = [] then result else I2C_OK) ⟨s.calls + 2 * cs.length, s.issued ++ cs⟩ := by
  induction cs generalizing result s with
  | nil => simp [writeChunks]
  | cons c cs ih =>
    have written : results s.calls = I2C_OK := fine 0 (by simp)
    have standby : results (s.calls + 1) = I2C_OK := fine 1 (by simp; omega)
    rw [writeChunks, writeThen_goesOn (recordPageWrite_done c written) (recordStandby_done standby),
      ih]
    · simp only [ite_self, List.length_cons, List.append_assoc, List.singleton_append,
        List.cons_ne_nil, if_false]
      congr 2
      omega
    · intro i inside
      have later := fine (i + 2) (by simp only [List.length_cons]; omega)
      have shift : s.calls + 1 + 1 + i = s.calls + (i + 2) := by omega
      rwa [shift]

private theorem writeChunks_failing (cs : List Chunk) (result : Byte) (s : Recorder) (k : Nat)
    (inside : k < 2 * cs.length) (failing : results (s.calls + k) ≠ I2C_OK)
    (before : ∀ i < k, results (s.calls + i) = I2C_OK) :
    writeChunks (recordPageWrite results) (recordStandby results) cs result s =
      .done (results (s.calls + k)) ⟨s.calls + k + 1, s.issued ++ cs.take (k / 2 + 1)⟩ := by
  induction cs generalizing result s k with
  | nil => simp at inside
  | cons c cs ih =>
    rw [writeChunks]
    match k with
    | 0 =>
      rw [writeThen_refused (recordPageWrite_done c rfl) failing]
      simp
    | 1 =>
      have written : results s.calls = I2C_OK := before 0 (by omega)
      rw [writeThen_noStandby (recordPageWrite_done c written) (recordStandby_done rfl) failing]
      simp
    | k + 2 =>
      have written : results s.calls = I2C_OK := before 0 (by omega)
      have standby : results (s.calls + 1) = I2C_OK := before 1 (by omega)
      have shift (i : Nat) : s.calls + 1 + 1 + i = s.calls + (i + 2) := by omega
      rw [writeThen_goesOn (recordPageWrite_done c written) (recordStandby_done standby), ih _ _ k]
      · have half : (k + 2) / 2 + 1 = k / 2 + 1 + 1 := by omega
        rw [shift, half, List.take_succ_cons, List.append_assoc, List.singleton_append]
      · simp only [List.length_cons] at inside
        omega
      · rw [shift]
        exact failing
      · intro i hi
        rw [shift]
        exact before (i + 2) (by omega)

variable (pBuffer : Nat) (writeAddress : Byte) (numberOfByte : Half)

private theorem recorded_flawless (fine : ∀ i, results i = I2C_OK) :
    recorded results pBuffer writeAddress numberOfByte =
      .done (if chunks pBuffer writeAddress numberOfByte = [] then 3 else I2C_OK)
        ⟨2 * (chunks pBuffer writeAddress numberOfByte).length,
          chunks pBuffer writeAddress numberOfByte⟩ := by
  rw [recorded, bufferWrite_eq, writeChunks_flawless _ _ _ fun i _ => fine _]
  simp

theorem flawless_eq : flawless pBuffer writeAddress numberOfByte =
    chunks pBuffer writeAddress numberOfByte := by
  rw [flawless, recorded_flawless _ _ _ fun _ => rfl]
  rfl

private theorem recorded_failing {k : Nat} (first : FirstFailing results k)
    (inside : k < 2 * (chunks pBuffer writeAddress numberOfByte).length) :
    recorded results pBuffer writeAddress numberOfByte =
      .done (results k)
        ⟨k + 1, (chunks pBuffer writeAddress numberOfByte).take (k / 2 + 1)⟩ := by
  have index (i : Nat) : (0 : Nat) + i = i := Nat.zero_add i
  rw [recorded, bufferWrite_eq, writeChunks_failing _ _ _ k inside]
  · simp [index]
  · rw [index]
    exact first.1
  · intro i hi
    rw [index]
    exact first.2 i hi

/-- The results matter only up to the last call. -/
private theorem recorded_fine
    (fine : ∀ i < 2 * (chunks pBuffer writeAddress numberOfByte).length, results i = I2C_OK) :
    recorded results pBuffer writeAddress numberOfByte =
      recorded (fun _ => I2C_OK) pBuffer writeAddress numberOfByte := by
  rw [recorded_flawless _ _ _ fun _ => rfl, recorded, bufferWrite_eq, writeChunks_flawless]
  · simp
  · intro i hi
    simpa using fine i hi

/-- Nothing is lost exactly when the chunks cover the buffer or there are none. -/
private theorem losesNothing_iff : LosesNothing pBuffer writeAddress numberOfByte ↔
    chunks pBuffer writeAddress numberOfByte = [] ∨
      Covers pBuffer writeAddress numberOfByte.toNat
        (chunks pBuffer writeAddress numberOfByte) := by
  constructor
  · intro law
    obtain ⟨r, s, run, covers, -⟩ := law fun _ => I2C_OK
    rw [recorded_flawless _ _ _ fun _ => rfl] at run
    by_cases empty : chunks pBuffer writeAddress numberOfByte = []
    · exact Or.inl empty
    · rw [if_neg empty] at run
      injection run with value state
      subst value state
      exact Or.inr (covers rfl)
  · intro whole results
    by_cases fine : ∀ i < 2 * (chunks pBuffer writeAddress numberOfByte).length,
        results i = I2C_OK
    · refine ⟨_, _, (recorded_fine _ _ _ fine).trans (recorded_flawless _ _ _ fun _ => rfl),
        ?_, ?_⟩
      · intro success
        rcases whole with empty | covers
        · rw [if_pos empty] at success
          exact absurd success (by decide)
        · exact covers
      · intro k first inside
        rw [flawless_eq] at inside
        exact absurd (fine k inside) first.1
    · have failing : ∃ k, k < 2 * (chunks pBuffer writeAddress numberOfByte).length ∧
          results k ≠ I2C_OK := by
        push Not at fine
        exact fine
      obtain ⟨inside, failed⟩ := Nat.find_spec failing
      have first : FirstFailing results (Nat.find failing) := by
        refine ⟨failed, ?_⟩
        intro i earlier
        by_contra bad
        exact Nat.find_min failing earlier ⟨by omega, bad⟩
      refine ⟨_, _, recorded_failing _ _ _ first inside, fun success => absurd success failed, ?_⟩
      intro k other _
      have same : k = Nat.find failing := by
        rcases Nat.lt_trichotomy k (Nat.find failing) with earlier | here | later
        · exact absurd (first.2 k earlier) other.1
        · exact here
        · exact absurd (other.2 _ later) failed
      rw [same, flawless_eq]
      exact ⟨rfl, rfl⟩

end Runs

/-! ### What the chunks cover -/

section Coverage

variable {pBuffer a b : Nat} {writeAddress : Byte} {xs ys : List Chunk}

theorem Covers.append (first : Covers pBuffer writeAddress a xs)
    (next : Covers (pBuffer + a) (writeAddress + BitVec.ofNat 8 a) b ys) :
    Covers pBuffer writeAddress (a + b) (xs ++ ys) := by
  constructor
  · rw [List.flatMap_append, first.bytes, next.bytes, List.range'_append_1]
  · intro c listed
    rcases List.mem_append.mp listed with inFirst | inNext
    · exact first.addresses c inFirst
    · obtain ⟨i, place, address⟩ := next.addresses c inNext
      refine ⟨a + i, by omega, ?_⟩
      rw [address, BitVec.ofNat_add, BitVec.add_assoc]
  · intro c listed
    rcases List.mem_append.mp listed with inFirst | inNext
    · exact first.pages c inFirst
    · exact next.pages c inNext

/-- The chunks of a buffer determine its length. -/
theorem Covers.length_eq (first : Covers pBuffer writeAddress a xs)
    (second : Covers pBuffer writeAddress b xs) : a = b := by
  have lengths := congrArg List.length (first.bytes.symm.trans second.bytes)
  simpa using lengths

private theorem covers_nil : Covers pBuffer writeAddress 0 [] :=
  ⟨rfl, fun _ listed => absurd listed (by simp), fun _ listed => absurd listed (by simp)⟩

variable (pBuffer) in
private theorem covers_single {numberOfByte : Byte}
    (within : writeAddress.toNat % 8 + numberOfByte.toNat ≤ 8) :
    Covers pBuffer writeAddress numberOfByte.toNat [⟨pBuffer, writeAddress, numberOfByte⟩] := by
  constructor
  · simp
  · intro c listed
    rw [List.mem_singleton.mp listed]
    exact ⟨0, rfl, (BitVec.add_zero _).symm⟩
  · intro c listed
    rw [List.mem_singleton.mp listed]
    exact within

/-- Whole pages lead from one page boundary to another. -/
private theorem aligned_add (aligned : writeAddress.toNat % 8 = 0) (k : Nat) :
    (writeAddress + BitVec.ofNat 8 (8 * k)).toNat % 8 = 0 := by
  rw [BitVec.toNat_add, BitVec.toNat_ofNat]
  omega

private theorem covers_pages (aligned : writeAddress.toNat % 8 = 0) (k : Nat) :
    Covers pBuffer writeAddress (8 * k) (pageChunks k pBuffer writeAddress) := by
  induction k generalizing pBuffer writeAddress with
  | zero => exact covers_nil
  | succ k ih =>
    have within : writeAddress.toNat % 8 + I2C_PAGE_SIZE.toNat ≤ 8 := by
      rw [aligned]
      decide
    have first : Covers pBuffer writeAddress 8 [⟨pBuffer, writeAddress, I2C_PAGE_SIZE⟩] :=
      covers_single pBuffer within
    have next := first.append (ih (aligned_add aligned 1))
    rwa [Nat.add_comm 8, ← Nat.mul_succ] at next

private theorem pageChunks_eq_nil {k : Nat} : pageChunks k pBuffer writeAddress = [] ↔ k = 0 := by
  cases k <;> simp [pageChunks]

/-- The bytes that the chunks from a page boundary on make up. -/
def alignedBytes (numberOfByte : Half) : Nat :=
  8 * (numberOfByte.toNat / 8 % 256) + numberOfByte.toNat % 8

private theorem pageCount (numberOfByte : Half) :
    ((numberOfByte / 8).setWidth 8 : Byte).toNat = numberOfByte.toNat / 8 % 256 := by
  rw [BitVec.toNat_setWidth, BitVec.toNat_udiv]
  rfl

private theorem singleCount (numberOfByte : Half) :
    ((numberOfByte % 8).setWidth 8 : Byte).toNat = numberOfByte.toNat % 8 := by
  rw [BitVec.toNat_setWidth, BitVec.toNat_umod]
  change numberOfByte.toNat % 8 % 256 = _
  omega

private theorem covers_aligned (aligned : writeAddress.toNat % 8 = 0) (numberOfByte : Half) :
    Covers pBuffer writeAddress (alignedBytes numberOfByte)
      (alignedChunks pBuffer writeAddress numberOfByte) := by
  have single := singleCount numberOfByte
  unfold alignedBytes alignedChunks
  simp only [← pageCount]
  refine (covers_pages aligned _).append ?_
  by_cases left : (numberOfByte % 8).setWidth 8 = (0 : Byte)
  · have none : numberOfByte.toNat % 8 = 0 := by rw [← single, left]; rfl
    rw [if_neg (not_not_intro left), none]
    exact covers_nil
  · rw [if_pos left, ← single]
    apply covers_single
    rw [aligned_add aligned, single]
    omega

end Coverage

section Lengths

variable (pBuffer : Nat) (writeAddress : Byte) (numberOfByte : Half)

/-- The bytes that the chunks of a buffer write make up. -/
def chunkBytes : Nat :=
  if writeAddress.toNat % 8 = 0 then alignedBytes numberOfByte
  else if numberOfByte.toNat < 8 - writeAddress.toNat % 8 then numberOfByte.toNat
  else 8 - writeAddress.toNat % 8 +
    alignedBytes (numberOfByte - BitVec.ofNat 16 (8 - writeAddress.toNat % 8))

private theorem pageOffset : (writeAddress % I2C_PAGE_SIZE).toNat = writeAddress.toNat % 8 :=
  BitVec.toNat_umod

private theorem pageRest :
    (I2C_PAGE_SIZE - writeAddress % I2C_PAGE_SIZE).toNat = 8 - writeAddress.toNat % 8 := by
  have offset := pageOffset writeAddress
  have size : I2C_PAGE_SIZE.toNat = 8 := rfl
  rw [BitVec.toNat_sub, offset, size]
  omega

private theorem pageRest_narrow :
    I2C_PAGE_SIZE - writeAddress % I2C_PAGE_SIZE = BitVec.ofNat 8 (8 - writeAddress.toNat % 8) := by
  rw [← pageRest, BitVec.ofNat_toNat, BitVec.setWidth_eq]

private theorem pageRest_wide :
    ((BitVec.ofNat 8 (8 - writeAddress.toNat % 8)).setWidth 16 : Half) =
      BitVec.ofNat 16 (8 - writeAddress.toNat % 8) := by
  rw [← pageRest_narrow]
  apply BitVec.eq_of_toNat_eq
  rw [BitVec.toNat_setWidth, pageRest, BitVec.toNat_ofNat]

private theorem aligned_iff :
    writeAddress % I2C_PAGE_SIZE = 0 ↔ writeAddress.toNat % 8 = 0 := by
  rw [← pageOffset, ← BitVec.toNat_inj]
  rfl

theorem covers_chunks :
    Covers pBuffer writeAddress (chunkBytes writeAddress numberOfByte)
      (chunks pBuffer writeAddress numberOfByte) := by
  have rest : (BitVec.ofNat 8 (8 - writeAddress.toNat % 8)).toNat = 8 - writeAddress.toNat % 8 := by
    rw [BitVec.toNat_ofNat]
    omega
  unfold chunks chunkBytes
  simp only [pageRest_narrow, pageRest_wide]
  by_cases aligned : writeAddress.toNat % 8 = 0
  · rw [if_pos aligned, if_pos ((aligned_iff writeAddress).mpr aligned)]
    exact covers_aligned aligned numberOfByte
  · rw [if_neg aligned, if_neg fun zero => aligned ((aligned_iff writeAddress).mp zero)]
    have short : numberOfByte < BitVec.ofNat 16 (8 - writeAddress.toNat % 8) ↔
        numberOfByte.toNat < 8 - writeAddress.toNat % 8 := by
      rw [BitVec.lt_def, BitVec.toNat_ofNat, Nat.mod_eq_of_lt (by omega)]
    by_cases few : numberOfByte.toNat < 8 - writeAddress.toNat % 8
    · have narrow : (numberOfByte.setWidth 8 : Byte).toNat = numberOfByte.toNat := by
        rw [BitVec.toNat_setWidth]
        omega
      rw [if_pos few, if_pos (short.mpr few), ← narrow]
      apply covers_single
      omega
    · rw [if_neg few, if_neg fun less => few (short.mp less), rest]
      have first : Covers pBuffer writeAddress (8 - writeAddress.toNat % 8)
          [⟨pBuffer, writeAddress, BitVec.ofNat 8 (8 - writeAddress.toNat % 8)⟩] := by
        have single := covers_single pBuffer
          (show writeAddress.toNat % 8 + (BitVec.ofNat 8 (8 - writeAddress.toNat % 8)).toNat ≤ 8 by
            omega)
        rwa [rest] at single
      refine first.append (covers_aligned ?_ _)
      rw [BitVec.toNat_add, rest]
      omega

/-- Without chunks the length is zero at a page boundary or a multiple of 256 pages. -/
private theorem chunks_eq_nil :
    chunks pBuffer writeAddress numberOfByte = [] ↔
      writeAddress.toNat % 8 = 0 ∧ 2048 ∣ numberOfByte.toNat := by
  have offset := aligned_iff writeAddress
  unfold chunks
  simp only
  by_cases aligned : writeAddress.toNat % 8 = 0
  · have bound := numberOfByte.isLt
    have pages := pageCount numberOfByte
    have single := singleCount numberOfByte
    rw [if_pos (offset.mpr aligned)]
    simp only [alignedChunks, List.append_eq_nil_iff, pageChunks_eq_nil, ite_eq_right_iff,
      List.cons_ne_nil, imp_false, not_not, aligned, true_and]
    rw [pages, ← BitVec.toNat_inj, single]
    change _ ∧ _ = 0 ↔ _
    omega
  · rw [if_neg fun zero => aligned (offset.mp zero)]
    split_ifs <;> simp [aligned]

private theorem fits_iff (positive : numberOfByte ≠ 0) :
    Fits writeAddress numberOfByte ↔
      (writeAddress.toNat % 8 = 0 ∧ 2048 ∣ numberOfByte.toNat) ∨
        chunkBytes writeAddress numberOfByte = numberOfByte.toNat := by
  have bound := numberOfByte.isLt
  have some : numberOfByte.toNat ≠ 0 := fun zero => positive (BitVec.eq_of_toNat_eq zero)
  unfold Fits chunkBytes alignedBytes
  by_cases aligned : writeAddress.toNat % 8 = 0
  · rw [if_pos aligned, if_pos aligned]
    simp only [aligned, true_and]
    omega
  · rw [if_neg aligned, if_neg aligned]
    simp only [aligned, false_and, false_or]
    by_cases few : numberOfByte.toNat < 8 - writeAddress.toNat % 8
    · rw [if_pos few]
      omega
    · have rest : (numberOfByte - BitVec.ofNat 16 (8 - writeAddress.toNat % 8)).toNat =
          numberOfByte.toNat - (8 - writeAddress.toNat % 8) := by
        rw [BitVec.toNat_sub, BitVec.toNat_ofNat]
        omega
      rw [if_neg few, rest]
      omega

end Lengths

/-- Page splitting loses nothing exactly when the length fits. -/
theorem bufferWrite_losesNothing_iff (pBuffer : Nat) (writeAddress : Byte) {numberOfByte : Half}
    (positive : numberOfByte ≠ 0) :
    LosesNothing pBuffer writeAddress numberOfByte ↔ Fits writeAddress numberOfByte := by
  rw [losesNothing_iff, chunks_eq_nil, fits_iff writeAddress numberOfByte positive]
  have covered := covers_chunks pBuffer writeAddress numberOfByte
  refine or_congr_right ?_
  constructor
  · exact fun whole => covered.length_eq whole
  · intro same
    rwa [same] at covered

/-- Ten bytes from the middle of a page on. -/
theorem bufferWrite_losesNothing_ten : LosesNothing 0 5 10 :=
  (bufferWrite_losesNothing_iff 0 5 (by decide)).mpr (by decide)

/-- Of 257 pages the 8-bit count leaves one. -/
theorem bufferWrite_losesPages : ¬LosesNothing 0 0 2056 := by
  rw [losesNothing_iff]
  intro whole
  rcases whole with empty | covers
  · exact absurd empty (by decide)
  · exact absurd ((covers_chunks 0 0 2056).length_eq covers) (by decide)

end BmsFirmware.Drive.PageSplit
