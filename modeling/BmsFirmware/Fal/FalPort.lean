/- Module: BmsFirmware/Fal/FalPort
   Source: application/fal/src/fal_port.c
   Digest: The flash device of the database: verified word writes and page erases. -/

import BmsFirmware.Flash.PageImage

set_option autoImplicit false
set_option relaxedAutoImplicit false

namespace BmsFirmware.Fal.FalPort

open BmsFirmware.Library.ByteMemory
open BmsFirmware.Library.PowerLogic
open BmsFirmware.Flash.Controller
open BmsFirmware.Flash.Systick
open BmsFirmware.Flash.PageImage

/-- `gd32f303re_flash.addr`. -/
def deviceAddr : Word := 0x08040000

/-- `gd32f303re_flash.len`. -/
def deviceLen : Word := 252 * 1024

section Port

variable (env : Environment)

def read (offset : Word) (size : Word) : Proc Board (Int × List Byte) := do
  let addr := deviceAddr + offset
  let b ← Proc.get
  return (size.toInt, (List.range size.toNat).map fun i => b.flash (addr + BitVec.ofNat 32 i).toNat)

/-- The loop of `write`; `j` counts the words that `buf` and `addr` have advanced. As in
the page writer, a loop that outlives its fuel never leaves. -/
def writeFrom (buf : Memory) (size : Word) : Nat → Word → Nat → Word → Proc Board Int
  | 0, _, _, _ => fun b => .cut b
  | fuel + 1, i, j, addr =>
      if i < size then do
        let writeData := wordAt buf (4 * j)
        let flashStatus ← fmcWordProgram env addr writeData
        if flashStatus ≠ .ready then
          fmcLock
          return -1
        let b ← Proc.get
        let readData := wordAt b.flash addr.toNat
        if readData ≠ writeData then
          fmcLock
          return -1
        writeFrom buf size fuel (i + 4) (j + 1) (addr + 4)
      else do
        fmcLock
        return size.toInt

def write (offset : Word) (buf : Memory) (size : Word) : Proc Board Int := do
  let addr := deviceAddr + offset
  fmcUnlock
  writeFrom env buf size (2 ^ 30 + 1) 0 0 addr

/-- The number of pages an erase goes to, rounded up. -/
def erasePages (size : Word) : Word :=
  if size % BitVec.ofNat 32 pageSize ≠ 0 then size / BitVec.ofNat 32 pageSize + 1
  else size / BitVec.ofNat 32 pageSize

def erase (offset : Word) (size : Word) : Proc Board Int := do
  let addr := deviceAddr + offset
  fmcUnlock
  let failed ← forLoop (erasePages size).toNat fun i => do
    let flashStatus ← fmcPageErase env (addr + BitVec.ofNat 32 (pageSize * i))
    if flashStatus ≠ .ready then
      fmcLock
      return some (-1)
    return none
  match failed with
  | some code => return code
  | none =>
      fmcLock
      return size.toInt

end Port

/-! ### Writing -/

/-- The words a write of `size` bytes programs, rounded up. -/
def writtenWords (size : Word) : Nat := (size.toNat + 3) / 4

/-- The state of a write from board `b` after `k` words: they hold the buffer, everything
around them is as before, and one operation has been issued for each. -/
structure WrittenSoFar (buf : Memory) (start : Nat) (b : Board) (k : Nat) (s : Board) : Prop where
  flash : s.flash = fill b.flash start (4 * k) buf
  clock : s.clock = b.clock + k

/-- A write that has given up at word `k`: nothing is known of this word. -/
structure StoppedAt (buf : Memory) (start : Nat) (b : Board) (k : Nat) (s : Board) : Prop where
  flash : ∀ x, x < start + 4 * k ∨ start + 4 * (k + 1) ≤ x →
    s.flash x = fill b.flash start (4 * k) buf x

/-- A write that has given up at word `k`, whose operation is the last one issued. -/
structure GivenUpAt (buf : Memory) (start : Nat) (b : Board) (k : Nat) (s : Board) : Prop
    extends StoppedAt buf start b k s where
  clock : s.clock = b.clock + k + 1

section Write

variable {env : Environment} {buf : Memory} {b : Board} {addr size : Word}

/-- How a write ends: all words verified, or stopped at a word whose operation did not
simply succeed. -/
def WriteEnds (env : Environment) (buf : Memory) (b : Board) (addr size : Word) (r : Int)
    (s : Board) : Prop :=
  (r = size.toInt ∧ WrittenSoFar buf addr.toNat b (writtenWords size) s) ∨
    r = -1 ∧ ∃ k < writtenWords size, StoppedAt buf addr.toNat b k s ∧
      env.answer (b.clock + k) ≠ .success

/-- How a write ends, with the number of operations it has issued. -/
def WriteReturns (env : Environment) (buf : Memory) (b : Board) (addr size : Word) (r : Int)
    (s : Board) : Prop :=
  (r = size.toInt ∧ WrittenSoFar buf addr.toNat b (writtenWords size) s) ∨
    r = -1 ∧ ∃ k < writtenWords size, GivenUpAt buf addr.toNat b k s ∧
      env.answer (b.clock + k) ≠ .success

/-- A write that loses power does so between two words. -/
def WriteCut (env : Environment) (buf : Memory) (b : Board) (addr size : Word) (s : Board) : Prop :=
  ∃ k < writtenWords size, WrittenSoFar buf addr.toNat b k s ∧ env.power (b.clock + k) = false

private theorem word_address {k : Nat} (room : addr.toNat + 4 * writtenWords size ≤ 2 ^ 32)
    (inside : k < writtenWords size) :
    (addr + BitVec.ofNat 32 (4 * k)).toNat = addr.toNat + 4 * k := by
  rw [BitVec.toNat_add, BitVec.toNat_ofNat]
  omega

/-- A word that reads back as written holds its part of the buffer. -/
private theorem verified_word {m : Memory} {k : Nat} {c : Nat → Byte}
    (verified :
      wordAt (fill m (addr.toNat + 4 * k) 4 c) (addr.toNat + 4 * k) = wordAt buf (4 * k)) :
    ∀ i < 4, c i = buf (4 * k + i) := by
  intro i hi
  rw [← wordBytes_wordAt buf (4 * k) i hi, ← verified, wordBytes_wordAt _ _ i hi,
    fill_inside (by omega) (by omega), Nat.add_sub_cancel_left]

variable (env) in
/-- One word: programmed and verified, given up, or not begun. -/
private theorem word_step {s : Board} {k : Nat}
    (room : addr.toNat + 4 * writtenWords size ≤ 2 ^ 32) (inside : k < writtenWords size)
    (hs : WrittenSoFar buf addr.toNat b k s) :
    (fmcWordProgram env (addr + BitVec.ofNat 32 (4 * k)) (wordAt buf (4 * k)) s).Sat
      (fun st t => GivenUpAt buf addr.toNat b k t ∧
        (env.answer (b.clock + k) = .success →
          st = .ready ∧ wordAt t.flash (addr.toNat + 4 * k) = wordAt buf (4 * k)) ∧
        (wordAt t.flash (addr.toNat + 4 * k) = wordAt buf (4 * k) →
          WrittenSoFar buf addr.toNat b (k + 1) t))
      (fun t => WrittenSoFar buf addr.toNat b k t ∧ env.power (b.clock + k) = false) := by
  have first : (FlashOp.wordProgram (addr + BitVec.ofNat 32 (4 * k)) (wordAt buf (4 * k))).first =
      addr.toNat + 4 * k := word_address room inside
  rw [fmcWordProgram, issue]
  cases power : env.power s.clock with
  | false =>
    rw [if_neg (by simp)]
    exact ⟨hs, by rw [← hs.clock, power]⟩
  | true =>
    rw [if_pos rfl]
    have counted (t : Board) (more : t.journal = s.journal ++
        [.wordProgram (addr + BitVec.ofNat 32 (4 * k)) (wordAt buf (4 * k))]) :
        t.clock = b.clock + k + 1 := by
      rw [Board.clock, more, List.length_append, List.length_singleton]
      exact congrArg (· + 1) hs.clock
    refine ⟨⟨⟨?_⟩, counted _ rfl⟩, ?_, fun verified => ⟨?_, counted _ rfl⟩⟩
    · intro x away
      change Answer.apply _ _ s.flash x = _
      rw [Answer.apply, first, fill_outside (by change x < _ ∨ _ + 4 ≤ x; omega), hs.flash]
    · intro success
      rw [← hs.clock] at success
      dsimp only
      rw [success]
      refine ⟨rfl, ?_⟩
      rw [Answer.apply, first]
      exact wordAt_fill _ _ _
    · change Answer.apply _ _ s.flash = _
      change wordAt (Answer.apply _ _ s.flash) _ = _ at verified
      rw [Answer.apply, first] at verified ⊢
      rw [hs.flash]
      exact fill_extend b.flash addr.toNat (4 * k) 4 buf _ (verified_word verified)

variable (env buf b) in
private theorem writeFrom_sat (room : addr.toNat + 4 * writtenWords size ≤ 2 ^ 32)
    (few : size.toNat + 4 ≤ 2 ^ 32) (n k fuel : Nat) (count : k + n = writtenWords size)
    (enough : n < fuel) {s : Board} (hs : WrittenSoFar buf addr.toNat b k s) :
    (writeFrom env buf size fuel (BitVec.ofNat 32 (4 * k)) k (addr + BitVec.ofNat 32 (4 * k))
      s).Sat (WriteReturns env buf b addr size) (WriteCut env buf b addr size) := by
  have index : (BitVec.ofNat 32 (4 * k)).toNat = 4 * k := by
    unfold writtenWords at count
    rw [BitVec.toNat_ofNat]
    omega
  induction n generalizing k fuel s with
  | zero =>
    cases fuel with
    | zero => omega
    | succ fuel =>
      obtain rfl : k = writtenWords size := count
      have stop : ¬BitVec.ofNat 32 (4 * writtenWords size) < size := by
        rw [BitVec.lt_def, index]
        unfold writtenWords
        omega
      rw [writeFrom, if_neg stop]
      exact Or.inl ⟨rfl, hs.flash, hs.clock⟩
  | succ n ih =>
    cases fuel with
    | zero => omega
    | succ fuel =>
      have inside : k < writtenWords size := by omega
      have go : BitVec.ofNat 32 (4 * k) < size := by
        rw [BitVec.lt_def, index]
        unfold writtenWords at inside
        omega
      have step := word_step env room inside hs
      have place := word_address room inside
      rw [writeFrom, if_pos go, bind_apply]
      cases run : fmcWordProgram env (addr + BitVec.ofNat 32 (4 * k)) (wordAt buf (4 * k)) s with
      | cut t =>
        rw [run] at step
        exact ⟨k, inside, step⟩
      | done st t =>
        rw [run] at step
        obtain ⟨stopped, success, verified⟩ := step
        dsimp only
        by_cases programmed : st = .ready
        · rw [if_neg (by simp [programmed]), get_bind, place]
          by_cases same : wordAt t.flash (addr.toNat + 4 * k) = wordAt buf (4 * k)
          · rw [if_neg (by simp [same])]
            have next := ih (k + 1) fuel (by omega) (by omega) (verified same) ?_
            · rwa [Nat.mul_succ, BitVec.ofNat_add, ← BitVec.add_assoc] at next
            · unfold writtenWords at inside
              rw [BitVec.toNat_ofNat]
              omega
          · rw [if_pos (by simp [same])]
            exact Or.inr ⟨rfl, k, inside, ⟨⟨stopped.flash⟩, stopped.clock⟩,
              fun ok => same (success ok).2⟩
        · rw [if_pos (by simp [programmed])]
          exact Or.inr ⟨rfl, k, inside, ⟨⟨stopped.flash⟩, stopped.clock⟩,
            fun ok => programmed (success ok).1⟩

/-- A write returns its size with the buffer in place, or gives up at some word. -/
theorem write_returns (env : Environment) (buf : Memory) {offset size : Word}
    (room : (deviceAddr + offset).toNat + 4 * writtenWords size ≤ 2 ^ 32)
    (few : size.toNat + 4 ≤ 2 ^ 32) (b : Board) :
    (write env offset buf size b).Sat (WriteReturns env buf b (deviceAddr + offset) size)
      (WriteCut env buf b (deviceAddr + offset) size) := by
  have loop := writeFrom_sat env buf b room few (writtenWords size) 0
    (2 ^ 30 + 1) (by omega) (by unfold writtenWords; omega) (s := { b with locked := false })
    ⟨by simp, rfl⟩
  rw [Nat.mul_zero, BitVec.add_zero] at loop
  exact loop

/-- A write returns its size with the buffer in place, or stops at some word. -/
theorem write_sat (env : Environment) (buf : Memory) {offset size : Word}
    (room : (deviceAddr + offset).toNat + 4 * writtenWords size ≤ 2 ^ 32)
    (few : size.toNat + 4 ≤ 2 ^ 32) (b : Board) :
    (write env offset buf size b).Sat (WriteEnds env buf b (deviceAddr + offset) size)
      (WriteCut env buf b (deviceAddr + offset) size) := by
  refine (write_returns env buf room few b).mono ?_ fun _ lost => lost
  intro r s ends
  rcases ends with written | ⟨failed, k, inside, stopped, cause⟩
  · exact Or.inl written
  · exact Or.inr ⟨failed, k, inside, stopped.toStoppedAt, cause⟩

end Write

/-! ### Erasing -/

/-- The erases of `n` pages from an address on. -/
def eraseOps (addr : Word) (n : Nat) : List FlashOp :=
  (List.range n).map fun i => .pageErase (addr + BitVec.ofNat 32 (pageSize * i))

theorem erase_eq (env : Environment) (offset size : Word) :
    erase env offset size = (do
      let st ← guarded env (eraseOps (deviceAddr + offset) (erasePages size).toNat)
      return if st = .ready then size.toInt else -1) := by
  simp only [erase, guarded, eraseOps, fmcPageErase, bind_assoc, pure_bind]
  apply bind_congr
  intro _
  rw [List.range_eq_range']
  exact issueLoop_eq env
    (fun i => .pageErase (deviceAddr + offset + BitVec.ofNat 32 (pageSize * i)))
    (fun _ => -1) size.toInt (fun _ => rfl) rfl _ 0

/-- The number of pages, as a rounded-up quotient. -/
theorem erasePages_toNat (size : Word) : (erasePages size).toNat = (size.toNat + 2047) / 2048 := by
  have bound := size.isLt
  have page : (BitVec.ofNat 32 pageSize).toNat = 2048 := rfl
  have rest : (size % BitVec.ofNat 32 pageSize).toNat = size.toNat % 2048 := by
    rw [BitVec.toNat_umod, page]
  have whole : (size / BitVec.ofNat 32 pageSize).toNat = size.toNat / 2048 := by
    rw [BitVec.toNat_udiv, page]
  unfold erasePages
  by_cases exact : size % BitVec.ofNat 32 pageSize = 0
  · rw [exact] at rest
    have zero : size.toNat % 2048 = 0 := rest.symm
    rw [if_neg (by simp [exact]), whole]
    omega
  · have positive : size.toNat % 2048 ≠ 0 := by
      intro zero
      rw [zero] at rest
      exact exact (BitVec.eq_of_toNat_eq rest)
    rw [if_pos exact, BitVec.toNat_add, whole]
    change (_ + 1) % 2 ^ 32 = _
    omega

/-- The first byte of the page of the `i`-th erase, where addresses do not wrap. -/
theorem erase_first {addr : Word} {n i : Nat} (room : addr.toNat + pageSize * n ≤ 2 ^ 32)
    (inside : i < n) :
    (FlashOp.pageErase (addr + BitVec.ofNat 32 (pageSize * i))).first =
      (addr.toNat / pageSize + i) * pageSize := by
  have address : (addr + BitVec.ofNat 32 (pageSize * i)).toNat = addr.toNat + pageSize * i := by
    unfold pageSize at *
    rw [BitVec.toNat_add, BitVec.toNat_ofNat]
    omega
  rw [FlashOp.first, address, Nat.add_mul_div_left _ _ (by decide)]

/-- Successful erases leave ones in their pages and nothing else changed. -/
theorem eraseOps_apply {addr : Word} {n : Nat} (room : addr.toNat + pageSize * n ≤ 2 ^ 32)
    (m : Memory) (k : Nat) (within : k ≤ n) :
    (eraseOps addr k).foldl (fun m op => op.apply m) m =
      fill m (addr.toNat / pageSize * pageSize) (pageSize * k) fun _ => 0xFF := by
  induction k with
  | zero => simp [eraseOps]
  | succ k ih =>
    have first := erase_first room (show k < n from within)
    rw [eraseOps, List.range_succ, List.map_append, List.foldl_append]
    change FlashOp.apply _ ((eraseOps addr k).foldl (fun m op => op.apply m) m) = _
    rw [ih (by omega), FlashOp.apply, first, Nat.add_mul, Nat.mul_comm k]
    exact fill_extend m _ (pageSize * k) pageSize _ _ fun _ _ => rfl

end BmsFirmware.Fal.FalPort
