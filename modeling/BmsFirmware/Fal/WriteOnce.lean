/- Module: BmsFirmware/Fal/WriteOnce
   Source: application/fal/src/fal_port.c
   Digest: The operations the port issues, and when none of them programs a word twice. -/

import BmsFirmware.Fal.FalPort

set_option autoImplicit false
set_option relaxedAutoImplicit false

namespace BmsFirmware.Fal.WriteOnce

open BmsFirmware.Library.ByteMemory
open BmsFirmware.Library.PowerLogic
open BmsFirmware.Flash.Controller
open BmsFirmware.Flash.Systick
open BmsFirmware.Flash.PageImage
open BmsFirmware.Fal.FalPort

/-! ### Sequences that program erased words only -/

/-- An erase, or the programming of a word that is erased. -/
def Fresh (m : Memory) : FlashOp → Prop
  | .pageErase _ => True
  | .wordProgram address _ => ∀ i < 4, m (address.toNat + i) = 0xFF

def applyAll (ops : List FlashOp) (m : Memory) : Memory := ops.foldl (fun m op => op.apply m) m

/-- No operation of a sequence programs a word that has been programmed since its erase. -/
def ProgramsOnce : Memory → List FlashOp → Prop
  | _, [] => True
  | m, op :: ops => Fresh m op ∧ ProgramsOnce (op.apply m) ops

theorem ProgramsOnce.append {m : Memory} {ops more : List FlashOp} (first : ProgramsOnce m ops)
    (next : ProgramsOnce (applyAll ops m) more) : ProgramsOnce m (ops ++ more) := by
  induction ops generalizing m with
  | nil => exact next
  | cons op ops ih => exact ⟨first.1, ih first.2 next⟩

/-- A board reached from another by successful operations, none on a word in use. -/
def Reached (start s : Board) : Prop :=
  ∃ ops, s.journal = start.journal ++ ops ∧ s.flash = applyAll ops start.flash ∧
    ProgramsOnce start.flash ops

theorem Reached.refl (start : Board) : Reached start start :=
  ⟨[], by simp, rfl, trivial⟩

theorem Reached.more {start s t : Board} {ops : List FlashOp} (reached : Reached start s)
    (journal : t.journal = s.journal ++ ops) (flash : t.flash = applyAll ops s.flash)
    (fresh : ProgramsOnce s.flash ops) : Reached start t := by
  obtain ⟨done, first, image, once⟩ := reached
  rw [image] at fresh flash
  refine ⟨done ++ ops, ?_, ?_, once.append fresh⟩
  · rw [journal, first, List.append_assoc]
  · rw [flash, applyAll, applyAll, applyAll, List.foldl_append]

/-! ### Writing -/

/-- The operations of a write of `n` words. -/
def wordOps (addr : Word) (buf : Memory) (n : Nat) : List FlashOp :=
  (List.range n).map fun k =>
    .wordProgram (addr + BitVec.ofNat 32 (4 * k)) (wordAt buf (4 * k))

section Write

variable {env : Environment} {buf : Memory} {addr size : Word} {n : Nat}

theorem wordOps_succ (addr : Word) (buf : Memory) (n : Nat) :
    wordOps addr buf (n + 1) = wordOps addr buf n ++
      [.wordProgram (addr + BitVec.ofNat 32 (4 * n)) (wordAt buf (4 * n))] := by
  rw [wordOps, List.range_succ, List.map_append]
  rfl

private theorem word_place (room : addr.toNat + 4 * n < 2 ^ 32) :
    (addr + BitVec.ofNat 32 (4 * n)).toNat = addr.toNat + 4 * n := by
  rw [BitVec.toNat_add, BitVec.toNat_ofNat]
  omega

private theorem word_apply (room : addr.toNat + 4 * n < 2 ^ 32) (m : Memory) :
    (FlashOp.wordProgram (addr + BitVec.ofNat 32 (4 * n)) (wordAt buf (4 * n))).apply
        (fill m addr.toNat (4 * n) buf) = fill m addr.toNat (4 * (n + 1)) buf := by
  rw [FlashOp.apply, FlashOp.first, word_place room]
  exact fill_extend m addr.toNat (4 * n) 4 buf _ fun i low => wordBytes_wordAt buf (4 * n) i low

/-- The words of a write, one behind the other. -/
theorem wordOps_apply (m : Memory) (room : addr.toNat + 4 * n ≤ 2 ^ 32) :
    applyAll (wordOps addr buf n) m = fill m addr.toNat (4 * n) buf := by
  induction n with
  | zero => simp [wordOps, applyAll]
  | succ n ih =>
    rw [wordOps_succ, applyAll, List.foldl_append]
    change FlashOp.apply _ (applyAll (wordOps addr buf n) m) = _
    rw [ih (by omega)]
    exact word_apply (by omega) m

/-- On an erased range no word is programmed twice. -/
theorem wordOps_programsOnce {m : Memory} (room : addr.toNat + 4 * n ≤ 2 ^ 32)
    (erased : ∀ i < 4 * n, m (addr.toNat + i) = 0xFF) : ProgramsOnce m (wordOps addr buf n) := by
  induction n with
  | zero => exact trivial
  | succ n ih =>
    rw [wordOps_succ]
    refine (ih (by omega) fun i low => erased i (by omega)).append ⟨?_, trivial⟩
    intro i low
    rw [word_place (by omega), wordOps_apply m (by omega), fill_outside (by omega), Nat.add_assoc]
    exact erased _ (by omega)

/-- The board after `k` words of a write. -/
def programmed (b : Board) (addr : Word) (buf : Memory) (k : Nat) (locked : Bool) : Board :=
  { b with
    flash := fill b.flash addr.toNat (4 * k) buf
    journal := b.journal ++ wordOps addr buf k
    locked := locked }

@[simp] theorem wordOps_length (addr : Word) (buf : Memory) (n : Nat) :
    (wordOps addr buf n).length = n := by
  simp [wordOps]

theorem programmed_clock (b : Board) (addr : Word) (buf : Memory) (k : Nat) (locked : Bool) :
    (programmed b addr buf k locked).clock = b.clock + k := by
  simp [programmed, Board.clock]

private theorem writeFrom_programmed (ok : env.Succeeds) (buf : Memory) (b : Board)
    (room : addr.toNat + 4 * writtenWords size ≤ 2 ^ 32) (few : size.toNat + 4 ≤ 2 ^ 32)
    (n k fuel : Nat) (count : k + n = writtenWords size) (enough : n < fuel) :
    (writeFrom env buf size fuel (BitVec.ofNat 32 (4 * k)) k (addr + BitVec.ofNat 32 (4 * k))
      (programmed b addr buf k false)).Sat
      (fun r s => r = size.toInt ∧ s = programmed b addr buf (writtenWords size) true ∧
        ∀ j, k ≤ j → j < writtenWords size → env.power (b.clock + j) = true)
      (fun s => ∃ j < writtenWords size, s = programmed b addr buf j false ∧
        env.power (b.clock + j) = false) := by
  have index : (BitVec.ofNat 32 (4 * k)).toNat = 4 * k := by
    unfold writtenWords at count
    rw [BitVec.toNat_ofNat]
    omega
  induction n generalizing k fuel with
  | zero =>
    obtain ⟨fuel, rfl⟩ : ∃ f, fuel = f + 1 := ⟨fuel - 1, by omega⟩
    obtain rfl : k = writtenWords size := count
    have stop : ¬BitVec.ofNat 32 (4 * writtenWords size) < size := by
      rw [BitVec.lt_def, index]
      unfold writtenWords
      omega
    rw [writeFrom, if_neg stop]
    exact ⟨rfl, rfl, fun j first last => by omega⟩
  | succ n ih =>
    obtain ⟨fuel, rfl⟩ : ∃ f, fuel = f + 1 := ⟨fuel - 1, by omega⟩
    have go : BitVec.ofNat 32 (4 * k) < size := by
      rw [BitVec.lt_def, index]
      unfold writtenWords at count
      omega
    have place : (addr + BitVec.ofNat 32 (4 * k)).toNat = addr.toNat + 4 * k :=
      word_place (by omega)
    rw [writeFrom, if_pos go, bind_apply, fmcWordProgram, issue]
    cases power : env.power (programmed b addr buf k false).clock with
    | false => exact ⟨k, by omega, rfl, programmed_clock b addr buf k false ▸ power⟩
    | true =>
      rw [programmed_clock] at power
      rw [if_pos rfl, ok.answer]
      have next : { programmed b addr buf k false with
          flash := Answer.success.apply (.wordProgram (addr + BitVec.ofNat 32 (4 * k))
            (wordAt buf (4 * k))) (programmed b addr buf k false).flash
          journal := (programmed b addr buf k false).journal ++
            [.wordProgram (addr + BitVec.ofNat 32 (4 * k)) (wordAt buf (4 * k))] } =
          programmed b addr buf (k + 1) false := by
        rw [programmed, programmed, wordOps_succ, ← List.append_assoc,
          ← word_apply (by omega) b.flash]
        rfl
      have back : wordAt (programmed b addr buf (k + 1) false).flash
          (addr + BitVec.ofNat 32 (4 * k)).toNat = wordAt buf (4 * k) := by
        rw [place]
        refine wordAt_same fun i low => ?_
        change fill b.flash addr.toNat (4 * (k + 1)) buf _ = _
        rw [fill_inside (by omega) (by omega)]
        congr 1
        omega
      dsimp only
      rw [next, Answer.success, if_neg (by simp), get_bind, back, if_neg (by simp)]
      have rest := ih (k + 1) fuel (by omega) (by omega) ?_
      · rw [Nat.mul_succ, BitVec.ofNat_add, ← BitVec.add_assoc] at rest
        refine rest.mono (fun r s post => ⟨post.1, post.2.1, fun j first last => ?_⟩)
          fun _ cut => cut
        rcases Nat.lt_or_eq_of_le first with later | rfl
        · exact post.2.2 j later last
        · exact power
      · unfold writtenWords at count
        rw [BitVec.toNat_ofNat]
        omega

/-- What a write does whose operations succeed; power may go before each of its words, and it
returns only if power was there for all of them. -/
theorem write_programmed (ok : env.Succeeds) (buf : Memory) {offset : Word}
    (room : (deviceAddr + offset).toNat + 4 * writtenWords size ≤ 2 ^ 32)
    (few : size.toNat + 4 ≤ 2 ^ 32) (b : Board) :
    (write env offset buf size b).Sat
      (fun r s => r = size.toInt ∧
        s = programmed b (deviceAddr + offset) buf (writtenWords size) true ∧
        ∀ j < writtenWords size, env.power (b.clock + j) = true)
      (fun s => ∃ j < writtenWords size, s = programmed b (deviceAddr + offset) buf j false ∧
        env.power (b.clock + j) = false) := by
  have loop := writeFrom_programmed ok buf b room few (writtenWords size) 0
    (2 ^ 30 + 1) (by omega) (by unfold writtenWords; omega)
  have start : programmed b (deviceAddr + offset) buf 0 false = { b with locked := false } := by
    simp [programmed, wordOps]
  rw [start, Nat.mul_zero, BitVec.add_zero] at loop
  refine loop.mono (fun r s post => ⟨post.1, post.2.1, fun j low => ?_⟩) fun _ cut => cut
  exact post.2.2 j (Nat.zero_le j) low

theorem Reached.programmed {start b : Board} {k : Nat} {locked : Bool}
    (reached : Reached start b) (room : addr.toNat + 4 * k ≤ 2 ^ 32)
    (erased : ∀ i < 4 * k, b.flash (addr.toNat + i) = 0xFF) :
    Reached start (programmed b addr buf k locked) :=
  reached.more rfl (wordOps_apply b.flash room).symm (wordOps_programsOnce room erased)

end Write

/-! ### Erasing -/

theorem eraseOps_programsOnce (m : Memory) (addr : Word) (n : Nat) :
    ProgramsOnce m (eraseOps addr n) := by
  unfold eraseOps
  generalize List.range n = pages
  induction pages generalizing m with
  | nil => exact trivial
  | cons i pages ih => exact ⟨trivial, ih _⟩

theorem Reached.erased {start b s : Board} {addr : Word} {n : Nat} (reached : Reached start b)
    (done : s = issued b (eraseOps addr n) true) : Reached start s :=
  reached.more (by rw [done]; rfl) (by rw [done]; rfl) (eraseOps_programsOnce _ _ _)

end BmsFirmware.Fal.WriteOnce
