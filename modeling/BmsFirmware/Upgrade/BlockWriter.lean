/- Module: BmsFirmware/Upgrade/BlockWriter
   Source: application/upgrade/boot.c
   Digest: The page writer and one turn of the block loop as locked operation sequences. -/

import BmsFirmware.Upgrade.Boot

set_option autoImplicit false
set_option relaxedAutoImplicit false

namespace BmsFirmware.Upgrade.BlockWriter

open BmsFirmware.Library.ByteMemory
open BmsFirmware.Library.PowerLogic
open BmsFirmware.Flash.Controller
open BmsFirmware.Flash.Systick
open BmsFirmware.Flash.PageImage
open BmsFirmware.Upgrade.Boot

/-! ### The page writer -/

/-- The last page of the 32-bit space: its end address wraps to zero. -/
def lastPage : Word := 0xFFFFF800

/-- The operations of a page write. On the last page the end address is zero, so that
nothing is programmed after the erase. -/
def blockOps (a : Word) (buf : Memory) : List FlashOp :=
  if a = lastPage then [.pageErase a] else pageOps a buf

theorem pageAligned_mask {a : Word} (aligned : PageAligned a) :
    a &&& ~~~(2048 - 1) = a := by
  apply BitVec.eq_of_getLsbD_eq
  intro i hi
  have low (h : i < 11) : a.getLsbD i = false := by
    have bit := Nat.testBit_mod_two_pow a.toNat 11 i
    rw [show a.toNat % 2 ^ 11 = 0 from aligned, Nat.zero_testBit] at bit
    simpa [h, BitVec.getLsbD] using bit.symm
  have mask : ∀ i < 32, (~~~(2048 - 1) : Word).getLsbD i = decide (11 ≤ i) := by decide
  rw [BitVec.getLsbD_and, mask i hi]
  by_cases h : i < 11
  · simp [low h]
  · simp [show 11 ≤ i by omega]

private theorem programUntil_eq (env : Environment) (data : Memory) {a : Word}
    (room : a.toNat + pageSize < 2 ^ 32) (n i fuel : Nat) (count : i + n = 512)
    (enough : n < fuel) :
    programUntil env data (a + BitVec.ofNat 32 pageSize) fuel (a + BitVec.ofNat 32 (4 * i)) i
        .ready =
      (do
        let st ← issueAll env ((List.range' i n).map (pageWord a data))
        fmcLock
        return st) := by
  have step (i : Nat) (h : i ≤ 512) :
      (a + BitVec.ofNat 32 (4 * i)).toNat = a.toNat + 4 * i := by
    rw [BitVec.toNat_add, BitVec.toNat_ofNat]
    unfold pageSize at room
    omega
  have limit : (a + BitVec.ofNat 32 pageSize).toNat = a.toNat + 2048 := step 512 (by omega)
  induction n generalizing i fuel with
  | zero =>
    cases fuel with
    | zero => omega
    | succ fuel =>
      have stop : ¬a + BitVec.ofNat 32 (4 * i) < a + BitVec.ofNat 32 pageSize := by
        rw [BitVec.lt_def, step i (by omega), limit]
        omega
      rw [programUntil, if_neg stop]
      rfl
  | succ n ih =>
    cases fuel with
    | zero => omega
    | succ fuel =>
      have go : a + BitVec.ofNat 32 (4 * i) < a + BitVec.ofNat 32 pageSize := by
        rw [BitVec.lt_def, step i (by omega), limit]
        omega
      have next : a + BitVec.ofNat 32 (4 * i) + 4 = a + BitVec.ofNat 32 (4 * (i + 1)) := by
        apply BitVec.eq_of_toNat_eq
        rw [step (i + 1) (by omega), BitVec.toNat_add, step i (by omega),
          show (4 : Word).toNat = 4 from rfl]
        unfold pageSize at room
        omega
      have word : fmcWordProgram env (a + BitVec.ofNat 32 (4 * i)) (wordAt data (4 * i)) =
          issue env (pageWord a data i) := rfl
      rw [programUntil, if_pos go, word]
      simp only [List.range'_succ, List.map_cons, issueAll, bind_assoc]
      apply bind_congr
      intro st
      by_cases programmed : st = .ready
      · simp only [programmed, ne_eq, not_true, if_false, if_true]
        rw [next, ih (i + 1) fuel (by omega) (by omega)]
      · simp [programmed]

/-- On every whole page the writer of the block loop is a locked operation sequence. -/
theorem upgradeFmcWriteMultipleData_eq (env : Environment) {a : Word} (aligned : PageAligned a)
    (data : Memory) :
    upgradeFmcWriteMultipleData env a data (BitVec.ofNat 32 pageSize) =
      guarded env (blockOps a data) := by
  simp only [upgradeFmcWriteMultipleData, pageAligned_mask aligned, guarded]
  apply bind_congr
  intro _
  by_cases last : a = lastPage
  · subst last
    simp only [blockOps, if_true, issueAll, fmcPageErase, bind_assoc]
    apply bind_congr
    intro st
    by_cases erased : st = .ready
    · have stop : ¬lastPage < lastPage + BitVec.ofNat 32 pageSize := by decide
      simp only [erased, ne_eq, not_true, if_false, if_true, pure_bind]
      rw [programUntil, if_neg stop]
    · simp [erased]
  · have room : a.toNat + pageSize < 2 ^ 32 := by
      have top := aligned.room
      have : a.toNat ≠ lastPage.toNat := fun h => last (BitVec.eq_of_toNat_eq h)
      have value : lastPage.toNat = 4294965248 := by decide
      unfold pageSize at *
      omega
    simp only [blockOps, if_neg last, pageOps, issueAll, fmcPageErase, bind_assoc]
    apply bind_congr
    intro st
    by_cases erased : st = .ready
    · simp only [erased, ne_eq, not_true, if_false, if_true]
      rw [List.range_eq_range', ← programUntil_eq env data room 512 0 (wordAddresses + 1)
        (by omega) (by unfold wordAddresses; omega)]
      simp
    · simp [erased]

/-- A page write reads only the page's worth of its buffer. -/
theorem pageOps_congr (a : Word) {buf buf' : Memory} (same : ∀ k < pageSize, buf k = buf' k) :
    pageOps a buf = pageOps a buf' := by
  refine congrArg (FlashOp.pageErase a :: ·) (List.map_congr_left ?_)
  intro i hi
  have bound := List.mem_range.mp hi
  rw [pageWord, pageWord, wordAt_congr fun k hk => same (4 * i + k) (by unfold pageSize; omega)]

theorem blockOps_congr (a : Word) {buf buf' : Memory} (same : ∀ k < pageSize, buf k = buf' k) :
    blockOps a buf = blockOps a buf' := by
  rw [blockOps, blockOps, pageOps_congr a same]

/-! ### Receiving -/

/-- A receive loop whose stores are known runs through: the time-out never happens. -/
theorem receiveInto_done (env : Environment) (store : Nat → Byte → Board → Board) (n : Nat)
    (trace : Nat → Board)
    (stored : ∀ i < n, store i (env.uart (trace i).received)
      { trace i with received := (trace i).received + 1 } = trace (i + 1)) :
    receiveInto env store n (trace 0) = .done none (trace n) := by
  apply forLoop_done trace
  intro i hi
  rw [← stored i hi]
  rfl

/-- The bytes that arrive from number `r` on. -/
def arriving (env : Environment) (r : Nat) : Memory := fun k => env.uart (r + k)

theorem arriving_startingAt (env : Environment) (b : Board) (r : Nat) :
    arriving (env.startingAt b) (b.received + r) = arriving env r := by
  funext k
  simp [arriving, Environment.startingAt, Nat.add_assoc]

/-- The board once a block has been allocated and received. -/
def loaded (env : Environment) (b : Board) : Board :=
  { b with
    mallocs := b.mallocs + 1
    updateData := fill b.updateData 0 pageSize (arriving env b.received)
    received := b.received + pageSize }

/-- The board once the result of a block has been sent. -/
def replied (result : FmcState) (b : Board) : Board :=
  { b with
    upgradeBlockNumber := ofList (uint32ToUint8Array (blockReply result b.appAddress))
    sent := b.sent ++ uint32ToUint8Array (blockReply result b.appAddress)
    appAddress := b.appAddress + BitVec.ofNat 32 pageSize }

theorem receive_block (env : Environment) (b : Board) :
    receiveInto env storeUpdateData pageSize { b with mallocs := b.mallocs + 1 } =
      .done none (loaded env b) := by
  have h := receiveInto_done env storeUpdateData pageSize
    (fun i => { b with
      mallocs := b.mallocs + 1
      updateData := fill b.updateData 0 i (arriving env b.received)
      received := b.received + i }) ?_
  · simpa [loaded] using h
  · intro i _
    have snoc := fill_snoc b.updateData 0 i (arriving env b.received)
    rw [Nat.zero_add] at snoc
    simp only [storeUpdateData, ← snoc]
    rfl

/-! ### One turn of the block loop -/

theorem upgradeBlock_refused {env : Environment} {b : Board} (j : Nat)
    (refused : env.malloc b.mallocs = false) :
    upgradeBlock env j b = .done (some ()) { b with mallocs := b.mallocs + 1 } := by
  rw [upgradeBlock, malloc_bind, if_pos refused]
  rfl

/-- An allocated block is received, written as a locked sequence and answered. -/
theorem upgradeBlock_granted {env : Environment} {b : Board} (j : Nat)
    (granted : env.malloc b.mallocs = true) (aligned : PageAligned b.appAddress) :
    upgradeBlock env j b =
      (do
        let result ← guarded env (blockOps b.appAddress (arriving env b.received))
        Proc.modify (replied result)
        return none) (loaded env b) := by
  have ops : blockOps b.appAddress (loaded env b).updateData =
      blockOps b.appAddress (arriving env b.received) := by
    refine blockOps_congr _ ?_
    intro k hk
    exact fill_inside (by omega) (by omega)
  rw [upgradeBlock, malloc_bind, if_neg (by simp [granted]), bind_done (receive_block env b)]
  dsimp only
  rw [get_bind]
  change (upgradeFmcWriteMultipleData env b.appAddress (loaded env b).updateData _ >>= _) _ = _
  rw [upgradeFmcWriteMultipleData_eq env aligned, ops, bind_apply, bind_apply]
  have same :=
    guarded_flashOnly env (blockOps b.appAddress (arriving env b.received)) (loaded env b)
  cases run : guarded env (blockOps b.appAddress (arriving env b.received)) (loaded env b) with
  | cut s => rfl
  | done result s =>
    rw [run] at same
    have address : (loaded env b).appAddress = s.appAddress :=
      (congrArg Board.appAddress same).symm
    dsimp only
    rw [address]
    rfl

end BmsFirmware.Upgrade.BlockWriter
