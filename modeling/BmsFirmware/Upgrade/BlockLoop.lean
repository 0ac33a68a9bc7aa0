/- Module: BmsFirmware/Upgrade/BlockLoop
   Source: application/upgrade/boot.c
   Digest: The run rule of the block loop and the exchange before it. -/

import BmsFirmware.Upgrade.BlockWriter

set_option autoImplicit false
set_option relaxedAutoImplicit false

namespace BmsFirmware.Upgrade.BlockLoop

open BmsFirmware.Library.ByteMemory
open BmsFirmware.Library.PowerLogic
open BmsFirmware.Flash.Controller
open BmsFirmware.Flash.Systick
open BmsFirmware.Flash.PageImage
open BmsFirmware.Upgrade.Boot
open BmsFirmware.Upgrade.BlockWriter

section Loop

variable (env : Environment) (start : Board)

/-- The page of block `j`; the addition is the 32-bit one. -/
def blockAddress (j : Nat) : Word := start.appAddress + BitVec.ofNat 32 (pageSize * j)

/-- The bytes of block `j`. -/
def blockData (j : Nat) : Memory := arriving env (start.received + pageSize * j)

/-- The variables at the top of turn `j`. -/
structure AtTurn (j : Nat) (s : Board) : Prop where
  address : s.appAddress = blockAddress start j
  received : s.received = start.received + pageSize * j
  mallocs : s.mallocs = start.mallocs + j
  granted : ∀ k < j, env.malloc (start.mallocs + k) = true

variable {env start}

theorem blockAddress_aligned (aligned : PageAligned start.appAddress) (j : Nat) :
    PageAligned (blockAddress start j) := by
  unfold PageAligned pageSize at *
  rw [blockAddress, BitVec.toNat_add, BitVec.toNat_ofNat]
  unfold pageSize
  omega

/-- The number of the block that would take the last page of the 32-bit space. -/
def wrapBlock : Nat := 2031599

theorem blockAddress_toNat (initial : start.appAddress = appAddress) {j : Nat}
    (small : j ≤ wrapBlock) : (blockAddress start j).toNat = appAddress.toNat + pageSize * j := by
  have base : appAddress.toNat = 0x08008000 := rfl
  unfold wrapBlock at small
  rw [blockAddress, initial, BitVec.toNat_add, BitVec.toNat_ofNat, base]
  unfold pageSize
  omega

variable (start) in
theorem blockAddress_wrap (initial : start.appAddress = appAddress) :
    blockAddress start wrapBlock = lastPage := by
  rw [blockAddress, initial]
  decide

/-- Before the wrap-around every block write is a whole page write. -/
theorem blockOps_before_wrap (initial : start.appAddress = appAddress) {j : Nat}
    (small : j < wrapBlock) (buf : Memory) :
    blockOps (blockAddress start j) buf = pageOps (blockAddress start j) buf := by
  have address := blockAddress_toNat initial (Nat.le_of_lt small)
  apply if_neg
  intro last
  have base : appAddress.toNat = 0x08008000 := rfl
  have value : lastPage.toNat = 4294965248 := by decide
  rw [last, base, value] at address
  unfold wrapBlock at small
  unfold pageSize at address
  omega

private theorem blockAddress_succ (j : Nat) :
    blockAddress start j + BitVec.ofNat 32 pageSize = blockAddress start (j + 1) := by
  rw [blockAddress, blockAddress, Nat.mul_succ, BitVec.ofNat_add, BitVec.add_assoc]

theorem AtTurn.next {j : Nat} {s t : Board} {result : FmcState}
    (h : AtTurn env start j s) (granted : env.malloc s.mallocs = true)
    (same : FlashOnly (loaded env s) t) : AtTurn env start (j + 1) (replied result t) := by
  rw [same]
  refine ⟨?_, ?_, ?_, ?_⟩
  · change s.appAddress + BitVec.ofNat 32 pageSize = _
    rw [h.address, blockAddress_succ]
  · change s.received + pageSize = _
    rw [h.received, Nat.mul_succ, Nat.add_assoc]
  · change s.mallocs + 1 = _
    rw [h.mallocs, Nat.add_assoc]
  · intro k hk
    rcases Nat.lt_succ_iff_lt_or_eq.mp hk with before | rfl
    · exact h.granted k before
    · rw [← h.mallocs]
      exact granted

variable (env start) in
/-- An invariant of flash and journal that every block write carries on holds when the
loop is left: after all blocks, or at the first refused allocation. -/
theorem blockLoop_sat (aligned : PageAligned start.appAddress) {n : Nat}
    {K : Nat → Memory → List FlashOp → Prop} {C : Memory → List FlashOp → Prop}
    (first : K 0 start.flash start.journal)
    (turn : ∀ j < n, (∀ k ≤ j, env.malloc (start.mallocs + k) = true) →
      ∀ s : Board, K j s.flash s.journal →
        (guarded env (blockOps (blockAddress start j) (blockData env start j)) s).Sat
          (fun _ t => K (j + 1) t.flash t.journal) (fun t => C t.flash t.journal)) :
    (forLoop n (upgradeBlock env) start).Sat
      (fun _ s => ∃ j ≤ n, K j s.flash s.journal ∧ s.received = start.received + pageSize * j ∧
        (∀ k < j, env.malloc (start.mallocs + k) = true) ∧
        (j < n → env.malloc (start.mallocs + j) = false))
      (fun s => C s.flash s.journal) := by
  let I : Nat → Board → Prop := fun j s => AtTurn env start j s ∧ K j s.flash s.journal
  let Q : Option Unit → Board → Prop := fun _ s => ∃ j ≤ n, K j s.flash s.journal ∧
    s.received = start.received + pageSize * j ∧ (∀ k < j, env.malloc (start.mallocs + k) = true) ∧
    (j < n → env.malloc (start.mallocs + j) = false)
  have rule : Triple (I 0) (forLoop n (upgradeBlock env)) Q fun s => C s.flash s.journal := by
    refine Triple.forLoop ?_ ?_
    · rintro j hj s ⟨at_turn, hK⟩
      cases grant : env.malloc s.mallocs with
      | false =>
        rw [upgradeBlock_refused j grant]
        exact ⟨j, Nat.le_of_lt hj, hK, at_turn.received, at_turn.granted,
          fun _ => by rw [← at_turn.mallocs, grant]⟩
      | true =>
        have all : ∀ k ≤ j, env.malloc (start.mallocs + k) = true := by
          intro k hk
          rcases Nat.lt_or_eq_of_le hk with before | rfl
          · exact at_turn.granted k before
          · rw [← at_turn.mallocs, grant]
        have page : PageAligned s.appAddress := by
          rw [at_turn.address]
          exact blockAddress_aligned aligned j
        have ops : blockOps s.appAddress (arriving env s.received) =
            blockOps (blockAddress start j) (blockData env start j) := by
          rw [at_turn.address, at_turn.received, blockData]
        rw [upgradeBlock_granted j grant page, ops, bind_apply]
        have written := turn j hj all (loaded env s) hK
        have same := guarded_flashOnly env
          (blockOps (blockAddress start j) (blockData env start j)) (loaded env s)
        cases run : guarded env (blockOps (blockAddress start j) (blockData env start j))
            (loaded env s) with
        | cut t =>
          rw [run] at written
          exact written
        | done result t =>
          rw [run] at written same
          exact ⟨at_turn.next grant same, written⟩
    · rintro s ⟨at_turn, hK⟩
      exact ⟨n, Nat.le_refl n, hK, at_turn.received, at_turn.granted,
        fun h => absurd h (Nat.lt_irrefl n)⟩
  refine rule start ⟨⟨?_, rfl, rfl, fun k hk => absurd hk (Nat.not_lt_zero k)⟩, first⟩
  simp [blockAddress]

variable (env start) in
/-- Where no allocation is refused, the loop ends behind the last block. -/
theorem blockLoop_through (aligned : PageAligned start.appAddress) {n : Nat}
    (granted : ∀ k < n, env.malloc (start.mallocs + k) = true)
    {K : Nat → Memory → List FlashOp → Prop} {C : Memory → List FlashOp → Prop}
    (first : K 0 start.flash start.journal)
    (turn : ∀ j < n, ∀ s : Board, K j s.flash s.journal →
      (guarded env (blockOps (blockAddress start j) (blockData env start j)) s).Sat
        (fun _ t => K (j + 1) t.flash t.journal) (fun t => C t.flash t.journal)) :
    (forLoop n (upgradeBlock env) start).Sat
      (fun _ s => K n s.flash s.journal ∧ s.received = start.received + pageSize * n)
      (fun s => C s.flash s.journal) := by
  refine (blockLoop_sat env start aligned first fun j hj _ => turn j hj).mono ?_ fun _ h => h
  rintro _ s ⟨j, hj, invariant, received, -, refused⟩
  obtain rfl : j = n := by
    by_contra other
    have early : j < n := by omega
    have lost := refused early
    rw [granted j early] at lost
    exact absurd lost (by decide)
  exact ⟨invariant, received⟩

end Loop

/-! ### The exchange before the loop -/

/-- The block count the host sends, big-endian. -/
def blockCount (env : Environment) (r : Nat) : Word := uint8ArrayToUint32 (arriving env r)

/-- The board when the loop starts: the command is out and the count has been echoed. -/
def announced (env : Environment) (b : Board) : Board :=
  { b with
    received := b.received + 4
    totalBlock := blockCount env b.received
    upgradeBlockNumber := ofList (uint32ToUint8Array (blockCount env b.received))
    sent := b.sent ++ commandStart ++ uint32ToUint8Array (blockCount env b.received) }

theorem announced_aligned (env : Environment) {b : Board} (initial : b.appAddress = appAddress) :
    PageAligned (announced env b).appAddress := by
  change PageAligned b.appAddress
  rw [initial]
  decide

private theorem receive_count (env : Environment) (b : Board) :
    receiveInto env storeBlockNumber 4 b =
      .done none { b with
        upgradeBlockNumber := fill b.upgradeBlockNumber 0 4 (arriving env b.received)
        received := b.received + 4 } := by
  have h := receiveInto_done env storeBlockNumber 4
    (fun i => { b with
      upgradeBlockNumber := fill b.upgradeBlockNumber 0 i (arriving env b.received)
      received := b.received + i }) ?_
  · simpa using h
  · intro i _
    have snoc := fill_snoc b.upgradeBlockNumber 0 i (arriving env b.received)
    rw [Nat.zero_add] at snoc
    simp only [storeBlockNumber, ← snoc]
    rfl

/-- The run is the loop over the announced blocks. -/
theorem upgradeRun_eq (env : Environment) (b : Board) :
    upgradeRun env b =
      (do
        let _ ← forLoop (blockCount env b.received).toNat (upgradeBlock env)
        return ()) (announced env b) := by
  have count : uint8ArrayToUint32 (fill b.upgradeBlockNumber 0 4 (arriving env b.received)) =
      blockCount env b.received := by
    have byte (i : Nat) (h : i < 4) :
        fill b.upgradeBlockNumber 0 4 (arriving env b.received) i = arriving env b.received i :=
      fill_inside (Nat.zero_le i) (by omega)
    simp only [blockCount, uint8ArrayToUint32, byte 0 (by omega), byte 1 (by omega),
      byte 2 (by omega), byte 3 (by omega)]
  rw [upgradeRun, usartSend_bind,
    bind_done (receive_count env { b with sent := b.sent ++ commandStart })]
  dsimp only
  simp only [modify_bind, get_bind, usartSend_bind, count]
  rfl

/-- What the loop guarantees, the run guarantees. -/
theorem upgradeRun_sat {env : Environment} {b : Board} {Q C : Board → Prop}
    (h : (forLoop (blockCount env b.received).toNat (upgradeBlock env) (announced env b)).Sat
      (fun _ s => Q s) C) : (upgradeRun env b).Sat (fun _ s => Q s) C := by
  rw [upgradeRun_eq]
  exact h.thenReturn fun _ => ()

end BmsFirmware.Upgrade.BlockLoop
