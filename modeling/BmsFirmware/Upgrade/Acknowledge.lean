/- Module: BmsFirmware/Upgrade/Acknowledge
   Source: application/upgrade/boot.c
   Digest: What the host is told about each block, and what each block leaves in the flash. -/

import BmsFirmware.Flash.FirstFailure
import BmsFirmware.Upgrade.PowerFail

set_option autoImplicit false
set_option relaxedAutoImplicit false

namespace BmsFirmware.Upgrade.Acknowledge

open BmsFirmware.Library.ByteMemory
open BmsFirmware.Library.PowerLogic
open BmsFirmware.Flash.Controller
open BmsFirmware.Flash.Systick
open BmsFirmware.Flash.PageImage
open BmsFirmware.Flash.FirstFailure
open BmsFirmware.Upgrade.Boot
open BmsFirmware.Upgrade.BlockWriter
open BmsFirmware.Upgrade.BlockLoop
open BmsFirmware.Upgrade.FirmwareImage
open BmsFirmware.Upgrade.PowerFail

/-! ### The host -/

/-- A host: the number of blocks it announces, and the bytes of the blocks. -/
structure Host where
  blocks : Word
  payload : Memory

/-- What the host sends: the number, most significant byte first, and the payload. -/
def Host.bytes (host : Host) : Memory :=
  fun i => if i < 4 then wordBytes host.blocks (3 - i) else host.payload (i - 4)

def Host.block (host : Host) (j : Nat) : Memory := fun k => host.payload (pageSize * j + k)

theorem Host.bytes_payload (host : Host) (o : Nat) : host.bytes (4 + o) = host.payload o := by
  have late : ¬4 + o < 4 := by omega
  rw [Host.bytes, if_neg late, Nat.add_sub_cancel_left]

/-- A word as it goes over the wire, most significant byte first. -/
def bigEndian (w : Word) : List Byte :=
  [wordBytes w 3, wordBytes w 2, wordBytes w 1, wordBytes w 0]

theorem uint32ToUint8Array_eq (w : Word) : uint32ToUint8Array w = bigEndian w := by
  have last := masked_byte w 0
  rw [BitVec.ushiftRight_zero] at last
  rw [uint32ToUint8Array, masked_byte, masked_byte, masked_byte, last]
  rfl

theorem uint8ArrayToUint32_eq (m : Memory) : uint8ArrayToUint32 m = m 0 ++ m 1 ++ m 2 ++ m 3 := by
  apply BitVec.eq_of_getLsbD_eq
  intro i hi
  simp only [uint8ArrayToUint32, BitVec.getLsbD_or, BitVec.getLsbD_shiftLeft,
    BitVec.getLsbD_setWidth, BitVec.getLsbD_append]
  grind

section Hosted

variable {env : Environment} {host : Host} {b : Board}

theorem blockCount_hosted (sends : arriving env b.received = host.bytes) :
    blockCount env b.received = host.blocks := by
  rw [blockCount, sends, uint8ArrayToUint32_eq]
  exact wordBytes_append host.blocks

theorem blockData_hosted (sends : arriving env b.received = host.bytes) (j : Nat) :
    blockData env (announced env b) j = host.block j := by
  funext k
  rw [Host.block, ← host.bytes_payload, ← sends]
  simp [blockData, arriving, announced, Nat.add_assoc]

end Hosted

/-! ### The outcomes of the blocks -/

/-- The page of block `j`. -/
def pageAddress (j : Nat) : Word := appAddress + BitVec.ofNat 32 (pageSize * j)

/-- The number of the first operation of block `j`, where the run starts with number `c`:
the block before it has issued its operations up to the first failure. -/
def firstOperation (env : Environment) (c : Nat) : Nat → Nat
  | 0 => c
  | j + 1 => firstOperation env c j + attempted (outcomesFrom env (firstOperation env c j)) 513

/-- The outcomes that the operations of block `j` meet. -/
def blockOutcomes (env : Environment) (c j : Nat) : Nat → Answer :=
  outcomesFrom env (firstOperation env c j)

/-- The operations block `j` issues. -/
def blockIssued (env : Environment) (c : Nat) (host : Host) (j : Nat) : List FlashOp :=
  (pageOps (pageAddress j) (host.block j)).take (attempted (blockOutcomes env c j) 513)

/-- The word that answers block `j`. -/
def acknowledgement (env : Environment) (c j : Nat) : Word :=
  blockReply (verdict (blockOutcomes env c j) 513) (pageAddress j)

/-- A flash after the operations of block `j` alone. -/
def blockStored (env : Environment) (c : Nat) (host : Host) (j : Nat) (m : Memory) : Memory :=
  env.replay (firstOperation env c j) (blockIssued env c host j) m

theorem pageAddress_toNat {j : Nat} (few : j < 112) :
    (pageAddress j).toNat = appAddress.toNat + pageSize * j := by
  have base : appAddress.toNat = 0x08008000 := rfl
  rw [pageAddress, BitVec.toNat_add, BitVec.toNat_ofNat, base]
  unfold pageSize
  omega

theorem pageAddress_aligned {j : Nat} (few : j < 112) : PageAligned (pageAddress j) := by
  have base : appAddress.toNat = 0x08008000 := rfl
  rw [PageAligned, pageAddress_toNat few, base]
  unfold pageSize
  omega

theorem length_issued (env : Environment) (c : Nat) (host : Host) (j : Nat) :
    c + ((List.range j).flatMap (blockIssued env c host)).length = firstOperation env c j := by
  induction j with
  | zero => rfl
  | succ j ih =>
    have most : attempted (blockOutcomes env c j) 513 ≤ 513 := attempted_le
    rw [List.range_succ, List.flatMap_append, List.length_append, ← Nat.add_assoc, ih,
      List.flatMap_singleton, blockIssued, List.length_take, length_pageOps,
      Nat.min_eq_left most]
    rfl

/-! ### The block loop -/

section Loop

variable {env : Environment} {host : Host} {start : Board}

/-- What the loop has done after `j` blocks: each has been answered by its own outcomes, and
its page is what its operations alone make of the old contents. -/
structure BlocksDone (env : Environment) (host : Host) (start : Board) (j : Nat) (s : Board) :
    Prop where
  turn : AtTurn env start j s
  journal : s.journal =
    start.journal ++ (List.range j).flatMap (blockIssued env start.clock host)
  sent : s.sent = start.sent ++
    (List.range j).flatMap fun i => bigEndian (acknowledgement env start.clock i)
  inside : ∀ i < j, ∀ k < pageSize, s.flash ((pageAddress i).toNat + k) =
    blockStored env start.clock host i start.flash ((pageAddress i).toNat + k)
  outside : ∀ x, x < appAddress.toNat ∨ appAddress.toNat + pageSize * j ≤ x →
    s.flash x = start.flash x

theorem BlocksDone.clock {j : Nat} {s : Board} (h : BlocksDone env host start j s) :
    s.clock = firstOperation env start.clock j := by
  rw [Board.clock, h.journal, List.length_append, ← length_issued env start.clock host j]
  rfl

/-- The board after a block whose operations `ops` have ended in `result`. -/
private def answered (env : Environment) (b : Board) (result : FmcState) (ops : List FlashOp) :
    Board :=
  replied result { (loaded env b).after env ops with locked := true }

private theorem answered_fields (env : Environment) (b : Board) (result : FmcState)
    (ops : List FlashOp) :
    (answered env b result ops).flash = env.replay b.clock ops b.flash ∧
      (answered env b result ops).journal = b.journal ++ ops ∧
        (answered env b result ops).sent =
          b.sent ++ bigEndian (blockReply result b.appAddress) :=
  ⟨rfl, rfl, congrArg (b.sent ++ ·) (uint32ToUint8Array_eq _)⟩

private theorem answered_turn {b : Board} {j : Nat} (h : AtTurn env start j b)
    (granted : env.malloc b.mallocs = true) (result : FmcState) (ops : List FlashOp) :
    AtTurn env start (j + 1) (answered env b result ops) :=
  h.next granted rfl

/-- One block in closed form. -/
private theorem upgradeBlock_eq (power : ∀ k, env.power k = true) {b : Board} {j : Nat}
    (granted : env.malloc b.mallocs = true) (few : j < 112)
    (address : b.appAddress = pageAddress j) {buf : Memory}
    (received : arriving env b.received = buf) :
    upgradeBlock env j b = .done none
      (answered env b (verdict (outcomesFrom env b.clock) 513)
        ((pageOps (pageAddress j) buf).take (attempted (outcomesFrom env b.clock) 513))) := by
  have aligned := pageAddress_aligned few
  have before : pageAddress j ≠ lastPage := by
    intro last
    have toNat := pageAddress_toNat few
    have base : appAddress.toNat = 0x08008000 := rfl
    have value : lastPage.toNat = 4294965248 := by decide
    rw [last, base, value] at toNat
    unfold pageSize at toNat
    omega
  have page : blockOps b.appAddress (arriving env b.received) = pageOps (pageAddress j) buf := by
    rw [address, received, blockOps, if_neg before]
  have closed := guarded_eq power (pageOps (pageAddress j) buf) (loaded env b)
  rw [length_pageOps] at closed
  rw [← address] at aligned
  rw [upgradeBlock_granted j granted aligned, page, bind_done closed]
  rfl

private theorem blockIssued_within {c j : Nat} (few : j < 112) :
    ∀ op ∈ blockIssued env c host j, (pageAddress j).toNat ≤ op.first ∧
      op.first + op.extent ≤ (pageAddress j).toNat + pageSize :=
  fun op member =>
    pageOps_within (pageAddress_aligned few) (host.block j) op (List.mem_of_mem_take member)

/-- One more block. -/
private theorem BlocksDone.next (power : ∀ k, env.power k = true)
    (granted : ∀ k, env.malloc k = true) (initial : start.appAddress = appAddress)
    (sends : ∀ j, blockData env start j = host.block j) {j : Nat} (few : j < 112) {b : Board}
    (h : BlocksDone env host start j b) :
    ∃ s, upgradeBlock env j b = .done none s ∧ BlocksDone env host start (j + 1) s := by
  have address : b.appAddress = pageAddress j := by
    rw [h.turn.address, blockAddress, initial, pageAddress]
  have received : arriving env b.received = host.block j := by
    rw [h.turn.received, ← sends j, blockData]
  have block := upgradeBlock_eq power (granted b.mallocs) few address received
  rw [h.clock] at block
  obtain ⟨flash, journal, sent⟩ := answered_fields env b
    (verdict (blockOutcomes env start.clock j) 513) (blockIssued env start.clock host j)
  have turn := answered_turn h.turn (granted _) (verdict (blockOutcomes env start.clock j) 513)
    (blockIssued env start.clock host j)
  have page := pageAddress_toNat few
  have elsewhere (x : Nat) (away : x < (pageAddress j).toNat ∨
      (pageAddress j).toNat + pageSize ≤ x) :
      env.replay b.clock (blockIssued env start.clock host j) b.flash x = b.flash x := by
    refine replay_outside ?_ _ _
    intro op member
    have inside := blockIssued_within few op member
    omega
  refine ⟨_, block, ⟨turn, journal.trans ?_, sent.trans ?_, ?_,
    ?_⟩⟩
  · rw [h.journal, List.range_succ, List.flatMap_append, List.flatMap_singleton,
      List.append_assoc]
  · rw [h.sent, List.range_succ, List.flatMap_append, List.flatMap_singleton,
      List.append_assoc, address]
    rfl
  · intro i early k bound
    refine (congrFun flash _).trans ?_
    rcases Nat.lt_succ_iff_lt_or_eq.mp early with before | rfl
    · have other := pageAddress_toNat (Nat.lt_trans before few)
      rw [elsewhere _ (by rw [page, other]; unfold pageSize at *; omega)]
      exact h.inside i before k bound
    · rw [h.clock, blockStored]
      exact replay_congr (h.outside _ (by omega)) fun _ _ => rfl
  · intro x away
    rw [Nat.mul_succ] at away
    refine (congrFun flash x).trans ?_
    rw [elsewhere x (by omega)]
    exact h.outside x (by omega)

end Loop

/-! ### The run -/

/-- Allocations succeed, a failing operation affects at most its page or word, and the host
sends at most 112 blocks. -/
structure Setting (env : Environment) (host : Host) (b : Board) : Prop where
  power : ∀ k, env.power k = true
  granted : ∀ k, env.malloc k = true
  honest : Honest env
  initial : b.appAddress = appAddress
  sends : arriving env b.received = host.bytes
  few : host.blocks.toNat ≤ 112

section Run

variable {env : Environment} {host : Host} {b : Board}

/-- Every block is programmed and answered, whatever has failed before it. -/
theorem upgradeRun_done (setting : Setting env host b) :
    ∃ s, upgradeRun env b = .done () s ∧
      BlocksDone env host (announced env b) host.blocks.toNat s := by
  have sends := blockData_hosted setting.sends
  have initial : (announced env b).appAddress = appAddress := setting.initial
  have first : BlocksDone env host (announced env b) 0 (announced env b) := by
    refine ⟨⟨?_, rfl, rfl, fun k hk => absurd hk (Nat.not_lt_zero k)⟩, ?_, ?_, ?_, ?_⟩
    · simp [blockAddress]
    · exact (List.append_nil _).symm
    · exact (List.append_nil _).symm
    · exact fun i hi => absurd hi (Nat.not_lt_zero i)
    · exact fun x _ => rfl
  have loop : Triple (BlocksDone env host (announced env b) 0)
      (forLoop host.blocks.toNat (upgradeBlock env))
      (fun _ s => BlocksDone env host (announced env b) host.blocks.toNat s)
      (fun _ => False) := by
    refine Triple.forLoop (I := BlocksDone env host (announced env b)) ?_ fun _ h => h
    intro j bound s h
    obtain ⟨t, block, next⟩ := h.next setting.power setting.granted initial sends
      (Nat.lt_of_lt_of_le bound setting.few)
    rw [block]
    exact next
  have run := loop (announced env b) first
  rw [← blockCount_hosted setting.sends] at run ⊢
  obtain ⟨_, s, returned, done⟩ := (upgradeRun_sat run).returns
  exact ⟨s, returned, done⟩

private theorem code_small (st : FmcState) : st.code.toNat ≤ 4 := by
  cases st <;> decide

private theorem code_eq_zero {st : FmcState} (failed : st ≠ .ready) : st.code ≠ 0 := by
  cases st with
  | ready => exact absurd rfl failed
  | _ => decide

/-- An answer is the page address only where no operation has failed. -/
private theorem acknowledgement_eq_page {c j : Nat} (few : j < 112) :
    acknowledgement env c j = pageAddress j ↔
      ∀ k < 513, (blockOutcomes env c j k).state = .ready := by
  rw [← verdict_eq_ready, acknowledgement, blockReply]
  by_cases ready : verdict (blockOutcomes env c j) 513 = .ready
  · exact iff_of_true (if_pos ready) ready
  · rw [if_neg ready]
    refine iff_of_false ?_ ready
    intro same
    have page := pageAddress_toNat few
    have small := code_small (verdict (blockOutcomes env c j) 513)
    have base : appAddress.toNat = 0x08008000 := rfl
    rw [same] at small
    omega

/-- A block without a failure is stored as it was sent. -/
private theorem blockStored_ready (honest : Honest env) {c j : Nat} (few : j < 112)
    (good : ∀ k < 513, (blockOutcomes env c j k).state = .ready) (m : Memory) :
    blockStored env c host j m = fill m (pageAddress j).toNat pageSize (host.block j) := by
  have whole : blockIssued env c host j = pageOps (pageAddress j) (host.block j) := by
    rw [blockIssued, attempted_ready good, List.take_of_length_le (by simp)]
  have effect := pageOps_apply (pageAddress_aligned few) m (host.block j) 513 (Nat.le_refl _)
  rw [partialPage_full, List.take_of_length_le (by simp)] at effect
  rw [blockStored, whole, honest.replay (by rw [length_pageOps]; exact good), effect]

/-- What the host is told is true: `s` is the board after the run. -/
structure Truthful (env : Environment) (host : Host) (b s : Board) : Prop where
  sent : s.sent = b.sent ++ commandStart ++ bigEndian host.blocks ++
    (List.range host.blocks.toNat).flatMap fun j => bigEndian (acknowledgement env b.clock j)
  journal : s.journal =
    b.journal ++ (List.range host.blocks.toNat).flatMap (blockIssued env b.clock host)
  stored : ∀ j < host.blocks.toNat, acknowledgement env b.clock j = pageAddress j →
    ∀ k < pageSize, s.flash ((pageAddress j).toNat + k) = host.block j k
  refused : ∀ j < host.blocks.toNat, acknowledgement env b.clock j ≠ pageAddress j →
    acknowledgement env b.clock j ≠ 0 ∧ ∃ k < 513,
      (∀ i < k, (blockOutcomes env b.clock j i).state = .ready) ∧
        (blockOutcomes env b.clock j k).state ≠ .ready ∧
          acknowledgement env b.clock j = (blockOutcomes env b.clock j k).state.code
  outside : ∀ x, x < appAddress.toNat ∨
    appAddress.toNat + pageSize * host.blocks.toNat ≤ x → s.flash x = b.flash x

private theorem BlocksDone.truthful (setting : Setting env host b) {s : Board}
    (h : BlocksDone env host (announced env b) host.blocks.toNat s) : Truthful env host b s := by
  have few := setting.few
  refine ⟨?_, h.journal, ?_, ?_, h.outside⟩
  · have started : (announced env b).sent = b.sent ++ commandStart ++ bigEndian host.blocks := by
      rw [← blockCount_hosted setting.sends, ← uint32ToUint8Array_eq]
      rfl
    rw [← started]
    exact h.sent
  · intro j bound told k inside
    have early := Nat.lt_of_lt_of_le bound few
    have good := (acknowledgement_eq_page early).mp told
    have page := h.inside j bound k inside
    change s.flash _ = blockStored env b.clock host j b.flash _ at page
    rw [page, blockStored_ready setting.honest early good,
      fill_inside (Nat.le_add_right _ _) (by omega), Nat.add_sub_cancel_left]
  · intro j bound other
    have early := Nat.lt_of_lt_of_le bound few
    have failed : verdict (blockOutcomes env b.clock j) 513 ≠ .ready :=
      fun ready => other ((acknowledgement_eq_page early).mpr (verdict_eq_ready.mp ready))
    obtain ⟨k, within, first, good⟩ := verdict_failed failed
    have told :
        acknowledgement env b.clock j = (verdict (blockOutcomes env b.clock j) 513).code := by
      rw [acknowledgement, blockReply, if_neg failed]
    refine ⟨?_, k, within, good, ?_, ?_⟩
    · rw [told]
      exact code_eq_zero failed
    · rwa [← first]
    · rw [told, first]

end Run

/-! ### The run without one of the failures -/

/-- The environment in which the operations of block `j` succeed and those of every other
block have the outcomes they have in `env`. -/
def mended (env : Environment) (c j : Nat) : Environment :=
  { env with
    answer := fun k =>
      if k < firstOperation env c j then env.answer k
      else if k < firstOperation env c j + 513 then .success
      else env.answer (k - (firstOperation env c j + 513) + firstOperation env c (j + 1)) }

section Mended

variable (env : Environment) (c : Nat)

private theorem firstOperation_succ (i : Nat) : firstOperation env c (i + 1) =
    firstOperation env c i + attempted (blockOutcomes env c i) 513 := rfl

private theorem firstOperation_mono {i j : Nat} (before : i ≤ j) :
    firstOperation env c i ≤ firstOperation env c j := by
  induction before with
  | refl => exact Nat.le_refl _
  | step _ ih => exact Nat.le_trans ih (Nat.le_add_right _ _)

/-- The operations of a block come before those of the later ones. -/
private theorem number_lt {i j k : Nat} (bound : k < attempted (blockOutcomes env c i) 513)
    (early : i < j) : firstOperation env c i + k < firstOperation env c j := by
  have later := firstOperation_mono env c (Nat.succ_le_of_lt early)
  rw [Nat.succ_eq_add_one, firstOperation_succ] at later
  omega

/-- The operations block `i` issues meet the same outcomes. -/
private def SameOutcomes (env' : Environment) (i : Nat) : Prop :=
  ∀ k < attempted (blockOutcomes env c i) 513, blockOutcomes env' c i k = blockOutcomes env c i k

variable {env c} {j : Nat}

private theorem mended_before {i : Nat} (before : i ≤ j) :
    firstOperation (mended env c j) c i = firstOperation env c i ∧
      (i < j → SameOutcomes env c (mended env c j) i) := by
  induction i with
  | zero => exact ⟨rfl, fun early k bound => if_pos (number_lt env c bound early)⟩
  | succ i ih =>
    obtain ⟨first, same⟩ := ih (Nat.le_of_succ_le before)
    have start : firstOperation (mended env c j) c (i + 1) = firstOperation env c (i + 1) := by
      rw [firstOperation_succ, firstOperation_succ, first, attempted_congr (same before)]
    refine ⟨start, ?_⟩
    intro early k bound
    rw [blockOutcomes, outcomesFrom, start]
    exact if_pos (number_lt env c bound early)

/-- Block `j` does not fail. -/
private theorem mended_here : ∀ k < 513, blockOutcomes (mended env c j) c j k = .success := by
  intro k bound
  rw [blockOutcomes, outcomesFrom, (mended_before (Nat.le_refl j)).1]
  exact (if_neg (by omega)).trans (if_pos (by omega))

private theorem mended_ready : ∀ k < 513, (blockOutcomes (mended env c j) c j k).state = .ready :=
  fun k bound => congrArg Answer.state (mended_here k bound)

private theorem mended_after (d : Nat) :
    firstOperation (mended env c j) c (j + 1 + d) + firstOperation env c (j + 1) =
        firstOperation env c (j + 1 + d) + (firstOperation env c j + 513) ∧
      SameOutcomes env c (mended env c j) (j + 1 + d) := by
  have same (d : Nat)
      (start : firstOperation (mended env c j) c (j + 1 + d) + firstOperation env c (j + 1) =
        firstOperation env c (j + 1 + d) + (firstOperation env c j + 513)) :
      SameOutcomes env c (mended env c j) (j + 1 + d) := by
    have later := firstOperation_mono env c (Nat.le_add_right (j + 1) d)
    intro k _
    have number : firstOperation (mended env c j) c (j + 1 + d) + k -
        (firstOperation env c j + 513) + firstOperation env c (j + 1) =
          firstOperation env c (j + 1 + d) + k := by omega
    refine ((if_neg (by omega)).trans (if_neg (by omega))).trans ?_
    rw [number]
    rfl
  induction d with
  | zero =>
    have start : firstOperation (mended env c j) c (j + 1) = firstOperation env c j + 513 := by
      rw [firstOperation_succ, (mended_before (Nat.le_refl j)).1, attempted_ready mended_ready]
    have sum : firstOperation (mended env c j) c (j + 1 + 0) + firstOperation env c (j + 1) =
        firstOperation env c (j + 1 + 0) + (firstOperation env c j + 513) := by
      rw [Nat.add_zero, start, Nat.add_comm]
    exact ⟨sum, same 0 sum⟩
  | succ d ih =>
    obtain ⟨before, kept⟩ := ih
    have sum : firstOperation (mended env c j) c (j + 1 + d + 1) + firstOperation env c (j + 1) =
        firstOperation env c (j + 1 + d + 1) + (firstOperation env c j + 513) := by
      rw [firstOperation_succ _ _ (j + 1 + d), firstOperation_succ _ _ (j + 1 + d),
        attempted_congr kept]
      omega
    exact ⟨sum, same (d + 1) sum⟩

private theorem mended_other {i : Nat} (other : i ≠ j) : SameOutcomes env c (mended env c j) i := by
  rcases Nat.lt_or_gt_of_ne other with early | late
  · exact (mended_before (Nat.le_of_lt early)).2 early
  · obtain ⟨d, rfl⟩ := Nat.exists_eq_add_of_le (Nat.succ_le_of_lt late)
    exact (mended_after d).2

/-- A block whose operations meet the same outcomes is answered and stored alike. -/
private theorem SameOutcomes.alike {env' : Environment} {i : Nat}
    (same : SameOutcomes env c env' i) (host : Host) (m : Memory) :
    acknowledgement env' c i = acknowledgement env c i ∧
      blockStored env' c host i m = blockStored env c host i m := by
  constructor
  · rw [acknowledgement, verdict_congr same, acknowledgement]
  · have issued : blockIssued env' c host i = blockIssued env c host i := by
      rw [blockIssued, attempted_congr same, blockIssued]
    funext x
    rw [blockStored, issued]
    refine replay_congr rfl fun k bound => same k ?_
    exact Nat.lt_of_lt_of_le bound (List.length_take_le _ _)

private theorem Setting.mended {host : Host} {b : Board} (setting : Setting env host b) (j : Nat) :
    Setting (mended env b.clock j) host b := by
  refine { setting with honest := ?_ }
  intro k ready
  change (if _ then _ else if _ then _ else _ : Answer).left = none
  change (if _ then _ else if _ then _ else _ : Answer).state = .ready at ready
  split_ifs at ready ⊢
  · exact setting.honest _ ready
  · rfl
  · exact setting.honest _ ready

end Mended

/-- Every other block is answered and stored as if block `j` had not failed. -/
def Independent (env : Environment) (host : Host) (b s : Board) : Prop :=
  ∀ j < host.blocks.toNat, ∃ t, upgradeRun (mended env b.clock j) b = .done () t ∧
    Truthful (mended env b.clock j) host b t ∧
      acknowledgement (mended env b.clock j) b.clock j = pageAddress j ∧
        ∀ i < host.blocks.toNat, i ≠ j →
          acknowledgement (mended env b.clock j) b.clock i = acknowledgement env b.clock i ∧
            ∀ k < pageSize,
              t.flash ((pageAddress i).toNat + k) = s.flash ((pageAddress i).toNat + k)

private theorem BlocksDone.independent {env : Environment} {host : Host} {b s : Board}
    (setting : Setting env host b)
    (h : BlocksDone env host (announced env b) host.blocks.toNat s) :
    Independent env host b s := by
  intro j bound
  have setting' := setting.mended j
  obtain ⟨t, run, h'⟩ := upgradeRun_done setting'
  have early := Nat.lt_of_lt_of_le bound setting.few
  refine ⟨t, run, h'.truthful setting', (acknowledgement_eq_page early).mpr mended_ready,
    fun i within other => ?_⟩
  obtain ⟨told, stored⟩ := (mended_other other : SameOutcomes env b.clock _ i).alike host b.flash
  refine ⟨told, ?_⟩
  intro k inside
  have page := h.inside i within k inside
  have page' := h'.inside i within k inside
  change t.flash _ = blockStored (mended env b.clock j) b.clock host i b.flash _ at page'
  rw [page', stored, page]
  rfl

/-! ### An upgrade without a failure -/

/-- What an upgrade of `flash` leaves where nothing fails. -/
structure Upgraded (host : Host) (flash m : Memory) : Prop where
  payload : ∀ o < pageSize * host.blocks.toNat, m (appAddress.toNat + o) = host.payload o
  behind : ∀ x, appAddress.toNat + pageSize * host.blocks.toNat ≤ x → x < backupAddress.toNat →
    m x = flash x
  backup : ∀ o < copySize, m (backupAddress.toNat + o) = flash (appAddress.toNat + o)
  flag : flagOf m = UPGRADESTOP
  type : typeOf m = 1000

section Upgrade

variable {env : Environment} {host : Host}

/-- The flash before the last parameter write, in closed form. -/
private def programmed (host : Host) (flash : Memory) : Memory :=
  installed
    (copied
      (partialWord (partialWord flash upgradeFlagAddress UPGRADESTOP 2)
        upgradeApplicationTypeAddress 2000 2)
      appAddress backupAddress currentBlockNumber)
    host.payload host.blocks.toNat

private theorem programmed_upgraded (flash : Memory) (few : host.blocks.toNat ≤ 112) :
    Upgraded host flash
      (partialWord (programmed host flash) upgradeApplicationTypeAddress 1000 2) := by
  obtain ⟨flag, type, app, backup, size⟩ := parameterPages
  -- The pages of the payload end where the backup begins.
  have room : appAddress.toNat + pageSize * host.blocks.toNat ≤ backupAddress.toNat := by
    rw [app, backup]
    unfold pageSize
    omega
  have copy : pageSize * currentBlockNumber = copySize := rfl
  have parameters (x : Nat) (low : x < 0x08078000) :
      partialWord (partialWord flash upgradeFlagAddress UPGRADESTOP 2)
        upgradeApplicationTypeAddress 2000 2 x = flash x := by
    rw [typeWord_outside (by omega), flagWord_outside (by omega)]
  refine ⟨?_, ?_, ?_, ?_, ?_⟩
  · intro o inside
    rw [typeWord_outside (by omega), programmed, installed,
      fill_inside (Nat.le_add_right _ _) (by omega), Nat.add_sub_cancel_left]
  · intro x low high
    rw [typeWord_outside (by omega), programmed, installed, fill_outside (Or.inr low), copied,
      fill_outside (Or.inl high), parameters x (by omega)]
  · intro o inside
    rw [typeWord_outside (by omega), programmed, installed, fill_outside (by omega), copied,
      fill_inside (Nat.le_add_right _ _) (by omega), Nat.add_sub_cancel_left,
      parameters _ (by omega)]
  · have kept (x : Nat) (high : 0x08078000 ≤ x) : programmed host flash x =
        partialWord (partialWord flash upgradeFlagAddress UPGRADESTOP 2)
          upgradeApplicationTypeAddress 2000 2 x := by
      rw [programmed, installed, fill_outside (by omega), copied, fill_outside (by omega)]
    rw [flagOf_typeWord, flagOf, wordAt_congr fun i _ => kept _ (by omega), ← flagOf,
      flagOf_typeWord]
    exact partialWord_full _ _ _
  · exact partialWord_full _ _ _

private theorem Setting.succeeds {b : Board} (setting : Setting env host b)
    (ready : ∀ k, (env.answer k).state = .ready) : env.Succeeds := by
  refine ⟨?_, setting.granted⟩
  intro k
  have whole := setting.honest k (ready k)
  have state := ready k
  cases answer : env.answer k with
  | mk st left =>
    rw [answer] at whole state
    exact congrArg₂ Answer.mk state whole

section Succeeds

variable (ok : env.Succeeds) (power : ∀ k, env.power k = true)

include ok power

private theorem run_written (sends : arriving env 0 = host.bytes)
    (few : host.blocks.toNat ≤ 112) (m : Memory) :
    Triple (At (· = m)) (upgradeRun env)
      (fun _ s => s.flash = installed m host.payload host.blocks.toNat) fun _ => False := by
  intro s before
  rw [← before.received] at sends
  have payload : firmware env s = host.payload := by
    funext o
    rw [← host.bytes_payload, ← sends]
    simp [firmware, arriving, Nat.add_assoc]
  have count := blockCount_hosted sends
  have bound : (blockCount env s.received).toNat ≤ wrapBlock := by
    rw [count]
    exact Nat.le_trans few (by decide)
  refine (upgradeRun_installs env ok before.address bound).mono ?_ ?_
  · intro _ t done
    rw [done.flash, payload, count, before.phase]
  · rintro t ⟨j, k, cut⟩
    exact Environment.lasting power _ cut.lost

private theorem mark_written (m : Memory) :
    Triple (fun s : Board => s.flash = m)
      (upgradeFmcWriteData env upgradeApplicationTypeAddress 1000)
      (fun _ s => s.flash = partialWord m upgradeApplicationTypeAddress 1000 2)
      fun _ => False := by
  intro s before
  refine (upgradeFmcWriteData_sat ok _ _ s).mono ?_ ?_
  · rintro _ t ⟨-, written⟩
    rw [written.word, before]
  · rintro t ⟨k, -, -, -, lost⟩
    exact Environment.lasting power _ lost

end Succeeds

private theorem upgrade_complete {flash : Memory} (setting : Setting env host (powerOn flash))
    (ready : ∀ k, (env.answer k).state = .ready) (requested : flagOf flash = UPGRADESTART) :
    ∃ s, handleUpgrade env (powerOn flash) = .done .systemReset s ∧
      Upgraded host flash s.flash := by
  have power := setting.power
  have ok := setting.succeeds ready
  have lasts (n k : Nat) : Powered env n k := fun i _ => power (n + i)
  have blocks := run_written ok power setting.sends setting.few (backedUp flash)
  have branch : Triple (Lasting (· = flash) 0) (upgradeBranch env env env)
      (fun _ s => s.flash =
        partialWord (programmed host flash) upgradeApplicationTypeAddress 1000 2)
      fun _ => False :=
    (word_lasting _ ok _ _ _ (lasts 0 2)).bind fun _ =>
      (word_lasting _ ok _ _ _ (lasts 2 2)).bind fun _ =>
        (backup_lasting _ ok _ (lasts 4 _)).bind fun _ =>
          Triple.bind (fun s before => blocks s before.toAt) fun _ =>
            (mark_written ok power _).bind fun _ => Triple.pure fun _ final => final
  obtain ⟨_, s, done, final⟩ := (branch (powerOn flash) ⟨⟨rfl, rfl, rfl⟩, rfl⟩).returns
  refine ⟨s, ?_, ?_⟩
  · have start : flagOf (powerOn flash).flash = UPGRADESTART := requested
    rw [handleUpgrade_upgrade start, bind_done done]
    rfl
  · rw [final]
    exact programmed_upgraded flash setting.few

end Upgrade

/-- The host is told the truth about every block, a failed block leaves the others alone, and
a boot in which nothing fails installs the payload behind a complete backup. -/
theorem upgrade_acknowledges {env : Environment} {host : Host} {b : Board}
    (setting : Setting env host b) :
    (∃ s, upgradeRun env b = .done () s ∧ Truthful env host b s ∧ Independent env host b s) ∧
      ((∀ k, (env.answer k).state = .ready) → ∀ flash, b = powerOn flash →
        flagOf flash = UPGRADESTART →
          ∃ s, handleUpgrade env b = .done .systemReset s ∧ Upgraded host flash s.flash) := by
  obtain ⟨s, run, done⟩ := upgradeRun_done setting
  refine ⟨⟨s, run, done.truthful setting, done.independent setting⟩, ?_⟩
  rintro ready flash rfl requested
  exact upgrade_complete setting ready requested

/-- A host that sends three blocks of zeros. -/
def threeBlocks : Host := ⟨3, fun _ => 0⟩

/-- Three blocks are sent to a device that has been asked for an upgrade. -/
theorem upgrade_acknowledges_three :
    (∃ s, upgradeRun (.flawless threeBlocks.bytes) (powerOn requested) = .done () s ∧
        Truthful (.flawless threeBlocks.bytes) threeBlocks (powerOn requested) s ∧
          Independent (.flawless threeBlocks.bytes) threeBlocks (powerOn requested) s) ∧
      ∃ s, handleUpgrade (.flawless threeBlocks.bytes) (powerOn requested) =
          .done .systemReset s ∧ Upgraded threeBlocks requested s.flash := by
  have setting : Setting (.flawless threeBlocks.bytes) threeBlocks (powerOn requested) :=
    ⟨fun _ => rfl, fun _ => rfl, fun _ _ => rfl, rfl,
      funext fun k => congrArg threeBlocks.bytes (Nat.zero_add k), by decide⟩
  obtain ⟨run, complete⟩ := upgrade_acknowledges setting
  exact ⟨run, complete (fun _ => rfl) requested rfl (by decide)⟩

end BmsFirmware.Upgrade.Acknowledge
