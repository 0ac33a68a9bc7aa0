/- Module: BmsFirmware/Upgrade/Bootable
   Source: application/upgrade/boot.c
   Digest: Which failures the type word 1000 hides: the exact condition for a true mark. -/

import BmsFirmware.Upgrade.BlockLoop

set_option autoImplicit false
set_option relaxedAutoImplicit false

namespace BmsFirmware.Upgrade.Bootable

open BmsFirmware.Library.ByteMemory
open BmsFirmware.Library.PowerLogic
open BmsFirmware.Flash.Controller
open BmsFirmware.Flash.Systick
open BmsFirmware.Flash.PageImage
open BmsFirmware.Upgrade.Boot
open BmsFirmware.Upgrade.BlockWriter
open BmsFirmware.Upgrade.BlockLoop

/-! ### The block programming -/

/-- The page writes of the first `n` blocks, in order. -/
def pageWrites (env : Environment) (start : Board) (n : Nat) : List FlashOp :=
  (List.range n).flatMap fun j => pageOps (blockAddress start j) (blockData env start j)

/-- Every announced page has been received and programmed, and no operation failed. -/
structure FullyProgrammed (env : Environment) (e r : Board) : Prop where
  received : r.received = e.received + 4 + pageSize * (blockCount env e.received).toNat
  programmed : r.journal =
    e.journal ++ pageWrites env (announced env e) (blockCount env e.received).toNat
  ready : ∀ k, e.clock ≤ k → k < r.clock → (env.answer k).state = .ready

/-- The outcomes, numbered from the start of the block programming, under which `n` blocks
are programmed without error. -/
structure BlocksSucceed (run : Environment) (n : Nat) : Prop where
  allocated : ∀ k < n, run.malloc k = true
  ready : ∀ k < 513 * n, (run.answer k).state = .ready
  fits : n ≤ wrapBlock

/-- The environment `env` has from a board on the outcomes that `run` lists from zero. -/
private structure Numbered (env run : Environment) (e : Board) : Prop where
  malloc : ∀ k, env.malloc (e.mallocs + k) = run.malloc k
  answer : ∀ k, env.answer (e.clock + k) = run.answer k

private theorem length_pageWrites (env : Environment) (start : Board) (n : Nat) :
    (pageWrites env start n).length = 513 * n := by
  induction n with
  | zero => rfl
  | succ n ih =>
    rw [pageWrites, List.range_succ, List.flatMap_append, List.length_append]
    change (pageWrites env start n).length + _ = _
    rw [ih]
    simp [Nat.mul_succ]

private theorem pageWrites_succ (env : Environment) (start : Board) (n : Nat) :
    pageWrites env start (n + 1) =
      pageWrites env start n ++ pageOps (blockAddress start n) (blockData env start n) := by
  simp [pageWrites, List.range_succ]

private theorem length_blockOps (a : Word) (buf : Memory) : (blockOps a buf).length ≤ 513 := by
  unfold blockOps
  split_ifs <;> simp

/-- Where allocations and operations succeed, the blocks are programmed. -/
private theorem programmed_of_succeed {env run : Environment} {e : Board}
    (power : ∀ k, env.power k = true) (initial : e.appAddress = appAddress)
    (numbered : Numbered env run e)
    (ok : BlocksSucceed run (blockCount env e.received).toNat) :
    FullyProgrammed env e (upgradeRun env e).state := by
  let start := announced env e
  let n := (blockCount env e.received).toNat
  have first : start.appAddress = appAddress := initial
  have journaled {j : Nat} {s : Board} (journal : s.journal = e.journal ++ pageWrites env start j) :
      s.clock = e.clock + 513 * j := by
    rw [Board.clock, journal, List.length_append, length_pageWrites]
    rfl
  have granted (k : Nat) (hk : k < n) : env.malloc (e.mallocs + k) = true := by
    rw [numbered.malloc]
    exact ok.allocated k hk
  have loop := blockLoop_through env start (n := n) (C := fun _ _ => False)
    (K := fun j _ l => l = e.journal ++ pageWrites env start j) (announced_aligned env initial)
    granted (show e.journal = e.journal ++ pageWrites env start 0 by simp [pageWrites]) ?_
  · refine (upgradeRun_sat (loop.mono ?_ fun _ h => h.elim)).stopped
    rintro _ s ⟨journal, received⟩
    refine ⟨received, journal, ?_⟩
    intro k low high
    have clock := journaled journal
    have answer := ok.ready (k - e.clock) (by omega)
    rwa [← numbered.answer, Nat.add_sub_cancel' low] at answer
  · intro j hj s journal
    have clock := journaled journal
    have early : j < wrapBlock := Nat.lt_of_lt_of_le hj ok.fits
    rw [blockOps_before_wrap first early]
    refine (guarded_powered power _ s).mono ?_ fun _ h => h
    rintro st t ⟨-, t', ⟨-, rfl, -⟩ | ⟨k, hk, bad, rfl, -, -, answer⟩, rfl⟩
    · change s.journal ++ _ = _
      rw [journal, pageWrites_succ, List.append_assoc]
    · rw [length_pageOps] at hk
      have good := ok.ready (513 * j + k) (by omega)
      rw [← numbered.answer, ← Nat.add_assoc, ← clock, answer] at good
      exact absurd good bad

/-- A run that programs everything has met no failure and no wrap-around. -/
private theorem succeed_of_programmed {env run : Environment} {e : Board}
    (power : ∀ k, env.power k = true) (initial : e.appAddress = appAddress)
    (numbered : Numbered env run e)
    (whole : FullyProgrammed env e (upgradeRun env e).state) :
    BlocksSucceed run (blockCount env e.received).toNat := by
  let start := announced env e
  let n := (blockCount env e.received).toNat
  have clock : (upgradeRun env e).state.clock = e.clock + 513 * n := by
    rw [Board.clock, whole.programmed, List.length_append, length_pageWrites]
    rfl
  have loop := blockLoop_sat env start (n := n) (C := fun _ _ => False)
    (K := fun j _ l => ∃ ops, l = e.journal ++ ops ∧ ops.length ≤ 513 * j ∧
      (wrapBlock < j → ops.length < 513 * j)) (announced_aligned env initial)
    ⟨[], by simp [start, announced], by simp, by simp⟩ ?_
  · have counted : ∃ j ≤ n, (upgradeRun env e).state.clock ≤ e.clock + 513 * j ∧
        (wrapBlock < j → (upgradeRun env e).state.clock < e.clock + 513 * j) ∧
        ∀ k < j, env.malloc (e.mallocs + k) = true := by
      refine (upgradeRun_sat (loop.mono ?_ fun _ h => h.elim)).stopped (P := fun s =>
        ∃ j ≤ n, s.clock ≤ e.clock + 513 * j ∧ (wrapBlock < j → s.clock < e.clock + 513 * j) ∧
          ∀ k < j, env.malloc (e.mallocs + k) = true)
      rintro _ s ⟨j, hj, ⟨ops, journal, most, fewer⟩, -, granted, -⟩
      have length : s.clock = e.clock + ops.length := by
        rw [Board.clock, journal, List.length_append]
        rfl
      exact ⟨j, hj, by omega, fun h => by have := fewer h; omega, granted⟩
    obtain ⟨j, hj, most, fewer, granted⟩ := counted
    obtain rfl : j = n := by omega
    refine ⟨?_, ?_, ?_⟩
    · intro k hk
      rw [← numbered.malloc]
      exact granted k hk
    · intro k hk
      rw [← numbered.answer]
      exact whole.ready (e.clock + k) (by omega) (by omega)
    by_contra wraps
    have := fewer (by omega)
    omega
  · rintro j hj - s ⟨ops, journal, most, fewer⟩
    refine ((guarded_begun env _ s).and (guarded_powered power _ s)).mono ?_ fun _ h => h.2
    rintro _ t ⟨⟨part, pre, journal', -⟩, -⟩
    have short := Nat.le_trans pre.length_le (length_blockOps _ _)
    refine ⟨ops ++ part, by rw [journal', journal, List.append_assoc], ?_, ?_⟩
    · rw [List.length_append]
      omega
    · intro passed
      rw [List.length_append]
      rcases Nat.lt_succ_iff_lt_or_eq.mp passed with before | rfl
      · have := fewer before
        omega
      · have one := pre.length_le
        rw [blockAddress_wrap start initial, blockOps, if_pos rfl, List.length_singleton] at one
        omega

/-! ### The upgrade branch -/

/-- The upgrade branch up to the block programming. -/
def upgradePrepare (params backup : Environment) : Proc Board Unit := do
  let _ ← upgradeFmcWriteData params upgradeFlagAddress UPGRADESTOP
  let _ ← upgradeFmcWriteData params upgradeApplicationTypeAddress 2000
  upgradeBackup backup

theorem upgradeBranch_eq (params backup run : Environment) :
    upgradeBranch params backup run = (do
      upgradePrepare params backup
      upgradeRun run
      let _ ← upgradeFmcWriteData params upgradeApplicationTypeAddress 1000
      return ()) := by
  simp only [upgradeBranch, upgradePrepare, bind_assoc]

section Branch

variable (backup run : Environment) (flash : Memory)

/-- The board on which the block programming of a boot starts. The parameter writes
succeed; `backup` answers the operations of the backup. -/
def runStart : Board :=
  (upgradePrepare (.flawless fun _ => 0) backup.steady (powerOn flash)).state

/-- The outcomes of the block programming, numbered from its start. -/
def runEnvironment : Environment := run.steady.startingAt (runStart backup flash)

/-- The board at the end of the branch. -/
def branchEnd : Board :=
  (upgradeBranch (.flawless fun _ => 0) backup.steady (runEnvironment backup run flash)
    (powerOn flash)).state

/-- The type word is 1000 only after a full upgrade, and otherwise still 2000. -/
def MarksOnlyProgrammed : Prop :=
  let applicationType := wordAt (branchEnd backup run flash).flash
    upgradeApplicationTypeAddress.toNat
  let e := runStart backup flash
  let env := runEnvironment backup run flash
  (applicationType = 1000 → FullyProgrammed env e (upgradeRun env e).state) ∧
    (applicationType ≠ 1000 → applicationType = 2000)

end Branch

private theorem guarded_keeps {env : Environment} (power : ∀ k, env.power k = true)
    (ops : List FlashOp) (a : Word) :
    Triple (fun s => s.appAddress = a) (guarded env ops) (fun _ s => s.appAddress = a)
      fun _ => False := by
  intro s hs
  refine (guarded_powered power ops s).mono ?_ fun _ h => h
  rintro _ t ⟨same, -⟩
  rw [same]
  exact hs

private theorem copyPages_keeps {env : Environment} (power : ∀ k, env.power k = true)
    (src dst a : Word) :
    Triple (fun s => s.appAddress = a) (copyPages env src dst) (fun _ s => s.appAddress = a)
      fun _ => False := by
  refine Triple.forLoop (I := fun _ (s : Board) => s.appAddress = a) ?_ fun _ h => h
  intro i _ s hs
  rw [get_bind, upgradeWriteData_eq, bind_assoc]
  exact Triple.bind (guarded_keeps power _ a) (fun _ => Triple.pure fun _ h => h) s hs

private theorem upgradeBackup_keeps {env : Environment} (power : ∀ k, env.power k = true)
    (a : Word) :
    Triple (fun s => s.appAddress = a) (upgradeBackup env) (fun _ s => s.appAddress = a)
      fun _ => False := by
  intro s hs
  rw [upgradeBackup, malloc_bind]
  by_cases refused : env.malloc s.mallocs = false
  · rw [if_pos refused]
    exact hs
  · rw [if_neg refused, get_bind]
    exact Triple.bind (copyPages_keeps power _ _ a) (fun _ => Triple.pure fun _ h => h) _ hs

private theorem upgradePrepare_keeps (backup : Environment) (a : Word) :
    Triple (fun s => s.appAddress = a) (upgradePrepare (.flawless fun _ => 0) backup.steady)
      (fun _ s => s.appAddress = a) fun _ => False := by
  have power : ∀ k, (Environment.flawless fun _ => 0).power k = true := fun _ => rfl
  have word (address data : Word) :
      Triple (fun s => s.appAddress = a)
        (upgradeFmcWriteData (.flawless fun _ => 0) address data) (fun _ s => s.appAddress = a)
        fun _ => False := by
    rw [upgradeFmcWriteData_eq]
    exact guarded_keeps power _ a
  refine Triple.bind (word _ _) ?_
  intro _
  refine Triple.bind (word _ _) ?_
  intro _
  exact upgradeBackup_keeps (fun _ => rfl) a

private theorem upgradePrepare_done (backup : Environment) (flash : Memory) :
    upgradePrepare (.flawless fun _ => 0) backup.steady (powerOn flash) =
      .done () (runStart backup flash) ∧ (runStart backup flash).appAddress = appAddress := by
  obtain ⟨r, s, run, kept⟩ := (upgradePrepare_keeps backup appAddress (powerOn flash) rfl).returns
  rw [runStart, run]
  exact ⟨rfl, kept⟩

private theorem upgradeRun_returns (env : Environment) {e : Board}
    (power : ∀ k, env.power k = true) (initial : e.appAddress = appAddress) :
    (upgradeRun env e).Sat (fun _ _ => True) fun _ => False := by
  have loop := blockLoop_sat env (announced env e) (n := (blockCount env e.received).toNat)
    (K := fun _ _ _ => True) (C := fun _ _ => False) (announced_aligned env initial) trivial
    fun _ _ _ s _ => (guarded_powered power _ s).mono (fun _ _ _ => trivial) fun _ h => h
  exact (upgradeRun_sat (Q := fun _ => True) (loop.mono (fun _ _ _ => trivial) fun _ h => h))

private theorem parameterWord_written (a d : Word) (s : Board) :
    (upgradeFmcWriteData (.flawless fun _ => 0) a d s).Sat
      (fun _ t => wordAt t.flash a.toNat = d) fun _ => False := by
  refine (upgradeFmcWriteData_sat (Environment.flawless_succeeds _) a d s).mono ?_ ?_
  · rintro _ t ⟨-, written⟩
    rw [written.word]
    exact partialWord_full s.flash a d
  · rintro t ⟨k, -, -, -, lost⟩
    exact absurd lost Bool.noConfusion

/-- The mark is written after every run of the branch, whatever has failed. -/
theorem branchEnd_marked (backup run : Environment) (flash : Memory) :
    wordAt (branchEnd backup run flash).flash upgradeApplicationTypeAddress.toNat = 1000 := by
  obtain ⟨prepared, initial⟩ := upgradePrepare_done backup flash
  obtain ⟨r, s, ran, -⟩ :=
    (upgradeRun_returns (runEnvironment backup run flash) (fun _ => rfl) initial).returns
  obtain ⟨st, t, wrote, written⟩ :=
    (parameterWord_written upgradeApplicationTypeAddress 1000 s).returns
  rw [branchEnd, upgradeBranch_eq, bind_done prepared, bind_done ran, bind_done wrote]
  exact written

private theorem blockCount_startingAt (run : Environment) (e : Board) :
    blockCount (run.steady.startingAt e) e.received = blockCount run 0 := by
  exact congrArg uint8ArrayToUint32 (arriving_startingAt run.steady e 0)

private theorem runEnvironment_numbered (backup run : Environment) (flash : Memory) :
    Numbered (runEnvironment backup run flash) run (runStart backup flash) :=
  ⟨Environment.startingAt_malloc run.steady _, Environment.startingAt_answer run.steady _⟩

/-- A truthful mark has behind it a block programming without failures. -/
private theorem succeed_of_marks {backup run : Environment} {flash : Memory}
    (truthful : MarksOnlyProgrammed backup run flash) :
    BlocksSucceed run (blockCount run 0).toNat := by
  have initial := (upgradePrepare_done backup flash).2
  have ok := succeed_of_programmed (fun _ => rfl) initial
    (runEnvironment_numbered backup run flash) (truthful.1 (branchEnd_marked backup run flash))
  rwa [runEnvironment, blockCount_startingAt] at ok

/-- The mark is truthful exactly when no allocation and no operation of the block
programming fails, and the blocks end before the last page of the address space. -/
theorem upgradeBranch_marksOnlyProgrammed_iff (backup run : Environment) (flash : Memory) :
    MarksOnlyProgrammed backup run flash ↔ BlocksSucceed run (blockCount run 0).toNat := by
  refine ⟨succeed_of_marks, fun ok => ⟨?_, ?_⟩⟩
  · intro _
    have initial := (upgradePrepare_done backup flash).2
    refine programmed_of_succeed (fun _ => rfl) initial
      (runEnvironment_numbered backup run flash) ?_
    rwa [runEnvironment, blockCount_startingAt]
  · intro unmarked
    exact absurd (branchEnd_marked backup run flash) unmarked

/-- One block is announced, and its buffer is refused. -/
def refusing : Environment :=
  { Environment.flawless (ofList [0, 0, 0, 1]) with malloc := fun _ => false }

/-- The refused block is marked bootable. -/
theorem upgradeBranch_marksRefused :
    ¬MarksOnlyProgrammed (.flawless fun _ => 0) refusing fun _ => 0xFF := by
  intro truthful
  have granted := (succeed_of_marks truthful).allocated 0 (by decide)
  exact absurd granted (by decide)

end BmsFirmware.Upgrade.Bootable
