/- Module: BmsFirmware/Flash/Controller
   Source: firmware/gd32f30x/.../gd32f30x_fmc.c (erase and program), common/src/systick.c
   Digest: The board a boot runs on, its environment, and the two flash operations. -/

import BmsFirmware.Library.ByteMemory
import BmsFirmware.Library.PowerLogic

set_option autoImplicit false
set_option relaxedAutoImplicit false

namespace BmsFirmware.Flash.Controller

open BmsFirmware.Library.ByteMemory
open BmsFirmware.Library.PowerLogic

/-- `fmc_state_enum`. -/
inductive FmcState where
  | ready
  | busy
  | pgerr
  | wperr
  | toerr
  deriving DecidableEq

/-- The enumerator's value, as C converts it to an integer. -/
def FmcState.code : FmcState → Word
  | .ready => 0
  | .busy => 1
  | .pgerr => 2
  | .wperr => 3
  | .toerr => 4

/-- One page of the flash, in bytes; the same value as `MBLOCK_SIZE`. -/
def pageSize : Nat := 2048

/-- A flash operation as the code issues it. -/
inductive FlashOp where
  | pageErase (pageAddress : Word)
  | wordProgram (address data : Word)
  deriving DecidableEq

/-- The first byte an operation may touch; an erase goes to the page containing its address. -/
def FlashOp.first : FlashOp → Nat
  | .pageErase a => a.toNat / pageSize * pageSize
  | .wordProgram a _ => a.toNat

def FlashOp.extent : FlashOp → Nat
  | .pageErase _ => pageSize
  | .wordProgram _ _ => 4

/-- The contents a successful operation leaves, relative to its first byte. -/
def FlashOp.bytes : FlashOp → Nat → Byte
  | .pageErase _ => fun _ => 0xFF
  | .wordProgram _ w => wordBytes w

/-- The successful operation. -/
def FlashOp.apply (op : FlashOp) (m : Memory) : Memory := fill m op.first op.extent op.bytes

/-- What the flash unit makes of one operation: the state it reports and, where the
contents of the addressed page or word are not the intended ones, what they are. -/
structure Answer where
  state : FmcState
  left : Option (Nat → Byte)

def Answer.success : Answer := ⟨.ready, none⟩

def Answer.apply (r : Answer) (op : FlashOp) (m : Memory) : Memory :=
  fill m op.first op.extent (r.left.getD op.bytes)

/-- Everything one boot meets: whether power is there for its `k`-th flash operation, the
answer to that operation, the results of its allocations and the bytes on its UART. -/
structure Environment where
  power : Nat → Bool
  answer : Nat → Answer
  malloc : Nat → Bool
  uart : Nat → Byte

/-- The state of one boot: the flash, the controller lock, and the variables of `boot.c`.
`journal` lists the flash operations issued so far; the code does not read it. -/
structure Board where
  flash : Memory
  locked : Bool
  journal : List FlashOp
  mallocs : Nat
  received : Nat
  sent : List Byte
  appAddress : Word
  totalBlock : Word
  upgradeBlockNumber : Memory
  updateData : Memory

/-- The number of flash operations issued in this boot. -/
def Board.clock (b : Board) : Nat := b.journal.length

section Operations

variable (env : Environment)

/-- Hand one operation to the flash unit; without power nothing happens any more. -/
def issue (op : FlashOp) : Proc Board FmcState := fun b =>
  if env.power b.clock then
    .done (env.answer b.clock).state
      { b with
        flash := (env.answer b.clock).apply op b.flash
        journal := b.journal ++ [op] }
  else .cut b

def fmcPageErase (pageAddress : Word) : Proc Board FmcState := issue env (.pageErase pageAddress)

def fmcWordProgram (address data : Word) : Proc Board FmcState :=
  issue env (.wordProgram address data)

def fmcUnlock : Proc Board Unit := Proc.modify fun b => { b with locked := false }

def fmcLock : Proc Board Unit := Proc.modify fun b => { b with locked := true }

/-- `malloc`, reduced to its success; the bootloader holds one block at a time. -/
def malloc : Proc Board Bool := fun b =>
  .done (env.malloc b.mallocs) { b with mallocs := b.mallocs + 1 }

/-- `usart_receive_with_timeout`: its time-out branch is commented out, so it returns 0. -/
def usartReceiveWithTimeout : Proc Board (Int × Byte) := fun b =>
  .done (0, env.uart b.received) { b with received := b.received + 1 }

def usartSend (buffer : List Byte) : Proc Board Unit :=
  Proc.modify fun b => { b with sent := b.sent ++ buffer }

variable {env}

@[simp] theorem malloc_bind {β : Type} (f : Bool → Proc Board β) (b : Board) :
    (malloc env >>= f) b = f (env.malloc b.mallocs) { b with mallocs := b.mallocs + 1 } := rfl

@[simp] theorem usartSend_bind {β : Type} (buffer : List Byte) (f : Unit → Proc Board β)
    (b : Board) : (usartSend buffer >>= f) b = f () { b with sent := b.sent ++ buffer } := rfl

end Operations

/-! ### Sequences of operations -/

/-- Issue operations in order, up to the first that is not reported ready. -/
def issueAll (env : Environment) : List FlashOp → Proc Board FmcState
  | [] => pure .ready
  | op :: ops => do
      let st ← issue env op
      if st = .ready then issueAll env ops else pure st

/-- The flash after operations whose first is number `k` of the boot. -/
def Environment.replay (env : Environment) : Nat → List FlashOp → Memory → Memory
  | _, [], m => m
  | k, op :: ops, m => env.replay (k + 1) ops ((env.answer k).apply op m)

/-- The board after operations have been issued. -/
def Board.after (env : Environment) (b : Board) (ops : List FlashOp) : Board :=
  { b with
    flash := env.replay b.clock ops b.flash
    journal := b.journal ++ ops }

@[simp] theorem Board.after_nil (env : Environment) (b : Board) : b.after env [] = b := by
  simp [Board.after, Environment.replay]

theorem Board.after_cons (env : Environment) (b : Board) (op : FlashOp) (ops : List FlashOp) :
    b.after env (op :: ops) = (b.after env [op]).after env ops := by
  simp [Board.after, Environment.replay, Board.clock]

/-- The first `n` operations from number `k` on were powered and reported ready. -/
def Environment.Smooth (env : Environment) (k n : Nat) : Prop :=
  ∀ i < n, env.power (k + i) = true ∧ (env.answer (k + i)).state = .ready

private theorem smooth_succ {env : Environment} {k n : Nat}
    (now : env.power k = true ∧ (env.answer k).state = .ready) (rest : env.Smooth (k + 1) n) :
    env.Smooth k (n + 1) := by
  intro i hi
  cases i with
  | zero => exact now
  | succ i =>
    have h := rest i (by omega)
    rwa [show k + 1 + i = k + (i + 1) by omega] at h

/-- How a sequence of operations ends: all are ready, or one is not and is the last. -/
def Ended (env : Environment) (b : Board) (ops : List FlashOp) (st : FmcState) (s : Board) :
    Prop :=
  (st = .ready ∧ s = b.after env ops ∧ env.Smooth b.clock ops.length) ∨
    ∃ k < ops.length, st ≠ .ready ∧ s = b.after env (ops.take (k + 1)) ∧
      env.Smooth b.clock k ∧ env.power (b.clock + k) = true ∧
      (env.answer (b.clock + k)).state = st

/-- Where a sequence of operations can be cut: before one of them, all earlier ones ready. -/
def CutBefore (env : Environment) (b : Board) (ops : List FlashOp) (s : Board) : Prop :=
  ∃ k < ops.length, s = b.after env (ops.take k) ∧ env.Smooth b.clock k ∧
    env.power (b.clock + k) = false

private theorem clock_after_singleton (env : Environment) (b : Board) (op : FlashOp) :
    (b.after env [op]).clock = b.clock + 1 := by
  simp [Board.after, Board.clock]

private theorem ended_cons {env : Environment} {b s : Board} {op : FlashOp}
    {ops : List FlashOp} {st : FmcState}
    (now : env.power b.clock = true ∧ (env.answer b.clock).state = .ready)
    (h : Ended env (b.after env [op]) ops st s) : Ended env b (op :: ops) st s := by
  rcases h with ⟨hst, hs, smooth⟩ | ⟨k, hk, hst, hs, smooth, hp, ha⟩
  · rw [clock_after_singleton] at smooth
    refine Or.inl ⟨hst, ?_, smooth_succ now smooth⟩
    rw [hs]
    exact (Board.after_cons env b op ops).symm
  · rw [clock_after_singleton] at smooth hp ha
    have next : b.clock + (k + 1) = b.clock + 1 + k := by omega
    refine Or.inr ⟨k + 1, by simpa using hk, hst, ?_, smooth_succ now smooth, ?_, ?_⟩
    · rw [hs, List.take_succ_cons]
      exact (Board.after_cons env b op _).symm
    · rwa [next]
    · rwa [next]

private theorem cutBefore_cons {env : Environment} {b s : Board} {op : FlashOp}
    {ops : List FlashOp} (now : env.power b.clock = true ∧ (env.answer b.clock).state = .ready)
    (h : CutBefore env (b.after env [op]) ops s) : CutBefore env b (op :: ops) s := by
  obtain ⟨k, hk, hs, smooth, hp⟩ := h
  rw [clock_after_singleton] at smooth hp
  refine ⟨k + 1, by simpa using hk, ?_, smooth_succ now smooth, ?_⟩
  · rw [hs, List.take_succ_cons]
    exact (Board.after_cons env b op _).symm
  · rwa [show b.clock + (k + 1) = b.clock + 1 + k by omega]

theorem issueAll_sat (env : Environment) (ops : List FlashOp) (b : Board) :
    (issueAll env ops b).Sat (Ended env b ops) (CutBefore env b ops) := by
  induction ops generalizing b with
  | nil => exact Or.inl ⟨rfl, by simp, fun i hi => absurd hi (by simp)⟩
  | cons op ops ih =>
    rw [issueAll, bind_apply]
    cases power : env.power b.clock with
    | false =>
      rw [issue, if_neg (by simp [power])]
      exact ⟨0, by simp, by simp, fun i hi => absurd hi (by omega), power⟩
    | true =>
      have issued : issue env op b =
          .done (env.answer b.clock).state (b.after env [op]) := by
        rw [issue, if_pos power]
        rfl
      rw [issued]
      dsimp only
      by_cases good : (env.answer b.clock).state = .ready
      · rw [if_pos good]
        exact (ih (b.after env [op])).mono (fun _ _ => ended_cons ⟨power, good⟩)
          (fun _ => cutBefore_cons ⟨power, good⟩)
      · rw [if_neg good]
        exact Or.inr ⟨0, by simp, good, by simp, fun i hi => absurd hi (by omega), power, rfl⟩

/-! ### Environments -/

/-- The same environment with power that lasts. -/
def Environment.steady (env : Environment) : Environment := { env with power := fun _ => true }

/-- Power that lasts is lost at no operation. -/
theorem Environment.lasting {env : Environment} (power : ∀ k, env.power k = true) (k : Nat) :
    env.power k ≠ false := by
  rw [power]
  decide

/-- The environment whose outcomes are numbered from a board on. -/
def Environment.startingAt (env : Environment) (b : Board) : Environment where
  power k := env.power (k - b.clock)
  answer k := env.answer (k - b.clock)
  malloc k := env.malloc (k - b.mallocs)
  uart k := env.uart (k - b.received)

@[simp] theorem Environment.startingAt_answer (env : Environment) (b : Board) (k : Nat) :
    (env.startingAt b).answer (b.clock + k) = env.answer k := by
  simp [startingAt]

@[simp] theorem Environment.startingAt_malloc (env : Environment) (b : Board) (k : Nat) :
    (env.startingAt b).malloc (b.mallocs + k) = env.malloc k := by
  simp [startingAt]

/-- Everything succeeds, and the UART carries the given bytes. -/
def Environment.flawless (uart : Nat → Byte) : Environment where
  power _ := true
  answer _ := .success
  malloc _ := true
  uart := uart

/-- Flash operations and allocations succeed; power may still go at any operation. -/
structure Environment.Succeeds (env : Environment) : Prop where
  answer : ∀ k, env.answer k = .success
  malloc : ∀ k, env.malloc k = true

/-- Everything succeeds, and power lasts for `k` operations. -/
def Environment.poweredFor (uart : Nat → Byte) (k : Nat) : Environment :=
  { flawless uart with power := fun i => decide (i < k) }

theorem Environment.poweredFor_succeeds (uart : Nat → Byte) (k : Nat) :
    (poweredFor uart k).Succeeds :=
  ⟨fun _ => rfl, fun _ => rfl⟩

theorem Environment.flawless_succeeds (uart : Nat → Byte) : (flawless uart).Succeeds :=
  ⟨fun _ => rfl, fun _ => rfl⟩

theorem Environment.Succeeds.replay {env : Environment} (ok : env.Succeeds) (k : Nat)
    (ops : List FlashOp) (m : Memory) :
    env.replay k ops m = ops.foldl (fun m op => op.apply m) m := by
  induction ops generalizing k m with
  | nil => rfl
  | cons op ops ih =>
    rw [Environment.replay, ih, ok.answer]
    rfl

theorem Environment.Succeeds.ended {env : Environment} (ok : env.Succeeds) {b s : Board}
    {ops : List FlashOp} {st : FmcState} (h : Ended env b ops st s) :
    st = .ready ∧ s = b.after env ops := by
  rcases h with ⟨hst, hs, -⟩ | ⟨k, -, hst, -, -, -, ha⟩
  · exact ⟨hst, hs⟩
  · rw [ok.answer] at ha
    exact absurd ha.symm hst

end BmsFirmware.Flash.Controller
