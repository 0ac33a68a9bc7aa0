/- Module: BmsFirmware/Flash/Systick
   Source: application/common/src/systick.c, application/common/inc/systick.h, Makefile
   Digest: Parameter words and firmware pages, as bootloader and application write them. -/

import BmsFirmware.Flash.Controller

set_option autoImplicit false
set_option relaxedAutoImplicit false

namespace BmsFirmware.Flash.Systick

open BmsFirmware.Library.ByteMemory
open BmsFirmware.Library.PowerLogic
open BmsFirmware.Flash.Controller

/-! ### Build constants -/

def upgradeFlagAddress : Word := 0x08078000
def upgradeCrc32Address : Word := 0x08078008
def upgradeApplicationTypeAddress : Word := 0x08078800

def UPGRADESTART : Word := 0x1000
def UPGRADESTOP : Word := 0x2000

/-! ### Parameter words -/

def readApplicationType : Proc Board Word :=
  fun b => .done (wordAt b.flash upgradeApplicationTypeAddress.toNat) b

def readApplicationCrc : Proc Board Word :=
  fun b => .done (wordAt b.flash upgradeCrc32Address.toNat) b

/-- The returned status is always 0; the flag goes to the caller's structure. -/
def upgradeReadFlag : Proc Board (Int × Word) :=
  fun b => .done (0, wordAt b.flash upgradeFlagAddress.toNat) b

section Writers

variable (env : Environment)

/-- Erase the page holding the word, then program the word. -/
def upgradeFmcWriteData (address data : Word) : Proc Board FmcState := do
  fmcUnlock
  let state ← fmcPageErase env address
  if state ≠ .ready then
    fmcLock
    return state
  let state ← fmcWordProgram env address data
  if state ≠ .ready then
    fmcLock
    return state
  fmcLock
  return state

/-- Erase a page and program it from a buffer, word by word. -/
def upgradeWriteData (pbuf : Memory) (address : Word) : Proc Board Word := do
  fmcUnlock
  let fmcState ← fmcPageErase env address
  if fmcState ≠ .ready then
    fmcLock
    return fmcState.code
  let failed ← forLoop (pageSize / 4) fun i => do
    let fmcState ← fmcWordProgram env (address + BitVec.ofNat 32 (4 * i)) (wordAt pbuf (4 * i))
    if fmcState ≠ .ready then
      fmcLock
      return some fmcState.code
    return none
  match failed with
  | some code => return code
  | none =>
      fmcLock
      return 0

end Writers

/-! ### The writers as locked sequences of operations -/

/-- Unlock, issue operations up to the first failure, lock, and report. -/
def guarded (env : Environment) (ops : List FlashOp) : Proc Board FmcState := do
  fmcUnlock
  let st ← issueAll env ops
  fmcLock
  return st

def wordOps (address data : Word) : List FlashOp := [.pageErase address, .wordProgram address data]

/-- The programming of word `i` of a page from a buffer. -/
def pageWord (address : Word) (buf : Memory) (i : Nat) : FlashOp :=
  .wordProgram (address + BitVec.ofNat 32 (4 * i)) (wordAt buf (4 * i))

def pageOps (address : Word) (buf : Memory) : List FlashOp :=
  .pageErase address :: (List.range 512).map (pageWord address buf)

theorem upgradeFmcWriteData_eq (env : Environment) (address data : Word) :
    upgradeFmcWriteData env address data = guarded env (wordOps address data) := by
  simp only [upgradeFmcWriteData, guarded, wordOps, issueAll, fmcPageErase, fmcWordProgram,
    bind_assoc]
  apply bind_congr
  intro _
  apply bind_congr
  intro st
  by_cases erased : st = .ready
  · simp only [erased, ne_eq, not_true, if_false, if_true, bind_assoc]
    apply bind_congr
    intro st
    by_cases programmed : st = .ready <;> simp [programmed]
  · simp [erased]

/-- A loop that locks and returns `failure` at the first failing operation issues its
operations in order. -/
theorem issueLoop_eq {β : Type} (env : Environment) (op : Nat → FlashOp) (failure : FmcState → β)
    (success : β) {finish : Option β → Proc Board β}
    (failed : ∀ code, finish (some code) = pure code)
    (passed : finish none = do
      fmcLock
      return success) (n i : Nat) :
    (loopFrom (fun i => do
        let fmcState ← issue env (op i)
        if fmcState ≠ .ready then
          fmcLock
          return some (failure fmcState)
        return none) n i >>= finish) =
      (do
        let st ← issueAll env ((List.range' i n).map op)
        fmcLock
        return if st = .ready then success else failure st) := by
  induction n generalizing i with
  | zero => simp [loopFrom, issueAll, passed]
  | succ n ih =>
    simp only [loopFrom, List.range'_succ, List.map_cons, issueAll, bind_assoc]
    apply bind_congr
    intro st
    by_cases done : st = .ready
    · simp only [done, ne_eq, not_true, if_false, if_true, pure_bind]
      exact ih (i + 1)
    · simp [done, failed]

private theorem code_of_ready (st : FmcState) : (if st = .ready then 0 else st.code) = st.code := by
  cases st <;> rfl

theorem upgradeWriteData_eq (env : Environment) (pbuf : Memory) (address : Word) :
    upgradeWriteData env pbuf address = (do
      let st ← guarded env (pageOps address pbuf)
      return st.code) := by
  simp only [upgradeWriteData, guarded, pageOps, issueAll, fmcPageErase, bind_assoc]
  apply bind_congr
  intro _
  apply bind_congr
  intro st
  by_cases erased : st = .ready
  · simp only [erased, ne_eq, not_true, if_false, if_true, pure_bind, List.range_eq_range']
    refine Eq.trans (issueLoop_eq env (pageWord address pbuf) FmcState.code 0 ?_ ?_ 512 0) ?_
    · exact fun _ => rfl
    · rfl
    · simp only [code_of_ready]
  · simp [erased]

end BmsFirmware.Flash.Systick
