/- Module: BmsFirmware/Upgrade/Bank
   Source: application/upgrade/boot.c, ldscripts/gd32f303_app_flash.ld, Makefile
   Digest: The block loop stays in the application bank exactly up to 112 blocks. -/

import BmsFirmware.Upgrade.BlockLoop

set_option autoImplicit false
set_option relaxedAutoImplicit false

namespace BmsFirmware.Upgrade.Bank

open BmsFirmware.Library.ByteMemory
open BmsFirmware.Library.PowerLogic
open BmsFirmware.Flash.Controller
open BmsFirmware.Flash.Systick
open BmsFirmware.Flash.PageImage
open BmsFirmware.Upgrade.Boot
open BmsFirmware.Upgrade.BlockWriter
open BmsFirmware.Upgrade.BlockLoop

/-- The application region of the flash map, 112 pages. -/
def bankFirst : Nat := 0x08008000
def bankEnd : Nat := 0x08040000

def InBank (op : FlashOp) : Prop := bankFirst ≤ op.first ∧ op.first + op.extent ≤ bankEnd

/-- Every operation the run issues lies in the bank, and nothing outside it changes. -/
def StaysInBank (env : Environment) (b : Board) : Prop :=
  ∃ ops, (upgradeRun env b).state.journal = b.journal ++ ops ∧ (∀ op ∈ ops, InBank op) ∧
    ∀ x, x < bankFirst ∨ bankEnd ≤ x → (upgradeRun env b).state.flash x = b.flash x

private theorem pageOps_inBank {a : Word} (aligned : PageAligned a)
    (low : bankFirst ≤ a.toNat) (high : a.toNat + pageSize ≤ bankEnd) (buf : Memory) :
    ∀ op ∈ pageOps a buf, InBank op := by
  intro op hop
  obtain ⟨first, last⟩ := pageOps_within aligned buf op hop
  exact ⟨Nat.le_trans low first, Nat.le_trans last high⟩

private theorem blockOps_inBank {start : Board} (initial : start.appAddress = appAddress)
    {j : Nat} (small : j < 112) (buf : Memory) :
    ∀ op ∈ blockOps (blockAddress start j) buf, InBank op := by
  have early : j < wrapBlock := by
    unfold wrapBlock
    omega
  have address := blockAddress_toNat initial (Nat.le_of_lt early)
  have base : appAddress.toNat = bankFirst := rfl
  have aligned : PageAligned (blockAddress start j) :=
    blockAddress_aligned (by rw [initial]; decide) j
  rw [blockOps_before_wrap initial early]
  rw [base] at address
  refine pageOps_inBank aligned (by omega) ?_ buf
  rw [address]
  unfold bankFirst bankEnd pageSize
  omega

/-! ### What the run has done so far -/

/-- Since the start only operations in the bank, and no change outside it. -/
def Confined (start : Board) (flash : Memory) (journal : List FlashOp) : Prop :=
  ∃ ops, journal = start.journal ++ ops ∧ (∀ op ∈ ops, InBank op) ∧
    ∀ x, x < bankFirst ∨ bankEnd ≤ x → flash x = start.flash x

private theorem Confined.begun {start b s : Board} {env : Environment} {ops : List FlashOp}
    (h : Confined start b.flash b.journal) (inside : ∀ op ∈ ops, InBank op)
    (begun : Begun env b ops s) : Confined start s.flash s.journal := by
  obtain ⟨done, journal, all, frame⟩ := h
  obtain ⟨part, pre, journal', flash⟩ := begun
  refine ⟨done ++ part, by rw [journal', journal, List.append_assoc], ?_, ?_⟩
  · intro op hop
    rcases List.mem_append.mp hop with old | new
    · exact all op old
    · exact inside op (pre.subset new)
  · intro x hx
    rw [flash, replay_outside, frame x hx]
    intro op hop
    have bounds := inside op (pre.subset hop)
    unfold InBank at bounds
    omega

/-- The pages of the first `j` blocks have been erased since the start. -/
def ErasedSoFar (start : Board) (j : Nat) (journal : List FlashOp) : Prop :=
  ∃ ops, journal = start.journal ++ ops ∧
    ∀ i < j, FlashOp.pageErase (blockAddress start i) ∈ ops

private theorem blockOps_head (a : Word) (buf : Memory) :
    ∃ rest, blockOps a buf = .pageErase a :: rest := by
  unfold blockOps
  split_ifs
  · exact ⟨[], rfl⟩
  · exact ⟨_, rfl⟩

/-- With power, a locked sequence issues at least its first operation. -/
private theorem guarded_first {env : Environment} (power : ∀ k, env.power k = true)
    (op : FlashOp) (rest : List FlashOp) (b : Board) :
    (guarded env (op :: rest) b).Sat
      (fun _ s => ∃ part, s.journal = b.journal ++ part ∧ op ∈ part) (fun _ => False) := by
  refine (guarded_sat env (op :: rest) b).mono ?_ ?_
  · rintro st s ⟨t, ⟨-, rfl, -⟩ | ⟨k, -, -, rfl, -⟩, rfl⟩
    · exact ⟨op :: rest, rfl, List.mem_cons_self⟩
    · exact ⟨(op :: rest).take (k + 1), rfl, by simp⟩
  · rintro s ⟨t, ⟨k, -, -, -, lost⟩, -⟩
    exact Environment.lasting power _ lost

/-- Up to 112 blocks, or as many as allocations last, the run stays in the bank. -/
private theorem stays (env : Environment) (b : Board) (initial : b.appAddress = appAddress)
    (few : (blockCount env b.received).toNat ≤ 112 ∨
      ∃ k ≤ 112, env.malloc (b.mallocs + k) = false) : StaysInBank env b := by
  have aligned := announced_aligned env initial
  have loop := blockLoop_sat env (announced env b) (n := (blockCount env b.received).toNat)
    (K := fun _ f l => Confined b f l) (C := fun f l => Confined b f l) aligned
    (show Confined b b.flash b.journal from
      ⟨[], by simp, by simp, fun _ _ => rfl⟩) ?_
  · exact (upgradeRun_sat (loop.mono (fun _ _ ⟨_, _, h, _⟩ => h) fun _ h => h)).stopped
  · intro j hj granted s hs
    have small : j < 112 := by
      rcases few with count | ⟨k, hk, refused⟩
      · omega
      · by_contra large
        have := granted k (by omega)
        change env.malloc (b.mallocs + k) = true at this
        rw [refused] at this
        exact absurd this (by decide)
    have first : (announced env b).appAddress = appAddress := initial
    have inside := blockOps_inBank first small
      (blockData env (announced env b) j)
    exact (guarded_begun env _ s).mono (fun _ _ h => hs.begun inside h)
      fun _ h => hs.begun inside h

/-- A 113th allocated block erases the first page of the backup region. -/
private theorem leaves (env : Environment) (b : Board) (initial : b.appAddress = appAddress)
    (many : 112 < (blockCount env b.received).toNat)
    (granted : ∀ k ≤ 112, env.malloc (b.mallocs + k) = true)
    (power : ∀ k, env.power k = true) : ¬StaysInBank env b := by
  have aligned := announced_aligned env initial
  have loop := blockLoop_sat env (announced env b) (n := (blockCount env b.received).toNat)
    (K := fun j _ l => ErasedSoFar (announced env b) j l) (C := fun _ _ => False) aligned
    ⟨[], by simp, fun i hi => absurd hi (Nat.not_lt_zero i)⟩ ?_
  · have erased : ∃ ops, (upgradeRun env b).state.journal = b.journal ++ ops ∧
        FlashOp.pageErase (blockAddress (announced env b) 112) ∈ ops := by
      refine (upgradeRun_sat (loop.mono ?_ ?_)).stopped (P := fun s =>
        ∃ ops, s.journal = b.journal ++ ops ∧
          FlashOp.pageErase (blockAddress (announced env b) 112) ∈ ops)
      · rintro _ s ⟨j, -, ⟨ops, journal, all⟩, -, -, refused⟩
        refine ⟨ops, journal, all 112 ?_⟩
        by_contra early
        have := refused (by omega)
        change env.malloc (b.mallocs + j) = false at this
        rw [granted j (by omega)] at this
        exact absurd this (by decide)
      · exact fun _ h => h.elim
    rintro ⟨ops, journal, inside, -⟩
    obtain ⟨ops', journal', member⟩ := erased
    obtain rfl : ops = ops' := List.append_cancel_left (journal.symm.trans journal')
    have bounds := inside _ member
    have first : (announced env b).appAddress = appAddress := initial
    have address := blockAddress_toNat first (show 112 ≤ wrapBlock by unfold wrapBlock; omega)
    have base : appAddress.toNat = bankFirst := rfl
    have page : PageAligned (blockAddress (announced env b) 112) :=
      blockAddress_aligned aligned 112
    rw [InBank, page.erase_first, address, base] at bounds
    have extent : (FlashOp.pageErase (blockAddress (announced env b) 112)).extent = 2048 := rfl
    unfold bankFirst bankEnd pageSize at bounds
    omega
  · rintro j hj - s ⟨ops, journal, all⟩
    obtain ⟨rest, split⟩ := blockOps_head (blockAddress (announced env b) j)
      (blockData env (announced env b) j)
    rw [split]
    refine (guarded_first power _ rest s).mono ?_ fun _ h => h
    rintro _ t ⟨part, journal', first⟩
    refine ⟨ops ++ part, by rw [journal', journal, List.append_assoc], ?_⟩
    intro i hi
    rcases Nat.lt_succ_iff_lt_or_eq.mp hi with before | rfl
    · exact List.mem_append_left part (all i before)
    · exact List.mem_append_right ops first

/-- With power, the run stays in the application bank exactly when the host announces at
most 112 blocks or one of the first 113 allocations is refused. -/
theorem upgradeRun_staysInBank_iff (env : Environment) (b : Board)
    (initial : b.appAddress = appAddress) :
    StaysInBank (env.steady) b ↔
      (blockCount env b.received).toNat ≤ 112 ∨
        ∃ k ≤ 112, env.malloc (b.mallocs + k) = false := by
  constructor
  · intro inside
    by_contra beyond
    have granted (k : Nat) (hk : k ≤ 112) : env.malloc (b.mallocs + k) = true := by
      cases h : env.malloc (b.mallocs + k) with
      | true => rfl
      | false => exact absurd (Or.inr ⟨k, hk, h⟩) beyond
    exact leaves env.steady b initial (by
      change 112 < (blockCount env b.received).toNat
      omega) granted (fun _ => rfl) inside
  · exact stays (env.steady) b initial

/-! ### A host that announces some blocks -/

/-- A host that announces `n` blocks to a board on which everything succeeds. -/
def announcing (n : Byte) : Environment := .flawless (ofList [0, 0, 0, n])

/-- A blank flash. -/
def blankFlash : Memory := fun _ => 0xFF

theorem upgradeRun_staysInBank_three :
    StaysInBank ((announcing 3).steady) (powerOn blankFlash) :=
  (upgradeRun_staysInBank_iff (announcing 3) (powerOn blankFlash) rfl).mpr
    (Or.inl (by decide))

/-- A host that announces 113 blocks takes the run out of the bank. -/
theorem upgradeRun_leavesBank :
    ¬StaysInBank ((announcing 113).steady) (powerOn blankFlash) :=
  leaves ((announcing 113).steady) (powerOn blankFlash) rfl (by decide) (fun _ _ => rfl)
    fun _ => rfl

end BmsFirmware.Upgrade.Bank
