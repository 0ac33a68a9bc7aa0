/- Module: BmsFirmware/Flash/PageImage
   Source: application/common/src/systick.c
   Digest: What the locked writers leave in the flash, at their end and at every cut. -/

import BmsFirmware.Flash.Systick

set_option autoImplicit false
set_option relaxedAutoImplicit false

namespace BmsFirmware.Flash.PageImage

open BmsFirmware.Library.ByteMemory
open BmsFirmware.Library.PowerLogic
open BmsFirmware.Flash.Controller
open BmsFirmware.Flash.Systick

theorem guarded_sat (env : Environment) (ops : List FlashOp) (b : Board) :
    (guarded env ops b).Sat
      (fun st s => ∃ t, Ended env b ops st t ∧ s = { t with locked := true })
      (fun s => ∃ t, CutBefore env b ops t ∧ s = { t with locked := false }) := by
  have h := issueAll_sat env ops { b with locked := false }
  change ((issueAll env ops >>= fun st => fmcLock >>= fun _ => pure st)
    { b with locked := false }).Sat _ _
  rw [bind_apply]
  cases run : issueAll env ops { b with locked := false } with
  | done st s =>
    rw [run] at h
    rcases h with ⟨hst, hs, smooth⟩ | ⟨k, hk, hst, hs, smooth, hp, ha⟩
    · exact ⟨b.after env ops, Or.inl ⟨hst, rfl, smooth⟩, by rw [hs]; rfl⟩
    · exact ⟨b.after env (ops.take (k + 1)), Or.inr ⟨k, hk, hst, rfl, smooth, hp, ha⟩,
        by rw [hs]; rfl⟩
  | cut s =>
    rw [run] at h
    obtain ⟨k, hk, hs, smooth, hp⟩ := h
    exact ⟨b.after env (ops.take k), ⟨k, hk, rfl, smooth, hp⟩, by rw [hs]; rfl⟩

/-- Nothing but the flash, its journal and the lock has changed. -/
def FlashOnly (b s : Board) : Prop :=
  s = { b with flash := s.flash, journal := s.journal, locked := s.locked }

theorem guarded_flashOnly (env : Environment) (ops : List FlashOp) (b : Board) :
    (guarded env ops b).Sat (fun _ s => FlashOnly b s) (FlashOnly b) := by
  refine (guarded_sat env ops b).mono ?_ ?_
  · rintro st s ⟨t, ⟨-, rfl, -⟩ | ⟨k, -, -, rfl, -⟩, rfl⟩ <;> rfl
  · rintro s ⟨t, ⟨k, -, rfl, -⟩, rfl⟩
    rfl

/-- With power a locked sequence is never cut. -/
theorem guarded_powered {env : Environment} (power : ∀ k, env.power k = true)
    (ops : List FlashOp) (b : Board) :
    (guarded env ops b).Sat (fun st s => FlashOnly b s ∧
      ∃ t, Ended env b ops st t ∧ s = { t with locked := true }) (fun _ => False) := by
  refine ((guarded_flashOnly env ops b).and (guarded_sat env ops b)).mono
    (fun _ _ h => h) ?_
  rintro s ⟨-, t, ⟨k, -, -, -, lost⟩, -⟩
  exact Environment.lasting power _ lost

theorem replay_outside {env : Environment} {ops : List FlashOp} {x : Nat}
    (away : ∀ op ∈ ops, x < op.first ∨ op.first + op.extent ≤ x) (k : Nat) (m : Memory) :
    env.replay k ops m x = m x := by
  induction ops generalizing k m with
  | nil => rfl
  | cons op ops ih =>
    rw [Environment.replay, ih fun o ho => away o (List.mem_cons_of_mem op ho)]
    exact fill_outside (away op List.mem_cons_self)

/-- Part of a sequence has been issued, from its beginning. -/
def Begun (env : Environment) (b : Board) (ops : List FlashOp) (s : Board) : Prop :=
  ∃ part, part <+: ops ∧ s.journal = b.journal ++ part ∧
    s.flash = env.replay b.clock part b.flash

theorem guarded_begun (env : Environment) (ops : List FlashOp) (b : Board) :
    (guarded env ops b).Sat (fun _ s => Begun env b ops s) (Begun env b ops) := by
  refine (guarded_sat env ops b).mono ?_ ?_
  · rintro st s ⟨t, ⟨-, rfl, -⟩ | ⟨k, -, -, rfl, -⟩, rfl⟩
    · exact ⟨ops, List.prefix_refl ops, rfl, rfl⟩
    · exact ⟨ops.take (k + 1), List.take_prefix _ _, rfl, rfl⟩
  · rintro s ⟨t, ⟨k, -, rfl, -⟩, rfl⟩
    exact ⟨ops.take k, List.take_prefix _ _, rfl, rfl⟩

/-! ### Pages -/

/-- The address of a whole page. -/
def PageAligned (a : Word) : Prop := a.toNat % pageSize = 0

instance (a : Word) : Decidable (PageAligned a) :=
  inferInstanceAs (Decidable (a.toNat % pageSize = 0))

theorem PageAligned.room {a : Word} (h : PageAligned a) : a.toNat + pageSize ≤ 2 ^ 32 := by
  have bound := a.isLt
  unfold PageAligned pageSize at *
  omega

theorem PageAligned.erase_first {a : Word} (h : PageAligned a) :
    (FlashOp.pageErase a).first = a.toNat := by
  unfold PageAligned at h
  exact Nat.div_mul_cancel (Nat.dvd_of_mod_eq_zero h)

/-- A page of which `k` operations of its write have been done: none, or the erase and
then the words one by one. -/
def partialPage (m : Memory) (base : Nat) (buf : Memory) : Nat → Memory
  | 0 => m
  | k + 1 => fill (fill m base pageSize fun _ => 0xFF) base (4 * k) buf

theorem partialPage_full (m : Memory) (base : Nat) (buf : Memory) :
    partialPage m base buf 513 = fill m base pageSize buf :=
  fill_absorb m base pageSize pageSize buf _ (Nat.le_refl _)

theorem partialPage_outside {m buf : Memory} {base k x : Nat} (within : k ≤ 513)
    (away : x < base ∨ base + pageSize ≤ x) : partialPage m base buf k x = m x := by
  unfold pageSize at away
  cases k with
  | zero => rfl
  | succ k =>
    rw [partialPage, fill_outside (by omega), fill_outside (by unfold pageSize; omega)]

private theorem pageWord_apply {a : Word} (aligned : PageAligned a) (m buf : Memory) (k : Nat)
    (bound : k < 512) :
    (pageWord a buf k).apply (fill m a.toNat (4 * k) buf) = fill m a.toNat (4 * (k + 1)) buf := by
  have room := aligned.room
  have start : (pageWord a buf k).first = a.toNat + 4 * k := by
    simp only [pageWord, FlashOp.first, BitVec.toNat_add, BitVec.toNat_ofNat]
    unfold pageSize at room
    omega
  rw [FlashOp.apply, start]
  exact fill_extend m a.toNat (4 * k) 4 buf _ fun i hi => wordBytes_wordAt buf (4 * k) i hi

private theorem pageWords_apply {a : Word} (aligned : PageAligned a) (m buf : Memory) (k : Nat)
    (bound : k ≤ 512) :
    ((List.range k).map (pageWord a buf)).foldl (fun m op => op.apply m) m =
      fill m a.toNat (4 * k) buf := by
  induction k with
  | zero => simp
  | succ k ih =>
    rw [List.range_succ, List.map_append, List.foldl_append, ih (by omega)]
    exact pageWord_apply aligned m buf k (by omega)

/-- The first `k` operations of a page write leave exactly the partial page. -/
theorem pageOps_apply {a : Word} (aligned : PageAligned a) (m buf : Memory) (k : Nat)
    (bound : k ≤ 513) :
    ((pageOps a buf).take k).foldl (fun m op => op.apply m) m =
      partialPage m a.toNat buf k := by
  cases k with
  | zero => rfl
  | succ k =>
    rw [pageOps, List.take_succ_cons, ← List.map_take, List.take_range, List.foldl_cons,
      Nat.min_eq_left (by omega), pageWords_apply aligned _ _ _ (by omega), partialPage]
    congr 1
    rw [FlashOp.apply, aligned.erase_first]
    rfl

@[simp] theorem length_pageOps (a : Word) (buf : Memory) : (pageOps a buf).length = 513 := by
  simp [pageOps]

/-- The operations of a page write touch nothing but the page. -/
theorem pageOps_within {a : Word} (aligned : PageAligned a) (buf : Memory) :
    ∀ op ∈ pageOps a buf, a.toNat ≤ op.first ∧ op.first + op.extent ≤ a.toNat + pageSize := by
  have room := aligned.room
  intro op hop
  rcases List.mem_cons.mp hop with rfl | hop
  · rw [aligned.erase_first]
    exact ⟨Nat.le_refl _, Nat.le_refl _⟩
  · obtain ⟨i, hi, rfl⟩ := List.mem_map.mp hop
    have bound := List.mem_range.mp hi
    have first : (pageWord a buf i).first = a.toNat + 4 * i := by
      simp only [pageWord, FlashOp.first, BitVec.toNat_add, BitVec.toNat_ofNat]
      unfold pageSize at room
      omega
    have extent : (pageWord a buf i).extent = 4 := rfl
    rw [first, extent]
    unfold pageSize
    omega

/-! ### Parameter words -/

/-- A parameter word of which `k` operations of its write have been done. -/
def partialWord (m : Memory) (a d : Word) (k : Nat) : Memory :=
  ((wordOps a d).take k).foldl (fun m op => op.apply m) m

/-- A parameter write touches only the page of the word. -/
theorem partialWord_outside {m : Memory} {a d : Word} {k x : Nat}
    (away : x / pageSize ≠ a.toNat / pageSize) (fits : a.toNat % pageSize + 4 ≤ pageSize) :
    partialWord m a d k x = m x := by
  have erase (m : Memory) : (FlashOp.pageErase a).apply m x = m x := by
    apply fill_outside
    simp only [FlashOp.first, FlashOp.extent]
    unfold pageSize at *
    omega
  have program (m : Memory) : (FlashOp.wordProgram a d).apply m x = m x := by
    apply fill_outside
    simp only [FlashOp.first, FlashOp.extent]
    unfold pageSize at *
    omega
  match k with
  | 0 => rfl
  | 1 => exact erase m
  | k + 2 =>
    rw [partialWord, List.take_of_length_le (by simp [wordOps])]
    exact (program _).trans (erase m)

theorem partialWord_full (m : Memory) (a d : Word) : wordAt (partialWord m a d 2) a.toNat = d :=
  wordAt_fill _ _ _

/-- Between erase and program the word reads as all ones. -/
theorem partialWord_erased {m : Memory} {a d : Word}
    (fits : a.toNat % pageSize + 4 ≤ pageSize) :
    wordAt (partialWord m a d 1) a.toNat = 0xFFFFFFFF := by
  have blank (i : Nat) (h : i < 4) : partialWord m a d 1 (a.toNat + i) = 0xFF := by
    refine fill_inside ?_ ?_
    all_goals
      simp only [FlashOp.first, FlashOp.extent]
      unfold pageSize at *
      omega
  exact (wordAt_congr blank).trans (wordAt_ones a.toNat)

/-! ### The writers where operations succeed -/

/-- The board after successful operations. -/
def issued (b : Board) (ops : List FlashOp) (locked : Bool) : Board :=
  { b with
    flash := ops.foldl (fun m op => op.apply m) b.flash
    journal := b.journal ++ ops
    locked := locked }

/-- Power was there for `n` operations from number `k` on. -/
def Powered (env : Environment) (k n : Nat) : Prop := ∀ i < n, env.power (k + i) = true

theorem Powered.append {env : Environment} {c n m : Nat} (first : Powered env c n)
    (next : Powered env (c + n) m) : Powered env c (n + m) := by
  intro i hi
  by_cases early : i < n
  · exact first i early
  · have h := next (i - n) (by omega)
    rwa [show c + n + (i - n) = c + i by omega] at h

/-- A locked sequence ran through. -/
def Completed (env : Environment) (b : Board) (ops : List FlashOp) (s : Board) : Prop :=
  s = issued b ops true ∧ Powered env b.clock ops.length

/-- A locked sequence was cut before one of its operations. -/
def Interrupted (env : Environment) (b : Board) (ops : List FlashOp) (s : Board) : Prop :=
  ∃ k < ops.length, s = issued b (ops.take k) false ∧ Powered env b.clock k ∧
    env.power (b.clock + k) = false

theorem issued_clock (b : Board) (ops : List FlashOp) (locked : Bool) :
    (issued b ops locked).clock = b.clock + ops.length := by
  simp [issued, Board.clock]

theorem guarded_succeeds {env : Environment} (ok : env.Succeeds) (ops : List FlashOp)
    (b : Board) :
    (guarded env ops b).Sat (fun st s => st = .ready ∧ Completed env b ops s)
      (Interrupted env b ops) := by
  refine (guarded_sat env ops b).mono ?_ ?_
  · rintro st s ⟨t, ended, rfl⟩
    rcases ended with ⟨hst, rfl, smooth⟩ | ⟨k, -, hst, -, -, -, ha⟩
    · refine ⟨hst, ?_, fun i hi => (smooth i hi).1⟩
      simp only [Board.after, issued, ok.replay]
    · rw [ok.answer] at ha
      exact absurd ha.symm hst
  · rintro s ⟨t, ⟨k, hk, rfl, smooth, power⟩, rfl⟩
    refine ⟨k, hk, ?_, fun i hi => (smooth i hi).1, power⟩
    simp only [Board.after, issued, ok.replay]

theorem upgradeFmcWriteData_sat {env : Environment} (ok : env.Succeeds) (a d : Word)
    (b : Board) :
    (upgradeFmcWriteData env a d b).Sat
      (fun st s => st = .ready ∧ Completed env b (wordOps a d) s)
      (Interrupted env b (wordOps a d)) := by
  rw [upgradeFmcWriteData_eq]
  exact guarded_succeeds ok (wordOps a d) b

theorem upgradeWriteData_sat {env : Environment} (ok : env.Succeeds) (a : Word) (buf : Memory)
    (b : Board) :
    (upgradeWriteData env buf a b).Sat
      (fun code s => code = 0 ∧ Completed env b (pageOps a buf) s)
      (Interrupted env b (pageOps a buf)) := by
  have h := guarded_succeeds ok (pageOps a buf) b
  rw [upgradeWriteData_eq, bind_apply]
  cases run : guarded env (pageOps a buf) b with
  | done st s =>
    rw [run] at h
    obtain ⟨rfl, completed⟩ := h
    exact ⟨rfl, completed⟩
  | cut s =>
    rw [run] at h
    exact h

/-- A finished page write leaves the buffer in the page and nothing else changed. -/
theorem Completed.page {env : Environment} {b s : Board} {a : Word} {buf : Memory}
    (aligned : PageAligned a) (h : Completed env b (pageOps a buf) s) :
    s = { b with
      flash := fill b.flash a.toNat pageSize buf
      journal := b.journal ++ pageOps a buf
      locked := true } := by
  have image := pageOps_apply aligned b.flash buf 513 (Nat.le_refl _)
  rw [List.take_of_length_le (by simp), partialPage_full] at image
  rw [h.1, issued, image]

/-- A cut page write leaves a partial page. -/
theorem Interrupted.page {env : Environment} {b s : Board} {a : Word} {buf : Memory}
    (aligned : PageAligned a) (h : Interrupted env b (pageOps a buf) s) :
    ∃ k < 513, s.flash = partialPage b.flash a.toNat buf k ∧ s.clock = b.clock + k ∧
      Powered env b.clock k ∧ env.power (b.clock + k) = false := by
  obtain ⟨k, hk, rfl, powered, lost⟩ := h
  rw [length_pageOps] at hk
  refine ⟨k, hk, pageOps_apply aligned b.flash buf k (by omega), ?_, powered, lost⟩
  rw [issued_clock, List.length_take, length_pageOps]
  omega

/-- A finished parameter write. -/
theorem Completed.word {env : Environment} {b s : Board} {a d : Word}
    (h : Completed env b (wordOps a d) s) :
    s = { b with
      flash := partialWord b.flash a d 2
      journal := b.journal ++ wordOps a d
      locked := true } :=
  h.1

/-- A cut parameter write: untouched or erased. -/
theorem Interrupted.word {env : Environment} {b s : Board} {a d : Word}
    (h : Interrupted env b (wordOps a d) s) :
    s.flash = b.flash ∨ s.flash = partialWord b.flash a d 1 := by
  obtain ⟨k, hk, rfl, -, -⟩ := h
  match k, hk with
  | 0, _ => exact Or.inl rfl
  | 1, _ => exact Or.inr rfl

end BmsFirmware.Flash.PageImage
