/- Module: BmsFirmware/Upgrade/PageWriters
   Source: application/upgrade/boot.c, application/common/src/systick.c
   Digest: The page writer of the block loop and that of backup and recovery do the same. -/

import BmsFirmware.Flash.FirstFailure
import BmsFirmware.Upgrade.BlockWriter

set_option autoImplicit false
set_option relaxedAutoImplicit false

namespace BmsFirmware.Upgrade.PageWriters

open BmsFirmware.Library.ByteMemory
open BmsFirmware.Library.PowerLogic
open BmsFirmware.Flash.Controller
open BmsFirmware.Flash.FirstFailure
open BmsFirmware.Flash.Systick
open BmsFirmware.Flash.PageImage
open BmsFirmware.Upgrade.Boot
open BmsFirmware.Upgrade.BlockWriter

/-- What a page write leaves that returns a code. -/
structure Written (env : Environment) (a : Word) (buf : Memory) (b : Board) (code : Word)
    (s : Board) : Prop where
  locked : s.locked = true
  issued : ∃ ops, ops <+: pageOps a buf ∧ s.journal = b.journal ++ ops ∧
    (code = 0 ↔ ∀ k < ops.length, (env.answer (b.clock + k)).state = .ready)
  complete : code = 0 → s.journal = b.journal ++ pageOps a buf
  page : code = 0 → Honest env → ∀ k < pageSize, s.flash (a.toNat + k) = buf k
  others : ∀ x, x < a.toNat ∨ a.toNat + pageSize ≤ x → s.flash x = b.flash x

section Writers

variable {env : Environment} {a : Word} {buf : Memory} {b s : Board} {st : FmcState}

private theorem code_eq_zero : st.code = 0 ↔ st = .ready := by
  cases st <;> decide

private theorem after_flash {ops : List FlashOp} (after : s = b.after env ops) :
    s.flash = env.replay b.clock ops b.flash := by
  rw [after]
  rfl

private theorem others_kept (aligned : PageAligned a) {ops : List FlashOp}
    (part : ops <+: pageOps a buf) (k : Nat) (m : Memory) {x : Nat}
    (away : x < a.toNat ∨ a.toNat + pageSize ≤ x) : env.replay k ops m x = m x := by
  apply replay_outside
  intro op hop
  have within := pageOps_within aligned buf op (part.subset hop)
  omega

private theorem page_written (aligned : PageAligned a) (honest : Honest env) {k : Nat}
    (smooth : env.Smooth k (pageOps a buf).length) (m : Memory) {i : Nat} (inside : i < pageSize) :
    env.replay k (pageOps a buf) m (a.toNat + i) = buf i := by
  have image := pageOps_apply aligned m buf 513 (Nat.le_refl _)
  rw [List.take_of_length_le (by simp), partialPage_full] at image
  rw [honest.replay fun k low => (smooth k low).2, image, fill_inside (by omega) (by omega),
    Nat.add_sub_cancel_left]

/-- What the ends of a locked page write leave. -/
private theorem written_of_ended (aligned : PageAligned a)
    (ended : Ended env b (pageOps a buf) st s) :
    Written env a buf b st.code { s with locked := true } := by
  rcases ended with ⟨rfl, after, smooth⟩ | ⟨k, bound, failed, after, smooth, -, answer⟩
  · have flash := after_flash after
    have journal : s.journal = b.journal ++ pageOps a buf := by rw [after]; rfl
    refine
      { locked := rfl
        issued := ⟨_, List.prefix_refl _, journal, iff_of_true rfl fun k hk => (smooth k hk).2⟩
        complete := fun _ => journal
        page := fun _ honest i inside => ?_
        others := fun x away => ?_ }
    · exact (congrFun flash _).trans (page_written aligned honest smooth b.flash inside)
    · exact (congrFun flash x).trans (others_kept aligned (List.prefix_refl _) _ _ away)
  · have flash := after_flash after
    have journal : s.journal = b.journal ++ (pageOps a buf).take (k + 1) := by rw [after]; rfl
    have nonzero : st.code ≠ 0 := fun zero => failed (code_eq_zero.mp zero)
    have part : (pageOps a buf).take (k + 1) <+: pageOps a buf := List.take_prefix _ _
    have last : k < ((pageOps a buf).take (k + 1)).length := by
      rw [List.length_take]
      omega
    exact
      { locked := rfl
        issued := ⟨_, part, journal,
          iff_of_false nonzero fun ready => failed (answer ▸ ready k last)⟩
        complete := fun zero => absurd zero nonzero
        page := fun zero => absurd zero nonzero
        others := fun x away => (congrFun flash x).trans (others_kept aligned part _ _ away) }

private theorem multiple_eq_guarded (aligned : PageAligned a) (below : a < lastPage) :
    upgradeFmcWriteMultipleData env a buf (BitVec.ofNat 32 pageSize) =
      guarded env (pageOps a buf) := by
  rw [upgradeFmcWriteMultipleData_eq env aligned, blockOps, if_neg (BitVec.ne_of_lt below)]

variable (env buf) in
/-- Both writers issue the same operations, leave the same board and return the same code,
and a call that returns has written the page unless an operation has failed. -/
theorem pageWriters_agree (aligned : PageAligned a) (below : a < lastPage) (b : Board) :
    upgradeWriteData env buf a b = (do
      let st ← upgradeFmcWriteMultipleData env a buf (BitVec.ofNat 32 pageSize)
      return st.code) b ∧
    (upgradeFmcWriteMultipleData env a buf (BitVec.ofNat 32 pageSize) b).Sat
      (fun st s => Written env a buf b st.code s) (fun _ => ∃ k, env.power k = false) := by
  rw [multiple_eq_guarded aligned below]
  refine ⟨by rw [upgradeWriteData_eq], (guarded_sat env (pageOps a buf) b).mono ?_ ?_⟩
  · rintro st s ⟨t, ended, rfl⟩
    exact written_of_ended aligned ended
  · rintro s ⟨t, ⟨k, -, -, -, lost⟩, -⟩
    exact ⟨_, lost⟩

end Writers

theorem pageWriters_agree_application :
    upgradeWriteData (.flawless fun _ => 0) (fun _ => 0) appAddress (powerOn fun _ => 0) = (do
      let st ← upgradeFmcWriteMultipleData (.flawless fun _ => 0) appAddress (fun _ => 0)
        (BitVec.ofNat 32 pageSize)
      return st.code) (powerOn fun _ => 0) :=
  (pageWriters_agree (.flawless fun _ => 0) (fun _ => 0) (by decide) (by decide)
    (powerOn fun _ => 0)).1

end BmsFirmware.Upgrade.PageWriters
