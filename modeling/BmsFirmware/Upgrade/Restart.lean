/- Module: BmsFirmware/Upgrade/Restart
   Source: application/upgrade/boot.c
   Digest: A recovery may be cut any number of times and is taken up again until it is done. -/

import BmsFirmware.Upgrade.PowerFail

set_option autoImplicit false
set_option relaxedAutoImplicit false

namespace BmsFirmware.Upgrade.Restart

open BmsFirmware.Library.ByteMemory
open BmsFirmware.Library.PowerLogic
open BmsFirmware.Flash.Controller
open BmsFirmware.Flash.Systick
open BmsFirmware.Flash.PageImage
open BmsFirmware.Upgrade.Boot
open BmsFirmware.Upgrade.FirmwareImage
open BmsFirmware.Upgrade.PowerFail

/-- The branch of `handle_upgrade` that recovers. -/
def recoveryBranch (env : Environment) : Proc Board BootExit := do
  upgradeApplicationRecover env
  let _ ← upgradeFmcWriteData env upgradeApplicationTypeAddress 1000
  return .systemReset

/-- The flash after a sequence of boots, each with its own power loss or none. -/
def afterBoots : List Environment → Memory → Memory
  | [], m => m
  | env :: boots, m => afterBoots boots (handleUpgrade env (powerOn m)).state.flash

/-- Power lasts through the recovery of this boot. -/
def Completes (env : Environment) (m : Memory) : Prop :=
  ∃ s, upgradeApplicationRecover env (powerOn m) = .done () s

def NoneCompletes : List Environment → Memory → Prop
  | [], _ => True
  | env :: boots, m =>
      ¬Completes env m ∧ NoneCompletes boots (handleUpgrade env (powerOn m)).state.flash

/-- The content of the backup region. -/
def backupOf (m : Memory) : Nat → Byte := fun o => m (backupAddress.toNat + o)

/-- Everything but the 25 copied application pages and the page of the type word. -/
def Elsewhere (x : Nat) : Prop :=
  (x < appAddress.toNat ∨ appAddress.toNat + copySize ≤ x) ∧
    (x < upgradeApplicationTypeAddress.toNat ∨ upgradeApplicationTypeAddress.toNat + pageSize ≤ x)

/-- What a sequence of boots, cut or not, owes to a flash that is to be recovered. -/
structure Restartable (m : Memory) (boots : List Environment) : Prop where
  kept : ∀ x, Elsewhere x → afterBoots boots m x = m x
  reenters : NoneCompletes boots m → ∀ env : Environment,
    handleUpgrade env (powerOn (afterBoots boots m)) =
      recoveryBranch env (powerOn (afterBoots boots m))
  starts : ∀ (env : Environment) (s : Board),
    handleUpgrade env (powerOn (afterBoots boots m)) = .done .jumpToApplication s →
      ImageIs (backupOf m) s.flash
  resets : ∀ (env : Environment) (s : Board), env.Succeeds →
    handleUpgrade env (powerOn (afterBoots boots m)) = .done .systemReset s →
      typeOf s.flash ≠ 2000
  ends : ∀ env : Environment, env.Succeeds → (∀ k, env.power k = true) →
    ∃ exit s, handleUpgrade env (powerOn (afterBoots boots m)) = .done exit s ∧
      typeOf s.flash ≠ 2000

/-! ### The invariant between boots -/

/-- Between boots: only the copied pages and the type word may differ, and where the type
word no longer asks for a recovery the pages hold the backup. -/
structure Recovering (m m' : Memory) : Prop where
  kept : ∀ x, Elsewhere x → m' x = m x
  settled : typeOf m' = 2000 ∨ ImageIs (backupOf m) m'

section Boot

variable {m : Memory} {env : Environment} {b : Board}

private theorem flagOf_kept {m' : Memory} (kept : ∀ x, Elsewhere x → m' x = m x) :
    flagOf m' = flagOf m := by
  obtain ⟨flag, type, app, -, size⟩ := parameterPages
  refine wordAt_congr fun i hi => kept _ ⟨Or.inr ?_, Or.inl ?_⟩ <;> omega

private theorem typeOf_kept {m' : Memory}
    (kept : ∀ x, appAddress.toNat + copySize ≤ x → m' x = m x) : typeOf m' = typeOf m := by
  obtain ⟨-, type, app, -, size⟩ := parameterPages
  exact wordAt_congr fun i hi => kept _ (by omega)

/-- What the copying of the backup leaves, completed or cut. -/
private theorem recover_leaves (ok : env.Succeeds) (before : Recovering m b.flash)
    (address : b.appAddress = appAddress) :
    (upgradeApplicationRecover env b).Sat
      (fun _ s => (∀ x, Elsewhere x → s.flash x = m x) ∧ typeOf s.flash = typeOf b.flash ∧
        ImageIs (backupOf m) s.flash)
      (fun s => (∀ x, Elsewhere x → s.flash x = m x) ∧ typeOf s.flash = typeOf b.flash) := by
  obtain ⟨-, type, app, bank, size⟩ := parameterPages
  have outside {s : Board} (same : ∀ x, x < appAddress.toNat ∨ appAddress.toNat + copySize ≤ x →
      s.flash x = b.flash x) :
      (∀ x, Elsewhere x → s.flash x = m x) ∧ typeOf s.flash = typeOf b.flash :=
    ⟨fun x away => (same x away.1).trans (before.kept x away),
      typeOf_kept fun x high => same x (Or.inr high)⟩
  refine (upgradeApplicationRecover_sat ok address).mono ?_ fun _ cut => outside cut.outside
  intro _ s flash
  obtain ⟨kept, same⟩ := outside (s := s) fun x away => by
    rw [flash]
    exact fill_outside away
  refine ⟨kept, same, ?_⟩
  intro o ho
  have place : appAddress.toNat + o - appAddress.toNat = o := by omega
  rw [flash, copied, fill_inside (by omega) (by change _ < _ + copySize; omega), place]
  exact before.kept _ ⟨Or.inr (by omega), Or.inl (by omega)⟩

/-- The release of the recovered pages keeps them, whether it is cut or not. -/
private theorem release_leaves (ok : env.Succeeds) (kept : ∀ x, Elsewhere x → b.flash x = m x)
    (image : ImageIs (backupOf m) b.flash) :
    (upgradeFmcWriteData env upgradeApplicationTypeAddress 1000 b).Sat
      (fun _ s => Recovering m s.flash ∧ typeOf s.flash ≠ 2000)
      (fun s => Recovering m s.flash) := by
  obtain ⟨-, type, app, -, size⟩ := parameterPages
  have written (k : Nat) :
      Recovering m (partialWord b.flash upgradeApplicationTypeAddress 1000 k) := by
    refine ⟨?_, Or.inr ?_⟩
    · intro x away
      have far := away.2
      rw [typeWord_outside (by unfold pageSize at far; omega)]
      exact kept x away
    · intro o ho
      rw [typeWord_outside (by omega)]
      exact image o ho
  refine (upgradeFmcWriteData_sat ok _ _ b).mono ?_ ?_
  · intro _ s done
    rw [done.2.word]
    refine ⟨written 2, ?_⟩
    rw [typeOf, partialWord_full]
    decide
  · intro s cut
    rcases cut.word with same | blank
    · rw [same]
      exact ⟨kept, Or.inr image⟩
    · rw [blank]
      exact written 1

/-- A recovery boot keeps the invariant and, if it gets through, releases the pages. -/
private theorem recoveryBranch_leaves (ok : env.Succeeds) (before : Recovering m b.flash)
    (type : typeOf b.flash = 2000) (address : b.appAddress = appAddress) :
    (recoveryBranch env b).Sat (fun _ s => Recovering m s.flash ∧ typeOf s.flash ≠ 2000)
      (fun s => Recovering m s.flash) := by
  have copy : Triple (fun s => s = b) (upgradeApplicationRecover env)
      (fun _ s => (∀ x, Elsewhere x → s.flash x = m x) ∧ ImageIs (backupOf m) s.flash)
      (fun s => Recovering m s.flash) := by
    intro s same
    rw [same]
    refine (recover_leaves ok before address).mono (fun _ _ h => ⟨h.1, h.2.2⟩) ?_
    intro t h
    exact ⟨h.1, Or.inl (h.2.trans type)⟩
  refine copy.bind ?_ b rfl
  intro _
  refine Triple.bind (R := fun _ s => Recovering m s.flash ∧ typeOf s.flash ≠ 2000) ?_ ?_
  · intro s h
    exact release_leaves ok h.1 h.2
  · intro _
    exact Triple.pure fun _ h => h

/-- A recovery that is cut is taken up again by the next boot. -/
private theorem recoveryBranch_cut (ok : env.Succeeds) (before : Recovering m b.flash)
    (type : typeOf b.flash = 2000) (address : b.appAddress = appAddress)
    (cut : ¬∃ s, upgradeApplicationRecover env b = .done () s) :
    typeOf (recoveryBranch env b).state.flash = 2000 := by
  have left := recover_leaves ok before address
  cases run : upgradeApplicationRecover env b with
  | done r s => exact absurd ⟨s, run⟩ cut
  | cut s =>
    rw [run] at left
    rw [recoveryBranch, bind_apply, run]
    exact left.2.trans type

end Boot

/-! ### One boot, and all boots -/

section Boots

variable {m m' : Memory} {env : Environment}

/-- A boot with the type word 2000 recovers, any other starts the application. -/
private theorem boot_eq (noStart : flagOf m ≠ UPGRADESTART) (before : Recovering m m') :
    handleUpgrade env (powerOn m') =
      if typeOf m' = 2000 then recoveryBranch env (powerOn m')
      else .done .jumpToApplication (powerOn m') := by
  have flag : flagOf m' ≠ UPGRADESTART := by rwa [flagOf_kept before.kept]
  by_cases type : typeOf m' = 2000
  · rw [if_pos type]
    exact handleUpgrade_recover flag type
  · rw [if_neg type]
    exact handleUpgrade_jump flag type

private theorem boot_recovering (noStart : flagOf m ≠ UPGRADESTART) (before : Recovering m m')
    (ok : env.Succeeds) :
    (handleUpgrade env (powerOn m')).Sat
      (fun _ s => Recovering m s.flash ∧ typeOf s.flash ≠ 2000)
      (fun s => Recovering m s.flash) := by
  rw [boot_eq noStart before]
  by_cases type : typeOf m' = 2000
  · rw [if_pos type]
    exact recoveryBranch_leaves ok before type rfl
  · rw [if_neg type]
    exact ⟨before, type⟩

private theorem boot_keeps (noStart : flagOf m ≠ UPGRADESTART) (before : Recovering m m')
    (ok : env.Succeeds) : Recovering m (handleUpgrade env (powerOn m')).state.flash := by
  have boot := boot_recovering noStart before ok
  cases run : handleUpgrade env (powerOn m') with
  | done exit s =>
    rw [run] at boot
    exact boot.1
  | cut s =>
    rw [run] at boot
    exact boot

private theorem afterBoots_recovering (noStart : flagOf m ≠ UPGRADESTART)
    (boots : List Environment) (ok : ∀ env ∈ boots, env.Succeeds) (before : Recovering m m') :
    Recovering m (afterBoots boots m') := by
  induction boots generalizing m' with
  | nil => exact before
  | cons env boots ih =>
    exact ih (fun e member => ok e (List.mem_cons_of_mem env member))
      (boot_keeps noStart before (ok env List.mem_cons_self))

/-- Until a boot gets through, the type word keeps asking for the recovery. -/
private theorem afterBoots_type (noStart : flagOf m ≠ UPGRADESTART) (boots : List Environment)
    (ok : ∀ env ∈ boots, env.Succeeds) (before : Recovering m m') (type : typeOf m' = 2000)
    (none : NoneCompletes boots m') : typeOf (afterBoots boots m') = 2000 := by
  induction boots generalizing m' with
  | nil => exact type
  | cons env boots ih =>
    have okEnv := ok env List.mem_cons_self
    have branch : handleUpgrade env (powerOn m') = recoveryBranch env (powerOn m') := by
      rw [boot_eq noStart before, if_pos type]
    refine ih (fun e member => ok e (List.mem_cons_of_mem env member)) ?_ ?_ none.2
    · exact boot_keeps noStart before okEnv
    · rw [branch]
      exact recoveryBranch_cut okEnv before type rfl none.1

private theorem recoveryBranch_resets {b s : Board} {exit : BootExit}
    (h : recoveryBranch env b = .done exit s) : exit = .systemReset := by
  rw [recoveryBranch, ← bind_assoc, bind_apply] at h
  split at h
  · exact ((Outcome.done.inj h).1).symm
  · cases h

/-- With power, a recovery boot gets through. -/
private theorem boot_ends (noStart : flagOf m ≠ UPGRADESTART) (before : Recovering m m')
    (ok : env.Succeeds) (power : ∀ k, env.power k = true) :
    ∃ exit s, handleUpgrade env (powerOn m') = .done exit s := by
  rw [boot_eq noStart before]
  by_cases type : typeOf m' = 2000
  · rw [if_pos type]
    have copy := (upgradeApplicationRecover_sat ok (b := powerOn m') rfl).mono
      (fun _ _ h => h) fun _ cut =>
        Exists.elim cut.lost fun k lost => Environment.lasting power _ lost.2
    obtain ⟨_, s, copied, -⟩ := copy.returns
    have write := (upgradeFmcWriteData_sat ok upgradeApplicationTypeAddress 1000 s).mono
      (fun _ _ h => h) fun _ cut =>
        Exists.elim cut fun k h => Environment.lasting power (s.clock + k) h.2.2.2
    obtain ⟨_, t, released, -⟩ := write.returns
    refine ⟨.systemReset, t, ?_⟩
    rw [recoveryBranch, bind_done copied, bind_done released]
    rfl
  · rw [if_neg type]
    exact ⟨.jumpToApplication, powerOn m', rfl⟩

/-- A flash whose type word is 2000 and whose flag asks for no upgrade is recovered through
any sequence of boots, wherever each of them loses power. -/
theorem recovery_restarts (m : Memory) (noStart : flagOf m ≠ UPGRADESTART)
    (type : typeOf m = 2000) (boots : List Environment) (ok : ∀ env ∈ boots, env.Succeeds) :
    Restartable m boots := by
  have start : Recovering m m := ⟨fun _ _ => rfl, Or.inl type⟩
  have reached := afterBoots_recovering noStart boots ok start
  refine ⟨reached.kept, ?_, ?_, ?_, ?_⟩
  · intro none env
    rw [boot_eq noStart reached, if_pos (afterBoots_type noStart boots ok start type none)]
  · intro env s jump
    rw [boot_eq noStart reached] at jump
    split_ifs at jump with again
    · exact absurd (recoveryBranch_resets jump) (by decide)
    · obtain ⟨-, rfl⟩ := Outcome.done.inj jump
      exact reached.settled.resolve_left again
  · intro env s okEnv reset
    have boot := boot_recovering noStart reached okEnv
    rw [reset] at boot
    exact boot.2
  · intro env okEnv power
    obtain ⟨exit, s, ended⟩ := boot_ends noStart reached okEnv power
    have boot := boot_recovering noStart reached okEnv
    rw [ended] at boot
    exact ⟨exit, s, ended, boot.2⟩

/-- A blank flash with the type word 2000, and a boot that loses power inside the first
application page. -/
theorem recovery_restarts_cutInFirstPage :
    Restartable (fill (fun _ => 0xFF) upgradeApplicationTypeAddress.toNat 4 (wordBytes 2000))
      [Environment.poweredFor (fun _ => 0) 10] := by
  refine recovery_restarts _ (by decide) (by decide) _ ?_
  intro env member
  rw [List.mem_singleton.mp member]
  exact Environment.poweredFor_succeeds _ _

end Boots

end BmsFirmware.Upgrade.Restart
