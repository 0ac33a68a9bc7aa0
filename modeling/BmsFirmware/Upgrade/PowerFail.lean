/- Module: BmsFirmware/Upgrade/PowerFail
   Source: application/upgrade/boot.c
   Digest: Power losses over any number of boots, and the image that is finally started. -/

import BmsFirmware.Upgrade.FirmwareImage

set_option autoImplicit false
set_option relaxedAutoImplicit false

namespace BmsFirmware.Upgrade.PowerFail

open BmsFirmware.Library.ByteMemory
open BmsFirmware.Library.PowerLogic
open BmsFirmware.Flash.Controller
open BmsFirmware.Flash.Systick
open BmsFirmware.Flash.PageImage
open BmsFirmware.Upgrade.Boot
open BmsFirmware.Upgrade.BlockWriter
open BmsFirmware.Upgrade.BlockLoop
open BmsFirmware.Upgrade.FirmwareImage

/-! ### The two words the boot decision reads -/

def flagOf (m : Memory) : Word := wordAt m upgradeFlagAddress.toNat
def typeOf (m : Memory) : Word := wordAt m upgradeApplicationTypeAddress.toNat

/-- The branch of the boot, by the two words. -/
private theorem handleUpgrade_eq (env : Environment) (b : Board) :
    handleUpgrade env b =
      if flagOf b.flash = UPGRADESTART then
        (do
          upgradeBranch env env env
          return BootExit.systemReset) b
      else if typeOf b.flash = 2000 then
        (do
          upgradeApplicationRecover env
          let _ ← upgradeFmcWriteData env upgradeApplicationTypeAddress 1000
          return BootExit.systemReset) b
      else .done .jumpToApplication b := by
  unfold handleUpgrade
  rw [bind_apply]
  change (if (0 : Int) = 0 ∧ flagOf b.flash = UPGRADESTART then _ else _ :
    Proc Board BootExit) b = _
  simp only [true_and]
  split
  · rfl
  · change (if typeOf b.flash = 2000 then _ else _ : Proc Board BootExit) b = _
    split <;> rfl

theorem handleUpgrade_upgrade {env : Environment} {b : Board}
    (start : flagOf b.flash = UPGRADESTART) :
    handleUpgrade env b = (do
      upgradeBranch env env env
      return BootExit.systemReset) b := by
  rw [handleUpgrade_eq, if_pos start]

theorem handleUpgrade_recover {env : Environment} {b : Board}
    (noStart : flagOf b.flash ≠ UPGRADESTART) (backup : typeOf b.flash = 2000) :
    handleUpgrade env b = (do
      upgradeApplicationRecover env
      let _ ← upgradeFmcWriteData env upgradeApplicationTypeAddress 1000
      return BootExit.systemReset) b := by
  rw [handleUpgrade_eq, if_neg noStart, if_pos backup]

theorem handleUpgrade_jump {env : Environment} {b : Board}
    (noStart : flagOf b.flash ≠ UPGRADESTART) (noBackup : typeOf b.flash ≠ 2000) :
    handleUpgrade env b = .done .jumpToApplication b := by
  rw [handleUpgrade_eq, if_neg noStart, if_neg noBackup]

/-! ### The parameter pages and the application pages do not meet -/

theorem parameterPages :
    upgradeFlagAddress.toNat = 0x08078000 ∧
      upgradeApplicationTypeAddress.toNat = 0x08078800 ∧ appAddress.toNat = 0x08008000 ∧
      backupAddress.toNat = 0x08040000 ∧ copySize = 51200 := by decide

theorem flagWord_outside {m : Memory} {d : Word} {k x : Nat}
    (away : x < 0x08078000 ∨ 0x08078800 ≤ x) : partialWord m upgradeFlagAddress d k x = m x := by
  obtain ⟨flag, -⟩ := parameterPages
  refine partialWord_outside ?_ ?_ <;> rw [flag] <;> unfold pageSize <;> omega

theorem typeWord_outside {m : Memory} {d : Word} {k x : Nat}
    (away : x < 0x08078800 ∨ 0x08079000 ≤ x) :
    partialWord m upgradeApplicationTypeAddress d k x = m x := by
  obtain ⟨-, type, -⟩ := parameterPages
  refine partialWord_outside ?_ ?_ <;> rw [type] <;> unfold pageSize <;> omega

theorem flagOf_typeWord (m : Memory) (d : Word) (k : Nat) :
    flagOf (partialWord m upgradeApplicationTypeAddress d k) = flagOf m := by
  obtain ⟨flag, -⟩ := parameterPages
  exact wordAt_congr fun i hi => typeWord_outside (by omega)

private theorem flagOf_erased (m : Memory) (d : Word) :
    flagOf (partialWord m upgradeFlagAddress d 1) ≠ UPGRADESTART := by
  rw [flagOf, partialWord_erased (by decide)]
  decide

/-- A change of the copied application pages or their backup leaves the two words. -/
private theorem words_kept {m m' : Memory}
    (high : ∀ x, backupAddress.toNat + copySize ≤ x → m' x = m x) :
    flagOf m' = flagOf m ∧ typeOf m' = typeOf m := by
  obtain ⟨flag, type, -, backup, size⟩ := parameterPages
  exact ⟨wordAt_congr fun i hi => high _ (by omega), wordAt_congr fun i hi => high _ (by omega)⟩

section Images

variable (old : Memory) (uart : Nat → Byte)

/-- The 25 application pages hold the bytes that `f` lists. -/
def ImageIs (f : Nat → Byte) (m : Memory) : Prop :=
  ∀ o < copySize, m (appAddress.toNat + o) = f o

def oldImage : Nat → Byte := fun o => old (appAddress.toNat + o)

/-- The complete new image over the old one. -/
def newImage : Nat → Byte := fun o =>
  if o < pageSize * announcedBlocks uart then sentFirmware uart o else old (appAddress.toNat + o)

def OldOrNew (m : Memory) : Prop := ImageIs (oldImage old) m ∨ ImageIs (newImage old uart) m

/-- A boot that will recover finds the old image in the backup. -/
def BackupReady (m : Memory) : Prop :=
  flagOf m ≠ UPGRADESTART → typeOf m = 2000 →
    ∀ o < copySize, m (backupAddress.toNat + o) = oldImage old o

/-- The flash contents that boots with arbitrary power losses reach, as long as each boot
starts from a flash that meets `Allowed`. -/
inductive Reached (Allowed : Memory → Prop) : Memory → Prop where
  | start : Reached Allowed old
  | boot {m : Memory} (env : Environment) (before : Reached Allowed m) (allowed : Allowed m)
      (ok : env.Succeeds) (host : env.uart = uart) :
      Reached Allowed (handleUpgrade env (powerOn m)).state.flash

/-- Whatever is started is the old image or the new one. -/
def StartsOldOrNew (Allowed : Memory → Prop) : Prop :=
  ∀ m, Reached old uart Allowed m → ∀ env : Environment, ∀ s,
    handleUpgrade env (powerOn m) = .done .jumpToApplication s → OldOrNew old uart s.flash

/-- What holds between boots: a pending upgrade finds the old image, and a flash that is
neither to be upgraded nor to be recovered holds one of the two images. -/
structure Consistent (m : Memory) : Prop where
  pending : flagOf m = UPGRADESTART → ImageIs (oldImage old) m
  idle : flagOf m ≠ UPGRADESTART → typeOf m ≠ 2000 → OldOrNew old uart m

end Images

section Steps

variable {old : Memory} {uart : Nat → Byte} {env : Environment}

private theorem ImageIs.congr {f : Nat → Byte} {m m' : Memory} (h : ImageIs f m)
    (same : ∀ x, x < appAddress.toNat + copySize → m' x = m x) : ImageIs f m' :=
  fun o ho => (same _ (by omega)).trans (h o ho)

private theorem ImageIs.typeWord {f : Nat → Byte} {m : Memory} (h : ImageIs f m) (d : Word)
    (k : Nat) : ImageIs f (partialWord m upgradeApplicationTypeAddress d k) := by
  obtain ⟨-, -, app, -, size⟩ := parameterPages
  exact h.congr fun x hx => typeWord_outside (by omega)

private theorem ImageIs.flagWord {f : Nat → Byte} {m : Memory} (h : ImageIs f m) (d : Word)
    (k : Nat) : ImageIs f (partialWord m upgradeFlagAddress d k) := by
  obtain ⟨-, -, app, -, size⟩ := parameterPages
  exact h.congr fun x hx => flagWord_outside (by omega)

/-- A boot in the phase that `P` describes, with the variables as the reset left them. -/
structure At (P : Memory → Prop) (s : Board) : Prop where
  phase : P s.flash
  address : s.appAddress = appAddress
  received : s.received = 0

/-- A cut leaves a flash from which the next boot starts consistently. -/
def CutConsistent (old : Memory) (uart : Nat → Byte) (s : Board) : Prop :=
  Consistent old uart s.flash

/-- A recovery or an upgrade under way: nothing is promised but what recovery will do. -/
private theorem consistent_of_backup {m : Memory} (noStart : flagOf m ≠ UPGRADESTART)
    (backup : typeOf m = 2000) : Consistent old uart m :=
  ⟨fun h => absurd h noStart, fun _ h => absurd backup h⟩

private theorem consistent_of_image {m : Memory} (noStart : flagOf m ≠ UPGRADESTART)
    (image : OldOrNew old uart m) : Consistent old uart m :=
  ⟨fun h => absurd h noStart, fun _ _ => image⟩

/-- A parameter write takes one phase to the next, or is cut untouched or erased. -/
private theorem word_step (ok : env.Succeeds) {a d : Word} {P Q : Memory → Prop} {s : Board}
    (written : ∀ m, P m → Q (partialWord m a d 2))
    (untouched : ∀ m, P m → Consistent old uart m)
    (erased : ∀ m, P m → Consistent old uart (partialWord m a d 1)) (hs : P s.flash) :
    (upgradeFmcWriteData env a d s).Sat
      (fun _ t => Q t.flash ∧ t.appAddress = s.appAddress ∧ t.received = s.received)
      (CutConsistent old uart) := by
  refine (upgradeFmcWriteData_sat ok a d s).mono ?_ ?_
  · rintro _ t ⟨-, completed⟩
    rw [completed.word]
    exact ⟨written _ hs, rfl, rfl⟩
  · intro t cut
    rw [CutConsistent]
    rcases cut.word with same | blank
    · rw [same]
      exact untouched _ hs
    · rw [blank]
      exact erased _ hs

/-- The same for the phases of a boot: a parameter write leaves the other variables. -/
private theorem phase_step (ok : env.Succeeds) {a d : Word} {P Q : Memory → Prop}
    (written : ∀ m, P m → Q (partialWord m a d 2))
    (untouched : ∀ m, P m → Consistent old uart m)
    (erased : ∀ m, P m → Consistent old uart (partialWord m a d 1)) :
    Triple (At P) (upgradeFmcWriteData env a d) (fun _ => At Q) (CutConsistent old uart) := by
  intro s hs
  refine (word_step ok written untouched erased hs.phase).mono ?_ fun _ h => h
  rintro _ t ⟨phase, address, received⟩
  exact ⟨phase, address.trans hs.address, received.trans hs.received⟩

/-- No upgrade is pending, and the pages hold the image `f`. -/
def Disarmed (f : Nat → Byte) (m : Memory) : Prop := flagOf m ≠ UPGRADESTART ∧ ImageIs f m

/-- The next boot would recover, and the pages hold the image `f`. -/
def Marked (f : Nat → Byte) (m : Memory) : Prop :=
  flagOf m ≠ UPGRADESTART ∧ typeOf m = 2000 ∧ ImageIs f m

/-- An upgrade is pending, and the pages hold the image `f`. -/
def Armed (f : Nat → Byte) (m : Memory) : Prop := flagOf m = UPGRADESTART ∧ ImageIs f m

/-- The first parameter write takes the request back. -/
private theorem disarm_step (ok : env.Succeeds) :
    Triple (At (Armed (oldImage old)))
      (upgradeFmcWriteData env upgradeFlagAddress UPGRADESTOP)
      (fun _ => At (Disarmed (oldImage old))) (CutConsistent old uart) := by
  refine phase_step ok ?_ ?_ ?_
  · rintro m ⟨-, image⟩
    refine ⟨?_, image.flagWord _ _⟩
    rw [flagOf, partialWord_full]
    decide
  · rintro m ⟨start, image⟩
    exact ⟨fun _ => image, fun noStart => absurd start noStart⟩
  · rintro m ⟨-, image⟩
    exact consistent_of_image (flagOf_erased m _) (Or.inl (image.flagWord _ _))

/-- The second parameter write asks for a recovery. -/
private theorem mark_step (ok : env.Succeeds) :
    Triple (At (Disarmed (oldImage old)))
      (upgradeFmcWriteData env upgradeApplicationTypeAddress 2000)
      (fun _ => At (Marked (oldImage old))) (CutConsistent old uart) := by
  refine phase_step ok ?_ ?_ ?_
  · rintro m ⟨noStart, image⟩
    refine ⟨?_, partialWord_full _ _ _, image.typeWord _ _⟩
    rwa [flagOf_typeWord]
  · rintro m ⟨noStart, image⟩
    exact consistent_of_image noStart (Or.inl image)
  · rintro m ⟨noStart, image⟩
    refine consistent_of_image ?_ (Or.inl (image.typeWord _ _))
    rwa [flagOf_typeWord]

/-- The backup changes neither the application nor the parameters. -/
private theorem backup_step (ok : env.Succeeds) :
    Triple (At (Marked (oldImage old))) (upgradeBackup env)
      (fun _ => At (Marked (oldImage old))) (CutConsistent old uart) := by
  rintro s ⟨⟨noStart, type, image⟩, address, received⟩
  obtain ⟨-, -, app, bank, size⟩ := parameterPages
  refine (upgradeBackup_sat ok address).mono ?_ ?_
  · rintro _ t ⟨flash, address', received', -⟩
    have outside (x : Nat) (away : x < backupAddress.toNat ∨ backupAddress.toNat + copySize ≤ x) :
        t.flash x = s.flash x := by
      rw [flash]
      exact fill_outside away
    obtain ⟨flag, type'⟩ := words_kept fun x hx => outside x (Or.inr hx)
    refine ⟨⟨?_, type'.trans type, ?_⟩, address', received'.trans received⟩
    · rwa [flag]
    · exact image.congr fun x hx => outside x (by omega)
  · intro t cut
    obtain ⟨flag, type'⟩ := words_kept fun x hx => cut.outside x (Or.inr hx)
    exact consistent_of_backup (by rwa [flag]) (type'.trans type)

/-- The bytes of an upgrade of at most 25 blocks. -/
private theorem newImage_installed {m : Memory} (image : ImageIs (oldImage old) m) :
    ImageIs (newImage old uart) (installed m (sentFirmware uart) (announcedBlocks uart)) := by
  intro o ho
  have place : appAddress.toNat + o - appAddress.toNat = o := by omega
  rw [installed, newImage]
  by_cases inside : o < pageSize * announcedBlocks uart
  · rw [if_pos inside, fill_inside (by omega) (by omega), place]
  · rw [if_neg inside, fill_outside (by omega)]
    exact image o ho

/-- The block programming installs the new image or is cut inside the application pages. -/
private theorem run_step (ok : env.Succeeds) (host : env.uart = uart)
    (few : announcedBlocks uart ≤ 25) :
    Triple (At (Marked (oldImage old))) (upgradeRun env)
      (fun _ s => Marked (newImage old uart) s.flash) (CutConsistent old uart) := by
  intro s before
  have stream (r : Nat) : arriving env (s.received + r) = fun o => uart (r + o) := by
    funext o
    rw [arriving, before.received, host, Nat.zero_add]
  have small : (blockCount env s.received).toNat ≤ wrapBlock := by
    rw [(hosted stream).1]
    exact Nat.le_trans few (by decide)
  refine (upgradeRun_installs env ok before.address small).mono ?_ ?_
  · intro _ t done
    obtain ⟨-, -, app, bank, size⟩ := parameterPages
    obtain ⟨count, payload⟩ := hosted stream
    obtain ⟨noStart, type, image⟩ := before.phase
    have flash := done.flash
    rw [count, payload] at flash
    have high (x : Nat) (hx : backupAddress.toNat + copySize ≤ x) : t.flash x = s.flash x := by
      rw [flash]
      exact fill_outside (by unfold pageSize; omega)
    obtain ⟨flag, type'⟩ := words_kept high
    refine ⟨by rwa [flag], type'.trans type, ?_⟩
    rw [flash]
    exact newImage_installed image
  · rintro t ⟨j, k, cut⟩
    obtain ⟨-, -, app, bank, size⟩ := parameterPages
    obtain ⟨noStart, type, -⟩ := before.phase
    have block := cut.block
    have within := cut.within
    rw [(hosted stream).1] at block
    have high (x : Nat) (hx : backupAddress.toNat + copySize ≤ x) : t.flash x = s.flash x := by
      rw [cut.flash, partialPage_outside (by omega) (by unfold pageSize; omega)]
      exact fill_outside (by unfold pageSize; omega)
    obtain ⟨flag, type'⟩ := words_kept high
    exact consistent_of_backup (by rwa [flag]) (type'.trans type)

/-- The last parameter write releases whichever image is complete. -/
private theorem release_step (ok : env.Succeeds) {f : Nat → Byte} {s : Board}
    (which : ∀ m, ImageIs f m → OldOrNew old uart m) (hs : Marked f s.flash) :
    (upgradeFmcWriteData env upgradeApplicationTypeAddress 1000 s).Sat
      (fun _ t => Consistent old uart t.flash) (CutConsistent old uart) := by
  refine (word_step ok (P := Marked f) (Q := Consistent old uart) ?_ ?_ ?_ hs).mono
    (fun _ _ h => h.1) fun _ h => h
  · rintro m ⟨noStart, -, image⟩
    refine consistent_of_image ?_ (which _ (image.typeWord _ _))
    rwa [flagOf_typeWord]
  · rintro m ⟨noStart, type, -⟩
    exact consistent_of_backup noStart type
  · rintro m ⟨noStart, -, image⟩
    refine consistent_of_image ?_ (which _ (image.typeWord _ _))
    rwa [flagOf_typeWord]

/-- Recovery from a complete backup restores the old image or is cut inside it. -/
private theorem recover_step (ok : env.Succeeds) {s : Board} (address : s.appAddress = appAddress)
    (noStart : flagOf s.flash ≠ UPGRADESTART) (type : typeOf s.flash = 2000)
    (ready : ∀ o < copySize, s.flash (backupAddress.toNat + o) = oldImage old o) :
    (upgradeApplicationRecover env s).Sat (fun _ t => Marked (oldImage old) t.flash)
      (CutConsistent old uart) := by
  obtain ⟨-, -, app, bank, size⟩ := parameterPages
  refine (upgradeApplicationRecover_sat ok address).mono ?_ ?_
  · intro _ t flash
    have high (x : Nat) (hx : backupAddress.toNat + copySize ≤ x) : t.flash x = s.flash x := by
      rw [flash]
      exact fill_outside (Or.inr (by change appAddress.toNat + copySize ≤ x; omega))
    obtain ⟨flag, type'⟩ := words_kept high
    refine ⟨by rwa [flag], type'.trans type, ?_⟩
    intro o ho
    have place : appAddress.toNat + o - appAddress.toNat = o := by omega
    rw [flash, copied, fill_inside (by omega) (by change _ < _ + copySize; omega), place]
    exact ready o ho
  · intro t cut
    obtain ⟨flag, type'⟩ := words_kept fun x hx => cut.outside x (Or.inr (by omega))
    exact consistent_of_backup (by rwa [flag]) (type'.trans type)

/-! ### One boot, and all boots -/

private theorem upgrade_boot (ok : env.Succeeds) (host : env.uart = uart)
    (few : announcedBlocks uart ≤ 25) :
    Triple (At (Armed (oldImage old)))
      (do
        upgradeBranch env env env
        return BootExit.systemReset)
      (fun _ s => Consistent old uart s.flash) (CutConsistent old uart) := by
  simp only [upgradeBranch, bind_assoc]
  refine (disarm_step ok).bind ?_
  intro _
  refine (mark_step ok).bind ?_
  intro _
  refine (backup_step ok).bind ?_
  intro _
  refine (run_step ok host few).bind ?_
  intro _
  refine Triple.bind (fun s hs => release_step ok (fun _ => Or.inr) hs) ?_
  intro _
  exact Triple.pure fun _ h => h

variable (uart) in
private theorem recover_boot (ok : env.Succeeds) {s : Board} (address : s.appAddress = appAddress)
    (noStart : flagOf s.flash ≠ UPGRADESTART) (type : typeOf s.flash = 2000)
    (ready : ∀ o < copySize, s.flash (backupAddress.toNat + o) = oldImage old o) :
    ((do
      upgradeApplicationRecover env
      let _ ← upgradeFmcWriteData env upgradeApplicationTypeAddress 1000
      return BootExit.systemReset) s).Sat
      (fun _ (t : Board) => Consistent old uart t.flash) (CutConsistent old uart) := by
  have restored : Triple (fun t => t = s) (upgradeApplicationRecover env)
      (fun _ t => Marked (oldImage old) t.flash) (CutConsistent old uart) := by
    rintro t rfl
    exact recover_step ok address noStart type ready
  refine restored.bind ?_ s rfl
  intro _
  refine Triple.bind (fun t ht => release_step ok (fun _ => Or.inl) ht) ?_
  intro _
  exact Triple.pure fun _ h => h

/-- One boot, wherever power goes, keeps the flash consistent. -/
theorem boot_consistent (ok : env.Succeeds) (host : env.uart = uart)
    (few : announcedBlocks uart ≤ 25) {m : Memory} (consistent : Consistent old uart m)
    (ready : BackupReady old m) :
    Consistent old uart (handleUpgrade env (powerOn m)).state.flash := by
  by_cases start : flagOf (powerOn m).flash = UPGRADESTART
  · rw [handleUpgrade_upgrade start]
    exact (upgrade_boot ok host few (powerOn m)
      ⟨⟨start, consistent.pending start⟩, rfl, rfl⟩).stopped
  · by_cases type : typeOf (powerOn m).flash = 2000
    · rw [handleUpgrade_recover start type]
      exact (recover_boot uart ok rfl start type (ready start type)).stopped
    · rw [handleUpgrade_jump start type]
      exact consistent

theorem jump_of_idle {m : Memory} (noStart : flagOf m ≠ UPGRADESTART) (type : typeOf m ≠ 2000) :
    handleUpgrade env (powerOn m) = .done .jumpToApplication (powerOn m) :=
  handleUpgrade_jump noStart type

/-- A boot that starts the application has changed nothing and had nothing to do. -/
theorem jump_idle {m : Memory} {s : Board}
    (jump : handleUpgrade env (powerOn m) = .done .jumpToApplication s) :
    flagOf m ≠ UPGRADESTART ∧ typeOf m ≠ 2000 ∧ s = powerOn m := by
  have resets {α : Type} {p : Proc Board α} {b : Board}
      (h : (p >>= fun _ => pure BootExit.systemReset) b = .done .jumpToApplication s) : False := by
    rw [bind_apply] at h
    cases run : p b with
    | done r t => simp [run] at h
    | cut t => simp [run] at h
  by_cases start : flagOf (powerOn m).flash = UPGRADESTART
  · rw [handleUpgrade_upgrade start] at jump
    exact (resets jump).elim
  · by_cases type : typeOf (powerOn m).flash = 2000
    · rw [handleUpgrade_recover start type, ← bind_assoc] at jump
      exact (resets jump).elim
    · rw [handleUpgrade_jump start type] at jump
      obtain ⟨-, rfl⟩ := Outcome.done.inj jump
      exact ⟨start, type, rfl⟩

theorem reached_consistent (few : announcedBlocks uart ≤ 25)
    (start : flagOf old = UPGRADESTART) {m : Memory}
    (reached : Reached old uart (BackupReady old) m) : Consistent old uart m := by
  induction reached with
  | start => exact ⟨fun _ _ _ => rfl, fun noStart => absurd start noStart⟩
  | boot env _ allowed ok host ih => exact boot_consistent ok host few ih allowed

/-- As long as every recovery finds the old image in the backup, whatever is started after
any number of power losses is the old image or the complete new one. -/
theorem upgrade_startsOldOrNew (few : announcedBlocks uart ≤ 25)
    (start : flagOf old = UPGRADESTART) : StartsOldOrNew old uart (BackupReady old) := by
  intro m reached env s jump
  obtain ⟨noStart, type, rfl⟩ := jump_idle jump
  exact (reached_consistent few start reached).idle noStart type

end Steps

/-! ### Power losses behind the backup -/

section BehindBackup

variable {uart : Nat → Byte} {env : Environment}

/-- A boot whose power has lasted for `n` operations. -/
structure Lasting (P : Memory → Prop) (n : Nat) (s : Board) : Prop extends At P s where
  clock : s.clock = n

theorem word_lasting (Cut : Board → Prop) (ok : env.Succeeds) {n : Nat} (a d : Word)
    (m : Memory) (lasts : Powered env n 2) :
    Triple (Lasting (· = m) n) (upgradeFmcWriteData env a d)
      (fun _ => Lasting (· = partialWord m a d 2) (n + 2)) Cut := by
  intro s before
  refine (upgradeFmcWriteData_sat ok a d s).mono ?_ ?_
  · rintro _ t ⟨-, written⟩
    have clock : s.journal.length = n := before.clock
    rw [written.word]
    refine ⟨⟨by rw [before.phase], before.address, before.received⟩, ?_⟩
    rw [Board.clock, List.length_append, clock]
    rfl
  · rintro t ⟨k, within, -, -, lost⟩
    rw [before.clock, lasts k within] at lost
    cases lost

theorem backup_lasting (Cut : Board → Prop) (ok : env.Succeeds) {n : Nat} (m : Memory)
    (lasts : Powered env n (513 * currentBlockNumber)) :
    Triple (Lasting (· = m) n) (upgradeBackup env)
      (fun _ => Lasting (· = copied m appAddress backupAddress currentBlockNumber)
        (n + 513 * currentBlockNumber)) Cut := by
  intro s before
  refine (upgradeBackup_sat ok before.address).mono ?_ ?_
  · rintro _ t ⟨copy, address, received, clock⟩
    exact ⟨⟨by rw [copy, before.phase], address, received.trans before.received⟩,
      by rw [clock, before.clock]⟩
  · rintro t ⟨-, k, within, lost⟩
    rw [before.clock, lasts k within] at lost
    cases lost

/-- The flash behind the two parameter writes, and behind the backup. -/
def marked (m : Memory) : Memory :=
  partialWord (partialWord m upgradeFlagAddress UPGRADESTOP 2) upgradeApplicationTypeAddress 2000 2

def backedUp (m : Memory) : Memory :=
  copied (marked m) appAddress backupAddress currentBlockNumber

/-- A recovery is asked for, and the backup is the image of `m`. -/
structure Recoverable (m m' : Memory) : Prop where
  noStart : flagOf m' ≠ UPGRADESTART
  type : typeOf m' = 2000
  backup : ∀ o < copySize, m' (backupAddress.toNat + o) = m (appAddress.toNat + o)

private theorem recoverable_backedUp (m : Memory) : Recoverable m (backedUp m) := by
  obtain ⟨-, -, app, bank, size⟩ := parameterPages
  have outside (x : Nat) (high : backupAddress.toNat + copySize ≤ x) :
      backedUp m x = marked m x := by
    rw [backedUp, copied]
    exact fill_outside (Or.inr high)
  obtain ⟨flag, type⟩ := words_kept outside
  refine ⟨?_, type.trans (partialWord_full _ _ _), fun o inside => ?_⟩
  · rw [flag, marked, flagOf_typeWord, flagOf, partialWord_full]
    decide
  · have place : backupAddress.toNat + o - backupAddress.toNat = o := by omega
    rw [backedUp, copied, fill_inside (by omega) (by change _ < _ + copySize; omega), place,
      marked, typeWord_outside (by omega), flagWord_outside (by omega)]

/-- Block programming that power does not last for leaves the backup. -/
private theorem run_recoverable (ok : env.Succeeds) (host : env.uart = uart)
    (few : announcedBlocks uart ≤ 25) (m : Memory) {n i : Nat}
    (within : i < 513 * announcedBlocks uart) (lost : env.power (n + i) = false) :
    Triple (Lasting (· = backedUp m) n) (upgradeRun env) (fun _ _ => False)
      fun s => Recoverable m s.flash := by
  intro s there
  have stream (r : Nat) : arriving env (s.received + r) = fun o => uart (r + o) := by
    funext o
    rw [arriving, there.received, host, Nat.zero_add]
  obtain ⟨count, -⟩ := hosted stream
  have small : (blockCount env s.received).toNat ≤ wrapBlock := by
    rw [count]
    exact Nat.le_trans few (by decide)
  refine (upgradeRun_installs env ok there.address small).mono ?_ ?_
  · intro _ t done
    have powered := done.powered
    rw [count, there.clock] at powered
    exact Bool.false_ne_true (lost.symm.trans (powered i within))
  · rintro t ⟨j, k, cut⟩
    obtain ⟨-, -, app, bank, size⟩ := parameterPages
    have block := cut.block
    have within := cut.within
    rw [count] at block
    have high (x : Nat) (behind : backupAddress.toNat ≤ x) : t.flash x = backedUp m x := by
      rw [cut.flash, partialPage_outside (by omega) (by unfold pageSize; omega), ← there.phase]
      exact fill_outside (by unfold pageSize; omega)
    obtain ⟨noStart, type, backup⟩ := recoverable_backedUp m
    obtain ⟨flag, type'⟩ := words_kept fun x behind => high x (by omega)
    refine ⟨by rwa [flag], type'.trans type, fun o inside => ?_⟩
    rw [high _ (Nat.le_add_right _ _)]
    exact backup o inside

/-- Where power goes behind the backup and before the last block has been programmed, the next
boot recovers, and from the whole backup. -/
theorem upgrade_recoverable (ok : env.Succeeds) (host : env.uart = uart)
    (few : announcedBlocks uart ≤ 25) {m : Memory} (start : flagOf m = UPGRADESTART)
    (lasts : Powered env 0 (4 + 513 * currentBlockNumber)) {i : Nat}
    (within : i < 513 * announcedBlocks uart)
    (lost : env.power (4 + 513 * currentBlockNumber + i) = false) :
    (handleUpgrade env (powerOn m)).Sat (fun _ _ => False) fun s => Recoverable m s.flash := by
  have before (n k : Nat) (inside : n + k ≤ 4 + 513 * currentBlockNumber) : Powered env n k :=
    fun i low => by
      have power := lasts (n + i) (by omega)
      rwa [Nat.zero_add] at power
  have requested : flagOf (powerOn m).flash = UPGRADESTART := start
  rw [handleUpgrade_upgrade requested]
  simp only [upgradeBranch, bind_assoc]
  refine Triple.bind (word_lasting _ ok upgradeFlagAddress UPGRADESTOP m (before 0 2 (by omega)))
    ?_ (powerOn m) ⟨⟨rfl, rfl, rfl⟩, rfl⟩
  intro _
  refine (word_lasting _ ok upgradeApplicationTypeAddress 2000 _ (before 2 2 (by omega))).bind ?_
  intro _
  refine (backup_lasting _ ok (marked m) (before 4 _ (Nat.le_refl _))).bind ?_
  intro _
  refine (run_recoverable ok host few m within lost).bind ?_
  exact fun _ _ never => never.elim

end BehindBackup

/-! ### Interrupted upgrades -/

/-- An application of 0x11 bytes, a blank backup, and an upgrade request. -/
def requested : Memory :=
  fill (fill (fun _ => 0xFF) appAddress.toNat copySize fun _ => 0x11) upgradeFlagAddress.toNat 4
    (wordBytes UPGRADESTART)

/-- A host that sends one block of zeros. -/
def oneBlock : Nat → Byte := ofList [0, 0, 0, 1]

/-- With power, a recovery boot copies the backup as it is and releases it. -/
private theorem recover_final {env : Environment} (ok : env.Succeeds)
    (power : ∀ k, env.power k = true) {m : Memory} (noStart : flagOf m ≠ UPGRADESTART)
    (type : typeOf m = 2000) :
    (handleUpgrade env (powerOn m)).state.flash =
      partialWord (copied m backupAddress appAddress currentBlockNumber)
        upgradeApplicationTypeAddress 1000 2 := by
  let restored := copied m backupAddress appAddress currentBlockNumber
  let Lost : Board → Prop := fun _ => ∃ k, env.power k = false
  have copy : Triple (fun b => b = powerOn m) (upgradeApplicationRecover env)
      (fun _ s => s.flash = restored) Lost := by
    rintro b rfl
    refine (upgradeApplicationRecover_sat ok rfl).mono (fun _ _ h => h) ?_
    rintro s ⟨-, k, -, lost⟩
    exact ⟨_, lost⟩
  have release : Triple (fun s : Board => s.flash = restored)
      (upgradeFmcWriteData env upgradeApplicationTypeAddress 1000)
      (fun _ s => s.flash = partialWord restored upgradeApplicationTypeAddress 1000 2) Lost := by
    intro b hb
    refine (upgradeFmcWriteData_sat ok _ _ b).mono ?_ ?_
    · rintro _ s ⟨-, completed⟩
      rw [completed.word, hb]
    · rintro s ⟨k, -, -, -, lost⟩
      exact ⟨_, lost⟩
  have boot := (copy.bind fun _ => release.bind fun _ =>
    Triple.pure (a := BootExit.systemReset) (Q := fun _ (s : Board) => s.flash =
      partialWord restored upgradeApplicationTypeAddress 1000 2) fun _ h => h) (powerOn m) rfl
  have start : flagOf (powerOn m).flash ≠ UPGRADESTART := noStart
  rw [handleUpgrade_recover start type]
  apply boot.returned
  rintro s ⟨k, lost⟩
  exact Environment.lasting power _ lost

/-- A recovery with power leaves nothing to be upgraded or recovered. -/
private theorem recover_idle {env : Environment} (ok : env.Succeeds)
    (power : ∀ k, env.power k = true) {m : Memory} (noStart : flagOf m ≠ UPGRADESTART)
    (type : typeOf m = 2000) :
    flagOf (handleUpgrade env (powerOn m)).state.flash ≠ UPGRADESTART ∧
      typeOf (handleUpgrade env (powerOn m)).state.flash ≠ 2000 := by
  obtain ⟨flag, -, app, bank, size⟩ := parameterPages
  have outside (x : Nat) (hx : appAddress.toNat + copySize ≤ x) :
      copied m backupAddress appAddress currentBlockNumber x = m x :=
    fill_outside (Or.inr hx)
  rw [recover_final ok power noStart type]
  refine ⟨?_, ?_⟩
  · rw [flagOf_typeWord, flagOf, wordAt_congr fun i hi => outside _ (by omega)]
    exact noStart
  · rw [typeOf, partialWord_full]
    decide

/-- The number of operations up to the first erase of the block programming. -/
def untilBlock : Nat := 4 + 513 * currentBlockNumber + 1

/-- A host of one block, and power up to there. -/
private theorem untilBlock_recoverable {uart : Nat → Byte} (one : announcedBlocks uart = 1)
    {m : Memory} (start : flagOf m = UPGRADESTART) :
    Recoverable m (handleUpgrade (.poweredFor uart untilBlock) (powerOn m)).state.flash := by
  have ok := Environment.poweredFor_succeeds uart untilBlock
  have host : (Environment.poweredFor uart untilBlock).uart = uart := rfl
  have lasts : Powered (.poweredFor uart untilBlock) 0 (4 + 513 * currentBlockNumber) :=
    fun i low => decide_eq_true (by unfold untilBlock; omega)
  have lost : (Environment.poweredFor uart untilBlock).power
      (4 + 513 * currentBlockNumber + 1) = false := by
    simp only [Environment.poweredFor, untilBlock, Nat.lt_irrefl, decide_false]
  have cut := upgrade_recoverable ok host (by omega) start lasts (by omega) lost
  exact (cut.mono (fun _ _ never => never.elim) fun _ cut => cut).stopped

/-- The board where power goes behind that erase. -/
def cutInBlock : Board :=
  (handleUpgrade (.poweredFor oneBlock untilBlock) (powerOn requested)).state

/-- The board after the boot that follows: the old image has been restored. -/
def oldRestored : Board :=
  (handleUpgrade (.flawless oneBlock) (powerOn cutInBlock.flash)).state

private theorem cutInBlock_recoverable : Recoverable requested cutInBlock.flash := by
  have one : announcedBlocks oneBlock = 1 := by decide
  have start : flagOf requested = UPGRADESTART := by decide
  exact untilBlock_recoverable one start

/-- An upgrade is cut while the first block is programmed, and the next boot recovers. -/
theorem upgrade_startsOldOrNew_recovered :
    flagOf cutInBlock.flash ≠ UPGRADESTART ∧ typeOf cutInBlock.flash = 2000 ∧
      OldOrNew requested oneBlock (powerOn oldRestored.flash).flash := by
  obtain ⟨noStart, type, backup⟩ := cutInBlock_recoverable
  have cut : Reached requested oneBlock (BackupReady requested) cutInBlock.flash :=
    .boot (.poweredFor oneBlock untilBlock) .start (fun noStart => absurd (by decide) noStart)
      (Environment.poweredFor_succeeds oneBlock untilBlock) rfl
  have restored : Reached requested oneBlock (BackupReady requested) oldRestored.flash :=
    .boot (.flawless oneBlock) cut (fun _ _ => backup) (Environment.flawless_succeeds oneBlock) rfl
  obtain ⟨noStart', type'⟩ :=
    recover_idle (Environment.flawless_succeeds oneBlock) (fun _ => rfl) noStart type
  exact ⟨noStart, type, upgrade_startsOldOrNew (by decide) (by decide) oldRestored.flash restored
    (.flawless oneBlock) (powerOn oldRestored.flash) (jump_of_idle noStart' type')⟩

/-- The flash after a power loss before the first operation of the backup. -/
def cutAtBackup : Memory :=
  (handleUpgrade (.poweredFor oneBlock 4) (powerOn requested)).state.flash

/-- The flash after the boot that follows: the blank backup has been restored. -/
def staleRestored : Memory :=
  (handleUpgrade (.flawless oneBlock) (powerOn cutAtBackup)).state.flash

private theorem cutAtBackup_recovers :
    flagOf cutAtBackup ≠ UPGRADESTART ∧ typeOf cutAtBackup = 2000 ∧
      cutAtBackup backupAddress.toNat = 0xFF := by
  decide

private theorem staleRestored_reached :
    Reached requested oneBlock (fun _ => True) staleRestored := by
  have cut : Reached requested oneBlock (fun _ => True) cutAtBackup := by
    rw [cutAtBackup]
    exact .boot _ .start trivial (Environment.poweredFor_succeeds oneBlock 4) rfl
  rw [staleRestored]
  exact .boot _ cut trivial (Environment.flawless_succeeds oneBlock) rfl

private theorem staleRestored_idle :
    flagOf staleRestored ≠ UPGRADESTART ∧ typeOf staleRestored ≠ 2000 ∧
      staleRestored appAddress.toNat = 0xFF := by
  obtain ⟨noStart, type, blank⟩ := cutAtBackup_recovers
  obtain ⟨-, -, app, -, size⟩ := parameterPages
  have ok := Environment.flawless_succeeds oneBlock
  obtain ⟨noStart', type'⟩ := recover_idle ok (fun _ => rfl) noStart type
  refine ⟨noStart', type', ?_⟩
  rw [staleRestored, recover_final ok (fun _ => rfl) noStart type, typeWord_outside (by omega),
    copied, fill_inside (Nat.le_refl _) (by decide), Nat.sub_self]
  exact blank

/-- Without the condition a stale backup is started. -/
theorem upgrade_startsStale : ¬StartsOldOrNew requested oneBlock fun _ => True := by
  intro promised
  obtain ⟨noStart, type, blank⟩ := staleRestored_idle
  have first : 0 < copySize := by decide
  rcases promised staleRestored staleRestored_reached (.flawless oneBlock) (powerOn staleRestored)
    (jump_of_idle noStart type) with old | new
  · have byte := old 0 first
    rw [Nat.add_zero, powerOn_flash, blank] at byte
    exact absurd byte (by decide)
  · have byte := new 0 first
    rw [Nat.add_zero, powerOn_flash, blank] at byte
    exact absurd byte (by decide)

end BmsFirmware.Upgrade.PowerFail
