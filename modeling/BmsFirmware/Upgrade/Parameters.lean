/- Module: BmsFirmware/Upgrade/Parameters
   Source: application/common/src/systick.c, application/upgrade/boot.c,
     application/dataprocess/process.c, Makefile
   Digest: Which writes of the three parameter words leave the other words alone. -/

import BmsFirmware.DataProcess.Process
import BmsFirmware.Upgrade.Boot

set_option autoImplicit false
set_option relaxedAutoImplicit false

namespace BmsFirmware.Upgrade.Parameters

open BmsFirmware.Library.ByteMemory
open BmsFirmware.Library.PowerLogic
open BmsFirmware.Flash.Controller
open BmsFirmware.Flash.Systick
open BmsFirmware.Flash.PageImage
open BmsFirmware.DataProcess.Process
open BmsFirmware.Upgrade.Boot

/-- The parameter words of the Makefile. -/
inductive Parameter where
  | flag
  | crc32
  | applicationType
  deriving DecidableEq

def Parameter.address : Parameter → Word
  | .flag => upgradeFlagAddress
  | .crc32 => upgradeCrc32Address
  | .applicationType => upgradeApplicationTypeAddress

/-- The reader of a parameter; that of the flag returns it through its argument. -/
def Parameter.read : Parameter → Proc Board Word
  | .flag => do
      let result ← upgradeReadFlag
      return result.2
  | .crc32 => readApplicationCrc
  | .applicationType => readApplicationType

/-- The flash page that a parameter lies in. -/
def Parameter.page (p : Parameter) : Nat := p.address.toNat / pageSize

/-- The word that a flash holds for a parameter. -/
def Parameter.value (p : Parameter) (m : Memory) : Word := wordAt m p.address.toNat

theorem Parameter.read_eq (p : Parameter) (b : Board) : p.read b = .done (p.value b.flash) b := by
  cases p <;> rfl

/-! ### The writes of the two programs -/

/-- The parameter writes of `process_upgrade` (the first) and `handle_upgrade`. -/
inductive ParameterWrite where
  | requested
  | accepted
  | installing
  | installed
  deriving DecidableEq

def ParameterWrite.parameter : ParameterWrite → Parameter
  | .requested => .flag
  | .accepted => .flag
  | .installing => .applicationType
  | .installed => .applicationType

def ParameterWrite.data : ParameterWrite → Word
  | .requested => UPGRADESTART
  | .accepted => UPGRADESTOP
  | .installing => 2000
  | .installed => 1000

def ParameterWrite.run (env : Environment) (w : ParameterWrite) : Proc Board FmcState :=
  upgradeFmcWriteData env w.parameter.address w.data

theorem processUpgrade_writes (env : Environment) (d : Device) :
    processUpgrade env d =
      { d with board := (ParameterWrite.requested.run env d.board).state } :=
  rfl

theorem upgradeBranch_writes (params backup run : Environment) :
    upgradeBranch params backup run = (do
      let _ ← ParameterWrite.accepted.run params
      let _ ← ParameterWrite.installing.run params
      upgradeBackup backup
      upgradeRun run
      let _ ← ParameterWrite.installed.run params
      return ()) := by
  simp only [upgradeBranch, ParameterWrite.run, ParameterWrite.parameter, ParameterWrite.data,
    Parameter.address]

/-- Parameter writes one after the other, by whichever program. -/
def writeAll (env : Environment) : List ParameterWrite → Proc Board Unit
  | [] => pure ()
  | w :: ws => do
      let _ ← w.run env
      writeAll env ws

/-! ### Independence -/

/-- Power lasts and every flash operation succeeds. -/
def FlashWorks (env : Environment) : Prop :=
  ∀ k, env.power k = true ∧ env.answer k = .success

/-- Whatever is written to a parameter reads back, and the other parameters read as before. -/
def Independent (env : Environment) (p : Parameter) (b : Board) : Prop :=
  ∀ d, (upgradeFmcWriteData env p.address d b).Sat
    (fun st s => st = .ready ∧ p.read s = .done d s ∧
      ∀ q ≠ p, q.read s = .done (q.value b.flash) s)
    (fun _ => False)

/-- After the writes the stored checksum of the application reads as before. -/
def KeepsCrc (env : Environment) (ws : List ParameterWrite) (b : Board) : Prop :=
  (writeAll env ws b).Sat
    (fun _ s => readApplicationCrc s = .done (Parameter.crc32.value b.flash) s) (fun _ => False)

/-! ### One write -/

/-- A write leaves the flash with the word programmed into its erased page. -/
private theorem write_flash {env : Environment} (works : FlashWorks env) (a d : Word)
    (b : Board) :
    (upgradeFmcWriteData env a d b).Sat
      (fun st s => st = .ready ∧ s.flash = partialWord b.flash a d 2) (fun _ => False) := by
  have ok : ({ env with malloc := fun _ => true } : Environment).Succeeds :=
    ⟨fun k => (works k).2, fun _ => rfl⟩
  -- The writer allocates nothing.
  change (upgradeFmcWriteData { env with malloc := fun _ => true } a d b).Sat _ _
  refine (upgradeFmcWriteData_sat ok a d b).mono ?_ ?_
  · intro st s ends
    refine ⟨ends.1, ?_⟩
    rw [ends.2.word]
  · intro s lost
    obtain ⟨k, -, -, -, power⟩ := lost
    exact Environment.lasting (fun k => (works k).1) _ power

/-- The rest of the page of a written word is erased. -/
private theorem partialWord_blank {m : Memory} {a d : Word} {x : Nat}
    (page : x / pageSize = a.toNat / pageSize) (away : x < a.toNat ∨ a.toNat + 4 ≤ x) :
    partialWord m a d 2 x = 0xFF := by
  change fill (fill m _ _ _) a.toNat 4 _ x = _
  rw [fill_outside away]
  apply fill_inside
  · simp only [FlashOp.first]
    unfold pageSize at *
    omega
  · simp only [FlashOp.first, FlashOp.extent]
    unfold pageSize at *
    omega

private theorem Parameter.fits (p : Parameter) : p.address.toNat % pageSize + 4 ≤ pageSize := by
  cases p <;> decide

private theorem Parameter.apart {p q : Parameter} (other : q ≠ p) :
    q.address.toNat + 4 ≤ p.address.toNat ∨ p.address.toNat + 4 ≤ q.address.toNat := by
  cases p <;> cases q <;> first | exact absurd rfl other | decide

/-- What a parameter reads after a write: the data, an erased word, or what it read before. -/
private theorem value_written (p q : Parameter) (m : Memory) (d : Word) :
    q.value (partialWord m p.address d 2) =
      if q = p then d else if q.page = p.page then 0xFFFFFFFF else q.value m := by
  have fits := q.fits
  unfold Parameter.page
  by_cases same : q = p
  · rw [if_pos same, same]
    exact partialWord_full m p.address d
  · have apart := Parameter.apart same
    rw [if_neg same]
    by_cases page : q.address.toNat / pageSize = p.address.toNat / pageSize
    · rw [if_pos page]
      have blank (i : Nat) (low : i < 4) :
          partialWord m p.address d 2 (q.address.toNat + i) = 0xFF := by
        apply partialWord_blank
        · unfold pageSize at *
          omega
        · omega
      exact (wordAt_congr blank).trans (wordAt_ones q.address.toNat)
    · rw [if_neg page]
      apply wordAt_congr
      intro i low
      apply partialWord_outside _ p.fits
      unfold pageSize at *
      omega

theorem independent_iff {env : Environment} (works : FlashWorks env) (p : Parameter)
    (b : Board) :
    Independent env p b ↔ ∀ q ≠ p, q.page = p.page → q.value b.flash = 0xFFFFFFFF := by
  constructor
  · intro independent q other page
    obtain ⟨st, s, run, -, flash⟩ := (write_flash works p.address 0 b).returns
    have kept := independent 0
    rw [run] at kept
    have reads := kept.2.2 q other
    rw [q.read_eq, flash, value_written, if_neg other, if_pos page] at reads
    injection reads with value _
    exact value.symm
  · intro erased d
    refine (write_flash works p.address d b).mono ?_ fun _ lost => lost
    intro st s written
    obtain ⟨ready, flash⟩ := written
    refine ⟨ready, ?_, ?_⟩
    · rw [p.read_eq, flash, value_written, if_pos rfl]
    · intro q other
      rw [q.read_eq, flash, value_written, if_neg other]
      split_ifs with page
      · rw [erased q other page]
      · rfl

/-! ### Sequences of writes -/

/-- The checksum after a write of the firmware: only a flag write reaches its page. -/
private theorem crc_written (w : ParameterWrite) (m : Memory) :
    Parameter.crc32.value (partialWord m w.parameter.address w.data 2) =
      if w.parameter = .flag then 0xFFFFFFFF else Parameter.crc32.value m := by
  rw [value_written]
  cases w <;> rfl

private theorem writeAll_crc {env : Environment} (works : FlashWorks env)
    (ws : List ParameterWrite) (b : Board) :
    (writeAll env ws b).Sat
      (fun _ s => Parameter.crc32.value s.flash =
        if ∃ w ∈ ws, w.parameter = .flag then 0xFFFFFFFF else Parameter.crc32.value b.flash)
      (fun _ => False) := by
  induction ws generalizing b with
  | nil => simp [writeAll, Outcome.Sat]
  | cons w ws ih =>
    obtain ⟨st, t, run, -, flash⟩ := (write_flash works w.parameter.address w.data b).returns
    have first : writeAll env (w :: ws) b = writeAll env ws t := bind_done run
    rw [first]
    refine (ih t).mono ?_ fun _ lost => lost
    intro _ s after
    rw [after, flash, crc_written]
    by_cases flagged : w.parameter = .flag
    · simp [flagged]
    · simp [flagged]

theorem keepsCrc_iff {env : Environment} (works : FlashWorks env) (ws : List ParameterWrite)
    (b : Board) :
    KeepsCrc env ws b ↔
      (∀ w ∈ ws, w.parameter ≠ .flag) ∨ readApplicationCrc b = .done 0xFFFFFFFF b := by
  obtain ⟨_, s, run, after⟩ := (writeAll_crc works ws b).returns
  have stored (t : Board) : readApplicationCrc t = .done (Parameter.crc32.value t.flash) t :=
    Parameter.crc32.read_eq t
  have kept : KeepsCrc env ws b ↔
      Parameter.crc32.value s.flash = Parameter.crc32.value b.flash := by
    unfold KeepsCrc
    rw [run]
    simp only [Outcome.Sat, stored, Outcome.done.injEq, and_true]
  rw [kept, after, stored]
  simp only [Outcome.done.injEq, and_true]
  by_cases flagged : ∃ w ∈ ws, w.parameter = .flag
  · obtain ⟨w, listed, isFlag⟩ := flagged
    rw [if_pos ⟨w, listed, isFlag⟩]
    refine ⟨fun same => Or.inr same.symm, ?_⟩
    intro cases
    rcases cases with none | erased
    · exact absurd isFlag (none w listed)
    · exact erased.symm
  · rw [if_neg flagged]
    refine iff_of_true rfl (Or.inl ?_)
    intro w listed isFlag
    exact flagged ⟨w, listed, isFlag⟩

/-- A write leaves the other parameters alone exactly where those of its page are erased;
a sequence of the firmware's writes keeps the checksum exactly where it never writes the
flag or the checksum is erased. -/
theorem parameters_independent_iff {env : Environment} (works : FlashWorks env) (b : Board) :
    (∀ p, Independent env p b ↔ ∀ q ≠ p, q.page = p.page → q.value b.flash = 0xFFFFFFFF) ∧
      ∀ ws, KeepsCrc env ws b ↔
        (∀ w ∈ ws, w.parameter ≠ .flag) ∨ readApplicationCrc b = .done 0xFFFFFFFF b :=
  ⟨fun p => independent_iff works p b, fun ws => keepsCrc_iff works ws b⟩

/-- Where nothing is stored in the flag word, a write of the checksum is independent. -/
theorem parameters_independent_blank :
    Independent (.flawless fun _ => 0) .crc32 (powerOn fun _ => 0xFF) := by
  have works : FlashWorks (.flawless fun _ => 0) := fun _ => ⟨rfl, rfl⟩
  exact ((parameters_independent_iff works (powerOn fun _ => 0xFF)).1 .crc32).mpr
    fun q _ _ => wordAt_ones q.address.toNat

/-- An upgrade request erases a stored checksum of zero. -/
theorem upgradeRequest_erasesCrc :
    ¬Independent (.flawless fun _ => 0) .flag (powerOn fun _ => 0) ∧
      ¬KeepsCrc (.flawless fun _ => 0) [.requested] (powerOn fun _ => 0) := by
  have works : FlashWorks (.flawless fun _ => 0) := fun _ => ⟨rfl, rfl⟩
  have zero : Parameter.crc32.value (fun _ => 0) ≠ 0xFFFFFFFF := by decide
  constructor
  · intro independent
    exact zero ((independent_iff works .flag _).mp independent .crc32 (by decide) (by decide))
  · intro kept
    rcases (keepsCrc_iff works _ _).mp kept with none | erased
    · exact none .requested (by simp) rfl
    · have stored := (Parameter.crc32.read_eq (powerOn fun _ => 0)).symm.trans erased
      injection stored with value _
      exact zero value

end BmsFirmware.Upgrade.Parameters
