/- Module: BmsFirmware/Common/Delay
   Source: application/common/src/systick.c
   Digest: When the microsecond delay is never short. -/

import BmsFirmware.Library.ByteMemory
import BmsFirmware.Library.DownCounter
import BmsFirmware.Library.PowerLogic

set_option autoImplicit false
set_option relaxedAutoImplicit false

namespace BmsFirmware.Common.Delay

open BmsFirmware.Library.ByteMemory
open BmsFirmware.Library.DownCounter
open BmsFirmware.Library.PowerLogic

/-! ### The delay -/

/-- The SysTick registers, with the number of gaps between two register reads that have
gone by and the clocks in them. -/
structure Timer where
  systick : Counter
  gaps : Nat
  elapsed : Nat
  deriving DecidableEq

section Code

variable (gap : Nat → Nat)

/-- The timer when the next register is read. -/
def Timer.passed (s : Timer) : Timer where
  systick := advance (gap s.gaps) s.systick
  gaps := s.gaps + 1
  elapsed := s.elapsed + gap s.gaps

/-- The timer after a read of the control register. -/
def Timer.flagRead (s : Timer) : Timer :=
  { s with systick := { s.systick with countFlag := false } }

def pass : Proc Timer Unit := Proc.modify (Timer.passed gap)

/-- `SysTick->VAL`. -/
def readVal : Proc Timer Word := fun s => .done (BitVec.ofNat 32 s.systick.val) s

/-- `SysTick->LOAD`. -/
def readLoad : Proc Timer Word := fun s => .done (BitVec.ofNat 32 s.systick.load) s

/-- `SysTick->CTRL & SysTick_CTRL_COUNTFLAG_Msk`. -/
def readCountFlag : Proc Timer Bool := fun s => .done s.systick.countFlag s.flagRead

/-- The condition of the loop and its body. -/
def delayTurn (ticks start : Word) : Proc Timer (Word ⊕ Unit) := do
  pass gap
  let val ← readVal
  if start - val < ticks then
    pass gap
    let countFlag ← readCountFlag
    if countFlag then
      let load ← readLoad
      return .inl (start + load)
    return .inl start
  return .inr ()

def delay1us (fuel : Nat) (systemCoreClock us : Word) : Proc Timer Unit := do
  let ticks := us * (systemCoreClock / 1000000)
  let start ← readVal
  loopWith (delayTurn gap ticks) fuel start

end Code

/-- The timer at the read of the start value. -/
def Timer.started (load val : Nat) (countFlag : Bool) : Timer := ⟨⟨load, val, countFlag⟩, 0, 0⟩

/-- The clocks that the delay is to last. -/
def delayClocks (systemCoreClock us : Word) : Nat := us.toNat * (systemCoreClock.toNat / 1000000)

/-- However long it loops, the delay does not return before its clocks have gone by. -/
def NeverShort (gap : Nat → Nat) (systemCoreClock us : Word) (s : Timer) : Prop :=
  ∀ fuel, (delay1us gap fuel systemCoreClock us s).Sat
    (fun _ t => delayClocks systemCoreClock us ≤ t.elapsed) fun _ => True

/-! ### The reload and the reads -/

/-- The clocks up to the end of the first `n` gaps: gap `2 i` ends with the `i`-th read of
the value in the loop, gap `2 i + 1` with the `i`-th read of the flag. -/
def clocksUpTo (gap : Nat → Nat) : Nat → Nat
  | 0 => 0
  | n + 1 => clocksUpTo gap n + gap n

def valRead (gap : Nat → Nat) (i : Nat) : Nat := clocksUpTo gap (2 * i + 1)

def flagRead (gap : Nat → Nat) (i : Nat) : Nat := clocksUpTo gap (2 * i + 2)

/-- The first reload follows `val` clocks after the start. With a clear flag on entry it
must not fall between a read of the flag, or the start, and the next read of the value that
comes before the delay is over. With a set flag, which counts as a reload, it must come
between the first two of these reads of the value and, where there is a third, before the
first read of the flag. -/
def InStep (gap : Nat → Nat) (clocks val : Nat) (countFlag : Bool) : Prop :=
  match countFlag with
  | false => ∀ i, valRead gap i < clocks →
      ¬(clocksUpTo gap (2 * i) ≤ val ∧ val < valRead gap i)
  | true => (valRead gap 0 < clocks → valRead gap 0 ≤ val) ∧
      (valRead gap 1 < clocks → val < valRead gap 1) ∧
      (valRead gap 2 < clocks → val < flagRead gap 0)

/-- A running counter with a 24-bit reload value, and a delay and gaps between reads below it. -/
structure Setting (gap : Nat → Nat) (systemCoreClock us : Word) (load val : Nat) : Prop where
  register : load < 2 ^ 24
  counter : val ≤ load
  gaps : ∀ k, gap k < load
  delay : delayClocks systemCoreClock us < load

section Times

variable {gap : Nat → Nat} {n m : Nat}

theorem clocksUpTo_mono (le : n ≤ m) : clocksUpTo gap n ≤ clocksUpTo gap m := by
  induction le with
  | refl => exact Nat.le_refl _
  | step _ ih => exact Nat.le_trans ih (Nat.le_add_right _ _)

end Times

/-! ### One turn -/

section Loop

variable {gap : Nat → Nat} {ticks : Word}

variable (gap ticks) in
/-- From here on the loop does not leave too early. -/
def Safe (start : Word) (s : Timer) : Prop :=
  ∀ fuel, (loopWith (delayTurn gap ticks) fuel start s).Sat
    (fun _ t => ticks.toNat ≤ t.elapsed) fun _ => True

/-- The start value after a read of the flag. -/
def corrected (start : Word) (s : Timer) : Word :=
  if s.systick.countFlag then start + BitVec.ofNat 32 s.systick.load else start

variable (gap ticks) in
theorem delayTurn_eq (start : Word) (s : Timer) :
    delayTurn gap ticks start s =
      if start - BitVec.ofNat 32 (s.passed gap).systick.val < ticks then
        .done (.inl (corrected start ((s.passed gap).passed gap)))
          ((s.passed gap).passed gap).flagRead
      else .done (.inr ()) (s.passed gap) := by
  change (if start - BitVec.ofNat 32 (s.passed gap).systick.val < ticks then _ else _ :
    Proc Timer (Word ⊕ Unit)) (s.passed gap) = _
  split_ifs with early
  · change (if ((s.passed gap).passed gap).systick.countFlag then _ else _ :
      Proc Timer (Word ⊕ Unit)) ((s.passed gap).passed gap).flagRead = _
    unfold corrected
    split_ifs <;> rfl
  · rfl

theorem safe_goesOn {start : Word} {s : Timer}
    (early : start - BitVec.ofNat 32 (s.passed gap).systick.val < ticks) :
    Safe gap ticks start s ↔
      Safe gap ticks (corrected start ((s.passed gap).passed gap))
        ((s.passed gap).passed gap).flagRead := by
  have turn := delayTurn_eq gap ticks start s
  rw [if_pos early] at turn
  constructor
  · intro safe fuel
    have longer := safe (fuel + 1)
    rwa [loopWith_next turn] at longer
  · intro safe fuel
    cases fuel with
    | zero => trivial
    | succ fuel =>
      rw [loopWith_next turn]
      exact safe fuel

theorem safe_leaves {start : Word} {s : Timer}
    (due : ¬start - BitVec.ofNat 32 (s.passed gap).systick.val < ticks) :
    Safe gap ticks start s ↔ ticks.toNat ≤ (s.passed gap).elapsed := by
  have turn := delayTurn_eq gap ticks start s
  rw [if_neg due] at turn
  constructor
  · intro safe
    have once := safe 1
    rwa [loopWith_leave turn] at once
  · intro late fuel
    cases fuel with
    | zero => trivial
    | succ fuel =>
      rw [loopWith_leave turn]
      exact late

/-- A turn whose read of the value comes when the delay is over. -/
private theorem turn_late {start : Word} {s : Timer}
    (late : ticks.toNat ≤ (s.passed gap).elapsed) :
    (delayTurn gap ticks start s).Sat
      (Next (fun _ t => ticks.toNat ≤ t.elapsed) fun _ t => ticks.toNat ≤ t.elapsed)
      fun _ => True := by
  rw [delayTurn_eq]
  split_ifs
  · exact Nat.le_trans late (Nat.le_add_right _ _)
  · exact late

/-- Once the delay is over the loop may leave when it likes. -/
private theorem safe_late {start : Word} {s : Timer} (late : ticks.toNat ≤ s.elapsed) :
    Safe gap ticks start s := by
  intro fuel
  refine Triple.loopWith (I := fun _ s => ticks.toNat ≤ s.elapsed) ?_ (fun _ _ _ => trivial)
    fuel start s late
  intro start s late
  exact turn_late (Nat.le_trans late (Nat.le_add_right _ _))

/-- A next read of the value that comes when the delay is over. -/
private theorem safe_overdue {start : Word} {s : Timer}
    (late : ticks.toNat ≤ (s.passed gap).elapsed) : Safe gap ticks start s := by
  by_cases early : start - BitVec.ofNat 32 (s.passed gap).systick.val < ticks
  · exact (safe_goesOn early).mpr (safe_late (Nat.le_trans late (Nat.le_add_right _ _)))
  · exact (safe_leaves early).mpr late

end Loop

/-! ### Before and behind the first reload -/

section Phases

variable {gap : Nat → Nat} {ticks : Word} {load val n : Nat} {countFlag : Bool}

variable (gap load val n countFlag) in
/-- The timer after `n` gaps, not yet reloaded. -/
def running : Timer :=
  ⟨⟨load, val - clocksUpTo gap n, countFlag⟩, n, clocksUpTo gap n⟩

variable (gap load val n countFlag) in
/-- The timer after `n` gaps, reloaded once. -/
def reloaded : Timer :=
  ⟨⟨load, val + load + 1 - clocksUpTo gap n, countFlag⟩, n, clocksUpTo gap n⟩

private theorem running_passed (before : clocksUpTo gap (n + 1) ≤ val) :
    (running gap load val n countFlag).passed gap = running gap load val (n + 1) countFlag := by
  rw [clocksUpTo] at before
  unfold Timer.passed running
  rw [advance_running (by dsimp only; omega), clocksUpTo, Nat.sub_sub]

private theorem running_reloads (before : clocksUpTo gap n ≤ val)
    (behind : val < clocksUpTo gap (n + 1)) (short : gap n < load) :
    (running gap load val n countFlag).passed gap = reloaded gap load val (n + 1) true := by
  rw [clocksUpTo] at behind
  unfold Timer.passed running reloaded
  rw [advance_reloaded (by dsimp only; omega) (by dsimp only; omega), clocksUpTo]
  dsimp only
  congr 2
  omega

private theorem reloaded_passed (once : clocksUpTo gap (n + 1) ≤ val + load + 1) :
    (reloaded gap load val n countFlag).passed gap = reloaded gap load val (n + 1) countFlag := by
  rw [clocksUpTo] at once
  unfold Timer.passed reloaded
  rw [advance_running (by dsimp only; omega), clocksUpTo, Nat.sub_sub]

/-- The unsigned difference of the loop's condition. -/
private theorem difference_lt {a b : Nat} (first : a < 2 ^ 26) (second : b ≤ 2 ^ 26)
    (few : ticks.toNat < 2 ^ 24) :
    BitVec.ofNat 32 a - BitVec.ofNat 32 b < ticks ↔ b ≤ a ∧ a - b < ticks.toNat := by
  rw [BitVec.lt_def, BitVec.toNat_sub, BitVec.toNat_ofNat, BitVec.toNat_ofNat]
  omega

variable (gap ticks load val) in
/-- The delay is over, or the reload has been counted. -/
inductive Counted (start : Word) (s : Timer) : Prop where
  | late (due : ticks.toNat ≤ s.elapsed)
  | counted (n : Nat) (behind : val < clocksUpTo gap n)
      (place : start = BitVec.ofNat 32 (val + load)) (timer : s = reloaded gap load val n false)

variable (gap ticks load val) in
/-- The delay is over, the reload has been counted, or it is still to come. -/
inductive Awaited (start : Word) (s : Timer) : Prop where
  | counted (done : Counted gap ticks load val start s)
  | awaiting (i : Nat) (before : clocksUpTo gap (2 * i) ≤ val) (place : start = BitVec.ofNat 32 val)
      (timer : s = running gap load val (2 * i) false)

section Turns

variable (register : load < 2 ^ 24) (counter : val ≤ load) (short : ∀ k, gap k < load)
  (few : ticks.toNat < load)

include register counter few

/-- With the reload counted, the difference is the elapsed time less the lost clock. -/
private theorem counted_turn {start : Word} {s : Timer}
    (counted : Counted gap ticks load val start s) :
    (delayTurn gap ticks start s).Sat
      (Next (Counted gap ticks load val) fun _ t => ticks.toNat ≤ t.elapsed) fun _ => True := by
  have overdue (late : ticks.toNat ≤ (s.passed gap).elapsed) :
      (delayTurn gap ticks start s).Sat
        (Next (Counted gap ticks load val) fun _ t => ticks.toNat ≤ t.elapsed) fun _ => True := by
    refine (turn_late late).mono ?_ fun _ lost => lost
    intro r t after
    cases r with
    | inl next => exact .late after
    | inr _ => exact after
  cases counted with
  | late elapsed => exact overdue (Nat.le_trans elapsed (Nat.le_add_right _ _))
  | counted n behind place timer =>
    by_cases early : clocksUpTo gap (n + 1) < ticks.toNat
    · have later : clocksUpTo gap n ≤ clocksUpTo gap (n + 1) := clocksUpTo_mono (Nat.le_succ n)
      have first : s.passed gap = reloaded gap load val (n + 1) false := by
        rw [timer, reloaded_passed (by omega)]
      rw [delayTurn_eq, first, if_pos]
      · by_cases soon : clocksUpTo gap (n + 2) < ticks.toNat
        · rw [reloaded_passed (by change clocksUpTo gap (n + 2) ≤ _; omega)]
          refine .counted (n + 2) ?_ place rfl
          exact Nat.lt_of_lt_of_le behind (clocksUpTo_mono (by omega))
        · exact .late (Nat.le_of_not_lt soon)
      · rw [place]
        apply (difference_lt (by omega) _ (by omega)).mpr
        · change val + load + 1 - clocksUpTo gap (n + 1) ≤ _ ∧
            val + load - (val + load + 1 - clocksUpTo gap (n + 1)) < _
          omega
        · change val + load + 1 - clocksUpTo gap (n + 1) ≤ _
          omega
    · apply overdue
      rw [timer]
      exact Nat.le_of_not_lt early

private theorem safe_counted {start : Word} {s : Timer}
    (counted : Counted gap ticks load val start s) : Safe gap ticks start s :=
  fun fuel => Triple.loopWith (fun _ _ h => counted_turn register counter few h)
    (fun _ _ _ => trivial) fuel start s counted

/-- Before the reload the difference is the elapsed time. -/
private theorem running_early (before : clocksUpTo gap (n + 1) ≤ val)
    (early : clocksUpTo gap (n + 1) < ticks.toNat) :
    BitVec.ofNat 32 val -
      BitVec.ofNat 32 (running gap load val (n + 1) countFlag).systick.val < ticks := by
  apply (difference_lt (by omega) _ (by omega)).mpr
  · change val - clocksUpTo gap (n + 1) ≤ _ ∧ val - (val - clocksUpTo gap (n + 1)) < _
    omega
  · change val - clocksUpTo gap (n + 1) ≤ _
    omega

/-- Before the reload the loop goes on while the delay lasts. -/
private theorem safe_running (before : clocksUpTo gap (n + 1) ≤ val)
    (early : clocksUpTo gap (n + 1) < ticks.toNat) :
    Safe gap ticks (BitVec.ofNat 32 val) (running gap load val n countFlag) ↔
      Safe gap ticks
        (corrected (BitVec.ofNat 32 val) ((running gap load val (n + 1) countFlag).passed gap))
        ((running gap load val (n + 1) countFlag).passed gap).flagRead := by
  have first : (running gap load val n countFlag).passed gap =
      running gap load val (n + 1) countFlag := running_passed before
  rw [safe_goesOn, first]
  rw [first]
  exact running_early register counter few before early

include short

/-- A reload that the next read of the value meets first makes the loop leave at once. -/
private theorem not_safe_missed (before : clocksUpTo gap n ≤ val)
    (behind : val < clocksUpTo gap (n + 1)) (early : clocksUpTo gap (n + 1) < ticks.toNat) :
    ¬Safe gap ticks (BitVec.ofNat 32 val) (running gap load val n countFlag) := by
  have first : (running gap load val n countFlag).passed gap =
      reloaded gap load val (n + 1) true := running_reloads before behind (short n)
  rw [safe_leaves, first]
  · exact Nat.not_le_of_lt early
  · rw [first, difference_lt (by omega) _ (by omega)]
    · change ¬(val + load + 1 - clocksUpTo gap (n + 1) ≤ _ ∧ _)
      omega
    · change val + load + 1 - clocksUpTo gap (n + 1) ≤ _
      omega

omit register counter few in
/-- With a clear flag the loop finds a reload that comes before a read of the flag. -/
private theorem awaited_step {i : Nat} (before : valRead gap i ≤ val) :
    Awaited gap ticks load val
      (corrected (BitVec.ofNat 32 val) ((running gap load val (2 * i + 1) false).passed gap))
      ((running gap load val (2 * i + 1) false).passed gap).flagRead := by
  by_cases soon : flagRead gap i < ticks.toNat
  · by_cases still : flagRead gap i ≤ val
    · rw [running_passed still]
      exact .awaiting (i + 1) still rfl rfl
    · have next : (running gap load val (2 * i + 1) false).passed gap = _ :=
        running_reloads before (Nat.lt_of_not_le still) (short (2 * i + 1))
      rw [next]
      refine .counted (.counted (2 * i + 2) (Nat.lt_of_not_le still) ?_ rfl)
      rw [BitVec.ofNat_add]
      rfl
  · exact .counted (.late (Nat.le_of_not_lt soon))

private theorem awaited_turn (inStep : InStep gap ticks.toNat val false) {start : Word}
    {s : Timer} (awaited : Awaited gap ticks load val start s) :
    (delayTurn gap ticks start s).Sat
      (Next (Awaited gap ticks load val) fun _ t => ticks.toNat ≤ t.elapsed) fun _ => True := by
  cases awaited with
  | counted done =>
    refine (counted_turn register counter few done).mono ?_ fun _ lost => lost
    intro r t after
    cases r with
    | inl next => exact .counted after
    | inr _ => exact after
  | awaiting i before place timer =>
    rw [place, timer]
    by_cases early : valRead gap i < ticks.toNat
    · have still : valRead gap i ≤ val := by
        by_contra behind
        exact inStep i early ⟨before, Nat.lt_of_not_le behind⟩
      rw [delayTurn_eq, running_passed still, if_pos]
      · exact awaited_step short still
      · exact running_early register counter few still early
    · have late : ticks.toNat ≤ valRead gap i := Nat.le_of_not_lt early
      refine (turn_late late).mono ?_ fun _ lost => lost
      intro r t after
      cases r with
      | inl next => exact .counted (.late after)
      | inr _ => exact after

/-- With a clear flag on entry. -/
private theorem safe_clear_iff :
    Safe gap ticks (BitVec.ofNat 32 val) (running gap load val 0 false) ↔
      InStep gap ticks.toNat val false := by
  constructor
  · intro safe i early missed
    obtain ⟨before, behind⟩ := missed
    -- The loop reaches read `i` of the value with the reload still to come.
    have reached (k : Nat) (le : k ≤ i) :
        Safe gap ticks (BitVec.ofNat 32 val) (running gap load val (2 * k) false) := by
      induction k with
      | zero => exact safe
      | succ k ih =>
        have soon : flagRead gap k ≤ clocksUpTo gap (2 * i) := clocksUpTo_mono (by omega)
        have order : valRead gap k ≤ flagRead gap k := clocksUpTo_mono (by omega)
        have here : clocksUpTo gap (2 * i) ≤ valRead gap i := clocksUpTo_mono (by omega)
        have before : valRead gap k ≤ val := by omega
        have early : valRead gap k < ticks.toNat := by omega
        have goesOn := (safe_running register counter few before early).mp (ih (by omega))
        rw [running_passed (show flagRead gap k ≤ val by omega)] at goesOn
        exact goesOn
    exact not_safe_missed register counter short few before behind early (reached i (Nat.le_refl i))
  · intro inStep fuel
    exact Triple.loopWith (fun _ _ h => awaited_turn register counter short few inStep h)
      (fun _ _ _ => trivial) fuel _ _ (.awaiting 0 (Nat.zero_le val) rfl rfl)

/-- With a set flag on entry, behind the first read of the flag: the correction has been
made before the reload, which then corrects once more. -/
private theorem safe_ahead_iff (before : flagRead gap 0 ≤ val) :
    Safe gap ticks (BitVec.ofNat 32 (val + load)) (running gap load val 2 false) ↔
      (valRead gap 1 < ticks.toNat → val < valRead gap 1) ∧ ¬valRead gap 2 < ticks.toNat := by
  have order : valRead gap 1 ≤ flagRead gap 1 := clocksUpTo_mono (by omega)
  have order' : flagRead gap 1 ≤ valRead gap 2 := clocksUpTo_mono (by omega)
  by_cases early : valRead gap 1 < ticks.toNat
  · by_cases still : valRead gap 1 ≤ val
    · refine iff_of_false ?_ fun inStep => absurd (inStep.1 early) (by omega)
      have first : (running gap load val 2 false).passed gap = running gap load val 3 false :=
        running_passed still
      rw [safe_leaves, first]
      · exact Nat.not_le_of_lt early
      · rw [first, difference_lt (by omega) _ (by omega)]
        · change ¬(val - valRead gap 1 ≤ _ ∧ val + load - (val - valRead gap 1) < _)
          omega
        · change val - valRead gap 1 ≤ _
          omega
    · have behind : val < valRead gap 1 := Nat.lt_of_not_le still
      have first : (running gap load val 2 false).passed gap = reloaded gap load val 3 true :=
        running_reloads before behind (short 2)
      simp only [early, behind, true_implies, true_and]
      rw [safe_goesOn, first]
      · by_cases soon : flagRead gap 1 < ticks.toNat
        · rw [reloaded_passed (show flagRead gap 1 ≤ _ by omega)]
          have twice : corrected (BitVec.ofNat 32 (val + load)) (reloaded gap load val 4 true) =
              BitVec.ofNat 32 (val + load + load) := by
            rw [BitVec.ofNat_add (val + load)]
            rfl
          change Safe gap ticks (corrected _ (reloaded gap load val 4 true))
            (reloaded gap load val 4 false) ↔ _
          rw [twice]
          by_cases last : valRead gap 2 < ticks.toNat
          · refine iff_of_false ?_ fun late => late last
            have next : (reloaded gap load val 4 false).passed gap =
                reloaded gap load val 5 false :=
              reloaded_passed (show valRead gap 2 ≤ _ by omega)
            rw [safe_leaves, next]
            · exact Nat.not_le_of_lt last
            · rw [next, difference_lt (by omega) _ (by omega)]
              · change ¬(val + load + 1 - valRead gap 2 ≤ _ ∧
                  val + load + load - (val + load + 1 - valRead gap 2) < _)
                omega
              · change val + load + 1 - valRead gap 2 ≤ _
                omega
          · exact iff_of_true (safe_overdue (Nat.le_of_not_lt last)) last
        · have late : ticks.toNat ≤ flagRead gap 1 := Nat.le_of_not_lt soon
          exact iff_of_true (safe_late late) (by omega)
      · rw [first]
        apply (difference_lt (by omega) _ (by omega)).mpr
        · change val + load + 1 - valRead gap 1 ≤ _ ∧
            val + load - (val + load + 1 - valRead gap 1) < _
          omega
        · change val + load + 1 - valRead gap 1 ≤ _
          omega
  · have late : ticks.toNat ≤ valRead gap 1 := Nat.le_of_not_lt early
    exact iff_of_true (safe_overdue late) (by omega)

/-- With a set flag on entry. -/
private theorem safe_set_iff :
    Safe gap ticks (BitVec.ofNat 32 val) (running gap load val 0 true) ↔
      InStep gap ticks.toNat val true := by
  have order : valRead gap 0 ≤ flagRead gap 0 := clocksUpTo_mono (by omega)
  have order' : flagRead gap 0 ≤ valRead gap 1 := clocksUpTo_mono (by omega)
  have order'' : valRead gap 1 ≤ valRead gap 2 := clocksUpTo_mono (by omega)
  unfold InStep
  by_cases early : valRead gap 0 < ticks.toNat
  · by_cases still : valRead gap 0 ≤ val
    · rw [safe_running register counter few still early]
      by_cases soon : flagRead gap 0 < ticks.toNat
      · by_cases behind : val < flagRead gap 0
        · have next : (running gap load val 1 true).passed gap = reloaded gap load val 2 true :=
            running_reloads still behind (short 1)
          rw [next]
          refine iff_of_true (safe_counted register counter few (.counted 2 behind ?_ rfl)) ?_
          · rw [BitVec.ofNat_add]
            rfl
          · omega
        · have before : flagRead gap 0 ≤ val := Nat.le_of_not_lt behind
          have next : (running gap load val 1 true).passed gap = running gap load val 2 true :=
            running_passed before
          have once : corrected (BitVec.ofNat 32 val) (running gap load val 2 true) =
              BitVec.ofNat 32 (val + load) := by
            rw [BitVec.ofNat_add]
            rfl
          rw [next, once]
          refine (safe_ahead_iff register counter short few before).trans ?_
          simp only [still, behind, implies_true, true_and, imp_false]
      · have late : ticks.toNat ≤ flagRead gap 0 := Nat.le_of_not_lt soon
        exact iff_of_true (safe_late late) (by omega)
    · have behind : val < valRead gap 0 := Nat.lt_of_not_le still
      refine iff_of_false ?_ fun inStep => still (inStep.1 early)
      exact not_safe_missed register counter short few (Nat.zero_le val) behind early
  · have late : ticks.toNat ≤ valRead gap 0 := Nat.le_of_not_lt early
    exact iff_of_true (safe_overdue late) (by omega)

end Turns

end Phases

/-- The delay is never short exactly when the reload keeps in step with the reads. -/
theorem delay1us_neverShort_iff {gap : Nat → Nat} {systemCoreClock us : Word} {load val : Nat}
    (setting : Setting gap systemCoreClock us load val) (countFlag : Bool) :
    NeverShort gap systemCoreClock us (.started load val countFlag) ↔
      InStep gap (delayClocks systemCoreClock us) val countFlag := by
  obtain ⟨register, counter, short, delay⟩ := setting
  have ticks : (us * (systemCoreClock / 1000000)).toNat = delayClocks systemCoreClock us := by
    unfold delayClocks at delay ⊢
    rw [BitVec.toNat_mul, BitVec.toNat_udiv]
    exact Nat.mod_eq_of_lt (by change us.toNat * (systemCoreClock.toNat / 1000000) < _; omega)
  have loop : NeverShort gap systemCoreClock us (.started load val countFlag) ↔
      Safe gap (us * (systemCoreClock / 1000000)) (BitVec.ofNat 32 val)
        (running gap load val 0 countFlag) := by
    unfold NeverShort Safe
    rw [ticks]
    exact Iff.rfl
  rw [loop, ← ticks]
  rw [← ticks] at delay
  cases countFlag with
  | false => exact safe_clear_iff register counter short delay
  | true => exact safe_set_iff register counter short delay

/-- Five microseconds at 120 MHz, with the tick of one millisecond that `systick_config` sets. -/
private theorem setting_fiveMicroseconds {val : Nat} (counter : val ≤ 119999) :
    Setting (fun _ => 10) 120000000 5 119999 val :=
  ⟨by decide, counter, fun _ => by decide, by decide⟩

/-- With the reload half a millisecond away the five microseconds pass. -/
theorem delay1us_neverShort_halfway :
    NeverShort (fun _ => 10) 120000000 5 (.started 119999 60000 false) :=
  (delay1us_neverShort_iff (setting_fiveMicroseconds (by decide)) false).mpr fun i early => by
    have clocks : delayClocks 120000000 5 = 600 := by decide
    omega

/-- A reload before the first read of the value, and a flag left set, end the delay early. -/
theorem delay1us_short :
    ¬NeverShort (fun _ => 10) 120000000 5 (.started 119999 5 false) ∧
      ¬NeverShort (fun _ => 10) 120000000 5 (.started 119999 60000 true) := by
  have clocks : delayClocks 120000000 5 = 600 := by decide
  constructor
  · intro never
    have left := never 1
    rw [clocks] at left
    change 600 ≤ 10 at left
    omega
  · intro never
    have left := never 2
    rw [clocks] at left
    change 600 ≤ 30 at left
    omega

end BmsFirmware.Common.Delay
