/- Module: BmsFirmware/Flash/FirstFailure
   Source: application/common/src/systick.c
   Digest: With power, the outcomes of a locked sequence decide how far it gets. -/

import BmsFirmware.Flash.PageImage

set_option autoImplicit false
set_option relaxedAutoImplicit false

namespace BmsFirmware.Flash.FirstFailure

open BmsFirmware.Library.ByteMemory
open BmsFirmware.Library.PowerLogic
open BmsFirmware.Flash.Controller
open BmsFirmware.Flash.Systick
open BmsFirmware.Flash.PageImage

/-! ### The outcomes of a sequence -/

/-- The first of `n` outcomes that is not ready. -/
def firstFailure (outcomes : Nat → Answer) (n : Nat) : Option Nat :=
  (List.range n).find? fun k => decide ((outcomes k).state ≠ .ready)

/-- How many of `n` operations are issued: up to the first that fails. -/
def attempted (outcomes : Nat → Answer) (n : Nat) : Nat :=
  match firstFailure outcomes n with
  | some k => k + 1
  | none => n

/-- What a sequence of `n` operations reports: the state of the one that failed. -/
def verdict (outcomes : Nat → Answer) (n : Nat) : FmcState :=
  match firstFailure outcomes n with
  | some k => (outcomes k).state
  | none => .ready

section Outcomes

variable {outcomes outcomes' : Nat → Answer} {n k : Nat}

theorem firstFailure_eq_none :
    firstFailure outcomes n = none ↔ ∀ k < n, (outcomes k).state = .ready := by
  simp [firstFailure, List.find?_eq_none]

theorem firstFailure_eq_some :
    firstFailure outcomes n = some k ↔
      k < n ∧ (outcomes k).state ≠ .ready ∧ ∀ i < k, (outcomes i).state = .ready := by
  simp only [firstFailure, List.find?_range_eq_some, List.mem_range, decide_eq_true_eq]
  constructor
  · rintro ⟨bad, bound, good⟩
    exact ⟨bound, bad, fun i hi => by simpa using good i hi⟩
  · rintro ⟨bound, bad, good⟩
    exact ⟨bad, bound, fun i hi => by simpa using good i hi⟩

theorem attempted_le : attempted outcomes n ≤ n := by
  unfold attempted
  cases failed : firstFailure outcomes n with
  | none => exact Nat.le_refl n
  | some k => exact (firstFailure_eq_some.mp failed).1

theorem attempted_ready (good : ∀ k < n, (outcomes k).state = .ready) :
    attempted outcomes n = n := by
  rw [attempted, firstFailure_eq_none.mpr good]

theorem verdict_eq_ready : verdict outcomes n = .ready ↔ ∀ k < n, (outcomes k).state = .ready := by
  unfold verdict
  cases failed : firstFailure outcomes n with
  | none => exact iff_of_true rfl (firstFailure_eq_none.mp failed)
  | some k =>
    obtain ⟨bound, bad, -⟩ := firstFailure_eq_some.mp failed
    exact iff_of_false bad fun good => bad (good k bound)

/-- A sequence that fails reports the state of its first failure. -/
theorem verdict_failed (failed : verdict outcomes n ≠ .ready) :
    ∃ k < n, verdict outcomes n = (outcomes k).state ∧ ∀ i < k, (outcomes i).state = .ready := by
  unfold verdict at failed ⊢
  cases first : firstFailure outcomes n with
  | none =>
    rw [first] at failed
    exact absurd rfl failed
  | some k =>
    obtain ⟨bound, -, good⟩ := firstFailure_eq_some.mp first
    exact ⟨k, bound, rfl, good⟩

/-- Only the outcomes of the operations that are issued matter. -/
theorem firstFailure_congr (same : ∀ k < attempted outcomes n, outcomes' k = outcomes k) :
    firstFailure outcomes' n = firstFailure outcomes n := by
  unfold attempted at same
  cases failed : firstFailure outcomes n with
  | none =>
    rw [failed] at same
    rw [firstFailure_eq_none] at failed ⊢
    intro k bound
    rw [same k bound]
    exact failed k bound
  | some k =>
    rw [failed] at same
    obtain ⟨bound, bad, good⟩ := firstFailure_eq_some.mp failed
    refine firstFailure_eq_some.mpr ⟨bound, ?_, ?_⟩
    · rw [same k (Nat.lt_succ_self k)]
      exact bad
    · intro i hi
      rw [same i (Nat.lt_succ_of_lt hi)]
      exact good i hi

theorem attempted_congr (same : ∀ k < attempted outcomes n, outcomes' k = outcomes k) :
    attempted outcomes' n = attempted outcomes n := by
  rw [attempted, firstFailure_congr same, attempted]

theorem verdict_congr (same : ∀ k < attempted outcomes n, outcomes' k = outcomes k) :
    verdict outcomes' n = verdict outcomes n := by
  have first := firstFailure_congr same
  unfold verdict
  rw [first]
  cases failed : firstFailure outcomes n with
  | none => rfl
  | some k =>
    unfold attempted at same
    rw [failed] at same
    dsimp only
    rw [same k (Nat.lt_succ_self k)]

end Outcomes

/-! ### Locked sequences -/

section Sequences

variable {env env' : Environment}

/-- The outcomes that the operations from number `c` on meet. -/
def outcomesFrom (env : Environment) (c : Nat) : Nat → Answer := fun k => env.answer (c + k)

/-- A locked sequence with power, in closed form. -/
theorem guarded_eq (power : ∀ k, env.power k = true) (ops : List FlashOp) (b : Board) :
    guarded env ops b = .done (verdict (outcomesFrom env b.clock) ops.length)
      { b.after env (ops.take (attempted (outcomesFrom env b.clock) ops.length)) with
        locked := true } := by
  obtain ⟨st, s, run, -, t, ended, rfl⟩ := (guarded_powered power ops b).returns
  rw [run]
  rcases ended with ⟨rfl, rfl, smooth⟩ | ⟨k, bound, bad, rfl, smooth, -, rfl⟩
  · have good : ∀ i < ops.length, (outcomesFrom env b.clock i).state = .ready :=
      fun i hi => (smooth i hi).2
    rw [verdict_eq_ready.mpr good, attempted_ready good, List.take_length]
  · have first : firstFailure (outcomesFrom env b.clock) ops.length = some k :=
      firstFailure_eq_some.mpr ⟨bound, bad, fun i hi => (smooth i hi).2⟩
    rw [verdict, attempted, first]
    rfl

/-- What operations leave at an address depends on what was there and on their outcomes. -/
theorem replay_congr {ops : List FlashOp} {x c c' : Nat} {m m' : Memory} (here : m' x = m x)
    (same : ∀ k < ops.length, outcomesFrom env' c' k = outcomesFrom env c k) :
    env'.replay c' ops m' x = env.replay c ops m x := by
  induction ops generalizing c c' m m' with
  | nil => exact here
  | cons op ops ih =>
    have first : env'.answer c' = env.answer c := same 0 (Nat.succ_pos _)
    refine ih ?_ ?_
    · rw [first]
      simp only [Answer.apply, fill, here]
    · intro k bound
      have next := same (k + 1) (Nat.succ_lt_succ bound)
      unfold outcomesFrom at next ⊢
      rwa [Nat.add_assoc, Nat.add_comm 1 k, Nat.add_assoc, Nat.add_comm 1 k]

/-- An operation reported ready has had its effect. -/
def Honest (env : Environment) : Prop :=
  ∀ k, (env.answer k).state = .ready → (env.answer k).left = none

/-- Operations that are all reported ready have had their effects. -/
theorem Honest.replay (honest : Honest env) {ops : List FlashOp} {c : Nat} {m : Memory}
    (ready : ∀ k < ops.length, (outcomesFrom env c k).state = .ready) :
    env.replay c ops m = ops.foldl (fun m op => op.apply m) m := by
  induction ops generalizing c m with
  | nil => rfl
  | cons op ops ih =>
    have whole := honest c (ready 0 (Nat.succ_pos _))
    rw [Environment.replay, ih fun k bound => ?_, Answer.apply, whole]
    · rfl
    · have next := ready (k + 1) (Nat.succ_lt_succ bound)
      unfold outcomesFrom at next ⊢
      rwa [Nat.add_assoc, Nat.add_comm 1 k]

end Sequences

end BmsFirmware.Flash.FirstFailure
