/- Module: BmsFirmware/Library/ActionMachine
   Scope: general
   Digest: Machines driven by lists of actions, the events they emit, and response rules. -/

import Mathlib.Data.List.Basic

set_option autoImplicit false
set_option relaxedAutoImplicit false

namespace BmsFirmware.Library.ActionMachine

variable {S A E : Type} (step : A → S → S × Option E)

/-- The state after a list of actions. -/
def exec : List A → S → S
  | [], s => s
  | a :: as, s => exec as (step a s).1

/-- The events of a list of actions, in order. -/
def emitted : List A → S → List E
  | [], _ => []
  | a :: as, s => (step a s).2.toList ++ emitted as (step a s).1

/-- Every action meets `ok` in the state it finds. -/
def Along (ok : A → S → Prop) : List A → S → Prop
  | [], _ => True
  | a :: as, s => ok a s ∧ Along ok as (step a s).1

instance Along.decidable {step : A → S → S × Option E} {ok : A → S → Prop}
    [∀ a s, Decidable (ok a s)] : (as : List A) → (s : S) → Decidable (Along step ok as s)
  | [], _ => inferInstanceAs (Decidable True)
  | a :: as, s =>
      have : Decidable (Along step ok as (step a s).1) := Along.decidable as (step a s).1
      inferInstanceAs (Decidable (ok a s ∧ Along step ok as (step a s).1))

/-- Some event satisfies `goal`. -/
def Seen (goal : E → Prop) (l : List E) : Prop := ∃ e ∈ l, goal e

section Runs

variable {step} {ok : A → S → Prop}

theorem exec_append (as bs : List A) (s : S) :
    exec step (as ++ bs) s = exec step bs (exec step as s) := by
  induction as generalizing s with
  | nil => rfl
  | cons a as ih => exact ih _

theorem emitted_cons (a : A) (as : List A) (s : S) :
    emitted step (a :: as) s = (step a s).2.toList ++ emitted step as (step a s).1 := rfl

theorem emitted_append (as bs : List A) (s : S) :
    emitted step (as ++ bs) s = emitted step as s ++ emitted step bs (exec step as s) := by
  induction as generalizing s with
  | nil => rfl
  | cons a as ih =>
    change _ ++ emitted step (as ++ bs) _ = _ ++ emitted step as _ ++ _
    rw [ih, List.append_assoc]
    rfl

theorem Along.cons {a : A} {as : List A} {s : S} (now : ok a s)
    (later : Along step ok as (step a s).1) : Along step ok (a :: as) s :=
  ⟨now, later⟩

theorem Along.append {as bs : List A} {s : S} :
    Along step ok (as ++ bs) s ↔ Along step ok as s ∧ Along step ok bs (exec step as s) := by
  induction as generalizing s with
  | nil => exact (and_iff_right trivial).symm
  | cons a as ih =>
    change ok a s ∧ Along step ok (as ++ bs) _ ↔ (ok a s ∧ Along step ok as _) ∧ _
    rw [ih, and_assoc]
    rfl

theorem Along.mono {ok' : A → S → Prop} {as : List A} {s : S} (h : Along step ok as s)
    (weaker : ∀ a s, ok a s → ok' a s) : Along step ok' as s := by
  induction as generalizing s with
  | nil => trivial
  | cons a as ih => exact ⟨weaker a s h.1, ih h.2⟩

theorem Along.of_forall {as : List A} (all : ∀ a ∈ as, ∀ s, ok a s) (s : S) :
    Along step ok as s := by
  induction as generalizing s with
  | nil => trivial
  | cons a as ih =>
    exact ⟨all a List.mem_cons_self s, ih (fun b member => all b (List.mem_cons_of_mem a member)) _⟩

theorem Seen.append {goal : E → Prop} {l l' : List E} :
    Seen goal (l ++ l') ↔ Seen goal l ∨ Seen goal l' := by
  simp only [Seen, List.mem_append, or_and_right, exists_or]

theorem Seen.single {goal : E → Prop} {o : Option E} {e : E} (event : o = some e)
    (reached : goal e) : Seen goal o.toList :=
  ⟨e, by simp [event], reached⟩

/-! ### Rules -/

section Rules

variable {P Q : S → Prop} {goal : E → Prop} {as : List A} {s : S}

/-- An invariant of every admitted step holds after a run. -/
theorem Along.keeps (kept : ∀ a s, ok a s → P s → P (step a s).1) (h : Along step ok as s)
    (start : P s) : P (exec step as s) := by
  induction as generalizing s with
  | nil => exact start
  | cons a as ih => exact ih h.2 (kept a s h.1 start)

/-- Under an invariant whose steps emit only events of one kind, so does a run. -/
theorem Along.emits (kept : ∀ a s, ok a s → P s →
    P (step a s).1 ∧ ∀ e, (step a s).2 = some e → goal e) (h : Along step ok as s) (start : P s) :
    ∀ e ∈ emitted step as s, goal e := by
  induction as generalizing s with
  | nil => exact fun e member => absurd member List.not_mem_nil
  | cons a as ih =>
    intro e member
    obtain ⟨next, single⟩ := kept a s h.1 start
    rcases List.mem_append.mp member with first | later
    · exact single e (Option.mem_toList.mp first)
    · exact ih h.2 next e later

/-- An invariant of the events so far and the state holds after a run. -/
theorem Along.tracks {R : List E → S → Prop} {l : List E}
    (kept : ∀ l a s, ok a s → R l s → R (l ++ (step a s).2.toList) (step a s).1)
    (h : Along step ok as s) (start : R l s) : R (l ++ emitted step as s) (exec step as s) := by
  induction as generalizing l s with
  | nil =>
    change R (l ++ []) s
    rwa [List.append_nil]
  | cons a as ih =>
    have next := ih h.2 (kept l a s h.1 start)
    rwa [List.append_assoc] at next

/-- Under an invariant that only a goal event ends and that excludes `stop`, a run that
has emitted `stop` has emitted a goal event. -/
theorem Along.until {stop : E} (go : ∀ a s, ok a s → P s →
      Seen goal (step a s).2.toList ∨ P (step a s).1 ∧ (step a s).2 ≠ some stop)
    (h : Along step ok as s) (start : P s) (stopped : stop ∈ emitted step as s) :
    Seen goal (emitted step as s) := by
  induction as generalizing s with
  | nil => exact absurd stopped List.not_mem_nil
  | cons a as ih =>
    rcases go a s h.1 start with reached | ⟨next, other⟩
    · exact Seen.append.mpr (Or.inl reached)
    · rcases List.mem_append.mp stopped with first | later
      · exact absurd (Option.mem_toList.mp first) other
      · exact Seen.append.mpr (Or.inr (ih h.2 next later))

/-- While waiting, only a goal event ends `P`; from `start` on, `Q` excludes `stop` until a
goal event. So a run with a `start` and a later `stop` has emitted a goal event. -/
theorem Along.response {start stop : E} (wait : ∀ a s, ok a s → P s →
      Seen goal (step a s).2.toList ∨
        P (step a s).1 ∧ ((step a s).2 = some start → Q (step a s).1))
    (go : ∀ a s, ok a s → Q s →
      Seen goal (step a s).2.toList ∨ Q (step a s).1 ∧ (step a s).2 ≠ some stop)
    (h : Along step ok as s) (waiting : P s)
    (passed : List.Sublist [start, stop] (emitted step as s)) : Seen goal (emitted step as s) := by
  induction as generalizing s with
  | nil => exact absurd (List.sublist_nil.mp passed) (List.cons_ne_nil _ _)
  | cons a as ih =>
    rcases wait a s h.1 waiting with reached | ⟨next, begun⟩
    · exact Seen.append.mpr (Or.inl reached)
    · change List.Sublist _ ((step a s).2.toList ++ _) at passed
      cases event : (step a s).2 with
      | none =>
        rw [event] at passed
        exact Seen.append.mpr (Or.inr (ih h.2 next passed))
      | some e =>
        rw [event] at passed begun
        cases passed with
        | cons _ later => exact Seen.append.mpr (Or.inr (ih h.2 next later))
        | cons_cons _ later =>
          have stopped := later.subset List.mem_cons_self
          exact Seen.append.mpr (Or.inr (h.2.until go (begun rfl) stopped))

/-- What every goal event establishes and every step keeps holds once one has been seen. -/
theorem Along.since (reach : ∀ a s, ok a s → Seen goal (step a s).2.toList → P (step a s).1)
    (kept : ∀ a s, ok a s → P s → P (step a s).1) (h : Along step ok as s)
    (seen : Seen goal (emitted step as s)) : P (exec step as s) := by
  induction as generalizing s with
  | nil =>
    obtain ⟨e, member, -⟩ := seen
    exact absurd member List.not_mem_nil
  | cons a as ih =>
    rcases Seen.append.mp seen with first | later
    · have next : P (exec step as (step a s).1) := h.2.keeps kept (reach a s h.1 first)
      exact next
    · exact ih h.2 later

/-- What holds of every event holds of the event of every step. -/
theorem Along.of_emitted (all : ∀ e ∈ emitted step as s, goal e) :
    Along step (fun a s => ∀ e, (step a s).2 = some e → goal e) as s := by
  induction as generalizing s with
  | nil => trivial
  | cons a as ih =>
    refine ⟨fun e event => all e ?_, ih fun e member => all e (List.mem_append_right _ member)⟩
    exact List.mem_append_left _ (Option.mem_toList.mpr event)

theorem Along.and {ok' : A → S → Prop} (h : Along step ok as s) (h' : Along step ok' as s) :
    Along step (fun a s => ok a s ∧ ok' a s) as s := by
  induction as generalizing s with
  | nil => trivial
  | cons a as ih => exact ⟨⟨h.1, h'.1⟩, ih h.2 h'.2⟩

end Rules

end Runs

end BmsFirmware.Library.ActionMachine
