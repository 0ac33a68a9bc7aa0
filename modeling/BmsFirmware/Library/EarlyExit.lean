/- Module: BmsFirmware/Library/EarlyExit
   Scope: general
   Digest: Visiting a list with a callback that may break the visit off. -/

import Mathlib.Tactic.Common

set_option autoImplicit false
set_option relaxedAutoImplicit false

namespace BmsFirmware.Library.EarlyExit

variable {α β σ : Type}

/-- Visit items in order until one says stop: whether one did, and the state left. -/
def visit (step : β → σ → Bool × σ) : List β → σ → Bool × σ
  | [], s => (false, s)
  | b :: l, s => if (step b s).1 then step b s else visit step l (step b s).2

theorem visit_cons (step : β → σ → Bool × σ) (b : β) (l : List β) (s : σ) :
    visit step (b :: l) s =
      if (step b s).1 then step b s else visit step l (step b s).2 := rfl

theorem visit_append (step : β → σ → Bool × σ) (l l' : List β) (s : σ) :
    visit step (l ++ l') s =
      if (visit step l s).1 then visit step l s else visit step l' (visit step l s).2 := by
  induction l generalizing s with
  | nil => rfl
  | cons b l ih =>
    rw [List.cons_append, visit_cons, visit_cons]
    by_cases stop : (step b s).1 = true
    · simp only [if_pos stop]
    · simp only [if_neg stop]
      exact ih _

/-- A visit of groups, each visited item by item, is a visit of all their items. -/
theorem visit_flatMap (step : β → σ → Bool × σ) (items : α → List β) (groups : List α) (s : σ) :
    visit (fun a => visit step (items a)) groups s = visit step (groups.flatMap items) s := by
  induction groups generalizing s with
  | nil => rfl
  | cons a groups ih =>
    rw [List.flatMap_cons, visit_append, visit_cons]
    by_cases stop : (visit step (items a) s).1 = true
    · simp only [if_pos stop]
    · simp only [if_neg stop]
      exact ih _

theorem visit_congr {step step' : β → σ → Bool × σ} {l : List β}
    (same : ∀ b ∈ l, ∀ s, step b s = step' b s) (s : σ) : visit step l s = visit step' l s := by
  induction l generalizing s with
  | nil => rfl
  | cons b l ih =>
    rw [visit_cons, visit_cons, same b List.mem_cons_self s]
    by_cases stop : (step' b s).1 = true
    · rw [if_pos stop, if_pos stop]
    · rw [if_neg stop, if_neg stop]
      exact ih (fun b' listed => same b' (List.mem_cons_of_mem b listed)) _

/-- An item that stops without a trace ends the visit. -/
theorem visit_stop {step : β → σ → Bool × σ} {b : β} {s : σ} (l : List β)
    (stop : step b s = (true, s)) : visit step (b :: l) s = (true, s) := by
  rw [visit_cons, stop, if_pos rfl]

/-- A step that takes every item along. -/
def collect (b : β) (l : List β) : Bool × List β := (false, l ++ [b])

theorem visit_collect (l before : List β) : visit collect l before = (false, before ++ l) := by
  induction l generalizing before with
  | nil => rw [List.append_nil]; rfl
  | cons b l ih =>
    rw [visit_cons, collect, if_neg (by simp), ih, List.append_assoc]
    rfl

/-- A visit that carries more along does what the visit does without it. -/
theorem visit_project {τ : Type} {step : β → σ → Bool × σ} {step' : β → τ → Bool × τ} (view : σ → τ)
    {l : List β} (same : ∀ b ∈ l, ∀ s, (step b s).1 = (step' b (view s)).1 ∧
      view (step b s).2 = (step' b (view s)).2) (s : σ) :
    (visit step l s).1 = (visit step' l (view s)).1 ∧
      view (visit step l s).2 = (visit step' l (view s)).2 := by
  induction l generalizing s with
  | nil => exact ⟨rfl, rfl⟩
  | cons b l ih =>
    obtain ⟨stop, state⟩ := same b List.mem_cons_self s
    rw [visit_cons, visit_cons, ← stop, ← state]
    by_cases done : (step b s).1 = true
    · rw [if_pos done, if_pos done]
      exact ⟨stop, state⟩
    · rw [if_neg done, if_neg done]
      exact ih (fun b' listed => same b' (List.mem_cons_of_mem b listed)) _

/-- Items that come in front of all unwanted ones: leaving at the first unwanted item is the same as
visiting the wanted ones. -/
theorem visit_wanted {wanted : β → Bool} {step : β → σ → Bool × σ} {l : List β}
    (front : l.Pairwise fun a b => wanted b = true → wanted a = true) (s : σ) :
    (visit (fun b s => if wanted b = true then step b s else (true, s)) l s).2 =
      (visit step (l.filter wanted) s).2 := by
  induction l generalizing s with
  | nil => rfl
  | cons b l ih =>
    obtain ⟨first, rest⟩ := List.pairwise_cons.mp front
    by_cases here : wanted b = true
    · rw [List.filter_cons_of_pos here, visit_cons, visit_cons]
      simp only [if_pos here]
      by_cases stop : (step b s).1 = true
      · rw [if_pos stop, if_pos stop]
      · rw [if_neg stop, if_neg stop]
        exact ih rest _
    · have none : l.filter wanted = [] :=
        List.filter_eq_nil_iff.mpr fun b' listed wanted' => here (first b' listed wanted')
      rw [List.filter_cons_of_neg here, none, visit_cons]
      simp only [if_neg here, if_true]
      rfl

end BmsFirmware.Library.EarlyExit
