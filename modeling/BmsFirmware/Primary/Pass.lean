/- Module: BmsFirmware/Primary/Pass
   Source: application/primary/main.c
   Digest: A pass of the main loop ends after a bounded number of accesses. -/

import BmsFirmware.Primary.MainLoop

set_option autoImplicit false
set_option relaxedAutoImplicit false

namespace BmsFirmware.Primary.Pass

open BmsFirmware.Library.ByteMemory
open BmsFirmware.Library.ActionMachine
open BmsFirmware.Registers.PuTable
open BmsFirmware.DataProcess.Process
open BmsFirmware.DataProcess.Reply
open BmsFirmware.Primary.MainLoop

/-- `n` accesses of the main loop, the first of them its `k`-th. -/
def mains (services : Nat → Service) (k n : Nat) : List Action :=
  (List.range' k n).map fun i => .main (services i)

theorem main_of_mains {services : Nat → Service} {k n : Nat} {a : Action}
    (member : a ∈ mains services k n) : ∃ i, a = .main (services i) := by
  obtain ⟨i, -, same⟩ := List.mem_map.mp member
  exact ⟨i, same.symm⟩

/-- A condition that no access of the main loop breaks holds along them. -/
theorem along_mains {ok : Action → System → Prop} {services : Nat → Service} {k n : Nat}
    (all : ∀ i s, ok (.main (services i)) s) (s : System) :
    Along step ok (mains services k n) s := by
  refine Along.of_forall ?_ s
  intro a member s
  obtain ⟨i, rfl⟩ := main_of_mains member
  exact all i s

section Pass

variable (services : Nat → Service) (d : Device)

theorem mains_add (k n m : Nat) :
    mains services k (n + m) = mains services k n ++ mains services (k + n) m := by
  rw [mains, ← List.range'_append_1, List.map_append]
  rfl

theorem exec_add (k n m : Nat) (s : System) :
    exec step (mains services k (n + m)) s =
      exec step (mains services (k + n) m) (exec step (mains services k n) s) := by
  rw [mains_add, exec_append]

/-- The most accesses a visit makes from this one on. -/
private def left : Access → Nat
  | .testRead => 6
  | .clearRead => 5
  | .sendReply => 4
  | .testWrite => 3
  | .clearWrite => 2
  | .writeCommand => 1

private theorem nextControl_left (access : Access) (r : Nat) (rest : List (Word × Word)) :
    nextControl d (.visit access r rest) = .search rest ∨
      ∃ next, left next < left access ∧
        nextControl d (.visit access r rest) = .visit next r rest := by
  cases access with
  | testRead =>
    right
    by_cases one : puGetStatus d.table r = 1
    · exact ⟨.clearRead, by decide, if_pos one⟩
    · exact ⟨.testWrite, by decide, if_neg one⟩
  | clearRead => exact Or.inr ⟨.sendReply, by decide, rfl⟩
  | sendReply => exact Or.inr ⟨.testWrite, by decide, rfl⟩
  | testWrite =>
    by_cases ten : puGetStatus d.table r = 10
    · exact Or.inr ⟨.clearWrite, by decide, if_pos ten⟩
    · exact Or.inl (if_neg ten)
  | clearWrite => exact Or.inr ⟨.writeCommand, by decide, rfl⟩
  | writeCommand => exact Or.inl rfl

private theorem visit_ends (bound : Nat) (access : Access) (few : left access ≤ bound) (r : Nat)
    (rest : List (Word × Word)) (k : Nat) :
    ∃ n ≤ bound, ∃ d', exec step (mains services k n) ⟨d, .visit access r rest⟩ =
      ⟨d', .search rest⟩ := by
  induction bound generalizing access d k with
  | zero => cases access <;> exact absurd few (by decide)
  | succ bound ih =>
    let d₁ := effect (services k) d (.visit access r rest)
    have first : exec step (mains services k 1) ⟨d, .visit access r rest⟩ =
        ⟨d₁, nextControl d (.visit access r rest)⟩ := rfl
    rcases nextControl_left d access r rest with ended | ⟨next, fewer, goes⟩
    · exact ⟨1, by omega, d₁, by rw [first, ended]⟩
    · obtain ⟨n, within, d', ends⟩ := ih d₁ next (by omega) (k + 1)
      refine ⟨1 + n, by omega, d', ?_⟩
      rw [exec_add, first, goes, ends]

/-- Every pair of the scan takes at most seven accesses. -/
private theorem search_ends (rest : List (Word × Word)) (k : Nat) :
    ∃ n ≤ 7 * rest.length, ∃ d', exec step (mains services k n) ⟨d, .search rest⟩ =
      ⟨d', .search []⟩ := by
  induction rest generalizing d k with
  | nil => exact ⟨0, by omega, d, rfl⟩
  | cons pair rest ih =>
    rw [List.length_cons]
    have first : exec step (mains services k 1) ⟨d, .search (pair :: rest)⟩ =
        ⟨d, nextControl d (.search (pair :: rest))⟩ := rfl
    by_cases found : pairId pair ≠ 0
    · have goes : nextControl d (.search (pair :: rest)) =
          .visit .testRead (pairId pair) rest := if_pos found
      obtain ⟨n, within, d₁, visited⟩ :=
        visit_ends services d 6 .testRead (by decide) (pairId pair) rest (k + 1)
      obtain ⟨m, within', d', ends⟩ := ih d₁ (k + 1 + n)
      refine ⟨1 + n + m, by omega, d', ?_⟩
      rw [Nat.add_assoc, exec_add, first, goes, exec_add, visited, ends]
    · have goes : nextControl d (.search (pair :: rest)) = .search rest := if_neg found
      obtain ⟨m, within, d', ends⟩ := ih d (k + 1)
      refine ⟨1 + m, by omega, d', ?_⟩
      rw [exec_add, first, goes, ends]

/-- As many accesses as a pass takes at most. -/
@[irreducible]
def passBound : Nat := 7 * passPairs.length + 2

/-- From the top of the loop, a pass starts and ends within the bound. -/
theorem pass_ends (k n : Nat) (enough : passBound ≤ n) :
    List.Sublist [.passStarts, .passEnds] (emitted step (mains services k n) ⟨d, .turn⟩) := by
  obtain ⟨m, within, d', ends⟩ := search_ends services d passPairs (k + 1)
  have finished : Event.passEnds ∈
      emitted step (mains services (k + 1) (m + 1)) ⟨d, .search passPairs⟩ := by
    rw [mains_add, emitted_append, ends]
    exact List.mem_append_right _ List.mem_cons_self
  have whole : List.Sublist [.passStarts, .passEnds]
      (emitted step (mains services k (1 + (m + 1))) ⟨d, .turn⟩) := by
    rw [mains_add, emitted_append]
    exact (List.singleton_sublist.mpr finished).cons_cons .passStarts
  unfold passBound at enough
  obtain ⟨more, rfl⟩ := Nat.exists_eq_add_of_le (show 1 + (m + 1) ≤ n by omega)
  rw [mains_add, emitted_append]
  exact whole.trans (List.sublist_append_left _ _)

end Pass

end BmsFirmware.Primary.Pass
