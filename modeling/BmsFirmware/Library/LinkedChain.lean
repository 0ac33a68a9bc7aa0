/- Module: BmsFirmware/Library/LinkedChain
   Scope: general
   Digest: Singly linked chains of blocks, from a pointer to the null link at their end. -/

import Mathlib.Data.List.Nodup
import Mathlib.Logic.Function.Basic
import Mathlib.Tactic.Common

set_option autoImplicit false
set_option relaxedAutoImplicit false

namespace BmsFirmware.Library.LinkedChain

/-- A pointer leads through these blocks to a null link. -/
def Chain (next : Nat → Option Nat) : Option Nat → List Nat → Prop
  | p, [] => p = none
  | p, b :: bs => p = some b ∧ Chain next (next b) bs

section Links

variable {next next' : Nat → Option Nat} {p : Option Nat} {bs : List Nat} {last new : Nat}

/-- A chain with a last block begins somewhere. -/
theorem Chain.head (chain : Chain next p (bs ++ [last])) : ∃ head, p = some head := by
  cases bs with
  | nil => exact ⟨last, chain.1⟩
  | cons b bs => exact ⟨b, chain.1⟩

/-- A chain depends on the links of its own blocks only. -/
theorem Chain.congr (chain : Chain next p bs) (same : ∀ b ∈ bs, next' b = next b) :
    Chain next' p bs := by
  induction bs generalizing p with
  | nil => exact chain
  | cons b bs ih =>
    obtain ⟨here, rest⟩ := chain
    refine ⟨here, ?_⟩
    rw [same b List.mem_cons_self]
    exact ih rest fun c hc => same c (List.mem_cons_of_mem b hc)

/-- A new block behind the last one. -/
theorem Chain.snoc (chain : Chain next p (bs ++ [last])) (distinct : (bs ++ [last]).Nodup)
    (fresh : new ≠ last) (free : next new = none) :
    Chain (Function.update next last (some new)) p (bs ++ [last] ++ [new]) := by
  induction bs generalizing p with
  | nil =>
    obtain ⟨here, -⟩ := chain
    refine ⟨here, ?_, ?_⟩
    · exact Function.update_self last _ next
    · exact (Function.update_of_ne fresh _ next).trans free
  | cons b bs ih =>
    obtain ⟨here, rest⟩ := chain
    obtain ⟨outside, distinct⟩ := List.nodup_cons.mp distinct
    have other : b ≠ last := fun same => outside (by simp [same])
    refine ⟨here, ?_⟩
    rw [Function.update_of_ne other]
    exact ih rest distinct

end Links

end BmsFirmware.Library.LinkedChain
