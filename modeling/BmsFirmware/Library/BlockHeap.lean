/- Module: BmsFirmware/Library/BlockHeap
   Scope: general
   Digest: Heap blocks by number: which are live, and every release in order. -/

import Mathlib.Tactic.Common

set_option autoImplicit false
set_option relaxedAutoImplicit false

namespace BmsFirmware.Library.BlockHeap

/-- A heap: the number of requests so far, the live blocks and the released ones. A block
is known by the number of the request that was granted. -/
structure Heap where
  requests : Nat
  live : List Nat
  freed : List Nat

def Heap.empty : Heap := ⟨0, [], []⟩

/-- Request a block; `grant` lists which requests succeed. -/
def malloc (grant : Nat → Bool) : StateM Heap (Option Nat) := fun h =>
  if grant h.requests then
    (some h.requests, { h with requests := h.requests + 1, live := h.requests :: h.live })
  else (none, { h with requests := h.requests + 1 })

def free (block : Nat) : StateM Heap Unit := fun h =>
  ((), { h with live := h.live.erase block, freed := h.freed ++ [block] })

section Rules

variable {β : Type} {grant : Nat → Bool} {h : Heap}

theorem bind_run {α : Type} (p : StateM Heap α) (f : α → StateM Heap β) (h : Heap) :
    (p >>= f) h = f (p h).1 (p h).2 := rfl

theorem malloc_granted (f : Option Nat → StateM Heap β) (granted : grant h.requests = true) :
    (malloc grant >>= f) h =
      f (some h.requests) { h with requests := h.requests + 1, live := h.requests :: h.live } := by
  change f (malloc grant h).1 (malloc grant h).2 = _
  rw [malloc, if_pos granted]

theorem malloc_refused (f : Option Nat → StateM Heap β) (refused : grant h.requests = false) :
    (malloc grant >>= f) h = f none { h with requests := h.requests + 1 } := by
  change f (malloc grant h).1 (malloc grant h).2 = _
  rw [malloc, if_neg (by simp [refused])]

@[simp] theorem free_bind (block : Nat) (f : Unit → StateM Heap β) (h : Heap) :
    (free block >>= f) h =
      f () { h with live := h.live.erase block, freed := h.freed ++ [block] } := rfl

@[simp] theorem pure_run (b : β) (h : Heap) : (pure b : StateM Heap β) h = (b, h) := rfl

end Rules

/-! ### Every block once -/

/-- Every granted block is live or has been released, and only once. -/
def Heap.Accounted (grant : Nat → Bool) (h : Heap) : Prop :=
  (h.live ++ h.freed).Perm ((List.range h.requests).filter grant)

section Accounts

variable {grant : Nat → Bool} {h : Heap}

theorem accounted_empty : Heap.empty.Accounted grant := .nil

theorem Heap.Accounted.malloc (accounted : h.Accounted grant) :
    (malloc grant h).2.Accounted grant := by
  unfold Heap.Accounted
  cases granted : grant h.requests with
  | false =>
    have refused : [h.requests].filter grant = [] := by simp [granted]
    rw [BlockHeap.malloc, if_neg (by simp [granted]), List.range_succ, List.filter_append, refused,
      List.append_nil]
    exact accounted
  | true =>
    have kept : [h.requests].filter grant = [h.requests] := by simp [granted]
    rw [BlockHeap.malloc, if_pos granted, List.range_succ, List.filter_append, kept]
    exact (accounted.cons h.requests).trans (List.perm_append_singleton _ _).symm

theorem Heap.Accounted.free (accounted : h.Accounted grant) {block : Nat} (live : block ∈ h.live) :
    (free block h).2.Accounted grant := by
  have moved : (h.live.erase block ++ (h.freed ++ [block])).Perm
      (block :: (h.live.erase block ++ h.freed)) := by
    rw [← List.append_assoc]
    exact List.perm_append_singleton _ _
  have back : (block :: h.live.erase block ++ h.freed).Perm (h.live ++ h.freed) :=
    (List.perm_cons_erase live).symm.append_right _
  exact (moved.trans back).trans accounted

theorem Heap.Accounted.granted (accounted : h.Accounted grant)
    (granted : grant h.requests = true) :
    Heap.Accounted grant { h with requests := h.requests + 1, live := h.requests :: h.live } := by
  have after := accounted.malloc
  rwa [BlockHeap.malloc, if_pos granted] at after

theorem Heap.Accounted.refused (accounted : h.Accounted grant)
    (refused : grant h.requests = false) :
    Heap.Accounted grant { h with requests := h.requests + 1 } := by
  have after := accounted.malloc
  rwa [BlockHeap.malloc, if_neg (by simp [refused])] at after

end Accounts

end BmsFirmware.Library.BlockHeap
