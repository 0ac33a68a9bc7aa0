/- Module: BmsFirmware/Library/BucketTable
   Scope: general
   Digest: Chained hash tables: a lookup is the first matching entry ever inserted. -/

import Mathlib.Tactic.Common

set_option autoImplicit false
set_option relaxedAutoImplicit false

namespace BmsFirmware.Library.BucketTable

/-- The chains of entries, one for each slot. -/
abbrev Buckets (ε : Type) := List (List ε)

/-- A table of empty chains. -/
def empty (ε : Type) (size : Nat) : Buckets ε := List.replicate size []

section Chains

variable {ε κ : Type} (slot : κ → Nat) (key : ε → κ)

/-- Append an entry to the chain of its key. -/
def insert (b : Buckets ε) (e : ε) : Buckets ε := b.modify (slot (key e)) (· ++ [e])

def insertAll (b : Buckets ε) (l : List ε) : Buckets ε := l.foldl (insert slot key) b

theorem length_insertAll (b : Buckets ε) (l : List ε) :
    (insertAll slot key b l).length = b.length := by
  induction l generalizing b with
  | nil => rfl
  | cons e l ih => exact (ih _).trans (List.length_modify _ _ _)

/-- The chain of a slot; behind the last slot there is none. -/
def chain (b : Buckets ε) (i : Nat) : List ε := b.getD i []

variable [DecidableEq κ]

/-- Walk the chain of a key to its first entry. -/
def lookup (b : Buckets ε) (k : κ) : Option ε := (chain b (slot k)).find? fun e => key e = k

theorem lookup_empty (size : Nat) (k : κ) : lookup slot key (empty ε size) k = none := by
  have none : chain (empty ε size) (slot k) = [] := by
    rw [chain, empty, List.getD_eq_getElem?_getD, List.getElem?_replicate]
    split <;> rfl
  rw [lookup, none, List.find?_nil]

private theorem lookup_insert {b : Buckets ε} {e : ε} (inside : slot (key e) < b.length) (k : κ) :
    lookup slot key (insert slot key b e) k =
      (lookup slot key b k).or ([e].find? fun e => key e = k) := by
  unfold lookup chain insert
  rw [List.getD_eq_getElem?_getD, List.getD_eq_getElem?_getD]
  by_cases same : slot (key e) = slot k
  · rw [← same, List.getElem?_modify_eq, List.getElem?_eq_getElem inside, ← List.find?_append]
    rfl
  · rw [List.getElem?_modify_ne _ _ same]
    have other : key e ≠ k := fun h => same (congrArg slot h)
    simp [other]

/-- What was found before is still found; otherwise the first new match is. -/
theorem lookup_insertAll {b : Buckets ε} {l : List ε}
    (inside : ∀ e ∈ l, slot (key e) < b.length) (k : κ) :
    lookup slot key (insertAll slot key b l) k =
      (lookup slot key b k).or (l.find? fun e => key e = k) := by
  induction l generalizing b with
  | nil => simp [insertAll]
  | cons e l ih =>
    have rest : ∀ e' ∈ l, slot (key e') < (insert slot key b e).length := by
      intro e' listed
      rw [insert, List.length_modify]
      exact inside e' (List.mem_cons_of_mem e listed)
    change lookup slot key (insertAll slot key (insert slot key b e) l) k = _
    rw [ih rest, lookup_insert slot key (inside e List.mem_cons_self), Option.or_assoc,
      ← List.find?_append]
    rfl

end Chains

end BmsFirmware.Library.BucketTable
