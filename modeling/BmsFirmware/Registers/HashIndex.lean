/- Module: BmsFirmware/Registers/HashIndex
   Source: application/registers/pu_table.c
   Digest: The chained hash index over a register array, and its lookup as a linear scan. -/

import BmsFirmware.Library.BucketTable
import BmsFirmware.Registers.PuTable
import Mathlib.Data.List.Chain

set_option autoImplicit false
set_option relaxedAutoImplicit false

namespace BmsFirmware.Registers.HashIndex

open BmsFirmware.Library
open BmsFirmware.Library.ByteMemory
open BmsFirmware.Library.BucketTable hiding empty
open BmsFirmware.Registers.PuTable

/-- `struct PUNode` without its link: a chain is a list of nodes. `block` is the heap block
the node lives in. -/
structure PUNode where
  key : BitVec 64
  index : Word
  block : Nat

/-- The chains, and the number of the next heap block. -/
structure YUTable where
  chains : Buckets PUNode
  blocks : Nat

/-- `YUTable` before the constructor has run. -/
def YUTable.empty (size : Nat) : YUTable := ⟨BucketTable.empty PUNode size, 0⟩

def generateKey (address offset : Word) : BitVec 64 :=
  address.setWidth 64 <<< 32 ||| offset.setWidth 64

section Index

variable (array : List PUData)

/-- `PU_TABLE_SIZE`. -/
def puTableSize : Nat := array.length

/-- `pu_function`: the slot of a key. -/
def puFunction (key : BitVec 64) : Nat := key.toNat % puTableSize array

/-- The nodes that one run of the constructor makes, in order. -/
def newNodes (blocks : Nat) : List PUNode :=
  array.zipIdx.map fun (r, i) => ⟨generateKey r.address r.offset, BitVec.ofNat 32 i, blocks + i⟩

def puInitializeTable (table : YUTable) : YUTable where
  chains := insertAll (puFunction array) PUNode.key table.chains (newNodes array table.blocks)
  blocks := table.blocks + array.length

/-- The table after the constructor has run `runs` times. -/
def initialized : Nat → YUTable
  | 0 => .empty (puTableSize array)
  | runs + 1 => puInitializeTable array (initialized runs)

def puSearchIdIn (table : YUTable) (address offset : Word) : Word :=
  match lookup (puFunction array) PUNode.key table.chains (generateKey address offset) with
  | some node => node.index
  | none => 0

/-! ### The linear scan -/

/-- The smallest index of an entry with this address and offset, or 0. -/
def scan (address offset : Word) : Nat :=
  (array.findIdx? fun r => r.address = address ∧ r.offset = offset).getD 0

end Index

theorem generateKey_inj {a o a' o' : Word} :
    generateKey a o = generateKey a' o' ↔ a = a' ∧ o = o' := by
  constructor
  · intro same
    constructor
    · apply BitVec.eq_of_getLsbD_eq
      intro i hi
      have bit := congrArg (fun k => k.getLsbD (i + 32)) same
      simp only [generateKey, BitVec.getLsbD_or, BitVec.getLsbD_shiftLeft,
        BitVec.getLsbD_setWidth] at bit
      have high : o.getLsbD (i + 32) = false := BitVec.getLsbD_of_ge _ _ (by omega)
      have high' : o'.getLsbD (i + 32) = false := BitVec.getLsbD_of_ge _ _ (by omega)
      simp only [high, high', Nat.add_sub_cancel, Bool.and_false, Bool.or_false] at bit
      simpa [show i + 32 < 64 by omega, show ¬i + 32 < 32 by omega, show i < 64 by omega] using bit
    · apply BitVec.eq_of_getLsbD_eq
      intro i hi
      have bit := congrArg (fun k => k.getLsbD i) same
      simp only [generateKey, BitVec.getLsbD_or, BitVec.getLsbD_shiftLeft,
        BitVec.getLsbD_setWidth] at bit
      simpa [hi, show i < 64 by omega] using bit
  · rintro ⟨rfl, rfl⟩
    rfl

/-! ### Lookup equals scan -/

private theorem find_nodes (array : List PUData) (k blocks : Nat) (address offset : Word) :
    (((array.zipIdx k).map fun (r, i) =>
        (⟨generateKey r.address r.offset, BitVec.ofNat 32 i, blocks + i⟩ : PUNode)).find?
      fun e => e.key = generateKey address offset).map PUNode.index =
    (array.findIdx? fun r => r.address = address ∧ r.offset = offset).map
      fun i => BitVec.ofNat 32 (k + i) := by
  induction array generalizing k with
  | nil => rfl
  | cons r array ih =>
    rw [List.zipIdx_cons, List.map_cons, List.find?_cons, List.findIdx?_cons]
    by_cases here : r.address = address ∧ r.offset = offset
    · simp [here]
    · have other : ¬generateKey r.address r.offset = generateKey address offset :=
        fun same => here (generateKey_inj.mp same)
      simp only [other, here, decide_false, Bool.false_eq_true, if_false]
      rw [ih, Option.map_map]
      refine congrArg (fun f => Option.map f _) (funext ?_)
      intro i
      simp [Nat.add_comm, Nat.add_left_comm]

private theorem initialized_length (array : List PUData) (n : Nat) :
    (initialized array n).chains.length = puTableSize array := by
  induction n with
  | zero => exact List.length_replicate
  | succ n ih => exact (length_insertAll _ _ _ _).trans ih

/-- Where there is a node there is a slot for it. -/
theorem newNodes_inside (array : List PUData) (n blocks : Nat) :
    ∀ e ∈ newNodes array blocks, puFunction array e.key < (initialized array n).chains.length := by
  intro e listed
  rw [initialized_length]
  obtain ⟨⟨r, i⟩, entry, -⟩ := List.mem_map.mp listed
  have some : array ≠ [] := List.ne_nil_of_mem (List.fst_mem_of_mem_zipIdx entry)
  exact Nat.mod_lt _ (List.length_pos_iff.mpr some)

private theorem lookup_initialized (array : List PUData) (n : Nat) (address offset : Word) :
    (lookup (puFunction array) PUNode.key (initialized array (n + 1)).chains
        (generateKey address offset)).map PUNode.index =
      (array.findIdx? fun r => r.address = address ∧ r.offset = offset).map (BitVec.ofNat 32) := by
  have nodes (blocks : Nat) :
      ((newNodes array blocks).find? fun e => e.key = generateKey address offset).map
          PUNode.index =
        (array.findIdx? fun r => r.address = address ∧ r.offset = offset).map
          (BitVec.ofNat 32) := by
    have h := find_nodes array 0 blocks address offset
    simp only [Nat.zero_add] at h
    exact h
  induction n with
  | zero =>
    rw [initialized, puInitializeTable, lookup_insertAll _ _ (newNodes_inside array 0 _)]
    rw [initialized, YUTable.empty, lookup_empty, Option.none_or]
    exact nodes _
  | succ n ih =>
    rw [initialized, puInitializeTable, lookup_insertAll _ _ (newNodes_inside array (n + 1) _),
      Option.map_or, ih, nodes, Option.or_self]

/-- However often the constructor has run, a lookup is the linear scan. -/
theorem puSearchIdIn_initialized (array : List PUData) (small : array.length ≤ 2 ^ 32) {runs : Nat}
    (positive : 0 < runs) (address offset : Word) :
    (puSearchIdIn array (initialized array runs) address offset).toNat =
      scan array address offset := by
  obtain ⟨n, rfl⟩ := Nat.exists_eq_succ_of_ne_zero (Nat.ne_of_gt positive)
  have found := lookup_initialized array n address offset
  unfold puSearchIdIn scan
  cases look : lookup (puFunction array) PUNode.key (initialized array (n + 1)).chains
      (generateKey address offset) with
  | none =>
    rw [look] at found
    rw [Option.map_none, eq_comm, Option.map_eq_none_iff] at found
    rw [found]
    rfl
  | some node =>
    rw [look, Option.map_some, eq_comm, Option.map_eq_some_iff] at found
    obtain ⟨i, first, same⟩ := found
    obtain ⟨bound, -⟩ := List.findIdx?_eq_some_iff_getElem.mp first
    dsimp only
    rw [first, ← same]
    exact Nat.mod_eq_of_lt (Nat.lt_of_lt_of_le bound small)

/-! ### The index of the firmware -/

/-- `pu_search_id`; the constructor runs before `main` and once more in it. No proof looks
into the chains behind it. -/
@[irreducible]
def puSearchId (address offset : Word) : Nat :=
  (puSearchIdIn registers (initialized registers 2) address offset).toNat

theorem registers_length : registers.length = 206 := by
  decide +kernel

theorem puSearchId_eq (address offset : Word) :
    puSearchId address offset = scan registers address offset := by
  have small : registers.length ≤ 2 ^ 32 := by
    rw [registers_length]
    decide
  unfold puSearchId
  exact puSearchIdIn_initialized registers small (Nat.succ_pos 1) address offset

/-- The entry an address pair names, if any. -/
def Names (address offset : Word) (i : Nat) : Prop :=
  i < registers.length ∧ (initialRow i).address = address ∧ (initialRow i).offset = offset

instance (address offset : Word) (i : Nat) : Decidable (Names address offset i) :=
  inferInstanceAs (Decidable (_ ∧ _))

/-- The place of an entry in the order of the table. -/
def rowKey (r : PUData) : Nat := r.address.toNat * 2 ^ 16 + r.offset.toNat

/-- The table is strictly sorted, so that no address pair occurs twice. -/
theorem registers_sorted : (registers.map rowKey).Pairwise (· < ·) :=
  List.isChain_iff_pairwise.mp (by decide +kernel)

private theorem initialRow_getElem {i : Nat} (bound : i < registers.length) :
    initialRow i = registers[i] :=
  List.getD_eq_getElem _ _ bound

theorem Names.unique {address offset : Word} {i j : Nat} (hi : Names address offset i)
    (hj : Names address offset j) : i = j := by
  have same : rowKey (initialRow i) = rowKey (initialRow j) := by
    rw [rowKey, rowKey, hi.2.1, hi.2.2, hj.2.1, hj.2.2]
  have ordered {i j : Nat} (hi : i < registers.length) (hj : j < registers.length) (lt : i < j) :
      rowKey (initialRow i) < rowKey (initialRow j) := by
    have pair := List.pairwise_iff_getElem.mp registers_sorted i j (by simpa using hi)
      (by simpa using hj) lt
    simpa [initialRow_getElem hi, initialRow_getElem hj] using pair
  rcases Nat.lt_trichotomy i j with lt | eq | gt
  · exact absurd same (Nat.ne_of_lt (ordered hi.1 hj.1 lt))
  · exact eq
  · exact absurd same.symm (Nat.ne_of_lt (ordered hj.1 hi.1 gt))

/-- A lookup finds the entry an address pair names. -/
theorem puSearchId_of_names {address offset : Word} {i : Nat} (h : Names address offset i) :
    puSearchId address offset = i := by
  rw [puSearchId_eq, scan]
  have bound := h.1
  have found :
      ∃ j, registers.findIdx? (fun r => r.address = address ∧ r.offset = offset) = some j := by
    rw [← Option.isSome_iff_exists, List.findIdx?_isSome, List.any_eq_true]
    refine ⟨registers[i], List.getElem_mem _, ?_⟩
    rw [← initialRow_getElem bound]
    simpa using h.2
  obtain ⟨j, found⟩ := found
  obtain ⟨within, hit, -⟩ := List.findIdx?_eq_some_iff_getElem.mp found
  rw [found]
  change j = i
  refine Names.unique ⟨within, ?_⟩ h
  rw [initialRow_getElem within]
  simpa using hit

/-- A lookup of a pair in no entry yields index 0, which is also a valid index. -/
theorem puSearchId_of_missing {address offset : Word} (missing : ∀ i, ¬Names address offset i) :
    puSearchId address offset = 0 := by
  rw [puSearchId_eq, scan]
  cases found : registers.findIdx? (fun r => r.address = address ∧ r.offset = offset) with
  | none => rfl
  | some j =>
    obtain ⟨bound, hit, -⟩ := List.findIdx?_eq_some_iff_getElem.mp found
    refine absurd ⟨bound, ?_⟩ (missing j)
    rw [initialRow_getElem bound]
    simpa using hit

/-- A lookup that yields another index than 0 has found its entry. -/
theorem names_of_puSearchId {address offset : Word} {i : Nat}
    (found : puSearchId address offset = i) (other : i ≠ 0) : Names address offset i := by
  by_cases named : ∃ j, Names address offset j
  · obtain ⟨j, hj⟩ := named
    rw [puSearchId_of_names hj] at found
    rwa [← found]
  · rw [puSearchId_of_missing fun j hj => named ⟨j, hj⟩] at found
    exact absurd found.symm other

end BmsFirmware.Registers.HashIndex
