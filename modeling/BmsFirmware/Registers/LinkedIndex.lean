/- Module: BmsFirmware/Registers/LinkedIndex
   Source: application/registers/pu_table.c
   Digest: The hash index as linked nodes on the heap: its construction, lookup and release. -/

import BmsFirmware.Library.BlockHeap
import BmsFirmware.Library.LinkedChain
import BmsFirmware.Library.PowerLogic
import BmsFirmware.Registers.HashIndex
import Mathlib.Data.List.Find

set_option autoImplicit false
set_option relaxedAutoImplicit false

namespace BmsFirmware.Registers.LinkedIndex

open BmsFirmware.Library.ByteMemory
open BmsFirmware.Library.BlockHeap
open BmsFirmware.Library
open BmsFirmware.Library.LinkedChain
open BmsFirmware.Library.PowerLogic
open BmsFirmware.Registers.PuTable
open BmsFirmware.Registers.HashIndex

/-- `struct PUNode`; a pointer is the number of a heap block, or null. -/
structure Node where
  key : BitVec 64
  index : Word
  next : Option Nat

/-- The heap, what its blocks hold, and the slots of `YUTable`. -/
structure Store where
  heap : Heap
  node : Nat → Node
  slot : Nat → Option Nat

/-- Before the constructor has run. -/
def Store.empty : Store := ⟨.empty, fun _ => ⟨0, 0, none⟩, fun _ => none⟩

/-! ### Access to the nodes -/

/-- Read through a pointer; a block that is not live is a fault. -/
def deref (block : Nat) : Proc Store Node := fun s =>
  if block ∈ s.heap.live then .done (s.node block) s else .cut s

def Store.link (s : Store) (block : Nat) (next : Option Nat) : Store :=
  { s with node := Function.update s.node block { s.node block with next := next } }

def setNext (block : Nat) (next : Option Nat) : Proc Store Unit := fun s =>
  if block ∈ s.heap.live then .done () (s.link block next) else .cut s

/-- `malloc` and the three assignments behind it; without memory they fault. -/
def newNode (grant : Nat → Bool) (key : BitVec 64) (index : Word) : Proc Store Nat := fun s =>
  match malloc grant s.heap with
  | (some block, heap) =>
      .done block { s with heap := heap, node := Function.update s.node block ⟨key, index, none⟩ }
  | (none, heap) => .cut { s with heap := heap }

/-- `free`; a block that is not live is a fault. -/
def release (block : Nat) : Proc Store Unit := fun s =>
  if block ∈ s.heap.live then .done () { s with heap := (free block s.heap).2 } else .cut s

def setSlot (i : Nat) (p : Option Nat) : Proc Store Unit :=
  Proc.modify fun s => { s with slot := Function.update s.slot i p }

/-! ### Construction, lookup and release -/

section Index

variable (array : List PUData) (fuel : Nat)

/-- `while (temp->next != NULL)`. -/
def lastNode (temp : Nat) : Proc Store Nat :=
  loopWith (fun temp => do
    let node ← deref temp
    match node.next with
    | some next => return .inl next
    | none => return .inr temp) fuel temp

/-- Put a node at the end of a slot's chain. -/
def appendNode (YUIndex node : Nat) : Proc Store Unit := do
  let s ← Proc.get
  match s.slot YUIndex with
  | none => setSlot YUIndex (some node)
  | some head => do
      let temp ← lastNode fuel head
      setNext temp (some node)

/-- One turn of the loop of `pu_initialize_table`. -/
def insertEntry (grant : Nat → Bool) (r : PUData) (i : Nat) : Proc Store Unit := do
  let key := generateKey r.address r.offset
  let node ← newNode grant key (BitVec.ofNat 32 i)
  appendNode fuel (puFunction array key) node

def insertEntries (grant : Nat → Bool) : List (PUData × Nat) → Proc Store Unit
  | [] => return ()
  | (r, i) :: rest => do
      insertEntry array fuel grant r i
      insertEntries grant rest

def puInitializeTable (grant : Nat → Bool) : Proc Store Unit :=
  insertEntries array fuel grant array.zipIdx

/-- The constructor, and then the calls from `main`. -/
def initializeTimes (grant : Nat → Bool) : Nat → Proc Store Unit
  | 0 => return ()
  | runs + 1 => do
      initializeTimes grant runs
      puInitializeTable array fuel grant

/-- `while (node != NULL)` of `pu_free_table`. -/
def freeChain (node : Option Nat) : Proc Store Unit :=
  loopWith (fun node => do
    match node with
    | none => return .inr ()
    | some temp => do
        let node ← deref temp
        release temp
        return .inl node.next) fuel node

def puFreeTable : Proc Store Unit := do
  let _ ← forLoop (puTableSize array) fun i => do
    let s ← Proc.get
    freeChain fuel (s.slot i)
    setSlot i none
    return (none : Option Unit)

/-- `while (node != NULL)` of `pu_search_id`. -/
def searchChain (key : BitVec 64) (node : Option Nat) : Proc Store Word :=
  loopWith (fun node => do
    match node with
    | none => return .inr 0
    | some block => do
        let node ← deref block
        if node.key = key then
          return .inr node.index
        return .inl node.next) fuel node

def puSearchId (address offset : Word) : Proc Store Word := do
  let key := generateKey address offset
  let s ← Proc.get
  searchChain fuel key (s.slot (puFunction array key))

end Index

/-! ### The loops along a chain -/

/-- The links of the nodes. -/
def Store.next (s : Store) (block : Nat) : Option Nat := (s.node block).next

section Loops

variable {s : Store} {fuel : Nat} {bs : List Nat}

private theorem deref_live {block : Nat} (live : block ∈ s.heap.live) :
    deref block s = .done (s.node block) s := if_pos live

/-- The walk to the last node ends there and changes nothing. -/
private theorem lastNode_run {head last : Nat} (chain : Chain s.next (some head) (bs ++ [last]))
    (live : ∀ b ∈ bs ++ [last], b ∈ s.heap.live) (enough : bs.length < fuel) :
    lastNode fuel head s = .done last s := by
  induction bs generalizing head fuel with
  | nil =>
    obtain ⟨here, ends⟩ := chain
    obtain rfl : head = last := Option.some.inj here
    obtain ⟨fuel, rfl⟩ := Nat.exists_eq_succ_of_ne_zero (Nat.ne_of_gt enough)
    refine loopWith_leave ?_ fuel
    have ends : (s.node head).next = none := ends
    rw [bind_done (deref_live (live head (by simp))), ends]
    rfl
  | cons b bs ih =>
    obtain ⟨here, rest⟩ := chain
    obtain rfl : head = b := Option.some.inj here
    obtain ⟨fuel, rfl⟩ := Nat.exists_eq_succ_of_ne_zero (Nat.ne_of_gt (Nat.zero_lt_of_lt enough))
    obtain ⟨next, onward⟩ : ∃ next, (s.node head).next = some next := by
      cases bs with
      | nil => exact ⟨_, rest.1⟩
      | cons c bs => exact ⟨_, rest.1⟩
    have onward' : Chain s.next (some next) (bs ++ [last]) := by
      rw [← onward]
      exact rest
    have later : lastNode fuel next s = .done last s :=
      ih onward' (fun c hc => live c (List.mem_cons_of_mem head hc)) (by simpa using enough)
    refine (loopWith_next ?_ fuel).trans later
    rw [bind_done (deref_live (live head (by simp))), onward]
    rfl

/-- The lookup returns the index of the first node with the key. -/
private theorem searchChain_run (key : BitVec 64) {p : Option Nat} (chain : Chain s.next p bs)
    (live : ∀ b ∈ bs, b ∈ s.heap.live) (enough : bs.length < fuel) :
    searchChain fuel key p s = .done
      (((bs.find? fun b => (s.node b).key = key).map fun b => (s.node b).index).getD 0) s := by
  induction bs generalizing p fuel with
  | nil =>
    obtain rfl : p = none := chain
    obtain ⟨fuel, rfl⟩ := Nat.exists_eq_succ_of_ne_zero (Nat.ne_of_gt enough)
    exact loopWith_leave rfl fuel
  | cons b bs ih =>
    obtain ⟨rfl, rest⟩ := chain
    obtain ⟨fuel, rfl⟩ := Nat.exists_eq_succ_of_ne_zero (Nat.ne_of_gt (Nat.zero_lt_of_lt enough))
    have read := deref_live (live b List.mem_cons_self)
    by_cases hit : (s.node b).key = key
    · rw [List.find?_cons_of_pos (by simpa using hit)]
      refine loopWith_leave ?_ fuel
      change (deref b >>= _) s = _
      rw [bind_done read, if_pos hit]
      rfl
    · rw [List.find?_cons_of_neg (by simpa using hit)]
      refine (loopWith_next ?_ fuel).trans (ih rest ?_ ?_)
      · change (deref b >>= _) s = _
        rw [bind_done read, if_neg hit]
        rfl
      · exact fun c hc => live c (List.mem_cons_of_mem b hc)
      · simpa using enough

/-- The release of a chain frees its blocks in order and nothing else. -/
private theorem freeChain_run {p : Option Nat} {rest : List Nat} (chain : Chain s.next p bs)
    (live : s.heap.live.Perm (bs ++ rest)) (enough : bs.length < fuel) :
    ∃ live', freeChain fuel p s =
        .done () { s with heap := ⟨s.heap.requests, live', s.heap.freed ++ bs⟩ } ∧
      live'.Perm rest := by
  induction bs generalizing p fuel s with
  | nil =>
    obtain rfl : p = none := chain
    obtain ⟨fuel, rfl⟩ := Nat.exists_eq_succ_of_ne_zero (Nat.ne_of_gt enough)
    refine ⟨s.heap.live, (loopWith_leave rfl fuel).trans ?_, live⟩
    rw [List.append_nil]
  | cons b bs ih =>
    obtain ⟨rfl, onward⟩ := chain
    obtain ⟨fuel, rfl⟩ := Nat.exists_eq_succ_of_ne_zero (Nat.ne_of_gt (Nat.zero_lt_of_lt enough))
    have here : b ∈ s.heap.live := live.mem_iff.mpr (by simp)
    let t : Store := { s with heap := (free b s.heap).2 }
    have released : release b s = .done () t := if_pos here
    have fewer : t.heap.live.Perm (bs ++ rest) := by
      have erased := live.erase b
      rwa [List.cons_append, List.erase_cons_head] at erased
    obtain ⟨live', run, left⟩ := ih (s := t) onward fewer (by simpa using enough)
    refine ⟨live', (loopWith_next ?_ fuel).trans (run.trans ?_), left⟩
    · change (deref b >>= _) s = _
      rw [bind_done (deref_live here), bind_done released]
      rfl
    · rw [List.append_cons s.heap.freed b bs]
      rfl

end Loops

/-! ### The nodes in the order of their insertion -/

/-- The places of the nodes that belong into a slot. -/
def slotBlocks (array : List PUData) (nodes : List PUNode) (i : Nat) : List Nat :=
  (nodes.filter fun e => puFunction array e.key = i).map PUNode.block

/-- The store holds these nodes, each slot those of its keys in order; no block has been
released. -/
structure Represents (array : List PUData) (nodes : List PUNode) (s : Store) : Prop where
  contents : ∀ e ∈ nodes, (s.node e.block).key = e.key ∧ (s.node e.block).index = e.index
  chains : ∀ i, Chain s.next (s.slot i) (slotBlocks array nodes i)
  blocks : nodes.map PUNode.block = List.range s.heap.requests
  live : s.heap.live.Perm (nodes.map PUNode.block)
  freed : s.heap.freed = []

theorem represents_empty (array : List PUData) : Represents array [] .empty :=
  ⟨by simp, fun _ => rfl, rfl, .nil, rfl⟩

section Insertion

variable {array : List PUData} {nodes : List PUNode} {s : Store} {fuel : Nat}

variable (array nodes) in
private theorem slotBlocks_sublist (i : Nat) :
    (slotBlocks array nodes i).Sublist (nodes.map PUNode.block) :=
  List.filter_sublist.map PUNode.block

variable (array nodes) in
private theorem slotBlocks_length_le (i : Nat) :
    (slotBlocks array nodes i).length ≤ nodes.length := by
  have le := (slotBlocks_sublist array nodes i).length_le
  rwa [List.length_map] at le

private theorem slotBlocks_snoc (e : PUNode) (i : Nat) :
    slotBlocks array (nodes ++ [e]) i =
      if puFunction array e.key = i then slotBlocks array nodes i ++ [e.block]
      else slotBlocks array nodes i := by
  unfold slotBlocks
  rw [List.filter_append, List.map_append]
  by_cases here : puFunction array e.key = i
  · simp [here]
  · simp [here]

private theorem Represents.nodup (holds : Represents array nodes s) :
    (nodes.map PUNode.block).Nodup := by
  rw [holds.blocks]
  exact List.nodup_range

private theorem Represents.old (holds : Represents array nodes s) {b i : Nat}
    (member : b ∈ slotBlocks array nodes i) : b < s.heap.requests := by
  have inside := (slotBlocks_sublist array nodes i).subset member
  rw [holds.blocks] at inside
  exact List.mem_range.mp inside

/-- A block lies in one slot only. -/
private theorem Represents.apart (holds : Represents array nodes s) {b i j : Nat}
    (here : b ∈ slotBlocks array nodes i) (there : b ∈ slotBlocks array nodes j) : i = j := by
  obtain ⟨e, he, rfl⟩ := List.mem_map.mp here
  obtain ⟨e', he', same⟩ := List.mem_map.mp there
  obtain ⟨member, hi⟩ := List.mem_filter.mp he
  obtain ⟨member', hj⟩ := List.mem_filter.mp he'
  obtain rfl : e' = e := List.inj_on_of_nodup_map holds.nodup member' member same
  exact (of_decide_eq_true hi).symm.trans (of_decide_eq_true hj)

/-- The store once a node has been allocated and filled in. -/
def allocated (s : Store) (key : BitVec 64) (index : Word) : Store where
  heap := ⟨s.heap.requests + 1, s.heap.requests :: s.heap.live, s.heap.freed⟩
  node := Function.update s.node s.heap.requests ⟨key, index, none⟩
  slot := s.slot

section Allocated

variable (key : BitVec 64) (index : Word)

private theorem newNode_run :
    newNode (fun _ => true) key index s = .done s.heap.requests (allocated s key index) := rfl

private theorem allocated_new :
    (allocated s key index).node s.heap.requests = ⟨key, index, none⟩ :=
  Function.update_self _ _ _

private theorem allocated_old {b : Nat} (old : b < s.heap.requests) :
    (allocated s key index).node b = s.node b :=
  Function.update_of_ne (Nat.ne_of_lt old) _ _

/-- The chains of a store in which one more node has been allocated. -/
private theorem Represents.chain_allocated (holds : Represents array nodes s) (i : Nat) :
    Chain (allocated s key index).next (s.slot i) (slotBlocks array nodes i) :=
  (holds.chains i).congr fun _ member => congrArg Node.next (allocated_old key index
    (holds.old member))

variable {key index}

/-- What a new node owes once it has been linked. -/
private theorem Represents.extend (holds : Represents array nodes s) {t : Store}
    (heap : t.heap = (allocated s key index).heap)
    (kept : ∀ b, (t.node b).key = ((allocated s key index).node b).key ∧
      (t.node b).index = ((allocated s key index).node b).index)
    (chains : ∀ i, Chain t.next (t.slot i)
      (slotBlocks array (nodes ++ [⟨key, index, s.heap.requests⟩]) i)) :
    Represents array (nodes ++ [⟨key, index, s.heap.requests⟩]) t := by
  refine ⟨?_, chains, ?_, ?_, ?_⟩
  · intro e member
    rw [(kept e.block).1, (kept e.block).2]
    rcases List.mem_append.mp member with old | new
    · have place : e.block ∈ List.range s.heap.requests :=
        holds.blocks ▸ List.mem_map_of_mem old
      rw [allocated_old key index (List.mem_range.mp place)]
      exact holds.contents e old
    · obtain rfl := List.mem_singleton.mp new
      rw [allocated_new]
      exact ⟨rfl, rfl⟩
  · rw [heap, List.map_append, holds.blocks]
    exact List.range_succ.symm
  · rw [heap, List.map_append]
    exact (holds.live.cons s.heap.requests).trans (List.perm_append_singleton _ _).symm
  · rw [heap]
    exact holds.freed

end Allocated

/-- Linking a node changes one link. -/
private theorem next_link (block : Nat) (next : Option Nat) :
    (s.link block next).next = Function.update s.next block next := by
  funext b
  by_cases here : b = block
  · subst here
    rw [Function.update_self]
    exact congrArg Node.next (Function.update_self b _ s.node)
  · rw [Function.update_of_ne here]
    exact congrArg Node.next (Function.update_of_ne here _ s.node)

private theorem link_kept (block : Nat) (next : Option Nat) (b : Nat) :
    ((s.link block next).node b).key = (s.node b).key ∧
      ((s.link block next).node b).index = (s.node b).index := by
  unfold Store.link
  by_cases here : b = block
  · subst here
    simp
  · simp [Function.update_of_ne here]

private theorem appendNode_empty {i node : Nat} (first : s.slot i = none) :
    appendNode fuel i node s =
      .done () { s with slot := Function.update s.slot i (some node) } := by
  rw [appendNode, get_bind, first]
  rfl

private theorem appendNode_behind (node : Nat) {i head last : Nat} {bs : List Nat}
    (first : s.slot i = some head) (chain : Chain s.next (some head) (bs ++ [last]))
    (live : ∀ b ∈ bs ++ [last], b ∈ s.heap.live) (enough : bs.length < fuel) :
    appendNode fuel i node s = .done () (s.link last (some node)) := by
  have here : last ∈ s.heap.live := live last (by simp)
  rw [appendNode, get_bind, first]
  change (lastNode fuel head >>= _) s = _
  rw [bind_done (lastNode_run chain live enough), setNext, if_pos here]

section Linked

variable {key : BitVec 64} {index : Word}

/-- A new node alone in its slot. -/
private theorem Represents.link_first (holds : Represents array nodes s)
    (blocks : slotBlocks array nodes (puFunction array key) = []) :
    Represents array (nodes ++ [⟨key, index, s.heap.requests⟩])
      { allocated s key index with
        slot := Function.update s.slot (puFunction array key) (some s.heap.requests) } := by
  refine holds.extend rfl (fun _ => ⟨rfl, rfl⟩) fun j => ?_
  rw [slotBlocks_snoc]
  by_cases here : puFunction array key = j
  · subst here
    rw [if_pos rfl, blocks]
    exact ⟨Function.update_self _ _ s.slot, congrArg Node.next (allocated_new key index)⟩
  · have same : Function.update s.slot (puFunction array key) (some s.heap.requests) j = s.slot j :=
      Function.update_of_ne (Ne.symm here) _ _
    rw [if_neg here]
    change Chain (allocated s key index).next
      (Function.update s.slot (puFunction array key) (some s.heap.requests) j) _
    rw [same]
    exact holds.chain_allocated key index j

/-- A new node behind the last one of its slot. -/
private theorem Represents.link_last (holds : Represents array nodes s) {front : List Nat}
    {last : Nat} (blocks : slotBlocks array nodes (puFunction array key) = front ++ [last]) :
    Represents array (nodes ++ [⟨key, index, s.heap.requests⟩])
      ((allocated s key index).link last (some s.heap.requests)) := by
  have chain := holds.chain_allocated key index
  have member : last ∈ slotBlocks array nodes (puFunction array key) := by simp [blocks]
  have distinct := (slotBlocks_sublist array nodes (puFunction array key)).nodup holds.nodup
  refine holds.extend rfl (link_kept last _) fun j => ?_
  rw [next_link, slotBlocks_snoc]
  by_cases here : puFunction array key = j
  · subst here
    have route := chain (puFunction array key)
    rw [blocks] at route distinct
    rw [if_pos rfl, blocks]
    exact route.snoc distinct (Nat.ne_of_gt (holds.old member))
      (congrArg Node.next (allocated_new key index))
  · rw [if_neg here]
    refine (chain j).congr fun b other => Function.update_of_ne ?_ _ _
    rintro rfl
    exact here (holds.apart member other)

end Linked

private theorem insertEntry_run (holds : Represents array nodes s) (enough : nodes.length < fuel)
    (r : PUData) (i : Nat) :
    ∃ t, insertEntry array fuel (fun _ => true) r i s = .done () t ∧
      Represents array (nodes ++ [⟨generateKey r.address r.offset, BitVec.ofNat 32 i,
        s.heap.requests⟩]) t ∧ t.heap.requests = s.heap.requests + 1 := by
  let key := generateKey r.address r.offset
  let s₁ := allocated s key (BitVec.ofNat 32 i)
  have route := holds.chain_allocated key (BitVec.ofNat 32 i) (puFunction array key)
  unfold insertEntry
  rw [bind_done (newNode_run key (BitVec.ofNat 32 i))]
  cases blocks : slotBlocks array nodes (puFunction array key) using List.reverseRecOn with
  | nil =>
    rw [blocks] at route
    exact ⟨_, appendNode_empty (s := s₁) route, holds.link_first blocks, rfl⟩
  | append_singleton front last =>
    have live (b : Nat) (member : b ∈ front ++ [last]) : b ∈ s₁.heap.live := by
      rw [← blocks] at member
      exact List.mem_cons_of_mem _
        (holds.live.mem_iff.mpr ((slotBlocks_sublist _ _ _).subset member))
    have short : front.length < fuel := by
      have le := slotBlocks_length_le array nodes (puFunction array key)
      rw [blocks, List.length_append] at le
      exact Nat.lt_trans (Nat.lt_of_succ_le le) enough
    rw [blocks] at route
    obtain ⟨head, first⟩ := route.head
    rw [first] at route
    have append := appendNode_behind (s := s₁) s.heap.requests first route live short
    exact ⟨_, append, holds.link_last blocks, rfl⟩

/-- The node that the loop makes for an entry, in the block that follows `blocks` others. -/
def nodeOf (blocks : Nat) (entry : PUData × Nat) : PUNode where
  key := generateKey entry.1.address entry.1.offset
  index := BitVec.ofNat 32 entry.2
  block := blocks + entry.2

private theorem insertEntries_run (holds : Represents array nodes s) (entries : List PUData)
    (k blocks : Nat) (place : s.heap.requests = blocks + k)
    (enough : nodes.length + entries.length ≤ fuel) :
    ∃ t, insertEntries array fuel (fun _ => true) (entries.zipIdx k) s = .done () t ∧
      Represents array (nodes ++ (entries.zipIdx k).map (nodeOf blocks)) t ∧
      t.heap.requests = blocks + (k + entries.length) := by
  induction entries generalizing nodes s k with
  | nil => exact ⟨s, rfl, by simpa using holds, place⟩
  | cons r entries ih =>
    have room : nodes.length < fuel := by
      rw [List.length_cons] at enough
      omega
    obtain ⟨t, first, inserted, count⟩ := insertEntry_run holds room r k
    rw [place] at inserted count
    obtain ⟨u, run, all, total⟩ := ih inserted (k + 1) count (by simp at enough ⊢; omega)
    refine ⟨u, (bind_done first).trans run, ?_, ?_⟩
    · rw [List.zipIdx_cons, List.map_cons, List.append_cons]
      exact all
    · rw [total, List.length_cons]
      omega

end Insertion

/-- The nodes of the first `runs` runs of the constructor. -/
def allNodes (array : List PUData) : Nat → List PUNode
  | 0 => []
  | runs + 1 => allNodes array runs ++ newNodes array (initialized array runs).blocks

section Runs

variable {array : List PUData} {fuel : Nat}

private theorem initialized_blocks (runs : Nat) :
    (initialized array runs).blocks = runs * array.length := by
  induction runs with
  | zero => exact (Nat.zero_mul _).symm
  | succ runs ih =>
    rw [Nat.succ_mul, ← ih]
    rfl

private theorem allNodes_length (runs : Nat) :
    (allNodes array runs).length = runs * array.length := by
  induction runs with
  | zero => exact (Nat.zero_mul _).symm
  | succ runs ih => simp [allNodes, newNodes, ih, Nat.succ_mul]

/-- After every run the store holds the nodes of all runs. -/
theorem initializeTimes_run (runs : Nat) (enough : runs * array.length ≤ fuel) :
    ∃ s, initializeTimes array fuel (fun _ => true) runs .empty = .done () s ∧
      Represents array (allNodes array runs) s ∧ s.heap.requests = runs * array.length := by
  induction runs with
  | zero => exact ⟨.empty, rfl, represents_empty array, (Nat.zero_mul _).symm⟩
  | succ runs ih =>
    rw [Nat.succ_mul] at enough ⊢
    obtain ⟨s, before, holds, count⟩ := ih (Nat.le_of_add_right_le enough)
    have room : (allNodes array runs).length + array.length ≤ fuel := by
      rw [allNodes_length]
      exact enough
    obtain ⟨t, run, after, total⟩ :=
      insertEntries_run holds array 0 s.heap.requests (Nat.add_zero _).symm room
    refine ⟨t, (bind_done before).trans run, ?_, by rw [total, Nat.zero_add, count]⟩
    rw [count, ← initialized_blocks] at after
    exact after

/-- The lookup in the abstract table goes over the nodes of all runs. -/
private theorem lookup_allNodes (runs : Nat) (key : BitVec 64) :
    BucketTable.lookup (puFunction array) PUNode.key (initialized array runs).chains key =
      (allNodes array runs).find? fun e => e.key = key := by
  induction runs with
  | zero => exact BucketTable.lookup_empty _ _ _ _
  | succ runs ih =>
    rw [initialized, HashIndex.puInitializeTable,
      BucketTable.lookup_insertAll _ _ (newNodes_inside array runs _), ih, allNodes,
      List.find?_append]

/-- A lookup along a represented chain finds the first node with the key. -/
private theorem Represents.find {nodes : List PUNode} {s : Store}
    (holds : Represents array nodes s) (key : BitVec 64) :
    ((slotBlocks array nodes (puFunction array key)).find? fun b => (s.node b).key = key).map
        (fun b => (s.node b).index) =
      (nodes.find? fun e => e.key = key).map PUNode.index := by
  have hit (e : PUNode) (member : e ∈ nodes) :
      decide (puFunction array e.key = puFunction array key ∧ (s.node e.block).key = key) =
        decide (e.key = key) := by
    rw [(holds.contents e member).1]
    by_cases same : e.key = key
    · simp [same]
    · simp [same]
  unfold slotBlocks
  rw [List.find?_map, List.find?_filter, Option.map_map]
  simp only [Function.comp_apply, decide_eq_true_eq]
  rw [List.find?_congr hit]
  refine Option.map_congr fun e found => ?_
  exact (holds.contents e (List.mem_of_find?_eq_some found)).2

/-- A lookup ends with the result of the abstract table. -/
theorem puSearchId_run {s : Store} {runs : Nat}
    (holds : Represents array (allNodes array runs) s) (enough : runs * array.length < fuel)
    (address offset : Word) :
    puSearchId array fuel address offset s =
      .done (puSearchIdIn array (initialized array runs) address offset) s := by
  let key := generateKey address offset
  have live (b : Nat) (member : b ∈ slotBlocks array (allNodes array runs)
      (puFunction array key)) : b ∈ s.heap.live :=
    holds.live.mem_iff.mpr ((slotBlocks_sublist _ _ _).subset member)
  have short : (slotBlocks array (allNodes array runs) (puFunction array key)).length < fuel := by
    have le := slotBlocks_length_le array (allNodes array runs) (puFunction array key)
    rw [allNodes_length] at le
    exact Nat.lt_of_le_of_lt le enough
  refine (searchChain_run key (holds.chains _) live short).trans ?_
  rw [holds.find key, ← lookup_allNodes]
  unfold puSearchIdIn
  cases BucketTable.lookup (puFunction array) PUNode.key (initialized array runs).chains key with
  | none => rfl
  | some node => rfl

end Runs

/-! ### Release -/

/-- The first `i` slots have been released. -/
structure Freeing (array : List PUData) (nodes : List PUNode) (i : Nat) (s : Store) : Prop where
  chains : ∀ j, i ≤ j → Chain s.next (s.slot j) (slotBlocks array nodes j)
  cleared : ∀ j < i, s.slot j = none
  live : s.heap.live.Perm ((nodes.filter fun e => i ≤ puFunction array e.key).map PUNode.block)
  freed : s.heap.freed.Perm ((nodes.filter fun e => puFunction array e.key < i).map PUNode.block)

section Release

variable {array : List PUData} {nodes : List PUNode} {fuel : Nat}

private theorem Represents.freeing {s : Store} (holds : Represents array nodes s) :
    Freeing array nodes 0 s := by
  refine ⟨fun j _ => holds.chains j, fun j none => absurd none (Nat.not_lt_zero j), ?_, ?_⟩
  · simpa using holds.live
  · simp [holds.freed]

/-- The nodes of two disjoint kinds. -/
private theorem filter_split (nodes : List PUNode) {p q r : PUNode → Bool}
    (either : ∀ e, r e = (p e || q e))
    (apart : ∀ e, p e = true → q e = false) :
    ((nodes.filter r).map PUNode.block).Perm
      ((nodes.filter p).map PUNode.block ++ (nodes.filter q).map PUNode.block) := by
  have parts := List.filter_append_perm p (nodes.filter r)
  rw [List.filter_filter, List.filter_filter] at parts
  have first : (nodes.filter fun e => p e && r e) = nodes.filter p := by
    refine List.filter_congr fun e _ => ?_
    rw [either e]
    cases p e with
    | false => rfl
    | true => rfl
  have second : (nodes.filter fun e => !p e && r e) = nodes.filter q := by
    refine List.filter_congr fun e _ => ?_
    rw [either e]
    cases here : p e with
    | false => rfl
    | true => exact (apart e here).symm
  rw [first, second] at parts
  rw [← List.map_append]
  exact (parts.map PUNode.block).symm

variable (array) in
/-- The release of one slot. -/
private theorem freeing_step (enough : nodes.length < fuel) (i : Nat) :
    Triple (Freeing array nodes i) (do
        let s ← Proc.get
        freeChain fuel (s.slot i)
        setSlot i none
        return (none : Option Unit))
      (Turn (Freeing array nodes (i + 1)) fun _ => Freeing array nodes (puTableSize array))
      fun _ => False := by
  intro s hs
  have short : (slotBlocks array nodes i).length < fuel :=
    Nat.lt_of_le_of_lt (slotBlocks_length_le array nodes i) enough
  have remaining := filter_split nodes
    (p := fun e => puFunction array e.key = i) (q := fun e => i + 1 ≤ puFunction array e.key)
    (r := fun e => i ≤ puFunction array e.key) (by grind) (by grind)
  have released := filter_split nodes
    (p := fun e => puFunction array e.key < i) (q := fun e => puFunction array e.key = i)
    (r := fun e => puFunction array e.key < i + 1) (by grind) (by grind)
  obtain ⟨live', run, left⟩ :=
    freeChain_run (hs.chains i (Nat.le_refl i)) (hs.live.trans remaining) short
  rw [get_bind, bind_done run]
  refine ⟨fun j later => ?_, fun j earlier => ?_, left,
    (hs.freed.append_right _).trans released.symm⟩
  · have slot : Function.update s.slot i none j = s.slot j :=
      Function.update_of_ne (Nat.ne_of_gt later) _ _
    change Chain s.next (Function.update s.slot i none j) _
    rw [slot]
    exact hs.chains j (Nat.le_of_succ_le later)
  · change Function.update s.slot i none j = none
    rcases Nat.lt_succ_iff_lt_or_eq.mp earlier with before | rfl
    · rw [Function.update_of_ne (Nat.ne_of_lt before)]
      exact hs.cleared j before
    · exact Function.update_self _ _ _

/-- Behind the loop nothing is left. -/
private theorem Freeing.finished {n : Nat} {s : Store}
    (hs : Freeing array nodes (puTableSize array) s)
    (blocks : nodes.map PUNode.block = List.range n) (nonempty : array ≠ []) :
    s.heap.live = [] ∧ s.heap.freed.Perm (List.range n) ∧
      ∀ i < puTableSize array, s.slot i = none := by
  have inside (e : PUNode) : puFunction array e.key < puTableSize array :=
    Nat.mod_lt _ (List.length_pos_iff.mpr nonempty)
  refine ⟨?_, ?_, hs.cleared⟩
  · have live := hs.live
    rw [List.filter_eq_nil_iff.mpr fun e _ => by simpa using inside e] at live
    exact live.eq_nil
  · have freed := hs.freed
    rw [List.filter_eq_self.mpr fun e _ => by simpa using inside e, blocks] at freed
    exact freed

/-- The release ends, and every lookup behind it. -/
private theorem puFreeTable_run {s : Store} (holds : Represents array nodes s)
    (enough : nodes.length < fuel) (nonempty : array ≠ []) :
    ∃ t, puFreeTable array fuel s = .done () t ∧ t.heap.live = [] ∧
      t.heap.freed.Perm (List.range s.heap.requests) ∧
      ∀ i < puTableSize array, t.slot i = none := by
  have loop := Triple.forLoop (Q := fun _ => Freeing array nodes (puTableSize array))
    (fun i _ => freeing_step array enough i) (fun s hs => hs) s holds.freeing
  obtain ⟨r, t, run, hs⟩ := loop.returns
  exact ⟨t, bind_done run, hs.finished holds.blocks nonempty⟩

end Release

/-! ### Any array the firmware can be compiled with -/

/-- A register array without its definite length: an object of at most the address space,
with seven words an entry. -/
structure RegisterArray where
  entries : List PUData
  nonempty : entries ≠ []
  fits : entries.length * 28 < 2 ^ 32

/-- The array of the firmware. -/
def firmwareArray : RegisterArray where
  entries := registers
  nonempty := List.ne_nil_of_length_pos (by rw [registers_length]; decide)
  fits := by rw [registers_length]; decide

private theorem RegisterArray.scan_lt (array : RegisterArray) (address offset : Word) :
    scan array.entries address offset < array.entries.length := by
  unfold scan
  cases found : array.entries.findIdx? fun r => r.address = address ∧ r.offset = offset with
  | none => exact List.length_pos_iff.mpr array.nonempty
  | some i => exact (List.findIdx?_eq_some_iff_getElem.mp found).1

/-- A lookup in an empty slot. -/
private theorem puSearchId_cleared {array : List PUData} (nonempty : array ≠ []) {fuel : Nat}
    (enough : 0 < fuel) {s : Store} (cleared : ∀ i < puTableSize array, s.slot i = none)
    (address offset : Word) : puSearchId array fuel address offset s = .done 0 s := by
  have inside : puFunction array (generateKey address offset) < puTableSize array :=
    Nat.mod_lt _ (List.length_pos_iff.mpr nonempty)
  have empty : Chain s.next (s.slot (puFunction array (generateKey address offset))) [] :=
    cleared _ inside
  exact searchChain_run _ empty (fun b member => absurd member List.not_mem_nil) enough

/-- However often the constructor has run, a lookup ends with the linear scan; the release
frees every node once, and then a lookup ends with 0. -/
theorem puSearchId_scan (array : RegisterArray) (runs : Nat) (positive : 0 < runs) (fuel : Nat)
    (enough : runs * array.entries.length < fuel) :
    ∃ s, initializeTimes array.entries fuel (fun _ => true) runs .empty = .done () s ∧
      (∀ address offset, ∃ index,
        puSearchId array.entries fuel address offset s = .done index s ∧
          index.toNat = scan array.entries address offset ∧
          index.toNat < array.entries.length) ∧
      ∃ t, puFreeTable array.entries fuel s = .done () t ∧ t.heap.live = [] ∧
        t.heap.freed.Perm (List.range (runs * array.entries.length)) ∧
        ∀ address offset, puSearchId array.entries fuel address offset t = .done 0 t := by
  obtain ⟨s, run, holds, count⟩ := initializeTimes_run runs (Nat.le_of_lt enough)
  refine ⟨s, run, fun address offset => ?_, ?_⟩
  · have small : array.entries.length ≤ 2 ^ 32 := by
      have fits := array.fits
      omega
    have same := puSearchIdIn_initialized array.entries small positive address offset
    exact ⟨_, puSearchId_run holds enough address offset, same,
      same ▸ array.scan_lt address offset⟩
  · obtain ⟨t, freed, none, once, cleared⟩ :=
      puFreeTable_run holds (by rwa [allNodes_length]) array.nonempty
    rw [count] at once
    exact ⟨t, freed, none, once,
      puSearchId_cleared array.nonempty (Nat.zero_lt_of_lt enough) cleared⟩

/-- The two runs of the constructor over the firmware's own array. -/
theorem puSearchId_scan_firmware :
    ∃ s, initializeTimes firmwareArray.entries 413 (fun _ => true) 2 .empty = .done () s ∧
      (∀ address offset, ∃ index,
        puSearchId firmwareArray.entries 413 address offset s = .done index s ∧
          index.toNat = scan firmwareArray.entries address offset ∧
          index.toNat < firmwareArray.entries.length) ∧
      ∃ t, puFreeTable firmwareArray.entries 413 s = .done () t ∧ t.heap.live = [] ∧
        t.heap.freed.Perm (List.range (2 * firmwareArray.entries.length)) ∧
        ∀ address offset, puSearchId firmwareArray.entries 413 address offset t = .done 0 t := by
  have count : firmwareArray.entries.length = 206 := registers_length
  exact puSearchId_scan firmwareArray 2 (by decide) 413 (by rw [count]; decide)

end BmsFirmware.Registers.LinkedIndex
