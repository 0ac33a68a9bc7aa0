/- Module: BmsFirmware/Primary/FullPass
   Source: application/primary/main.c
   Digest: The requests that one undisturbed pass of the main loop serves. -/

import BmsFirmware.Primary.Pass
import Mathlib.Data.List.Nodup
import Mathlib.Data.Nat.Find

set_option autoImplicit false
set_option relaxedAutoImplicit false

namespace BmsFirmware.Primary.FullPass

open BmsFirmware.Library.ByteMemory
open BmsFirmware.Library.ActionMachine
open BmsFirmware.Registers.PuTable
open BmsFirmware.Registers.HashIndex
open BmsFirmware.DataProcess.Process
open BmsFirmware.DataProcess.Reply
open BmsFirmware.Primary.MainLoop
open BmsFirmware.Primary.Pass

/-- The scan of this turn has no pair left. -/
def scanDone : Control → Bool
  | .search [] => true
  | _ => false

/-- The request that an event serves. -/
def servedBy : Event → Option (Request × Nat)
  | .replied r _ => some (.read, r)
  | .commanded r _ => some (.write, r)
  | _ => none

/-- A request waits in the status of the register. -/
def Waits (t : Table) (r : Nat) : Prop := puGetStatus t r = 1 ∨ puGetStatus t r = 10

instance (t : Table) (r : Nat) : Decidable (Waits t r) := inferInstanceAs (Decidable (_ ∨ _))

def waiting (t : Table) (r : Nat) : Option (Request × Nat) :=
  if puGetStatus t r = 1 then some (.read, r)
  else if puGetStatus t r = 10 then some (.write, r)
  else none

/-- The registers that a scan finds, in its order. -/
def found (rest : List (Word × Word)) : List Nat := (rest.map pairId).filter fun r => r ≠ 0

/-! ### Stretches of a pass -/

section Stretches

variable (services : Nat → Service)

/-- A stretch of a pass: where it leads, what it serves, and that it ends no scan before. -/
structure Stretch (k n : Nat) (s s' : System) (served : List (Request × Nat)) : Prop where
  leads : exec step (mains services k n) s = s'
  serves : (emitted step (mains services k n) s).filterMap servedBy = served
  inside : ∀ m < n, scanDone (exec step (mains services k m) s).control = false

variable {services}

private theorem Stretch.nil (k : Nat) (s : System) : Stretch services k 0 s s [] :=
  ⟨rfl, rfl, fun m h => absurd h (Nat.not_lt_zero m)⟩

private theorem Stretch.trans {k n m : Nat} {s s' s'' : System} {l l' : List (Request × Nat)}
    (first : Stretch services k n s s' l) (next : Stretch services (k + n) m s' s'' l') :
    Stretch services k (n + m) s s'' (l ++ l') := by
  refine ⟨?_, ?_, ?_⟩
  · rw [exec_add, first.leads, next.leads]
  · rw [mains_add, emitted_append, List.filterMap_append, first.serves, first.leads, next.serves]
  · intro i hi
    rcases Nat.lt_or_ge i n with early | late
    · exact first.inside i early
    · obtain ⟨j, rfl⟩ := Nat.exists_eq_add_of_le late
      rw [exec_add, first.leads]
      exact next.inside j (by omega)

/-- A single access. -/
private theorem Stretch.access (services : Nat → Service) {k : Nat} {d : Device} {c c' : Control}
    (searching : scanDone c = false) (next : nextControl d c = c') :
    Stretch services k 1 ⟨d, c⟩ ⟨effect (services k) d c, c'⟩
      ((event (services k) d c).toList.filterMap servedBy) := by
  refine ⟨?_, ?_, ?_⟩
  · rw [← next]
    rfl
  · change List.filterMap servedBy (_ ++ []) = _
    rw [List.append_nil]
    rfl
  · intro m hm
    obtain rfl : m = 0 := by omega
    exact searching

end Stretches

section Pass

variable (services : Nat → Service) (d : Device)

private theorem puSetStatus_status (t : Table) (r i : Nat) (v : Word) :
    puGetStatus (puSetStatus t r v) i = if i = r then v else puGetStatus t i := by
  by_cases here : i = r
  · subst here
    simp [puGetStatus]
  · simp [puGetStatus, here]

/-- A visit serves the request that waits for it and clears the status. -/
private theorem visit_serves (r : Nat) (rest : List (Word × Word)) (k : Nat) :
    ∃ n d', Stretch services k n ⟨d, .visit .testRead r rest⟩ ⟨d', .search rest⟩
        (waiting d.table r).toList ∧
      ∀ i, puGetStatus d'.table i =
        if i = r ∧ Waits d.table i then 0 else puGetStatus d.table i := by
  by_cases one : puGetStatus d.table r = 1
  · let d₁ : Device := { d with table := puSetStatus d.table r 0 }
    let d₂ : Device := (sendReplyData (services (k + 1 + 1)) r d₁).1
    have status (i : Nat) : puGetStatus d₂.table i = if i = r then 0 else puGetStatus d.table i :=
      (sendReplyData_status _ r d₁ i).trans (puSetStatus_status d.table r i 0)
    have idle : ¬puGetStatus d₂.table r = 10 := by
      rw [status, if_pos rfl]
      decide
    have whole := (Stretch.access services (k := k)
        (c := .visit .testRead r rest) rfl (if_pos one)).trans
      ((Stretch.access services (d := d) (c := .visit .clearRead r rest) rfl rfl).trans
        ((Stretch.access services (d := d₁) (c := .visit .sendReply r rest) rfl rfl).trans
          (Stretch.access services (d := d₂) (c := .visit .testWrite r rest) rfl (if_neg idle))))
    refine ⟨1 + (1 + (1 + 1)), d₂, ?_, ?_⟩
    · rw [waiting, if_pos one]
      exact whole
    · intro i
      rw [status]
      by_cases here : i = r
      · subst here
        rw [if_pos rfl, if_pos ⟨rfl, Or.inl one⟩]
      · rw [if_neg here, if_neg fun h => here h.1]
  · have first := Stretch.access services (k := k)
      (c := .visit .testRead r rest) rfl (if_neg one)
    by_cases ten : puGetStatus d.table r = 10
    · let d₁ : Device := { d with table := puSetStatus d.table r 0 }
      have whole := first.trans
        ((Stretch.access services (d := d) (c := .visit .testWrite r rest) rfl (if_pos ten)).trans
          ((Stretch.access services (d := d) (c := .visit .clearWrite r rest) rfl rfl).trans
            (Stretch.access services (d := d₁) (c := .visit .writeCommand r rest) rfl rfl)))
      refine ⟨1 + (1 + (1 + 1)), d₁, ?_, ?_⟩
      · rw [waiting, if_neg one, if_pos ten]
        exact whole
      · intro i
        refine (puSetStatus_status d.table r i 0).trans ?_
        by_cases here : i = r
        · subst here
          rw [if_pos rfl, if_pos ⟨rfl, Or.inr ten⟩]
        · rw [if_neg here, if_neg fun h => here h.1]
    · have whole := first.trans
        (Stretch.access services (d := d) (c := .visit .testWrite r rest) rfl (if_neg ten))
      refine ⟨1 + 1, d, ?_, ?_⟩
      · rw [waiting, if_neg one, if_neg ten]
        exact whole
      · intro i
        rw [if_neg]
        rintro ⟨rfl, none | none⟩
        · exact one none
        · exact ten none

/-- A scan serves the requests that wait for the registers it finds, in its order. -/
private theorem search_serves {rest : List (Word × Word)} (once : (found rest).Nodup) (k : Nat) :
    ∃ n d', Stretch services k n ⟨d, .search rest⟩ ⟨d', .search []⟩
        ((found rest).filterMap (waiting d.table)) ∧
      ∀ i, puGetStatus d'.table i =
        if i ∈ found rest ∧ Waits d.table i then 0 else puGetStatus d.table i := by
  induction rest generalizing d k with
  | nil =>
    refine ⟨0, d, Stretch.nil k _, ?_⟩
    intro i
    rw [if_neg fun h => absurd h.1 List.not_mem_nil]
  | cons pair rest ih =>
    by_cases hit : pairId pair ≠ 0
    · have split : found (pair :: rest) = pairId pair :: found rest := by
        simp [found, hit]
      rw [split] at once ⊢
      obtain ⟨fresh, once⟩ := List.nodup_cons.mp once
      have look := Stretch.access services (k := k) (d := d)
        (c := .search (pair :: rest)) rfl (if_pos hit)
      obtain ⟨n, d₁, visit, status⟩ := visit_serves services d (pairId pair) rest (k + 1)
      obtain ⟨m, d', ahead, status'⟩ := ih d₁ once (k + 1 + n)
      have away {i : Nat} (member : i ∈ found rest) :
          puGetStatus d₁.table i = puGetStatus d.table i := by
        rw [status, if_neg]
        rintro ⟨rfl, -⟩
        exact fresh member
      have same : (found rest).filterMap (waiting d₁.table) =
          (found rest).filterMap (waiting d.table) :=
        List.filterMap_congr fun i member => by simp only [waiting, away member]
      refine ⟨1 + (n + m), d', ?_, ?_⟩
      · have whole := look.trans (visit.trans ahead)
        rw [same] at whole
        rw [List.filterMap_cons]
        cases first : waiting d.table (pairId pair) with
        | none =>
          rw [first] at whole
          exact whole
        | some request =>
          rw [first] at whole
          exact whole
      · intro i
        rw [status']
        by_cases member : i ∈ found rest
        · simp only [member, Waits, away member, List.mem_cons, or_true]
        · simp only [member, false_and, if_false, List.mem_cons, or_false]
          exact status i
    · have split : found (pair :: rest) = found rest := by
        simp [found, not_not.mp hit]
      rw [split] at once ⊢
      have look := Stretch.access services (k := k) (d := d)
        (c := .search (pair :: rest)) rfl (if_neg hit)
      obtain ⟨m, d', ahead, status⟩ := ih d once (k + 1)
      exact ⟨1 + m, d', look.trans ahead, status⟩

end Pass

/-! ### The registers of a scan -/

/-- An entry of the table other than the reserved one. -/
def IsEntry (i : Nat) : Prop := 0 < i ∧ i < registers.length

instance (i : Nat) : Decidable (IsEntry i) := inferInstanceAs (Decidable (_ ∧ _))

/-- The offsets that one call of `process_base_address` looks up. -/
def Covers (base : Word) (baseOffset step : Nat) (r : PUData) : Prop :=
  r.address = base ∧ r.offset.toNat < baseOffset ∧ r.offset.toNat % step = 0

instance (base : Word) (baseOffset step : Nat) (r : PUData) :
    Decidable (Covers base baseOffset step r) :=
  inferInstanceAs (Decidable (_ ∧ _))

/-- The main loop looks the register up: its offset lies strictly below the bound of its
base address and is a multiple of the step. -/
def LookedUp (r : PUData) : Prop :=
  Covers 0x1000 0x0110 4 r ∨ Covers 0x1200 0x0100 2 r ∨ Covers 0x1400 0x0024 4 r ∨
    Covers 0x1600 0x000E 4 r

instance (r : PUData) : Decidable (LookedUp r) := inferInstanceAs (Decidable (_ ∨ _))

private theorem mem_scanned {base : Word} {baseOffset step : Nat} (positive : 0 < step)
    (small : baseOffset < 2 ^ 32) (r : PUData) :
    (r.address, r.offset) ∈ scanned base baseOffset step ↔ Covers base baseOffset step r := by
  have bound (i : Nat) : i < (baseOffset + step - 1) / step ↔ step * i < baseOffset := by
    rw [← Nat.add_one_le_iff, Nat.le_div_iff_mul_le positive, Nat.add_one_mul, Nat.mul_comm]
    omega
  simp only [scanned, List.mem_map, List.mem_range', bound, Prod.mk.injEq, Nat.zero_add]
  constructor
  · rintro ⟨o, ⟨i, below, rfl⟩, rfl, offset⟩
    have same : r.offset.toNat = step * i := by
      rw [← offset, BitVec.toNat_ofNat, Nat.mod_eq_of_lt (by omega)]
    exact ⟨rfl, by omega, by rw [same, Nat.mul_mod_right]⟩
  · rintro ⟨address, below, aligned⟩
    obtain ⟨i, same⟩ := Nat.dvd_of_mod_eq_zero aligned
    refine ⟨r.offset.toNat, ⟨i, by omega, same⟩, address.symm, ?_⟩
    rw [BitVec.ofNat_toNat, BitVec.setWidth_eq]

theorem mem_found {i : Nat} : i ∈ found passPairs ↔ IsEntry i ∧ LookedUp (initialRow i) := by
  have pairs : ((initialRow i).address, (initialRow i).offset) ∈ passPairs ↔
      LookedUp (initialRow i) := by
    simp (disch := decide) only [passPairs, List.mem_append, mem_scanned, LookedUp, or_assoc]
  rw [found, List.mem_filter, List.mem_map, ← pairs]
  constructor
  · rintro ⟨⟨pair, member, here⟩, other⟩
    have nonzero : i ≠ 0 := by simpa using other
    obtain ⟨bound, address, offset⟩ := names_of_puSearchId here nonzero
    rw [address, offset]
    exact ⟨⟨Nat.pos_of_ne_zero nonzero, bound⟩, member⟩
  · rintro ⟨⟨positive, bound⟩, member⟩
    refine ⟨⟨_, member, puSearchId_of_names ⟨bound, rfl, rfl⟩⟩, ?_⟩
    simpa using Nat.ne_of_gt positive

/-- The pairs of a pass in the order of the table. -/
private theorem passPairs_sorted :
    (passPairs.map fun p => p.1.toNat * 2 ^ 16 + p.2.toNat).Pairwise (· < ·) :=
  List.isChain_iff_pairwise.mp (by decide +kernel)

/-- No register is found twice in a pass. -/
theorem found_nodup : (found passPairs).Nodup := by
  rw [found, List.Nodup, List.pairwise_filter, List.pairwise_map]
  refine (List.pairwise_map.mp passPairs_sorted).imp ?_
  intro p q ordered hit _ same
  have nonzero : pairId p ≠ 0 := by simpa using hit
  have first := names_of_puSearchId (i := pairId p) rfl nonzero
  have second := names_of_puSearchId (i := pairId p) same.symm nonzero
  rw [← first.2.1, ← first.2.2, ← second.2.1, ← second.2.2] at ordered
  exact Nat.lt_irrefl _ ordered

/-- The entries that no call of `process_base_address` looks up. -/
theorem not_lookedUp_iff {i : Nat} (entry : IsEntry i) :
    ¬LookedUp (initialRow i) ↔ i ∈ [69, 70, 184, 194, 196, 198, 200, 202, 203, 204, 205] := by
  have all : ∀ i < 206, 0 < i →
      (¬LookedUp (initialRow i) ↔ i ∈ [69, 70, 184, 194, 196, 198, 200, 202, 203, 204, 205]) := by
    decide +kernel
  exact all i (registers_length ▸ entry.2) entry.1

/-! ### What a pass leaves waiting -/

section Counts

variable (t : Table)

private theorem waiting_eq_some {i j : Nat} {k : Request} :
    waiting t i = some (k, j) ↔ i = j ∧ puGetStatus t j = k.code := by
  have codes : (10 : Word) ≠ 1 := by decide
  unfold waiting
  split_ifs with one ten
  · constructor
    · intro same
      cases same
      exact ⟨rfl, one⟩
    · rintro ⟨rfl, status⟩
      cases k with
      | read => rfl
      | write => exact absurd (status.symm.trans one) codes
  · constructor
    · intro same
      cases same
      exact ⟨rfl, ten⟩
    · rintro ⟨rfl, status⟩
      cases k with
      | read => exact absurd status one
      | write => rfl
  · constructor
    · intro same
      cases same
    · rintro ⟨rfl, status⟩
      cases k with
      | read => exact absurd status one
      | write => exact absurd status ten

private theorem count_waiting {l : List Nat} (once : l.Nodup) (k : Request) (i : Nat) :
    (l.filterMap (waiting t)).count (k, i) =
      if i ∈ l ∧ puGetStatus t i = k.code then 1 else 0 := by
  have distinct : (l.filterMap (waiting t)).Nodup := by
    refine List.Nodup.filterMap ?_ once
    intro a a' b first second
    obtain ⟨k, j⟩ := b
    exact ((waiting_eq_some t).mp first).1.trans ((waiting_eq_some t).mp second).1.symm
  have member : (k, i) ∈ l.filterMap (waiting t) ↔ i ∈ l ∧ puGetStatus t i = k.code := by
    rw [List.mem_filterMap]
    constructor
    · rintro ⟨a, inside, hit⟩
      obtain ⟨rfl, status⟩ := (waiting_eq_some t).mp hit
      exact ⟨inside, status⟩
    · intro h
      exact ⟨i, h.1, (waiting_eq_some t).mpr ⟨rfl, h.2⟩⟩
  rw [distinct.count]
  exact if_congr member rfl rfl

end Counts

section FullPass

variable (services : Nat → Service) (d : Device)

/-- What a pass from the top of the loop does. -/
private theorem pass_serves :
    ∃ n d', Stretch services 0 n ⟨d, .turn⟩ ⟨d', .search []⟩
        ((found passPairs).filterMap (waiting d.table)) ∧
      ∀ i, puGetStatus d'.table i =
        if i ∈ found passPairs ∧ Waits d.table i then 0 else puGetStatus d.table i := by
  have top : Stretch services 0 1 ⟨d, .turn⟩ ⟨d, .search passPairs⟩ [] :=
    Stretch.access services (c := .turn) rfl rfl
  obtain ⟨n, d', scan, status⟩ := search_serves services d found_nodup (0 + 1)
  have whole := top.trans scan
  rw [List.nil_append] at whole
  exact ⟨1 + n, d', whole, status⟩

theorem pass_isDone :
    ∃ n, scanDone (exec step (mains services 0 n) ⟨d, .turn⟩).control = true := by
  obtain ⟨n, d', pass, -⟩ := pass_serves services d
  exact ⟨n, by rw [pass.leads]; rfl⟩

/-- The number of accesses of the four calls of `process_base_address` in one turn. -/
def passLength : Nat := Nat.find (pass_isDone services d)

/-- The device after these calls. -/
def afterPass : Device := (exec step (mains services 0 (passLength services d)) ⟨d, .turn⟩).device

/-- The calls of `send_reply_data` and `write_command_data` among them, in order. -/
def served : List (Request × Nat) :=
  (emitted step (mains services 0 (passLength services d)) ⟨d, .turn⟩).filterMap servedBy

/-- A pass serves every request that waits for an entry, once, serves nothing else, and
leaves none waiting. -/
structure ServesAll : Prop where
  cleared : ∀ i, IsEntry i → ¬Waits (afterPass services d).table i
  answered : ∀ (k : Request) (i : Nat), (served services d).count (k, i) =
    if IsEntry i ∧ puGetStatus d.table i = k.code then 1 else 0

/-- A pass serves the registers it looks up. -/
private theorem served_eq :
    served services d = (found passPairs).filterMap (waiting d.table) ∧
      ∀ i, puGetStatus (afterPass services d).table i =
        if i ∈ found passPairs ∧ Waits d.table i then 0 else puGetStatus d.table i := by
  obtain ⟨n, d', pass, status⟩ := pass_serves services d
  have length : passLength services d = n := by
    rw [passLength, Nat.find_eq_iff]
    refine ⟨by rw [pass.leads]; rfl, ?_⟩
    intro m early
    rw [pass.inside m early]
    decide
  rw [served, afterPass, length, pass.leads]
  exact ⟨pass.serves, status⟩

/-- A waiting register that no call looks up waits for ever. -/
private theorem not_servesAll {i : Nat} (entry : IsEntry i) (waits : Waits d.table i)
    (skipped : ¬LookedUp (initialRow i)) : ¬ServesAll services d := by
  intro all
  have status := (served_eq services d).2 i
  rw [if_neg fun h => skipped (mem_found.mp h.1).2] at status
  have left := all.cleared i entry
  rw [Waits, status] at left
  exact left waits

/-- A pass serves every waiting register exactly if each of them lies on an offset that one
of the four calls looks up. -/
theorem pass_servesAll_iff :
    ServesAll services d ↔ ∀ i, IsEntry i → Waits d.table i → LookedUp (initialRow i) := by
  constructor
  · intro all i entry waits
    by_contra skipped
    exact not_servesAll services d entry waits skipped all
  · intro covered
    obtain ⟨requests, status⟩ := served_eq services d
    refine ⟨?_, ?_⟩
    · intro i entry waits
      rw [Waits, status] at waits
      by_cases before : Waits d.table i
      · rw [if_pos ⟨mem_found.mpr ⟨entry, covered i entry before⟩, before⟩] at waits
        exact absurd waits (by decide)
      · rw [if_neg fun h => before h.2] at waits
        exact before waits
    · intro k i
      rw [requests, count_waiting d.table found_nodup]
      refine if_congr
        ⟨fun h => ⟨(mem_found.mp h.1).1, h.2⟩, fun h => ⟨mem_found.mpr ⟨h.1, ?_⟩, h.2⟩⟩ rfl rfl
      apply covered i h.1
      cases k with
      | read => exact Or.inl h.2
      | write => exact Or.inr h.2

end FullPass

/-- A write request for the register 0x1600/0x0002 is not served. -/
theorem pass_skipsSecondCommand :
    ¬ServesAll (fun _ => ⟨fun _ => true, (0, 0)⟩)
      { Device.initial (fun _ => 0xFF) with table := puSetStatus .initial 196 10 } := by
  refine not_servesAll _ _ (i := 196) (by rw [IsEntry, registers_length]; decide) ?_ ?_
  · exact Or.inr ((puSetStatus_status .initial 196 196 10).trans (if_pos rfl))
  · exact (not_lookedUp_iff (by rw [IsEntry, registers_length]; decide)).mpr (by decide)

end BmsFirmware.Primary.FullPass
