/- Module: BmsFirmware/Afe/Polling
   Source: application/bq76952/bq76952.c
   Digest: The polled AFE readings, and when they agree with the answers to read requests. -/

import BmsFirmware.DataProcess.Reply

set_option autoImplicit false
set_option relaxedAutoImplicit false

namespace BmsFirmware.Afe.Polling

open BmsFirmware.Library.ByteMemory
open BmsFirmware.Registers.PuTable
open BmsFirmware.Registers.HashIndex
open BmsFirmware.DataProcess.Process
open BmsFirmware.DataProcess.Reply

/-- What `i2c_buffer_read` reads for a command of the AFE; nothing where it does not return 1. -/
def Bus := Byte → Option (Byte × Byte)

/-- One turn of a polling loop: the answer to a command goes to an offset of 0x1200. -/
def storeReading (bus : Bus) (t : Table) (turn : Byte × Word) : Table :=
  match bus turn.1 with
  | some readCommand =>
      puSetData t (puSearchId 0x1200 turn.2) ((voltageValue readCommand).setWidth 32)
  | none => puSetData t (puSearchId 0x1200 turn.2) 0

/-- The turns of `for (...; command < last; command += 2, j += 2)`. -/
def turns (command last j : Nat) : List (Byte × Word) :=
  (List.range ((last - command + 1) / 2)).map fun k =>
    (BitVec.ofNat 8 (command + 2 * k), BitVec.ofNat 32 (j + 2 * k))

def get16CellVoltage (bus : Bus) (t : Table) : Table :=
  (turns 0x14 0x34 0x00).foldl (storeReading bus) t

def getAllTemperature (bus : Bus) (t : Table) : Table :=
  (turns 0x68 0x7C 0xF2).foldl (storeReading bus) t

def getCurrent (bus : Bus) (t : Table) : Table := storeReading bus t (0x3A, 0x98)

/-- The three polling functions, one after the other. -/
def pollAfe (bus : Bus) (t : Table) : Table :=
  getCurrent bus (getAllTemperature bus (get16CellVoltage bus t))

/-- All turns of the three functions. -/
def allTurns : List (Byte × Word) := turns 0x14 0x34 0x00 ++ turns 0x68 0x7C 0xF2 ++ [(0x3A, 0x98)]

/-- The AFE answers every command. -/
def answering (answers : Byte → Byte × Byte) : Bus := fun command => some (answers command)

/-- The value of an answer. -/
def reading (answers : Byte → Byte × Byte) (command : Byte) : Word :=
  (voltageValue (answers command)).setWidth 32

/-- A row into which the answer to a command has been stored, if one has. -/
def withReading (answers : Byte → Byte × Byte) (row : PUData) : Option Byte → PUData
  | some command => { row with data := reading answers command }
  | none => row

/-! ### The table after polling -/

/-- The registers the turns store to, each with the command whose answer it gets. -/
def stores : List (Nat × Byte) := allTurns.map fun turn => (puSearchId 0x1200 turn.2, turn.1)

/-- The command whose answer a register holds after polling, if any was stored there. -/
def source (l : List (Nat × Byte)) (i : Nat) : Option Byte :=
  ((l.filter fun store => store.1 = i).getLast?).map Prod.snd

/-- The last store decides. -/
private theorem source_snoc (l : List (Nat × Byte)) (store : Nat × Byte) (i : Nat) :
    source (l ++ [store]) i = if store.1 = i then some store.2 else source l i := by
  unfold source
  rw [List.filter_append]
  by_cases here : store.1 = i
  · have kept : [store].filter (fun store => store.1 = i) = [store] :=
      List.filter_cons_of_pos (decide_eq_true here)
    rw [kept, List.getLast?_concat, if_pos here]
    rfl
  · have dropped : [store].filter (fun store => store.1 = i) = [] :=
      List.filter_cons_of_neg fun hit => here (of_decide_eq_true hit)
    rw [dropped, List.append_nil, if_neg here]

section Poll

variable (answers : Byte → Byte × Byte) (t : Table)

private theorem storeReading_row (turn : Byte × Word) (i : Nat) :
    (storeReading (answering answers) t turn).row i =
      if puSearchId 0x1200 turn.2 = i then { t.row i with data := reading answers turn.1 }
      else t.row i := by
  change (puSetData t (puSearchId 0x1200 turn.2) (reading answers turn.1)).row i = _
  by_cases here : puSearchId 0x1200 turn.2 = i
  · subst here
    rw [if_pos rfl, puSetData_self]
  · rw [if_neg here, puSetData_other _ _ (Ne.symm here)]

private theorem pollAfe_eq : pollAfe (answering answers) t =
    allTurns.foldl (storeReading (answering answers)) t := by
  rw [allTurns, List.foldl_append, List.foldl_append]
  rfl

private theorem withReading_again (row : PUData) (before : Option Byte) (command : Byte) :
    { withReading answers row before with data := reading answers command } =
      withReading answers row (some command) := by
  cases before <;> rfl

private theorem foldl_row (l : List (Byte × Word)) (i : Nat) :
    (l.foldl (storeReading (answering answers)) t).row i = withReading answers (t.row i)
      (source (l.map fun turn => (puSearchId 0x1200 turn.2, turn.1)) i) := by
  induction l using List.reverseRecOn with
  | nil => rfl
  | append_singleton l turn ih =>
    rw [List.foldl_append, List.foldl_cons, List.foldl_nil, storeReading_row, ih, List.map_append,
      List.map_singleton, source_snoc]
    by_cases here : puSearchId 0x1200 turn.2 = i
    · rw [if_pos here, if_pos here]
      exact withReading_again answers _ _ _
    · rw [if_neg here, if_neg here]

/-- Polling stores into a register the last answer meant for it and changes nothing else. -/
theorem pollAfe_row (i : Nat) :
    (pollAfe (answering answers) t).row i = withReading answers (t.row i) (source stores i) := by
  rw [pollAfe_eq, stores]
  exact foldl_row answers t allTurns i

end Poll

/-! ### Polled and requested readings -/

/-- The command of a register, as `pu_get_command` returns it. -/
def commandOf (i : Nat) : Byte := (initialRow i).command.setWidth 8

/-- The commands that the three functions send. -/
def polled : List Byte := allTurns.map Prod.fst

/-- The register of an AFE command at the base address 0x1200. -/
def RegisterOf (command : Byte) (i : Nat) : Prop :=
  i < registers.length ∧ (initialRow i).address = 0x1200 ∧ commandOf i = command

/-- After polling, the register of every polled command holds the answer to it, which a read
request for it would store as well, and no other register has changed. -/
structure Agrees (answers : Byte → Byte × Byte) (d : Device) : Prop where
  holds : ∀ command ∈ polled, ∀ i, RegisterOf command i →
    puGetData (pollAfe (answering answers) d.table) i = reading answers command
  requested : ∀ command ∈ polled, ∀ i, RegisterOf command i → ∀ service : Service,
    FrameGranted service.grant 1 d.heap → service.replayData = answers (puGetCommand d.table i) →
      puGetData (sendReplyData service i d).1.table i =
        puGetData (pollAfe (answering answers) d.table) i
  kept : ∀ i < registers.length, commandOf i ∉ polled →
    (pollAfe (answering answers) d.table).row i = d.table.row i

/-- The registers of other commands that polling stores to, each with the command whose
answer it gets last. -/
def overwritten : List (Nat × Byte) :=
  [(0, 0x7A), (71, 0x14), (144, 0x3A), (179, 0x68), (180, 0x6A), (181, 0x6C), (182, 0x6E),
    (183, 0x72), (184, 0x76)]

/-- The registers of polled commands that polling does not store to. -/
def unstored : List (Nat × Byte) :=
  [(87, 0x32), (91, 0x3A), (95, 0x68), (96, 0x6A), (97, 0x6C), (98, 0x6E), (99, 0x70), (100, 0x72),
    (101, 0x74), (102, 0x76), (103, 0x78), (104, 0x7A)]

/-- The command of cell `k`, counted from 0. -/
def cellCommand (k : Nat) : Byte := BitVec.ofNat 8 (0x14 + 2 * k)

/-- All cells answer alike, and the other registers concerned hold the readings already. -/
structure Coincides (answers : Byte → Byte × Byte) (t : Table) : Prop where
  cells : ∀ k < 16, reading answers (cellCommand k) = reading answers (cellCommand 0)
  overwritten : ∀ p ∈ overwritten, puGetData t p.1 = reading answers p.2
  unstored : ∀ p ∈ unstored, puGetData t p.1 = reading answers p.2

/-! ### Where the turns store -/

private theorem stores_eq : stores =
    [(71, 0x14), (72, 0x16), (73, 0x18), (74, 0x1A), (75, 0x1C), (76, 0x1E), (77, 0x20), (78, 0x22),
      (79, 0x24), (80, 0x26), (81, 0x28), (82, 0x2A), (83, 0x2C), (84, 0x2E), (85, 0x30),
      (86, 0x32), (179, 0x68), (180, 0x6A), (181, 0x6C), (182, 0x6E), (0, 0x70), (183, 0x72),
      (0, 0x74), (184, 0x76), (0, 0x78), (0, 0x7A), (144, 0x3A)] := by
  simp only [stores, puSearchId_eq]
  decide +kernel

/-- The register of a cell gets the answer of the next cell. -/
private theorem cell_shifted : ∀ k < 15,
    cellCommand k ∈ polled ∧ RegisterOf (cellCommand k) (72 + k) ∧
    source stores (72 + k) = some (cellCommand (k + 1)) := by
  simp only [stores_eq, RegisterOf, registers_length]
  decide +kernel

private theorem overwritten_source : ∀ p ∈ overwritten,
    p.1 < registers.length ∧ commandOf p.1 ∉ polled ∧ source stores p.1 = some p.2 := by
  simp only [stores_eq, registers_length]
  decide +kernel

private theorem unstored_source : ∀ p ∈ unstored,
    p.2 ∈ polled ∧ RegisterOf p.2 p.1 ∧ source stores p.1 = none := by
  simp only [stores_eq, RegisterOf, registers_length]
  decide +kernel

/-- Every register of a polled command is a shifted cell or is not stored to. -/
private theorem polled_cases : ∀ i < registers.length, commandOf i ∈ polled →
    (∃ k < 15, commandOf i = cellCommand k ∧ source stores i = some (cellCommand (k + 1))) ∨
      (i, commandOf i) ∈ unstored ∧ source stores i = none := by
  simp only [stores_eq, registers_length]
  decide +kernel

/-- Every other register is one of those overwritten or is not stored to. -/
private theorem unpolled_cases : ∀ i < registers.length, commandOf i ∉ polled →
    (∃ p ∈ overwritten, p.1 = i ∧ source stores i = some p.2) ∨ source stores i = none := by
  simp only [stores_eq, registers_length]
  decide +kernel

/-! ### Agreement -/

section Agreement

variable (answers : Byte → Byte × Byte) (d : Device)

private theorem data_of_source {i : Nat} {command : Byte}
    (stored : source stores i = some command) :
    puGetData (pollAfe (answering answers) d.table) i = reading answers command := by
  rw [puGetData, pollAfe_row, stored]
  rfl

private theorem row_of_unstored {i : Nat} (none_stored : source stores i = none) :
    (pollAfe (answering answers) d.table).row i = d.table.row i := by
  rw [pollAfe_row, none_stored]
  rfl

/-- What a read request stores for a register. -/
private theorem requested_data (service : Service) {i : Nat}
    (granted : FrameGranted service.grant 1 d.heap)
    (answer : service.replayData = answers (puGetCommand d.table i)) :
    puGetData (sendReplyData service i d).1.table i = reading answers (commandOf i) := by
  have column : puGetCommand d.table i = commandOf i :=
    congrArg (fun c : FixedColumns => c.command.setWidth 8) (d.table.columns i)
  rw [(sendReplyData_created service i d granted).1, refreshed, puGetData, puSetData_self, answer,
    column]
  rfl

private theorem coincides_of_agrees (agrees : Agrees answers d) : Coincides answers d.table := by
  refine ⟨?_, ?_, ?_⟩
  · intro k
    -- each cell's register holds its own answer and the next cell's
    induction k with
    | zero => exact fun _ => rfl
    | succ k ih =>
      intro bound
      obtain ⟨sent, register, shifted⟩ := cell_shifted k (by omega)
      have own := agrees.holds _ sent _ register
      rw [data_of_source answers d shifted] at own
      exact own.trans (ih (by omega))
  · intro p member
    obtain ⟨bound, unpolled, stored⟩ := overwritten_source p member
    have same := congrArg PUData.data (agrees.kept p.1 bound unpolled)
    exact same.symm.trans (data_of_source answers d stored)
  · intro p member
    obtain ⟨sent, register, none_stored⟩ := unstored_source p member
    have same := congrArg PUData.data (row_of_unstored answers d none_stored)
    exact same.symm.trans (agrees.holds _ sent _ register)

private theorem agrees_of_coincides (coincides : Coincides answers d.table) : Agrees answers d := by
  have holds : ∀ command ∈ polled, ∀ i, RegisterOf command i →
      puGetData (pollAfe (answering answers) d.table) i = reading answers command := by
    rintro command sent i ⟨bound, -, rfl⟩
    rcases polled_cases i bound sent with ⟨k, few, own, shifted⟩ | ⟨member, none_stored⟩
    · rw [data_of_source answers d shifted, own, coincides.cells (k + 1) (by omega),
        coincides.cells k (by omega)]
    · rw [puGetData, row_of_unstored answers d none_stored]
      exact coincides.unstored _ member
  refine ⟨holds, ?_, ?_⟩
  · intro command sent i register service granted answer
    rw [holds command sent i register, requested_data answers d service granted answer,
      register.2.2]
  · intro i bound other
    rcases unpolled_cases i bound other with ⟨p, member, rfl, stored⟩ | none_stored
    · have data : puGetData d.table p.1 = reading answers p.2 := coincides.overwritten p member
      rw [pollAfe_row, stored, withReading, ← data]
      rfl
    · exact row_of_unstored answers d none_stored

/-- Polling agrees with the requests exactly if all cells answer alike and the misplaced
readings are in the table already. -/
theorem pollAfe_agrees_iff : Agrees answers d ↔ Coincides answers d.table :=
  ⟨coincides_of_agrees answers d, agrees_of_coincides answers d⟩

end Agreement

/-- Only cell 1 reads 1 mV: its reading is stored one register too low. -/
theorem pollAfe_shiftsCells :
    ¬Agrees (fun command => if command = 0x14 then (1, 0) else (0, 0))
      (.initial fun _ => 0xFF) := by
  intro agrees
  have alike := (coincides_of_agrees _ _ agrees).cells 1 (by decide)
  exact absurd alike (by decide)

end BmsFirmware.Afe.Polling
