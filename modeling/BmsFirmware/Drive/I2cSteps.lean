/- Module: BmsFirmware/Drive/I2cSteps
   Source: application/drive/i2c.c
   Digest: What one pass of each loop of the polled driver does. -/

import BmsFirmware.Drive.I2c

set_option autoImplicit false
set_option relaxedAutoImplicit false

namespace BmsFirmware.Drive.I2cSteps

open BmsFirmware.Library.ByteMemory
open BmsFirmware.Library.PowerLogic
open BmsFirmware.Drive.I2c

/-! ### Waits -/

/-- The bus after some polls and events. -/
def did (s : Bus) (polls : Nat) (events : List Event) : Bus :=
  { s with polls := polls, journal := s.journal ++ events }

@[simp] theorem did_did (s : Bus) (j k : Nat) (es fs : List Event) :
    did (did s j es) k fs = did s k (es ++ fs) := by
  simp [did, List.append_assoc]

@[simp] theorem did_memory (s : Bus) (k : Nat) (es : List Event) : (did s k es).memory = s.memory :=
  rfl

theorem did_nil (s : Bus) : did s s.polls [] = s := by
  simp [did]

@[simp] theorem act_bind {β : Type} (e : Event) (f : Unit → Proc Bus β) (s : Bus) :
    (act e >>= f) s = f () (did s s.polls [e]) := rfl

/-- A bus at rest before a call. -/
def fresh (m : Memory) : Bus := ⟨m, 0, 0, []⟩

/-- A peripheral that is always ready: idle, acknowledged, and done at the first poll. -/
def responsive (data : Nat → Byte) : Hardware where
  flag _ flag := decide (flag ∉ [.i2cbsy, .aerr, .stop])
  data := data

section Waits

/-- How a bounded wait ends whose look `i` has found what it waits for where `found` says,
and leaves the polls at `after i`: with the first look in time that has found it, or with the
look behind them. -/
def waitEnd (found : Nat → Bool) (after : Nat → Nat) : Bool × Nat :=
  let first := (List.range I2C_TIME_OUT).find? found
  (first.isSome, after (first.getD I2C_TIME_OUT))

/-- A wait from poll `k` on for the flag to have the value. -/
def wait (hw : Hardware) (flag : Flag) (value : Bool) (k : Nat) : Bool × Nat :=
  waitEnd (fun i => hw.flag (k + i) flag == value) fun i => k + i + 1

/-- A wait from poll `k` on for an answer to the address: a look polls ADDSEND, and AERR
where that is clear. -/
def waitAnswer (hw : Hardware) (k : Nat) : Bool × Nat :=
  waitEnd (fun i => hw.flag (k + 2 * i) .addsend || hw.flag (k + 2 * i + 1) .aerr)
    fun i => if hw.flag (k + 2 * i) .addsend then k + 2 * i + 1 else k + 2 * i + 2

/-- A wait is in time when one of the polls before its time-out finds the value. -/
theorem wait_inTime_iff {hw : Hardware} {flag : Flag} {value : Bool} {k : Nat} :
    (wait hw flag value k).1 = true ↔ ∃ i < I2C_TIME_OUT, hw.flag (k + i) flag = value := by
  simp [wait, waitEnd]

theorem wait_steady {hw : Hardware} {flag : Flag} {v : Bool} (steady : ∀ k, hw.flag k flag = v)
    (value : Bool) (k : Nat) : (wait hw flag value k).1 = (v == value) := by
  rw [Bool.eq_iff_iff, wait_inTime_iff, beq_iff_eq]
  constructor
  · rintro ⟨i, -, here⟩
    exact (steady _).symm.trans here
  · intro same
    exact ⟨0, by decide, (steady _).trans same⟩

variable {hw : Hardware}

theorem flagGet_did (flag : Flag) (s : Bus) (k : Nat) (es : List Event) :
    flagGet hw flag (did s k es) = .done (hw.flag k flag) (did s (k + 1) es) := rfl

/-- A procedure whose look `i`, made at poll `start i`, goes on waiting unless it has found
what it waits for. -/
structure Looks (waiting : Proc Bus Bool) (found : Nat → Bool) (start after : Nat → Nat) :
    Prop where
  look : ∀ i s, s.polls = start i → waiting s = .done (!found i) { s with polls := after i }
  goesOn : ∀ i, found i = false → after i = start (i + 1)

private theorem flag_looks (flag : Flag) (k : Nat) :
    Looks (flagGet hw flag) (fun i => hw.flag (k + i) flag == false) (k + ·) (k + · + 1) := by
  refine ⟨fun i s here => ?_, fun i _ => rfl⟩
  rw [flagGet, here]
  simp

private theorem notFlag_looks (flag : Flag) (k : Nat) :
    Looks (do
      let set ← flagGet hw flag
      return !set) (fun i => hw.flag (k + i) flag == true) (k + ·) (k + · + 1) := by
  refine ⟨fun i s here => ?_, fun i _ => rfl⟩
  change Outcome.done (!hw.flag s.polls flag) { s with polls := s.polls + 1 } = _
  rw [here]
  simp

variable (hw) in
private theorem answer_looks (k : Nat) :
    Looks (do
      if ← flagGet hw .addsend then return false
      let set ← flagGet hw .aerr
      return !set)
      (fun i => hw.flag (k + 2 * i) .addsend || hw.flag (k + 2 * i + 1) .aerr)
      (k + 2 * ·)
      (fun i => if hw.flag (k + 2 * i) .addsend then k + 2 * i + 1 else k + 2 * i + 2) := by
  constructor
  · intro i s here
    change (if hw.flag s.polls .addsend then _ else _ : Proc Bus Bool) _ = _
    rw [here]
    cases found : hw.flag (k + 2 * i) .addsend with
    | true => rfl
    | false => rfl
  · intro i unseen
    rw [Bool.or_eq_false_iff] at unseen
    rw [unseen.1]
    rfl

/-- The looks that are left when look `i` is next. -/
private theorem Looks.inTime_run {waiting : Proc Bus Bool} {found : Nat → Bool}
    {start after : Nat → Nat} (looks : Looks waiting found start after) (n i : Nat) (s : Bus)
    (here : s.polls = start i) :
    inTime waiting n s = .done ((List.range' i n).find? found).isSome
      { s with polls := after (((List.range' i n).find? found).getD (i + n)) } := by
  induction n generalizing i s with
  | zero =>
    rw [inTime, bind_done (looks.look i s here)]
    rfl
  | succ n ih =>
    rw [inTime, bind_done (looks.look i s here), List.range'_succ]
    cases seen : found i with
    | true =>
      rw [List.find?_cons_of_pos seen]
      rfl
    | false =>
      rw [List.find?_cons_of_neg (by simp [seen]), Bool.not_false, if_pos rfl,
        ih (i + 1) { s with polls := after i } (looks.goesOn i seen), Nat.add_assoc,
        Nat.add_comm 1]

theorem Looks.bounded_run {waiting : Proc Bus Bool} {found : Nat → Bool}
    {start after : Nat → Nat} (looks : Looks waiting found start after) (routine : Routine)
    (flag : Flag) {s : Bus} (here : s.polls = start 0) {r : Bool} {k : Nat}
    (ended : waitEnd found after = (r, k)) :
    bounded routine flag waiting s = .done r (did s k [.waited routine flag r]) := by
  have run := looks.inTime_run I2C_TIME_OUT 0 s here
  rw [Nat.zero_add, ← List.range_eq_range'] at run
  obtain ⟨rfl, rfl⟩ := Prod.mk.inj ended
  rw [bounded, bind_done run]
  rfl

variable (hw) in
theorem waitClear_run (routine : Routine) (flag : Flag) (s : Bus) :
    ∃ r k, waitClear hw routine flag s = .done r (did s k [.waited routine flag r]) ∧
      wait hw flag false s.polls = (r, k) :=
  ⟨_, _, (flag_looks flag s.polls).bounded_run routine flag rfl rfl, rfl⟩

variable (hw) in
theorem waitSet_run (routine : Routine) (flag : Flag) (s : Bus) :
    ∃ r k, waitSet hw routine flag s = .done r (did s k [.waited routine flag r]) ∧
      wait hw flag true s.polls = (r, k) :=
  ⟨_, _, (notFlag_looks flag s.polls).bounded_run routine flag rfl rfl, rfl⟩

variable (hw) in
/-- The wait for an answer to the address. -/
theorem waitAnswer_run (s : Bus) :
    ∃ r k, bounded .standby .addsend (do
        if ← flagGet hw .addsend then return false
        let set ← flagGet hw .aerr
        return !set) s = .done r (did s k [.waited .standby .addsend r]) ∧
      waitAnswer hw s.polls = (r, k) :=
  ⟨_, _, (answer_looks hw s.polls).bounded_run .standby .addsend rfl rfl, rfl⟩

theorem waitSet_steady {flag : Flag} {v : Bool} (steady : ∀ k, hw.flag k flag = v)
    (routine : Routine) (s : Bus) :
    ∃ k, waitSet hw routine flag s = .done v (did s k [.waited routine flag v]) := by
  obtain ⟨r, k, run, ended⟩ := waitSet_run hw routine flag s
  have seen := wait_steady steady true s.polls
  rw [ended, beq_true] at seen
  exact ⟨k, seen ▸ run⟩

theorem waitClear_steady {flag : Flag} {v : Bool} (steady : ∀ k, hw.flag k flag = v)
    (routine : Routine) (s : Bus) :
    ∃ k, waitClear hw routine flag s = .done (!v) (did s k [.waited routine flag !v]) := by
  obtain ⟨r, k, run, ended⟩ := waitClear_run hw routine flag s
  have seen := wait_steady steady false s.polls
  rw [ended, beq_false] at seen
  exact ⟨k, seen ▸ run⟩

/-- A wait without time-out may last for ever, but only polls. -/
theorem awaitBtc_sat (fuel : Nat) (s : Bus) :
    (awaitBtc hw fuel s).Sat (fun _ t => ∃ k, t = { s with polls := k })
      fun t => ∃ k, t = { s with polls := k } := by
  refine Triple.loopWith (I := fun _ t => ∃ k, t = { s with polls := k }) ?_
    (fun _ _ polled => polled) fuel () s ⟨s.polls, rfl⟩
  intro _ t polled
  obtain ⟨k, rfl⟩ := polled
  change Next _ _ (if hw.flag k .btc then _ else _) _
  split_ifs
  · exact ⟨k + 1, rfl⟩
  · exact ⟨k + 1, rfl⟩

end Waits

/-! ### Page writes -/

/-- The bytes that one visit of the transmit state sends from a poll on, with the wait behind
each, and the poll that comes next. -/
inductive DataSent (hw : Hardware) (m : Memory) : Nat → Nat → Nat → Nat → List Event → Prop
  | none (pBuffer k : Nat) : DataSent hw m pBuffer k 0 k []
  | byte {pBuffer n k j k' : Nat} {es : List Event} {seen : Bool}
      (ended : wait hw .btc true k = (seen, j)) (rest : DataSent hw m (pBuffer + 1) j n k' es) :
      DataSent hw m pBuffer k (n + 1) k'
        (.dataTransmit pBuffer (m pBuffer) :: .waited .pageWrite .btc seen :: es)

/-- One pass of the loop of a page write that begins at poll `k` and ends before poll `k'`. -/
inductive PageWriteStep (hw : Hardware) (writeAddress : Byte) (m : Memory) (l : PageWrite)
    (k k' : Nat) : PageWrite ⊕ Byte → List Event → Prop
  | idle (here : l.state = .start) (ended : wait hw .i2cbsy false k = (true, k')) :
      PageWriteStep hw writeAddress m l k k' (.inl { l with state := .sendAddress })
        [.waited .pageWrite .i2cbsy true, .startOnBus]
  | busy (here : l.state = .start) (ended : wait hw .i2cbsy false k = (false, k')) :
      PageWriteStep hw writeAddress m l k k' (.inr I2C_FAIL)
        [.waited .pageWrite .i2cbsy false, .busReset]
  | started (here : l.state = .sendAddress) (ended : wait hw .sbsend true k = (true, k')) :
      PageWriteStep hw writeAddress m l k k' (.inl { l with state := .clearAddressFlag })
        [.waited .pageWrite .sbsend true, .masterAddressing slaveAddress false]
  | unstarted (here : l.state = .sendAddress) (ended : wait hw .sbsend true k = (false, k')) :
      PageWriteStep hw writeAddress m l k k' (.inl { l with state := .start })
        [.waited .pageWrite .sbsend false]
  | acknowledged (here : l.state = .clearAddressFlag)
      (ended : wait hw .addsend true k = (true, k')) :
      PageWriteStep hw writeAddress m l k k' (.inl { l with state := .transmitData })
        [.waited .pageWrite .addsend true, .flagClear .addsend]
  | unacknowledged (here : l.state = .clearAddressFlag)
      (ended : wait hw .addsend true k = (false, k')) :
      PageWriteStep hw writeAddress m l k k' (.inr I2C_FAIL)
        [.waited .pageWrite .addsend false, .busReset]
  | transmitted (here : l.state = .transmitData) {empty seen : Bool} {i j : Nat}
      (emptied : wait hw .tbe true k = (empty, i)) (first : wait hw .btc true i = (seen, j))
      {es : List Event} (sent : DataSent hw m l.pBuffer j l.numberOfByte.toNat k' es) :
      PageWriteStep hw writeAddress m l k k'
        (.inl ⟨.stop, l.pBuffer + l.numberOfByte.toNat, 0xFF⟩)
        (.waited .pageWrite .tbe empty :: (if empty then [.addressTransmit writeAddress] else []) ++
          .waited .pageWrite .btc seen :: es)
  | stopped (here : l.state = .stop) (ended : wait hw .stop false k = (true, k')) :
      PageWriteStep hw writeAddress m l k k' (.inr I2C_END)
        [.stopOnBus, .waited .pageWrite .stop true]
  | unstopped (here : l.state = .stop) (ended : wait hw .stop false k = (false, k')) :
      PageWriteStep hw writeAddress m l k k' (.inl { l with state := .start })
        [.stopOnBus, .waited .pageWrite .stop false]

section PageWrite

variable {hw : Hardware}

variable (hw) in
private theorem transmitBytes_run (n : Nat) (l : PageWrite) (s : Bus)
    (count : l.numberOfByte = BitVec.ofNat 8 n) :
    ∃ state k es, transmitBytes hw n l s =
        .done ⟨state, l.pBuffer + n, 0xFF⟩ (did s k es) ∧
      DataSent hw s.memory l.pBuffer s.polls n k es := by
  induction n generalizing l s with
  | zero =>
    refine ⟨l.state, s.polls, [], ?_, .none _ _⟩
    rw [transmitBytes, did_nil, count]
    rfl
  | succ n ih =>
    obtain ⟨seen, k, run, ended⟩ := waitSet_run hw .pageWrite .btc
      (did s s.polls [.dataTransmit l.pBuffer (s.memory l.pBuffer)])
    rw [did_did] at run
    obtain ⟨state, k', es, rest, sent⟩ := ih
      ⟨if seen then l.state else .start, l.pBuffer + 1, l.numberOfByte - 1⟩
      (did s k [.dataTransmit l.pBuffer (s.memory l.pBuffer), .waited .pageWrite .btc seen])
      (by rw [count, BitVec.ofNat_add]; exact BitVec.add_sub_cancel _ _)
    refine ⟨state, k', _, ?_, .byte ended sent⟩
    change (waitSet hw .pageWrite .btc >>= _)
      (did s s.polls [.dataTransmit l.pBuffer (s.memory l.pBuffer)]) = _
    rw [bind_done run]
    refine rest.trans ?_
    rw [did_did, Nat.add_assoc, Nat.add_comm 1]
    rfl

variable (hw) in
/-- The transmit state behind the register address. -/
private theorem transmitTail_run (l : PageWrite) (empty : Bool) (state : I2cStatus) (s : Bus) :
    ∃ seen j k es, (do
        let seen ← waitSet hw .pageWrite .btc
        let l ← transmitBytes hw l.numberOfByte.toNat
          { l with state := if empty && seen then state else .start }
        return .inl { l with state := .stop } : Proc Bus (PageWrite ⊕ Byte)) s =
        .done (.inl ⟨.stop, l.pBuffer + l.numberOfByte.toNat, 0xFF⟩)
          (did s k (.waited .pageWrite .btc seen :: es)) ∧
      wait hw .btc true s.polls = (seen, j) ∧
      DataSent hw s.memory l.pBuffer j l.numberOfByte.toNat k es := by
  obtain ⟨seen, j, run, ended⟩ := waitSet_run hw .pageWrite .btc s
  obtain ⟨last, k, es, rest, sent⟩ := transmitBytes_run hw l.numberOfByte.toNat
    { l with state := if empty && seen then state else .start }
    (did s j [.waited .pageWrite .btc seen]) (BitVec.ofNat_toNat 8 l.numberOfByte).symm
  refine ⟨seen, j, k, es, ?_, ended, sent⟩
  rw [bind_done run, bind_done rest, did_did]
  rfl

variable (hw) in
theorem pageWriteTurn_step (writeAddress : Byte) (l : PageWrite) (s : Bus) :
    ∃ out k es, pageWriteTurn hw writeAddress l s = .done out (did s k es) ∧
      PageWriteStep hw writeAddress s.memory l s.polls k out es := by
  unfold pageWriteTurn
  cases here : l.state with
  | start =>
    obtain ⟨r, k, run, ended⟩ := waitClear_run hw .pageWrite .i2cbsy s
    dsimp only
    rw [bind_done run]
    cases r with
    | true => exact ⟨_, k, _, by rw [if_pos rfl, act_bind, did_did]; rfl, .idle here ended⟩
    | false =>
      exact ⟨_, k, _, by rw [if_neg Bool.false_ne_true, act_bind, did_did]; rfl, .busy here ended⟩
  | sendAddress =>
    obtain ⟨r, k, run, ended⟩ := waitSet_run hw .pageWrite .sbsend s
    dsimp only
    rw [bind_done run]
    cases r with
    | true => exact ⟨_, k, _, by rw [if_pos rfl, act_bind, did_did]; rfl, .started here ended⟩
    | false => exact ⟨_, k, _, rfl, .unstarted here ended⟩
  | clearAddressFlag =>
    obtain ⟨r, k, run, ended⟩ := waitSet_run hw .pageWrite .addsend s
    dsimp only
    rw [bind_done run]
    cases r with
    | true => exact ⟨_, k, _, by rw [if_pos rfl, act_bind, did_did]; rfl, .acknowledged here ended⟩
    | false =>
      exact ⟨_, k, _, by rw [if_neg Bool.false_ne_true, act_bind, did_did]; rfl,
        .unacknowledged here ended⟩
  | transmitData =>
    obtain ⟨empty, i, run, emptied⟩ := waitSet_run hw .pageWrite .tbe s
    dsimp only
    rw [bind_done run]
    cases empty with
    | true =>
      obtain ⟨seen, j, k, es, rest, first, sent⟩ := transmitTail_run hw l true .transmitData
        (did s i [.waited .pageWrite .tbe true, .addressTransmit writeAddress])
      refine ⟨_, k, _, ?_, .transmitted here emptied first sent⟩
      rw [if_pos rfl, act_bind, did_did]
      refine rest.trans ?_
      rw [did_did]
      rfl
    | false =>
      obtain ⟨seen, j, k, es, rest, first, sent⟩ := transmitTail_run hw l false .transmitData
        (did s i [.waited .pageWrite .tbe false])
      refine ⟨_, k, _, ?_, .transmitted here emptied first sent⟩
      rw [if_neg Bool.false_ne_true]
      refine rest.trans ?_
      rw [did_did]
      rfl
  | stop =>
    obtain ⟨r, k, run, ended⟩ := waitClear_run hw .pageWrite .stop (did s s.polls [.stopOnBus])
    rw [did_did] at run
    dsimp only
    rw [act_bind, bind_done run]
    cases r with
    | true => exact ⟨_, k, _, rfl, .stopped here ended⟩
    | false => exact ⟨_, k, _, rfl, .unstopped here ended⟩

/-- The rule of a page write: an invariant that every pass keeps. -/
theorem pageWrite_sat {fuel pBuffer : Nat} {writeAddress numberOfByte : Byte}
    {I : PageWrite → Bus → Prop} {Q : Byte → Bus → Prop} {C : Bus → Prop}
    (pass : ∀ l s out k es, I l s → PageWriteStep hw writeAddress s.memory l s.polls k out es →
      Next I Q out (did s k es))
    (running : ∀ l s, I l s → C s) (s : Bus)
    (entry : I ⟨.start, pBuffer, numberOfByte⟩ (did s s.polls [.ackConfig true])) :
    (i2cPageWriteTimeout hw fuel pBuffer writeAddress numberOfByte s).Sat Q C := by
  rw [i2cPageWriteTimeout, act_bind]
  refine Triple.loopWith ?_ running fuel _ _ entry
  intro l t holds
  obtain ⟨out, k, es, run, step⟩ := pageWriteTurn_step hw writeAddress l t
  rw [run]
  exact pass l t out k es holds step

end PageWrite

/-! ### Standby -/

/-- How a bounded wait of the routine ended. -/
def waitOf (routine : Routine) : Event → Option (Flag × Bool)
  | .waited r flag seen => if r = routine then some (flag, seen) else none
  | _ => none

/-- Where the flags from poll `k` on lead a pass of the standby wait, and the poll that comes
next; nowhere at its end. -/
def standbyPass (hw : Hardware) (state : I2cStatus) (k : Nat) : Option I2cStatus × Nat :=
  match state with
  | .start =>
      let (idle, k') := wait hw .i2cbsy false k
      (some (if idle then .sendAddress else .start), k')
  | .sendAddress =>
      let (started, k') := wait hw .sbsend true k
      (some (if started then .clearAddressFlag else .start), k')
  | .clearAddressFlag =>
      let (answered, k') := waitAnswer hw k
      if answered then (if hw.flag k' .addsend then none else some .stop, k' + 1)
      else (some .start, k')
  | .transmitData => (some .start, k)
  | .stop => (some .start, (wait hw .stop false k).2)

/-- What a standby wait leaves in the journal: bus control and waits of its own. -/
def InStandby (e : Event) : Prop :=
  waitOf .pageWrite e = none ∧ (∀ data, e ≠ .addressTransmit data) ∧
    ∀ source data, e ≠ .dataTransmit source data

section Standby

variable {hw : Hardware}

variable (hw) in
/-- A pass goes where the flags lead it. -/
theorem standbyTurn_run (state : I2cStatus) (s : Bus) :
    ∃ out k es, standbyTurn hw state s = .done out (did s k es) ∧ (∀ e ∈ es, InStandby e) ∧
      (out = .inr I2C_END ∧ standbyPass hw state s.polls = (none, k) ∨
        ∃ next, out = .inl next ∧ standbyPass hw state s.polls = (some next, k)) := by
  unfold standbyTurn standbyPass
  cases state with
  | start =>
    obtain ⟨r, k, run, ended⟩ := waitClear_run hw .standby .i2cbsy s
    dsimp only
    rw [bind_done run, ended]
    cases r with
    | true =>
      exact ⟨_, k, _, by rw [if_pos rfl, act_bind, did_did]; rfl, by simp [InStandby, waitOf],
        Or.inr ⟨_, rfl, rfl⟩⟩
    | false =>
      exact ⟨_, k, _, by rw [if_neg Bool.false_ne_true, act_bind, did_did]; rfl,
        by simp [InStandby, waitOf], Or.inr ⟨_, rfl, rfl⟩⟩
  | sendAddress =>
    obtain ⟨r, k, run, ended⟩ := waitSet_run hw .standby .sbsend s
    dsimp only
    rw [bind_done run, ended]
    cases r with
    | true =>
      exact ⟨_, k, _, by rw [if_pos rfl, act_bind, did_did]; rfl, by simp [InStandby, waitOf],
        Or.inr ⟨_, rfl, rfl⟩⟩
    | false => exact ⟨_, k, _, rfl, by simp [InStandby, waitOf], Or.inr ⟨_, rfl, rfl⟩⟩
  | clearAddressFlag =>
    obtain ⟨r, k, run, ended⟩ := waitAnswer_run hw s
    dsimp only
    rw [bind_done run, ended]
    cases r with
    | true =>
      rw [if_pos rfl]
      cases found : hw.flag k .addsend with
      | true =>
        refine ⟨_, k + 1, [.waited .standby .addsend true, .flagClear .addsend, .stopOnBus], ?_,
          by simp [InStandby, waitOf], Or.inl ⟨rfl, rfl⟩⟩
        rw [bind_done (flagGet_did .addsend s k _), if_pos found, act_bind, act_bind, did_did,
          did_did]
        rfl
      | false =>
        refine ⟨_, k + 1, [.waited .standby .addsend true, .flagClear .aerr], ?_,
          by simp [InStandby, waitOf], Or.inr ⟨.stop, rfl, rfl⟩⟩
        rw [bind_done (flagGet_did .addsend s k _), if_neg (by simp [found]), act_bind, did_did]
        rfl
    | false => exact ⟨_, k, _, rfl, by simp [InStandby, waitOf], Or.inr ⟨_, rfl, rfl⟩⟩
  | transmitData =>
    exact ⟨_, s.polls, [], by rw [did_nil]; rfl, by simp, Or.inr ⟨_, rfl, rfl⟩⟩
  | stop =>
    obtain ⟨r, k, run, ended⟩ := waitClear_run hw .standby .stop (did s s.polls [.stopOnBus])
    rw [did_did] at run
    dsimp only
    rw [act_bind, bind_done run]
    refine ⟨_, k, _, rfl, by simp [InStandby, waitOf], Or.inr ⟨_, rfl, ?_⟩⟩
    change (some I2cStatus.start, (wait hw .stop false (did s s.polls [.stopOnBus]).polls).2) = _
    rw [ended]

end Standby

/-! ### Buffer reads -/

/-- One pass of the loop of a buffer read, the one over the data apart. -/
inductive BufferReadStep (readAddress : Byte) (l : BufferRead) :
    BufferRead ⊕ Byte → List Event → Prop
  | restarted (here : l.state = .start) (cycle : l.readCycle = true) :
      BufferReadStep readAddress l (.inl { l with state := .sendAddress }) [.startOnBus]
  | idle (here : l.state = .start) (cycle : l.readCycle = false) :
      BufferReadStep readAddress l (.inl { l with state := .sendAddress })
        (.waited .bufferRead .i2cbsy true ::
          (if l.numberOfByte = 2 then [.ackposNext] else []) ++ [.startOnBus])
  | busy (here : l.state = .start) (cycle : l.readCycle = false) :
      BufferReadStep readAddress l (.inr I2C_FAIL) [.waited .bufferRead .i2cbsy false, .busReset]
  | started (here : l.state = .sendAddress) :
      BufferReadStep readAddress l (.inl { l with state := .clearAddressFlag })
        (.waited .bufferRead .sbsend true :: .masterAddressing slaveAddress l.readCycle ::
          if l.readCycle ∧ l.numberOfByte < 3 then [.ackConfig false] else [])
  | unstarted (here : l.state = .sendAddress) :
      BufferReadStep readAddress l (.inl { l with state := .start, readCycle := false })
        [.waited .bufferRead .sbsend false, .busReset]
  | acknowledged (here : l.state = .clearAddressFlag) :
      BufferReadStep readAddress l (.inl { l with state := .transmitData })
        (.waited .bufferRead .addsend true :: .flagClear .addsend ::
          if l.readCycle ∧ l.numberOfByte = 1 then [.stopOnBus] else [])
  | unacknowledged (here : l.state = .clearAddressFlag) :
      BufferReadStep readAddress l (.inr I2C_FAIL) [.waited .bufferRead .addsend false, .busReset]
  | addressed (here : l.state = .transmitData) (cycle : l.readCycle = false) (empty : Bool) :
      BufferReadStep readAddress l (.inl { l with state := .start, readCycle := true })
        (.waited .bufferRead .tbe empty ::
          (if empty then [.addressTransmit readAddress] else []) ++ [.waited .bufferRead .btc true])
  | unaddressed (here : l.state = .transmitData) (cycle : l.readCycle = false) (empty : Bool) :
      BufferReadStep readAddress l (.inr I2C_FAIL)
        (.waited .bufferRead .tbe empty ::
          (if empty then [.addressTransmit readAddress] else []) ++
            [.waited .bufferRead .btc false, .busReset])
  | stopped (here : l.state = .stop) :
      BufferReadStep readAddress l (.inr I2C_END) [.waited .bufferRead .stop true]
  | unstopped (here : l.state = .stop) :
      BufferReadStep readAddress l (.inl { l with state := .start, readCycle := false })
        [.waited .bufferRead .stop false]

/-- What the loop over the data leaves in the journal after `k` bytes. -/
inductive DataTaken (hw : Hardware) (pBuffer first : Nat) : Nat → List Event → Prop
  | none : DataTaken hw pBuffer first 0 []
  | ending {k : Nat} {es : List Event} (taken : DataTaken hw pBuffer first k es) {e : Event}
      (ends : e = .ackConfig false ∨ e = .stopOnBus) : DataTaken hw pBuffer first k (es ++ [e])
  | byte {k : Nat} {es : List Event} (taken : DataTaken hw pBuffer first k es) :
      DataTaken hw pBuffer first (k + 1)
        (es ++ [.dataReceive (pBuffer + k) (hw.data (first + k))])

/-- The bus after the loop over the data has stored `k` bytes. -/
structure Received (hw : Hardware) (pBuffer : Nat) (s : Bus) (k : Nat) (t : Bus) : Prop where
  memory : t.memory = fill s.memory pBuffer k fun i => hw.data (s.received + i)
  received : t.received = s.received + k
  journal : ∃ es, t.journal = s.journal ++ es ∧ DataTaken hw pBuffer s.received k es

section BufferRead

variable {hw : Hardware}

/-- An action under a condition, before the rest of a pass. -/
private theorem actIf_apply {β : Type} (c : Prop) [Decidable c] (e : Event) (rest : Proc Bus β)
    (s : Bus) :
    (if c then act e >>= fun _ => rest else rest) s =
      rest (did s s.polls (if c then [e] else [])) := by
  split_ifs
  · rfl
  · rw [did_nil]

variable (hw) in
private theorem addressTail_run (l : BufferRead) (s : Bus) :
    ∃ k, (do
        if ← waitSet hw .bufferRead .btc then
          return .inl { l with state := .start, readCycle := true }
        act .busReset
        return .inr I2C_FAIL : Proc Bus (BufferRead ⊕ Byte)) s =
        .done (.inl { l with state := .start, readCycle := true })
          (did s k [.waited .bufferRead .btc true]) ∨
      (do
        if ← waitSet hw .bufferRead .btc then
          return .inl { l with state := .start, readCycle := true }
        act .busReset
        return .inr I2C_FAIL : Proc Bus (BufferRead ⊕ Byte)) s =
        .done (.inr I2C_FAIL) (did s k [.waited .bufferRead .btc false, .busReset]) := by
  obtain ⟨seen, k, wait, -⟩ := waitSet_run hw .bufferRead .btc s
  refine ⟨k, ?_⟩
  rw [bind_done wait]
  cases seen with
  | true => exact Or.inl rfl
  | false =>
    rw [if_neg Bool.false_ne_true, act_bind, did_did]
    exact Or.inr rfl

variable (hw) in
theorem bufferReadTurn_step (fuel : Nat) (readAddress : Byte) (l : BufferRead) (s : Bus)
    (quiet : ¬(l.state = .transmitData ∧ l.readCycle = true)) :
    ∃ out k es, bufferReadTurn hw fuel readAddress l s = .done out (did s k es) ∧
      BufferReadStep readAddress l out es := by
  obtain ⟨state, readCycle, pBuffer, numberOfByte, timeout⟩ := l
  cases state with
  | start =>
    cases readCycle with
    | true => exact ⟨_, s.polls, _, rfl, .restarted rfl rfl⟩
    | false =>
      obtain ⟨r, k, wait, -⟩ := waitClear_run hw .bufferRead .i2cbsy s
      simp only [bufferReadTurn]
      rw [if_neg Bool.false_ne_true, bind_done wait]
      cases r with
      | true =>
        refine ⟨_, k, _, ?_, .idle rfl rfl⟩
        rw [if_pos rfl, actIf_apply, act_bind, did_did, did_did]
        rfl
      | false =>
        refine ⟨_, k, _, ?_, .busy rfl rfl⟩
        rw [if_neg Bool.false_ne_true, act_bind, did_did]
        rfl
  | sendAddress =>
    obtain ⟨r, k, wait, -⟩ := waitSet_run hw .bufferRead .sbsend s
    simp only [bufferReadTurn]
    rw [bind_done wait]
    cases r with
    | true =>
      refine ⟨_, k, _, ?_, .started rfl⟩
      rw [if_pos rfl, act_bind, actIf_apply, did_did, did_did]
      rfl
    | false =>
      refine ⟨_, k, _, ?_, .unstarted rfl⟩
      rw [if_neg Bool.false_ne_true, act_bind, did_did]
      rfl
  | clearAddressFlag =>
    obtain ⟨r, k, wait, -⟩ := waitSet_run hw .bufferRead .addsend s
    simp only [bufferReadTurn]
    rw [bind_done wait]
    cases r with
    | true =>
      refine ⟨_, k, _, ?_, .acknowledged rfl⟩
      rw [if_pos rfl, act_bind, actIf_apply, did_did, did_did]
      rfl
    | false =>
      refine ⟨_, k, _, ?_, .unacknowledged rfl⟩
      rw [if_neg Bool.false_ne_true, act_bind, did_did]
      rfl
  | transmitData =>
    obtain rfl : readCycle = false := by simpa using quiet
    obtain ⟨empty, k, wait, -⟩ := waitSet_run hw .bufferRead .tbe s
    simp only [bufferReadTurn]
    rw [if_neg Bool.false_ne_true, bind_done wait, actIf_apply, did_did]
    obtain ⟨k', seen | unseen⟩ := addressTail_run hw
      ⟨.transmitData, false, pBuffer, numberOfByte, timeout⟩
      (did s k ([.waited .bufferRead .tbe empty] ++
        if empty then [.addressTransmit readAddress] else []))
    · exact ⟨_, k', _, seen.trans (by rw [did_did]; rfl), .addressed rfl rfl empty⟩
    · exact ⟨_, k', _, unseen.trans (by rw [did_did]; rfl), .unaddressed rfl rfl empty⟩
  | stop =>
    obtain ⟨r, k, wait, -⟩ := waitClear_run hw .bufferRead .stop s
    simp only [bufferReadTurn]
    rw [bind_done wait]
    cases r with
    | true => exact ⟨_, k, _, rfl, .stopped rfl⟩
    | false => exact ⟨_, k, _, rfl, .unstopped rfl⟩

private theorem Received.polled {pBuffer k : Nat} {s t : Bus}
    (received : Received hw pBuffer s k t) (polls : Nat) :
    Received hw pBuffer s k { t with polls := polls } :=
  ⟨received.memory, received.received, received.journal⟩

private theorem Received.ending {pBuffer k : Nat} {s t : Bus}
    (received : Received hw pBuffer s k t) {e : Event}
    (ends : e = .ackConfig false ∨ e = .stopOnBus) :
    Received hw pBuffer s k (did t t.polls [e]) := by
  obtain ⟨es, listed, taken⟩ := received.journal
  refine ⟨received.memory, received.received, es ++ [e], ?_, taken.ending ends⟩
  rw [did, listed, List.append_assoc]

/-- The bus after one more byte has been stored. -/
private theorem Received.byte {pBuffer k : Nat} {s t : Bus}
    (received : Received hw pBuffer s k t) :
    (dataReceive hw (pBuffer + k) t).Sat (fun _ u => Received hw pBuffer s (k + 1) u)
      fun _ => False := by
  obtain ⟨es, listed, taken⟩ := received.journal
  refine ⟨?_, ?_, _, ?_, taken.byte⟩
  · simp only [received.memory, received.received]
    exact fill_snoc s.memory pBuffer k fun i => hw.data (s.received + i)
  · simp only [received.received]
    rfl
  · simp only [listed, received.received, List.append_assoc]

private theorem awaitBtc_received (fuel : Nat) {pBuffer k : Nat} {s : Bus} {e : Event}
    (ends : e = .ackConfig false ∨ e = .stopOnBus) :
    Triple (Received hw pBuffer s k) (do
        awaitBtc hw fuel
        act e) (fun _ t => Received hw pBuffer s k t) (Received hw pBuffer s k) := by
  intro t received
  refine Triple.bind (P := (· = t)) (R := fun _ u => Received hw pBuffer s k u) ?_ ?_ t rfl
  · rintro _ rfl
    refine (awaitBtc_sat fuel _).mono ?_ ?_
    · rintro _ _ ⟨j, rfl⟩
      exact received.polled j
    · rintro _ ⟨j, rfl⟩
      exact received.polled j
  · exact fun _ u waited => waited.ending ends

private theorem beforeByte_received (fuel : Nat) (numberOfByte : Half) {pBuffer k : Nat}
    {s : Bus} :
    Triple (Received hw pBuffer s k) (beforeByte hw fuel numberOfByte)
      (fun _ t => Received hw pBuffer s k t) (Received hw pBuffer s k) := by
  unfold beforeByte
  split_ifs
  · exact awaitBtc_received fuel (Or.inl rfl)
  · exact awaitBtc_received fuel (Or.inr rfl)
  · exact Triple.pure fun _ received => received

/-- The invariant of the loop over the data: the bytes stored and those still to come make
up the length. -/
private def Taking (hw : Hardware) (pBuffer n : Nat) (s : Bus) (l : BufferRead) (t : Bus) : Prop :=
  ∃ k, k + l.numberOfByte.toNat = n ∧ l.pBuffer = pBuffer + k ∧ Received hw pBuffer s k t

/-- What the loop over the data leaves behind. -/
private def Taken (hw : Hardware) (pBuffer n : Nat) (s : Bus) (l : BufferRead) (t : Bus) : Prop :=
  l.numberOfByte = 0 ∧ l.pBuffer = pBuffer + n ∧ Received hw pBuffer s n t

private theorem dataTurn_taking (fuel pBuffer n : Nat) (s : Bus) (l : BufferRead) :
    Triple (Taking hw pBuffer n s l) (dataTurn hw fuel l)
      (Next (Taking hw pBuffer n s) (Taken hw pBuffer n s))
      fun t => ∃ k ≤ n, Received hw pBuffer s k t := by
  intro t taking
  obtain ⟨k, count, place, received⟩ := taking
  unfold dataTurn
  by_cases none : l.numberOfByte = 0
  · rw [if_pos none]
    rw [none] at count
    obtain rfl : k = n := count
    exact ⟨none, place, received⟩
  · rw [if_neg none]
    refine Triple.bind (R := fun _ u => Received hw pBuffer s k u) ?_ ?_ t received
    · intro u before
      exact (beforeByte_received fuel l.numberOfByte u before).mono (fun _ _ after => after)
        fun _ after => ⟨k, by omega, after⟩
    · intro _ u before
      have ready : flagGet hw .rbne u = .done (hw.flag u.polls .rbne)
        { u with polls := u.polls + 1 } := rfl
      have polled := before.polled (u.polls + 1)
      rw [bind_done ready]
      cases hw.flag u.polls .rbne with
      | true =>
        rw [if_pos rfl, place]
        refine Triple.bind (P := (· = _)) (R := fun _ v => Received hw pBuffer s (k + 1) v)
          ?_ ?_ _ rfl
        · rintro _ rfl
          exact polled.byte.mono (fun _ _ after => after) fun _ never => never.elim
        · intro _ v after
          refine ⟨k + 1, ?_, Nat.add_assoc pBuffer k 1, after⟩
          have positive : l.numberOfByte.toNat ≠ 0 := fun zero => none (BitVec.eq_of_toNat_eq zero)
          have fewer : (l.numberOfByte - 1).toNat = l.numberOfByte.toNat - 1 :=
            BitVec.toNat_sub_of_le (by rw [BitVec.le_def]; simp; omega)
          simp only
          omega
      | false =>
        rw [if_neg Bool.false_ne_true]
        split_ifs
        · exact ⟨k, count, place, polled⟩
        · exact ⟨k, count, place, polled⟩

private theorem dataLoop_sat (fuel : Nat) (l : BufferRead) (s : Bus) :
    (loopWith (dataTurn hw fuel) fuel l s).Sat (Taken hw l.pBuffer l.numberOfByte.toNat s)
      fun t => ∃ k ≤ l.numberOfByte.toNat, Received hw l.pBuffer s k t := by
  refine Triple.loopWith (dataTurn_taking fuel l.pBuffer l.numberOfByte.toNat s) ?_ fuel l s ?_
  · intro l' t taking
    obtain ⟨k, count, -, received⟩ := taking
    exact ⟨k, by omega, received⟩
  · exact ⟨0, Nat.zero_add _, rfl, by simp, rfl, [], by simp, .none⟩

/-- The rule of a buffer read: an invariant that every quiet pass keeps, and that the loop
over the data keeps when it has stored what was left. -/
theorem bufferRead_sat {fuel pBuffer : Nat} {readAddress : Byte} {numberOfByte : Half}
    {I : BufferRead → Bus → Prop} {Q : Byte → Bus → Prop} {C : Bus → Prop}
    (pass : ∀ l s out k es, I l s → BufferReadStep readAddress l out es →
      Next I Q out (did s k es))
    (stored : ∀ l s t cycle, I l s → l.state = .transmitData → l.readCycle = true →
      Received hw l.pBuffer s l.numberOfByte.toNat t →
      I ⟨.stop, cycle, l.pBuffer + l.numberOfByte.toNat, 0, 0⟩ t)
    (taking : ∀ l s k t, I l s → l.state = .transmitData → l.readCycle = true →
      k ≤ l.numberOfByte.toNat → Received hw l.pBuffer s k t → C t)
    (running : ∀ l s, I l s → C s) (s : Bus)
    (entry : I ⟨.start, false, pBuffer, numberOfByte, 0⟩ (did s s.polls [.ackConfig true])) :
    (i2cBufferRead hw fuel pBuffer readAddress numberOfByte s).Sat Q C := by
  rw [i2cBufferRead, act_bind]
  refine Triple.loopWith ?_ running fuel _ _ entry
  intro l t holds
  by_cases quiet : l.state = .transmitData ∧ l.readCycle = true
  · obtain ⟨here, cycle⟩ := quiet
    simp only [bufferReadTurn, here]
    rw [if_pos cycle]
    refine Triple.bind (P := (· = t)) (R := Taken hw l.pBuffer l.numberOfByte.toNat t) ?_ ?_ t rfl
    · rintro _ rfl
      refine (dataLoop_sat fuel l _).mono (fun _ _ taken => taken) ?_
      rintro u ⟨k, bound, received⟩
      exact taking l _ k u holds here cycle bound received
    · rintro ⟨_, cycle', _, _, _⟩ u ⟨rfl, rfl, received⟩
      exact stored l t u cycle' holds here cycle received
  · obtain ⟨out, k, es, run, step⟩ := bufferReadTurn_step hw fuel readAddress l t quiet
    rw [run]
    exact pass l t out k es holds step

end BufferRead

/-! ### A slave that acknowledges its address -/

/-- The bus is idle, and start and address are done when they are waited for. -/
structure Ready (hw : Hardware) : Prop where
  idle : ∀ k, hw.flag k .i2cbsy = false
  started : ∀ k, hw.flag k .sbsend = true
  addressed : ∀ k, hw.flag k .addsend = true

section Ready

variable {hw : Hardware}

private theorem Ready.idle_pass (ready : Ready hw) (writeAddress : Byte) (pBuffer : Nat)
    (numberOfByte : Byte) (s : Bus) :
    ∃ k, pageWriteTurn hw writeAddress ⟨.start, pBuffer, numberOfByte⟩ s =
      .done (.inl ⟨.sendAddress, pBuffer, numberOfByte⟩)
        (did s k [.waited .pageWrite .i2cbsy true, .startOnBus]) := by
  obtain ⟨k, wait⟩ := waitClear_steady ready.idle .pageWrite s
  refine ⟨k, ?_⟩
  simp only [pageWriteTurn]
  rw [bind_done wait, Bool.not_false, if_pos rfl, act_bind, did_did]
  rfl

private theorem Ready.started_pass (ready : Ready hw) (writeAddress : Byte) (pBuffer : Nat)
    (numberOfByte : Byte) (s : Bus) :
    ∃ k, pageWriteTurn hw writeAddress ⟨.sendAddress, pBuffer, numberOfByte⟩ s =
      .done (.inl ⟨.clearAddressFlag, pBuffer, numberOfByte⟩)
        (did s k [.waited .pageWrite .sbsend true, .masterAddressing slaveAddress false]) := by
  obtain ⟨k, wait⟩ := waitSet_steady ready.started .pageWrite s
  refine ⟨k, ?_⟩
  simp only [pageWriteTurn]
  rw [bind_done wait, if_pos rfl, act_bind, did_did]
  rfl

private theorem Ready.addressed_pass (ready : Ready hw) (writeAddress : Byte) (pBuffer : Nat)
    (numberOfByte : Byte) (s : Bus) :
    ∃ k, pageWriteTurn hw writeAddress ⟨.clearAddressFlag, pBuffer, numberOfByte⟩ s =
      .done (.inl ⟨.transmitData, pBuffer, numberOfByte⟩)
        (did s k [.waited .pageWrite .addsend true, .flagClear .addsend]) := by
  obtain ⟨k, wait⟩ := waitSet_steady ready.addressed .pageWrite s
  refine ⟨k, ?_⟩
  simp only [pageWriteTurn]
  rw [bind_done wait, if_pos rfl, act_bind, did_did]
  rfl

/-- Three passes take a page write to its transmit state. -/
theorem Ready.pageWrite_addressed (ready : Ready hw) (writeAddress : Byte) (pBuffer : Nat)
    (numberOfByte : Byte) (s : Bus) :
    ∃ t, (∀ fuel, loopWith (pageWriteTurn hw writeAddress) (fuel + 3)
        ⟨.start, pBuffer, numberOfByte⟩ s =
        loopWith (pageWriteTurn hw writeAddress) fuel ⟨.transmitData, pBuffer, numberOfByte⟩ t) ∧
      ∃ k, t = did s k [.waited .pageWrite .i2cbsy true, .startOnBus,
        .waited .pageWrite .sbsend true, .masterAddressing slaveAddress false,
        .waited .pageWrite .addsend true, .flagClear .addsend] := by
  obtain ⟨k₁, idle⟩ := ready.idle_pass writeAddress pBuffer numberOfByte s
  obtain ⟨k₂, started⟩ := ready.started_pass writeAddress pBuffer numberOfByte (did s k₁ _)
  obtain ⟨k₃, addressed⟩ := ready.addressed_pass writeAddress pBuffer numberOfByte
    (did (did s k₁ _) k₂ _)
  refine ⟨_, fun fuel => ?_, k₃, rfl⟩
  rw [loopWith_next idle, loopWith_next started, loopWith_next addressed, did_did, did_did]
  rfl

private theorem Ready.standby_idle (ready : Ready hw) (s : Bus) :
    ∃ k es, standbyTurn hw .start s = .done (.inl .sendAddress) (did s k es) := by
  obtain ⟨k, wait⟩ := waitClear_steady ready.idle .standby s
  refine ⟨k, [.waited .standby .i2cbsy true, .startOnBus], ?_⟩
  simp only [standbyTurn]
  rw [bind_done wait, Bool.not_false, if_pos rfl, act_bind, did_did]
  rfl

private theorem Ready.standby_started (ready : Ready hw) (s : Bus) :
    ∃ k es, standbyTurn hw .sendAddress s = .done (.inl .clearAddressFlag) (did s k es) := by
  obtain ⟨k, wait⟩ := waitSet_steady ready.started .standby s
  refine ⟨k, [.waited .standby .sbsend true, .masterAddressing slaveAddress false], ?_⟩
  simp only [standbyTurn]
  rw [bind_done wait, if_pos rfl, act_bind, did_did]
  rfl

private theorem Ready.standby_addressed (ready : Ready hw) (s : Bus) :
    ∃ k es, standbyTurn hw .clearAddressFlag s = .done (.inr I2C_END) (did s k es) := by
  have answered : (waitAnswer hw s.polls).1 = true := by
    simp only [waitAnswer, waitEnd, List.find?_isSome, List.mem_range]
    exact ⟨0, by decide, by simp [ready.addressed]⟩
  obtain ⟨out, k, es, run, -, ends | goesOn⟩ := standbyTurn_run hw .clearAddressFlag s
  · exact ⟨k, es, ends.1 ▸ run⟩
  · obtain ⟨next, -, lead⟩ := goesOn
    simp [standbyPass, answered, ready.addressed] at lead

/-- Three passes end a standby wait. -/
theorem Ready.standby_run (ready : Ready hw) (fuel : Nat) (s : Bus) :
    ∃ k es, i2cWaitStandbyStateTimeout hw (fuel + 3) s = .done I2C_END (did s k es) := by
  obtain ⟨k₁, es₁, idle⟩ := ready.standby_idle s
  obtain ⟨k₂, es₂, started⟩ := ready.standby_started (did s k₁ es₁)
  obtain ⟨k₃, es₃, addressed⟩ := ready.standby_addressed (did (did s k₁ es₁) k₂ es₂)
  refine ⟨k₃, es₁ ++ (es₂ ++ es₃), ?_⟩
  rw [i2cWaitStandbyStateTimeout, loopWith_next idle, loopWith_next started,
    loopWith_leave addressed, did_did, did_did]

end Ready

end BmsFirmware.Drive.I2cSteps
