/- Module: BmsFirmware/Drive/ReportedWrite
   Source: application/drive/i2c.c
   Digest: What a buffer write that reports success has seen of its bytes. -/

import BmsFirmware.Drive.I2cSteps
import BmsFirmware.Drive.PageSplit

set_option autoImplicit false
set_option relaxedAutoImplicit false

namespace BmsFirmware.Drive.ReportedWrite

open BmsFirmware.Library.ByteMemory
open BmsFirmware.Library.PowerLogic
open BmsFirmware.Drive.I2c
open BmsFirmware.Drive.I2cSteps
open BmsFirmware.Drive.PageSplit

/-! ### What has been taken -/

/-- What an event owes to the events behind it. Where a page write waits for the data
register, the register address has to go out next, and behind each byte that goes out BTC
has to be seen in time. -/
def TakenBy (behind : List Event) : Event → Prop
  | .waited .pageWrite .tbe _ => ∃ data, behind.head? = some (.addressTransmit data)
  | .addressTransmit _ => behind.head? = some (.waited .pageWrite .btc true)
  | .dataTransmit _ _ => behind.head? = some (.waited .pageWrite .btc true)
  | _ => True

/-- The register address and every data byte of every page write have been sent and taken. -/
def AllTaken : List Event → Prop
  | [] => True
  | e :: behind => TakenBy behind e ∧ AllTaken behind

/-- Success is reported only where every byte has been taken. -/
def ReportsTaken (result : Byte) (journal : List Event) : Prop :=
  result = I2C_OK → AllTaken journal

/-! ### What the flags lead to -/

section Flags

variable (hw : Hardware)

/-- The waits for BTC behind `n` bytes: whether each is in time, and the poll that comes next. -/
def btcWaits : Nat → Nat → Bool × Nat
  | 0, k => (true, k)
  | n + 1, k =>
      let (seen, j) := wait hw .btc true k
      let (others, k') := btcWaits n j
      (seen && others, k')

/-- A visit of the transmit state: TBE in time for the register address, and BTC in time
behind it and behind each of the `n` data bytes. -/
def transmitted (n k : Nat) : Bool × Nat :=
  let (empty, j) := wait hw .tbe true k
  let (seen, k') := btcWaits hw (n + 1) j
  (empty && seen, k')

/-- Where a pass leads a page write: to its end, or to a state with a number of bytes to send,
all that the pass has sent being taken or not. -/
inductive Lead where
  | refused
  | ended
  | goesOn (state : I2cStatus) (n : Nat) (taken : Bool)

/-- What the flags from poll `k` on make of a pass in a state with `n` bytes to send, and the
poll that comes next. The transmit state leaves the 8-bit count at 255. -/
def pagePass (state : I2cStatus) (n k : Nat) : Lead × Nat :=
  match state with
  | .start =>
      let (idle, k') := wait hw .i2cbsy false k
      (if idle then .goesOn .sendAddress n true else .refused, k')
  | .sendAddress =>
      let (started, k') := wait hw .sbsend true k
      (.goesOn (if started then .clearAddressFlag else .start) n true, k')
  | .clearAddressFlag =>
      let (acknowledged, k') := wait hw .addsend true k
      (if acknowledged then .goesOn .transmitData n true else .refused, k')
  | .transmitData =>
      let (taken, k') := transmitted hw n k
      (.goesOn .stop 255 taken, k')
  | .stop =>
      let (stopped, k') := wait hw .stop false k
      (if stopped then .ended else .goesOn .start n true, k')

/-- The way of a page write from a state on: it is refused, or it ends with all bytes of its
visits of the transmit state taken or not. -/
inductive PageHistory : I2cStatus → Nat → Nat → Option Bool → Nat → Prop
  | refused {state : I2cStatus} {n k k' : Nat} (pass : pagePass hw state n k = (.refused, k')) :
      PageHistory state n k none k'
  | ended {state : I2cStatus} {n k k' : Nat} (pass : pagePass hw state n k = (.ended, k')) :
      PageHistory state n k (some true) k'
  | goesOn {state next : I2cStatus} {n n' k j k' : Nat} {taken : Bool} {o : Option Bool}
      (pass : pagePass hw state n k = (.goesOn next n' taken, j))
      (rest : PageHistory next n' j o k') : PageHistory state n k (o.map (taken && ·)) k'

/-- The way of a standby wait from a state on. -/
inductive StandbyHistory : I2cStatus → Nat → Nat → Prop
  | ended {state : I2cStatus} {k k' : Nat} (pass : standbyPass hw state k = (none, k')) :
      StandbyHistory state k k'
  | goesOn {state next : I2cStatus} {k j k' : Nat} (pass : standbyPass hw state k = (some next, j))
      (rest : StandbyHistory next j k') : StandbyHistory state k k'

/-- The way of page writes of so many bytes each, with a standby wait behind each. -/
inductive WriteHistory : List Nat → Nat → Option Bool → Prop
  | nil (k : Nat) : WriteHistory [] k (some true)
  | refused {n k k' : Nat} {ns : List Nat} (page : PageHistory hw .start n k none k') :
      WriteHistory (n :: ns) k none
  | goesOn {n k j k' : Nat} {ns : List Nat} {taken : Bool} {o : Option Bool}
      (page : PageHistory hw .start n k (some taken) j) (standby : StandbyHistory hw .start j k')
      (rest : WriteHistory ns k' o) : WriteHistory (n :: ns) k (o.map (taken && ·))

/-- The flags, looked at from the first poll on, either show TBE and BTC in time in every
transmit state that they lead to, or keep the bus busy or the address unacknowledged for a
whole wait of some page write. -/
def Served (pBuffer : Nat) (writeAddress : Byte) (numberOfByte : Half) : Prop :=
  let counts := (chunks pBuffer writeAddress numberOfByte).map (·.numberOfByte.toNat)
  WriteHistory hw counts 0 (some true) ∨ WriteHistory hw counts 0 none

end Flags

section Unique

variable {hw : Hardware} {state : I2cStatus} {n k k₁ k₂ : Nat} {ns : List Nat}
  {o₁ o₂ : Option Bool}

theorem PageHistory.unique (one : PageHistory hw state n k o₁ k₁)
    (other : PageHistory hw state n k o₂ k₂) : o₁ = o₂ ∧ k₁ = k₂ := by
  induction one generalizing o₂ k₂ with
  | refused pass =>
    cases other with
    | refused pass' => simp_all
    | ended pass' => simp_all
    | goesOn pass' => simp_all
  | ended pass =>
    cases other with
    | refused pass' => simp_all
    | ended pass' => simp_all
    | goesOn pass' => simp_all
  | goesOn pass rest ih =>
    cases other with
    | refused pass' => simp_all
    | ended pass' => simp_all
    | goesOn pass' rest' =>
      obtain ⟨⟨rfl, rfl, rfl⟩, rfl⟩ : (_ ∧ _ ∧ _) ∧ _ := by
        simpa using pass.symm.trans pass'
      obtain ⟨rfl, rfl⟩ := ih rest'
      exact ⟨rfl, rfl⟩

theorem StandbyHistory.unique (one : StandbyHistory hw state k k₁)
    (other : StandbyHistory hw state k k₂) : k₁ = k₂ := by
  induction one with
  | ended pass =>
    cases other with
    | ended pass' => exact congrArg Prod.snd (pass.symm.trans pass')
    | goesOn pass' => simp_all
  | goesOn pass rest ih =>
    cases other with
    | ended pass' => simp_all
    | goesOn pass' rest' =>
      obtain ⟨rfl, rfl⟩ : _ ∧ _ := by simpa using pass.symm.trans pass'
      exact ih rest'

/-- The flags lead one way only. -/
theorem WriteHistory.unique (one : WriteHistory hw ns k o₁) (other : WriteHistory hw ns k o₂) :
    o₁ = o₂ := by
  induction one generalizing o₂ with
  | nil k =>
    cases other
    rfl
  | refused page =>
    cases other with
    | refused page' => rfl
    | goesOn page' => exact absurd (page.unique page').1 (by simp)
  | goesOn page standby rest ih =>
    cases other with
    | refused page' => exact absurd (page.unique page').1 (by simp)
    | goesOn page' standby' rest' =>
      obtain ⟨same, rfl⟩ := page.unique page'
      obtain rfl := Option.some.inj same
      obtain rfl := standby.unique standby'
      rw [ih rest']

end Unique

/-! ### What the journal says of a run -/

/-- What the outcome of a history says of the result of a run and of its events. -/
def Told (result : Byte) (es : List Event) : Option Bool → Prop
  | none => result = I2C_FAIL
  | some taken => result = I2C_OK ∧ (taken = true ↔ AllTaken es)

/-- The last event owes nothing. -/
def Settled (es : List Event) : Prop := ∀ e ∈ es.getLast?, TakenBy [] e

section Journal

variable {hw : Hardware} {es fs : List Event} {e : Event}

private theorem TakenBy.before (taken : TakenBy [] e) (behind : List Event) : TakenBy behind e := by
  cases e with
  | waited routine flag seen => cases routine <;> cases flag <;> simp_all [TakenBy]
  | addressTransmit data => simp [TakenBy] at taken
  | dataTransmit source data => simp [TakenBy] at taken
  | _ => trivial

private theorem AllTaken.settled (taken : AllTaken es) : Settled es := by
  induction es with
  | nil => simp [Settled]
  | cons e es ih =>
    cases es with
    | nil => simpa [Settled] using taken.1
    | cons f fs => simpa [Settled] using ih taken.2

theorem allTaken_append (settled : Settled es) :
    AllTaken (es ++ fs) ↔ AllTaken es ∧ AllTaken fs := by
  induction es with
  | nil => simp [AllTaken]
  | cons e es ih =>
    cases es with
    | nil =>
      have last : TakenBy [] e := settled e rfl
      simp [AllTaken, last, last.before fs]
    | cons f es =>
      have rest := ih (by simpa [Settled] using settled)
      have head : TakenBy (f :: es ++ fs) e ↔ TakenBy (f :: es) e := Iff.rfl
      rw [List.cons_append, AllTaken, AllTaken, rest, head, and_assoc]

variable (es) in
private theorem settled_append (first : fs = [] → Settled es) (next : Settled fs) :
    Settled (es ++ fs) := by
  intro e last
  rw [List.getLast?_append] at last
  cases ends : fs.getLast? with
  | none =>
    rw [ends] at last
    exact first (List.getLast?_eq_none_iff.mp ends) e last
  | some f =>
    rw [ends] at last
    exact next e (ends.trans last)

private theorem inStandby_taken (others : ∀ e ∈ es, InStandby e) : AllTaken es := by
  induction es with
  | nil => trivial
  | cons e es ih =>
    refine ⟨?_, ih fun f listed => others f (List.mem_cons_of_mem e listed)⟩
    obtain ⟨own, noAddress, noData⟩ := others e List.mem_cons_self
    cases e with
    | waited routine flag seen => cases routine <;> simp_all [TakenBy, waitOf]
    | addressTransmit data => exact absurd rfl (noAddress data)
    | dataTransmit source data => exact absurd rfl (noData source data)
    | _ => trivial

/-- Of the bytes sent, all have been taken when each wait behind them is in time. -/
private theorem sent_taken {m : Memory} {pBuffer k n k' : Nat}
    (sent : DataSent hw m pBuffer k n k' es) :
    ∃ taken, btcWaits hw n k = (taken, k') ∧ (taken = true ↔ AllTaken es) ∧ Settled es := by
  induction sent with
  | none pBuffer k => exact ⟨true, rfl, by simp [AllTaken], by simp [Settled]⟩
  | @byte pBuffer n k j k' es seen ended rest ih =>
    obtain ⟨others, waits, taken, settled⟩ := ih
    refine ⟨seen && others, by simp only [btcWaits, ended, waits], ?_, ?_⟩
    · simp only [AllTaken, TakenBy, Bool.and_eq_true, taken, List.head?_cons, Option.some.injEq,
        Event.waited.injEq, true_and]
    · cases es with
      | nil => simp [Settled, TakenBy]
      | cons f fs => simpa [Settled] using settled

/-- Where the flags lead, and what the journal says of a pass that goes there. -/
private def Passed (l : Lead × Nat) (k' : Nat) (out : PageWrite ⊕ Byte) (es : List Event) : Prop :=
  (out = .inr I2C_FAIL ∧ l = (.refused, k')) ∨
    (out = .inr I2C_OK ∧ l = (.ended, k') ∧ AllTaken es) ∨
    ∃ l' taken, out = .inl l' ∧ l = (.goesOn l'.state l'.numberOfByte.toNat taken, k') ∧
      (taken = true ↔ AllTaken es)

private theorem pass_lead {writeAddress : Byte} {m : Memory} {l : PageWrite} {k k' : Nat}
    {out : PageWrite ⊕ Byte} (step : PageWriteStep hw writeAddress m l k k' out es) :
    Settled es ∧ Passed (pagePass hw l.state l.numberOfByte.toNat k) k' out es := by
  cases step with
  | idle here ended =>
    exact ⟨by simp [Settled, TakenBy], Or.inr (Or.inr ⟨_, true, rfl,
      by simp [pagePass, here, ended], by simp [AllTaken, TakenBy]⟩)⟩
  | busy here ended =>
    exact ⟨by simp [Settled, TakenBy], Or.inl ⟨rfl, by simp [pagePass, here, ended]⟩⟩
  | started here ended =>
    exact ⟨by simp [Settled, TakenBy], Or.inr (Or.inr ⟨_, true, rfl,
      by simp [pagePass, here, ended], by simp [AllTaken, TakenBy]⟩)⟩
  | unstarted here ended =>
    exact ⟨by simp [Settled, TakenBy], Or.inr (Or.inr ⟨_, true, rfl,
      by simp [pagePass, here, ended], by simp [AllTaken, TakenBy]⟩)⟩
  | acknowledged here ended =>
    exact ⟨by simp [Settled, TakenBy], Or.inr (Or.inr ⟨_, true, rfl,
      by simp [pagePass, here, ended], by simp [AllTaken, TakenBy]⟩)⟩
  | unacknowledged here ended =>
    exact ⟨by simp [Settled, TakenBy], Or.inl ⟨rfl, by simp [pagePass, here, ended]⟩⟩
  | @transmitted here empty seen i j emptied first es sent =>
    obtain ⟨others, waits, taken, settled⟩ := sent_taken sent
    refine ⟨?_, Or.inr (Or.inr ⟨_, empty && (seen && others), rfl, ?_, ?_⟩)⟩
    · have last : Settled (.waited .pageWrite .btc seen :: es) :=
        settled_append [_] (fun _ => by simp [Settled, TakenBy]) settled
      exact settled_append (_ :: _) (fun none => by simp at none) last
    · simp [pagePass, here, transmitted, emptied, btcWaits, first, waits]
    · cases empty <;> simp [AllTaken, TakenBy, taken]
  | stopped here ended =>
    exact ⟨by simp [Settled, TakenBy], Or.inr (Or.inl ⟨rfl, by simp [pagePass, here, ended],
      by simp [AllTaken, TakenBy]⟩)⟩
  | unstopped here ended =>
    exact ⟨by simp [Settled, TakenBy], Or.inr (Or.inr ⟨_, true, rfl,
      by simp [pagePass, here, ended], by simp [AllTaken, TakenBy]⟩)⟩

end Journal

section Runs

variable {hw : Hardware} {fuel pBuffer : Nat} {writeAddress : Byte} {s t : Bus} {r : Byte}

/-- A run of a page write from a state on follows a history, and its journal tells its outcome. -/
private def Wrote (hw : Hardware) (l : PageWrite) (s : Bus) (r : Byte) (t : Bus) : Prop :=
  ∃ es o, t.journal = s.journal ++ es ∧ Settled es ∧
    PageHistory hw l.state l.numberOfByte.toNat s.polls o t.polls ∧ Told r es o

private theorem turn_last {l : PageWrite}
    (turn : pageWriteTurn hw writeAddress l s = .done (.inr r) t) : Wrote hw l s r t := by
  obtain ⟨out, k', es, run, step⟩ := pageWriteTurn_step hw writeAddress l s
  obtain ⟨rfl, rfl⟩ := Outcome.done.inj (turn.symm.trans run)
  obtain ⟨settled, ⟨same, lead⟩ | ⟨same, lead, taken⟩ | ⟨l', taken, other, -⟩⟩ := pass_lead step
  · exact ⟨es, none, rfl, settled, .refused lead, Sum.inr.inj same⟩
  · exact ⟨es, some true, rfl, settled, .ended lead, Sum.inr.inj same, by simp [taken]⟩
  · cases other

private theorem turn_more {l next : PageWrite} {u : Bus}
    (turn : pageWriteTurn hw writeAddress l s = .done (.inl next) u)
    (rest : Wrote hw next u r t) : Wrote hw l s r t := by
  obtain ⟨out, k', es, run, step⟩ := pageWriteTurn_step hw writeAddress l s
  obtain ⟨rfl, rfl⟩ := Outcome.done.inj (turn.symm.trans run)
  obtain ⟨fs, o, listed, settled', history, told⟩ := rest
  obtain ⟨settled, ⟨other, -⟩ | ⟨other, -⟩ | ⟨l', taken, same, lead, all⟩⟩ := pass_lead step
  · cases other
  · cases other
  · obtain rfl := Sum.inl.inj same
    refine ⟨es ++ fs, _, ?_, settled_append es (fun _ => settled) settled',
      .goesOn lead history, ?_⟩
    · rw [listed, did, List.append_assoc]
    · cases o with
      | none => exact told
      | some others =>
        refine ⟨told.1, ?_⟩
        rw [Bool.and_eq_true, all, told.2, allTaken_append settled]

private theorem pageWrite_wrote {numberOfByte : Byte}
    (run : i2cPageWriteTimeout hw fuel pBuffer writeAddress numberOfByte s = .done r t) :
    Wrote hw ⟨.start, pBuffer, numberOfByte⟩ s r t := by
  rw [i2cPageWriteTimeout, act_bind] at run
  obtain ⟨es, o, listed, settled, history, told⟩ := loopWith_run turn_last turn_more run
  refine ⟨.ackConfig true :: es, o, ?_, ?_, history, ?_⟩
  · rw [listed, did, List.append_assoc]
    rfl
  · exact settled_append [_] (fun _ => by simp [Settled, TakenBy]) settled
  · cases o with
    | none => exact told
    | some taken => exact ⟨told.1, by simp [told.2, AllTaken, TakenBy]⟩

/-- A run of a standby wait from a state on. -/
private def Stood (hw : Hardware) (state : I2cStatus) (s : Bus) (r : Byte) (t : Bus) : Prop :=
  r = I2C_OK ∧ StandbyHistory hw state s.polls t.polls ∧
    ∃ es, t.journal = s.journal ++ es ∧ AllTaken es

private theorem standby_stood
    (run : i2cWaitStandbyStateTimeout hw fuel s = .done r t) : Stood hw .start s r t := by
  refine loopWith_run (R := Stood hw) ?_ ?_ run
  · intro state s r t turn
    obtain ⟨out, k', es, run, others, ⟨same, lead⟩ | ⟨next, other, -⟩⟩ :=
      standbyTurn_run hw state s
    · obtain ⟨rfl, rfl⟩ := Outcome.done.inj (turn.symm.trans run)
      exact ⟨Sum.inr.inj same, .ended lead, es, rfl, inStandby_taken others⟩
    · obtain ⟨rfl, rfl⟩ := Outcome.done.inj (turn.symm.trans run)
      cases other
  · intro state s next u r t turn rest
    obtain ⟨out, k', es, run, others, ⟨other, -⟩ | ⟨next, same, lead⟩⟩ :=
      standbyTurn_run hw state s
    · obtain ⟨rfl, rfl⟩ := Outcome.done.inj (turn.symm.trans run)
      cases other
    · obtain ⟨rfl, rfl⟩ := Outcome.done.inj (turn.symm.trans run)
      obtain rfl := Sum.inl.inj same
      obtain ⟨success, history, fs, listed, taken⟩ := rest
      refine ⟨success, .goesOn lead history, es ++ fs, ?_, ?_⟩
      · rw [listed, did, List.append_assoc]
      · have first := inStandby_taken others
        exact (allTaken_append first.settled).mpr ⟨first, taken⟩

/-- What the chunks that are left do. -/
private def WroteAll (hw : Hardware) (ns : List Nat) (s : Bus) (r : Byte) (t : Bus) : Prop :=
  ∃ es o, t.journal = s.journal ++ es ∧ WriteHistory hw ns s.polls o ∧ Told r es o

private theorem writeThen_wrote {numberOfByte : Byte} {ns : List Nat} {next : Byte → Proc Bus Byte}
    (rest : ∀ {s}, next I2C_OK s = .done r t → WroteAll hw ns s r t)
    (run : writeThen (i2cPageWriteTimeout hw fuel) (i2cWaitStandbyStateTimeout hw fuel) pBuffer
      writeAddress numberOfByte next s = .done r t) :
    WroteAll hw (numberOfByte.toNat :: ns) s r t := by
  cases page : i2cPageWriteTimeout hw fuel pBuffer writeAddress numberOfByte s with
  | cut u =>
    rw [writeThen, bind_apply, page] at run
    cases run
  | done result u =>
    obtain ⟨es, o, listed, settled, history, told⟩ := pageWrite_wrote page
    cases o with
    | none =>
      have refused : result ≠ I2C_OK := by
        rw [told]
        decide
      rw [writeThen_refused page refused] at run
      obtain ⟨rfl, rfl⟩ := Outcome.done.inj run
      exact ⟨es, none, listed, .refused history, told⟩
    | some taken =>
      obtain ⟨rfl, all⟩ := told
      cases wait : i2cWaitStandbyStateTimeout hw fuel u with
      | cut v =>
        rw [writeThen, bind_done page, if_neg (by simp), bind_apply, wait] at run
        cases run
      | done result v =>
        obtain ⟨rfl, stood, fs, standby, quiet⟩ := standby_stood wait
        rw [writeThen_goesOn page wait] at run
        obtain ⟨gs, o, left, others, toldOthers⟩ := rest run
        refine ⟨es ++ (fs ++ gs), _, ?_, .goesOn history stood others, ?_⟩
        · rw [left, standby, listed, List.append_assoc, List.append_assoc]
        · cases o with
          | none => exact toldOthers
          | some more =>
            refine ⟨toldOthers.1, ?_⟩
            rw [Bool.and_eq_true, all, toldOthers.2, allTaken_append settled,
              allTaken_append quiet.settled, and_iff_right quiet]

/-- From a success so far, the chunks that are left decide. -/
private theorem writeChunks_wrote (cs : List Chunk)
    (run : writeChunks (i2cPageWriteTimeout hw fuel) (i2cWaitStandbyStateTimeout hw fuel) cs
      I2C_OK s = .done r t) :
    WroteAll hw (cs.map (·.numberOfByte.toNat)) s r t := by
  induction cs generalizing s with
  | nil =>
    obtain ⟨rfl, rfl⟩ := Outcome.done.inj run
    exact ⟨[], some true, by simp, .nil _, rfl, by simp [AllTaken]⟩
  | cons c cs ih => exact writeThen_wrote ih run

end Runs

/-- Of a buffer write that returns, success means that its bytes were taken exactly when the
flags serve it. -/
theorem bufferWrite_reportsTaken_iff (hw : Hardware) (fuel : Nat) (m : Memory) (pBuffer : Nat)
    (writeAddress : Byte) (numberOfByte : Half) :
    (i2cBufferWrite hw fuel pBuffer writeAddress numberOfByte (fresh m)).Sat
      (fun r s => ReportsTaken r s.journal ↔ Served hw pBuffer writeAddress numberOfByte)
      fun _ => True := by
  cases run : i2cBufferWrite hw fuel pBuffer writeAddress numberOfByte (fresh m) with
  | cut s => trivial
  | done r s =>
    rw [i2cBufferWrite, bufferWrite_eq] at run
    cases listed : chunks pBuffer writeAddress numberOfByte with
    | nil =>
      rw [listed] at run
      obtain ⟨rfl, rfl⟩ := Outcome.done.inj run
      refine iff_of_true (fun success => absurd success (by decide)) (Or.inl ?_)
      rw [listed]
      exact .nil 0
    | cons c cs =>
      rw [listed] at run
      obtain ⟨es, o, journal, history, told⟩ := writeThen_wrote (writeChunks_wrote cs) run
      have whole : s.journal = es := journal
      have led : WriteHistory hw
          ((chunks pBuffer writeAddress numberOfByte).map (·.numberOfByte.toNat)) 0 o := by
        rw [listed]
        exact history
      change ReportsTaken r s.journal ↔ _
      rw [whole]
      cases o with
      | none =>
        have refused : r ≠ I2C_OK := by
          rw [told]
          decide
        exact iff_of_true (fun success => absurd success refused) (Or.inr led)
      | some taken =>
        obtain ⟨success, all⟩ := told
        cases taken with
        | true => exact iff_of_true (fun _ => all.mp rfl) (Or.inl led)
        | false =>
          refine iff_of_false (fun reports => ?_) fun served => ?_
          · exact Bool.false_ne_true (all.mpr (reports success))
          · rcases served with taken | refused
            · exact absurd (led.unique taken) (by simp)
            · exact absurd (led.unique refused) (by simp)

/-! ### A slave that takes no byte -/

/-- The address is acknowledged and every wait ends in time but those for BTC. -/
structure Deaf (hw : Hardware) : Prop extends Ready hw where
  empty : ∀ k, hw.flag k .tbe = true
  silent : ∀ k, hw.flag k .btc = false
  stopped : ∀ k, hw.flag k .stop = false

def deaf : Hardware := ⟨fun _ flag => decide (flag ∈ [.sbsend, .addsend, .tbe]), fun _ => 0⟩

section Deaf

variable {hw : Hardware} (pBuffer : Nat) (writeAddress : Byte)

private theorem deaf_byte (isDeaf : Deaf hw) (s : Bus) :
    ∃ k es, transmitBytes hw 1 ⟨.start, pBuffer, 1⟩ s =
      .done ⟨.start, pBuffer + 1, 0xFF⟩ (did s k es) := by
  obtain ⟨k, wait⟩ := waitSet_steady isDeaf.silent .pageWrite
    (did s s.polls [.dataTransmit pBuffer (s.memory pBuffer)])
  refine ⟨k, [.dataTransmit pBuffer (s.memory pBuffer), .waited .pageWrite .btc false], ?_⟩
  change (waitSet hw .pageWrite .btc >>= _)
    (did s s.polls [.dataTransmit pBuffer (s.memory pBuffer)]) = _
  rw [bind_done wait, did_did]
  simp [transmitBytes]

/-- The register address goes out, and BTC is not seen behind it. -/
private def Unanswered (es : List Event) : Prop :=
  ∃ before data behind,
    es = before ++ .addressTransmit data :: .waited .pageWrite .btc false :: behind

private theorem Unanswered.append {es : List Event} (unanswered : Unanswered es)
    (before behind : List Event) : Unanswered (before ++ es ++ behind) := by
  obtain ⟨xs, data, ys, rfl⟩ := unanswered
  exact ⟨before ++ xs, data, ys ++ behind, by simp⟩

private theorem Unanswered.untaken {es : List Event} (unanswered : Unanswered es) :
    ¬AllTaken es := by
  obtain ⟨before, data, behind, rfl⟩ := unanswered
  induction before with
  | nil => simp [AllTaken, TakenBy]
  | cons e before ih => exact fun taken => ih taken.2

/-- The transmit state goes on to the stop state whatever its waits have seen. -/
private theorem deaf_transmit (isDeaf : Deaf hw) (s : Bus) :
    ∃ k es, pageWriteTurn hw writeAddress ⟨.transmitData, pBuffer, 1⟩ s =
      .done (.inl ⟨.stop, pBuffer + 1, 0xFF⟩) (did s k es) ∧ Unanswered es := by
  obtain ⟨k₁, emptied⟩ := waitSet_steady isDeaf.empty .pageWrite s
  obtain ⟨k₂, first⟩ := waitSet_steady isDeaf.silent .pageWrite
    (did s k₁ [.waited .pageWrite .tbe true, .addressTransmit writeAddress])
  rw [did_did] at first
  obtain ⟨k₃, es, byte⟩ := deaf_byte pBuffer isDeaf (did s k₂
    [.waited .pageWrite .tbe true, .addressTransmit writeAddress, .waited .pageWrite .btc false])
  refine ⟨k₃, [.waited .pageWrite .tbe true, .addressTransmit writeAddress,
    .waited .pageWrite .btc false] ++ es, ?_, [.waited .pageWrite .tbe true], writeAddress, es, rfl⟩
  simp only [pageWriteTurn]
  rw [bind_done emptied, if_pos rfl, act_bind, did_did]
  refine (bind_done first).trans ?_
  refine (bind_done byte).trans ?_
  rw [did_did]
  rfl

private theorem deaf_stop (isDeaf : Deaf hw) (s : Bus) :
    ∃ k es, pageWriteTurn hw writeAddress ⟨.stop, pBuffer, 0xFF⟩ s =
      .done (.inr I2C_END) (did s k es) := by
  obtain ⟨k, wait⟩ := waitClear_steady isDeaf.stopped .pageWrite (did s s.polls [.stopOnBus])
  refine ⟨k, [.stopOnBus, .waited .pageWrite .stop true], ?_⟩
  simp only [pageWriteTurn]
  rw [act_bind, bind_done wait, did_did]
  rfl

private theorem deaf_page (isDeaf : Deaf hw) (s : Bus) :
    ∃ t, i2cPageWriteTimeout hw 5 pBuffer writeAddress 1 s = .done I2C_OK t ∧
      Unanswered t.journal := by
  obtain ⟨u, addressed, -⟩ := isDeaf.pageWrite_addressed writeAddress pBuffer 1
    (did s s.polls [.ackConfig true])
  obtain ⟨k, es, transmit, unanswered⟩ := deaf_transmit pBuffer writeAddress isDeaf u
  obtain ⟨k', fs, stop⟩ := deaf_stop (pBuffer + 1) writeAddress isDeaf (did u k es)
  refine ⟨did (did u k es) k' fs, ?_, unanswered.append u.journal fs⟩
  rw [i2cPageWriteTimeout, act_bind, addressed 2, loopWith_next transmit, loopWith_leave stop]
  rfl

/-- A buffer write of one byte succeeds. -/
private theorem deaf_write (isDeaf : Deaf hw) (s : Bus) :
    ∃ t, i2cBufferWrite hw 5 pBuffer 0 1 s = .done I2C_OK t ∧ ¬AllTaken t.journal := by
  obtain ⟨t, page, unanswered⟩ := deaf_page pBuffer 0 isDeaf s
  obtain ⟨k, es, standby⟩ := isDeaf.standby_run 2 t
  refine ⟨did t k es, ?_, (unanswered.append [] es).untaken⟩
  rw [i2cBufferWrite, bufferWrite_eq]
  exact writeThen_goesOn page standby

end Deaf

/-- With a slave that takes no byte, a buffer write of one byte reports success. -/
theorem bufferWrite_reportsUntaken :
    ∃ s, i2cBufferWrite deaf 5 0 0 1 (fresh fun _ => 0) = .done I2C_OK s ∧
      ¬ReportsTaken I2C_OK s.journal := by
  have isDeaf : Deaf deaf :=
    ⟨⟨fun _ => rfl, fun _ => rfl, fun _ => rfl⟩, fun _ => rfl, fun _ => rfl, fun _ => rfl⟩
  obtain ⟨s, run, untaken⟩ := deaf_write 0 isDeaf (fresh fun _ => 0)
  exact ⟨s, run, fun reports => untaken (reports rfl)⟩

end BmsFirmware.Drive.ReportedWrite
