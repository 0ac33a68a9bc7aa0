/- Module: BmsFirmware/Library/PowerLogic
   Scope: general
   Digest: Procedures that may be cut off, and their pre-, post- and cut-off conditions. -/

import Mathlib.Tactic.Common

set_option autoImplicit false
set_option relaxedAutoImplicit false

namespace BmsFirmware.Library.PowerLogic

/-- A procedure returns a value and a state, or it is cut off and leaves only a state: `cut`
is a loss of power, a fault, or a loop that has outlived its fuel. Which of these can occur
is what a model built on procedures says; no rule below tells them apart. -/
inductive Outcome (σ α : Type) where
  | done (value : α) (state : σ)
  | cut (state : σ)

def Outcome.state {σ α : Type} : Outcome σ α → σ
  | .done _ s => s
  | .cut s => s

/-- A deterministic procedure over states of type `σ`. -/
def Proc (σ α : Type) := σ → Outcome σ α

instance {σ : Type} : Monad (Proc σ) where
  pure a := fun s => .done a s
  bind p f := fun s => match p s with
    | .done a s' => f a s'
    | .cut s' => .cut s'

private theorem map_id {σ α : Type} (p : Proc σ α) : id <$> p = p := by
  funext s
  change (match p s with | .done a s' => Outcome.done a s' | .cut s' => .cut s') = p s
  cases p s <;> rfl

private theorem bind_assoc_apply {σ α β γ : Type} (p : Proc σ α) (f : α → Proc σ β)
    (g : β → Proc σ γ) : p >>= f >>= g = p >>= fun a => f a >>= g := by
  funext s
  change (match (match p s with | .done a s' => f a s' | .cut s' => .cut s') with
    | .done b s' => g b s'
    | .cut s' => .cut s') = match p s with
    | .done a s' => (f a >>= g) s'
    | .cut s' => .cut s'
  cases p s <;> rfl

instance {σ : Type} : LawfulMonad (Proc σ) :=
  LawfulMonad.mk' (Proc σ) map_id (fun _ _ => rfl) bind_assoc_apply

section Procedures

variable {σ α β : Type}

def Proc.get : Proc σ σ := fun s => .done s s
def Proc.modify (f : σ → σ) : Proc σ Unit := fun s => .done () (f s)

@[simp] theorem pure_apply (a : α) (s : σ) : (pure a : Proc σ α) s = .done a s := rfl

theorem bind_apply (p : Proc σ α) (f : α → Proc σ β) (s : σ) :
    (p >>= f) s = match p s with
      | .done a s' => f a s'
      | .cut s' => .cut s' := rfl

theorem bind_done {p : Proc σ α} {f : α → Proc σ β} {s s' : σ} {a : α}
    (first : p s = .done a s') : (p >>= f) s = f a s' := by
  rw [bind_apply, first]

@[simp] theorem get_bind (f : σ → Proc σ β) (s : σ) : (Proc.get >>= f) s = f s s := rfl

@[simp] theorem modify_bind (g : σ → σ) (f : Unit → Proc σ β) (s : σ) :
    (Proc.modify g >>= f) s = f () (g s) := rfl

/-- At most `n` further turns of a loop whose index is now `i`; a turn that yields a
value leaves the loop with it. -/
def loopFrom (body : Nat → Proc σ (Option β)) : Nat → Nat → Proc σ (Option β)
  | 0, _ => pure none
  | n + 1, i => do
      match ← body i with
      | some b => pure (some b)
      | none => loopFrom body n (i + 1)

/-- `for (i = 0; i < n; i++)` with an early return out of the body. -/
def forLoop (n : Nat) (body : Nat → Proc σ (Option β)) : Proc σ (Option β) :=
  loopFrom body n 0

/-- A loop over local variables: a turn goes on with new ones or leaves with a value. A
loop that outlives its fuel never leaves. -/
def loopWith {ι : Type} (turn : ι → Proc σ (ι ⊕ α)) : Nat → ι → Proc σ α
  | 0, _ => fun s => .cut s
  | fuel + 1, i => do
      match ← turn i with
      | .inl next => loopWith turn fuel next
      | .inr a => pure a

theorem loopWith_next {ι : Type} {turn : ι → Proc σ (ι ⊕ α)} {i next : ι} {s t : σ}
    (goesOn : turn i s = .done (.inl next) t) (fuel : Nat) :
    loopWith turn (fuel + 1) i s = loopWith turn fuel next t :=
  bind_done goesOn

theorem loopWith_leave {ι : Type} {turn : ι → Proc σ (ι ⊕ α)} {i : ι} {s t : σ} {a : α}
    (leaves : turn i s = .done (.inr a) t) (fuel : Nat) :
    loopWith turn (fuel + 1) i s = .done a t :=
  bind_done leaves

/-- A relation that the last turn meets and every turn before it carries over holds between
the start and the end of a loop that returns. -/
theorem loopWith_run {ι : Type} {turn : ι → Proc σ (ι ⊕ α)} {R : ι → σ → α → σ → Prop}
    (last : ∀ {i s a t}, turn i s = .done (.inr a) t → R i s a t)
    (more : ∀ {i s j u a t}, turn i s = .done (.inl j) u → R j u a t → R i s a t)
    {fuel : Nat} {i : ι} {s t : σ} {a : α} (run : loopWith turn fuel i s = .done a t) :
    R i s a t := by
  induction fuel generalizing i s with
  | zero => cases run
  | succ fuel ih =>
    rw [loopWith, bind_apply] at run
    cases first : turn i s with
    | cut u =>
      rw [first] at run
      cases run
    | done next u =>
      rw [first] at run
      cases next with
      | inl j => exact more first (ih run)
      | inr b =>
        obtain ⟨rfl, rfl⟩ := Outcome.done.inj run
        exact last first

end Procedures

section Conditions

variable {σ α β : Type}

/-- The postcondition `Q` of a return, or the condition `C` of a cut-off. -/
def Outcome.Sat (Q : α → σ → Prop) (C : σ → Prop) : Outcome σ α → Prop
  | .done a s => Q a s
  | .cut s => C s

theorem Outcome.Sat.mono {Q Q' : α → σ → Prop} {C C' : σ → Prop} {o : Outcome σ α}
    (h : o.Sat Q C) (post : ∀ a s, Q a s → Q' a s) (lost : ∀ s, C s → C' s) :
    o.Sat Q' C' := by
  cases o with
  | done a s => exact post a s h
  | cut s => exact lost s h

theorem Outcome.Sat.and {Q Q' : α → σ → Prop} {C C' : σ → Prop} {o : Outcome σ α}
    (h : o.Sat Q C) (h' : o.Sat Q' C') : o.Sat (fun a s => Q a s ∧ Q' a s) fun s => C s ∧ C' s := by
  cases o with
  | done a s => exact ⟨h, h'⟩
  | cut s => exact ⟨h, h'⟩

/-- A condition on neither the value nor the state. -/
theorem Outcome.Sat.const {P : Prop} (h : P) (o : Outcome σ α) :
    o.Sat (fun _ _ => P) fun _ => True := by
  cases o with
  | done a s => exact h
  | cut s => trivial

/-- A condition owed at a return and at a cut alike holds where the procedure stops. -/
theorem Outcome.Sat.stopped {P : σ → Prop} {o : Outcome σ α} (h : o.Sat (fun _ s => P s) P) :
    P o.state := by
  cases o with
  | done a s => exact h
  | cut s => exact h

/-- Where no cut is possible, the postcondition holds where the procedure stops. -/
theorem Outcome.Sat.returned {P C : σ → Prop} {o : Outcome σ α} (h : o.Sat (fun _ s => P s) C)
    (never : ∀ s, ¬C s) : P o.state :=
  (h.mono (fun _ _ post => post) fun s lost => absurd lost (never s)).stopped

/-- Where no cut is possible, the procedure returns. -/
theorem Outcome.Sat.returns {Q : α → σ → Prop} {o : Outcome σ α} (h : o.Sat Q fun _ => False) :
    ∃ a s, o = .done a s ∧ Q a s := by
  cases o with
  | done a s => exact ⟨a, s, rfl, h⟩
  | cut s => exact h.elim

/-- From every state of `P`, the procedure returns in `Q` or is cut off in `C`. -/
def Triple (P : σ → Prop) (p : Proc σ α) (Q : α → σ → Prop) (C : σ → Prop) : Prop :=
  ∀ s, P s → (p s).Sat Q C

variable {P P' : σ → Prop} {Q Q' : α → σ → Prop} {C C' : σ → Prop}

theorem Triple.mono {p : Proc σ α} (h : Triple P p Q C) (post : ∀ a s, Q a s → Q' a s)
    (lost : ∀ s, C s → C' s) : Triple P p Q' C' :=
  fun s hs => (h s hs).mono post lost

theorem Triple.bind {R : α → σ → Prop} {Q : β → σ → Prop} {p : Proc σ α}
    {f : α → Proc σ β} (first : Triple P p R C) (next : ∀ a, Triple (R a) (f a) Q C) :
    Triple P (p >>= f) Q C := by
  intro s hs
  have h := first s hs
  rw [bind_apply]
  cases hp : p s with
  | done a s' =>
    rw [hp] at h
    exact next a s' h
  | cut s' =>
    rw [hp] at h
    exact h

theorem Triple.pure {a : α} (h : ∀ s, P s → Q a s) : Triple P (Pure.pure a) Q C :=
  fun s hs => h s hs

theorem Triple.modify {Q : Unit → σ → Prop} {f : σ → σ} (h : ∀ s, P s → Q () (f s)) :
    Triple P (Proc.modify f) Q C :=
  fun s hs => h s hs

/-- Returning something else keeps what is known of the state. -/
theorem Outcome.Sat.thenReturn {Q : σ → Prop} {p : Proc σ α} {s : σ} (f : α → β)
    (h : (p s).Sat (fun _ t => Q t) C) :
    ((do
      let a ← p
      return f a) s).Sat (fun _ t => Q t) C := by
  rw [bind_apply]
  cases run : p s with
  | done a t =>
    rw [run] at h
    exact h
  | cut t =>
    rw [run] at h
    exact h

/-- What one turn owes: the invariant of the next index, or the postcondition of an
early return. -/
def Turn (next : σ → Prop) (Q : Option β → σ → Prop) : Option β → σ → Prop
  | none, s => next s
  | some b, s => Q (some b) s

private theorem Triple.loopFrom {I : Nat → σ → Prop} {Q : Option β → σ → Prop}
    {body : Nat → Proc σ (Option β)} {total : Nat}
    (turn : ∀ i < total, Triple (I i) (body i) (Turn (I (i + 1)) Q) C)
    (leave : ∀ s, I total s → Q none s) (n i : Nat) (count : i + n = total) :
    Triple (I i) (PowerLogic.loopFrom body n i) Q C := by
  induction n generalizing i with
  | zero =>
    obtain rfl : i = total := by omega
    exact Triple.pure leave
  | succ n ih =>
    refine Triple.bind (turn i (by omega)) ?_
    intro r
    cases r with
    | some b => exact Triple.pure fun s hs => hs
    | none => exact ih (i + 1) (by omega)

/-- The loop rule: an indexed invariant that every turn carries on. -/
theorem Triple.forLoop {I : Nat → σ → Prop} {Q : Option β → σ → Prop}
    {body : Nat → Proc σ (Option β)} {total : Nat}
    (turn : ∀ i < total, Triple (I i) (body i) (Turn (I (i + 1)) Q) C)
    (leave : ∀ s, I total s → Q none s) : Triple (I 0) (PowerLogic.forLoop total body) Q C :=
  Triple.loopFrom turn leave total 0 (by omega)

private theorem loopFrom_done {body : Nat → Proc σ (Option β)} {trace : Nat → σ} {total : Nat}
    (turn : ∀ i < total, body i (trace i) = .done none (trace (i + 1)))
    (n i : Nat) (count : i + n = total) :
    loopFrom body n i (trace i) = .done none (trace total) := by
  induction n generalizing i with
  | zero =>
    obtain rfl : i = total := by omega
    rfl
  | succ n ih =>
    rw [loopFrom, bind_done (turn i (by omega))]
    exact ih (i + 1) (by omega)

/-- A loop whose every turn is known runs through. -/
theorem forLoop_done {body : Nat → Proc σ (Option β)} (trace : Nat → σ) {total : Nat}
    (turn : ∀ i < total, body i (trace i) = .done none (trace (i + 1))) :
    forLoop total body (trace 0) = .done none (trace total) :=
  loopFrom_done turn total 0 (by omega)

/-- What a turn of a loop over local variables owes. -/
def Next {ι : Type} (I : ι → σ → Prop) (Q : α → σ → Prop) : ι ⊕ α → σ → Prop
  | .inl i, s => I i s
  | .inr a, s => Q a s

/-- The rule of a loop over local variables. -/
theorem Triple.loopWith {ι : Type} {I : ι → σ → Prop} {Q : α → σ → Prop}
    {body : ι → Proc σ (ι ⊕ α)} (turn : ∀ i, Triple (I i) (body i) (Next I Q) C)
    (running : ∀ i s, I i s → C s) (fuel : Nat) (i : ι) :
    Triple (I i) (PowerLogic.loopWith body fuel i) Q C := by
  induction fuel generalizing i with
  | zero => exact running i
  | succ fuel ih =>
    apply Triple.bind (turn i)
    intro r
    cases r with
    | inl next => exact ih next
    | inr a => exact Triple.pure fun s hs => hs

end Conditions

end BmsFirmware.Library.PowerLogic
