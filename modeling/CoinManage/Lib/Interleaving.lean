import CoinManage.Lib.Method
import Mathlib.Logic.Relation

/-!
# Executions that interleave at their calls

A `Program E ε α` is a piece of asynchronous code: it computes on its own between two calls of
type `E β` to the world outside, each of which answers a `β` or an error.  Executions of programs
run side by side over one world, one call at a time in any order; an execution may stop for good
at any point, and the world may move on its own.

* `Program.bind_assoc`, `Program.perform_bind`   the shape of a sequence of calls;
* `Program.run_bind`, `Program.run_perform`   a program that runs alone is a method;
* `Step admits`    one step of the system, where every call performed meets `admits`;
* `Reachable.invariant`   what every step keeps holds in every state reached.
-/

set_option linter.unusedSectionVars false

inductive Program (E : Type → Type) (ε : Type) (α : Type) : Type 1
  | returns (a : α)
  | throws (e : ε)
  | calls {β : Type} (call : E β) (next : Except ε β → Program E ε α)

namespace Program

section
variable {E : Type → Type} {ε α β γ : Type}

protected def bind : Program E ε α → (α → Program E ε β) → Program E ε β
  | returns a, f => f a
  | throws e, _ => throws e
  | calls call next, f => calls call fun r => (next r).bind f

instance : Monad (Program E ε) where
  pure := returns
  bind := Program.bind

/-- one call; its error is the program's -/
def perform (call : E β) : Program E ε β :=
  calls call fun r => match r with
    | .ok b => returns b
    | .error e => throws e

def throw (e : ε) : Program E ε α := throws e

/-- run `handler` when the program throws, at whatever call that is -/
def tryCatch : Program E ε α → (ε → Program E ε α) → Program E ε α
  | returns a, _ => returns a
  | throws e, handler => handler e
  | calls call next, handler => calls call fun r => (next r).tryCatch handler

@[simp] theorem pure_bind (a : α) (f : α → Program E ε β) :
    (pure a : Program E ε α) >>= f = f a := rfl

@[simp] theorem throw_bind (e : ε) (f : α → Program E ε β) :
    (throw e : Program E ε α) >>= f = throw e := rfl

theorem calls_bind (call : E γ) (next : Except ε γ → Program E ε α) (f : α → Program E ε β) :
    calls call next >>= f = calls call fun r => next r >>= f := rfl

theorem bind_assoc (p : Program E ε α) (f : α → Program E ε β) (g : β → Program E ε γ) :
    p >>= f >>= g = p >>= fun a => f a >>= g := by
  induction p with
  | returns a => rfl
  | throws e => rfl
  | calls call next ih =>
    show calls call (fun r => next r >>= f >>= g) = calls call fun r => next r >>= fun a => f a >>= g
    congr 1
    funext r
    exact ih r

theorem perform_bind (call : E β) (f : β → Program E ε α) :
    perform call >>= f = calls call fun r => match r with
      | .ok b => f b
      | .error e => throws e := by
  show (calls call fun r => _) = _
  congr 1
  funext r
  cases r <;> rfl

/-- the program alone: every call is a method, one after the other -/
def run {S : Type} (op : ∀ {β : Type}, E β → Method S ε β) : Program E ε α → Method S ε α
  | returns a => pure a
  | throws e => Method.ofExcept (.error e)
  | calls call next => fun s => (next (op call s).1).run op (op call s).2

section
variable {S : Type} {op : ∀ {β : Type}, E β → Method S ε β}

theorem run_pure (a : α) : (pure a : Program E ε α).run op = pure a := rfl

theorem run_throw (e : ε) : (throw e : Program E ε α).run op = Method.ofExcept (.error e) := rfl

theorem run_bind (p : Program E ε α) (f : α → Program E ε β) :
    (p >>= f).run op = p.run op >>= fun a => (f a).run op := by
  induction p with
  | returns a => rfl
  | throws e => rfl
  | calls call next ih =>
    funext s
    exact congrFun (ih (op call s).1) (op call s).2

theorem run_perform (call : E β) : (perform call).run op = op call := by
  funext s
  show (match (op call s).1 with | .ok b => returns b | .error e => throws e : Program E ε β).run op
    (op call s).2 = op call s
  rcases op call s with ⟨e | b, s'⟩ <;> rfl

end

end

end Program

namespace Interleaving

section
variable {E : Type → Type} {ε W : Type}

/-- the world and the executions over it, numbered in the order they were started -/
structure System (E : Type → Type) (ε W : Type) : Type 1 where
  world : W
  running : Nat → Option (Program E ε Unit)
  started : Nat

/-- nothing has been started -/
def System.initial (E : Type → Type) (ε : Type) (w : W) : System E ε W := ⟨w, fun _ => none, 0⟩

variable (entry : Program E ε Unit → Prop)
  (handles : Nat → ∀ {β : Type}, E β → W → Except ε β → W → Prop) (moves : W → W → Prop)

/-- One step: an execution of an `entry` program is started, an execution performs its next call,
an execution stops for good, or the world moves on its own. -/
inductive Step (admits : Nat → ∀ {β : Type}, E β → W → Prop) (σ : System E ε W) :
    System E ε W → Prop
  | start (p : Program E ε Unit) (ready : entry p) : Step admits σ
      { σ with
        running := Function.update σ.running σ.started (some p), started := σ.started + 1 }
  | perform {i : Nat} {β : Type} {call : E β} {next : Except ε β → Program E ε Unit}
      {r : Except ε β} {w : W} (running : σ.running i = some (.calls call next))
      (admitted : admits i call σ.world) (handled : handles i call σ.world r w) : Step admits σ
      { σ with world := w, running := Function.update σ.running i (some (next r)) }
  | stop (i : Nat) : Step admits σ { σ with running := Function.update σ.running i none }
  | environment {w : W} (moved : moves σ.world w) : Step admits σ { σ with world := w }

/-- reached by steps all of whose calls meet `admits` -/
def Reachable (admits : Nat → ∀ {β : Type}, E β → W → Prop) (σ σ' : System E ε W) : Prop :=
  Relation.ReflTransGen (Step entry handles moves admits) σ σ'

/-- every call is admitted -/
def always (_ : Nat) {β : Type} (_ : E β) (_ : W) : Prop := True

variable {entry handles moves}
variable {admits : Nat → ∀ {β : Type}, E β → W → Prop}

/-- an execution after one of them was replaced -/
theorem running_update {f : Nat → Option (Program E ε Unit)} {i j : Nat}
    {o : Option (Program E ε Unit)} {p : Program E ε Unit}
    (h : Function.update f i o j = some p) : (j = i ∧ o = some p) ∨ (j ≠ i ∧ f j = some p) := by
  by_cases hj : j = i
  · subst hj
    rw [Function.update_self] at h
    exact Or.inl ⟨rfl, h⟩
  · rw [Function.update_of_ne hj] at h
    exact Or.inr ⟨hj, h⟩

theorem Reachable.invariant {I : System E ε W → Prop}
    (hstep : ∀ σ σ', I σ → Step entry handles moves admits σ σ' → I σ') {σ σ' : System E ε W}
    (h : Reachable entry handles moves admits σ σ') (hσ : I σ) : I σ' := by
  induction h with
  | refl => exact hσ
  | tail _ hs ih => exact hstep _ _ ih hs

end

end Interleaving
