import Mathlib.Tactic.Common
import Mathlib.Data.List.Basic

/-!
# Coroutines over awaited calls

A `Coroutine` is the code of one task of an event loop. Between two awaits it reads and
writes the state `σ` that it shares with the other tasks; an await hands a call `c` to the
outside world and continues with the reply, a value of type `V c` or an exception. The code
ends by returning a value or by letting an exception escape.

The world is an `Oracle`: the reply to a call may depend on everything that happened before.
`exec` runs a coroutine against an oracle and keeps the history of answered calls.
-/

inductive Coroutine (σ ε C : Type) (V : C → Type) (α : Type) where
  | ret (a : α)
  | raise (e : ε)
  | get (next : σ → Coroutine σ ε C V α)
  | put (s : σ) (next : Coroutine σ ε C V α)
  | await (c : C) (next : Except ε (V c) → Coroutine σ ε C V α)

/-- An answered call. -/
structure Event (ε C : Type) (V : C → Type) where
  call : C
  reply : Except ε (V call)

abbrev History (ε C : Type) (V : C → Type) := List (Event ε C V)

abbrev Oracle (ε C : Type) (V : C → Type) :=
  History ε C V → (c : C) → Except ε (V c)

namespace Coroutine
variable {σ ε C : Type} {V : C → Type} {α β γ : Type}

protected def bind (p : Coroutine σ ε C V α) (f : α → Coroutine σ ε C V β) : Coroutine σ ε C V β :=
  match p with
  | .ret a => f a
  | .raise e => .raise e
  | .get next => .get (fun s => (next s).bind f)
  | .put s next => .put s (next.bind f)
  | .await c next => .await c (fun r => (next r).bind f)

def handle (p : Coroutine σ ε C V α) (f : ε → Coroutine σ ε C V α) : Coroutine σ ε C V α :=
  match p with
  | .ret a => .ret a
  | .raise e => f e
  | .get next => .get (fun s => handle (next s) f)
  | .put s next => .put s (handle next f)
  | .await c next => .await c (fun r => handle (next r) f)

instance : Monad (Coroutine σ ε C V) where
  pure := .ret
  bind := Coroutine.bind

protected theorem bind_ret (p : Coroutine σ ε C V α) : p.bind .ret = p := by
  induction p with
  | ret a => rfl
  | raise e => rfl
  | get next ih => exact congrArg Coroutine.get (funext ih)
  | put s next ih => exact congrArg (Coroutine.put s) ih
  | await c next ih => exact congrArg (Coroutine.await c) (funext ih)

protected theorem bind_assoc (p : Coroutine σ ε C V α) (f : α → Coroutine σ ε C V β)
    (g : β → Coroutine σ ε C V γ) : (p.bind f).bind g = p.bind fun a => (f a).bind g := by
  induction p with
  | ret a => rfl
  | raise e => rfl
  | get next ih => exact congrArg Coroutine.get (funext ih)
  | put s next ih => exact congrArg (Coroutine.put s) ih
  | await c next ih => exact congrArg (Coroutine.await c) (funext ih)

instance : LawfulMonad (Coroutine σ ε C V) :=
  .mk' _ Coroutine.bind_ret (fun _ _ => rfl) Coroutine.bind_assoc

instance : MonadExceptOf ε (Coroutine σ ε C V) where
  throw := .raise
  tryCatch := handle

/-- The shared state as it is now. -/
def read : Coroutine σ ε C V σ := .get .ret

def modify (f : σ → σ) : Coroutine σ ε C V Unit := .get (fun s => .put (f s) (.ret ()))

/-- Await the reply to a call and raise it when it is an exception. -/
def perform (c : C) : Coroutine σ ε C V (V c) :=
  .await c ofExcept

abbrev Outcome (σ ε C : Type) (V : C → Type) (α : Type) := Except ε α × σ × History ε C V

def exec (O : Oracle ε C V) : Coroutine σ ε C V α → σ → History ε C V → Outcome σ ε C V α
  | .ret a, s, h => (.ok a, s, h)
  | .raise e, s, h => (.error e, s, h)
  | .get next, s, h => exec O (next s) s h
  | .put s next, _, h => exec O next s h
  | .await c next, s, h => exec O (next (O h c)) s (h ++ [⟨c, O h c⟩])

def run (O : Oracle ε C V) (p : Coroutine σ ε C V α) (s : σ) : Outcome σ ε C V α :=
  exec O p s []

end Coroutine
