import Mathlib.Logic.Relation

/-!
Cooperative coroutines over an explicit shared state.

A coroutine runs atomically between two suspension points. At an `await` it
hands the shared state to the event loop, which later resumes it with the state
other tasks have left behind and with a result or an exception. This is the
resumption monad; loops of the modelled code are unrolled by a fuel argument of
the caller, so every tree here is well founded.
-/
namespace Asyncio

/-- The exceptions an `except` clause can tell apart: `CancelledError` is not an
`Exception`, every other exception here is one. -/
inductive Exc (ε : Type) where
  | cancelled
  | error (e : ε)
  deriving DecidableEq, Repr

/-- What a coroutine may wait for, what each wait answers, and the values its
ordinary exceptions carry. -/
structure Signature where
  Op : Type
  Res : Op → Type
  Err : Type

abbrev Signature.Reply (S : Signature) (α : Type) : Type := Except (Exc S.Err) α

/-- A coroutine that has ended, or one suspended at an `await`. -/
inductive Susp (S : Signature) (σ α : Type) where
  | done (s : σ) (r : S.Reply α)
  | await (s : σ) (op : S.Op) (k : σ → S.Reply (S.Res op) → Susp S σ α)

def Coro (S : Signature) (σ α : Type) : Type := σ → Susp S σ α

variable {S : Signature} {σ α β : Type}

namespace Susp

def state : Susp S σ α → σ
  | .done s _ => s
  | .await s _ _ => s

/-- How a finished coroutine ended. -/
def result? : Susp S σ α → Option (S.Reply α)
  | .done _ r => some r
  | .await _ _ _ => none

/-- The suspension point a running coroutine waits at. -/
def waitsAt? : Susp S σ α → Option S.Op
  | .done _ _ => none
  | .await _ op _ => some op

/-- Run `f` on the way the coroutine ends, normal or exceptional. -/
def andThen (f : σ → S.Reply α → Susp S σ β) : Susp S σ α → Susp S σ β
  | .done s r => f s r
  | .await s op k => .await s op (fun s' r => (k s' r).andThen f)

end Susp

namespace Coro

def andThen (x : Coro S σ α) (f : S.Reply α → Coro S σ β) : Coro S σ β :=
  fun s => (x s).andThen (fun s' r => f r s')

def ofReply (r : S.Reply α) : Coro S σ α := fun s => .done s r

def raise (e : Exc S.Err) : Coro S σ α := ofReply (.error e)

instance : Monad (Coro S σ) where
  pure a := ofReply (.ok a)
  bind x f := x.andThen fun
    | .ok a => f a
    | .error e => ofReply (.error e)

/-- Read a value off the shared state. -/
def read (f : σ → α) : Coro S σ α := fun s => .done s (.ok (f s))

/-- Update the shared state within the current atomic section. -/
def update (f : σ → σ) : Coro S σ Unit := fun s => .done (f s) (.ok ())

/-- Update the shared state and return a value computed from it. -/
def act (f : σ → α × σ) : Coro S σ α := fun s => .done (f s).2 (.ok (f s).1)

/-- `await op`. -/
def wait (op : S.Op) : Coro S σ (S.Res op) := fun s => .await s op (fun s' r => .done s' r)

/-- `try: x / except CancelledError: h`. -/
def exceptCancelled (x : Coro S σ α) (h : Coro S σ α) : Coro S σ α :=
  x.andThen fun
    | .error .cancelled => h
    | r => ofReply r

/-- `try: x / except Exception as e: h e`. -/
def exceptError (x : Coro S σ α) (h : S.Err → Coro S σ α) : Coro S σ α :=
  x.andThen fun
    | .error (.error e) => h e
    | r => ofReply r

/-- `try: x / finally: y`. An exception of `y` replaces the outcome of `x`. -/
def andFinally (x : Coro S σ α) (y : Coro S σ Unit) : Coro S σ α :=
  x.andThen fun r => y.andThen fun
    | .ok _ => ofReply r
    | .error e => ofReply (.error e)

/-- `with contextlib.suppress(..): x`, the suppressed exceptions given by `p`. -/
def suppress (p : Exc S.Err → Bool) (x : Coro S σ Unit) : Coro S σ Unit :=
  x.andThen fun
    | .error e => if p e then pure () else raise e
    | .ok _ => pure ()

def when (c : Bool) (x : Coro S σ Unit) : Coro S σ Unit := if c then x else pure ()

/-- Run the coroutine on every element, in order. -/
def forEach (f : β → Coro S σ Unit) : List β → Coro S σ Unit
  | [] => pure ()
  | b :: bs => do
      f b
      forEach f bs

end Coro
end Asyncio
