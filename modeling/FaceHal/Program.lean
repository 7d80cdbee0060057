import Mathlib.Logic.Basic

/-!
# Programs that call an interface

A program is a finite tree of calls: it either returns a value or issues one
call and continues with the reply. The tree fixes which calls the code makes and
in which order; what a call does is left to an environment, a relation between
the state before the call, the reply and the state after it. One program is
therefore run under a faultless environment, under one whose calls may fail, or
only up to the point where the process is killed, without being written twice.

Every tree is well founded, so a program returns after finitely many calls
whenever each of its calls is answered.
-/
namespace FaceHal

/-- The calls a program may issue and the type of the reply to each. -/
structure Interface where
  Call : Type
  Reply : Call → Type

inductive Program (I : Interface) (α : Type) : Type where
  | done (a : α) : Program I α
  | call (c : I.Call) (next : I.Reply c → Program I α) : Program I α

namespace Program
variable {I J : Interface} {α β γ σ : Type}

def bind : Program I α → (α → Program I β) → Program I β
  | .done a, f => f a
  | .call c next, f => .call c fun r => (next r).bind f

/-- The program that issues one call and returns its reply. -/
def perform (c : I.Call) : Program I (I.Reply c) := .call c .done

instance : Monad (Program I) where
  pure := .done
  bind := bind

@[simp] theorem pure_eq (a : α) : (pure a : Program I α) = .done a := rfl

@[simp] theorem done_bind (a : α) (f : α → Program I β) : (.done a : Program I α) >>= f = f a := rfl

@[simp] theorem call_bind (c : I.Call) (next : I.Reply c → Program I α) (f : α → Program I β) :
    (.call c next : Program I α) >>= f = .call c fun r => next r >>= f := rfl

@[simp] theorem perform_bind (c : I.Call) (f : I.Reply c → Program I β) :
    perform c >>= f = .call c f := rfl

theorem bind_done (p : Program I α) : p >>= .done = p := by
  induction p with
  | done a => rfl
  | call c next ih => simp only [call_bind, ih]

@[simp] theorem bind_assoc (p : Program I α) (f : α → Program I β) (g : β → Program I γ) :
    p >>= f >>= g = p >>= fun a => f a >>= g := by
  induction p with
  | done a => rfl
  | call c next ih => simp only [call_bind, ih]

instance : LawfulMonad (Program I) :=
  LawfulMonad.mk' _ (fun p => bind_done p) (fun _ _ => rfl) bind_assoc

/-- Deterministic execution: the handler answers each call from the state. -/
def eval (handler : (c : I.Call) → σ → I.Reply c × σ) : Program I α → σ → α × σ
  | .done a, s => (a, s)
  | .call c next, s => (next (handler c s).1).eval handler (handler c s).2

/-- Replace every call by a program over another interface. -/
def expand (body : (c : I.Call) → Program J (I.Reply c)) : Program I α → Program J α
  | .done a => .done a
  | .call c next => body c >>= fun r => (next r).expand body

@[simp] theorem expand_bind (body : (c : I.Call) → Program J (I.Reply c))
    (p : Program I α) (f : α → Program I β) :
    (p >>= f).expand body = p.expand body >>= fun a => (f a).expand body := by
  induction p with
  | done a => rfl
  | call c next ih => simp only [call_bind, expand, ih, bind_assoc]

end Program
end FaceHal
