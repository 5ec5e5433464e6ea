import Mathlib.Control.Monad.Basic
import Mathlib.Logic.Basic

/-!
# Programs over operations

A blocking program is a tree. It returns, or it raises, or it asks its surroundings for one
operation and continues with the answer. Nothing in the tree says how an operation is carried
out, so the same program can be run alone against a closed stream, stepped against other threads,
or reasoned about with every answer its surroundings might give.

An operation is answered by a value or by an exception, as a system call is, and the continuation
receives either. `tryCatch` is therefore a plain recursion on the tree.

## Main definitions

* `Interaction.Signature` — the operations, and the type of the answer to each
* `Interaction.Program` — a finite-depth tree of operations
* `Interaction.Program.perform` — one operation, its exception re-raised
-/

namespace Interaction

/-- The operations a program may ask for, and the type of the answer to each. -/
structure Signature where
  /-- The operations. -/
  Op : Type
  /-- What an operation answers with when it does not raise. -/
  Ans : Op → Type

/-- A program over the operations of `S` that returns an `α` or raises an `ε`. -/
inductive Program (S : Signature) (ε α : Type) : Type
  | ret (a : α)
  | raise (e : ε)
  | call (op : S.Op) (k : Except ε (S.Ans op) → Program S ε α)

namespace Program

variable {S : Signature} {ε α β γ : Type}

/-- Sequencing. An exception skips the rest. -/
def bind : Program S ε α → (α → Program S ε β) → Program S ε β
  | ret a, f => f a
  | raise e, _ => raise e
  | call op k, f => call op fun r => (k r).bind f

/-- Handling. A value skips the handler. -/
def handle : Program S ε α → (ε → Program S ε α) → Program S ε α
  | ret a, _ => ret a
  | raise e, h => h e
  | call op k, h => call op fun r => (k r).handle h

instance : Monad (Program S ε) where
  pure := ret
  bind := bind

instance : MonadExceptOf ε (Program S ε) where
  throw := raise
  tryCatch := handle

/-- Ask for one operation, and raise what it raises. -/
def perform (op : S.Op) : Program S ε (S.Ans op) :=
  call op fun
    | .ok a => ret a
    | .error e => raise e

/-- A computation that asks for nothing. -/
def ofExcept : Except ε α → Program S ε α
  | .ok a => ret a
  | .error e => raise e

@[simp] theorem pure_eq (a : α) : (pure a : Program S ε α) = ret a := rfl

@[simp] theorem throw_eq (e : ε) : (throw e : Program S ε α) = raise e := rfl

@[simp] theorem ret_bind (a : α) (f : α → Program S ε β) : ret a >>= f = f a := rfl

@[simp] theorem raise_bind (e : ε) (f : α → Program S ε β) : raise e >>= f = raise e := rfl

@[simp] theorem call_bind (op : S.Op) (k : Except ε (S.Ans op) → Program S ε α)
    (f : α → Program S ε β) : call op k >>= f = call op fun r => k r >>= f := rfl

@[simp] theorem ofExcept_ok (a : α) : (ofExcept (.ok a) : Program S ε α) = ret a := rfl

@[simp] theorem ofExcept_error (e : ε) : (ofExcept (.error e) : Program S ε α) = raise e := rfl

theorem bind_assoc (p : Program S ε α) (f : α → Program S ε β) (g : β → Program S ε γ) :
    p >>= f >>= g = p >>= fun a => f a >>= g := by
  induction p with
  | ret a => rfl
  | raise e => rfl
  | call op k ih =>
    simp only [call_bind]
    congr 1
    funext r
    exact ih r

/-- The value or exception of a program that has nothing left to ask for. -/
def result? : Program S ε α → Option (Except ε α)
  | ret a => some (.ok a)
  | raise e => some (.error e)
  | call _ _ => none

@[simp] theorem result?_ret (a : α) : (ret a : Program S ε α).result? = some (.ok a) := rfl

@[simp] theorem result?_raise (e : ε) : (raise e : Program S ε α).result? = some (.error e) := rfl

@[simp] theorem result?_call (op : S.Op) (k : Except ε (S.Ans op) → Program S ε α) :
    (call op k).result? = none := rfl

theorem result?_eq_error {p : Program S ε α} {e : ε} :
    p.result? = some (.error e) ↔ p = raise e := by
  cases p <;> simp

/-- What is known of the value of a program that has returned. -/
theorem exists_ret_of_map {p : Program S ε α} {f : α → β} {b : β}
    (h : p.result?.map (fun r => r.map f) = some (.ok b)) : ∃ a, p = ret a ∧ f a = b := by
  cases p with
  | ret a => exact ⟨a, rfl, Except.ok.inj (Option.some.inj h)⟩
  | raise e => cases Option.some.inj h
  | call op k => cases h

/-! ### The operations of a program -/

/-- Every operation the program may ask for satisfies `P`. -/
def Asks (P : S.Op → Prop) : Program S ε α → Prop
  | ret _ => True
  | raise _ => True
  | call op k => P op ∧ ∀ r, (k r).Asks P

variable {P : S.Op → Prop}

theorem Asks.mono {Q : S.Op → Prop} {p : Program S ε α} (h : p.Asks P) (hPQ : ∀ op, P op → Q op) :
    p.Asks Q := by
  induction p with
  | ret a => trivial
  | raise e => trivial
  | call op k ih => exact ⟨hPQ op h.1, fun r => ih r (h.2 r)⟩

theorem Asks.bind {p : Program S ε α} (h : p.Asks P) {f : α → Program S ε β}
    (hf : ∀ a, (f a).Asks P) : (p >>= f).Asks P := by
  induction p with
  | ret a => exact hf a
  | raise e => trivial
  | call op k ih => exact ⟨h.1, fun r => ih r (h.2 r)⟩

theorem Asks.handle {p : Program S ε α} (h : p.Asks P) {f : ε → Program S ε α}
    (hf : ∀ e, (f e).Asks P) : (tryCatch p f : Program S ε α).Asks P := by
  induction p with
  | ret a => trivial
  | raise e => exact hf e
  | call op k ih => exact ⟨h.1, fun r => ih r (h.2 r)⟩

theorem asks_perform {op : S.Op} (h : P op) : (perform op : Program S ε (S.Ans op)).Asks P :=
  ⟨h, fun r => by cases r <;> trivial⟩

theorem asks_ofExcept (x : Except ε α) : (ofExcept x : Program S ε α).Asks P := by
  cases x <;> trivial

/-! ### The values of a program -/

/-- Every value the program may return satisfies `Q`. -/
def Returns (Q : α → Prop) : Program S ε α → Prop
  | ret a => Q a
  | raise _ => True
  | call _ k => ∀ r, (k r).Returns Q

variable {Q : α → Prop}

theorem returns_true (p : Program S ε α) : p.Returns fun _ => True := by
  induction p with
  | ret a => trivial
  | raise e => trivial
  | call op k ih => exact ih

theorem Returns.bind {p : Program S ε α} (h : p.Returns Q) {R : β → Prop}
    {f : α → Program S ε β} (hf : ∀ a, Q a → (f a).Returns R) : (p >>= f).Returns R := by
  induction p with
  | ret a => exact hf a h
  | raise e => trivial
  | call op k ih => exact fun r => ih r (h r)

theorem Returns.handle {p : Program S ε α} (h : p.Returns Q) {f : ε → Program S ε α}
    (hf : ∀ e, (f e).Returns Q) : (tryCatch p f : Program S ε α).Returns Q := by
  induction p with
  | ret a => exact h
  | raise e => exact hf e
  | call op k ih => exact fun r => ih r (h r)

/-- What follows a program only matters on the values it may return. -/
theorem Returns.bind_congr {p : Program S ε α} (h : p.Returns Q) {f g : α → Program S ε β}
    (hfg : ∀ a, Q a → f a = g a) : p >>= f = p >>= g := by
  induction p with
  | ret a => exact hfg a h
  | raise e => rfl
  | call op k ih =>
    simp only [call_bind]
    congr 1
    funext r
    exact ih r (h r)

end Program

end Interaction
