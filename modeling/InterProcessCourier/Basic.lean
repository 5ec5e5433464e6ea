import InterProcessCourier.Interaction.Triple
import Mathlib.Algebra.Order.Ring.Nat
import Mathlib.Data.List.AList

/-!
# Strings, errors and exceptions

The vocabulary every function of the library shares.

A `std::string` is a list of bytes, whatever it holds: a serialized message, a type name or the
text of an error. A `std::expected<T, Error<E>>` is an `Except (Error E) T`, and an exception is a
value of `Exception`, whose constructors are the distinctions that the library's catch clauses
make.

Undefined behaviour is a constructor of `Exception` too, and no catch clause matches it: a program
that reaches it is not continued. It is how an out-of-bounds `memcpy` and a downcast to the wrong
type show up in this development.
-/

namespace InterProcessCourier

open Interaction

/-- A `std::string`, or a `std::vector<char>`. -/
abbrev Bytes := List UInt8

/-- A string literal of the source. -/
def str (s : String) : Bytes := s.toUTF8.data.toList

/-- `std::unordered_map<std::string, β>`. The order of the entries is one of those that the
container may iterate in. -/
abbrev UnorderedMap (β : Type) := AList fun _ : Bytes => β

/-- `Error<ErrorType>`. -/
structure Error (ErrorType : Type) where
  /-- The category of the error. -/
  type : ErrorType
  /-- Its description, empty when none was given. -/
  message : Bytes := []
  deriving DecidableEq

/-- `std::formatter<Error<ErrorType>>`, over the formatter of the category. -/
def Error.format {ErrorType : Type} (formatType : ErrorType → Bytes) (error : Error ErrorType) :
    Bytes :=
  if error.message.isEmpty then str "Error: Type " ++ formatType error.type
  else str "Error: Type " ++ formatType error.type ++ str ", Message: \"" ++ error.message ++
    str "\""

/-- What a failing system call leaves in `errno`. -/
inductive Errno
  | badDescriptor
  | brokenPipe
  | alreadyConnected
  | connectionRefused
  | other (value : ℕ)
  deriving DecidableEq

/-- `boost::system::error_code`. The end of a stream is not a failure of a system call, and has a
code of its own. -/
inductive ErrorCode
  | eof
  | system (errno : Errno)
  deriving DecidableEq

/-- What can be thrown. -/
inductive Exception
  /-- `boost::system::system_error`. -/
  | systemError (code : ErrorCode) (what : Bytes)
  | runtimeError (what : Bytes)
  | invalidArgument (what : Bytes)
  /-- Any other class derived from `std::exception`. -/
  | stdException (what : Bytes)
  /-- A value of a type not derived from `std::exception`. -/
  | foreign
  | undefinedBehaviour
  deriving DecidableEq

/-- `what()`, for a class derived from `std::exception`. -/
def Exception.what? : Exception → Option Bytes
  | systemError _ what => some what
  | runtimeError what => some what
  | invalidArgument what => some what
  | stdException what => some what
  | foreign => none
  | undefinedBehaviour => none

/-- What a `catch (const boost::system::system_error& e)` binds. -/
def Exception.systemError? : Exception → Option (ErrorCode × Bytes)
  | systemError code what => some (code, what)
  | _ => none

/-! ### Member functions -/

/-- A function that changes an object of type `σ` and may throw: it takes the object, and gives
back the result, or the exception, together with the object. -/
abbrev Method (σ α : Type) := σ → Except Exception α × σ

section Method

variable {σ α : Type}

/-- Calls one after another, by a caller that goes on after an exception. -/
def callAll : List (Method σ α) → σ → List (Except Exception α) × σ
  | [], s => ([], s)
  | m :: ms, s => ((m s).1 :: (callAll ms (m s).2).1, (callAll ms (m s).2).2)

@[simp] theorem callAll_nil (s : σ) : callAll ([] : List (Method σ α)) s = ([], s) := rfl

theorem callAll_append (ms ns : List (Method σ α)) (s : σ) :
    callAll (ms ++ ns) s = ((callAll ms s).1 ++ (callAll ns (callAll ms s).2).1,
      (callAll ns (callAll ms s).2).2) := by
  induction ms generalizing s with
  | nil => rfl
  | cons m ms ih => simp [callAll, ih]

theorem length_callAll (ms : List (Method σ α)) (s : σ) : (callAll ms s).1.length = ms.length := by
  induction ms generalizing s with
  | nil => rfl
  | cons m ms ih => simp [callAll, ih]

/-- The results of calls in two parts. -/
theorem callAll_append_eq {ms ns : List (Method σ α)} {rs qs : List (Except Exception α)} {s s' : σ}
    (h : callAll (ms ++ ns) s = (rs ++ qs, s')) (hlength : rs.length = ms.length) :
    ∃ s₁, callAll ms s = (rs, s₁) ∧ callAll ns s₁ = (qs, s') := by
  rw [callAll_append] at h
  obtain ⟨hresults, hstate⟩ := Prod.mk.inj h
  obtain ⟨hrs, hqs⟩ := List.append_inj hresults (by rw [length_callAll, hlength])
  exact ⟨(callAll ms s).2, Prod.ext hrs rfl, Prod.ext hqs hstate⟩

theorem callAll_concat (ms : List (Method σ α)) (m : Method σ α) (s : σ) :
    callAll (ms ++ [m]) s = ((callAll ms s).1 ++ [(m (callAll ms s).2).1],
      (m (callAll ms s).2).2) := by
  simp [callAll_append, callAll]

end Method

/-! ### Catch clauses -/

section Catch

variable {S : Signature} {α : Type}

/-- `try { … } catch (const std::exception& e) { … }`. -/
def catchStdException (p : Program S Exception α) (handler : Bytes → Program S Exception α) :
    Program S Exception α :=
  tryCatch p fun e =>
    match e.what? with
    | some what => handler what
    | none => throw e

/-- `try { … } catch (const boost::system::system_error& e) { … }`. -/
def catchSystemError (p : Program S Exception α)
    (handler : ErrorCode → Bytes → Program S Exception α) : Program S Exception α :=
  tryCatch p fun e =>
    match e.systemError? with
    | some (code, what) => handler code what
    | none => throw e

theorem asks_catchStdException {P : S.Op → Prop} {p : Program S Exception α} (h : p.Asks P)
    {handler : Bytes → Program S Exception α} (hhandler : ∀ what, (handler what).Asks P) :
    (catchStdException p handler).Asks P :=
  h.handle fun e => by
    cases e.what? with
    | some what => exact hhandler what
    | none => trivial

theorem returns_catchStdException {Q : α → Prop} {p : Program S Exception α} (h : p.Returns Q)
    {handler : Bytes → Program S Exception α} (hhandler : ∀ what, (handler what).Returns Q) :
    (catchStdException p handler).Returns Q :=
  h.handle fun e => by
    cases e.what? with
    | some what => exact hhandler what
    | none => trivial

theorem asks_catchSystemError {P : S.Op → Prop} {p : Program S Exception α} (h : p.Asks P)
    {handler : ErrorCode → Bytes → Program S Exception α}
    (hhandler : ∀ code what, (handler code what).Asks P) :
    (catchSystemError p handler).Asks P :=
  h.handle fun e => by
    cases e.systemError? with
    | some caught => exact hhandler caught.1 caught.2
    | none => trivial

theorem returns_catchSystemError {Q : α → Prop} {p : Program S Exception α} (h : p.Returns Q)
    {handler : ErrorCode → Bytes → Program S Exception α}
    (hhandler : ∀ code what, (handler code what).Returns Q) :
    (catchSystemError p handler).Returns Q :=
  h.handle fun e => by
    cases e.systemError? with
    | some caught => exact hhandler caught.1 caught.2
    | none => trivial

variable {W C A V : Type} {K : Kernel S Exception W C A} {R : Rely S W} {view : W → V}
  {P : V → Prop} {p : Program S Exception α} {ok : α → V → Prop} {E err : Exception → V → Prop}

theorem triple_catchStdException (hV : R.Owns K view) {handler : Bytes → Program S Exception α}
    (h : Triple K R view P p ok E)
    (hcaught : ∀ e what, e.what? = some what → Triple K R view (E e) (handler what) ok err)
    (hpassed : ∀ e, e.what? = none → ∀ v, E e v → err e v) :
    Triple K R view P (catchStdException p handler) ok err := by
  refine h.handle hV fun e => ?_
  cases hw : e.what? with
  | some what => exact hcaught e what hw
  | none => exact Triple.raise hV (hpassed e hw)

theorem triple_catchSystemError (hV : R.Owns K view)
    {handler : ErrorCode → Bytes → Program S Exception α} (h : Triple K R view P p ok E)
    (hcaught : ∀ code what,
      Triple K R view (E (.systemError code what)) (handler code what) ok err)
    (hpassed : ∀ e, e.systemError? = none → ∀ v, E e v → err e v) :
    Triple K R view P (catchSystemError p handler) ok err := by
  refine h.handle hV fun e => ?_
  cases e with
  | systemError code what => exact hcaught code what
  | runtimeError what => exact Triple.raise hV (hpassed _ rfl)
  | invalidArgument what => exact Triple.raise hV (hpassed _ rfl)
  | stdException what => exact Triple.raise hV (hpassed _ rfl)
  | foreign => exact Triple.raise hV (hpassed _ rfl)
  | undefinedBehaviour => exact Triple.raise hV (hpassed _ rfl)

end Catch

end InterProcessCourier
