import InterProcessCourier.SyncUnixDomainServer
import Mathlib.Logic.Function.Basic

/-!
# The server among its clients

The world the server's thread runs in, and what each of its operations does there.

What only the server's own operations change is kept apart, in `Own`: the bytes it has read from
and written to each connection, the connections it has accepted, the request handler's invocations
with their results, the failures it has met, the handlers' state and the socket file. The rest is
the clients' doing: what they have sent and the server has not read, who has closed, and who waits
to be accepted.

A client may at any moment connect, send any bytes, or close. The kernel decides, by a `Choice`, how
many bytes an operation moves and whether it fails. Reading waits for bytes, and meets the end of
the stream once the client has closed and everything it sent has been read.
-/

namespace InterProcessCourier

open Interaction

/-- The request handler: `std::function<ProtocolMessage(const ProtocolMessage&)>` over a state. -/
abbrev RequestHandler (σ : Type) := Bytes → Method σ Bytes

/-- One invocation of the request handler. -/
structure Call (σ : Type) where
  client : ℕ
  request : Bytes
  /-- The state it was invoked in. -/
  state : σ
  result : Except Exception Bytes

/-- The operation that failed. -/
inductive Origin
  | listen
  | accept
  | read (client : ℕ)
  | handler (client : ℕ)
  | write (client : ℕ)
  deriving DecidableEq

/-- A failed operation and the exception it raised. -/
structure Fault where
  origin : Origin
  exception : Exception
  deriving DecidableEq

/-- The client in whose session an operation failed. -/
def Origin.client? : Origin → Option ℕ
  | listen => none
  | accept => none
  | read c => some c
  | handler c => some c
  | write c => some c

/-- What asio raises at the end of a stream. -/
def endOfFile : Exception := .systemError .eof (str "End of file")

/-- The failure that ends the session of a client that has closed. -/
def Fault.endOfStream (c : ℕ) : Fault := ⟨.read c, endOfFile⟩

/-! ### The server's share -/

/-- What only the server's operations change. -/
structure Own (σ : Type) where
  /-- The bytes read from each connection. -/
  consumed : ℕ → Bytes := fun _ => []
  /-- The bytes written to each connection. -/
  written : ℕ → Bytes := fun _ => []
  /-- The connections accepted, oldest first. -/
  accepted : List ℕ := []
  /-- The invocations of the request handler, oldest first. -/
  calls : List (Call σ) := []
  /-- The failures met, oldest first. -/
  faults : List Fault := []
  /-- The state of the handlers. -/
  state : σ
  /-- Whether the socket file exists. -/
  path : Bool := true

namespace Own

variable {σ : Type} (o : Own σ) (c d : ℕ)

/-- Bytes arrive from a client. -/
def consume (bs : Bytes) : Own σ :=
  { o with consumed := Function.update o.consumed c (o.consumed c ++ bs) }

/-- Bytes go out to a client. -/
def emit (bs : Bytes) : Own σ :=
  { o with written := Function.update o.written c (o.written c ++ bs) }

/-- An operation fails. -/
def fault (f : Fault) : Own σ := { o with faults := o.faults ++ [f] }

/-- An invocation of the request handler is noted down. -/
def log (request : Bytes) (result : Except Exception Bytes) (state : σ) : Own σ :=
  { o with calls := o.calls ++ [⟨c, request, o.state, result⟩], state }

/-- The request handler runs, and may raise. -/
def call (request : Bytes) (result : Except Exception Bytes) (state : σ) : Own σ :=
  match result with
  | .ok _ => o.log c request result state
  | .error e => (o.log c request result state).fault ⟨.handler c, e⟩

/-- A connection is accepted. -/
def accept : Own σ := { o with accepted := o.accepted ++ [c] }

/-- The socket file is removed. -/
def unlink : Own σ := { o with path := false }

/-- The invocations in the session of a client. -/
def callsOf : List (Call σ) := o.calls.filter fun k => k.client = c

/-- The requests of a client that were handled. -/
def requests : List Bytes := (o.callsOf c).map Call.request

/-- What the request handler returned to a client. -/
def responses : List Bytes := (o.callsOf c).filterMap fun k => k.result.toOption

@[simp] theorem consume_consumed_self (bs : Bytes) :
    (o.consume c bs).consumed c = o.consumed c ++ bs := by simp [consume]

theorem consume_consumed_of_ne (bs : Bytes) (h : d ≠ c) :
    (o.consume c bs).consumed d = o.consumed d := by simp [consume, h]

@[simp] theorem consume_written (bs : Bytes) : (o.consume c bs).written = o.written := rfl

@[simp] theorem consume_accepted (bs : Bytes) : (o.consume c bs).accepted = o.accepted := rfl

@[simp] theorem consume_calls (bs : Bytes) : (o.consume c bs).calls = o.calls := rfl

@[simp] theorem consume_callsOf (bs : Bytes) : (o.consume c bs).callsOf d = o.callsOf d := rfl

@[simp] theorem consume_requests (bs : Bytes) : (o.consume c bs).requests d = o.requests d := rfl

@[simp] theorem consume_responses (bs : Bytes) : (o.consume c bs).responses d = o.responses d :=
  rfl

@[simp] theorem consume_faults (bs : Bytes) : (o.consume c bs).faults = o.faults := rfl

@[simp] theorem consume_state (bs : Bytes) : (o.consume c bs).state = o.state := rfl

theorem consume_consume (bs bs' : Bytes) :
    (o.consume c bs).consume c bs' = o.consume c (bs ++ bs') := by
  simp [consume]

@[simp] theorem consume_nil : o.consume c [] = o := by simp [consume]

@[simp] theorem emit_written_self (bs : Bytes) :
    (o.emit c bs).written c = o.written c ++ bs := by simp [emit]

theorem emit_written_of_ne (bs : Bytes) (h : d ≠ c) :
    (o.emit c bs).written d = o.written d := by simp [emit, h]

@[simp] theorem emit_consumed (bs : Bytes) : (o.emit c bs).consumed = o.consumed := rfl

@[simp] theorem emit_accepted (bs : Bytes) : (o.emit c bs).accepted = o.accepted := rfl

@[simp] theorem emit_calls (bs : Bytes) : (o.emit c bs).calls = o.calls := rfl

@[simp] theorem emit_callsOf (bs : Bytes) : (o.emit c bs).callsOf d = o.callsOf d := rfl

@[simp] theorem emit_requests (bs : Bytes) : (o.emit c bs).requests d = o.requests d := rfl

@[simp] theorem emit_responses (bs : Bytes) : (o.emit c bs).responses d = o.responses d := rfl

@[simp] theorem emit_faults (bs : Bytes) : (o.emit c bs).faults = o.faults := rfl

@[simp] theorem emit_state (bs : Bytes) : (o.emit c bs).state = o.state := rfl

theorem emit_emit (bs bs' : Bytes) : (o.emit c bs).emit c bs' = o.emit c (bs ++ bs') := by
  simp [emit]

@[simp] theorem emit_nil : o.emit c [] = o := by simp [emit]

variable (p : Bytes) (r : Except Exception Bytes) (s : σ)

@[simp] theorem log_faults : (o.log c p r s).faults = o.faults := rfl

theorem call_ok (a : Bytes) : o.call c p (.ok a) s = o.log c p (.ok a) s := rfl

theorem call_error (e : Exception) :
    o.call c p (.error e) s = (o.log c p (.error e) s).fault ⟨.handler c, e⟩ := rfl

@[simp] theorem call_consumed : (o.call c p r s).consumed = o.consumed := by cases r <;> rfl

@[simp] theorem call_written : (o.call c p r s).written = o.written := by cases r <;> rfl

@[simp] theorem call_accepted : (o.call c p r s).accepted = o.accepted := by cases r <;> rfl

@[simp] theorem call_state : (o.call c p r s).state = s := by cases r <;> rfl

@[simp] theorem call_calls : (o.call c p r s).calls = o.calls ++ [⟨c, p, o.state, r⟩] := by
  cases r <;> rfl

theorem mem_call_faults {f : Fault} : f ∈ (o.call c p r s).faults ↔
    f ∈ o.faults ∨ ∃ e, r = .error e ∧ f = ⟨.handler c, e⟩ := by
  cases r <;> simp [call_ok, call_error, log, fault]

@[simp] theorem call_callsOf_self :
    (o.call c p r s).callsOf c = o.callsOf c ++ [⟨c, p, o.state, r⟩] := by
  simp [callsOf]

theorem call_callsOf_of_ne (h : d ≠ c) : (o.call c p r s).callsOf d = o.callsOf d := by
  simp [callsOf, Ne.symm h]

@[simp] theorem call_requests_self : (o.call c p r s).requests c = o.requests c ++ [p] := by
  simp [requests]

theorem call_requests_of_ne (h : d ≠ c) : (o.call c p r s).requests d = o.requests d := by
  rw [requests, call_callsOf_of_ne o c d p r s h, requests]

@[simp] theorem call_responses_self :
    (o.call c p r s).responses c = o.responses c ++ r.toOption.toList := by
  cases r <;> simp [responses, Except.toOption]

theorem call_responses_of_ne (h : d ≠ c) : (o.call c p r s).responses d = o.responses d := by
  rw [responses, call_callsOf_of_ne o c d p r s h, responses]

variable (f : Fault)

@[simp] theorem fault_consumed : (o.fault f).consumed = o.consumed := rfl

@[simp] theorem fault_written : (o.fault f).written = o.written := rfl

@[simp] theorem fault_accepted : (o.fault f).accepted = o.accepted := rfl

@[simp] theorem fault_calls : (o.fault f).calls = o.calls := rfl

@[simp] theorem fault_callsOf : (o.fault f).callsOf d = o.callsOf d := rfl

@[simp] theorem fault_requests : (o.fault f).requests d = o.requests d := rfl

@[simp] theorem fault_responses : (o.fault f).responses d = o.responses d := rfl

@[simp] theorem fault_state : (o.fault f).state = o.state := rfl

@[simp] theorem fault_faults : (o.fault f).faults = o.faults ++ [f] := rfl

@[simp] theorem accept_consumed : (o.accept c).consumed = o.consumed := rfl

@[simp] theorem accept_written : (o.accept c).written = o.written := rfl

@[simp] theorem accept_accepted : (o.accept c).accepted = o.accepted ++ [c] := rfl

@[simp] theorem accept_calls : (o.accept c).calls = o.calls := rfl

@[simp] theorem accept_callsOf : (o.accept c).callsOf d = o.callsOf d := rfl

@[simp] theorem accept_requests : (o.accept c).requests d = o.requests d := rfl

@[simp] theorem accept_responses : (o.accept c).responses d = o.responses d := rfl

@[simp] theorem accept_faults : (o.accept c).faults = o.faults := rfl

@[simp] theorem accept_state : (o.accept c).state = o.state := rfl

end Own

/-! ### The world -/

/-- The server's share and the clients'. -/
structure World (σ : Type) where
  own : Own σ
  /-- Sent by a client and not read by the server. -/
  unread : ℕ → Bytes := fun _ => []
  /-- Closed by the client. -/
  closed : ℕ → Bool := fun _ => false
  /-- Connected and not accepted. -/
  backlog : List ℕ := []

namespace World

variable {σ : Type}

/-- The server before it listens. -/
def init (state : σ) : World σ := { own := { state } }

/-- Everything a client has sent. -/
def sent (w : World σ) (c : ℕ) : Bytes := w.own.consumed c ++ w.unread c

/-- The server changes its share. -/
def withOwn (w : World σ) (o : Own σ) : World σ := { w with own := o }

/-- The server reads: `bs` moves from what is unread, which leaves `rest`. -/
def deliver (w : World σ) (c : ℕ) (bs rest : Bytes) : World σ :=
  { w with own := w.own.consume c bs, unread := Function.update w.unread c rest }

/-- An operation fails. -/
def fault (w : World σ) (f : Fault) : World σ := w.withOwn (w.own.fault f)

theorem mem_fault_faults {w : World σ} {f g : Fault} :
    f ∈ (w.fault g).own.faults ↔ f ∈ w.own.faults ∨ f = g := by
  simp [fault, withOwn]

end World

/-- What a client does. -/
inductive ClientAct
  | connect (client : ℕ)
  | send (client : ℕ) (bs : Bytes)
  | close (client : ℕ)
  deriving DecidableEq

/-- The client an act is of. -/
def ClientAct.client : ClientAct → ℕ
  | connect client => client
  | send client _ => client
  | close client => client

/-- The effect of a client's act. Connections are numbered once; sending and closing take a
connection that is open on the client's side. -/
def ClientAct.apply {σ : Type} (w : World σ) : ClientAct → World σ
  | connect c =>
    if c ∈ w.own.accepted ++ w.backlog then w else { w with backlog := w.backlog ++ [c] }
  | send c bs =>
    if c ∈ w.own.accepted ++ w.backlog ∧ w.closed c = false then
      { w with unread := Function.update w.unread c (w.unread c ++ bs) }
    else w
  | close c =>
    if c ∈ w.own.accepted ++ w.backlog then
      { w with closed := Function.update w.closed c true }
    else w

theorem ClientAct.apply_own {σ : Type} (a : ClientAct) (w : World σ) : (a.apply w).own = w.own := by
  cases a with
  | connect c => rw [apply]; split_ifs <;> rfl
  | send c bs => rw [apply]; split_ifs <;> rfl
  | close c => rw [apply]; split_ifs <;> rfl

/-- How the kernel resolves an operation: by moving at most so many bytes, though at least one, or
by failing. -/
inductive Choice
  | transfer (k : ℕ)
  | fail (errno : Errno) (what : Bytes)
  deriving DecidableEq

/-- The bytes that `read_some` delivers of those that are there. -/
def takeChunk (n k : ℕ) (avail : Bytes) (h : 0 < n → avail ≠ []) : Chunk n :=
  ⟨avail.take (min n (max 1 k)), by
    refine ⟨by rw [List.length_take]; omega, fun hn => List.length_pos_iff.mp ?_⟩
    have := List.length_pos_iff.mpr (h hn)
    rw [List.length_take]
    omega⟩

/-- The number of bytes that `write_some` takes. -/
def takeCount (k : ℕ) (bs : Bytes) : Taken bs :=
  ⟨min bs.length (max 1 k), by
    refine ⟨by omega, fun h => ?_⟩
    have := List.length_pos_iff.mpr h
    omega⟩

/-- The exception of a failing system call. -/
def systemFailure (errno : Errno) (what : Bytes) : Exception := .systemError (.system errno) what

section Kernel

variable {σ : Type} (H : RequestHandler σ)

/-- A turn of the server's thread at an operation. -/
def ServerOp.turn (c : Choice) (w : World σ) :
    (op : ServerOp) → Option (Except Exception (serverSignature.Ans op) × World σ)
  | .listen =>
    match c with
    | .fail errno what =>
      some (.error (systemFailure errno what), w.fault ⟨.listen, systemFailure errno what⟩)
    | .transfer _ => some (.ok (), w)
  | .accept =>
    match c with
    | .fail errno what =>
      some (.error (systemFailure errno what), w.fault ⟨.accept, systemFailure errno what⟩)
    | .transfer _ =>
      match w.backlog with
      | [] => none
      | client :: rest =>
        some (.ok client, { w.withOwn (w.own.accept client) with backlog := rest })
  | .readSome client n =>
    match c with
    | .fail errno what =>
      some (.error (systemFailure errno what), w.fault ⟨.read client, systemFailure errno what⟩)
    | .transfer k =>
      if h : 0 < n → w.unread client ≠ [] then
        let chunk := takeChunk n k (w.unread client) h
        some (.ok chunk, w.deliver client chunk.1 ((w.unread client).drop chunk.1.length))
      else if w.closed client then
        some (.error endOfFile, w.fault (.endOfStream client))
      else none
  | .writeSome client bs =>
    match c with
    | .fail errno what =>
      some (.error (systemFailure errno what), w.fault ⟨.write client, systemFailure errno what⟩)
    | .transfer k =>
      let count := takeCount k bs
      some (.ok count, w.withOwn (w.own.emit client (bs.take count.1)))
  | .handleRequest client request =>
    let (result, state) := H request w.own.state
    some (result, w.withOwn (w.own.call client request result state))
  | .unlink => some (.ok (), w.withOwn w.own.unlink)

/-- The server's thread among its clients. -/
def serverKernel : Kernel serverSignature Exception (World σ) Choice ClientAct where
  perform op c w := op.turn H c w
  act a w := a.apply w

/-- `SyncServer::start` on a fresh server, after some events. -/
def serverRun (state : σ) (es : List (Event Choice ClientAct)) :
    Config serverSignature Exception (Flow RunLabel (SyncServerResult Unit)) (World σ) :=
  (serverKernel H).run (Flow.next SyncServer.startFrom) ⟨SyncServer.start, .init state⟩ es

theorem serverRun_append (state : σ) (es fs : List (Event Choice ClientAct)) :
    serverRun H state (es ++ fs) =
      (serverKernel H).run (Flow.next SyncServer.startFrom) (serverRun H state es) fs :=
  Kernel.run_append ..

variable {H} {c : Choice} {w w' : World σ}

/-! ### What a turn can do -/

theorem turn_readSome {client n : ℕ} {r : Except Exception (Chunk n)}
    (h : (serverKernel H).perform (.readSome client n) c w = some (r, w')) :
    (∃ (chunk : Chunk n) (rest : Bytes), r = .ok chunk ∧ w.unread client = chunk.1 ++ rest ∧
      w' = w.deliver client chunk.1 rest) ∨
    (r = .error endOfFile ∧ w.unread client = [] ∧ w.closed client = true ∧
      w' = w.fault (.endOfStream client)) ∨
    ∃ errno what, r = .error (systemFailure errno what) ∧
      w' = w.fault ⟨.read client, systemFailure errno what⟩ := by
  cases c with
  | fail errno what =>
    obtain ⟨rfl, rfl⟩ := Prod.mk.inj (Option.some.inj h)
    exact .inr (.inr ⟨errno, what, rfl, rfl⟩)
  | transfer k =>
    simp only [serverKernel, ServerOp.turn] at h
    split_ifs at h with hn hclosed
    · obtain ⟨rfl, rfl⟩ := Prod.mk.inj (Option.some.inj h)
      refine .inl ⟨_, _, rfl, ?_, rfl⟩
      simp only [takeChunk, List.length_take]
      conv_lhs => rw [← List.take_append_drop (min n (max 1 k)) (w.unread client)]
      congr 1
      rcases le_total (min n (max 1 k)) (w.unread client).length with hle | hle
      · rw [min_eq_left hle]
      · rw [min_eq_right hle, List.drop_of_length_le hle, List.drop_length]
    · obtain ⟨rfl, rfl⟩ := Prod.mk.inj (Option.some.inj h)
      push Not at hn
      exact .inr (.inl ⟨rfl, hn.2, hclosed, rfl⟩)

theorem turn_writeSome {client : ℕ} {bs : Bytes} {r : Except Exception (Taken bs)}
    (h : (serverKernel H).perform (.writeSome client bs) c w = some (r, w')) :
    (∃ k : Taken bs, r = .ok k ∧ w' = w.withOwn (w.own.emit client (bs.take k.1))) ∨
    ∃ errno what, r = .error (systemFailure errno what) ∧
      w' = w.fault ⟨.write client, systemFailure errno what⟩ := by
  cases c with
  | fail errno what =>
    obtain ⟨rfl, rfl⟩ := Prod.mk.inj (Option.some.inj h)
    exact .inr ⟨errno, what, rfl, rfl⟩
  | transfer k =>
    obtain ⟨rfl, rfl⟩ := Prod.mk.inj (Option.some.inj h)
    exact .inl ⟨takeCount k bs, rfl, rfl⟩

theorem turn_handleRequest {client : ℕ} {request : Bytes} {r : Except Exception Bytes}
    (h : (serverKernel H).perform (.handleRequest client request) c w = some (r, w')) :
    r = (H request w.own.state).1 ∧ w' = w.withOwn
      (w.own.call client request (H request w.own.state).1 (H request w.own.state).2) := by
  obtain ⟨rfl, rfl⟩ := Prod.mk.inj (Option.some.inj h)
  exact ⟨rfl, rfl⟩

theorem turn_accept {r : Except Exception ℕ}
    (h : (serverKernel H).perform .accept c w = some (r, w')) :
    (∃ client rest, r = .ok client ∧ w.backlog = client :: rest ∧
      w' = { w.withOwn (w.own.accept client) with backlog := rest }) ∨
    ∃ errno what, r = .error (systemFailure errno what) ∧
      w' = w.fault ⟨.accept, systemFailure errno what⟩ := by
  cases c with
  | fail errno what =>
    obtain ⟨rfl, rfl⟩ := Prod.mk.inj (Option.some.inj h)
    exact .inr ⟨errno, what, rfl, rfl⟩
  | transfer k =>
    simp only [serverKernel, ServerOp.turn] at h
    split at h
    · cases h
    · next client rest heq =>
      obtain ⟨rfl, rfl⟩ := Prod.mk.inj (Option.some.inj h)
      exact .inl ⟨client, rest, rfl, heq, rfl⟩

theorem turn_listen {r : Except Exception Unit}
    (h : (serverKernel H).perform .listen c w = some (r, w')) :
    (r = .ok () ∧ w' = w) ∨
    ∃ errno what, r = .error (systemFailure errno what) ∧
      w' = w.fault ⟨.listen, systemFailure errno what⟩ := by
  cases c with
  | fail errno what =>
    obtain ⟨rfl, rfl⟩ := Prod.mk.inj (Option.some.inj h)
    exact .inr ⟨errno, what, rfl, rfl⟩
  | transfer k =>
    obtain ⟨rfl, rfl⟩ := Prod.mk.inj (Option.some.inj h)
    exact .inl ⟨rfl, rfl⟩

theorem turn_unlink {r : Except Exception Unit}
    (h : (serverKernel H).perform .unlink c w = some (r, w')) :
    r = .ok () ∧ w' = w.withOwn w.own.unlink := by
  obtain ⟨rfl, rfl⟩ := Prod.mk.inj (Option.some.inj h)
  exact ⟨rfl, rfl⟩

/-- Only `unlink` touches the socket file. -/
theorem path_turn {op : ServerOp} {choice : Choice} {r : Except Exception (serverSignature.Ans op)}
    (hop : op ≠ .unlink) (h : (serverKernel H).perform op choice w = some (r, w')) :
    w'.own.path = w.own.path := by
  match op with
  | .listen => rcases turn_listen h with ⟨-, rfl⟩ | ⟨errno, what, -, rfl⟩ <;> rfl
  | .accept =>
    rcases turn_accept h with ⟨client, rest, -, -, rfl⟩ | ⟨errno, what, -, rfl⟩ <;> rfl
  | .readSome client n =>
    rcases turn_readSome h with
      ⟨chunk, rest, -, -, rfl⟩ | ⟨-, -, -, rfl⟩ | ⟨errno, what, -, rfl⟩ <;> rfl
  | .writeSome client bs => rcases turn_writeSome h with ⟨k, -, rfl⟩ | ⟨errno, what, -, rfl⟩ <;> rfl
  | .handleRequest client p =>
    obtain ⟨-, rfl⟩ := turn_handleRequest h
    cases (H p w.own.state).1 <;> rfl
  | .unlink => exact absurd rfl hop

/-- Only `accept` accepts. -/
theorem accepted_turn {op : ServerOp} {choice : Choice}
    {r : Except Exception (serverSignature.Ans op)} (hop : op ≠ .accept)
    (h : (serverKernel H).perform op choice w = some (r, w')) :
    w'.own.accepted = w.own.accepted := by
  match op with
  | .listen => rcases turn_listen h with ⟨-, rfl⟩ | ⟨errno, what, -, rfl⟩ <;> rfl
  | .accept => exact absurd rfl hop
  | .readSome client n =>
    rcases turn_readSome h with
      ⟨chunk, rest, -, -, rfl⟩ | ⟨-, -, -, rfl⟩ | ⟨errno, what, -, rfl⟩ <;> rfl
  | .writeSome client bs => rcases turn_writeSome h with ⟨k, -, rfl⟩ | ⟨errno, what, -, rfl⟩ <;> rfl
  | .handleRequest client p =>
    obtain ⟨-, rfl⟩ := turn_handleRequest h
    exact Own.call_accepted ..
  | .unlink =>
    obtain ⟨-, rfl⟩ := turn_unlink h
    rfl

/-! ### What clients have sent -/

/-- No operation of the server changes what a client has sent. -/
theorem sent_turn {op : ServerOp} {r : Except Exception (serverSignature.Ans op)}
    (h : (serverKernel H).perform op c w = some (r, w')) : w'.sent = w.sent := by
  funext d
  match op with
  | .listen => rcases turn_listen h with ⟨-, rfl⟩ | ⟨errno, what, -, rfl⟩ <;> rfl
  | .accept =>
    rcases turn_accept h with ⟨client, rest, -, -, rfl⟩ | ⟨errno, what, -, rfl⟩ <;> rfl
  | .readSome client n =>
    rcases turn_readSome h with ⟨chunk, rest, -, hunread, rfl⟩ | ⟨-, -, -, rfl⟩ |
      ⟨errno, what, -, rfl⟩
    · rcases eq_or_ne d client with rfl | hd
      · simp [World.sent, World.deliver, hunread]
      · simp [World.sent, World.deliver, hd, Own.consume]
    · rfl
    · rfl
  | .writeSome client bs => rcases turn_writeSome h with ⟨k, -, rfl⟩ | ⟨errno, what, -, rfl⟩ <;> rfl
  | .handleRequest client p =>
    obtain ⟨-, rfl⟩ := turn_handleRequest h
    simp [World.sent, World.withOwn]
  | .unlink =>
    obtain ⟨-, rfl⟩ := turn_unlink h
    rfl

/-- What a client has sent grows by its own sends, and by nothing else. -/
theorem sent_act (a : ClientAct) (w : World σ) (d : ℕ) :
    (a.apply w).sent d = w.sent d ++
      match a with
      | .send c bs =>
        if c = d ∧ c ∈ w.own.accepted ++ w.backlog ∧ w.closed c = false then bs else []
      | _ => [] := by
  cases a with
  | connect c =>
    rw [ClientAct.apply]
    split_ifs <;> simp [World.sent]
  | close c =>
    rw [ClientAct.apply]
    split_ifs <;> simp [World.sent]
  | send c bs =>
    rw [ClientAct.apply]
    rcases eq_or_ne c d with rfl | hd
    · split_ifs <;> simp_all [World.sent]
    · split_ifs <;> simp_all [World.sent, Ne.symm hd]

theorem sent_act_of_ne {a : ClientAct} (w : World σ) {d : ℕ} (ha : a.client ≠ d) :
    (a.apply w).sent d = w.sent d := by
  rw [sent_act]
  cases a with
  | connect c => simp
  | send c bs => simp [show c ≠ d from ha]
  | close c => simp

/-- What a client has sent only grows. -/
theorem sent_run {α : Type} {next : α → Option (ServerCode α)}
    (cfg : Config serverSignature Exception α (World σ)) (es : List (Event Choice ClientAct))
    (d : ℕ) : cfg.world.sent d <+: ((serverKernel H).run next cfg es).world.sent d := by
  refine Kernel.run_keeps (K := serverKernel H)
    (P := fun w : World σ => cfg.world.sent d <+: w.sent d) ?_ ?_ List.prefix_rfl es
  · intro op choice w r w' hp h
    rwa [sent_turn hp]
  · exact fun a w h => h.trans ⟨_, (sent_act a w d).symm⟩

end Kernel

end InterProcessCourier
