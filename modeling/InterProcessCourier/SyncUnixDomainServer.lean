import InterProcessCourier.Asio
import InterProcessCourier.SyncServer
import InterProcessCourier.UnixDomainProtocol

/-!
# The server's code

`SyncUnixDomainSession`, `SyncUnixDomainServer::run` and `SyncServer::start`, as programs over the
operations of the server's one thread. A client is the number of its connection.

The source has two nested `while (true)` loops. The head of each is a `RunLabel`, and the code
between two visits of a head is a program of its own: `SyncUnixDomainSession.start` is one pass
through the loop of a session, with the `try` around it, and `runFrom` goes on at
`RunLabel.session` after each pass.

The pauses of `k_sync_server_loop_sleep_ms` are left out: between any two operations of the server
the clients may do as much as they like anyway.
-/

namespace InterProcessCourier

open Interaction

/-- `UnixDomainServerError`. -/
inductive UnixDomainServerError
  | unknownError
  | notEnoughBytesReceived
  | generalServerError
  | generalServerSessionError
  | unableToSendMessage
  deriving DecidableEq

/-- `UnixDomainServerResult<SuccessType>`. -/
abbrev UnixDomainServerResult (SuccessType : Type) :=
  Except (Error UnixDomainServerError) SuccessType

/-- What the server's thread asks of the outside. -/
inductive ServerOp
  /-- `m_acceptor.listen()`. -/
  | listen
  /-- `m_acceptor.accept(socket)`. -/
  | accept
  /-- `read_some` on the socket of a client. -/
  | readSome (client n : ℕ)
  /-- `write_some` on the socket of a client. -/
  | writeSome (client : ℕ) (bs : Bytes)
  /-- `m_request_handler(request)`, in the session of a client. -/
  | handleRequest (client : ℕ) (request : Bytes)
  /-- `unlink(m_socket_path.c_str())`. -/
  | unlink
  deriving DecidableEq

/-- The client an operation is about. -/
def ServerOp.client? : ServerOp → Option ℕ
  | listen => none
  | accept => none
  | readSome client _ => some client
  | writeSome client _ => some client
  | handleRequest client _ => some client
  | unlink => none

/-- The operations of the server with their answers. -/
def serverSignature : Signature where
  Op := ServerOp
  Ans
    | .listen => Unit
    | .accept => ℕ
    | .readSome _ n => Chunk n
    | .writeSome _ bs => Taken bs
    | .handleRequest _ _ => Bytes
    | .unlink => Unit

/-- Code that runs on the server's thread. -/
abbrev ServerCode := Program serverSignature Exception

/-- One operation of the server. -/
def ServerOp.perform (op : ServerOp) : ServerCode (serverSignature.Ans op) :=
  Program.perform (S := serverSignature) op

namespace SyncUnixDomainSession

/-- `readHeader`. The error for a short header is built and dropped, as the `return` in front of it
is missing; `boost::asio::read` never comes back short. -/
def readHeader (client : ℕ) : ServerCode (UnixDomainServerResult UInt32) := do
  let header ← Asio.read (fun n => (ServerOp.readSome client n).perform) payloadLengthHeaderSize
  let _dropped : UnixDomainServerResult Unit :=
    if header.length ≠ payloadLengthHeaderSize then .error ⟨.notEnoughBytesReceived, []⟩
    else .ok ()
  return .ok (loadLE header).toUInt32

/-- `readBody`. -/
def readBody (client : ℕ) (msgLength : UInt32) : ServerCode (UnixDomainServerResult Bytes) := do
  let messageBuffer ← Asio.read (fun n => (ServerOp.readSome client n).perform) msgLength.toNat
  if messageBuffer.length ≠ msgLength.toNat then
    return .error ⟨.notEnoughBytesReceived, []⟩
  else
    let response ← (ServerOp.handleRequest client messageBuffer).perform
    let responseMessageBuffer ← Program.ofExcept (frameResponse response)
    return .ok responseMessageBuffer

/-- `writeResponse`. -/
def writeResponse (client : ℕ) (response : Bytes) : ServerCode (UnixDomainServerResult Unit) :=
  catchStdException
    (do
      Asio.write (fun bs => (ServerOp.writeSome client bs).perform) response
      return .ok ())
    fun what => return .error ⟨.unableToSendMessage, what⟩

/-- The `try` block in the loop of `start`. -/
def exchange (client : ℕ) : ServerCode (Flow Unit (UnixDomainServerResult Unit)) := do
  match ← readHeader client with
  | .error e => return .done (.error e)
  | .ok msgLength =>
    match ← readBody client msgLength with
    | .error e => return .done (.error e)
    | .ok response =>
      match ← writeResponse client response with
      | .error e => return .done (.error e)
      | .ok () => return .goto ()

/-- One pass through the loop of `start`. -/
def start (client : ℕ) : ServerCode (Flow Unit (UnixDomainServerResult Unit)) :=
  catchSystemError (exchange client) fun code what =>
    if code = .eof ∨ code = .system .badDescriptor then
      -- client disconnected normally
      return .done (.ok ())
    else return .done (.error ⟨.generalServerSessionError, what⟩)

/-! A session touches no client but its own. -/

theorem asks_perform {client : ℕ} {op : ServerOp} (h : op.client? = some client) :
    op.perform.Asks fun op => ServerOp.client? op = some client :=
  ⟨h, fun r => by cases r <;> trivial⟩

theorem asks_read (client n : ℕ) :
    (Asio.read (fun n => (ServerOp.readSome client n).perform) n).Asks
      fun op => ServerOp.client? op = some client :=
  Asio.asks_read (fun _ => asks_perform rfl) n

theorem readHeader_asks (client : ℕ) :
    (readHeader client).Asks fun op => ServerOp.client? op = some client := by
  rw [readHeader]
  exact (asks_read client _).bind fun header => trivial

theorem readBody_asks (client : ℕ) (msgLength : UInt32) :
    (readBody client msgLength).Asks fun op => ServerOp.client? op = some client := by
  rw [readBody]
  refine (asks_read client _).bind fun message => ?_
  split_ifs
  · trivial
  · refine Program.Asks.bind (asks_perform rfl) fun response => ?_
    exact (Program.asks_ofExcept _).bind fun buffer => trivial

theorem writeResponse_asks (client : ℕ) (response : Bytes) :
    (writeResponse client response).Asks fun op => ServerOp.client? op = some client := by
  rw [writeResponse]
  refine asks_catchStdException ?_ fun what => trivial
  exact (Asio.asks_write (fun _ => asks_perform rfl) _).bind fun _ => trivial

theorem exchange_asks (client : ℕ) :
    (exchange client).Asks fun op => ServerOp.client? op = some client := by
  rw [exchange]
  refine (readHeader_asks client).bind fun r => ?_
  match r with
  | .error e => trivial
  | .ok msgLength =>
    refine (readBody_asks client msgLength).bind fun r => ?_
    match r with
    | .error e => trivial
    | .ok response =>
      refine (writeResponse_asks client response).bind fun r => ?_
      match r with
      | .error e => trivial
      | .ok () => trivial

theorem start_asks (client : ℕ) :
    (start client).Asks fun op => ServerOp.client? op = some client := by
  rw [start]
  refine asks_catchSystemError (exchange_asks client) fun code what => ?_
  split_ifs <;> trivial

/-! The checks for a short read never fire, so that a session does not return
`notEnoughBytesReceived`. -/

theorem readHeader_returns (client : ℕ) :
    (readHeader client).Returns fun r => ∀ error, r ≠ .error error := by
  rw [readHeader]
  exact (Program.returns_true _).bind fun header _ => nofun

theorem readBody_returns (client : ℕ) (msgLength : UInt32) :
    (readBody client msgLength).Returns fun r => ∀ error, r ≠ .error error := by
  rw [readBody]
  refine (Asio.read_returns _ _).bind fun message hlength => ?_
  rw [if_neg (not_not.mpr hlength)]
  refine (Program.returns_true _).bind fun response _ => ?_
  exact (Program.returns_true _).bind fun buffer _ => nofun

theorem writeResponse_returns (client : ℕ) (response : Bytes) :
    (writeResponse client response).Returns fun r =>
      ∀ error, r = .error error → error.type = .unableToSendMessage := by
  rw [writeResponse]
  refine returns_catchStdException ?_ fun what => ?_
  · exact (Program.returns_true _).bind fun _ _ => nofun
  · rintro error ⟨⟩
    rfl

theorem start_returns (client : ℕ) : (start client).Returns fun r =>
    ∀ error, r = .done (.error error) → error.type ≠ .notEnoughBytesReceived := by
  rw [start]
  refine returns_catchSystemError ?_ fun code what => ?_
  · rw [exchange]
    refine (readHeader_returns client).bind fun r hheader => ?_
    match r with
    | .error e => exact absurd rfl (hheader e)
    | .ok msgLength =>
      refine (readBody_returns client msgLength).bind fun r hbody => ?_
      match r with
      | .error e => exact absurd rfl (hbody e)
      | .ok response =>
        refine (writeResponse_returns client response).bind fun r hresponse => ?_
        match r with
        | .error e =>
          rintro error ⟨⟩
          simp [hresponse e rfl]
        | .ok () => exact nofun
  · split_ifs
    · exact nofun
    · rintro error ⟨⟩
      simp

end SyncUnixDomainSession

/-- The heads of the two loops. -/
inductive RunLabel
  | accept
  | session (client : ℕ)
  deriving DecidableEq

namespace SyncUnixDomainServer

/-- The `try` around the body of `run`. -/
def guarded (body : ServerCode (Flow RunLabel (UnixDomainServerResult Unit))) :
    ServerCode (Flow RunLabel (UnixDomainServerResult Unit)) :=
  catchSystemError body fun _ what => do
    ServerOp.unlink.perform
    return .done (.error ⟨.generalServerError, what⟩)

/-- `run`, up to its loop. -/
def run : ServerCode (Flow RunLabel (UnixDomainServerResult Unit)) :=
  guarded do
    ServerOp.listen.perform
    return .goto .accept

/-- `run`, from the head of a loop to the head of a loop. -/
def runFrom (label : RunLabel) : ServerCode (Flow RunLabel (UnixDomainServerResult Unit)) :=
  guarded <| match label with
    | .accept => do
      let client ← ServerOp.accept.perform
      return .goto (.session client)
    | .session client => do
      match ← SyncUnixDomainSession.start client with
      | .goto () => return .goto (.session client)
      | .done (.error e) =>
        ServerOp.unlink.perform
        return .done (.error e)
      | .done (.ok ()) => return .goto .accept

end SyncUnixDomainServer

namespace SyncServer

/-- What `start` makes of the result of `run`. -/
def report : Flow RunLabel (UnixDomainServerResult Unit) →
    ServerCode (Flow RunLabel (SyncServerResult Unit))
  | .goto l => return .goto l
  | .done (.error e) => return .done (.error ⟨.runtimeError, e.message⟩)
  | .done (.ok ()) => return .done (.ok ())

/-- `start`, up to the loop of `run`. -/
def start : ServerCode (Flow RunLabel (SyncServerResult Unit)) :=
  SyncUnixDomainServer.run >>= report

/-- `start`, from the head of a loop to the head of a loop. -/
def startFrom (label : RunLabel) : ServerCode (Flow RunLabel (SyncServerResult Unit)) :=
  SyncUnixDomainServer.runFrom label >>= report

end SyncServer

end InterProcessCourier
