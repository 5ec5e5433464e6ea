import InterProcessCourier.DuplicateRegistrationHandler
import InterProcessCourier.ProtobufTools

/-!
# The server object

`SyncServer` as an object: its two maps, the registration members that fill them, the handler the
constructor registers for reflection, and the dispatch of a payload. The loop that feeds it
payloads is in `SyncUnixDomainServer`.

A handler is a `std::function` and may do anything between its call and its return, so it is a
function that passes a state `σ` along and may throw. It may also look at the server it is
registered on, as the reflection handler does, and so is given `requestResponsePairs`.

`m_handlers` holds type-erased closures. `GenericHandler` keeps the request type the closure was
made for; calling it on a message of another type is the downcast the source does not check, and
is undefined behaviour.
-/

namespace InterProcessCourier

/-- `SyncServerError`. -/
inductive SyncServerError
  | unknownError
  | handlerNotRegistered
  | runtimeError
  | unableToDeserializeMessage
  | unableToSerializeMessage
  deriving DecidableEq

/-- `convertSyncServerErrorToString`. -/
def SyncServerError.toText : SyncServerError → Bytes
  | unknownError => str "Unknown error"
  | handlerNotRegistered => str "Handler not registered"
  | runtimeError => str "Runtime error"
  | unableToDeserializeMessage => str "Unable to deserialize message"
  | unableToSerializeMessage => str "Unable to serialize message"

/-- `SyncServerResult<SuccessType>`. -/
abbrev SyncServerResult (SuccessType : Type) := Except (Error SyncServerError) SuccessType

variable [Protobuf]

/-- `HandlerForSpecificType<RequestType, ResponseType>`, over handler state `σ`. -/
abbrev HandlerForSpecificType (σ : Type) (RequestType ResponseType : Descriptor) :=
  Message RequestType → UnorderedMap Bytes → Method σ (Message ResponseType)

/-- The closure stored in `m_handlers`, with the types it was made for. -/
structure GenericHandler (σ : Type) where
  /-- The type the closure casts its argument to. -/
  RequestType : Descriptor
  /-- The type of what the handler returns. -/
  ResponseType : Descriptor
  /-- The handler. -/
  handler : HandlerForSpecificType σ RequestType ResponseType

/-- The name under which `registerHandler` stores a handler. -/
abbrev GenericHandler.requestName {σ : Type} (g : GenericHandler σ) : Bytes :=
  fullName g.RequestType

/-- The name that `registerHandler` records for reflection. -/
abbrev GenericHandler.responseName {σ : Type} (g : GenericHandler σ) : Bytes :=
  fullName g.ResponseType

/-- The call of a stored closure. -/
def GenericHandler.invoke {σ : Type} (g : GenericHandler σ) (msg : BaseProto)
    (requestResponsePairs : UnorderedMap Bytes) : Method σ Bytes := fun state =>
  if h : msg.1 = g.RequestType then
    let (response, state') := g.handler (h ▸ msg.2) requestResponsePairs state
    (response.map makePayloadFromProto, state')
  else (.error .undefinedBehaviour, state)

/-- `SyncServer`. -/
structure SyncServer (σ : Type) where
  duplicateRegistrationStrategy : DuplicateRequestResponsePairRegistrationStrategy
  handlers : UnorderedMap (GenericHandler σ) := ∅
  requestResponsePairs : UnorderedMap Bytes := ∅

namespace SyncServer

variable {σ : Type}

/-- `registerValidatedRequestResponsePair`. -/
def registerValidatedRequestResponsePair {RequestType ResponseType : Descriptor}
    (handler : HandlerForSpecificType σ RequestType ResponseType)
    (requestName responseName : Bytes) (server : SyncServer σ) : SyncServer σ :=
  { server with
    handlers := server.handlers.insert requestName ⟨RequestType, ResponseType, handler⟩
    requestResponsePairs := server.requestResponsePairs.insert requestName responseName }

/-- `registerDuplicateRequestResponsePair`, a public member. -/
def registerDuplicateRequestResponsePair {RequestType ResponseType : Descriptor}
    (requestName responseName : Bytes)
    (handler : HandlerForSpecificType σ RequestType ResponseType) :
    Method (SyncServer σ) Bool := fun server =>
  InterProcessCourier.registerDuplicateRequestResponsePair server.duplicateRegistrationStrategy
    (registerValidatedRequestResponsePair handler) requestName responseName server

/-- `registerHandler`. -/
def registerHandler {RequestType ResponseType : Descriptor}
    (handler : HandlerForSpecificType σ RequestType ResponseType) :
    Method (SyncServer σ) Bool := fun server =>
  let requestName := fullName RequestType
  let responseName := fullName ResponseType
  if (server.handlers.lookup requestName).isSome then
    registerDuplicateRequestResponsePair requestName responseName handler server
  else
    (.ok true, registerValidatedRequestResponsePair handler requestName responseName server)

/-- `proto_map->emplace(request_name, response_name)`. -/
def emplace (protoMap : UnorderedMap Bytes) (pair : (_ : Bytes) × Bytes) : UnorderedMap Bytes :=
  if (protoMap.lookup pair.1).isSome then protoMap else protoMap.insert pair.1 pair.2

/-- The handler the constructor registers: it answers with the server's pairs. -/
def reflectionHandler :
    HandlerForSpecificType σ MappingReflectionRequest MappingReflectionResponse :=
  fun _ requestResponsePairs state =>
    (.ok (ofMappings (requestResponsePairs.entries.foldl emplace ∅)), state)

/-- The constructor. -/
def make (strategy : DuplicateRequestResponsePairRegistrationStrategy) : SyncServer σ :=
  (registerHandler reflectionHandler { duplicateRegistrationStrategy := strategy }).2

/-- `acceptMessage`. -/
def acceptMessage (server : SyncServer σ) (serialized : Bytes) :
    Method σ (SyncServerResult Bytes) := fun state =>
  match makeBaseProtoFromPayload serialized with
  | .error error => (.ok (.error ⟨.unableToDeserializeMessage, error.message⟩), state)
  | .ok msg =>
    let typeName := fullName msg.1
    match server.handlers.lookup typeName with
    | none =>
      (.ok (.error ⟨.handlerNotRegistered,
        str "No handler for " ++ typeName ++ str " registered"⟩), state)
    | some it =>
      let (payload, state') := it.invoke msg server.requestResponsePairs state
      (payload.map .ok, state')

/-- The request handler that the constructor gives to the socket server: an error of
`acceptMessage` is thrown. -/
def requestHandler (server : SyncServer σ) (msg : Bytes) : Method σ Bytes := fun state =>
  match server.acceptMessage msg state with
  | (.error e, state') => (.error e, state')
  | (.ok (.error error), state') =>
    (.error (.runtimeError (str "Error while accepting message: " ++
      error.format SyncServerError.toText)), state')
  | (.ok (.ok payload), state') => (.ok payload, state')

end SyncServer

end InterProcessCourier
