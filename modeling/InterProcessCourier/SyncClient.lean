import InterProcessCourier.DuplicateRegistrationHandler
import InterProcessCourier.ProtobufTools
import InterProcessCourier.SyncUnixDomainClient

/-!
# The client object

`SyncClient`: the map of request/response pairs, the three ways into it (registration by hand, the
pair that reflection needs, and the pairs that reflection brings), the validation of a request
against it, and the call.
-/

namespace InterProcessCourier

open Interaction

/-- `SyncClientError`. -/
inductive SyncClientError
  | unknownError
  | badRequestToResponsePair
  | unableToReflectMappings
  | unableToConnectToServer
  | unableToSendMessage
  | unableToReceiveMessage
  | unableToParseReturnedProto
  deriving DecidableEq

/-- `SyncClientResult<SuccessType>`. -/
abbrev SyncClientResult (SuccessType : Type) := Except (Error SyncClientError) SuccessType

/-- `ValidateRequestResponsePairStrategy`. -/
inductive ValidateRequestResponsePairStrategy
  | noValidation
  | manualRegistration
  | serverReflection
  deriving DecidableEq

/-- `convertStrategyToString`. -/
def ValidateRequestResponsePairStrategy.toText : ValidateRequestResponsePairStrategy → Bytes
  | noValidation => str "NoValidation"
  | manualRegistration => str "ManualRegistration"
  | serverReflection => str "ServerReflection"

/-- `SyncClientOptions`. -/
structure SyncClientOptions where
  validateReqResPairStrategy : ValidateRequestResponsePairStrategy := .serverReflection
  duplicateRegistrationStrategy : DuplicateRequestResponsePairRegistrationStrategy :=
    .indicateIgnore

/-- `SyncClient`, up to its socket. -/
structure SyncClient where
  clientOptions : SyncClientOptions
  requestResponsePairs : UnorderedMap Bytes := ∅

namespace SyncClient

/-! ### Registration -/

/-- `registerValidatedRequestResponsePair`. -/
def registerValidatedRequestResponsePair (requestName responseName : Bytes) (client : SyncClient) :
    SyncClient :=
  { client with
    requestResponsePairs := client.requestResponsePairs.insert requestName responseName }

/-- `registerDuplicateRequestResponsePair`. -/
def registerDuplicateRequestResponsePair (requestName responseName : Bytes) :
    Method SyncClient Bool := fun client =>
  InterProcessCourier.registerDuplicateRequestResponsePair
    client.clientOptions.duplicateRegistrationStrategy registerValidatedRequestResponsePair
    requestName responseName client

variable [Protobuf]

/-- `registerRequestResponsePair<RequestType, ResponseType>`. -/
def registerRequestResponsePair (RequestType ResponseType : Descriptor) :
    Method SyncClient Bool := fun client =>
  let requestName := fullName RequestType
  let responseName := fullName ResponseType
  if (client.requestResponsePairs.lookup requestName).isSome ∧
      client.clientOptions.validateReqResPairStrategy ≠ .serverReflection then
    registerDuplicateRequestResponsePair requestName responseName client
  else (.ok true, registerValidatedRequestResponsePair requestName responseName client)

/-! ### Requests -/

/-- The error of a request whose pair is not the registered one. -/
def badPair (client : SyncClient) (requestName responseName : Bytes) : Error SyncClientError :=
  let expectedResponseName :=
    (client.requestResponsePairs.lookup requestName).getD (str "<Not Registered>")
  ⟨.badRequestToResponsePair,
    str "Request type '" ++ requestName ++ str "' expects response type '" ++
      expectedResponseName ++ str "', but '" ++ responseName ++
      str "' was provided. Current strategy: " ++
      client.clientOptions.validateReqResPairStrategy.toText⟩

/-- The validation in front of a request. -/
def validate (client : SyncClient) (RequestType ResponseType : Descriptor) :
    SyncClientResult Unit :=
  if client.clientOptions.validateReqResPairStrategy ≠ .noValidation ∧
      client.requestResponsePairs.lookup (fullName RequestType) ≠ some (fullName ResponseType) then
    .error (client.badPair (fullName RequestType) (fullName ResponseType))
  else .ok ()

/-- `sendAndReceiveMessage`. -/
def sendAndReceiveMessage (serialized : Bytes) : ClientCode (SyncClientResult Bytes) := do
  match ← SyncUnixDomainClient.sendMessage serialized with
  | .error error => return .error ⟨.unableToSendMessage, error.message⟩
  | .ok () =>
    match ← SyncUnixDomainClient.receiveMessage with
    | .error error => return .error ⟨.unableToReceiveMessage, error.message⟩
    | .ok response => return .ok response

/-- `sendRequest<RequestType, ResponseType>`. -/
def sendRequest (client : SyncClient) {RequestType : Descriptor} (ResponseType : Descriptor)
    (request : Message RequestType) : ClientCode (SyncClientResult (Message ResponseType)) :=
  match client.validate RequestType ResponseType with
  | .error error => return .error error
  | .ok () => do
    match ← sendAndReceiveMessage (makePayloadFromProto request) with
    | .error error => return .error error
    | .ok response =>
      match makeProtoFromPayload ResponseType response with
      | .error error => return .error ⟨.unableToParseReturnedProto, error.message⟩
      | .ok message => return .ok message

/-! ### Connecting -/

/-- `m_request_response_pairs[key] = value`, for every entry of the reflected map. -/
def mergeMappings (client : SyncClient) (response : Message MappingReflectionResponse) :
    SyncClient :=
  { client with
    requestResponsePairs := (mappings response).entries.foldl
      (fun pairs pair => pairs.insert pair.1 pair.2) client.requestResponsePairs }

/-- `reflectRequestResponseMappingPairs`. -/
def reflectRequestResponseMappingPairs (client : SyncClient) :
    ClientCode (SyncClientResult Unit × SyncClient) :=
  match registerRequestResponsePair MappingReflectionRequest MappingReflectionResponse client with
  | (.error e, _) => throw e
  | (.ok _, client) => do
    match ← client.sendRequest MappingReflectionResponse mappingReflectionRequest with
    | .error error => return (.error ⟨.unableToReflectMappings, error.message⟩, client)
    | .ok response => return (.ok (), client.mergeMappings response)

/-- `connect`. -/
def connect (client : SyncClient) : ClientCode (SyncClientResult Unit × SyncClient) := do
  match ← SyncUnixDomainClient.connect with
  | .error error => return (.error ⟨.unableToConnectToServer, error.message⟩, client)
  | .ok () =>
    if client.clientOptions.validateReqResPairStrategy = .serverReflection then
      match ← client.reflectRequestResponseMappingPairs with
      | (.error error, client) => return (.error error, client)
      | (.ok (), client) => return (.ok (), client)
    else return (.ok (), client)

end SyncClient

end InterProcessCourier
