import InterProcessCourier.Reflection
import InterProcessCourier.TypedCalls

/-!
# Validation makes calls type safe

What validation is for: a client whose pairs are the server's never asks for a response of a type
that the server's handler for the request does not return. The client's pairs stay the server's when
every pair that is registered by hand is one of them, as reflection brings no others unless its own
handler is overridden. Then a request is refused at once, or its response can be read, if what is
sent can be serialized.

## Main definitions

* `SyncClient.Agrees` — a client has no pair that is not the server's
* `ClientCall.Fits` — a call registers no other pair, and sends what can be serialized

## Main results

* `Performs.lookup_eq_or`, `Recorded.agrees` — what calls do to the pairs
* `calls_type_safe` — every request of every run
-/

namespace InterProcessCourier

open Interaction

/-- The errors of an exchange are those of the socket. -/
theorem Exchange.type_of_socket {payload : Bytes} {error : Error SyncClientError} {t : List Io}
    (h : Exchange payload (.error error) t) :
    error.type = .unableToSendMessage ∨ error.type = .unableToReceiveMessage := by
  cases h with
  | unsent hmidway message => exact .inl rfl
  | lost hmidway message => exact .inr rfl
  | short hmidway hbs message => exact .inr rfl

section

variable [Protobuf] {σ : Type}

/-! ### Pairs of the server -/

/-- The client has no pair that is not the server's. -/
def SyncClient.Agrees (client : SyncClient) (server : SyncServer σ) : Prop :=
  ∀ name, client.requestResponsePairs.lookup name = none ∨
    client.requestResponsePairs.lookup name = server.requestResponsePairs.lookup name

/-- What is registered is a pair of the server, and what is sent can be serialized. -/
def ClientCall.Fits (server : SyncServer σ) : ClientCall → Prop
  | registerRequestResponsePair RequestType ResponseType =>
    server.requestResponsePairs.lookup (fullName RequestType) = some (fullName ResponseType)
  | connect => True
  | sendRequest _ request => BaseProto.Serializes ⟨_, request⟩

instance (server : SyncServer σ) : DecidablePred (ClientCall.Fits server)
  | .registerRequestResponsePair RequestType ResponseType =>
    inferInstanceAs (Decidable (server.requestResponsePairs.lookup (fullName RequestType) =
      some (fullName ResponseType)))
  | .connect => .isTrue trivial
  | .sendRequest _ request => inferInstanceAs (Decidable (BaseProto.Serializes ⟨_, request⟩))

section Calls

variable {server : SyncServer σ} {client client' : SyncClient} {call : ClientCall} {r : call.Result}
  {t : List Io} {rs : List Record}

/-- A pair of the server is registered. -/
theorem SyncClient.lookup_register_eq_or (client : SyncClient) {requestName responseName : Bytes}
    (hpair : server.requestResponsePairs.lookup requestName = some responseName) (name : Bytes) :
    let client' := client.registerValidatedRequestResponsePair requestName responseName
    client'.requestResponsePairs.lookup name = client.requestResponsePairs.lookup name ∨
      client'.requestResponsePairs.lookup name = server.requestResponsePairs.lookup name := by
  intro client'
  by_cases hname : name = requestName
  · right
    rw [hname, hpair]
    exact AList.lookup_insert _
  · exact .inl (AList.lookup_insert_ne hname)

variable [LawfulProtobuf]

/-- **Reflection brings the server's pairs**, if what was read is the server's answer. -/
theorem Performs.eq_mergeMappings
    (hreflects : client.clientOptions.validateReqResPairStrategy = .serverReflection)
    (hserializes : (serializeToString server.reflectionResponse).isSome)
    (h : Performs client .connect (.ok ()) client' t)
    (htaken : takenOf t = wire.frame (makePayloadFromProto server.reflectionResponse)) :
    client' = client.prepared.mergeMappings server.reflectionResponse := by
  obtain ⟨c, during, response, m, rfl, hexchange, hparse, rfl⟩ := h.of_connect hreflects
  obtain ⟨hframe, hresponse⟩ := hexchange.taken
  obtain rfl : response = makePayloadFromProto server.reflectionResponse :=
    wire.frame_injective hresponse (length_makePayloadFromProto_lt _) (hframe.symm.trans htaken)
  rw [makeProtoFromPayload_makePayloadFromProto hserializes] at hparse
  rw [Except.ok.inj hparse]

/-- Written over pairs of the server, the server's pairs are what is there. -/
theorem SyncClient.Agrees.lookup_mergeMappings (h : client.Agrees server)
    (hserver : server.requestResponsePairs.lookup (fullName MappingReflectionRequest) =
      some (fullName MappingReflectionResponse)) (name : Bytes) :
    (client.prepared.mergeMappings server.reflectionResponse).requestResponsePairs.lookup name =
      server.requestResponsePairs.lookup name := by
  rw [SyncClient.lookup_mergeMappings, SyncServer.lookup_mappings_reflectionResponse]
  cases hlookup : server.requestResponsePairs.lookup name with
  | some response => rfl
  | none =>
    rcases lookup_register_eq_or client hserver name with hsame | hsame
    · exact hsame.trans ((h name).elim id fun heq => heq.trans hlookup)
    · exact hsame.trans hlookup

/-- **What a call does to the pairs**: a name keeps what it is bound to, or is bound as the server
binds it. -/
theorem Performs.lookup_eq_or (hserver : server.requestResponsePairs.lookup
      (fullName MappingReflectionRequest) = some (fullName MappingReflectionResponse))
    (hserializes : (serializeToString server.reflectionResponse).isSome)
    (h : Performs client call r client' t) (hfits : call.Fits server)
    (htaken : client.clientOptions.validateReqResPairStrategy = .serverReflection →
      (⟨call, r⟩ : Outcome) = ⟨.connect, .ok ()⟩ →
        takenOf t = wire.frame (makePayloadFromProto server.reflectionResponse)) (name : Bytes) :
    client'.requestResponsePairs.lookup name = client.requestResponsePairs.lookup name ∨
      client'.requestResponsePairs.lookup name = server.requestResponsePairs.lookup name := by
  have hperforms := h
  cases h with
  | registers RequestType ResponseType =>
    rw [SyncClient.registerRequestResponsePair]
    split_ifs
    · rw [SyncClient.registerDuplicateRequestResponsePair,
        registerDuplicateRequestResponsePair_eq]
      dsimp only
      split_ifs
      · exact SyncClient.lookup_register_eq_or client hfits name
      · exact .inl rfl
    · exact SyncClient.lookup_register_eq_or client hfits name
  | unconnected message => exact .inl rfl
  | connected c h => exact .inl rfl
  | @reflected c x t hreflects hexchange =>
    have hprepared := SyncClient.lookup_register_eq_or client hserver name
    cases hreply : replyOf MappingReflectionResponse x with
    | error error => exact hprepared
    | ok m =>
      rw [hreply] at hperforms htaken
      rw [← hreply, hreply, hperforms.eq_mergeMappings hreflects hserializes (htaken hreflects rfl),
        SyncClient.lookup_mergeMappings, SyncServer.lookup_mappings_reflectionResponse]
      cases hlookup : server.requestResponsePairs.lookup name with
      | none => rwa [hlookup] at hprepared
      | some response => exact .inr rfl
  | refused request h => exact .inl rfl
  | exchanged request h hexchange => exact .inl rfl

/-- **The pairs of a client**, after some calls: the server's, and all of them once the client has
reflected. -/
theorem Recorded.agrees (hserver : server.requestResponsePairs.lookup
      (fullName MappingReflectionRequest) = some (fullName MappingReflectionResponse))
    (hserializes : (serializeToString server.reflectionResponse).isSome)
    (h : Recorded client rs client') (hagrees : client.Agrees server)
    (hfits : ∀ rec ∈ rs, rec.outcome.call.Fits server)
    (htaken : client.clientOptions.validateReqResPairStrategy = .serverReflection →
      ∀ rec ∈ rs, rec.outcome = ⟨.connect, .ok ()⟩ →
        takenOf rec.io = wire.frame (makePayloadFromProto server.reflectionResponse)) :
    client'.Agrees server ∧
      (client.clientOptions.validateReqResPairStrategy = .serverReflection →
        ⟨.connect, .ok ()⟩ ∈ rs.map Record.outcome →
          ∀ name, client'.requestResponsePairs.lookup name =
            server.requestResponsePairs.lookup name) := by
  induction h with
  | nil => exact ⟨hagrees, nofun⟩
  | @concat rs call r client' client'' t hrs hcall ih =>
    rw [List.forall_mem_append] at hfits
    obtain ⟨hold, hall⟩ := ih hfits.1 fun hreflects rec hrec =>
      htaken hreflects rec (List.mem_append_left _ hrec)
    have hmem := List.mem_singleton_self (⟨⟨call, r⟩, t⟩ : Record)
    have hlast := fun hreflects => htaken hreflects _ (List.mem_append_right rs hmem)
    rw [← hrs.clientOptions] at hlast
    have hstep := hcall.lookup_eq_or hserver hserializes (hfits.2 _ hmem) hlast
    constructor
    · intro name
      rcases hstep name with hsame | hsame
      · rw [hsame]
        exact hold name
      · exact .inr hsame
    · intro hreflects hconnects name
      rw [List.map_append, List.mem_append] at hconnects
      rcases hconnects with hbefore | hnow
      · rcases hstep name with hsame | hsame
        · rw [hsame, hall hreflects hbefore name]
        · exact hsame
      · have houtcome : (⟨call, r⟩ : Outcome) = ⟨.connect, .ok ()⟩ :=
          (List.mem_singleton.mp hnow).symm
        cases houtcome
        rw [← hrs.clientOptions] at hreflects
        rw [hcall.eq_mergeMappings hreflects hserializes (hlast hreflects rfl)]
        exact hold.lookup_mergeMappings hserver name

end Calls

/-! ### Runs -/

variable [LawfulProtobuf]

/-- A response to a message is a message of the type that the server's pairs have for it. -/
theorem SyncServer.typed_response {server : SyncServer σ} (hresponses : server.KeepsSerializable)
    (hpairs : ∀ name, server.requestResponsePairs.lookup name =
      (server.handlers.lookup name).map GenericHandler.responseName)
    (msg : BaseProto) (hmsg : msg.Serializes) {state : σ} {payload : Bytes}
    (hok : (server.requestHandler msg.payload state).1 = .ok payload) :
    ∃ response : BaseProto, response.Serializes ∧ payload = response.payload ∧
      server.requestResponsePairs.lookup (fullName msg.1) = some (fullName response.1) := by
  rw [encodes_requestHandler server msg hmsg state] at hok
  cases hserve : (serve server.handlers.lookup server.requestResponsePairs msg state).1 with
  | error e =>
    rw [hserve] at hok
    cases hok
  | ok response =>
    rw [hserve] at hok
    obtain rfl := Except.ok.inj hok
    obtain ⟨g, m, r, hg, rfl, hr, rfl⟩ := serve_eq_ok hserve
    refine ⟨_, hresponses hg m hmsg state r hr, rfl, ?_⟩
    rw [hpairs, hg]
    rfl

namespace System

variable {ι : Type} {H : RequestHandler σ} {s₀ : σ} {apps : ι → Application} {s : System ι σ}
  {i : ι} {rec : Record}

/-- **A call that has come back with a response** has what the request handler made of its
request. -/
theorem Inv.handled (h : s.Inv H s₀ apps)
    (hshort : ∀ c, ∀ r ∈ s.server.world.own.responses c, r.length < 2 ^ 32)
    (hfinal : Final Io.Tears (s.party i).trace) (hmem : rec ∈ (s.party i).records)
    (hresponded : rec.outcome.Responded (apps i).client) :
    ∃ payload state response, rec.outcome.call.payload? = some payload ∧
      (H payload state).1 = .ok response ∧ takenOf rec.io = wire.frame response ∧
      rec.outcome.From response := by
  obtain ⟨n, hn⟩ := List.getElem?_of_mem hmem
  obtain ⟨c, k, response, hzip, hresult, hframe, hfrom⟩ := h.answered hshort hfinal hn hresponded
  obtain ⟨call, hcall, hpayload⟩ := h.invocation (hfinal.mono fun _ _ => .inl) hzip
  obtain ⟨start, hbook, -, -⟩ := (h.sound i).stands
  rw [hbook.call_eq hn] at hcall
  obtain rfl := Option.some.inj hcall
  refine ⟨k.request, k.state, response, hpayload, ?_, hframe, hfrom⟩
  rw [← h.own.1.results k (List.mem_of_mem_filter (List.of_mem_zip hzip).1), hresult]

/-- A client that has connected by reflection has taken the server's answer. -/
theorem Inv.taken_of_connect {server : SyncServer σ} (h : s.Inv server.requestHandler s₀ apps)
    (hreflection : server.handlers.lookup (fullName MappingReflectionRequest) =
      some SyncServer.reflection)
    (hfinal : Final Io.Tears (s.party i).trace)
    (hreflects : (apps i).client.clientOptions.validateReqResPairStrategy = .serverReflection)
    (hmem : rec ∈ (s.party i).records) (hconnects : rec.outcome = ⟨.connect, .ok ()⟩) :
    takenOf rec.io = wire.frame (makePayloadFromProto server.reflectionResponse) := by
  obtain ⟨payload, state, response, hpayload, hok, hframe, -⟩ :=
    h.handled (length_responses_lt h.own.1) hfinal hmem (hconnects ▸ .reflected hreflects)
  rw [hconnects] at hpayload
  obtain rfl := Option.some.inj hpayload
  rw [SyncServer.requestHandler_reflectionPayload hreflection] at hok
  rw [hframe, Except.ok.inj hok]

/-- The client, as it stands before one of the calls on record. -/
theorem Inv.client_before {server : SyncServer σ} (h : s.Inv server.requestHandler s₀ apps)
    (hreflection : server.handlers.lookup (fullName MappingReflectionRequest) =
      some SyncServer.reflection)
    (hserver : server.requestResponsePairs.lookup (fullName MappingReflectionRequest) =
      some (fullName MappingReflectionResponse))
    (hserializes : (serializeToString server.reflectionResponse).isSome)
    (hagrees : (apps i).client.Agrees server) (hfits : ∀ call ∈ (apps i).calls, call.Fits server)
    (hfinal : Final Io.Tears (s.party i).trace) {before after : List Record}
    (hrecords : (s.party i).records = before ++ rec :: after) :
    rec.outcome.call.Fits server ∧
      ∃ client client', Performs client rec.outcome.call rec.outcome.result client' rec.io ∧
        client.clientOptions = (apps i).client.clientOptions ∧ client.Agrees server ∧
        ((apps i).client.clientOptions.validateReqResPairStrategy = .serverReflection →
          ⟨.connect, .ok ()⟩ ∈ before.map Record.outcome →
            ∀ name, client.requestResponsePairs.lookup name =
              server.requestResponsePairs.lookup name) := by
  obtain ⟨start, hbook, -, -⟩ := (h.sound i).stands
  have hcalls : ∀ rec ∈ (s.party i).records, rec.outcome.call.Fits server := by
    intro rec hrec
    obtain ⟨j, hj⟩ := List.getElem?_of_mem hrec
    exact hfits _ (List.mem_of_getElem? (hbook.call_eq hj))
  have hbefore : before ⊆ (s.party i).records := by simp [hrecords]
  have hk : (s.party i).records[before.length]? = some rec := by simp [hrecords]
  obtain ⟨client, client', hrecorded, hperforms⟩ := hbook.recorded.split hk
  rw [hrecords, List.take_left] at hrecorded
  refine ⟨hcalls rec (List.mem_of_getElem? hk), client, client', hperforms, hrecorded.clientOptions,
    hrecorded.agrees hserver hserializes hagrees (fun rec hrec => hcalls rec (hbefore hrec)) ?_⟩
  intro hreflects rec hrec hconnects
  exact h.taken_of_connect hreflection hfinal hreflects (hbefore hrec) hconnects

/-- A request of a pair of the server is not answered with something else. -/
theorem Inv.parses {server : SyncServer σ} (h : s.Inv server.requestHandler s₀ apps)
    (hresponses : server.KeepsSerializable)
    (hpairs : ∀ name, server.requestResponsePairs.lookup name =
      (server.handlers.lookup name).map GenericHandler.responseName)
    (hfinal : Final Io.Tears (s.party i).trace) {RequestType ResponseType : Descriptor}
    {request : Message RequestType} (hrequest : (serializeToString request).isSome)
    (htyped : server.requestResponsePairs.lookup (fullName RequestType) =
      some (fullName ResponseType))
    {r : SyncClientResult (Message ResponseType)} {t : List Io}
    (hmem : ⟨⟨.sendRequest ResponseType request, r⟩, t⟩ ∈ (s.party i).records)
    {error : Error SyncClientError} (hr : r = .error error) :
    error.type ≠ .unableToParseReturnedProto := by
  intro hparse
  obtain ⟨payload, state, response, hpayload, hok, -, hfrom⟩ :=
    h.handled (length_responses_lt h.own.1) hfinal hmem (by rw [hr]; exact .unparsed _ _ hparse)
  obtain rfl := Option.some.inj hpayload
  obtain ⟨⟨T, m⟩, hm, rfl, hpair⟩ :=
    SyncServer.typed_response hresponses hpairs ⟨RequestType, request⟩ hrequest hok
  obtain rfl : ResponseType = T :=
    LawfulProtobuf.fullName_injective (Option.some.inj (htyped.symm.trans hpair))
  cases hfrom with
  | answered _ _ =>
    rw [replyOf_makePayloadFromProto hm] at hr
    cases hr

end System

variable {ι : Type} [DecidableEq ι]

/-- **Calls are type safe.** In every run of a server and any number of clients, with any order of
steps, failures and ends of processes, take a client that validates, sends nothing after a torn
frame, and has no pair registered by hand that is not the server's; what it sends can be serialized,
and so can what handlers return, and no handler overrides the one of reflection. The client refuses
every request whose types are no pair of the server, without a word. It never gets a response that
it cannot read. And once it has reflected the server's pairs, it refuses no others: a request of a
pair of the server brings a message of the type asked for, unless the connection fails. -/
theorem calls_type_safe (strategy : DuplicateRequestResponsePairRegistrationStrategy)
    (h : List (GenericHandler σ))
    (hreflection : (SyncServer.registered strategy h).handlers.lookup
      (fullName MappingReflectionRequest) = some SyncServer.reflection)
    (hresponses : (SyncServer.registered strategy h).KeepsSerializable)
    (s₀ : σ) (apps : ι → Application) (es : List (SystemEvent ι)) (i : ι)
    (hvalidates : (apps i).client.clientOptions.validateReqResPairStrategy ≠ .noValidation)
    (hagrees : (apps i).client.Agrees (SyncServer.registered strategy h))
    (hfits : ∀ call ∈ (apps i).calls, call.Fits (SyncServer.registered strategy h))
    (hfinal : Final Io.Tears
      ((systemRun (SyncServer.registered strategy h).requestHandler s₀ apps es).party i).trace)
    (before after : List Record) {t : List Io} {RequestType ResponseType : Descriptor}
    {request : Message RequestType} {r : SyncClientResult (Message ResponseType)}
    (hrecords : ((systemRun (SyncServer.registered strategy h).requestHandler s₀ apps es).party
      i).records = before ++ ⟨⟨.sendRequest ResponseType request, r⟩, t⟩ :: after) :
    let typed := (SyncServer.registered strategy h).requestResponsePairs.lookup
      (fullName RequestType) = some (fullName ResponseType)
    (¬typed → t = [] ∧ ∃ error, r = .error error ∧ error.type = .badRequestToResponsePair) ∧
      (∀ error, r = .error error → error.type ≠ .unableToParseReturnedProto) ∧
      ((apps i).client.clientOptions.validateReqResPairStrategy = .serverReflection →
        ⟨.connect, .ok ()⟩ ∈ before.map Record.outcome → typed → ∀ error, r = .error error →
          error.type = .unableToSendMessage ∨ error.type = .unableToReceiveMessage) := by
  intro typed
  have hinv := systemRun_inv (SyncServer.registered strategy h).requestHandler s₀ apps es
  have hpairs : ∀ name, (SyncServer.registered strategy h).requestResponsePairs.lookup name =
      ((SyncServer.registered strategy h).handlers.lookup name).map
        GenericHandler.responseName := by
    rw [SyncServer.registered_eq]
    exact SyncServer.lookup_requestResponsePairs_eq _
  have hserver : (SyncServer.registered strategy h).requestResponsePairs.lookup
      (fullName MappingReflectionRequest) = some (fullName MappingReflectionResponse) := by
    rw [hpairs, hreflection]
    rfl
  have hserializes : (serializeToString
      (SyncServer.registered strategy h).reflectionResponse).isSome :=
    hresponses hreflection mappingReflectionRequest
      LawfulProtobuf.serialize_mappingReflectionRequest s₀ _ rfl
  obtain ⟨hrequest, client, client', hperforms, hoptions, hold, hall⟩ :=
    hinv.client_before hreflection hserver hserializes hagrees hfits hfinal hrecords
  have hmem : (⟨⟨.sendRequest ResponseType request, r⟩, t⟩ : Record) ∈ before ++ _ :: after :=
    List.mem_append_right _ List.mem_cons_self
  rw [← hrecords] at hmem
  have hvalid : client.validate RequestType ResponseType = .ok () ↔ _ :=
    SyncClient.validate_eq_ok_iff (by rwa [hoptions]) RequestType ResponseType
  cases hperforms with
  | @refused _ _ _ error hinvalid =>
    have htype := SyncClient.type_of_validate hinvalid
    refine ⟨fun _ => ⟨rfl, error, rfl, htype⟩, ?_, ?_⟩
    · intro error' hr
      rw [← Except.error.inj hr, htype]
      decide
    · intro hreflects hconnects htyped
      rw [hvalid.mpr ((hall hreflects hconnects _).trans htyped)] at hinvalid
      cases hinvalid
  | @exchanged _ _ _ x t hvalidated hexchange =>
    have htyped : typed := by
      have hlookup := hvalid.mp hvalidated
      exact ((hold _).resolve_left (by simp [hlookup])).symm.trans hlookup
    have hparses : ∀ error, replyOf ResponseType x = .error error →
        error.type ≠ .unableToParseReturnedProto := by
      intro error hr
      exact hinv.parses hresponses hpairs hfinal hrequest htyped hmem hr
    refine ⟨fun hno => absurd htyped hno, hparses, ?_⟩
    intro _ _ _ error hr
    rcases replyOf_eq_error hr with rfl | hparse
    · exact hexchange.type_of_socket
    · exact absurd hparse (hparses error hr)

end

namespace TestProto

/-- The first application validates by reflection, and expects the wrong type the second time. -/
def learners : Bool → Application
  | true => { client := { clientOptions := {} }, calls := [.connect, greet (str "a"), mistaken] }
  | false => applications false

/-- The first application makes its calls while the greeting of the second waits. -/
def reflectingTurns : List (SystemEvent Bool) :=
  partyTurns true 3 ++ partyTurns false 4 ++ daemonTurns 12 ++ partyTurns true 5 ++
    daemonTurns 12 ++ partyTurns true 3

/-- The first application has learnt from the server that greetings are answered with greetings. -/
theorem calls_type_safe_reflectingTurns :
    let s := systemRun (SyncServer.registered .silentIgnore [echo]).requestHandler () learners
      reflectingTurns
    ∃ rec, (s.party true).records[2]? = some rec ∧ rec.outcome.call = mistaken ∧ rec.io = [] := by
  intro s
  obtain ⟨start, hbook, -, -⟩ := ((systemRun_inv (SyncServer.registered .silentIgnore
    [echo]).requestHandler () learners reflectingTurns).sound true).stands
  have hlength : (s.party true).records.length = 3 := by decide +kernel
  obtain ⟨rec₁, rec₂, ⟨⟨call, r⟩, t⟩, hrecords⟩ := List.length_eq_three.mp hlength
  have hk : (s.party true).records[2]? = some ⟨⟨call, r⟩, t⟩ := by
    rw [hrecords]
    rfl
  obtain rfl : mistaken = call := Option.some.inj (hbook.call_eq hk)
  have hreflection : (SyncServer.registered .silentIgnore [echo]).handlers.lookup
      (fullName MappingReflectionRequest) = some SyncServer.reflection := by
    rw [SyncServer.registered_eq]
    exact SyncServer.lookup_handlers_reflection (by decide)
  obtain ⟨hrefused, -⟩ := calls_type_safe .silentIgnore [echo] hreflection
    keepsSerializable_echo () learners reflectingTurns true (by decide) (fun _ => .inl rfl)
    (by decide +kernel) (by decide +kernel) [rec₁, rec₂] [] hrecords
  exact ⟨_, hk, rfl, (hrefused (by decide +kernel)).1⟩

end TestProto

end InterProcessCourier
