import InterProcessCourier.Atomicity
import InterProcessCourier.Dispatch
import InterProcessCourier.Opening

/-!
# Calls of typed messages

What a server is for, without payloads, frames, sockets and threads: a message of a type goes to the
handler in effect for that type, and what the handler returns comes back. That is `serve`, an object
that takes one message at a time. The request handler of a server is this object behind the payload
codec, and every run of a server and its clients, seen through the messages that the calls were
given and gave back, is linearizable for it, as long as these can be serialized.

## Main definitions

* `serve` — the object
* `typedHistory` — what is observed of the calls of a run, in messages

## Main results

* `encodes_requestHandler` — the request handler is `serve`, behind the codec
* `typed_calls_linearizable` — all calls are served one after another
-/

namespace InterProcessCourier

open Interaction Linearization Precedence

section

variable [Protobuf] {ι σ : Type}

/-- The message that a call sends, unless it is refused or fails. -/
def ClientCall.request? : ClientCall → Option BaseProto
  | registerRequestResponsePair _ _ => none
  | connect => some ⟨MappingReflectionRequest, mappingReflectionRequest⟩
  | sendRequest _ request => some ⟨_, request⟩

theorem ClientCall.payload?_eq (call : ClientCall) :
    call.payload? = call.request?.map fun msg => makePayloadFromProto msg.2 := by
  cases call <;> rfl

/-- The object that a server makes of its handlers: a message goes to the handler for its type. -/
def serve (handlerOf : Bytes → Option (GenericHandler σ))
    (requestResponsePairs : UnorderedMap Bytes) (msg : BaseProto) :
    Method σ BaseProto := fun state =>
  match handlerOf (fullName msg.1) with
  | none =>
    (.error (.runtimeError (str "Error while accepting message: " ++
      Error.format SyncServerError.toText ⟨.handlerNotRegistered,
        str "No handler for " ++ fullName msg.1 ++ str " registered"⟩)), state)
  | some g =>
    if h : msg.1 = g.RequestType then
      let (response, state') := g.handler (h ▸ msg.2) requestResponsePairs state
      (response.map fun r => ⟨g.ResponseType, r⟩, state')
    else (.error .undefinedBehaviour, state)

/-- The payload of a message. -/
abbrev BaseProto.payload (msg : BaseProto) : Bytes := makePayloadFromProto msg.2

/-- The message can be serialized. -/
abbrev BaseProto.Serializes (msg : BaseProto) : Prop := (serializeToString msg.2).isSome

/-- A message that can be serialized is only answered by such messages. -/
def SyncServer.KeepsSerializable (server : SyncServer σ) : Prop :=
  ∀ {name g}, server.handlers.lookup name = some g → ∀ m, (serializeToString m).isSome →
    ∀ s r, (g.handler m server.requestResponsePairs s).1 = .ok r → (serializeToString r).isSome

/-- **The request handler is the object, behind the codec.** -/
theorem encodes_requestHandler [LawfulProtobuf] (server : SyncServer σ) :
    Encodes server.requestHandler (serve server.handlers.lookup server.requestResponsePairs)
      BaseProto.payload (Except.map BaseProto.payload) BaseProto.Serializes := by
  intro msg hmsg state
  have hdecode : makeBaseProtoFromPayload msg.payload = .ok msg :=
    makeBaseProtoFromPayload_makePayloadFromProto hmsg
  simp only [SyncServer.requestHandler, SyncServer.acceptMessage, hdecode, serve]
  cases hlookup : server.handlers.lookup (fullName msg.1) with
  | none => rfl
  | some g =>
    simp only [GenericHandler.invoke]
    split_ifs with htype
    · cases (g.handler (htype ▸ msg.2) server.requestResponsePairs state).1 <;> rfl
    · rfl

/-- What the object returns, the handler for the type has returned. -/
theorem serve_eq_ok {handlerOf : Bytes → Option (GenericHandler σ)} {pairs : UnorderedMap Bytes}
    {msg response : BaseProto} {state : σ}
    (h : (serve handlerOf pairs msg state).1 = .ok response) :
    ∃ g m r, handlerOf (fullName msg.1) = some g ∧ msg = ⟨g.RequestType, m⟩ ∧
      (g.handler m pairs state).1 = .ok r ∧ response = ⟨g.ResponseType, r⟩ := by
  obtain ⟨T, m⟩ := msg
  rw [serve] at h
  cases hlookup : handlerOf (fullName T) with
  | none => simp [hlookup] at h
  | some g =>
    simp only [hlookup] at h
    split_ifs at h with htype
    subst htype
    cases hresult : (g.handler m pairs state).1 with
    | ok r =>
      simp only [hresult, Except.map] at h
      exact ⟨g, m, r, rfl, rfl, hresult, (Except.ok.inj h).symm⟩
    | error e => simp [hresult, Except.map] at h

/-- The result of the call is what it makes of this message. -/
inductive Outcome.Of (response : BaseProto) : Outcome → Prop
  | reflected (h : response.1 = MappingReflectionResponse) : Of response ⟨.connect, .ok ()⟩
  | value {RequestType ResponseType : Descriptor} (request : Message RequestType)
    (message : Message ResponseType) (h : response = ⟨ResponseType, message⟩) :
    Of response ⟨.sendRequest ResponseType request, .ok message⟩
  | otherType {RequestType ResponseType : Descriptor} (request : Message RequestType)
    (error : Error SyncClientError) (h : response.1 ≠ ResponseType) :
    Of response ⟨.sendRequest ResponseType request, .error error⟩

/-- What a call makes of the payload of a message. -/
theorem Outcome.From.of [LawfulProtobuf] {response : BaseProto} (hresponse : response.Serializes)
    {client : SyncClient} {o : Outcome} (h : o.From response.payload)
    (hresponded : o.Responded client) : o.Of response := by
  have hdecode : ∀ {T : Descriptor} {m : Message T},
      replyOf T (.ok response.payload) = .ok m → response = ⟨T, m⟩ := by
    intro T m hreply
    obtain ⟨payload, hpayload, hparse⟩ := replyOf_eq_ok_iff.mp hreply
    obtain rfl := Except.ok.inj hpayload
    have hcarries :=
      makeBaseProtoFromPayload_eq_ok_iff.mpr (makeProtoFromPayload_eq_ok_iff.mp hparse)
    rw [makeBaseProtoFromPayload_makePayloadFromProto hresponse] at hcarries
    exact Except.ok.inj hcarries
  cases h with
  | reflected client' =>
    generalize hresult : (client'.reflected _).1 = result at hresponded
    cases hresponded with
    | reflected hreflects =>
      cases hreply : replyOf MappingReflectionResponse (.ok response.payload) with
      | error error => simp [hreply, SyncClient.reflected] at hresult
      | ok m => exact .reflected (congrArg Sigma.fst (hdecode hreply))
  | @answered R S request =>
    cases hreply : replyOf S (.ok response.payload) with
    | ok m => exact .value request m (hdecode hreply)
    | error error =>
      refine .otherType request error ?_
      rintro rfl
      rw [replyOf_makePayloadFromProto hresponse] at hreply
      cases hreply

variable [DecidableEq ι]

/-- What is observed of the calls of a run, in messages. -/
def typedHistory (H : RequestHandler σ) (s₀ : σ) (apps : ι → Application)
    (es : List (SystemEvent ι)) : History (ι × ℕ) BaseProto (Except Exception BaseProto) where
  invoked := (systemHistory H s₀ apps es).invoked
  returned := (systemHistory H s₀ apps es).returned
  input op msg := ∃ call, (apps op.1).calls[op.2]? = some call ∧ call.request? = some msg
  output op out := ∃ rec response, ((systemRun H s₀ apps es).party op.1).records[op.2]? = some rec ∧
    out = .ok response ∧ rec.outcome.Of response

/-- **Calls of typed messages are served one after another.** Of a server with these registrations
and any number of clients, whose messages can all be serialized, in every run, with any order of
steps, failures and ends of processes, in which no client sends anything after a torn frame: the
calls of all clients can be put in one order, each between its beginning and its return, in which
the handlers in effect, given one message after another, return to every call that has come back
with a response the message that it gives back, or one of another type than it asked for. The
request handler was given the payloads of these messages, in this order, and no others. A call that
ended without a response counts as one that has not returned. -/
theorem typed_calls_linearizable [LawfulProtobuf]
    (strategy : DuplicateRequestResponsePairRegistrationStrategy) (h : List (GenericHandler σ))
    (s₀ : σ) (apps : ι → Application) (es : List (SystemEvent ι))
    (hrequests : ∀ i, ∀ call ∈ (apps i).calls, ∀ msg, call.request? = some msg → msg.Serializes)
    (hresponses : (SyncServer.registered strategy h).KeepsSerializable)
    (hfinal : ∀ i, Final Io.Tears
      ((systemRun (SyncServer.registered strategy h).requestHandler s₀ apps es).party i).trace) :
    let server := SyncServer.registered strategy h
    let handlerOf := effective strategy.overrides
      ((SyncServer.reflection :: h).map fun g => (g.requestName, g))
    ∃ order, Linearizes (serve handlerOf server.requestResponsePairs) s₀
        (typedHistory server.requestHandler s₀ apps es) es.length order ∧
      order.map (fun x => (x.2.1.payload, x.2.2.map BaseProto.payload)) =
        (systemRun server.requestHandler s₀ apps es).server.world.own.calls.map fun k =>
          (k.request, k.result) := by
  intro server handlerOf
  have hhandlerOf : handlerOf = server.handlers.lookup := by
    funext name
    rw [show server = _ from SyncServer.registered_eq strategy h,
      SyncServer.lookup_handlers_ofHistory]
  obtain ⟨order, hlinearizes, horder⟩ := (systemRun_serialized server s₀ apps es hfinal).linearizes
  rw [systemAt, List.take_length] at horder
  have hinput : ∀ op payload, (systemHistory server.requestHandler s₀ apps es).input op payload →
      ∃ msg : BaseProto, msg.Serializes ∧ msg.payload = payload ∧
        (typedHistory server.requestHandler s₀ apps es).input op msg := by
    rintro op payload ⟨call, hcall, hpayload⟩
    rw [ClientCall.payload?_eq] at hpayload
    obtain ⟨msg, hmsg, rfl⟩ := Option.map_eq_some_iff.mp hpayload
    exact ⟨msg, hrequests op.1 call (List.mem_of_getElem? hcall) msg hmsg, rfl, call, hcall, hmsg⟩
  have houtput : ∀ op msg s, (typedHistory server.requestHandler s₀ apps es).returned es.length op →
      msg.Serializes →
      (systemHistory server.requestHandler s₀ apps es).output op
        ((serve server.handlers.lookup server.requestResponsePairs msg s).1.map BaseProto.payload) →
      (typedHistory server.requestHandler s₀ apps es).output op
        (serve server.handlers.lookup server.requestResponsePairs msg s).1 := by
    rintro op msg s ⟨rec', hrec', hresponded⟩ hmsg ⟨rec, payload, hrec, hout, hfrom⟩
    rw [systemAt, List.take_length, hrec] at hrec'
    obtain rfl := Option.some.inj hrec'
    cases hserve : (serve server.handlers.lookup server.requestResponsePairs msg s).1 with
    | error e =>
      rw [hserve] at hout
      cases hout
    | ok response =>
      rw [hserve] at hout
      obtain rfl : response.payload = payload := Except.ok.inj hout
      obtain ⟨g, m, r, hg, rfl, hr, rfl⟩ := serve_eq_ok hserve
      exact ⟨rec, _, hrec, rfl, hfrom.of (hresponses hg m hmsg s r hr) hresponded⟩
  obtain ⟨order', hlinearizes', hencoded⟩ := hlinearizes.decode (encodes_requestHandler server)
    (fun n op => Iff.rfl) (fun n op => id) hinput houtput
  rw [hhandlerOf]
  refine ⟨order', hlinearizes', ?_⟩
  rw [← horder, ← hencoded, List.map_map]
  rfl

end

namespace TestProto

/-- What is echoed could be serialized before. -/
theorem keepsSerializable_echo :
    (SyncServer.registered .silentIgnore [echo]).KeepsSerializable := by
  intro name g hg m hm s r hr
  rw [SyncServer.registered_eq] at hg
  rcases List.mem_pair.mp (SyncServer.mem_of_lookup_handlers hg).1 with rfl | rfl
  · obtain rfl := Except.ok.inj hr
    decide +kernel
  · obtain rfl := Except.ok.inj hr
    exact hm

/-- What the two applications send can be serialized. -/
theorem serializes_applications (i : Bool) (call : ClientCall)
    (hcall : call ∈ (applications i).calls) (msg : BaseProto) (hmsg : call.request? = some msg) :
    msg.Serializes := by
  have hreflection : BaseProto.Serializes ⟨MappingReflectionRequest, mappingReflectionRequest⟩ := by
    decide
  have hgreeting : ∀ text ∈ [str "a", str "b"],
      BaseProto.Serializes ⟨TestType.helloWorld, ({ message := text } : HelloWorld)⟩ := by
    decide
  cases i with
  | true =>
    rcases List.mem_pair.mp hcall with rfl | rfl
    · obtain rfl := Option.some.inj hmsg
      exact hreflection
    · obtain rfl := Option.some.inj hmsg
      exact hgreeting _ (by simp)
  | false =>
    rcases List.mem_pair.mp hcall with rfl | rfl
    · obtain rfl := Option.some.inj hmsg
      exact hreflection
    · obtain rfl := Option.some.inj hmsg
      exact hgreeting _ (by simp)

/-- The two greetings have gone through the echoing handler, one after the other. -/
theorem typed_calls_linearizable_greetingsRun :
    ∃ order, Linearizes (serve (effective
          DuplicateRequestResponsePairRegistrationStrategy.silentIgnore.overrides
          ([SyncServer.reflection, echo].map fun g => (g.requestName, g)))
        (SyncServer.registered .silentIgnore [echo]).requestResponsePairs) ()
        (typedHistory (SyncServer.registered .silentIgnore [echo]).requestHandler () applications
          greetingsRun) greetingsRun.length order ∧
      order.map (fun x => (x.2.1.payload, x.2.2.map BaseProto.payload)) =
        [(greetingOf (str "a"), .ok (greetingOf (str "a"))),
          (greetingOf (str "b"), .ok (greetingOf (str "b")))] := by
  obtain ⟨order, hlinearizes, horder⟩ := typed_calls_linearizable .silentIgnore [echo] ()
    applications greetingsRun serializes_applications keepsSerializable_echo (by decide +kernel)
  exact ⟨order, hlinearizes, horder.trans calls_greetingsRun⟩

end TestProto

end InterProcessCourier
