import InterProcessCourier.Decoding
import InterProcessCourier.Registration

/-!
# Dispatch

What the request handler of a server does with a payload: the payload either dispatches to the
handler that is registered for the type it decodes to, or is rejected by an exception and changes
nothing. Which of the two it is depends on the payload and the registry alone.

To say which handlers run, `SyncServer.recorded` has every stored closure note its invocations.

## Main results

* `requestHandler_of_dispatches`, `requestHandler_of_not_accepts` — the two outcomes
* `acceptMessage_exact` — which handler runs, on what, and what a failure says
-/

namespace InterProcessCourier

open Precedence

namespace SyncServer

section

variable [Protobuf] {σ : Type}

/-- The payload decodes to `m`, and `g` is the handler registered for the type of `m`. -/
structure Dispatches (server : SyncServer σ) (payload : Bytes) (g : GenericHandler σ)
    (m : Message g.RequestType) : Prop where
  decodes : makeBaseProtoFromPayload payload = .ok ⟨g.RequestType, m⟩
  stored : server.handlers.lookup g.requestName = some g

/-- The payload decodes to a message of a registered type. -/
def Accepts (server : SyncServer σ) (payload : Bytes) : Prop :=
  ∃ g m, server.Dispatches payload g m

/-- The payload decodes to a message of a registered type, and if its handler raises, then a
`boost::system::system_error`. -/
def Contains (server : SyncServer σ) (payload : Bytes) (state : σ) : Prop :=
  ∃ g m, server.Dispatches payload g m ∧
    ∀ e, (g.handler m server.requestResponsePairs state).1 = .error e → e.systemError?.isSome

variable {server : SyncServer σ} {payload : Bytes}

theorem acceptMessage_of_dispatches {g : GenericHandler σ} {m : Message g.RequestType}
    (h : server.Dispatches payload g m) (state : σ) :
    server.acceptMessage payload state =
      (((g.handler m server.requestResponsePairs state).1.map makePayloadFromProto).map .ok,
        (g.handler m server.requestResponsePairs state).2) := by
  simp only [acceptMessage, h.decodes, h.stored, GenericHandler.invoke, dif_pos]

/-- **A payload that dispatches is answered by its handler.** -/
theorem requestHandler_of_dispatches {g : GenericHandler σ} {m : Message g.RequestType}
    (h : server.Dispatches payload g m) (state : σ) :
    server.requestHandler payload state =
      ((g.handler m server.requestResponsePairs state).1.map makePayloadFromProto,
        (g.handler m server.requestResponsePairs state).2) := by
  rw [requestHandler, acceptMessage_of_dispatches h]
  cases (g.handler m server.requestResponsePairs state).1 <;> rfl

/-- A response is the payload of a message. -/
theorem requestHandler_eq_ok {state : σ} {response : Bytes}
    (h : (server.requestHandler payload state).1 = .ok response) :
    ∃ (T : Descriptor) (m : Message T), response = makePayloadFromProto m := by
  rw [requestHandler, acceptMessage] at h
  cases hdecode : makeBaseProtoFromPayload payload with
  | error error => simp [hdecode] at h
  | ok msg =>
    cases hlookup : server.handlers.lookup (fullName msg.1) with
    | none => simp [hdecode, hlookup] at h
    | some g =>
      simp only [hdecode, hlookup, GenericHandler.invoke] at h
      split_ifs at h with htype
      · cases hresult : (g.handler (htype ▸ msg.2) server.requestResponsePairs state).1 with
        | error e => simp [hresult, Except.map] at h
        | ok m =>
          simp only [hresult, Except.map] at h
          exact ⟨_, m, (Except.ok.inj h).symm⟩
      · cases h

/-- **Any other payload is rejected.** -/
theorem requestHandler_of_not_accepts [LawfulProtobuf]
    {strategy : DuplicateRequestResponsePairRegistrationStrategy} {h : List (GenericHandler σ)}
    (hno : ¬(ofHistory strategy h).Accepts payload) (state : σ) :
    ∃ what, (ofHistory strategy h).requestHandler payload state =
      (.error (.runtimeError what), state) := by
  rw [requestHandler, acceptMessage]
  cases hdecode : makeBaseProtoFromPayload payload with
  | error error => exact ⟨_, rfl⟩
  | ok msg =>
    cases hlookup : (ofHistory strategy h).handlers.lookup (fullName msg.1) with
    | none =>
      simp only [hlookup]
      exact ⟨_, rfl⟩
    | some g =>
      obtain ⟨T, m⟩ := msg
      obtain ⟨-, hname⟩ := mem_of_lookup_handlers hlookup
      obtain rfl : g.RequestType = T := LawfulProtobuf.fullName_injective hname
      exact absurd ⟨g, m, hdecode, hlookup⟩ hno

end

end SyncServer

section

variable [Protobuf] {σ : Type}

/-! ### Which handler runs -/

/-- An invocation of a handler, with the message it was given. -/
abbrev Invocation (σ : Type) := GenericHandler σ × BaseProto

/-- The closure, with its invocations on record. -/
def GenericHandler.recorded (g : GenericHandler σ) :
    GenericHandler (σ × List (Invocation σ)) where
  RequestType := g.RequestType
  ResponseType := g.ResponseType
  handler := fun m requestResponsePairs state =>
    let (response, after) := g.handler m requestResponsePairs state.1
    (response, (after, state.2 ++ [(g, ⟨g.RequestType, m⟩)]))

namespace SyncServer

/-- The server, with the invocations of its handlers on record. -/
def recorded (server : SyncServer σ) : SyncServer (σ × List (Invocation σ)) where
  duplicateRegistrationStrategy := server.duplicateRegistrationStrategy
  handlers := ⟨server.handlers.entries.map (.map id fun _ => GenericHandler.recorded), by
    rw [List.NodupKeys, List.keys, List.map_map]
    exact server.handlers.nodupKeys⟩
  requestResponsePairs := server.requestResponsePairs

theorem lookup_recorded (server : SyncServer σ) (name : Bytes) :
    server.recorded.handlers.lookup name =
      (server.handlers.lookup name).map GenericHandler.recorded :=
  List.dlookup_map₂ name

variable {server : SyncServer σ} {payload : Bytes}

/-- A payload that dispatches runs its handler, once. -/
theorem recorded_of_dispatches {g : GenericHandler σ} {m : Message g.RequestType}
    (h : server.Dispatches payload g m) (state : σ) :
    (server.recorded.acceptMessage payload (state, [])).2.2 = [(g, ⟨g.RequestType, m⟩)] := by
  have hrecorded : server.recorded.Dispatches payload g.recorded m :=
    ⟨h.decodes, by rw [lookup_recorded, show g.recorded.requestName = g.requestName from rfl,
      h.stored, Option.map_some]⟩
  rw [acceptMessage_of_dispatches hrecorded]
  rfl

/-- What a server does with a payload whose handler returns. -/
theorem recorded_of_returns {g : GenericHandler σ} {m : Message g.RequestType}
    (h : server.Dispatches payload g m) {state : σ}
    (hreturns : ∃ r, (g.handler m server.requestResponsePairs state).1 = .ok r) :
    ∃ response, (server.recorded.acceptMessage payload (state, [])).2.2 =
        [(g, ⟨g.RequestType, m⟩)] ∧
      g.handler m server.requestResponsePairs state =
        (.ok response, (server.acceptMessage payload state).2) ∧
      (server.acceptMessage payload state).1 = .ok (.ok (makePayloadFromProto response)) := by
  obtain ⟨response, hresponse⟩ := hreturns
  have haccepted : server.acceptMessage payload state = (.ok (.ok (makePayloadFromProto response)),
      (g.handler m server.requestResponsePairs state).2) := by
    refine (acceptMessage_of_dispatches h state).trans ?_
    rw [hresponse]
    rfl
  refine ⟨response, recorded_of_dispatches h state, ?_, by rw [haccepted]⟩
  rw [haccepted, ← hresponse]

/-- A message of a type with a handler, a message of a type without one, or no message. -/
theorem carries_cases (handlerOf : Bytes → Option (GenericHandler σ)) (payload : Bytes) :
    (∃ T m g, Carries payload ⟨T, m⟩ ∧ handlerOf (fullName T) = some g) ∨
      (∃ msg, Carries payload msg ∧ handlerOf (fullName msg.1) = none) ∨
      ¬∃ msg, Carries payload msg := by
  by_cases hcarried : ∃ msg, Carries payload msg
  · obtain ⟨⟨T, m⟩, hcarries⟩ := hcarried
    cases hg : handlerOf (fullName T) with
    | none => exact .inr (.inl ⟨⟨T, m⟩, hcarries, hg⟩)
    | some g => exact .inl ⟨T, m, g, hcarries, hg⟩
  · exact .inr (.inr hcarried)

/-- What the reflection handler answers. -/
def reflectionResponse (server : SyncServer σ) : Message MappingReflectionResponse :=
  ofMappings (server.requestResponsePairs.entries.foldl emplace ∅)

variable [LawfulProtobuf]

theorem lookup_mappings_reflectionResponse (server : SyncServer σ) (name : Bytes) :
    (mappings server.reflectionResponse).lookup name = server.requestResponsePairs.lookup name := by
  have hemplace : emplace = fun m (b : (_ : Bytes) × Bytes) => put false m b.1 b.2 := by
    funext m b
    simp [emplace, put]
  rw [reflectionResponse, LawfulProtobuf.lookup_mappings_ofMappings, hemplace, lookup_foldl_put]
  simp

/-- A payload of a type without a handler. -/
theorem acceptMessage_of_carries {msg : BaseProto} (hcarries : Carries payload msg)
    (hnone : server.handlers.lookup (fullName msg.1) = none) (state : σ) :
    server.acceptMessage payload state = (.ok (.error ⟨.handlerNotRegistered,
      str "No handler for " ++ fullName msg.1 ++ str " registered"⟩), state) := by
  rw [acceptMessage, makeBaseProtoFromPayload_eq_ok_iff.mpr hcarries]
  simp only [hnone]

/-- No handler runs on it. -/
theorem recorded_of_carries {msg : BaseProto} (hcarries : Carries payload msg)
    (hnone : server.handlers.lookup (fullName msg.1) = none) (state : σ) :
    (server.recorded.acceptMessage payload (state, [])).2.2 = [] := by
  have hnone' : server.recorded.handlers.lookup (fullName msg.1) = none := by
    rw [lookup_recorded, hnone, Option.map_none]
  rw [acceptMessage_of_carries hcarries hnone']

/-- A byte string that is no payload of a message. -/
theorem acceptMessage_of_not_carries (hno : ¬∃ msg, Carries payload msg) (server : SyncServer σ) :
    ∃ text, ∀ state, server.acceptMessage payload state =
      (.ok (.error ⟨.unableToDeserializeMessage, text⟩), state) := by
  cases hdecode : makeBaseProtoFromPayload payload with
  | ok msg => exact absurd ⟨msg, makeBaseProtoFromPayload_eq_ok_iff.mp hdecode⟩ hno
  | error error => exact ⟨error.message, fun state => by rw [acceptMessage, hdecode]⟩

/-- **Dispatch is exact.** Of a server with these registrations, a payload that carries a message of
a registered type runs the effective handler of the type, once, on that message, and is answered by
the payload of what the handler returns, under the name that reflection reports; any other payload
runs no handler and changes nothing, and the error says whether it carries a message at all. -/
theorem acceptMessage_exact (strategy : DuplicateRequestResponsePairRegistrationStrategy)
    (h : List (GenericHandler σ))
    (hreturns : ∀ g ∈ h, ∀ m pairs state, ∃ r, (g.handler m pairs state).1 = .ok r)
    (payload : Bytes) (state : σ) :
    let server := registered strategy h
    let handlerOf := effective strategy.overrides
      ((reflection :: h).map fun g => (g.requestName, g))
    let accepted := server.acceptMessage payload state
    let invoked := (server.recorded.acceptMessage payload (state, [])).2.2
    (∀ T m, Carries payload ⟨T, m⟩ → ∀ g, handlerOf (fullName T) = some g →
      ∃ (hT : g.RequestType = T) (response : Message g.ResponseType) (name data : Bytes),
        invoked = [(g, ⟨T, m⟩)] ∧
        g.handler (hT ▸ m) server.requestResponsePairs state = (.ok response, accepted.2) ∧
        accepted.1 = .ok (.ok (makePayloadFromProto response)) ∧
        makePayloadFromProto response = createProtoPayload name data ∧ delimiter ∉ name ∧
        (mappings server.reflectionResponse).lookup (fullName T) = some name) ∧
    ((¬∃ msg g, Carries payload msg ∧ handlerOf (fullName msg.1) = some g) →
      invoked = [] ∧ accepted.2 = state ∧ ∃ error, accepted.1 = .ok (.error error)) ∧
    ((∃ text, accepted.1 = .ok (.error ⟨.handlerNotRegistered, text⟩)) ↔
      ∃ msg, Carries payload msg ∧ handlerOf (fullName msg.1) = none) ∧
    ((∃ text, accepted.1 = .ok (.error ⟨.unableToDeserializeMessage, text⟩)) ↔
      ¬∃ msg, Carries payload msg) := by
  intro server handlerOf accepted invoked
  have hhandlerOf : ∀ name, handlerOf name = server.handlers.lookup name := fun name => by
    rw [show server = _ from registered_eq strategy h, lookup_handlers_ofHistory]
  have hpairs : ∀ name, server.requestResponsePairs.lookup name =
      (server.handlers.lookup name).map GenericHandler.responseName := fun name => by
    rw [show server = _ from registered_eq strategy h, lookup_requestResponsePairs_eq]
  have hstored : ∀ {name g}, server.handlers.lookup name = some g →
      g ∈ reflection :: h ∧ g.requestName = name := fun hg => by
    rw [show server = _ from registered_eq strategy h] at hg
    exact mem_of_lookup_handlers hg
  -- a message is carried, and its type has a handler
  have hdispatches : ∀ T m, Carries payload ⟨T, m⟩ → ∀ g, handlerOf (fullName T) = some g →
      ∃ (hT : g.RequestType = T) (response : Message g.ResponseType),
        invoked = [(g, ⟨T, m⟩)] ∧
        g.handler (hT ▸ m) server.requestResponsePairs state = (.ok response, accepted.2) ∧
        accepted.1 = .ok (.ok (makePayloadFromProto response)) := by
    intro T m hcarries g hg
    rw [hhandlerOf] at hg
    obtain ⟨hmem, hname⟩ := hstored hg
    obtain rfl := LawfulProtobuf.fullName_injective hname
    refine ⟨rfl, recorded_of_returns ⟨makeBaseProtoFromPayload_eq_ok_iff.mpr hcarries, hg⟩ ?_⟩
    rcases List.mem_cons.mp hmem with rfl | hmem
    · exact ⟨_, rfl⟩
    · exact hreturns g hmem m _ state
  -- a message is carried, and its type has none
  have hunregistered : ∀ msg, Carries payload msg → handlerOf (fullName msg.1) = none →
      invoked = [] ∧ accepted = (.ok (.error ⟨.handlerNotRegistered,
        str "No handler for " ++ fullName msg.1 ++ str " registered"⟩), state) := by
    intro msg hcarries hnone
    rw [hhandlerOf] at hnone
    exact ⟨recorded_of_carries hcarries hnone state, acceptMessage_of_carries hcarries hnone state⟩
  -- no message is carried
  have hunreadable : (¬∃ msg, Carries payload msg) → invoked = [] ∧
      ∃ text, accepted = (.ok (.error ⟨.unableToDeserializeMessage, text⟩), state) := by
    intro hno
    obtain ⟨text, htext⟩ := acceptMessage_of_not_carries hno server
    obtain ⟨text', hrecorded⟩ := acceptMessage_of_not_carries hno server.recorded
    exact ⟨congrArg (fun r => r.2.2) (hrecorded (state, [])), text, htext state⟩
  -- so each kind of failure has one cause
  have hcases := carries_cases handlerOf payload
  refine ⟨fun T m hcarries g hg => ?_, fun hno => ?_, ⟨?_, ?_⟩, ⟨?_, ?_⟩⟩
  · obtain ⟨hT, response, hinvoked, hhandler, haccepted⟩ := hdispatches T m hcarries g hg
    refine ⟨hT, response, _, _, hinvoked, hhandler, haccepted, rfl,
      LawfulProtobuf.delimiter_not_mem_fullName _, ?_⟩
    rw [lookup_mappings_reflectionResponse, hpairs, ← hhandlerOf, hg]
    rfl
  · rcases hcases with ⟨T, m, g, hcarries, hg⟩ | ⟨msg, hcarries, hnone⟩ | hcarried
    · exact absurd ⟨⟨T, m⟩, g, hcarries, hg⟩ hno
    · obtain ⟨hinvoked, haccepted⟩ := hunregistered msg hcarries hnone
      exact ⟨hinvoked, by rw [haccepted], _, by rw [haccepted]⟩
    · obtain ⟨hinvoked, text, haccepted⟩ := hunreadable hcarried
      exact ⟨hinvoked, by rw [haccepted], _, by rw [haccepted]⟩
  · rintro ⟨text, htext⟩
    rcases hcases with ⟨T, m, g, hcarries, hg⟩ | hnone | hcarried
    · obtain ⟨-, response, -, -, haccepted⟩ := hdispatches T m hcarries g hg
      rw [haccepted] at htext
      cases htext
    · exact hnone
    · obtain ⟨-, text', haccepted⟩ := hunreadable hcarried
      rw [haccepted] at htext
      cases htext
  · rintro ⟨msg, hcarries, hnone⟩
    exact ⟨_, by rw [(hunregistered msg hcarries hnone).2]⟩
  · rintro ⟨text, htext⟩ hcarried
    rcases hcases with ⟨T, m, g, hcarries, hg⟩ | ⟨msg, hcarries, hnone⟩ | hno
    · obtain ⟨-, response, -, -, haccepted⟩ := hdispatches T m hcarries g hg
      rw [haccepted] at htext
      cases htext
    · rw [(hunregistered msg hcarries hnone).2] at htext
      cases htext
    · exact hno hcarried
  · intro hno
    obtain ⟨-, text, haccepted⟩ := hunreadable hno
    exact ⟨text, by rw [haccepted]⟩

end SyncServer

end

namespace TestProto

/-- A greeting runs the echoing handler, once. -/
theorem acceptMessage_exact_greeting :
    let payload := makePayloadFromProto (T := TestType.helloWorld) { message := str "hi" }
    (((SyncServer.registered .silentIgnore [echo]).recorded.acceptMessage payload ((), [])).2.2 =
      [(echo, ⟨TestType.helloWorld, { message := str "hi" }⟩)]) := by
  obtain ⟨hT, response, name, data, hinvoked, -⟩ := (SyncServer.acceptMessage_exact .silentIgnore
    [echo] (fun g hg m pairs state => by
      obtain rfl := List.mem_singleton.mp hg
      exact ⟨m, rfl⟩)
    (makePayloadFromProto (T := TestType.helloWorld) { message := str "hi" }) ()).1
    TestType.helloWorld { message := str "hi" }
      (makeBaseProtoFromPayload_eq_ok_iff.mp
        (makeBaseProtoFromPayload_makePayloadFromProto (by decide))) echo rfl
  exact hinvoked

/-- The request handler of a server that echoes greetings. -/
abbrev echoHandler : Bytes → Method Unit Bytes :=
  (SyncServer.registered .silentIgnore [echo]).requestHandler

/-- A greeting, as it is sent. -/
def greeting : Bytes := makePayloadFromProto (T := TestType.helloWorld) { message := str "hi" }

end TestProto

end InterProcessCourier
